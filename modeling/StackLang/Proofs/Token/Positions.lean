import Mathlib.Data.List.TakeWhile
import StackLang.Proofs.Source.Decoding
import StackLang.Proofs.Token.Classify
import StackLang.Proofs.Token.Delivery

-- The runs of a text and their positions, told from the text alone: the stream
-- hands out exactly these.

namespace StackLang

-- A run starts behind a blank, or at the start of a line.
def startsRun (cs : List Char) : Nat → Bool
  | 0 => cs.head?.any (!Text.isBlank ·)
  | i + 1 => cs[i]?.any Text.isBlank && cs[i + 1]?.any (!Text.isBlank ·)

-- The longest runs without blanks, each with the number of characters before it.
def wholeRuns (line : List Char) : List (Nat × List Char) :=
  ((List.range line.length).filter (startsRun line)).map fun i =>
    (i, (line.drop i).takeWhile (!Text.isBlank ·))

-- The runs in front of a comment.
def shownRuns (line : List Char) : List (Nat × List Char) :=
  (wholeRuns line).takeWhile fun run => !(['/', '/'].isPrefixOf run.2)

def textRuns (text : List Char) : List (Position × List Char) :=
  (text.splitOn '\n').zipIdx.flatMap fun line =>
    (shownRuns line.1).map fun run => (⟨line.2 + 1, run.1 + 1⟩, run.2)

def Position.Before (p q : Position) : Prop :=
  p.line < q.line ∨ p.line = q.line ∧ p.column < q.column

theorem startsRun_cons {c : Char} (h : Text.isBlank c = true) (rest : List Char) (i : Nat) :
    startsRun (c :: rest) (i + 1) = startsRun rest i := by
  cases i with
  | zero => simp [startsRun, h, List.head?_eq_getElem?]
  | succ i => simp [startsRun]

theorem wholeRuns_cons {c : Char} (h : Text.isBlank c = true) (rest : List Char) :
    wholeRuns (c :: rest) = (wholeRuns rest).map fun run => (1 + run.1, run.2) := by
  have hfirst : startsRun (c :: rest) 0 = false := by simp [startsRun, h]
  have hnext : startsRun (c :: rest) ∘ Nat.succ = startsRun rest :=
    funext (startsRun_cons h rest)
  simp only [wholeRuns, List.length_cons, List.range_succ_eq_map, List.filter_cons, hfirst,
    Bool.false_eq_true, if_false, List.filter_map, hnext, List.map_map]
  apply List.map_congr_left
  intro i _
  simp [Nat.add_comm]

theorem wholeRuns_append_blanks {blanks : List Char} (h : ∀ c ∈ blanks, Text.isBlank c = true)
    (rest : List Char) :
    wholeRuns (blanks ++ rest) =
      (wholeRuns rest).map fun run => (blanks.length + run.1, run.2) := by
  induction blanks with
  | nil => simp
  | cons c blanks ih =>
      have hrest := ih fun d hd => h d (List.mem_cons_of_mem c hd)
      rw [List.cons_append, wholeRuns_cons (h c List.mem_cons_self), hrest, List.map_map]
      apply List.map_congr_left
      intro run _
      simp only [Function.comp, List.length_cons]
      congr 1
      omega

theorem wholeRuns_of_blanks {blanks : List Char} (h : ∀ c ∈ blanks, Text.isBlank c = true) :
    wholeRuns blanks = [] := by
  have hnone := wholeRuns_append_blanks h []
  rw [List.append_nil] at hnone
  exact hnone

-- Inside a run no other starts, and what is behind it does not see it.
theorem startsRun_append {run rest : List Char} (hne : run ≠ [])
    (hrun : ∀ c ∈ run, Text.isBlank c = false)
    (hrest : ∀ c, rest.head? = some c → Text.isBlank c = true) (i : Nat) :
    startsRun (run ++ rest) (run.length + i) = startsRun rest i := by
  have hpos : 0 < run.length := List.length_pos_iff.mpr hne
  obtain ⟨k, hk⟩ : ∃ k, run.length = k + 1 := Nat.exists_eq_add_one.mpr hpos
  cases i with
  | zero =>
      have hlast : Text.isBlank run[k] = false := hrun _ (List.getElem_mem _)
      have hhead : rest.head?.any (!Text.isBlank ·) = false := by
        cases rest with
        | nil => rfl
        | cons c rest => simp [hrest c rfl]
      simp only [Nat.add_zero, hk, startsRun, hhead]
      rw [List.getElem?_append_left (by omega), List.getElem?_eq_getElem (by omega)]
      simp [hlast]
  | succ i =>
      have hi : run.length + (i + 1) = (run.length + i) + 1 := rfl
      rw [hi, startsRun, startsRun, List.getElem?_append_right (by omega),
        List.getElem?_append_right (by omega)]
      congr 3
      · omega
      · omega

theorem filter_startsRun_run {run : List Char} (hne : run ≠ [])
    (hrun : ∀ c ∈ run, Text.isBlank c = false) (rest : List Char) :
    (List.range run.length).filter (startsRun (run ++ rest)) = [0] := by
  obtain ⟨c, tail, rfl⟩ := List.exists_cons_of_ne_nil hne
  have hfirst : startsRun ((c :: tail) ++ rest) 0 = true := by
    simp [startsRun, hrun c List.mem_cons_self]
  have hnone : ∀ i ∈ List.range tail.length,
      ¬(startsRun ((c :: tail) ++ rest) ∘ Nat.succ) i = true := by
    intro i hi
    have hlt : i < (c :: tail).length := by
      have := List.mem_range.mp hi
      simp only [List.length_cons]
      omega
    have hprev : Text.isBlank (c :: tail)[i] = false := hrun _ (List.getElem_mem _)
    simp only [Function.comp, startsRun]
    rw [List.getElem?_append_left hlt, List.getElem?_eq_getElem hlt]
    simp [hprev]
  rw [List.length_cons, List.range_succ_eq_map, List.filter_cons, if_pos hfirst, List.filter_map,
    List.filter_eq_nil_iff.mpr hnone, List.map_nil]

theorem wholeRuns_append_run {run rest : List Char} (hne : run ≠ [])
    (hrun : ∀ c ∈ run, Text.isBlank c = false)
    (hrest : ∀ c, rest.head? = some c → Text.isBlank c = true) :
    wholeRuns (run ++ rest) =
      (0, run) :: (wholeRuns rest).map fun next => (run.length + next.1, next.2) := by
  have hbehind : startsRun (run ++ rest) ∘ (run.length + ·) = startsRun rest :=
    funext (startsRun_append hne hrun hrest)
  rw [wholeRuns, List.length_append, List.range_add, List.filter_append,
    filter_startsRun_run hne hrun, List.filter_map, hbehind, List.map_append, List.map_map]
  simp only [List.map_cons, List.map_nil, List.drop_zero, takeWhile_run hrun hrest,
    List.singleton_append, wholeRuns, List.map_map]
  congr 1
  apply List.map_congr_left
  intro i _
  simp

-- The blank behind the last run, such as a line feed, makes no difference.
theorem wholeRuns_concat {c : Char} (h : Text.isBlank c = true) (line : List Char) :
    wholeRuns (line ++ [c]) = wholeRuns line := by
  have hlast : startsRun (line ++ [c]) line.length = false := by
    cases hlength : line.length with
    | zero => simp [List.length_eq_zero_iff.mp hlength, startsRun, h]
    | succ n =>
        have hget : (line ++ [c])[n + 1]? = some c := by simp [← hlength]
        simp [startsRun, hget, h]
  have hbefore : ∀ i ∈ List.range line.length, startsRun (line ++ [c]) i = startsRun line i := by
    intro i hi
    have hlt := List.mem_range.mp hi
    cases i with
    | zero => rw [startsRun, startsRun, List.head?_append_of_ne_nil _ (List.length_pos_iff.mp hlt)]
    | succ i =>
        rw [startsRun, startsRun, List.getElem?_append_left hlt,
          List.getElem?_append_left (by omega)]
  rw [wholeRuns, List.length_append, List.length_singleton, List.range_succ, List.filter_append,
    List.filter_congr hbefore, List.filter_singleton, hlast]
  simp only [List.append_nil, cond_false]
  apply List.map_congr_left
  intro i hi
  have hlt := List.mem_range.mp (List.mem_filter.mp hi).1
  have hstart := List.takeWhile_prefix (!Text.isBlank ·) (l := line.drop i)
  rw [List.drop_append_of_le_length (by omega), List.takeWhile_append]
  split
  · next hlength => simp [h, hstart.eq_of_length hlength]
  · rfl

theorem exists_run (line : List Char) :
    (∀ c ∈ line, Text.isBlank c = true) ∨
    ∃ before run rest, line = before ++ (run ++ rest) ∧ run ≠ [] ∧
      (∀ c ∈ before, Text.isBlank c = true) ∧ (∀ c ∈ run, Text.isBlank c = false) ∧
      ∀ c, rest.head? = some c → Text.isBlank c = true := by
  cases htail : line.dropWhile Text.isBlank with
  | nil => exact .inl (List.dropWhile_eq_nil_iff.mp htail)
  | cons c tail =>
      have hc : Text.isBlank c = false := by
        have hhead := List.head?_dropWhile_not Text.isBlank line
        simpa [htail] using hhead
      refine .inr ⟨line.takeWhile Text.isBlank, c :: tail.takeWhile (!Text.isBlank ·),
        tail.dropWhile (!Text.isBlank ·), ?_, by simp, ?_, ?_, ?_⟩
      · rw [List.cons_append, List.takeWhile_append_dropWhile, ← htail,
          List.takeWhile_append_dropWhile]
      · intro d hd
        exact List.mem_takeWhile_imp hd
      · intro d hd
        rcases List.mem_cons.mp hd with rfl | hd
        · exact hc
        · simpa using List.mem_takeWhile_imp hd
      · intro d hd
        have hhead := List.head?_dropWhile_not (!Text.isBlank ·) tail
        simpa [hd] using hhead

theorem shownRuns_append {before run rest : List Char}
    (hbefore : ∀ c ∈ before, Text.isBlank c = true) (hne : run ≠ [])
    (hrun : ∀ c ∈ run, Text.isBlank c = false)
    (hrest : ∀ c, rest.head? = some c → Text.isBlank c = true) :
    shownRuns (before ++ (run ++ rest)) =
      if ['/', '/'] <+: run then [] else
        (before.length, run) ::
          (shownRuns rest).map fun next => (before.length + run.length + next.1, next.2) := by
  rw [shownRuns, wholeRuns_append_blanks hbefore, wholeRuns_append_run hne hrun hrest,
    List.map_cons, List.map_map, List.takeWhile_cons]
  by_cases hcomment : ['/', '/'] <+: run
  · have hopens := List.isPrefixOf_iff_prefix.mpr hcomment
    simp [hopens, hcomment]
  · have hplain : ['/', '/'].isPrefixOf run = false := by
      simpa [← List.isPrefixOf_iff_prefix] using hcomment
    simp only [hplain, Bool.not_false, if_true, hcomment, if_false, List.takeWhile_map,
      Nat.add_zero, shownRuns]
    congr 1
    apply List.map_congr_left
    intro next _
    simp only [Function.comp]
    congr 1
    omega

-- The scanner finds the runs of a line, each where it stands. The induction is on
-- the length of the line, a run at a time.
theorem lineRuns_eq (column : Nat) (line : List Char) :
    lineRuns column line = (shownRuns line).map fun run => (column + run.1, run.2) := by
  obtain hblank | ⟨before, run, rest, rfl, hne, hbefore, hrun, hrest⟩ := exists_run line
  · rw [lineRuns_of_blanks hblank, shownRuns, wholeRuns_of_blanks hblank]
    rfl
  · rw [shownRuns_append hbefore hne hrun hrest]
    by_cases hcomment : ['/', '/'] <+: run
    · obtain ⟨more, rfl⟩ := hcomment
      rw [if_pos (List.prefix_append _ _), List.map_nil]
      exact lineRuns_of_nothing (scan_of_comment hbefore column (more ++ rest))
    · have hshorter : 0 < run.length := List.length_pos_iff.mpr hne
      rw [if_neg hcomment, lineRuns_of_isRun ⟨hne, hrun, hcomment⟩ hbefore hrest,
        lineRuns_eq _ rest, List.map_cons, List.map_map]
      congr 1
      apply List.map_congr_left
      intro next _
      simp only [Function.comp]
      congr 1
      omega
termination_by line.length
decreasing_by
  subst_vars
  simp only [List.length_append]
  omega

theorem runsBelow_eq (file : Path) (above : Nat) (lines : List Line) :
    runsBelow file above lines = (lines.zipIdx above).flatMap fun line =>
      (shownRuns line.1).map fun run => (⟨file, some ⟨line.2 + 1, run.1 + 1⟩⟩, run.2) := by
  induction lines generalizing above with
  | nil => rfl
  | cons first rest ih =>
      rw [runsBelow, ih, lineRuns_eq, List.map_map, List.zipIdx_cons, List.flatMap_cons]
      congr 1
      apply List.map_congr_left
      intro run _
      simp only [Function.comp, Nat.add_comm]

theorem modifyHead_append_nil (pieces : List (List Char)) :
    pieces.modifyHead (([] : List Char).reverse ++ ·) = pieces := by
  cases pieces <;> rfl

-- Splitting after each line feed or at each makes no difference to what does not
-- see line feeds and finds nothing in an empty line.
theorem flatMap_split {β : Type} {f : Line × Nat → List β} (hnil : ∀ above, f ([], above) = [])
    (hfeed : ∀ line above, f (line ++ ['\n'], above) = f (line, above)) (done : List Char)
    (above : Nat) (text : List Char) :
    ((Lines.split done text).zipIdx above).flatMap f =
      (((text.splitOn '\n').modifyHead (done.reverse ++ ·)).zipIdx above).flatMap f := by
  induction text generalizing done above with
  | nil =>
      cases done with
      | nil => simp [Lines.split, hnil]
      | cons c done => simp [Lines.split]
  | cons c text ih =>
      rw [List.splitOn_eq_splitOnP, List.splitOnP_cons_eq_if_modifyHead,
        ← List.splitOn_eq_splitOnP, Lines.split]
      by_cases hc : c = '\n'
      · have hrest := ih [] (above + 1)
        rw [modifyHead_append_nil] at hrest
        simp [hc, hfeed, hrest]
      · have hrest := ih (c :: done) above
        simp [hc, hrest, List.modifyHead_modifyHead, Function.comp_def]

theorem runsBelow_split (file : Path) (text : List Char) :
    runsBelow file 0 (Lines.split [] text) =
      (textRuns text).map fun run => (⟨file, some run.1⟩, run.2) := by
  have hnil : shownRuns [] = [] := rfl
  have hfeed : ∀ line, shownRuns (line ++ ['\n']) = shownRuns line := by
    intro line
    rw [shownRuns, wholeRuns_concat (by decide), shownRuns]
  rw [runsBelow_eq, flatMap_split (by simp [hnil]) (by simp [hfeed]), modifyHead_append_nil,
    textRuns, List.map_flatMap]
  simp only [List.map_map, Function.comp_def]

theorem pairwise_wholeRuns (line : List Char) :
    (wholeRuns line).Pairwise fun a b => a.1 < b.1 := by
  rw [wholeRuns, List.pairwise_map]
  exact List.pairwise_lt_range.filter _

theorem pairwise_textRuns (text : List Char) :
    (textRuns text).Pairwise fun a b => a.1.Before b.1 := by
  rw [textRuns, List.pairwise_flatMap]
  constructor
  · intro line _
    have hrow : (shownRuns line.1).Pairwise fun a b => a.1 < b.1 :=
      (pairwise_wholeRuns line.1).sublist (List.takeWhile_sublist _)
    refine List.pairwise_map.mpr (hrow.imp ?_)
    intro a b hab
    exact .inr ⟨rfl, Nat.succ_lt_succ hab⟩
  · have hindex : (text.splitOn '\n').zipIdx.Pairwise fun a b => a.2 < b.2 := by
      rw [← List.pairwise_map, List.zipIdx_map_snd]
      exact List.pairwise_lt_range'
    refine hindex.imp ?_
    intro a b hab x hx y hy
    obtain ⟨_, _, rfl⟩ := List.mem_map.mp hx
    obtain ⟨_, _, rfl⟩ := List.mem_map.mp hy
    exact .inl (Nat.succ_lt_succ hab)

-- What is taken from an ascending list up to some member.
theorem mem_takeWhile_of_pairwise {β : Type} {p : Nat × β → Bool} {l : List (Nat × β)}
    (h : l.Pairwise fun a b => a.1 < b.1) {x : Nat × β} :
    x ∈ l.takeWhile p ↔ x ∈ l ∧ ∀ y ∈ l, y.1 ≤ x.1 → p y = true := by
  induction l with
  | nil => simp
  | cons first rest ih =>
      obtain ⟨hfirst, hrest⟩ := List.pairwise_cons.mp h
      have hih := ih hrest
      rw [List.takeWhile_cons]
      by_cases hp : p first = true
      · rw [if_pos hp, List.mem_cons, List.mem_cons, hih]
        constructor
        · rintro (rfl | ⟨hx, hall⟩)
          · refine ⟨.inl rfl, ?_⟩
            intro y hy hle
            rcases List.mem_cons.mp hy with rfl | hy
            · exact hp
            · have := hfirst y hy
              omega
          · refine ⟨.inr hx, ?_⟩
            intro y hy hle
            rcases List.mem_cons.mp hy with rfl | hy
            · exact hp
            · exact hall y hy hle
        · rintro ⟨rfl | hx, hall⟩
          · exact .inl rfl
          · exact .inr ⟨hx, fun y hy hle => hall y (List.mem_cons_of_mem first hy) hle⟩
      · rw [if_neg hp]
        constructor
        · intro hx
          cases hx
        · rintro ⟨hx, hall⟩
          have hle : first.1 ≤ x.1 := by
            rcases List.mem_cons.mp hx with rfl | hx
            · exact Nat.le_refl _
            · exact Nat.le_of_lt (hfirst x hx)
          exact absurd (hall first List.mem_cons_self hle) hp

-- Two slashes hide a run only where they open it, or a run before it in its line.
theorem mem_shownRuns {line : List Char} {run : Nat × List Char} :
    run ∈ shownRuns line ↔ run ∈ wholeRuns line ∧
      ∀ other ∈ wholeRuns line, other.1 ≤ run.1 → ¬['/', '/'] <+: other.2 := by
  rw [shownRuns, mem_takeWhile_of_pairwise (pairwise_wholeRuns line)]
  simp only [Bool.not_eq_true', ← Bool.not_eq_true, List.isPrefixOf_iff_prefix]

theorem eq_of_mem_wholeRuns {line : List Char} {run other : Nat × List Char}
    (hrun : run ∈ wholeRuns line) (hother : other ∈ wholeRuns line) (h : run.1 = other.1) :
    run = other := by
  obtain ⟨i, _, rfl⟩ := List.mem_map.mp hrun
  obtain ⟨j, _, rfl⟩ := List.mem_map.mp hother
  obtain rfl : i = j := h
  rfl

theorem mem_textRuns_iff {text line : List Char} {i : Nat} {run : Nat × List Char}
    (hline : (text.splitOn '\n')[i]? = some line) (hrun : run ∈ wholeRuns line) :
    (∃ found ∈ textRuns text, found.1 = ⟨i + 1, run.1 + 1⟩) ↔ run ∈ shownRuns line := by
  constructor
  · rintro ⟨found, hfound, hat⟩
    obtain ⟨⟨other, j⟩, hj, hmem⟩ := List.mem_flatMap.mp hfound
    obtain ⟨shown, hshown, rfl⟩ := List.mem_map.mp hmem
    simp only [Position.mk.injEq, Nat.add_right_cancel_iff] at hat
    obtain ⟨rfl, hcolumn⟩ := hat
    have hother := List.mem_zipIdx_iff_getElem?.mp hj
    obtain rfl := Option.some.inj (hline.symm.trans hother)
    rwa [← eq_of_mem_wholeRuns (mem_shownRuns.mp hshown).1 hrun hcolumn]
  · intro hshown
    refine ⟨(⟨i + 1, run.1 + 1⟩, run.2), List.mem_flatMap.mpr ⟨(line, i), ?_, ?_⟩, rfl⟩
    · exact List.mem_zipIdx_iff_getElem?.mpr hline
    · exact List.mem_map.mpr ⟨run, hshown, rfl⟩

theorem exists_becomes {runs : List Found}
    (h : ∀ run ∈ runs, ∀ digits ∈ Lexeme.digits? run.2, digits.length ≤ maxDigits) :
    ∃ tokens, List.Forall₂ Found.Becomes runs tokens := by
  rcases exists_becomes_or_overlong runs with htokens | ⟨before, run, more, _, e, rfl, _, he⟩
  · exact htokens
  · obtain ⟨digits, hdigits, hlimit, _⟩ := Lexeme.classify_eq_error_iff.mp he
    have hshort := h run (by simp) digits hdigits
    omega

theorem map_of_becomes {runs : List Found} {tokens : List (Token Location)}
    (h : List.Forall₂ Found.Becomes runs tokens) :
    tokens.map Token.loc = runs.map Prod.fst ∧
    (tokens.map fun token => Except.ok token.lexeme) =
      runs.map fun run => Lexeme.classify run.2 := by
  induction h with
  | nil => exact ⟨rfl, rfl⟩
  | cons hrun _ ih =>
      simp only [List.map_cons, ih.1, ih.2, hrun.1, hrun.2, and_self]

-- The tokens of a text are its runs up to the comments, line by line and from
-- left to right. Each stands where its run does, and is what its run reads as.
theorem rest_eq_textRuns (file : Path) (text : String) (log : List Notice)
    (hdigits : ∀ run ∈ textRuns (Lines.newlines text.toList),
      ∀ digits ∈ Lexeme.digits? run.2, digits.length ≤ maxDigits) :
    ∃ rest, (Stream.start file (.ofBytes text.toUTF8.toList)).rest log = rest ∧
      rest.fault = none ∧
      (rest.tokens.map Token.loc = (textRuns (Lines.newlines text.toList)).map fun run =>
        ⟨file, some run.1⟩) ∧
      ((rest.tokens.map fun token => .ok token.lexeme) =
        (textRuns (Lines.newlines text.toList)).map fun run => Lexeme.classify run.2) ∧
      (rest.tokens.Pairwise fun a b => ∃ p q, a.loc = ⟨file, some p⟩ ∧ b.loc = ⟨file, some q⟩ ∧
        p.Before q) ∧
      ∀ i line, ((Lines.newlines text.toList).splitOn '\n')[i]? = some line →
        ∀ run ∈ wholeRuns line,
          ((∃ token ∈ rest.tokens, token.loc = ⟨file, some ⟨i + 1, run.1 + 1⟩⟩) ↔
            ∀ other ∈ wholeRuns line, other.1 ≤ run.1 → ¬['/', '/'] <+: other.2) := by
  have hruns : (Stream.start file (.ofBytes text.toUTF8.toList)).runs =
      (textRuns (Lines.newlines text.toList)).map fun run => (⟨file, some run.1⟩, run.2) := by
    rw [Stream.runs_start, Lines.ofBytes_toUTF8]
    exact runsBelow_split file (Lines.newlines text.toList)
  have hfault : (Stream.start file (.ofBytes text.toUTF8.toList)).fault = none := by
    rw [Lines.ofBytes_toUTF8]
    rfl
  obtain ⟨tokens, hbecomes⟩ : ∃ tokens, List.Forall₂ Found.Becomes
      (Stream.start file (.ofBytes text.toUTF8.toList)).runs tokens := by
    apply exists_becomes
    rw [hruns]
    intro run hrun
    obtain ⟨found, hfound, rfl⟩ := List.mem_map.mp hrun
    exact hdigits found hfound
  obtain ⟨last, hdelivers⟩ := Stream.delivers_of_becomes rfl hbecomes
  obtain ⟨htokens, hend, _⟩ := hdelivers.restFrom log []
  obtain ⟨hloc, hlexeme⟩ := map_of_becomes hbecomes
  rw [hruns, List.map_map] at hloc hlexeme
  refine ⟨_, rfl, ?_, ?_, ?_, ?_, ?_⟩
  all_goals simp only [Stream.rest, htokens, hend, hfault]
  · rfl
  · exact hloc
  · exact hlexeme
  · have hlocs : (tokens.map Token.loc).Pairwise fun a b => ∃ p q : Position,
        a = ⟨file, some p⟩ ∧ b = ⟨file, some q⟩ ∧ p.Before q := by
      rw [hloc, List.pairwise_map]
      exact (pairwise_textRuns _).imp fun hab => ⟨_, _, rfl, rfl, hab⟩
    exact List.pairwise_map.mp hlocs
  · intro i line hline run hrun
    have hmem : (⟨file, some ⟨i + 1, run.1 + 1⟩⟩ : Location) ∈ tokens.map Token.loc ↔
        ∃ found ∈ textRuns (Lines.newlines text.toList), found.1 = ⟨i + 1, run.1 + 1⟩ := by
      rw [hloc]
      simp
    rw [mem_textRuns_iff hline hrun, mem_shownRuns, and_iff_right hrun, List.mem_map] at hmem
    exact hmem

-- A comment behind a run, a run with slashes inside, and an empty line.
def slashedSample : String := "+7 x//y // 8\r\n\r\tif 9//"

theorem rest_eq_textRuns_slashedSample :
    textRuns (Lines.newlines slashedSample.toList) =
      [(⟨1, 1⟩, ['+', '7']), (⟨1, 4⟩, ['x', '/', '/', 'y']), (⟨3, 2⟩, ['i', 'f']),
        (⟨3, 5⟩, ['9', '/', '/'])] ∧
    ∃ rest, (Stream.start ⟨0, ["main"]⟩ (.ofBytes slashedSample.toUTF8.toList)).rest [] = rest ∧
      rest.fault = none ∧
      (rest.tokens.map Token.loc = (textRuns (Lines.newlines slashedSample.toList)).map fun run =>
        ⟨⟨0, ["main"]⟩, some run.1⟩) ∧
      (rest.tokens.map fun token => .ok token.lexeme) =
        (textRuns (Lines.newlines slashedSample.toList)).map fun run =>
          Lexeme.classify run.2 := by
  have hdigits : ∀ run ∈ textRuns (Lines.newlines slashedSample.toList),
      ∀ digits ∈ Lexeme.digits? run.2, digits.length ≤ maxDigits := by decide
  obtain ⟨rest, hrest, hfault, hloc, hlexeme, _⟩ :=
    rest_eq_textRuns ⟨0, ["main"]⟩ slashedSample [] hdigits
  exact ⟨by decide, rest, hrest, hfault, hloc, hlexeme⟩

end StackLang
