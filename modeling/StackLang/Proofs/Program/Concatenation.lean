import StackLang.Proofs.Program.Words

-- Texts that follow one another load as one after the other: between them there is a line
-- feed, and no block is open.

namespace StackLang

variable {α : Type}

-- The same blocks are open, on top of operations that were finished before.
def Builder.onto (below : Block α) (b : Builder α) : Builder α :=
  { b with root := b.root ++ below }

theorem Builder.place_onto (below : Block α) (b : Builder α) (op : Op α) :
    (b.onto below).place op = (b.place op).onto below := by
  obtain ⟨root, opened⟩ := b
  cases opened with
  | nil => rfl
  | cons block outer => rfl

-- One step: what is finished is never looked at again.
theorem Builder.step_onto (below : Block α) (b : Builder α) (t : Token α) :
    (b.onto below).step t = (b.step t).map (Builder.onto below) := by
  obtain ⟨lexeme, loc⟩ := t
  cases lexeme with
  | word text =>
      simp only [Builder.step]
      cases Intrinsic.ofText? text with
      | none => rfl
      | some i => exact congrArg Except.ok (Builder.place_onto below b (.intrinsic loc i))
  | int value => exact congrArg Except.ok (Builder.place_onto below b (.push loc value))
  | marker m =>
      obtain ⟨root, opened⟩ := b
      cases m with
      | branch => rfl
      | loop => rfl
      | link | otherwise | body | close =>
          cases opened with
          | nil => rfl
          | cons block outer =>
              simp only [Builder.step, Builder.onto]
              cases block.mark _ loc with
              | error cause => rfl
              | ok marked =>
                  cases marked with
                  | still next => rfl
                  | closed op =>
                      exact congrArg Except.ok (Builder.place_onto below ⟨root, outer⟩ op)

theorem Builder.feed_onto (below : Block α) (b : Builder α) (t : Token α) :
    (b.onto below).feed t = (b.feed t).map (Builder.onto below) := by
  simp only [Builder.feed, Builder.step_onto]
  cases b.step t with
  | ok next => rfl
  | error cause => rfl

theorem Builder.finish_onto (below : Block α) (b : Builder α) (loc : α) :
    (b.onto below).finish loc = (b.finish loc).map (below.reverse ++ ·) := by
  obtain ⟨root, opened⟩ := b
  cases opened with
  | nil => simp [Builder.finish, Builder.onto, Except.map]
  | cons block outer => rfl

-- A whole row.
theorem Builder.readRuns_onto (below : Block α) (b : Builder α) (last : α)
    (runs : List (α × List Char)) :
    (b.onto below).readRuns last runs = (b.readRuns last runs).map (below.reverse ++ ·) := by
  fun_induction Builder.readRuns b last runs with
  | case1 b =>
      rw [Builder.readRuns, Builder.finish_onto]
      cases b.finish last <;> rfl
  | case2 b run more e hclassify => exact Builder.readRuns_of_overlong run hclassify last more
  | case3 b run more lexeme hclassify d hfeed =>
      have honto : (b.onto below).feed ⟨lexeme, run.1⟩ = .error d := by
        rw [Builder.feed_onto, hfeed]
        rfl
      exact Builder.readRuns_of_refused run hclassify honto last more
  | case4 b run more lexeme hclassify next hfeed ih =>
      have honto : (b.onto below).feed ⟨lexeme, run.1⟩ = .ok (next.onto below) := by
        rw [Builder.feed_onto, hfeed]
        rfl
      rw [Builder.readRuns_of_fed run hclassify honto, ih]

-- What is open at the end of a row that loads is nothing, so that another row starts afresh.
theorem Builder.readRuns_append_of_ok {b : Builder α} {last : α} {first : List (α × List Char)}
    {root : Block α} (h : b.readRuns last first = .ok root) (last' : α)
    (second : List (α × List Char)) :
    b.readRuns last' (first ++ second) =
      (Builder.initial.readRuns last' second).map (root ++ ·) := by
  fun_induction Builder.readRuns b last first with
  | case1 b =>
      obtain ⟨below, opened⟩ := b
      cases opened with
      | cons block outer => cases h
      | nil =>
          obtain rfl : below.reverse = root := Except.ok.inj h
          exact Builder.readRuns_onto below Builder.initial last' second
  | case2 b run more e hclassify => cases h
  | case3 b run more lexeme hclassify d hfeed => cases h
  | case4 b run more lexeme hclassify next hfeed ih =>
      rw [List.cons_append, Builder.readRuns_of_fed run hclassify hfeed, ih h]

-- What is refused at a word is refused there whatever follows.
theorem Builder.readRuns_append_of_error {b : Builder α} {last : α}
    {first : List (α × List Char)} {d : Diagnostic α}
    (h : b.readRuns last first = .error (.diagnostic d)) (hd : ¬d.cause.ofEnd) (last' : α)
    (second : List (α × List Char)) :
    b.readRuns last' (first ++ second) = .error (.diagnostic d) := by
  fun_induction Builder.readRuns b last first with
  | case1 b =>
      obtain ⟨below, opened⟩ := b
      cases opened with
      | nil => cases h
      | cons block outer =>
          cases h
          rw [Builder.diagnose_cause] at hd
          exact absurd rfl hd
  | case2 b run more e hclassify => cases h
  | case3 b run more lexeme hclassify found hfeed =>
      rw [List.cons_append, Builder.readRuns_of_refused run hclassify hfeed, h]
  | case4 b run more lexeme hclassify next hfeed ih =>
      rw [List.cons_append, Builder.readRuns_of_fed run hclassify hfeed, ih h]

-- Empty, or ended by a line feed.
def EndsLine (text : List Char) : Prop :=
  ∀ c, text.getLast? = some c → c = '\n'

theorem endsLine_cons {c : Char} {rest : List Char} :
    EndsLine (c :: rest) ↔ (rest = [] → c = '\n') ∧ EndsLine rest := by
  cases rest with
  | nil => simp [EndsLine]
  | cons d rest => simp [EndsLine, List.getLast?_cons_cons]

namespace Lines

-- A CR at the end of the first part would be read as one with a line feed behind it.
theorem newlines_append {a : List Char} (h : EndsLine a) (b : List Char) :
    newlines (a ++ b) = newlines a ++ newlines b := by
  fun_induction newlines a with
  | case1 => rfl
  | case2 rest ih =>
      have hrest := (endsLine_cons.mp (endsLine_cons.mp h).2).2
      simp only [List.cons_append, newlines, ih hrest]
  | case3 rest hne ih =>
      obtain ⟨hnil, hrest⟩ := endsLine_cons.mp h
      cases rest with
      | nil => exact absurd (hnil rfl) (by decide)
      | cons c rest =>
          have hc : c ≠ '\n' := fun hc => hne rest (by rw [hc])
          rw [List.cons_append, List.cons_append, newlines_return hc, List.cons_append, ← ih hrest,
            List.cons_append]
  | case4 c rest _ hc ih =>
      have hrest := (endsLine_cons.mp h).2
      rw [List.cons_append, newlines_cons hc, ih hrest, List.cons_append]

theorem newlines_eq_nil {cs : List Char} (h : newlines cs = []) : cs = [] := by
  fun_cases newlines cs <;> simp_all [newlines]

theorem endsLine_newlines {cs : List Char} (h : EndsLine cs) : EndsLine (newlines cs) := by
  fun_induction newlines cs with
  | case1 => exact h
  | case2 rest ih =>
      have hrest := (endsLine_cons.mp (endsLine_cons.mp h).2).2
      exact endsLine_cons.mpr ⟨fun _ => rfl, ih hrest⟩
  | case3 rest _ ih => exact endsLine_cons.mpr ⟨fun _ => rfl, ih (endsLine_cons.mp h).2⟩
  | case4 c rest _ _ ih =>
      obtain ⟨hnil, hrest⟩ := endsLine_cons.mp h
      exact endsLine_cons.mpr ⟨fun hnone => hnil (newlines_eq_nil hnone), ih hrest⟩

-- No line goes on beyond the first part, so that the second starts one.
theorem split_append_of_endsLine {a : List Char} (h : EndsLine a) {line : List Char}
    (hline : a = [] → line = []) (b : List Char) :
    split line (a ++ b) = split line a ++ split [] b := by
  induction a generalizing line with
  | nil =>
      obtain rfl := hline rfl
      rfl
  | cons c a ih =>
      obtain ⟨hnil, ha⟩ := endsLine_cons.mp h
      rw [List.cons_append, split, split]
      by_cases hc : c = '\n'
      · rw [if_pos hc, if_pos hc, ih ha (fun _ => rfl), List.cons_append]
      · rw [if_neg hc, if_neg hc]
        exact ih ha fun hnone => absurd (hnil hnone) hc

theorem lines_append {first : String} (h : EndsLine first.toList) (second : String) :
    (ofBytes (first ++ second).toUTF8.toList).lines =
      (ofBytes first.toUTF8.toList).lines ++ (ofBytes second.toUTF8.toList).lines := by
  rw [ofBytes_toUTF8, ofBytes_toUTF8, ofBytes_toUTF8, String.toList_append, newlines_append h]
  exact split_append_of_endsLine (endsLine_newlines h) (fun _ => rfl) _

end Lines

-- The same place, that many lines further down.
def Location.down (n : Nat) (loc : Location) : Location :=
  { loc with position := loc.position.map fun p => { p with line := p.line + n } }

theorem runsBelow_append (file : Path) (line : Nat) (a b : List Line) :
    runsBelow file line (a ++ b) = runsBelow file line a ++ runsBelow file (line + a.length) b := by
  induction a generalizing line with
  | nil => rfl
  | cons first rest ih =>
      have hline : line + 1 + rest.length = line + (first :: rest).length := by
        simp only [List.length_cons]
        omega
      rw [List.cons_append, runsBelow, runsBelow, ih, hline, List.append_assoc]

theorem runsBelow_down (file : Path) (line n : Nat) (lines : List Line) :
    runsBelow file (line + n) lines =
      (runsBelow file line lines).map (Prod.map (Location.down n) id) := by
  induction lines generalizing line with
  | nil => rfl
  | cons first rest ih =>
      have hline : line + n + 1 = line + 1 + n := by omega
      rw [runsBelow, runsBelow, hline, ih, List.map_append, List.map_map]
      rfl

theorem endBelow_append (file : Path) (line column : Nat) (buffer : List Char) (a : List Line)
    {b : List Line} (hb : b ≠ []) :
    endBelow file line column buffer (a ++ b) = endBelow file (line + a.length) 1 [] b := by
  induction a generalizing line column buffer with
  | nil =>
      cases b with
      | nil => exact absurd rfl hb
      | cons first rest => rfl
  | cons first rest ih =>
      have hline : line + 1 + rest.length = line + (first :: rest).length := by
        simp only [List.length_cons]
        omega
      rw [List.cons_append, endBelow, ih, hline]

theorem endBelow_down (file : Path) {line : Nat} (n column : Nat) (buffer : List Char)
    {lines : List Line} (h : 0 < line ∨ lines ≠ []) :
    endBelow file (line + n) column buffer lines =
      (endBelow file line column buffer lines).down n := by
  induction lines generalizing line column buffer with
  | nil =>
      have hline : 0 < line := h.resolve_right (by simp)
      have hne : line ≠ 0 := by omega
      have hne' : line + n ≠ 0 := by omega
      simp only [endBelow, hne, hne', if_false, Location.down, Option.map_some]
  | cons first rest ih =>
      have hline : line + n + 1 = line + 1 + n := by omega
      rw [endBelow, endBelow, hline]
      exact ih 1 first (.inl (Nat.succ_pos line))

-- How many lines a text has.
def lineCount (text : String) : Nat :=
  (Lines.ofBytes text.toUTF8.toList).lines.length

section Append

variable {given first : String}

theorem fileRuns_append (hfirst : EndsLine first.toList) (second : String) :
    fileRuns given (first ++ second).toUTF8.toList =
      fileRuns given first.toUTF8.toList ++ (fileRuns given second.toUTF8.toList).map
        (Prod.map (Location.down (lineCount first)) id) := by
  rw [fileRuns, Lines.lines_append hfirst, runsBelow_append, runsBelow_down]
  rfl

theorem fileEnd_append (hfirst : EndsLine first.toList) {second : String}
    (hsecond : (Lines.ofBytes second.toUTF8.toList).lines ≠ []) :
    fileEnd given (first ++ second).toUTF8.toList =
      (fileEnd given second.toUTF8.toList).down (lineCount first) := by
  simp only [fileEnd, Stream.endCursor, Stream.start]
  rw [Lines.lines_append hfirst, endBelow_append _ _ _ _ _ hsecond,
    endBelow_down _ _ _ _ (.inr hsecond)]
  rfl

-- Behind a program, a text is read as it is read alone, only further down. Its end is
-- further down as well, unless there is no line in it; but then no block is open there.
theorem readText_append_of_ok (hfirst : EndsLine first.toList) {root : Block Location}
    (h : readText given first = .ok root) (second : String) :
    readText given (first ++ second) =
      (((readText given second).map (Block.mapLoc (Location.down (lineCount first)))).mapError
        (Refusal.map (Location.down (lineCount first)))).map (root ++ ·) := by
  have hinitial : Builder.initial.map (Location.down (lineCount first)) = Builder.initial := rfl
  rw [readText, fileRuns_append hfirst, Builder.readRuns_append_of_ok h, readText,
    ← Builder.map_readRuns, hinitial]
  congr 1
  by_cases hnone : (Lines.ofBytes second.toUTF8.toList).lines = []
  · rw [fileRuns, hnone]
    rfl
  · rw [fileEnd_append hfirst hnone]

theorem readText_append_of_error (hfirst : EndsLine first.toList) {d : Diagnostic Location}
    (h : readText given first = .error (.diagnostic d)) (hd : ¬d.cause.ofEnd) (second : String) :
    readText given (first ++ second) = .error (.diagnostic d) := by
  rw [readText, fileRuns_append hfirst, Builder.readRuns_append_of_error h hd]

end Append

theorem Refusal.failure_injective : Function.Injective Refusal.failure := by
  intro a b h
  cases a with
  | diagnostic d =>
      cases b with
      | diagnostic d' => exact congrArg Refusal.diagnostic (Failure.diagnostic.inj h)
      | tooManyDigits count => cases h
  | tooManyDigits count =>
      cases b with
      | diagnostic d => cases h
      | tooManyDigits count' => exact congrArg Refusal.tooManyDigits (Failure.tooManyDigits.inj h)

theorem mapError_failure_injective {x y : Except (Refusal Location) (Block Location)}
    (h : x.mapError Refusal.failure = y.mapError Refusal.failure) : x = y := by
  cases x with
  | ok root =>
      cases y with
      | ok root' => exact congrArg Except.ok (Except.ok.inj h)
      | error refusal => cases h
  | error refusal =>
      cases y with
      | ok root => cases h
      | error refusal' =>
          exact congrArg Except.error (Refusal.failure_injective (Except.error.inj h))

-- Whether a regular file can be opened depends on its path alone.
theorem openFile_regular_cases (file : Path) :
    (∀ bytes, openFile file (.regular bytes) = .error .nulInPath) ∨
    ∀ bytes, openFile file (.regular bytes) = .ok (.start file (.ofBytes bytes)) := by
  unfold openFile
  split
  · exact .inl fun _ => rfl
  · exact .inr fun _ => rfl

-- A text that is empty or ends with a line feed can be followed by any other. If the first
-- loads, both load as its operations and then those of the second, which stand as many
-- lines further down as the first has, and what the second fails with is what both fail
-- with, that many lines further down. If a word of the first is refused, the second is
-- never come to.
theorem loadText_append (given : String) {first : String}
    (hfirst : first = "" ∨ first.toList.getLast? = some '\n') (second : String) :
    (∀ root, loadText given first = .ok root →
      (∀ more, loadText given second = .ok more →
        loadText given (first ++ second) =
          .ok (root ++ Block.mapLoc (Location.down (lineCount first)) more)) ∧
      (∀ d, loadText given second = .error (.diagnostic d) →
        loadText given (first ++ second) =
          .error (.diagnostic (d.map (Location.down (lineCount first))))) ∧
      ∀ count, loadText given second = .error (.tooManyDigits count) →
        loadText given (first ++ second) = .error (.tooManyDigits count)) ∧
    ∀ d, loadText given first = .error (.diagnostic d) → ¬d.cause.ofEnd →
      loadText given (first ++ second) = .error (.diagnostic d) := by
  have hends : EndsLine first.toList := by
    rcases hfirst with rfl | hlast
    · simp [EndsLine]
    · simp [EndsLine, hlast]
  rcases openFile_regular_cases (.ofText given) with hnul | hopen
  · have hload : ∀ text, loadText given text = .error .nulInPath := by
      intro text
      simp only [loadText, loadFile_value, parseFile, hnul]
    simp [hload]
  · have hload : ∀ text, loadText given text = (readText given text).mapError Refusal.failure :=
      fun text => loadText_eq_readText (hopen text.toUTF8.toList)
    have hread : ∀ text outcome, loadText given text = Except.mapError Refusal.failure outcome →
        readText given text = outcome := by
      intro text outcome h
      exact mapError_failure_injective ((hload text).symm.trans h)
    refine ⟨fun root hroot => ⟨?_, ?_, ?_⟩, ?_⟩
    · intro more hmore
      rw [hload, readText_append_of_ok hends (hread first (.ok root) hroot),
        hread second (.ok more) hmore]
      rfl
    · intro d hd
      rw [hload, readText_append_of_ok hends (hread first (.ok root) hroot),
        hread second (.error (.diagnostic d)) hd]
      rfl
    · intro count hcount
      rw [hload, readText_append_of_ok hends (hread first (.ok root) hroot),
        hread second (.error (.tooManyDigits count)) hcount]
      rfl
    · intro d hd hcause
      rw [hload, readText_append_of_error hends (hread first (.error (.diagnostic d)) hd) hcause]
      rfl

-- Three lines that load, and three with a fault inside a loop.
def headSample : String := "1 // one\r\n\nif 2 end\n"

def tailSample : String := " dup\nwhile do print\n  else // end"

theorem loadText_append_headSample :
    headSample.toList.getLast? = some '\n' ∧
    ∃ root d, loadText "main" headSample = .ok root ∧
      loadText "main" tailSample = .error (.diagnostic d) ∧
      d.loc = some ⟨⟨0, ["main"]⟩, some ⟨3, 3⟩⟩ ∧
      loadText "main" (headSample ++ tailSample) =
        .error (.diagnostic (d.map (Location.down 3))) := by
  have hlast : headSample.toList.getLast? = some '\n' := by decide
  have hlines : lineCount headSample = 3 := by decide +kernel
  have hhead : (loadText "main" headSample).isOk = true := by decide +kernel
  have htail : refusedAt? (loadText "main" tailSample) =
      some ⟨⟨0, ["main"]⟩, some ⟨3, 3⟩⟩ := by decide +kernel
  obtain ⟨d, hd, hloc⟩ := exists_diagnostic_of_refusedAt htail
  cases hroot : loadText "main" headSample with
  | error failure =>
      rw [hroot] at hhead
      cases hhead
  | ok root =>
      have hboth := ((loadText_append "main" (.inr hlast) tailSample).1 root hroot).2.1 d hd
      rw [hlines] at hboth
      exact ⟨hlast, root, d, rfl, hd, hloc, hboth⟩

end StackLang
