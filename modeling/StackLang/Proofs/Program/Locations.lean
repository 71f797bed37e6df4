import StackLang.Proofs.Machine.Reporting
import StackLang.Proofs.Parse.Nesting
import StackLang.Proofs.Program.Failures
import StackLang.Proofs.Program.Lazy

-- What a run reports points at the source: the location of a warning or of a failure is
-- that of a word in the text, and this is the word that the program was at.

namespace StackLang

-- The word is a run of the text of a file, and the location that of the run.
def StandsAt (given text word : String) (loc : Location) : Prop :=
  ∃ p, loc = ⟨.ofText given, some p⟩ ∧
    (p, word.toList) ∈ textRuns (Lines.newlines text.toList)

theorem tokenize_of_open {given : String} {state : FileState} {s last : Stream}
    {tokens : List (Token Location)} (hopen : openFile (.ofText given) state = .ok s)
    (h : s.Delivers tokens none last) : (tokenize given state).value = .ok tokens := by
  obtain ⟨htokens, hfault, _⟩ := h.restFrom [.opened s.file] []
  simp only [tokenize, hopen, Stream.rest, hfault, htokens, List.reverse_nil, List.nil_append]

-- What there is to a file that loads: a text, its tokens, and the tree that is spelled
-- with them.
structure Loads (given text : String) (tokens : List (Token Location)) (root : Block Location) :
    Prop where
  tokenized : (tokenize given (.regular text.toUTF8.toList)).value = .ok tokens
  runs : List.Forall₂ Found.Becomes ((textRuns (Lines.newlines text.toList)).map fun run =>
    (⟨.ofText given, some run.1⟩, run.2)) tokens
  spelling : Block.spelling root = tokens.map Token.kept
  nodup : (tokens.map Token.loc).Nodup

theorem exists_loads {given : String} {state : FileState} {root : Block Location}
    (h : (loadFile given state).value = .ok root) :
    ∃ text tokens, state = .regular text.toUTF8.toList ∧ Loads given text tokens root := by
  rw [loadFile_value] at h
  cases hopen : openFile (.ofText given) state with
  | error failure => simp [parseFile, hopen] at h
  | ok s =>
      obtain ⟨bytes, rfl, rfl⟩ := openFile_eq_ok hopen
      obtain ⟨tokens, fault, last, hdelivers, hend⟩ :=
        @Stream.exists_delivers_of_open (.start (.ofText given) (.ofBytes bytes)) rfl
      obtain ⟨rfl, hparse⟩ := parse_of_parseFile_eq_ok hopen hdelivers h
      rcases hend with ⟨hbecomes, hfault⟩ | ⟨count, hcount⟩
      · have hnone := Option.map_eq_none_iff.mp hfault.symm
        obtain ⟨text, rfl⟩ := Lines.exists_text_of_fault_eq_none hnone
        rw [Stream.runs_start, Lines.ofBytes_toUTF8, Lines.ofText, runsBelow_split] at hbecomes
        exact ⟨text, tokens, rfl, tokenize_of_open hopen hdelivers, hbecomes,
          spelling_of_parse hparse, hdelivers.nodup (.inl rfl)⟩
      · cases hcount

theorem exists_run_of_becomes {runs : List Found} {tokens : List (Token Location)}
    (h : List.Forall₂ Found.Becomes runs tokens) {t : Token Location} (ht : t ∈ tokens) :
    ∃ run ∈ runs, run.Becomes t := by
  induction h with
  | nil => cases ht
  | @cons run token _ _ hrun _ ih =>
      rcases List.mem_cons.mp ht with rfl | ht
      · exact ⟨run, List.mem_cons_self, hrun⟩
      · obtain ⟨found, hfound, hbecomes⟩ := ih ht
        exact ⟨found, List.mem_cons_of_mem run hfound, hbecomes⟩

theorem Marker.text_of_tests {m : Marker} (h : m.tests) : m.text ∈ ["if", "if*", "do"] := by
  cases m with
  | branch | link | body => decide
  | otherwise | loop | close => cases h

section Loaded

variable {given text : String} {tokens : List (Token Location)} {root : Block Location}

-- Tokens stand in the text where they say, and are spelled there as what they are.
theorem Loads.standsAt (h : Loads given text tokens root) {t : Token Location} (ht : t ∈ tokens)
    (hlexeme : ∀ n, t.lexeme ≠ .int n) : StandsAt given text t.lexeme.text t.loc := by
  obtain ⟨run, hrun, hclassify, hloc⟩ := exists_run_of_becomes h.runs ht
  obtain ⟨⟨p, cs⟩, hmem, rfl⟩ := List.mem_map.mp hrun
  refine ⟨p, hloc, ?_⟩
  rw [Lexeme.text_of_classify hclassify hlexeme]
  exact hmem

theorem Loads.warning (h : Loads given text tokens root) {t : Token Location} (ht : t ∈ tokens)
    {e : Event Location} (he : e.At t) {notice : Notice} (hnotice : e.notice? = some notice) :
    (notice = .overflow t.loc .plus ∧ StandsAt given text "+" t.loc) ∨
    (notice = .overflow t.loc .subtract ∧ StandsAt given text "-" t.loc) ∨
    ∃ value, notice = .nonBinary t.loc value ∧
      ∃ word ∈ ["if", "if*", "do"], StandsAt given text word t.loc := by
  cases e with
  | printed value => cases hnotice
  | overflow loc op =>
      cases hnotice
      obtain ⟨rfl | rfl, rfl⟩ := he
      · exact .inl ⟨rfl, h.standsAt ht (by simp)⟩
      · exact .inr (.inl ⟨rfl, h.standsAt ht (by simp)⟩)
  | nonBinary loc value =>
      cases hnotice
      obtain ⟨m, hm, rfl⟩ := he
      exact .inr (.inr ⟨value, rfl, m.text, Marker.text_of_tests hm, h.standsAt ht (by simp)⟩)

theorem Loads.failure (h : Loads given text tokens root) {t : Token Location} (ht : t ∈ tokens)
    {trap : Trap} (htrap : trap.At t.lexeme) :
    (trap.cause = .divideByZero ∧ StandsAt given text "divmod" t.loc) ∨
    (trap.cause = .stackUnderflow ∧
      ∃ word ∈ Intrinsic.all.map Intrinsic.text ++ ["if", "if*", "do"],
        StandsAt given text word t.loc) := by
  obtain ⟨lexeme, loc⟩ := t
  cases trap with
  | zeroDivisor =>
      obtain rfl : lexeme = _ := htrap
      exact .inl ⟨rfl, h.standsAt ht (by simp)⟩
  | underflow =>
      refine .inr ⟨rfl, ?_⟩
      rcases htrap with ⟨i, hi⟩ | ⟨m, hm, hlexeme⟩
      · obtain rfl : lexeme = _ := hi
        refine ⟨i.text, List.mem_append_left _ (List.mem_map_of_mem ?_), h.standsAt ht (by simp)⟩
        cases i <;> decide
      · obtain rfl : lexeme = _ := hlexeme
        exact ⟨m.text, List.mem_append_right _ (Marker.text_of_tests hm), h.standsAt ht (by simp)⟩

end Loaded

-- Whatever a program that loads is run on, its warnings and its failure are located at
-- words of the source that can give rise to them, each at the one that the machine was at
-- when it happened. A failure is never located at a block around the word.
theorem simulate_points_at_source (given : String) (state : FileState) (budget : Nat)
    (stack : Stack) (run : Run Location)
    (h : (simulate given state budget stack).value = .ok run) :
    ∃ text tokens root, state = .regular text.toUTF8.toList ∧
      (tokenize given state).value = .ok tokens ∧ (loadFile given state).value = .ok root ∧
      (∀ notice ∈ run.notices, ∃ t ∈ tokens,
        ((notice = .overflow t.loc .plus ∧ StandsAt given text "+" t.loc) ∨
          (notice = .overflow t.loc .subtract ∧ StandsAt given text "-" t.loc) ∨
          ∃ value, notice = .nonBinary t.loc value ∧
            ∃ word ∈ ["if", "if*", "do"], StandsAt given text word t.loc) ∧
        ∃ e, e.notice? = some notice ∧ (Config.initial root stack).ShowsAt .wrapping t e) ∧
      ∀ d, run.diagnostic? = some d → ∃ before t after, tokens = before ++ t :: after ∧
        d.loc = some t.loc ∧ (∀ note ∈ unclosed before, note.loc ≠ t.loc) ∧
        ((d.cause = .divideByZero ∧ StandsAt given text "divmod" t.loc) ∨
          (d.cause = .stackUnderflow ∧
            ∃ word ∈ Intrinsic.all.map Intrinsic.text ++ ["if", "if*", "do"],
              StandsAt given text word t.loc)) ∧
        ∃ trap, d.cause = trap.cause ∧
          (Config.initial root stack).FailsAt .wrapping t trap run.stack := by
  rw [simulate_value] at h
  cases hroot : (loadFile given state).value with
  | error failure => simp [hroot, Except.map] at h
  | ok root =>
      rw [hroot] at h
      obtain rfl : execute .wrapping budget root stack = run := Except.ok.inj h
      obtain ⟨text, tokens, rfl, hloads⟩ := exists_loads hroot
      obtain ⟨hshown, hfailed⟩ := execute_at hloads.spelling .wrapping budget stack
      refine ⟨text, tokens, root, rfl, hloads.tokenized, rfl, ?_, ?_⟩
      · intro notice hnotice
        obtain ⟨e, he, hnotice⟩ := List.mem_filterMap.mp hnotice
        obtain ⟨t, ht, hat, hshows⟩ := hshown e he
        exact ⟨t, ht, hloads.warning ht hat hnotice, e, hnotice, hshows⟩
      · intro d hd
        unfold Run.diagnostic? at hd
        split at hd
        · next trap loc hending =>
            cases hd
            obtain ⟨t, ht, rfl, hat, hfails⟩ := hfailed trap loc hending
            obtain ⟨before, after, rfl⟩ := List.append_of_mem ht
            exact ⟨before, t, after, rfl, rfl, fun _ => loc_ne_of_unclosed hloads.nodup,
              hloads.failure ht hat, trap, rfl, hfails⟩
        · cases hd

-- Two warnings, and then a failure in a loop in an `if`.
def nestedSample : String := "2 if 0 1 - drop\n  while 1 do 3 0 divmod end\nend\n"

def nestedSampleRun : Run Location where
  ending := .failed .zeroDivisor ⟨⟨0, ["main"]⟩, some ⟨2, 18⟩⟩
  stack := []
  trace := [.nonBinary ⟨⟨0, ["main"]⟩, some ⟨1, 3⟩⟩ 2,
    .overflow ⟨⟨0, ["main"]⟩, some ⟨1, 10⟩⟩ .subtract]
  left := 0

theorem simulate_points_at_source_nestedSample :
    (simulate "main" (.regular nestedSample.toUTF8.toList) 2 []).value = .ok nestedSampleRun ∧
    nestedSampleRun.notices = [.nonBinary ⟨⟨0, ["main"]⟩, some ⟨1, 3⟩⟩ 2,
      .overflow ⟨⟨0, ["main"]⟩, some ⟨1, 10⟩⟩ .subtract] ∧
    ∃ tokens root, (tokenize "main" (.regular nestedSample.toUTF8.toList)).value = .ok tokens ∧
      (loadFile "main" (.regular nestedSample.toUTF8.toList)).value = .ok root ∧
      ∃ before t after, tokens = before ++ t :: after ∧
        t.loc = ⟨⟨0, ["main"]⟩, some ⟨2, 18⟩⟩ ∧
        (∀ note ∈ unclosed before, note.loc ≠ t.loc) ∧
        ∃ trap, Cause.divideByZero = trap.cause ∧
          (Config.initial root []).FailsAt .wrapping t trap [] := by
  have hvalue : (simulate "main" (.regular nestedSample.toUTF8.toList) 2 []).value.toOption =
      some nestedSampleRun := by decide +kernel
  have hrun : (simulate "main" (.regular nestedSample.toUTF8.toList) 2 []).value =
      .ok nestedSampleRun := by
    generalize (simulate "main" (.regular nestedSample.toUTF8.toList) 2 []).value = value at hvalue
    cases value with
    | error failure => cases hvalue
    | ok run => exact congrArg Except.ok (Option.some.inj hvalue)
  obtain ⟨_, tokens, root, _, htokens, hroot, _, hfailure⟩ :=
    simulate_points_at_source "main" _ 2 [] nestedSampleRun hrun
  obtain ⟨before, t, after, hsplit, hloc, hnotes, _, htrap⟩ := hfailure _ rfl
  exact ⟨hrun, rfl, tokens, root, htokens, hroot, before, t, after, hsplit,
    (Option.some.inj hloc).symm, hnotes, htrap⟩

end StackLang
