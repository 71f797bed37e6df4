import StackLang.Proofs.Program.Concatenation

-- Where a block that is left open is reported: at the end of the last line, however
-- little there is in that line.

namespace StackLang

namespace Lines

-- How a text falls into lines: all of them end with a line feed, except that the last may
-- have none.
structure Cut (text : List Char) (before : List Line) (last : Line) : Prop where
  whole : before.flatten ++ last = text
  ended : ∀ line ∈ before, ∃ body, line = body ++ ['\n'] ∧ '\n' ∉ body
  ne_nil : last ≠ []
  unbroken : '\n' ∉ last.dropLast

theorem flatten_split (line text : List Char) :
    (split line text).flatten = line.reverse ++ text := by
  induction text generalizing line with
  | nil => cases line <;> simp [split]
  | cons c text ih =>
      rw [split]
      by_cases hc : c = '\n'
      · simp [hc, ih]
      · simp [hc, ih]

-- The induction is on the text. A line feed ends the line that has been passed so far, and
-- this is the last if nothing follows.
theorem split_shape {line text : List Char} (hline : '\n' ∉ line) {before : List Line}
    {last : Line} (h : split line text = before ++ [last]) :
    (∀ line ∈ before, ∃ body, line = body ++ ['\n'] ∧ '\n' ∉ body) ∧ last ≠ [] ∧
      '\n' ∉ last.dropLast := by
  induction text generalizing line before with
  | nil =>
      rw [split] at h
      split at h
      · simp at h
      · next hne =>
          obtain ⟨rfl, rfl⟩ : before = [] ∧ last = line.reverse := by
            simpa [List.singleton_eq_append_iff] using h
          refine ⟨by simp, by simpa using hne, ?_⟩
          intro hmem
          exact hline (List.mem_reverse.mp (List.dropLast_subset _ hmem))
  | cons c text ih =>
      rw [split] at h
      by_cases hc : c = '\n'
      · rw [if_pos hc] at h
        cases before with
        | nil =>
            obtain ⟨rfl, _⟩ : ('\n' :: line).reverse = last ∧ split [] text = [] := by simpa using h
            exact ⟨by simp, by simp, by simpa using hline⟩
        | cons first before =>
            obtain ⟨rfl, hrest⟩ : ('\n' :: line).reverse = first ∧
                split [] text = before ++ [last] := by simpa using h
            obtain ⟨hended, hlast⟩ := ih (by simp) hrest
            refine ⟨?_, hlast⟩
            intro other hother
            rcases List.mem_cons.mp hother with rfl | hother
            · exact ⟨line.reverse, by simp, by simpa using hline⟩
            · exact hended other hother
      · rw [if_neg hc] at h
        exact ih (by simp [hline, Ne.symm hc]) h

theorem cut_split {text : List Char} {before : List Line} {last : Line}
    (h : split [] text = before ++ [last]) : Cut text before last := by
  obtain ⟨hended, hne, hunbroken⟩ := split_shape (by simp) h
  have hwhole := flatten_split [] text
  rw [h] at hwhole
  exact ⟨by simpa using hwhole, hended, hne, hunbroken⟩

end Lines

variable {α : Type}

-- An open block is the fault of the end, and there is a word that has opened it.
theorem Builder.readRuns_of_unclosed {b : Builder α} {last : α} {runs : List (α × List Char)}
    {d : Diagnostic α} (h : b.readRuns last runs = .error (.diagnostic d)) (hd : d.cause.ofEnd) :
    d.loc = some last ∧ (b.opened = [] → runs ≠ []) := by
  fun_induction Builder.readRuns b last runs with
  | case1 b =>
      obtain ⟨root, opened⟩ := b
      cases opened with
      | nil => cases h
      | cons block outer =>
          cases h
          exact ⟨Builder.diagnose_loc _ _ _, by simp⟩
  | case2 b run more e hclassify => cases h
  | case3 b run more lexeme hclassify found hfeed =>
      cases h
      exact absurd hd (Cause.not_ofEnd_of_ofToken (Builder.ofToken_of_feed hfeed).1)
  | case4 b run more lexeme hclassify next hfeed ih => exact ⟨(ih h).1, by simp⟩

-- Neither a file that cannot be opened nor a fault of the stream is reported as an open
-- block.

theorem not_ofEnd_of_openFile {file : Path} {state : FileState} {d : Diagnostic Location}
    (h : openFile file state = .error (.diagnostic d)) : ¬d.cause.ofEnd := by
  unfold openFile at h
  split at h
  · cases h
  · split at h
    · cases h
    · cases h
      exact Bool.false_ne_true

theorem Builder.fault_eq_none_of_atEnd {b : Builder Location} {last : Stream}
    {fault : Option StreamFault} {d : Diagnostic Location}
    (h : b.atEnd last fault = .error (.diagnostic d)) (hd : d.cause.ofEnd) : fault = none := by
  cases fault with
  | none => rfl
  | some fault =>
      cases fault with
      | undecodable fault =>
          cases h
          cases hd
      | tooManyDigits count => cases h
      | closed => cases h

-- The end is not come to unless all bytes are a text.
theorem exists_text_of_unclosed {given : String} {state : FileState} {d : Diagnostic Location}
    (h : (parseFile given state).value = .error (.diagnostic d)) (hd : d.cause.ofEnd) :
    ∃ text : String, state = .regular text.toUTF8.toList ∧
      readText given text = .error (.diagnostic d) := by
  cases hopen : openFile (.ofText given) state with
  | error failure =>
      simp only [parseFile, hopen, Except.error.injEq] at h
      rw [h] at hopen
      exact absurd hd (not_ofEnd_of_openFile hopen)
  | ok s =>
      obtain ⟨bytes, rfl, rfl⟩ := openFile_eq_ok hopen
      obtain ⟨tokens, fault, last, hdelivers, hend⟩ :=
        @Stream.exists_delivers_of_open (.start (.ofText given) (.ofBytes bytes)) rfl
      have hparse := parseFile_of_open hopen hdelivers
      rw [h] at hparse
      cases hfeed : Builder.initial.feedAll tokens with
      | error found =>
          simp only [hfeed, Except.error.injEq, Failure.diagnostic.injEq] at hparse
          have htoken := Builder.ofToken_of_feedAll hfeed
          exact absurd (hparse ▸ hd) (Cause.not_ofEnd_of_ofToken htoken)
      | ok built =>
          rw [hfeed] at hparse
          obtain rfl := Builder.fault_eq_none_of_atEnd hparse.symm hd
          have hclean : (Lines.ofBytes bytes).fault = none := by
            rcases hend with ⟨_, hfault⟩ | ⟨count, hcount⟩
            · exact Option.map_eq_none_iff.mp hfault.symm
            · cases hcount
          obtain ⟨text, rfl⟩ := Lines.exists_text_of_fault_eq_none hclean
          have hload := loadText_eq_readText hopen
          rw [loadText, loadFile_value, h] at hload
          exact ⟨text, rfl, (@mapError_failure_injective (.error (.diagnostic d)) _ hload).symm⟩

theorem fileEnd_of_lines {given : String} {bytes : List UInt8} {before : List Line} {last : Line}
    (h : (Lines.ofBytes bytes).lines = before ++ [last]) :
    fileEnd given bytes = ⟨.ofText given, some ⟨before.length + 1,
      (commentStart? last).getD last.length + 1⟩⟩ := by
  rw [fileEnd, Stream.endCursor, Stream.start, h, endBelow_append _ _ _ _ _ (by simp), endBelow,
    endBelow, lineEnd_eq, Nat.zero_add, if_neg (Nat.succ_ne_zero _), Nat.add_comm 1]

-- A block that is not closed is reported in the last line of a text, whatever that line
-- holds: where its comment starts, or else behind its last character, which may be a line
-- feed.
theorem unclosed_reported_at_end (given : String) (state : FileState) (d : Diagnostic Location)
    (marker : Marker) (block : Option Marker)
    (h : (parseFile given state).value = .error (.diagnostic d))
    (hd : d.cause = .missingMarker marker .blockNotClosed block) :
    ∃ (text : String) (before : List Line) (last : Line),
      state = .regular text.toUTF8.toList ∧ Lines.Cut (Lines.newlines text.toList) before last ∧
      d.loc = some ⟨.ofText given, some ⟨before.length + 1, match commentStart? last with
        | none => last.length + 1
        | some start => start + 1⟩⟩ := by
  obtain ⟨text, rfl, hread⟩ := exists_text_of_unclosed h (by rw [hd]; rfl)
  obtain ⟨hloc, hruns⟩ := Builder.readRuns_of_unclosed hread (by rw [hd]; rfl)
  have hlines : (Lines.ofBytes text.toUTF8.toList).lines ≠ [] := by
    intro hnone
    exact hruns rfl (by rw [fileRuns, hnone]; rfl)
  obtain ⟨before, last, hsplit⟩ := (List.eq_nil_or_concat' _).resolve_left hlines
  refine ⟨text, before, last, rfl, ?_, ?_⟩
  · rw [Lines.ofBytes_toUTF8] at hsplit
    exact Lines.cut_split hsplit
  · rw [hloc, fileEnd_of_lines hsplit]
    cases commentStart? last <;> rfl

-- The last line is a comment behind two blanks.
def unclosedSample : String := "1 if // x\r\n  2\n  // end"

def unclosedSampleReport : Diagnostic Location where
  cause := .missingMarker .close .blockNotClosed none
  loc := some ⟨⟨0, ["main"]⟩, some ⟨3, 3⟩⟩
  notes := [⟨.branch, ⟨⟨0, ["main"]⟩, some ⟨1, 3⟩⟩⟩]

theorem unclosed_reported_at_end_unclosedSample :
    (parseFile "main" (.regular unclosedSample.toUTF8.toList)).value =
      .error (.diagnostic unclosedSampleReport) ∧
    ∃ (text : String) (before : List Line) (last : Line),
      FileState.regular unclosedSample.toUTF8.toList = .regular text.toUTF8.toList ∧
      Lines.Cut (Lines.newlines text.toList) before last ∧
      unclosedSampleReport.loc = some ⟨.ofText "main", some ⟨before.length + 1,
        match commentStart? last with
        | none => last.length + 1
        | some start => start + 1⟩⟩ := by
  have hend : fileEnd "main" unclosedSample.toUTF8.toList = ⟨⟨0, ["main"]⟩, some ⟨3, 3⟩⟩ := by
    decide +kernel
  have hruns : fileRuns "main" unclosedSample.toUTF8.toList =
      [(⟨⟨0, ["main"]⟩, some ⟨1, 1⟩⟩, ['1']), (⟨⟨0, ["main"]⟩, some ⟨1, 3⟩⟩, ['i', 'f']),
        (⟨⟨0, ["main"]⟩, some ⟨2, 3⟩⟩, ['2'])] := by decide +kernel
  have hvalue : (parseFile "main" (.regular unclosedSample.toUTF8.toList)).value =
      .error (.diagnostic unclosedSampleReport) := by
    rw [← loadFile_value, ← loadText, loadText_eq_readText (openFile_regular (by decide) _),
      readText, hend, hruns]
    rfl
  exact ⟨hvalue, unclosed_reported_at_end "main" _ _ .close none hvalue rfl⟩

end StackLang
