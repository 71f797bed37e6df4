import StackLang.Proofs.Token.Reading

-- Where a stream comes to its end: in its last line, at the comment there or behind the
-- last character.

namespace StackLang

-- The column in the rest of a line behind which nothing more is found.
def lineEnd (column : Nat) (buffer : List Char) : Nat :=
  match _h : scan column buffer with
  | .nothing stop => stop
  | .run _ _ next rest => lineEnd next rest
termination_by buffer.length
decreasing_by exact scan_run_length _h

theorem lineEnd_of_nothing {column stop : Nat} {buffer : List Char}
    (h : scan column buffer = .nothing stop) : lineEnd column buffer = stop := by
  rw [lineEnd]
  split
  · next heq =>
      rw [h] at heq
      cases heq
      rfl
  · next heq => simp [h] at heq

theorem lineEnd_of_run {column start next : Nat} {buffer text rest : List Char}
    (h : scan column buffer = .run start text next rest) :
    lineEnd column buffer = lineEnd next rest := by
  rw [lineEnd]
  split
  · next heq => simp [h] at heq
  · next heq =>
      rw [h] at heq
      cases heq
      rfl

theorem lineEnd_skipBlanks (column : Nat) (buffer : List Char) :
    lineEnd (skipBlanks column buffer).1 (skipBlanks column buffer).2 =
      lineEnd column buffer := by
  have hscan := scan_skipBlanks column buffer
  cases h : scan column buffer with
  | nothing stop => rw [lineEnd_of_nothing h, lineEnd_of_nothing (hscan.trans h)]
  | run start text next rest => rw [lineEnd_of_run h, lineEnd_of_run (hscan.trans h)]

-- How many characters stand in front of the comment of a line.
def commentStart? (line : List Char) : Option Nat :=
  ((wholeRuns line).find? fun run => ['/', '/'].isPrefixOf run.2).map Prod.fst

theorem commentStart?_append {before run rest : List Char}
    (hbefore : ∀ c ∈ before, Text.isBlank c = true) (hne : run ≠ [])
    (hrun : ∀ c ∈ run, Text.isBlank c = false)
    (hrest : ∀ c, rest.head? = some c → Text.isBlank c = true) :
    commentStart? (before ++ (run ++ rest)) =
      if ['/', '/'] <+: run then some before.length
      else (commentStart? rest).map (before.length + run.length + ·) := by
  rw [commentStart?, wholeRuns_append_blanks hbefore, wholeRuns_append_run hne hrun hrest,
    List.map_cons, List.map_map, List.find?_cons]
  by_cases hcomment : ['/', '/'] <+: run
  · have hopens := List.isPrefixOf_iff_prefix.mpr hcomment
    simp [hopens, hcomment]
  · have hplain : ['/', '/'].isPrefixOf run = false := by
      simpa [← List.isPrefixOf_iff_prefix] using hcomment
    simp only [hplain, hcomment, if_false, List.find?_map, Option.map_map, commentStart?]
    congr 1
    funext next
    simp only [Function.comp]
    omega

-- A line comes to its end where its comment starts, or behind its last character. The
-- induction is on the length of the line, a run at a time.
theorem lineEnd_eq (column : Nat) (line : List Char) :
    lineEnd column line = column + (commentStart? line).getD line.length := by
  obtain hblank | ⟨before, run, rest, rfl, hne, hbefore, hrun, hrest⟩ := exists_run line
  · rw [lineEnd_of_nothing (scan_of_blanks hblank column), commentStart?,
      wholeRuns_of_blanks hblank]
    rfl
  · rw [commentStart?_append hbefore hne hrun hrest]
    by_cases hcomment : ['/', '/'] <+: run
    · obtain ⟨more, rfl⟩ := hcomment
      rw [if_pos (List.prefix_append _ _)]
      exact lineEnd_of_nothing (scan_of_comment hbefore column (more ++ rest))
    · have hshorter : 0 < run.length := List.length_pos_iff.mpr hne
      rw [if_neg hcomment,
        lineEnd_of_run (scan_of_isRun ⟨hne, hrun, hcomment⟩ hbefore hrest column),
        lineEnd_skipBlanks, lineEnd_eq _ rest]
      cases commentStart? rest with
      | none =>
          simp only [Option.map_none, Option.getD_none, List.length_append]
          omega
      | some start =>
          simp only [Option.map_some, Option.getD_some]
          omega
termination_by line.length
decreasing_by
  subst_vars
  simp only [List.length_append]
  omega

-- The end of lines that follow after `line` others; `buffer` is what is left of the last
-- of these.
def endBelow (file : Path) (line column : Nat) (buffer : List Char) : List Line → Location
  | [] => ⟨file, if line = 0 then none else some ⟨line, lineEnd column buffer⟩⟩
  | first :: rest => endBelow file (line + 1) 1 first rest

namespace Stream

-- Where the cursor will be when everything has been read.
def endCursor (s : Stream) : Location :=
  endBelow s.file s.line s.column s.buffer s.pending

-- A call moves the cursor, and not the place where it will come to rest.
theorem endCursor_pull {s : Stream} (hopen : s.closed = false) (log : List Notice)
    (pending : List Line) :
    (s.pull log pending).stream.endCursor =
      endBelow s.file s.line s.column s.buffer pending := by
  induction pending generalizing s log with
  | nil =>
      cases hscan : scan s.column s.buffer with
      | run start text next rest =>
          rw [pull_of_scan_run hscan, handOut_stream, endCursor, endBelow, endBelow,
            lineEnd_of_run hscan]
      | nothing column =>
          have hstop : lineEnd column [] = column := lineEnd_of_nothing rfl
          simp only [pull, hscan]
          rw [stop_stream, endCursor, endBelow, endBelow, lineEnd_of_nothing hscan, hstop]
  | cons line lines ih =>
      cases hscan : scan s.column s.buffer with
      | run start text next rest =>
          rw [pull_of_scan_run hscan, handOut_stream]
          rfl
      | nothing column =>
          rw [pull_of_scan_nothing hopen hscan]
          exact @ih (s.takeLine line lines) hopen _

-- With no run left, the next call takes it there.
theorem cursor_of_no_runs {s : Stream} (hopen : s.closed = false) (log : List Notice)
    {pending : List Line} (h : s.bufferRuns ++ runsBelow s.file s.line pending = []) :
    (s.pull log pending).stream.cursor = endBelow s.file s.line s.column s.buffer pending := by
  induction pending generalizing s log with
  | nil =>
      cases hscan : scan s.column s.buffer with
      | run start text next rest => simp [bufferRuns_of_run hscan] at h
      | nothing column =>
          simp only [pull, hscan]
          rw [stop_stream, endBelow, lineEnd_of_nothing hscan]
          rfl
  | cons line lines ih =>
      cases hscan : scan s.column s.buffer with
      | run start text next rest => simp [bufferRuns_of_run hscan] at h
      | nothing column =>
          rw [bufferRuns_of_nothing hscan] at h
          rw [pull_of_scan_nothing hopen hscan]
          exact @ih (s.takeLine line lines) hopen _ h

end Stream

end StackLang
