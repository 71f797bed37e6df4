import StackLang.Token.Stream

-- The runs of a line: what is left of it between blanks, up to a comment.

namespace StackLang

-- The runs of the rest of a line, with their columns.
def lineRuns (column : Nat) (buffer : List Char) : List (Nat × List Char) :=
  match _h : scan column buffer with
  | .nothing _ => []
  | .run start text next rest => (start, text) :: lineRuns next rest
termination_by buffer.length
decreasing_by exact scan_run_length _h

theorem lineRuns_of_nothing {column stop : Nat} {buffer : List Char}
    (h : scan column buffer = .nothing stop) : lineRuns column buffer = [] := by
  rw [lineRuns]
  split
  · rfl
  · next heq => simp [h] at heq

theorem lineRuns_of_run {column start next : Nat} {buffer text rest : List Char}
    (h : scan column buffer = .run start text next rest) :
    lineRuns column buffer = (start, text) :: lineRuns next rest := by
  rw [lineRuns]
  split
  · next heq => simp [h] at heq
  · next heq =>
      rw [h] at heq
      cases heq
      rfl

-- A text that is scanned as one token.
structure IsRun (text : List Char) : Prop where
  ne_nil : text ≠ []
  unbroken : ∀ c ∈ text, Text.isBlank c = false
  plain : ¬ ['/', '/'] <+: text

theorem IsRun.of_check {text : List Char}
    (h : (!text.isEmpty && text.all (!Text.isBlank ·) && !(['/', '/'].isPrefixOf text)) = true) :
    IsRun text := by
  simp only [Bool.and_eq_true, Bool.not_eq_true', List.all_eq_true, ← Bool.not_eq_true,
    List.isPrefixOf_iff_prefix, List.isEmpty_iff] at h
  obtain ⟨⟨hne, hall⟩, hplain⟩ := h
  exact ⟨hne, fun c hc => by simpa using hall c hc, hplain⟩

theorem skipBlanks_append {blanks : List Char} (h : ∀ c ∈ blanks, Text.isBlank c = true)
    (column : Nat) (rest : List Char) :
    skipBlanks column (blanks ++ rest) = skipBlanks (column + blanks.length) rest := by
  induction blanks generalizing column with
  | nil => rfl
  | cons c blanks ih =>
      have hc : Text.isBlank c = true := h c List.mem_cons_self
      have hrest := ih (fun d hd => h d (List.mem_cons_of_mem c hd)) (column + 1)
      rw [List.cons_append, skipBlanks, if_pos hc, hrest, List.length_cons]
      congr 1
      omega

theorem skipBlanks_cons {c : Char} (h : Text.isBlank c = false) (column : Nat)
    (rest : List Char) : skipBlanks column (c :: rest) = (column, c :: rest) := by
  simp [skipBlanks, h]

theorem skipBlanks_skipBlanks (column : Nat) (cs : List Char) :
    skipBlanks (skipBlanks column cs).1 (skipBlanks column cs).2 = skipBlanks column cs := by
  induction cs generalizing column with
  | nil => rfl
  | cons c rest ih =>
      by_cases hc : Text.isBlank c = true
      · simp only [skipBlanks, hc, if_true]
        exact ih (column + 1)
      · have hc : Text.isBlank c = false := by simpa using hc
        rw [skipBlanks_cons hc, skipBlanks_cons hc]

theorem scan_skipBlanks (column : Nat) (buffer : List Char) :
    scan (skipBlanks column buffer).1 (skipBlanks column buffer).2 = scan column buffer := by
  unfold scan
  rw [skipBlanks_skipBlanks]

theorem lineRuns_skipBlanks (column : Nat) (buffer : List Char) :
    lineRuns (skipBlanks column buffer).1 (skipBlanks column buffer).2 =
      lineRuns column buffer := by
  have hscan := scan_skipBlanks column buffer
  cases h : scan column buffer with
  | nothing stop => rw [lineRuns_of_nothing h, lineRuns_of_nothing (hscan.trans h)]
  | run start text next rest => rw [lineRuns_of_run h, lineRuns_of_run (hscan.trans h)]

theorem takeWhile_run {run rest : List Char} (hrun : ∀ c ∈ run, Text.isBlank c = false)
    (hrest : ∀ c, rest.head? = some c → Text.isBlank c = true) :
    (run ++ rest).takeWhile (!Text.isBlank ·) = run := by
  have hall : ∀ c ∈ run, (!Text.isBlank c) = true := by
    intro c hc
    simp [hrun c hc]
  rw [List.takeWhile_append_of_pos hall]
  cases rest with
  | nil => simp
  | cons c rest => simp [hrest c rfl]

theorem dropWhile_run {run rest : List Char} (hrun : ∀ c ∈ run, Text.isBlank c = false)
    (hrest : ∀ c, rest.head? = some c → Text.isBlank c = true) :
    (run ++ rest).dropWhile (!Text.isBlank ·) = rest := by
  have hsplit := List.takeWhile_append_dropWhile (l := run ++ rest) (p := (!Text.isBlank ·))
  rw [takeWhile_run hrun hrest] at hsplit
  exact List.append_cancel_left hsplit

-- A run between blanks is scanned whole.
theorem scan_of_isRun {text before rest : List Char} (h : IsRun text)
    (hbefore : ∀ c ∈ before, Text.isBlank c = true)
    (hrest : ∀ c, rest.head? = some c → Text.isBlank c = true) (column : Nat) :
    scan column (before ++ (text ++ rest)) =
      .run (column + before.length) text
        (skipBlanks (column + before.length + text.length) rest).1
        (skipBlanks (column + before.length + text.length) rest).2 := by
  obtain ⟨c, tail, rfl⟩ := List.exists_cons_of_ne_nil h.ne_nil
  have hc : Text.isBlank c = false := h.unbroken c List.mem_cons_self
  have htail : ∀ d ∈ tail, Text.isBlank d = false :=
    fun d hd => h.unbroken d (List.mem_cons_of_mem c hd)
  have htake := takeWhile_run htail hrest
  have hdrop := dropWhile_run htail hrest
  unfold scan
  rw [skipBlanks_append hbefore, List.cons_append, skipBlanks_cons hc]
  split
  · next heq => cases heq
  · next heq =>
      -- The slashes would both be in the text, or the second a blank after it.
      simp only [Prod.mk.injEq, List.cons.injEq] at heq
      obtain ⟨_, rfl, hslash⟩ := heq
      cases tail with
      | nil => exact absurd (hrest '/' (by simp_all)) (by decide)
      | cons d tail =>
          simp only [List.cons_append, List.cons.injEq] at hslash
          obtain ⟨rfl, _⟩ := hslash
          exact absurd ⟨tail, rfl⟩ h.plain
  · next heq =>
      cases heq
      simp only [htake, hdrop]

theorem lineRuns_of_isRun {text before rest : List Char} (h : IsRun text)
    (hbefore : ∀ c ∈ before, Text.isBlank c = true)
    (hrest : ∀ c, rest.head? = some c → Text.isBlank c = true) (column : Nat) :
    lineRuns column (before ++ (text ++ rest)) =
      (column + before.length, text) :: lineRuns (column + before.length + text.length) rest := by
  rw [lineRuns_of_run (scan_of_isRun h hbefore hrest column), lineRuns_skipBlanks]

theorem scan_of_blanks {blanks : List Char} (h : ∀ c ∈ blanks, Text.isBlank c = true)
    (column : Nat) : scan column blanks = .nothing (column + blanks.length) := by
  have hskip := skipBlanks_append h column []
  rw [List.append_nil] at hskip
  unfold scan
  rw [hskip]
  rfl

theorem scan_of_comment {before : List Char} (h : ∀ c ∈ before, Text.isBlank c = true)
    (column : Nat) (rest : List Char) :
    scan column (before ++ '/' :: '/' :: rest) = .nothing (column + before.length) := by
  have hslash : Text.isBlank '/' = false := by decide
  unfold scan
  rw [skipBlanks_append h, skipBlanks_cons hslash]
  rfl

theorem lineRuns_of_blanks {blanks : List Char} (h : ∀ c ∈ blanks, Text.isBlank c = true)
    (column : Nat) : lineRuns column blanks = [] :=
  lineRuns_of_nothing (scan_of_blanks h column)

-- A line with one run.
theorem lineRuns_of_line {text before : List Char} (h : IsRun text)
    (hbefore : ∀ c ∈ before, Text.isBlank c = true) (column : Nat) :
    lineRuns column (before ++ (text ++ ['\n'])) = [(column + before.length, text)] := by
  have hfeed : ∀ c ∈ ['\n'], Text.isBlank c = true := by
    intro c hc
    rw [List.mem_singleton.mp hc]
    decide
  have hhead : ∀ c, ['\n'].head? = some c → Text.isBlank c = true :=
    fun c hc => hfeed c (List.mem_of_mem_head? hc)
  rw [lineRuns_of_isRun h hbefore hhead, lineRuns_of_blanks hfeed]

end StackLang
