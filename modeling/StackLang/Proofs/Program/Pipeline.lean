import StackLang.Program.Load
import StackLang.Proofs.Token.Delivery

-- Tokens that are fed to the builder as they are delivered build what they
-- build as a list.

namespace StackLang

theorem Stream.pull_file (s : Stream) (log : List Notice) (pending : List Line) :
    (s.pull log pending).stream.file = s.file := by
  induction pending generalizing s log with
  | nil =>
      rw [pull]
      cases scan s.column s.buffer with
      | run start text next rest =>
          simp only [handOut]
          cases Lexeme.classify text <;> rfl
      | nothing column =>
          simp only [stop]
          cases s.closed <;> cases s.fault <;> rfl
  | cons line lines ih =>
      rw [pull]
      cases scan s.column s.buffer with
      | run start text next rest =>
          simp only [handOut]
          cases Lexeme.classify text <;> rfl
      | nothing column =>
          by_cases hclosed : s.closed = true
          · simp only [hclosed, stop, if_true]
          · simp only [hclosed]
            exact ih _ _

theorem Stream.after_file (s : Stream) : s.after.file = s.file :=
  s.pull_file [] s.pending

theorem Stream.Delivers.file {s last : Stream} {tokens : List (Token Location)}
    {fault : Option StreamFault} (h : s.Delivers tokens fault last) : last.file = s.file := by
  induction h with
  | done => exact after_file _
  | fault => exact after_file _
  | token _ _ ih => exact ih.trans (after_file _)

-- What becomes of a builder when the stream has come to its end or to a fault.
def Builder.atEnd (b : Builder Location) (last : Stream) :
    Option StreamFault → Except Failure (Block Location)
  | some fault => .error (.ofStream last.file fault)
  | none => (b.finish last.cursor).mapError .diagnostic

-- A token that is refused hides everything that the stream would have come to.
theorem Stream.Delivers.build {s last : Stream} {tokens : List (Token Location)}
    {fault : Option StreamFault} (h : s.Delivers tokens fault last) (b : Builder Location)
    (log : List Notice) :
    (b.build s log).value = match b.feedAll tokens with
      | .error d => .error (.diagnostic d)
      | .ok built => built.atEnd last fault := by
  induction h generalizing b log with
  | @done s hanswer =>
      have hnext := s.next_answer log
      have hafter := s.next_stream log
      rw [Builder.build]
      split
      · next heq => simp [heq, hanswer] at hnext
      · next log' after heq =>
          simp only [heq] at hafter
          subst hafter
          simp only [Builder.feedAll, Builder.atEnd]
          cases b.finish s.after.cursor <;> rfl
      · next heq => simp [heq, hanswer] at hnext
  | @fault s fault hanswer =>
      have hnext := s.next_answer log
      rw [Builder.build]
      split
      · next heq =>
          simp only [heq, hanswer, Except.error.injEq] at hnext
          subst hnext
          simp only [Builder.feedAll, Builder.atEnd, s.after_file]
      · next heq => simp [heq, hanswer] at hnext
      · next heq => simp [heq, hanswer] at hnext
  | @token s last token tokens fault hanswer _ ih =>
      have hnext := s.next_answer log
      have hafter := s.next_stream log
      rw [Builder.build]
      split
      · next heq => simp [heq, hanswer] at hnext
      · next heq => simp [heq, hanswer] at hnext
      · next log' found after heq =>
          simp only [heq, hanswer, Except.ok.injEq, Option.some.injEq] at hnext hafter
          subst hnext hafter
          simp only [Builder.feedAll]
          cases b.feed found with
          | error d => rfl
          | ok next => exact ih next ((next.completed?.map Notice.parsed).toList ++ log')

theorem loadFile_value (given : String) (state : FileState) :
    (loadFile given state).value = (parseFile given state).value := by
  unfold loadFile
  cases h : (parseFile given state).value with
  | ok root => simp only [h]
  | error failure => simp only [h]

-- A path is shown with the characters that it was given with, slashes and dots.

theorem Path.mem_of_mem_splitAtSlashes {c : Char} {cs name : List Char}
    (h : name ∈ splitAtSlashes cs) (hc : c ∈ name) : c ∈ cs := by
  induction cs generalizing name with
  | nil =>
      rw [splitAtSlashes, List.mem_singleton] at h
      rw [h] at hc
      exact hc
  | cons d cs ih =>
      rw [splitAtSlashes] at h
      split at h
      · rcases List.mem_cons.mp h with rfl | h
        · cases hc
        · exact List.mem_cons_of_mem d (ih h hc)
      · split at h
        · rw [List.mem_singleton] at h
          rw [h, List.mem_singleton] at hc
          exact hc ▸ List.mem_cons_self
        · next first names heq =>
            rw [heq] at ih
            rcases List.mem_cons.mp h with rfl | h
            · rcases List.mem_cons.mp hc with rfl | hc
              · exact List.mem_cons_self
              · exact List.mem_cons_of_mem d (ih List.mem_cons_self hc)
            · exact List.mem_cons_of_mem d (ih (List.mem_cons_of_mem first h) hc)

theorem Path.mem_of_mem_intercalate {c : Char} {between : List Char} {names : List (List Char)}
    (h : c ∈ between.intercalate names) : c ∈ between ∨ ∃ name ∈ names, c ∈ name := by
  induction names with
  | nil => cases h
  | cons name names ih =>
      by_cases hnames : names = []
      · subst hnames
        rw [List.intercalate_singleton] at h
        exact .inr ⟨name, List.mem_cons_self, h⟩
      · rw [List.intercalate_cons_of_ne_nil hnames, List.mem_append, List.mem_append] at h
        rcases h with (h | h) | h
        · exact .inr ⟨name, List.mem_cons_self, h⟩
        · exact .inl h
        · rcases ih h with h | ⟨other, hother, h⟩
          · exact .inl h
          · exact .inr ⟨other, List.mem_cons_of_mem name hother, h⟩

theorem Path.not_mem_text {c : Char} (hslash : c ≠ '/') (hdot : c ≠ '.') {given : String}
    (h : c ∉ given.toList) : c ∉ (Path.ofText given).text.toList := by
  intro hmem
  rw [Path.text] at hmem
  split at hmem
  · exact hdot (List.mem_singleton.mp hmem)
  · rw [String.toList_append, String.toList_ofList, String.toList_intercalate,
      List.mem_append] at hmem
    rcases hmem with hmem | hmem
    · exact hslash (List.eq_of_mem_replicate hmem)
    · rcases Path.mem_of_mem_intercalate hmem with hmem | ⟨name, hname, hmem⟩
      · exact hslash (List.mem_singleton.mp hmem)
      · obtain ⟨text, htext, rfl⟩ := List.mem_map.mp hname
        obtain ⟨part, hpart, rfl⟩ := List.mem_map.mp (List.mem_filter.mp htext).1
        rw [String.toList_ofList] at hmem
        exact h (Path.mem_of_mem_splitAtSlashes hpart hmem)

-- A path can be opened unless there is a null character in it.
theorem openFile_regular {given : String} (hgiven : Char.ofNat 0 ∉ given.toList)
    (bytes : List UInt8) :
    openFile (.ofText given) (.regular bytes) = .ok (.start (.ofText given) (.ofBytes bytes)) := by
  have hpath : Char.ofNat 0 ∉ (Path.ofText given).text.toList :=
    Path.not_mem_text (by decide) (by decide) hgiven
  rw [openFile, if_neg (by simpa using hpath)]
  rfl

theorem loadFile_of_open {given : String} {state : FileState} {s last : Stream}
    {tokens : List (Token Location)} {fault : Option StreamFault}
    (hopen : openFile (.ofText given) state = .ok s) (h : s.Delivers tokens fault last) :
    (loadFile given state).value = match Builder.initial.feedAll tokens with
      | .error d => .error (.diagnostic d)
      | .ok built => built.atEnd last fault := by
  rw [loadFile_value, parseFile, hopen]
  exact h.build Builder.initial [.opened s.file]

theorem loadFile_of_delivers {given : String} {bytes : List UInt8}
    (hgiven : Char.ofNat 0 ∉ given.toList) {tokens : List (Token Location)}
    {last : Stream}
    (h : (Stream.start (.ofText given) (.ofBytes bytes)).Delivers tokens none last) :
    (loadFile given (.regular bytes)).value =
      (parse tokens last.cursor).mapError .diagnostic := by
  rw [loadFile_of_open (openFile_regular hgiven bytes) h, parse]
  simp only [Builder.atEnd]
  cases Builder.initial.feedAll tokens <;> rfl

end StackLang
