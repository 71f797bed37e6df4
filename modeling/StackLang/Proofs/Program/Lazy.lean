import StackLang.Proofs.Parse.Faults
import StackLang.Proofs.Token.Reading

-- A file is parsed while it is read. That comes to the same as reading its tokens first
-- and parsing them after, except that a token that is refused stops the reading.

namespace StackLang

theorem Builder.build_of_token {b : Builder Location} {s : Stream} {token : Token Location}
    (h : s.answer = .ok (some token)) (log : List Notice) :
    b.build s log = match b.feed token with
      | .error d => ⟨(s.next log).log, .error (.diagnostic d)⟩
      | .ok next => next.build s.after
          ((next.completed?.map Notice.parsed).toList ++ (s.next log).log) := by
  have hnext := s.next_answer log
  have hafter := s.next_stream log
  rw [Builder.build]
  split
  · next heq => simp [heq, h] at hnext
  · next heq => simp [heq, h] at hnext
  · next log' found after heq =>
      simp only [heq, h, Except.ok.injEq, Option.some.injEq] at hnext hafter
      subst hnext hafter
      cases b.feed found with
      | error d => simp only [heq]
      | ok next => simp only [heq]

theorem linesRead_parsed (op? : Option (Op Location)) (log : List Notice) :
    linesRead ((op?.map Notice.parsed).toList ++ log) = linesRead log := by
  cases op? <;> rfl

-- Up to a token that is refused, the lines are taken that go down to its own.
theorem Stream.Delivers.linesRead_build {s last : Stream} {tokens : List (Token Location)}
    {fault : Option StreamFault} (h : s.Delivers tokens fault last) (hs : s.InLine) {i : Nat}
    {t : Token Location} {p : Position} {d : Diagnostic Location} {b built : Builder Location}
    (hbuilt : b.feedAll (tokens.take i) = .ok built) (ht : tokens[i]? = some t)
    (hp : t.loc = ⟨s.file, some p⟩) (hd : built.feed t = .error d) (log : List Notice) :
    linesRead (b.build s log).log = (s.pending.take (p.line - s.line)).reverse ++ linesRead log := by
  induction h generalizing i b log with
  | done => cases ht
  | fault => cases ht
  | @token s last token tokens fault hanswer hrest ih =>
      obtain ⟨taken, hpending, hline, hlog⟩ := s.next_reads log
      rw [Builder.build_of_token hanswer]
      cases i with
      | zero =>
          cases hbuilt
          cases ht
          obtain ⟨q, hloc, hq, _⟩ := hs.position hanswer
          obtain rfl : p = q := by simpa [hp] using hloc
          have hcount : p.line - s.line = taken.length := by omega
          simp only [hd]
          rw [hlog, hcount, hpending, List.take_left]
      | succ i =>
          simp only [List.take_succ_cons, Builder.feedAll] at hbuilt
          cases hfeed : b.feed token with
          | error d' => simp [hfeed] at hbuilt
          | ok next =>
              have ht' : tokens[i]? = some t := ht
              obtain ⟨q, hloc, hbelow, _⟩ := hrest.position hs.after (List.mem_of_getElem? ht')
              obtain rfl : p = q := by simpa [hp, s.after_file] using hloc
              have hcount : p.line - s.line = taken.length + (p.line - s.after.line) := by
                simp only [Position.Before, Stream.place] at hbelow
                omega
              rw [hfeed] at hbuilt
              simp only
              rw [ih hs.after hbuilt ht' (by rw [hp, s.after_file]), linesRead_parsed, hlog, hcount,
                hpending, List.take_length_add_append, List.reverse_append, List.append_assoc]

theorem openFile_eq_ok {file : Path} {state : FileState} {s : Stream}
    (h : openFile file state = .ok s) :
    ∃ bytes, state = .regular bytes ∧ s = .start file (.ofBytes bytes) := by
  unfold openFile at h
  split at h
  · cases h
  · cases state with
    | regular bytes =>
        cases h
        exact ⟨bytes, rfl, rfl⟩
    | missing | directory | underFile | symlinkLoop | refused => cases h

-- A stream that is not closed delivers all its runs and ends where its reader does, or
-- it ends at a numeral of too many digits.
theorem Stream.exists_delivers_of_open {s : Stream} (hopen : s.closed = false) :
    ∃ tokens fault last, s.Delivers tokens fault last ∧
      ((List.Forall₂ Found.Becomes s.runs tokens ∧ fault = s.fault.map .undecodable) ∨
        ∃ count, fault = some (.tooManyDigits count)) := by
  rcases exists_becomes_or_overlong s.runs with
    ⟨tokens, hbecomes⟩ | ⟨before, run, more, tokens, e, hruns, hbecomes, hrun⟩
  · obtain ⟨last, hdelivers⟩ := Stream.delivers_of_becomes hopen hbecomes
    exact ⟨tokens, _, last, hdelivers, .inl ⟨hbecomes, rfl⟩⟩
  · obtain ⟨last, hdelivers⟩ := Stream.delivers_of_overlong hopen hruns hbecomes hrun
    exact ⟨tokens, _, last, hdelivers, .inr ⟨e.count, rfl⟩⟩

section Load

variable {given : String} {state : FileState} {s last : Stream} {tokens : List (Token Location)}
  {fault : Option StreamFault}

theorem parseFile_of_open (hopen : openFile (.ofText given) state = .ok s)
    (h : s.Delivers tokens fault last) :
    (parseFile given state).value = match Builder.initial.feedAll tokens with
      | .error d => .error (.diagnostic d)
      | .ok built => built.atEnd last fault := by
  rw [← loadFile_value]
  exact loadFile_of_open hopen h

theorem parseFile_of_rejected (hopen : openFile (.ofText given) state = .ok s)
    (h : s.Delivers tokens fault last) {i : Nat} {d : Diagnostic Location}
    (hd : RejectedAt tokens i d) : (parseFile given state).value = .error (.diagnostic d) := by
  have hfeed : Builder.initial.feedAll tokens = .error d := by
    rw [← List.take_append_drop (i + 1) tokens, Builder.feedAll_append, hd.feedAll_take]
    rfl
  rw [parseFile_of_open hopen h, hfeed]

-- With nothing refused the outcome is that of the end of the stream.
theorem exists_feedAll_of_not_rejected (h : ∀ i d, ¬RejectedAt tokens i d) :
    ∃ built, Builder.initial.feedAll tokens = .ok built := by
  cases hfeed : Builder.initial.feedAll tokens with
  | ok built => exact ⟨built, rfl⟩
  | error d =>
      obtain ⟨i, hi⟩ := Builder.exists_rejected_of_feedAll hfeed
      exact absurd hi (h i d)

-- What goes wrong at the end of a stream is not located at a token of it.
theorem loc_ne_of_atEnd (h : s.Delivers tokens fault last) (hs : s.InLine)
    {built : Builder Location} {d : Diagnostic Location}
    (hd : built.atEnd last fault = .error (.diagnostic d)) {t : Token Location} (ht : t ∈ tokens) :
    d.loc ≠ some t.loc := by
  have hcursor := h.loc_ne_cursor hs ht
  cases fault with
  | some fault =>
      cases fault with
      | undecodable fault =>
          cases hd
          simp [Diagnostic.ofCause]
      | tooManyDigits count => cases hd
      | closed => cases hd
  | none =>
      simp only [Builder.atEnd, Builder.finish] at hd
      split at hd
      · cases hd
      · cases hd
        simpa using hcursor.symm

theorem parseFile_eq_error_iff (hopen : openFile (.ofText given) state = .ok s)
    (h : s.Delivers tokens fault last) (hs : s.InLine) {i : Nat} {t : Token Location}
    (ht : tokens[i]? = some t) (d : Diagnostic Location) :
    ((parseFile given state).value = .error (.diagnostic d) ∧ d.loc = some t.loc) ↔
      RejectedAt tokens i d := by
  constructor
  · rintro ⟨hvalue, hloc⟩
    rw [parseFile_of_open hopen h] at hvalue
    cases hfeed : Builder.initial.feedAll tokens with
    | ok built =>
        rw [hfeed] at hvalue
        exact absurd hloc (loc_ne_of_atEnd h hs hvalue (List.mem_of_getElem? ht))
    | error found =>
        simp only [hfeed, Except.error.injEq, Failure.diagnostic.injEq] at hvalue
        subst hvalue
        have hparse : parse tokens t.loc = .error found := by simp only [parse, hfeed]
        obtain ⟨j, hj⟩ := Builder.exists_rejected_of_feedAll hfeed
        have hcause := RejectedAt.ofToken (i := j) hj
        exact (rejectedAt_iff_loc (h.nodup hs) ht).mpr ⟨hparse, hcause.1, hloc⟩
  · intro hd
    obtain ⟨_, t', ht', hloc⟩ := hd.ofToken
    obtain rfl := Option.some.inj (ht.symm.trans ht')
    exact ⟨parseFile_of_rejected hopen h hd, hloc⟩

theorem parseFile_of_not_rejected (hopen : openFile (.ofText given) state = .ok s)
    (h : s.Delivers tokens fault last) (hd : ∀ i d, ¬RejectedAt tokens i d) :
    (∀ x, fault = some x → (tokenize given state).value = .error (.ofStream s.file x) ∧
      (parseFile given state).value = .error (.ofStream s.file x)) ∧
    (fault = none →
      (∃ root, parse tokens last.cursor = .ok root ∧ (parseFile given state).value = .ok root) ∨
      ∃ d, parse tokens last.cursor = .error d ∧
        d.cause = .missingMarker .close .blockNotClosed none ∧ d.loc = some last.cursor ∧
        (parseFile given state).value = .error (.diagnostic d)) := by
  obtain ⟨built, hbuilt⟩ := exists_feedAll_of_not_rejected hd
  rw [parseFile_of_open hopen h, hbuilt]
  constructor
  · rintro x rfl
    obtain ⟨_, hend, _⟩ := h.restFrom [.opened s.file] []
    constructor
    · simp only [tokenize, hopen, Stream.rest, hend]
    · simp only [Builder.atEnd, h.file]
  · rintro rfl
    have hparse : parse tokens last.cursor = built.finish last.cursor := by
      simp only [parse, hbuilt]
    rw [hparse]
    simp only [Builder.atEnd, Builder.finish]
    split
    · exact .inl ⟨_, rfl, rfl⟩
    · exact .inr ⟨_, rfl, built.diagnose_cause _ _, built.diagnose_loc _ _, rfl⟩

theorem parse_of_parseFile_eq_ok (hopen : openFile (.ofText given) state = .ok s)
    (h : s.Delivers tokens fault last) {root : Block Location}
    (hroot : (parseFile given state).value = .ok root) :
    fault = none ∧ parse tokens last.cursor = .ok root := by
  rw [parseFile_of_open hopen h] at hroot
  cases hfeed : Builder.initial.feedAll tokens with
  | error d => simp [hfeed] at hroot
  | ok built =>
      rw [hfeed] at hroot
      cases fault with
      | some x => cases hroot
      | none =>
          refine ⟨rfl, ?_⟩
          simp only [parse, hfeed]
          simp only [Builder.atEnd] at hroot
          cases hfinish : built.finish last.cursor with
          | error d => simp [hfinish, Except.mapError] at hroot
          | ok found => simpa [hfinish, Except.mapError] using hroot

theorem linesRead_of_rejected (hopen : openFile (.ofText given) state = .ok s)
    (h : s.Delivers tokens fault last) (hs : s.InLine) (hline : s.line = 0) {i : Nat}
    {t : Token Location} (ht : tokens[i]? = some t) {d : Diagnostic Location}
    (hd : RejectedAt tokens i d) :
    ∃ p, t.loc = ⟨s.file, some p⟩ ∧
      linesRead (parseFile given state).log = s.pending.take p.line := by
  obtain ⟨p, hp, _⟩ := h.position hs (List.mem_of_getElem? ht)
  obtain ⟨built, t', hbuilt, ht', hfeed⟩ := hd
  obtain rfl := Option.some.inj (ht.symm.trans ht')
  have hlog := h.linesRead_build hs hbuilt ht hp hfeed [.opened s.file]
  refine ⟨p, hp, ?_⟩
  have hreverse : (parseFile given state).log =
      (Builder.initial.build s [.opened s.file]).log.reverse := by
    simp only [parseFile, hopen]
  rw [hreverse, linesRead, List.filterMap_reverse, ← linesRead, hlog, hline]
  simp [linesRead, Notice.line?]

end Load

-- Parsing a file while it is read agrees with parsing the list of its tokens. A token
-- that the list is refused at is what the file fails with, whatever comes after it, and
-- no line below that token has been taken. If none is refused, the fault that the tokens
-- end with is passed on, and otherwise the file is the tree of its tokens, or a block of
-- it is open at the end.
theorem parseFile_agrees_with_list (given : String) (state : FileState) :
    (∀ failure, openFile (.ofText given) state = .error failure →
      (parseFile given state).value = .error failure) ∧
    ∀ s, openFile (.ofText given) state = .ok s →
      let rest := s.rest [.opened s.file]
      let parsed := parseFile given state
      (rest.fault = s.fault.map .undecodable ∨
        ∃ count, rest.fault = some (.tooManyDigits count)) ∧
      (∀ i t d, rest.tokens[i]? = some t →
        ((parsed.value = .error (.diagnostic d) ∧ d.loc = some t.loc) ↔
          RejectedAt rest.tokens i d)) ∧
      ((∀ i d, ¬RejectedAt rest.tokens i d) →
        (∀ x, rest.fault = some x → (tokenize given state).value = .error (.ofStream s.file x) ∧
          parsed.value = .error (.ofStream s.file x)) ∧
        (rest.fault = none →
          (∃ root, parse rest.tokens rest.stream.cursor = .ok root ∧ parsed.value = .ok root) ∨
          ∃ d, parse rest.tokens rest.stream.cursor = .error d ∧
            d.cause = .missingMarker .close .blockNotClosed none ∧
            d.loc = some rest.stream.cursor ∧ parsed.value = .error (.diagnostic d))) ∧
      ∀ i t d, rest.tokens[i]? = some t → RejectedAt rest.tokens i d →
        ∃ p, t.loc = ⟨s.file, some p⟩ ∧ linesRead parsed.log = s.pending.take p.line := by
  constructor
  · intro failure hopen
    simp only [parseFile, hopen]
  · intro s hopen
    obtain ⟨bytes, _, hstart⟩ := openFile_eq_ok hopen
    have hs : s.InLine := .inl (by rw [hstart]; rfl)
    have hline : s.line = 0 := by rw [hstart]; rfl
    have hstill : s.closed = false := by rw [hstart]; rfl
    obtain ⟨tokens, fault, last, h, hfault⟩ := Stream.exists_delivers_of_open hstill
    obtain ⟨htokens, hend, hlast⟩ := h.restFrom [.opened s.file] []
    simp only [Stream.rest, htokens, hend, hlast, List.reverse_nil, List.nil_append]
    refine ⟨hfault.imp_left And.right, ?_, ?_, ?_⟩
    · intro i t d ht
      exact parseFile_eq_error_iff hopen h hs ht d
    · exact parseFile_of_not_rejected hopen h
    · intro i t d ht hd
      exact linesRead_of_rejected hopen h hs hline ht hd

end StackLang
