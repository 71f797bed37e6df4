import StackLang.Proofs.Program.Pipeline
import StackLang.Proofs.Source.Validity
import StackLang.Proofs.Token.Positions

-- What a stream takes from its reader. Lines are taken in order and only when a token
-- is wanted, the cursor moves forward, and each token stands where the cursor was.

namespace StackLang

def Notice.line? : Notice → Option Line
  | .lineRead _ line => some line
  | _ => none

-- The lines that a log says have been read.
def linesRead (log : List Notice) : List Line :=
  log.filterMap Notice.line?

theorem le_skipBlanks (column : Nat) (cs : List Char) : column ≤ (skipBlanks column cs).1 := by
  induction cs generalizing column with
  | nil => exact Nat.le_refl _
  | cons c rest ih =>
      unfold skipBlanks
      split
      · exact Nat.le_trans (Nat.le_succ column) (ih (column + 1))
      · exact Nat.le_refl _

theorem le_of_scan_nothing {column stop : Nat} {buffer : List Char}
    (h : scan column buffer = .nothing stop) : column ≤ stop := by
  have hle := le_skipBlanks column buffer
  unfold scan at h
  split at h
  · next heq =>
      cases h
      rwa [heq] at hle
  · next heq =>
      cases h
      rwa [heq] at hle
  · cases h

theorem lt_of_scan_run {column start next : Nat} {buffer text rest : List Char}
    (h : scan column buffer = .run start text next rest) : column ≤ start ∧ start < next := by
  have hle := le_skipBlanks column buffer
  unfold scan at h
  split at h
  · cases h
  · cases h
  · next first c tail _ heq =>
      simp only [heq] at hle
      simp only [Scan.run.injEq] at h
      obtain ⟨rfl, rfl, rfl, rfl⟩ := h
      have hnext := le_skipBlanks (first + (c :: tail.takeWhile (!Text.isBlank ·)).length)
        (tail.dropWhile (!Text.isBlank ·))
      simp only [List.length_cons] at hnext ⊢
      omega

theorem Position.Before.ne {p q : Position} (h : p.Before q) : p ≠ q := by
  rintro rfl
  simp only [Position.Before] at h
  omega

namespace Stream

-- A stream after it has taken lines from its reader.
structure Took (s : Stream) (taken : List Line) (here : Stream) : Prop where
  file : here.file = s.file
  fault : here.fault = s.fault
  closed : here.closed = s.closed
  line : here.line = s.line + taken.length
  column : (taken = [] ∧ here.column = s.column ∧ here.buffer = s.buffer) ∨
    (taken ≠ [] ∧ here.column = 1)

theorem Took.cons {s here : Stream} {line : Line} {lines taken : List Line}
    (h : (s.takeLine line lines).Took taken here) : s.Took (line :: taken) here where
  file := h.file
  fault := h.fault
  closed := h.closed
  line := by
    have hline := h.line
    simp only [takeLine] at hline
    simp only [hline, List.length_cons]
    omega
  column := by
    refine .inr ⟨by simp, ?_⟩
    rcases h.column with ⟨_, hcolumn, _⟩ | ⟨_, hcolumn⟩
    · exact hcolumn
    · exact hcolumn

-- All that a call can do: it takes lines until it finds a run, which it hands out, or
-- until there are no more, and stops.
theorem pull_cases (s : Stream) (log : List Notice) (pending : List Line) :
    ∃ taken here log', s.Took taken here ∧ pending = taken ++ here.pending ∧
      linesRead log' = taken.reverse ++ linesRead log ∧
      ((∃ start text next rest, scan here.column here.buffer = .run start text next rest ∧
        s.pull log pending = here.handOut log' start text next rest) ∨
      ∃ column, scan here.column here.buffer = .nothing column ∧
        s.pull log pending = here.stop log' column ∧ (here.pending = [] ∨ s.closed = true)) := by
  induction pending generalizing s log with
  | nil =>
      have hhere : s.Took [] { s with pending := [] } := ⟨rfl, rfl, rfl, rfl, .inl ⟨rfl, rfl, rfl⟩⟩
      refine ⟨[], _, log, hhere, rfl, rfl, ?_⟩
      cases hscan : scan s.column s.buffer with
      | run start text next rest =>
          exact .inl ⟨start, text, next, rest, rfl, pull_of_scan_run hscan log []⟩
      | nothing column => exact .inr ⟨column, rfl, by simp only [pull, hscan], .inl rfl⟩
  | cons line lines ih =>
      have hhere : s.Took [] { s with pending := line :: lines } :=
        ⟨rfl, rfl, rfl, rfl, .inl ⟨rfl, rfl, rfl⟩⟩
      cases hscan : scan s.column s.buffer with
      | run start text next rest =>
          refine ⟨[], _, log, hhere, rfl, rfl, .inl ⟨start, text, next, rest, hscan, ?_⟩⟩
          exact pull_of_scan_run hscan log (line :: lines)
      | nothing column =>
          by_cases hclosed : s.closed = true
          · refine ⟨[], _, log, hhere, rfl, rfl, .inr ⟨column, hscan, ?_, .inr hclosed⟩⟩
            exact pull_of_closed hclosed hscan log (line :: lines)
          · have hopen : s.closed = false := by simpa using hclosed
            rw [pull_of_scan_nothing hopen hscan]
            obtain ⟨taken, here, log', htook, hlines, hlog, hend⟩ := ih (s.takeLine line lines)
              (.lineRead (s.takeLine line lines).cursor line :: log)
            refine ⟨line :: taken, here, log', htook.cons, by rw [hlines, List.cons_append], ?_, hend⟩
            rw [hlog, List.reverse_cons, List.append_assoc]
            rfl

theorem handOut_stream (s : Stream) (log : List Notice) (start : Nat) (text : List Char)
    (next : Nat) (rest : List Char) :
    (s.handOut log start text next rest).stream = { s with column := next, buffer := rest } := by
  unfold handOut
  split
  · rfl
  · rfl

theorem linesRead_handOut (s : Stream) (log : List Notice) (start : Nat) (text : List Char)
    (next : Nat) (rest : List Char) :
    linesRead (s.handOut log start text next rest).log = linesRead log := by
  unfold handOut
  split
  · rfl
  · rfl

theorem stop_stream (s : Stream) (log : List Notice) (column : Nat) :
    (s.stop log column).stream = { s with column := column, buffer := [] } := by
  unfold stop
  split
  · rfl
  · split
    · rfl
    · rfl

theorem stop_log_eq (s : Stream) (log : List Notice) (column : Nat) :
    (s.stop log column).log = log := by
  unfold stop
  split
  · rfl
  · split
    · rfl
    · rfl

-- A call logs the lines that it takes, and no others.
theorem next_reads (s : Stream) (log : List Notice) :
    ∃ taken, s.pending = taken ++ s.after.pending ∧ s.after.line = s.line + taken.length ∧
      linesRead (s.next log).log = taken.reverse ++ linesRead log := by
  obtain ⟨taken, here, log', htook, hlines, hlog, hend⟩ := s.pull_cases log s.pending
  rw [← s.next_stream log, next]
  rcases hend with ⟨start, text, next, rest, _, hpull⟩ | ⟨column, _, hpull, _⟩
  · refine ⟨taken, ?_, ?_, ?_⟩
    · rw [hpull, handOut_stream, hlines]
    · rw [hpull, handOut_stream, htook.line]
    · rw [hpull, linesRead_handOut, hlog]
  · refine ⟨taken, ?_, ?_, ?_⟩
    · rw [hpull, stop_stream, hlines]
    · rw [hpull, stop_stream, htook.line]
    · rw [hpull, stop_log_eq, hlog]

-- The place of the cursor, once a line has been taken.
def place (s : Stream) : Position :=
  ⟨s.line, s.column⟩

-- What is left of a line belongs to a line that has been taken.
def InLine (s : Stream) : Prop :=
  s.buffer = [] ∨ 0 < s.line

theorem InLine.of_took {s here : Stream} {taken : List Line} (hs : s.InLine)
    (h : s.Took taken here) {start next : Nat} {text rest : List Char}
    (hscan : scan here.column here.buffer = .run start text next rest) : 0 < here.line := by
  have hline := h.line
  rcases h.column with ⟨rfl, _, hbuffer⟩ | ⟨hne, _⟩
  · rcases hs with hnil | hpos
    · rw [hbuffer, hnil] at hscan
      cases hscan
    · omega
  · have hlength := List.length_pos_iff.mpr hne
    omega

theorem InLine.after {s : Stream} (hs : s.InLine) : s.after.InLine := by
  obtain ⟨taken, here, log', htook, _, _, hend⟩ := s.pull_cases [] s.pending
  rw [Stream.after, next]
  rcases hend with ⟨start, text, next, rest, hscan, hpull⟩ | ⟨column, _, hpull, _⟩
  · have hpos := hs.of_took htook hscan
    rw [hpull, handOut_stream]
    exact .inr hpos
  · rw [hpull, stop_stream]
    exact .inl rfl

theorem Took.not_before {s here : Stream} {taken : List Line} (h : s.Took taken here) :
    ¬here.place.Before s.place := by
  have hline := h.line
  simp only [Position.Before, place]
  rcases h.column with ⟨rfl, hcolumn, _⟩ | ⟨hne, _⟩
  · simp only [List.length_nil] at hline
    omega
  · have hlength := List.length_pos_iff.mpr hne
    omega

-- The cursor never goes back.
theorem after_not_before (s : Stream) : ¬s.after.place.Before s.place := by
  obtain ⟨taken, here, log', htook, _, _, hend⟩ := s.pull_cases [] s.pending
  have hhere := htook.not_before
  rw [Stream.after, next]
  rcases hend with ⟨start, text, next, rest, hscan, hpull⟩ | ⟨column, hscan, hpull, _⟩
  · have hle := lt_of_scan_run hscan
    rw [hpull, handOut_stream]
    simp only [Position.Before, place] at hhere ⊢
    omega
  · have hle := le_of_scan_nothing hscan
    rw [hpull, stop_stream]
    simp only [Position.Before, place] at hhere ⊢
    omega

-- A token stands in the line that was taken last, not before where the cursor was
-- and before where it is.
theorem InLine.position {s : Stream} (hs : s.InLine) {token : Token Location}
    (h : s.answer = .ok (some token)) :
    ∃ p, token.loc = ⟨s.file, some p⟩ ∧ p.line = s.after.line ∧ ¬p.Before s.place ∧
      p.Before s.after.place := by
  obtain ⟨taken, here, log', htook, _, _, hend⟩ := s.pull_cases [] s.pending
  have hhere := htook.not_before
  rw [answer, next] at h
  rw [Stream.after, next]
  rcases hend with ⟨start, text, next, rest, hscan, hpull⟩ | ⟨column, _, hpull, _⟩
  · have hle := lt_of_scan_run hscan
    have hpos := hs.of_took htook hscan
    refine ⟨⟨here.line, start⟩, ?_, ?_, ?_, ?_⟩
    · rw [hpull, handOut] at h
      split at h
      · cases h
      · cases h
        simp [cursor, htook.file, Nat.ne_of_gt hpos]
    · rw [hpull, handOut_stream]
    · simp only [Position.Before, place] at hhere ⊢
      omega
    · rw [hpull, handOut_stream]
      exact .inr ⟨rfl, hle.2⟩
  · rw [hpull] at h
    exact absurd h stop_answer_ne_some

section Delivery

variable {s last : Stream} {tokens : List (Token Location)} {fault : Option StreamFault}

theorem Delivers.not_before (h : s.Delivers tokens fault last) :
    ¬last.place.Before s.place := by
  induction h with
  | done => exact after_not_before _
  | fault => exact after_not_before _
  | @token s last _ _ _ _ _ ih =>
      have hafter := s.after_not_before
      simp only [Position.Before] at ih hafter ⊢
      omega

-- Tokens are handed out from front to back, between the first place of the cursor
-- and the last.
theorem Delivers.positions (h : s.Delivers tokens fault last) (hs : s.InLine) :
    ∃ ps : List Position, tokens.map Token.loc = ps.map (fun p => ⟨s.file, some p⟩) ∧
      ps.Pairwise Position.Before ∧ ∀ p ∈ ps, ¬p.Before s.place ∧ p.Before last.place := by
  induction h with
  | done => exact ⟨[], rfl, .nil, by simp⟩
  | fault => exact ⟨[], rfl, .nil, by simp⟩
  | @token s last token tokens fault hanswer hrest ih =>
      obtain ⟨ps, hlocs, hsorted, hbounds⟩ := ih hs.after
      obtain ⟨p, hloc, _, hnot, hbefore⟩ := hs.position hanswer
      have hafter := s.after_not_before
      have hlast := hrest.not_before
      refine ⟨p :: ps, ?_, List.pairwise_cons.mpr ⟨?_, hsorted⟩, ?_⟩
      · rw [List.map_cons, List.map_cons, hlocs, hloc, s.after_file]
      · intro q hq
        have hstart := (hbounds q hq).1
        simp only [Position.Before] at hstart hbefore ⊢
        omega
      · intro q hq
        rcases List.mem_cons.mp hq with rfl | hq
        · refine ⟨hnot, ?_⟩
          simp only [Position.Before] at hbefore hlast ⊢
          omega
        · obtain ⟨hstart, hend⟩ := hbounds q hq
          refine ⟨?_, hend⟩
          simp only [Position.Before] at hstart hafter ⊢
          omega

theorem Delivers.nodup (h : s.Delivers tokens fault last) (hs : s.InLine) :
    (tokens.map Token.loc).Nodup := by
  obtain ⟨ps, hlocs, hsorted, _⟩ := h.positions hs
  rw [hlocs]
  refine (hsorted.imp fun hpq => hpq.ne).map _ ?_
  intro p q hpq hloc
  exact hpq (by simpa using hloc)

theorem Delivers.position (h : s.Delivers tokens fault last) (hs : s.InLine)
    {token : Token Location} (ht : token ∈ tokens) :
    ∃ p, token.loc = ⟨s.file, some p⟩ ∧ ¬p.Before s.place ∧ p.Before last.place := by
  obtain ⟨ps, hlocs, _, hbounds⟩ := h.positions hs
  have hmem : token.loc ∈ ps.map fun p => (⟨s.file, some p⟩ : Location) :=
    hlocs ▸ List.mem_map_of_mem ht
  obtain ⟨p, hp, hloc⟩ := List.mem_map.mp hmem
  exact ⟨p, hloc.symm, hbounds p hp⟩

-- The end of the file is behind every token.
theorem Delivers.loc_ne_cursor (h : s.Delivers tokens fault last) (hs : s.InLine)
    {token : Token Location} (ht : token ∈ tokens) : token.loc ≠ last.cursor := by
  obtain ⟨p, hloc, _, hbefore⟩ := h.position hs ht
  have hne := hbefore.ne
  rw [hloc, cursor]
  split
  · simp
  · simpa [place] using fun _ => hne

end Delivery

-- The stream and the log after some calls, whatever these have answered.
def calls : Nat → Stream → List Notice → Stream × List Notice
  | 0, s, log => (s, log)
  | n + 1, s, log => calls n (s.next log).stream (s.next log).log

theorem calls_reads (n : Nat) (s : Stream) (log : List Notice) :
    ∃ taken, s.pending = taken ++ (calls n s log).1.pending ∧
      linesRead (calls n s log).2 = taken.reverse ++ linesRead log := by
  induction n generalizing s log with
  | zero => exact ⟨[], rfl, rfl⟩
  | succ n ih =>
      obtain ⟨first, hfirst, _, hlog⟩ := s.next_reads log
      obtain ⟨taken, htaken, hlogs⟩ := ih (s.next log).stream (s.next log).log
      rw [s.next_stream log] at htaken
      refine ⟨first ++ taken, ?_, ?_⟩
      · rw [hfirst, htaken, calls, s.next_stream log, List.append_assoc]
      · rw [calls, hlogs, hlog, List.reverse_append, List.append_assoc]

-- Reading goes on behind a token, and behind a numeral that is too long for one.
def GoesOn : Except StreamFault (Option (Token Location)) → Prop
  | .ok (some _) | .error (.tooManyDigits _) => True
  | _ => False

-- What a stream answers when it has nothing left to hand out.
def lastAnswer (s : Stream) : Except StreamFault (Option (Token Location)) :=
  match s.fault with
  | none => .ok none
  | some fault => .error (.undecodable fault)

theorem not_goesOn_lastAnswer (s : Stream) : ¬GoesOn s.lastAnswer := by
  unfold lastAnswer
  split
  · exact id
  · exact id

theorem pending_of_lastAnswer {s : Stream} (hopen : s.closed = false)
    (h : s.answer = s.lastAnswer) : s.after.pending = [] := by
  obtain ⟨taken, here, log', htook, _, _, hend⟩ := s.pull_cases [] s.pending
  rw [answer, next] at h
  rw [Stream.after, next]
  rcases hend with ⟨start, text, next, rest, _, hpull⟩ | ⟨column, _, hpull, hpending⟩
  · have hgoes : GoesOn (here.handOut log' start text next rest).answer := by
      unfold handOut
      split
      · trivial
      · trivial
    rw [← hpull, h] at hgoes
    exact absurd hgoes s.not_goesOn_lastAnswer
  · rw [hpull, stop_stream]
    exact hpending.resolve_right (by simp [hopen])

-- One call for each run, and then one for the end, by which all lines have been taken.
theorem calls_runs {s : Stream} (hopen : s.closed = false) (log : List Notice) :
    (∀ m < s.runs.length, GoesOn (calls m s log).1.answer) ∧
    (calls s.runs.length s log).1.answer = s.lastAnswer ∧
    (calls (s.runs.length + 1) s log).1.pending = [] := by
  generalize hruns : s.runs = runs
  induction runs generalizing s log with
  | nil =>
      have hanswer : s.answer = s.lastAnswer := pull_of_no_runs hopen [] hruns
      refine ⟨by simp, hanswer, ?_⟩
      rw [List.length_nil, Nat.zero_add, calls, calls, s.next_stream log]
      exact pending_of_lastAnswer hopen hanswer
  | cons run runs ih =>
      obtain ⟨hanswer, hmore, hstill, hfault⟩ := pull_of_run hopen log hruns
      obtain ⟨hgoes, hlast, hpending⟩ := @ih (s.next log).stream hstill (s.next log).log hmore
      have hsame : (s.next log).stream.lastAnswer = s.lastAnswer := by
        simp only [lastAnswer, next, hfault]
      refine ⟨?_, hlast.trans hsame, hpending⟩
      intro m hm
      cases m with
      | zero =>
          rw [calls, ← s.next_answer log, next, hanswer]
          cases Lexeme.classify run.2 with
          | ok lexeme => trivial
          | error e => trivial
      | succ m => exact hgoes m (by simpa using hm)

end Stream

-- Reading line by line agrees with decoding a file at once, wherever its bytes are cut
-- into chunks. A text is read to its end, and its lines are those of the text. Bytes
-- that are no text end in a fault, and the lines before it are lines of the longest
-- text in front.
theorem reading_agrees_with_decoding (file : Path) (bytes : List UInt8) (log : List Notice) :
    let s := Stream.start file (.ofBytes bytes)
    ∃ n, (∀ m < n, Stream.GoesOn (Stream.calls m s log).1.answer) ∧
      (∀ text : String, text.toUTF8.toList = bytes →
        (∀ pieces : List (List UInt8), pieces.flatten = bytes →
          Lines.ofChunks .initial [] pieces =
            ⟨Lines.split [] (Lines.newlines text.toList), none⟩) ∧
        (Stream.calls n s log).1.answer = .ok none ∧
        linesRead (Stream.calls (n + 1) s log).2 =
          (Lines.split [] (Lines.newlines text.toList)).reverse ++ linesRead log) ∧
      ((∀ text : String, text.toUTF8.toList ≠ bytes) →
        ∃ longest : String, longest.toUTF8.toList <+: bytes ∧
          (∀ other : String, other.toUTF8.toList <+: bytes → other.toList <+: longest.toList) ∧
          (∀ pieces : List (List UInt8), pieces.flatten = bytes →
            (∃ fault, (Lines.ofChunks .initial [] pieces).fault = some fault) ∧
            (Lines.ofChunks .initial [] pieces).lines <+:
              Lines.split [] (Lines.newlines longest.toList)) ∧
          (∃ fault, (Stream.calls n s log).1.answer = .error (.undecodable fault) ∧
            Failure.ofStream file (.undecodable fault) =
              .diagnostic ⟨.unreadable file fault.text, none, []⟩) ∧
          ∃ lines, lines <+: Lines.split [] (Lines.newlines longest.toList) ∧
            linesRead (Stream.calls (n + 1) s log).2 = lines.reverse ++ linesRead log) := by
  intro s
  obtain ⟨hgoes, hlast, hpending⟩ := @Stream.calls_runs s rfl log
  obtain ⟨taken, hlines, hlog⟩ := Stream.calls_reads (s.runs.length + 1) s log
  rw [hpending, List.append_nil] at hlines
  refine ⟨s.runs.length, hgoes, ?_, ?_⟩
  · rintro text rfl
    have hsource : Lines.ofBytes text.toUTF8.toList =
        ⟨Lines.split [] (Lines.newlines text.toList), none⟩ := Lines.ofBytes_toUTF8 text
    refine ⟨fun pieces hpieces => Lines.ofChunks_toUTF8 hpieces, ?_, ?_⟩
    · rw [hlast]
      simp only [s, Stream.lastAnswer, Stream.start, hsource]
    · rw [hlog, ← hlines]
      simp only [s, Stream.start, hsource]
  · intro hnot
    obtain ⟨longest, hprefix, hmax, hchunks⟩ := Lines.exists_longest hnot
    obtain ⟨⟨fault, hfault⟩, hfront⟩ := hchunks _ (Lines.flatten_chunks Lines.chunkSize bytes)
    refine ⟨longest, hprefix, hmax, hchunks, ⟨fault, ?_, rfl⟩, ?_⟩
    · have hs : s.fault = some fault := hfault
      rw [hlast, Stream.lastAnswer, hs]
    · exact ⟨taken, hlines ▸ hfront, hlog⟩

-- A line end and a character that are each cut in two.
example : Lines.ofChunks .initial [] [[0x61, 0x0d], [0x0a, 0xc3], [0xa9]] =
    ⟨[['a', '\n'], ['é']], none⟩ := by rfl

end StackLang
