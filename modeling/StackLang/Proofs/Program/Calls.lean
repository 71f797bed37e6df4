import StackLang.Proofs.Program.Locations

-- Calls on one stream, in any order. Until it is closed, they hand out the tokens of the
-- file one after the other, and from then on what is left of the line that was taken last.

namespace StackLang

inductive Call where
  | next
  | place
  | all
  | close
deriving DecidableEq

-- What a call comes back with. A call for all tokens that raises a fault has handed out
-- the tokens before it.
inductive Reply where
  | token (t : Token Location)
  | noMore
  | place (loc : Location)
  | all (tokens : List (Token Location))
  | done
  | raised (tokens : List (Token Location)) (fault : StreamFault)

namespace Reply

def tokens : Reply → List (Token Location)
  | .token t => [t]
  | .all tokens | .raised tokens _ => tokens
  | .noMore | .place _ | .done => []

-- The end of the file has been come to.
def ends : Reply → Bool
  | .noMore | .all _ => true
  | _ => false

def ofAnswer : Except StreamFault (Option (Token Location)) → Reply
  | .ok (some t) => .token t
  | .ok none => .noMore
  | .error fault => .raised [] fault

def ofRest (rest : Stream.Rest) : Reply :=
  match rest.fault with
  | none => .all rest.tokens
  | some fault => .raised rest.tokens fault

-- The first of some tokens, or what is replied if there is none.
def first (empty : Reply) : List (Token Location) → Reply
  | [] => empty
  | t :: _ => .token t

theorem first_iff {empty : Reply} (hempty : ∀ t, empty ≠ .token t)
    (left : List (Token Location)) :
    (first empty left = empty ↔ left = []) ∧ ∀ t, first empty left = .token t ↔ [t] <+: left := by
  cases left with
  | nil => simp [first, hempty]
  | cons u left =>
      refine ⟨by simp [first, (hempty u).symm], ?_⟩
      intro t
      simp [first, eq_comm]

end Reply

-- A stream after some calls, with what these have logged and their replies.
structure Transcript where
  stream : Stream
  log : List Notice
  replies : List Reply

namespace Transcript

def start (s : Stream) (log : List Notice) : Transcript := ⟨s, log, []⟩

def reply (x : Transcript) : Call → Reply
  | .next => .ofAnswer (x.stream.next x.log).answer
  | .place => .place x.stream.cursor
  | .all => .ofRest (x.stream.rest x.log)
  | .close => .done

def call (x : Transcript) (c : Call) : Transcript where
  stream := match c with
    | .next => (x.stream.next x.log).stream
    | .place => x.stream
    | .all => (x.stream.rest x.log).stream
    | .close => x.stream.close
  log := match c with
    | .next => (x.stream.next x.log).log
    | .all => (x.stream.rest x.log).log
    | .place | .close => x.log
  replies := x.replies ++ [x.reply c]

def calls (x : Transcript) (cs : List Call) : Transcript :=
  cs.foldl call x

-- The tokens that have been handed out.
def handed (x : Transcript) : List (Token Location) :=
  x.replies.flatMap Reply.tokens

end Transcript

def Token.line? (t : Token Location) : Option Nat :=
  t.loc.position.map Position.line

theorem Token.line?_of_loc {t : Token Location} {file : Path} {p : Position}
    (h : t.loc = ⟨file, some p⟩) : t.line? = some p.line := by
  rw [Token.line?, h]
  rfl

-- Of the tokens behind those handed out, the ones in the line of the last of these.
def lineLeft (handed tokens : List (Token Location)) : List (Token Location) :=
  match handed.getLast? with
  | none => []
  | some last => (tokens.drop handed.length).filter fun t => t.line? = last.line?

theorem lineLeft_self (tokens : List (Token Location)) : lineLeft tokens tokens = [] := by
  unfold lineLeft
  split
  · rfl
  · simp

theorem lineLeft_concat (handed : List (Token Location)) (t : Token Location)
    (left : List (Token Location)) :
    lineLeft (handed ++ [t]) (handed ++ t :: left) =
      left.filter fun other => other.line? = t.line? := by
  have hdrop : (handed ++ t :: left).drop (handed ++ [t]).length = left := by simp
  simp only [lineLeft, List.getLast?_concat, hdrop]

theorem lt_of_mem_runsBelow {file : Path} {line : Nat} {lines : List Line} {run : Found}
    (h : run ∈ runsBelow file line lines) : ∃ p, run.1 = ⟨file, some p⟩ ∧ line < p.line := by
  induction lines generalizing line with
  | nil => cases h
  | cons first rest ih =>
      rcases List.mem_append.mp h with h | h
      · obtain ⟨r, _, rfl⟩ := List.mem_map.mp h
        exact ⟨_, rfl, Nat.lt_succ_self line⟩
      · obtain ⟨p, hp, hlt⟩ := ih h
        exact ⟨p, hp, Nat.lt_of_succ_lt hlt⟩

namespace Stream

variable {s last : Stream} {handed left tokens : List (Token Location)} {t : Token Location}

theorem InLine.of_mem_bufferRuns (hs : s.InLine) {run : Found}
    (h : run ∈ s.bufferRuns) : ∃ column, run.1 = ⟨s.file, some ⟨s.line, column⟩⟩ := by
  rcases hs with hnil | hpos
  · rw [bufferRuns_of_nil hnil] at h
    cases h
  · obtain ⟨r, _, rfl⟩ := List.mem_map.mp h
    exact ⟨r.1, by simp [cursor, Nat.ne_of_gt hpos]⟩

-- What is in the line of the cursor are the runs of the buffer, and no others.
theorem InLine.becomes_filter (hs : s.InLine) (h : List.Forall₂ Found.Becomes s.runs left)
    (ht : t.line? = some s.line) :
    List.Forall₂ Found.Becomes s.bufferRuns (left.filter fun other => other.line? = t.line?) := by
  have hbuffer := List.forall₂_take s.bufferRuns.length h
  have hbelow := List.forall₂_drop s.bufferRuns.length h
  rw [runs, List.take_left] at hbuffer
  rw [runs, List.drop_left] at hbelow
  have hhere : ∀ other ∈ left.take s.bufferRuns.length, decide (other.line? = t.line?) = true := by
    intro other hother
    obtain ⟨run, hrun, _, hloc⟩ := exists_run_of_becomes hbuffer hother
    obtain ⟨column, hcolumn⟩ := hs.of_mem_bufferRuns hrun
    rw [decide_eq_true_iff, Token.line?_of_loc (hloc.trans hcolumn), ht]
  have hnot : ∀ other ∈ left.drop s.bufferRuns.length, ¬decide (other.line? = t.line?) = true := by
    intro other hother
    obtain ⟨run, hrun, _, hloc⟩ := exists_run_of_becomes hbelow hother
    obtain ⟨p, hp, hlt⟩ := lt_of_mem_runsBelow hrun
    rw [decide_eq_true_iff, Token.line?_of_loc (hloc.trans hp), ht, Option.some.injEq]
    exact Nat.ne_of_gt hlt
  rw [← List.take_append_drop s.bufferRuns.length left, List.filter_append,
    List.filter_eq_self.mpr hhere, List.filter_eq_nil_iff.mpr hnot, List.append_nil]
  exact hbuffer

theorem Delivers.rest {fault : Option StreamFault} (h : s.Delivers tokens fault last)
    (log : List Notice) :
    (s.rest log).stream = last ∧
      Reply.ofRest (s.rest log) = fault.elim (.all tokens) (.raised tokens) := by
  obtain ⟨htokens, hfault, hlast⟩ := h.restFrom log []
  refine ⟨hlast, ?_⟩
  simp only [Reply.ofRest, Stream.rest, htokens, hfault, List.reverse_nil, List.nil_append]
  cases fault <;> rfl

-- A stream that has come to its end.
structure AtEnd (s : Stream) : Prop where
  opened : s.closed = false
  clean : s.fault = none
  buffer : s.buffer = []
  pending : s.pending = []

theorem AtEnd.next (h : s.AtEnd) (log : List Notice) :
    s.next log = ⟨log, .ok none, s⟩ := by
  obtain ⟨file, line, column, buffer, pending, fault, closed⟩ := s
  obtain ⟨rfl, rfl, rfl, rfl⟩ := h
  rfl

theorem AtEnd.delivers (h : s.AtEnd) : s.Delivers [] none s := by
  have hanswer : s.answer = .ok none := congrArg Pull.answer (h.next [])
  have hafter : s.after = s := congrArg Pull.stream (h.next [])
  have hdone := Delivers.done hanswer
  rwa [hafter] at hdone

theorem atEnd_of_answer (h : s.answer = .ok none) : s.after.AtEnd := by
  obtain ⟨taken, here, log', htook, _, _, hend⟩ := s.pull_cases [] s.pending
  rw [answer, next] at h
  rw [Stream.after, next]
  rcases hend with ⟨start, text, next, rest, _, hpull⟩ | ⟨column, _, hpull, hpending⟩
  · rw [hpull, handOut] at h
    split at h
    · cases h
    · cases h
  · rw [hpull, stop] at h
    split at h
    · cases h
    · next hopen =>
        have hopen : here.closed = false := by simpa using hopen
        have hstill : ¬s.closed = true := by simp [← htook.closed, hopen]
        split at h
        · cases h
        · next hclean =>
            rw [hpull, stop_stream]
            exact ⟨hopen, hclean, rfl, hpending.resolve_right hstill⟩

theorem Delivers.atEnd (h : s.Delivers tokens none last) : last.AtEnd := by
  generalize hfault : none = fault at h
  induction h with
  | done hanswer => exact atEnd_of_answer hanswer
  | fault hanswer => cases hfault
  | token _ _ ih => exact ih hfault

-- A stream that has handed out some tokens and not been closed, and what it has left.
structure Serves (s : Stream) (handed left : List (Token Location)) : Prop where
  opened : s.closed = false
  clean : s.fault = none
  inLine : s.InLine
  becomes : List.Forall₂ Found.Becomes s.runs left
  buffered : List.Forall₂ Found.Becomes s.bufferRuns (lineLeft handed (handed ++ left))

theorem AtEnd.serves (h : s.AtEnd) (handed : List (Token Location)) :
    s.Serves handed [] := by
  have hbuffer := bufferRuns_of_nil h.buffer
  refine ⟨h.opened, h.clean, .inl h.buffer, ?_, ?_⟩
  · rw [runs, hbuffer, h.pending]
    exact .nil
  · rw [hbuffer, List.append_nil, lineLeft_self]
    exact .nil

theorem Serves.next_token (h : s.Serves handed (t :: left)) :
    s.answer = .ok (some t) ∧ s.after.Serves (handed ++ [t]) left := by
  obtain ⟨hopen, hclean, hs, hbecomes, _⟩ := h
  generalize hruns : s.runs = found at hbecomes
  cases hbecomes with
  | @cons run _ more _ hrun hmore =>
      obtain ⟨hanswer, hleft, hstill, hfault⟩ := pull_of_run hopen [] hruns
      obtain ⟨hlexeme, hloc⟩ := hrun
      rw [hlexeme, ← hloc] at hanswer
      have hmore : List.Forall₂ Found.Becomes s.after.runs left := hleft ▸ hmore
      obtain ⟨p, hp, hline, _⟩ := hs.position hanswer
      refine ⟨hanswer, hstill, hfault.trans hclean, hs.after, hmore, ?_⟩
      rw [List.append_assoc, List.singleton_append, lineLeft_concat]
      exact hs.after.becomes_filter hmore (by rw [Token.line?_of_loc hp, hline])

theorem Serves.next_none (h : s.Serves handed []) : s.answer = .ok none ∧ s.after.AtEnd := by
  have hruns : s.runs = [] := List.forall₂_nil_right_iff.mp h.becomes
  have hanswer : s.answer = _ := pull_of_no_runs h.opened [] hruns
  rw [h.clean] at hanswer
  exact ⟨hanswer, atEnd_of_answer hanswer⟩

theorem Serves.rest (h : s.Serves handed left) (log : List Notice) :
    Reply.ofRest (s.rest log) = .all left ∧ (s.rest log).stream.AtEnd := by
  obtain ⟨last, hdelivers⟩ := delivers_of_becomes h.opened h.becomes
  rw [h.clean, Option.map_none] at hdelivers
  obtain ⟨hlast, hreply⟩ := hdelivers.rest log
  exact ⟨hreply, hlast ▸ hdelivers.atEnd⟩

-- A stream that has been closed, and what it has left in its buffer.
structure Drains (s : Stream) (left : List (Token Location)) : Prop where
  closed : s.closed = true
  buffered : List.Forall₂ Found.Becomes s.bufferRuns left

theorem Drains.next_token (h : s.Drains (t :: left)) :
    s.answer = .ok (some t) ∧ s.after.Drains left := by
  obtain ⟨hclosed, hbuffered⟩ := h
  cases hscan : scan s.column s.buffer with
  | nothing column =>
      rw [bufferRuns_of_nothing hscan] at hbuffered
      cases hbuffered
  | run start text next rest =>
      rw [bufferRuns_of_run hscan] at hbuffered
      cases hbuffered with
      | cons hrun hmore =>
          obtain ⟨hlexeme, hloc⟩ := hrun
          obtain ⟨lexeme, loc⟩ := t
          simp only at hlexeme hloc
          have hnext : s.next [] = _ := pull_of_scan_run hscan [] s.pending
          have hanswer : s.answer = .ok (some ⟨lexeme, loc⟩) := by
            rw [answer, hnext, handOut, hlexeme, hloc]
          refine ⟨hanswer, ?_⟩
          rw [Stream.after, hnext, handOut_stream]
          exact ⟨hclosed, hmore⟩

theorem Drains.next_closed (h : s.Drains []) :
    s.answer = .error .closed ∧ s.after.Drains [] := by
  obtain ⟨hclosed, hbuffered⟩ := h
  have hruns : s.bufferRuns = [] := List.forall₂_nil_right_iff.mp hbuffered
  cases hscan : scan s.column s.buffer with
  | run start text next rest => simp [bufferRuns_of_run hscan] at hruns
  | nothing column =>
      have hnext : s.next [] = s.stop [] column := pull_of_closed hclosed hscan [] s.pending
      rw [answer, Stream.after, hnext, stop_stream, stop, if_pos hclosed]
      refine ⟨rfl, hclosed, ?_⟩
      rw [bufferRuns_of_nil rfl]
      exact .nil

theorem Drains.exists_delivers (h : s.Drains left) :
    ∃ last, s.Delivers left (some .closed) last ∧ last.Drains [] := by
  induction left generalizing s with
  | nil =>
      obtain ⟨hanswer, hafter⟩ := h.next_closed
      exact ⟨s.after, .fault hanswer, hafter⟩
  | cons t left ih =>
      obtain ⟨hanswer, hafter⟩ := h.next_token
      obtain ⟨last, hdelivers, hlast⟩ := ih hafter
      exact ⟨last, .token hanswer hdelivers, hlast⟩

theorem Drains.rest (h : s.Drains left) (log : List Notice) :
    Reply.ofRest (s.rest log) = .raised left .closed ∧ (s.rest log).stream.Drains [] := by
  obtain ⟨last, hdelivers, hdrains⟩ := h.exists_delivers
  obtain ⟨hlast, hreply⟩ := hdelivers.rest log
  exact ⟨hreply, hlast ▸ hdrains⟩

end Stream

namespace Transcript

variable {x : Transcript} {tokens handed line more left : List (Token Location)}

theorem handed_call (x : Transcript) (c : Call) :
    (x.call c).handed = x.handed ++ (x.reply c).tokens := by
  simp [Transcript.handed, call]

theorem reply_next (x : Transcript) : x.reply .next = .ofAnswer x.stream.answer := by
  rw [reply, x.stream.next_answer]

theorem stream_next (x : Transcript) : (x.call .next).stream = x.stream.after :=
  x.stream.next_stream x.log

theorem calls_cons (x : Transcript) (c : Call) (cs : List Call) :
    x.calls (c :: cs) = (x.call c).calls cs := rfl

-- No call has been a `close`. What has been handed out is the start of the tokens, and the
-- rest of them is still to come.
structure Opened (x : Transcript) (tokens left : List (Token Location)) : Prop where
  split : tokens = x.handed ++ left
  serves : x.stream.Serves x.handed left
  ended : (∃ reply ∈ x.replies, reply.ends) → x.stream.AtEnd

theorem Opened.reply_next (h : x.Opened tokens left) : x.reply .next = .first .noMore left := by
  rw [Transcript.reply_next]
  cases left with
  | nil => rw [h.serves.next_none.1, Reply.ofAnswer, Reply.first]
  | cons t left => rw [h.serves.next_token.1, Reply.ofAnswer, Reply.first]

theorem Opened.call_token {t : Token Location} (h : x.Opened tokens (t :: left)) :
    (x.call .next).Opened tokens left := by
  obtain ⟨hanswer, hafter⟩ := h.serves.next_token
  have hreply : x.reply .next = .token t := h.reply_next
  have hhanded : (x.call .next).handed = x.handed ++ [t] := by
    rw [handed_call, hreply]
    rfl
  rw [← x.stream_next, ← hhanded] at hafter
  refine ⟨?_, hafter, ?_⟩
  · rw [hhanded, List.append_assoc]
    exact h.split
  · -- At the end there would have been no token.
    rintro ⟨reply, hmem, hends⟩
    rcases List.mem_append.mp hmem with hmem | hmem
    · have hnone := (h.ended ⟨reply, hmem, hends⟩).next []
      rw [Stream.answer, hnone] at hanswer
      cases hanswer
    · rw [List.mem_singleton.mp hmem, hreply] at hends
      cases hends

theorem Opened.call_none (h : x.Opened tokens []) : (x.call .next).Opened tokens [] := by
  have hend := h.serves.next_none.2
  have hreply : x.reply .next = .noMore := h.reply_next
  rw [← x.stream_next] at hend
  refine ⟨?_, hend.serves _, fun _ => hend⟩
  rw [handed_call, hreply, h.split]
  simp [Reply.tokens]

theorem Opened.call_all (h : x.Opened tokens left) : (x.call .all).Opened tokens [] := by
  obtain ⟨hreply, hend⟩ := h.serves.rest x.log
  refine ⟨?_, hend.serves _, fun _ => hend⟩
  rw [handed_call, reply, hreply, h.split, List.append_nil]
  rfl

theorem Opened.call_place (h : x.Opened tokens left) : (x.call .place).Opened tokens left := by
  have hhanded : (x.call .place).handed = x.handed := by simp [handed_call, reply, Reply.tokens]
  refine ⟨hhanded ▸ h.split, hhanded ▸ h.serves, ?_⟩
  simpa [call, reply, Reply.ends] using h.ended

theorem Opened.calls (h : x.Opened tokens left) {cs : List Call} (hcs : .close ∉ cs) :
    ∃ left', (x.calls cs).Opened tokens left' := by
  induction cs generalizing x left with
  | nil => exact ⟨left, h⟩
  | cons c cs ih =>
      rw [List.mem_cons, not_or] at hcs
      cases c with
      | close => exact absurd rfl hcs.1
      | place => exact ih h.call_place hcs.2
      | all => exact ih h.call_all hcs.2
      | next =>
          cases left with
          | nil => exact ih h.call_none hcs.2
          | cons t left => exact ih h.call_token hcs.2

-- At the end of the file the stream is no longer changed.
theorem stream_calls_of_atEnd (h : x.stream.AtEnd) {cs : List Call} (hcs : .close ∉ cs) :
    (x.calls cs).stream = x.stream := by
  induction cs generalizing x with
  | nil => rfl
  | cons c cs ih =>
      rw [List.mem_cons, not_or] at hcs
      have hstep : (x.call c).stream = x.stream := by
        cases c with
        | close => exact absurd rfl hcs.1
        | place => rfl
        | next => exact congrArg Stream.Pull.stream (h.next x.log)
        | all => exact (h.delivers.rest x.log).1
      rw [calls_cons, ih (hstep ▸ h) hcs.2, hstep]

-- The stream has been closed after `handed` had been handed out, when `line` was left of
-- the line; `more` has been handed out since.
structure Closed (x : Transcript) (handed line more left : List (Token Location)) : Prop where
  handed : x.handed = handed ++ more
  split : line = more ++ left
  drains : x.stream.Drains left

theorem Opened.close (h : x.Opened tokens left) :
    (x.call .close).Closed x.handed (lineLeft x.handed tokens) []
      (lineLeft x.handed tokens) where
  handed := by rw [handed_call]; rfl
  split := rfl
  drains := ⟨rfl, by rw [h.split]; exact h.serves.buffered⟩

theorem Closed.reply_next (h : x.Closed handed line more left) :
    x.reply .next = .first (.raised [] .closed) left := by
  rw [Transcript.reply_next]
  cases left with
  | nil => rw [h.drains.next_closed.1, Reply.ofAnswer, Reply.first]
  | cons t left => rw [h.drains.next_token.1, Reply.ofAnswer, Reply.first]

-- A call hands out what it replies with, and that comes from the front of what is left.
theorem Closed.call (h : x.Closed handed line more left) {c : Call}
    {left' : List (Token Location)} (hsplit : left = (x.reply c).tokens ++ left')
    (hdrains : (x.call c).stream.Drains left') :
    (x.call c).Closed handed line (more ++ (x.reply c).tokens) left' where
  handed := by rw [handed_call, h.handed, List.append_assoc]
  split := by rw [h.split, hsplit, List.append_assoc]
  drains := hdrains

theorem Closed.exists_call (h : x.Closed handed line more left) (c : Call) :
    ∃ more' left', (x.call c).Closed handed line more' left' := by
  cases c with
  | close => exact ⟨_, left, h.call rfl ⟨rfl, h.drains.buffered⟩⟩
  | place => exact ⟨_, left, h.call rfl h.drains⟩
  | all =>
      obtain ⟨hreply, hlast⟩ := h.drains.rest x.log
      refine ⟨_, [], h.call ?_ hlast⟩
      rw [reply, hreply, List.append_nil]
      rfl
  | next =>
      have hreply := h.reply_next
      cases left with
      | nil =>
          refine ⟨_, [], h.call (by rw [hreply]; rfl) ?_⟩
          rw [stream_next]
          exact h.drains.next_closed.2
      | cons t left =>
          refine ⟨_, left, h.call (by rw [hreply]; rfl) ?_⟩
          rw [stream_next]
          exact h.drains.next_token.2

theorem Closed.calls (h : x.Closed handed line more left) (cs : List Call) :
    ∃ more' left', (x.calls cs).Closed handed line more' left' := by
  induction cs generalizing x more left with
  | nil => exact ⟨more, left, h⟩
  | cons c cs ih =>
      obtain ⟨_, _, h'⟩ := h.exists_call c
      exact ih h'

end Transcript

theorem exists_stream_of_tokenize {given : String} {state : FileState}
    {tokens : List (Token Location)} (h : (tokenize given state).value = .ok tokens) :
    ∃ s, openFile (.ofText given) state = .ok s ∧ s.Serves [] tokens := by
  cases hopen : openFile (.ofText given) state with
  | error failure => simp [tokenize, hopen] at h
  | ok s =>
      obtain ⟨bytes, _, hstart⟩ := openFile_eq_ok hopen
      have hstill : s.closed = false := by rw [hstart]; rfl
      have hs : s.InLine := .inl (by rw [hstart]; rfl)
      have hbuffer : s.bufferRuns = [] := Stream.bufferRuns_of_nil (by rw [hstart]; rfl)
      obtain ⟨found, fault, last, hdelivers, hend⟩ := Stream.exists_delivers_of_open hstill
      cases fault with
      | some fault =>
          obtain ⟨_, hfault, _⟩ := hdelivers.restFrom [.opened s.file] []
          simp [tokenize, hopen, Stream.rest, hfault] at h
      | none =>
          obtain rfl := Except.ok.inj ((tokenize_of_open hopen hdelivers).symm.trans h)
          rcases hend with ⟨hbecomes, hfault⟩ | ⟨count, hcount⟩
          · have hclean := Option.map_eq_none_iff.mp hfault.symm
            exact ⟨s, rfl, hstill, hclean, hs, hbecomes, hbuffer ▸ .nil⟩
          · cases hcount

-- Calls on a file whose tokens can all be read, in any order. Before the file is closed
-- they hand out its tokens from the first on, `next` has no more exactly behind the last,
-- and once the end has been come to the cursor stays where it is. After that they hand out
-- what is left in the line of the last token, and a call that needs another line fails.
theorem calls_agree_with_tokenize (given : String) (state : FileState)
    (tokens : List (Token Location)) (h : (tokenize given state).value = .ok tokens) :
    ∃ s, openFile (.ofText given) state = .ok s ∧
      ∀ log before, Call.close ∉ before → ∀ x, (Transcript.start s log).calls before = x →
        x.handed <+: tokens ∧
        (x.reply .next = .noMore ↔ x.handed = tokens) ∧
        (∀ t, x.reply .next = .token t ↔ x.handed ++ [t] <+: tokens) ∧
        x.reply .all = .all (tokens.drop x.handed.length) ∧
        ((∃ reply ∈ x.replies, reply.ends) → ∀ more, Call.close ∉ more →
          (x.calls more).reply .next = .noMore ∧
          (x.calls more).stream.cursor = x.stream.cursor) ∧
        ∀ after y, (x.call .close).calls after = y →
          ∃ more, y.handed = x.handed ++ more ∧ more <+: lineLeft x.handed tokens ∧
            (∀ t, y.reply .next = .token t ↔ more ++ [t] <+: lineLeft x.handed tokens) ∧
            (y.reply .next = .raised [] .closed ↔ more = lineLeft x.handed tokens) ∧
            y.reply .all = .raised ((lineLeft x.handed tokens).drop more.length) .closed := by
  obtain ⟨s, hopen, hserves⟩ := exists_stream_of_tokenize h
  refine ⟨s, hopen, ?_⟩
  rintro log before hbefore x rfl
  have hstart : (Transcript.start s log).Opened tokens tokens :=
    ⟨rfl, hserves, by simp [Transcript.start]⟩
  obtain ⟨left, hopened⟩ := hstart.calls hbefore
  generalize (Transcript.start s log).calls before = x at hopened
  obtain ⟨hnone, htoken⟩ := @Reply.first_iff .noMore (by simp) left
  rw [← hopened.reply_next] at hnone htoken
  have hsplit := hopened.split
  refine ⟨⟨left, hsplit.symm⟩, ?_, ?_, ?_, ?_, ?_⟩
  · rw [hnone, hsplit, List.self_eq_append_right]
  · intro t
    rw [htoken, hsplit, List.prefix_append_right_inj]
  · rw [hsplit, List.drop_left]
    exact (hopened.serves.rest x.log).1
  · intro hends more hmore
    have hend := hopened.ended hends
    have hstream := Transcript.stream_calls_of_atEnd hend hmore
    refine ⟨?_, by rw [hstream]⟩
    rw [Transcript.reply_next, hstream, Stream.answer, hend.next]
    rfl
  · rintro after y rfl
    obtain ⟨more, rest, hclosed⟩ := hopened.close.calls after
    generalize (x.call .close).calls after = y at hclosed
    obtain ⟨hraised, hnext⟩ := @Reply.first_iff (.raised [] .closed) (by simp) rest
    rw [← hclosed.reply_next] at hraised hnext
    have hline := hclosed.split
    refine ⟨more, hclosed.handed, ⟨rest, hline.symm⟩, ?_, ?_, ?_⟩
    · intro t
      rw [hnext, hline, List.prefix_append_right_inj]
    · rw [hraised, hline, List.self_eq_append_right]
    · rw [hline, List.drop_left]
      exact (hclosed.drains.rest y.log).1

-- Two tokens and a comment, an empty line, and two tokens more.
def callsSample : String := "1 2 // x\n\n3 4\n"

def callsSampleTokens : List (Token Location) :=
  [⟨.int 1, ⟨⟨0, ["main"]⟩, some ⟨1, 1⟩⟩⟩, ⟨.int 2, ⟨⟨0, ["main"]⟩, some ⟨1, 3⟩⟩⟩,
    ⟨.int 3, ⟨⟨0, ["main"]⟩, some ⟨3, 1⟩⟩⟩, ⟨.int 4, ⟨⟨0, ["main"]⟩, some ⟨3, 3⟩⟩⟩]

-- The file is closed behind its first token. The second can still be had, and the third not.
theorem calls_agree_with_tokenize_callsSample :
    (tokenize "main" (.regular callsSample.toUTF8.toList)).value = .ok callsSampleTokens ∧
    ∃ s x y, openFile (.ofText "main") (.regular callsSample.toUTF8.toList) = .ok s ∧
      (Transcript.start s []).calls [.next, .place] = x ∧ (x.call .close).calls [.next] = y ∧
      x.handed = callsSampleTokens.take 1 ∧ y.handed = callsSampleTokens.take 2 ∧
      y.reply .next = .raised [] .closed := by
  have hoption : (tokenize "main" (.regular callsSample.toUTF8.toList)).value.toOption =
      some callsSampleTokens := by decide +kernel
  have htokens : (tokenize "main" (.regular callsSample.toUTF8.toList)).value =
      .ok callsSampleTokens := by
    generalize (tokenize "main" (.regular callsSample.toUTF8.toList)).value = value at hoption
    cases value with
    | error failure => cases hoption
    | ok tokens => exact congrArg Except.ok (Option.some.inj hoption)
  obtain ⟨s, hopen, hcalls⟩ := calls_agree_with_tokenize "main" _ _ htokens
  have hstart := @openFile_regular "main" (by decide) callsSample.toUTF8.toList
  obtain rfl := Except.ok.inj (hopen.symm.trans hstart)
  obtain ⟨_, _, _, _, _, hclosed⟩ := hcalls [] [.next, .place] (by decide) _ rfl
  obtain ⟨more, hmore, _, _, hraised, _⟩ := hclosed [.next] _ rfl
  have hx : ((Transcript.start (.start (.ofText "main") (.ofBytes callsSample.toUTF8.toList))
      []).calls [.next, .place]).handed = callsSampleTokens.take 1 := by decide +kernel
  have hy : ((((Transcript.start (.start (.ofText "main") (.ofBytes callsSample.toUTF8.toList))
      []).calls [.next, .place]).call .close).calls [.next]).handed =
        callsSampleTokens.take 2 := by decide +kernel
  refine ⟨htokens, _, _, _, hopen, rfl, rfl, hx, hy, hraised.mpr ?_⟩
  rw [hx]
  rw [hx, hy] at hmore
  exact List.append_cancel_left (hmore.symm.trans (by decide))

end StackLang
