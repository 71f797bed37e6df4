import Mathlib.Data.List.Forall2
import StackLang.Proofs.Token.Runs

-- What a stream delivers when it is asked again and again: the runs of its
-- lines in order, each of them classified.

namespace StackLang

-- Where a run stands, and its text.
abbrev Found := Location × List Char

-- The token that a run is handed out as.
def Found.Becomes (run : Found) (token : Token Location) : Prop :=
  Lexeme.classify run.2 = .ok token.lexeme ∧ token.loc = run.1

-- The runs of lines that follow after `line` others.
def runsBelow (file : Path) (line : Nat) : List Line → List Found
  | [] => []
  | first :: rest =>
      (lineRuns 1 first).map (fun r => (⟨file, some ⟨line + 1, r.1⟩⟩, r.2)) ++
        runsBelow file (line + 1) rest

-- All runs are tokens, or those before the first that is not.
theorem exists_becomes_or_overlong (runs : List Found) :
    (∃ tokens, List.Forall₂ Found.Becomes runs tokens) ∨
    ∃ before run more tokens e, runs = before ++ run :: more ∧
      List.Forall₂ Found.Becomes before tokens ∧ Lexeme.classify run.2 = .error e := by
  induction runs with
  | nil => exact .inl ⟨[], .nil⟩
  | cons run runs ih =>
      cases hrun : Lexeme.classify run.2 with
      | error e => exact .inr ⟨[], run, runs, [], e, rfl, .nil, hrun⟩
      | ok lexeme =>
          have hbecomes : run.Becomes ⟨lexeme, run.1⟩ := ⟨hrun, rfl⟩
          rcases ih with ⟨tokens, htokens⟩ | ⟨before, next, more, tokens, e, rfl, htokens, he⟩
          · exact .inl ⟨_, .cons hbecomes htokens⟩
          · exact .inr ⟨run :: before, next, more, _, e, rfl, .cons hbecomes htokens, he⟩

namespace Stream

def bufferRuns (s : Stream) : List Found :=
  (lineRuns s.column s.buffer).map fun r => (({ s with column := r.1 } : Stream).cursor, r.2)

-- The runs of the text that has not been read.
def runs (s : Stream) : List Found :=
  s.bufferRuns ++ runsBelow s.file s.line s.pending

-- What the next call answers, and how it leaves the stream. Neither depends on
-- the log, to which a call only adds.

def answer (s : Stream) : Except StreamFault (Option (Token Location)) :=
  (s.next []).answer

def after (s : Stream) : Stream :=
  (s.next []).stream

theorem handOut_log (s : Stream) (log log' : List Notice) (column : Nat) (text : List Char)
    (next : Nat) (rest : List Char) :
    (s.handOut log column text next rest).answer = (s.handOut log' column text next rest).answer ∧
    (s.handOut log column text next rest).stream =
      (s.handOut log' column text next rest).stream := by
  unfold handOut
  cases Lexeme.classify text with
  | error e => exact ⟨rfl, rfl⟩
  | ok lexeme => exact ⟨rfl, rfl⟩

theorem stop_log (s : Stream) (log log' : List Notice) (column : Nat) :
    (s.stop log column).answer = (s.stop log' column).answer ∧
    (s.stop log column).stream = (s.stop log' column).stream := by
  unfold stop
  cases s.closed with
  | true => exact ⟨rfl, rfl⟩
  | false => cases s.fault <;> exact ⟨rfl, rfl⟩

theorem pull_log (s : Stream) (log log' : List Notice) (pending : List Line) :
    (s.pull log pending).answer = (s.pull log' pending).answer ∧
    (s.pull log pending).stream = (s.pull log' pending).stream := by
  induction pending generalizing s log log' with
  | nil =>
      unfold pull
      cases scan s.column s.buffer with
      | run start text next rest => exact handOut_log _ log log' start text next rest
      | nothing column => exact stop_log _ log log' column
  | cons line lines ih =>
      unfold pull
      cases scan s.column s.buffer with
      | run start text next rest => exact handOut_log _ log log' start text next rest
      | nothing column =>
          by_cases hclosed : s.closed = true
          · simp only [hclosed, if_true]
            exact stop_log _ log log' column
          · simp only [hclosed]
            exact ih _ _ _

theorem next_answer (s : Stream) (log : List Notice) : (s.next log).answer = s.answer :=
  (s.pull_log log [] s.pending).1

theorem next_stream (s : Stream) (log : List Notice) : (s.next log).stream = s.after :=
  (s.pull_log log [] s.pending).2

-- The tokens of all calls up to the first that gives none, the fault in that
-- one, if any, and how it leaves the stream.
inductive Delivers : Stream → List (Token Location) → Option StreamFault → Stream → Prop where
  | done {s : Stream} : s.answer = .ok none → Delivers s [] none s.after
  | fault {s : Stream} {fault : StreamFault} :
      s.answer = .error fault → Delivers s [] (some fault) s.after
  | token {s last : Stream} {token : Token Location} {tokens : List (Token Location)}
      {fault : Option StreamFault} : s.answer = .ok (some token) →
      Delivers s.after tokens fault last → Delivers s (token :: tokens) fault last

theorem Delivers.restFrom {s last : Stream} {tokens : List (Token Location)}
    {fault : Option StreamFault} (h : s.Delivers tokens fault last) (log : List Notice)
    (done : List (Token Location)) :
    (s.restFrom log done).tokens = done.reverse ++ tokens ∧
    (s.restFrom log done).fault = fault ∧ (s.restFrom log done).stream = last := by
  induction h generalizing log done with
  | @done s hanswer =>
      have hnext := s.next_answer log
      have hafter := s.next_stream log
      rw [Stream.restFrom]
      split <;> simp_all
  | @fault s fault hanswer =>
      have hnext := s.next_answer log
      have hafter := s.next_stream log
      rw [Stream.restFrom]
      split <;> simp_all
  | @token s last token tokens fault hanswer _ ih =>
      have hnext := s.next_answer log
      have hafter := s.next_stream log
      rw [Stream.restFrom]
      split
      · next log' found after heq =>
          simp only [heq, hanswer, Except.ok.injEq, Option.some.injEq] at hnext hafter
          subst hnext hafter
          have hrest := ih log' (found :: done)
          simpa using hrest
      · next heq => simp [heq, hanswer] at hnext
      · next heq => simp [heq, hanswer] at hnext

-- Every stream comes to an end, since each token leaves less to read.
theorem exists_delivers (s : Stream) : ∃ tokens fault last, s.Delivers tokens fault last := by
  cases hanswer : s.answer with
  | error fault => exact ⟨[], some fault, s.after, .fault hanswer⟩
  | ok found =>
      cases found with
      | none => exact ⟨[], none, s.after, .done hanswer⟩
      | some token =>
          have hless : s.after.size < s.size := pull_size hanswer
          obtain ⟨tokens, fault, last, hrest⟩ := s.after.exists_delivers
          exact ⟨token :: tokens, fault, last, .token hanswer hrest⟩
termination_by s.size

theorem bufferRuns_of_nothing {s : Stream} {column : Nat}
    (h : scan s.column s.buffer = .nothing column) : s.bufferRuns = [] := by
  rw [bufferRuns, lineRuns_of_nothing h, List.map_nil]

theorem bufferRuns_of_nil {s : Stream} (h : s.buffer = []) : s.bufferRuns = [] := by
  rw [bufferRuns, h, lineRuns_of_blanks (by simp), List.map_nil]

theorem bufferRuns_of_run {s : Stream} {start next : Nat} {text rest : List Char}
    (h : scan s.column s.buffer = .run start text next rest) :
    s.bufferRuns = (({ s with column := start } : Stream).cursor, text) ::
      ({ s with column := next, buffer := rest } : Stream).bufferRuns := by
  rw [bufferRuns, lineRuns_of_run h, List.map_cons]
  rfl

theorem pull_of_scan_run {s : Stream} {start next : Nat} {text rest : List Char}
    (h : scan s.column s.buffer = .run start text next rest) (log : List Notice)
    (pending : List Line) :
    s.pull log pending = { s with pending := pending }.handOut log start text next rest := by
  cases pending with
  | nil => simp only [pull, h]
  | cons line lines => simp only [pull, h]

theorem pull_of_scan_nothing {s : Stream} (hopen : s.closed = false) {column : Nat}
    (h : scan s.column s.buffer = .nothing column) (log : List Notice) (line : Line)
    (lines : List Line) :
    s.pull log (line :: lines) = (s.takeLine line lines).pull
      (.lineRead (s.takeLine line lines).cursor line :: log) lines := by
  rw [pull]
  simp only [h, hopen]
  rfl

theorem pull_of_closed {s : Stream} (hclosed : s.closed = true) {column : Nat}
    (h : scan s.column s.buffer = .nothing column) (log : List Notice) (pending : List Line) :
    s.pull log pending = { s with pending := pending }.stop log column := by
  cases pending with
  | nil => simp only [pull, h]
  | cons line lines =>
      rw [pull]
      simp only [h, hclosed, if_true]

-- Without a run left, a stream that has not been closed gives its fault.
theorem pull_of_no_runs {s : Stream} (hopen : s.closed = false) (log : List Notice)
    {pending : List Line} (h : s.bufferRuns ++ runsBelow s.file s.line pending = []) :
    (s.pull log pending).answer = match s.fault with
      | none => .ok none
      | some fault => .error (.undecodable fault) := by
  induction pending generalizing s log with
  | nil =>
      cases hscan : scan s.column s.buffer with
      | run start text next rest => simp [bufferRuns_of_run hscan] at h
      | nothing column =>
          simp only [pull, hscan, stop, hopen]
          cases s.fault <;> rfl
  | cons line lines ih =>
      cases hscan : scan s.column s.buffer with
      | run start text next rest => simp [bufferRuns_of_run hscan] at h
      | nothing column =>
          rw [bufferRuns_of_nothing hscan] at h
          rw [pull_of_scan_nothing hopen hscan]
          exact @ih (s.takeLine line lines) hopen _ h

-- Otherwise it hands out the first of them, if that can be classified.
theorem pull_of_run {s : Stream} (hopen : s.closed = false) (log : List Notice)
    {pending : List Line} {run : Found} {more : List Found}
    (h : s.bufferRuns ++ runsBelow s.file s.line pending = run :: more) :
    ((s.pull log pending).answer = match Lexeme.classify run.2 with
      | .ok lexeme => .ok (some ⟨lexeme, run.1⟩)
      | .error e => .error (.tooManyDigits e.count)) ∧
    (s.pull log pending).stream.runs = more ∧ (s.pull log pending).stream.closed = false ∧
    (s.pull log pending).stream.fault = s.fault := by
  cases hscan : scan s.column s.buffer with
  | run start text next rest =>
      rw [bufferRuns_of_run hscan, List.cons_append, List.cons.injEq] at h
      obtain ⟨rfl, rfl⟩ := h
      rw [pull_of_scan_run hscan, handOut]
      cases Lexeme.classify text with
      | ok lexeme => exact ⟨rfl, rfl, hopen, rfl⟩
      | error e => exact ⟨rfl, rfl, hopen, rfl⟩
  | nothing column =>
      rw [bufferRuns_of_nothing hscan] at h
      cases pending with
      | nil => cases h
      | cons line lines =>
          rw [pull_of_scan_nothing hopen hscan]
          exact @pull_of_run (s.takeLine line lines) hopen _ lines run more h
termination_by pending

theorem delivers_of_becomes {s : Stream} (hopen : s.closed = false)
    {tokens : List (Token Location)} (h : List.Forall₂ Found.Becomes s.runs tokens) :
    ∃ last, s.Delivers tokens (s.fault.map .undecodable) last := by
  generalize hruns : s.runs = left at h
  induction h generalizing s with
  | nil =>
      have hanswer : s.answer = _ := pull_of_no_runs hopen [] hruns
      cases hfault : s.fault with
      | none =>
          rw [hfault] at hanswer
          exact ⟨_, .done hanswer⟩
      | some fault =>
          rw [hfault] at hanswer
          exact ⟨_, .fault hanswer⟩
  | @cons run token more tokens hrun _ ih =>
      obtain ⟨hanswer, hmore, hstill, hfault⟩ := pull_of_run hopen [] hruns
      obtain ⟨hlexeme, hloc⟩ := hrun
      rw [hlexeme, ← hloc] at hanswer
      obtain ⟨last, hlast⟩ := ih hstill hmore
      rw [hfault] at hlast
      exact ⟨last, .token hanswer hlast⟩

-- A run that cannot be classified ends the delivery.
theorem delivers_of_overlong {s : Stream} (hopen : s.closed = false) {before more : List Found}
    {run : Found} (hruns : s.runs = before ++ run :: more) {tokens : List (Token Location)}
    (h : List.Forall₂ Found.Becomes before tokens) {e : TooManyDigits}
    (hrun : Lexeme.classify run.2 = .error e) :
    ∃ last, s.Delivers tokens (some (.tooManyDigits e.count)) last := by
  induction h generalizing s with
  | nil =>
      obtain ⟨hanswer, _⟩ := pull_of_run hopen [] hruns
      rw [hrun] at hanswer
      exact ⟨_, .fault hanswer⟩
  | cons hfirst _ ih =>
      obtain ⟨hanswer, hmore, hstill, _⟩ := pull_of_run hopen [] hruns
      obtain ⟨hlexeme, hloc⟩ := hfirst
      rw [hlexeme, ← hloc] at hanswer
      obtain ⟨last, hlast⟩ := ih hstill hmore
      exact ⟨last, .token hanswer hlast⟩

theorem runs_start (file : Path) (source : Lines) :
    (start file source).runs = runsBelow file 0 source.lines := by
  rw [runs, bufferRuns_of_nil rfl, List.nil_append]
  rfl

end Stream

end StackLang
