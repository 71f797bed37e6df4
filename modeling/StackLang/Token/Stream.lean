import StackLang.Log.Notice
import StackLang.Measure
import StackLang.Text.Blank

-- Tokens, handed out one at a time. A line is taken when its first token is
-- wanted. Two slashes at the start of a token make the rest of the line a
-- comment; inside a token they are ordinary characters.

namespace StackLang

-- What stands first in the rest of a line.
inductive Scan where
  -- No token. The column is that of the comment, or of the end of the line.
  | nothing (column : Nat)
  -- A token, where it starts, and the rest of the line from `next` on.
  | run (column : Nat) (text : List Char) (next : Nat) (rest : List Char)

def skipBlanks (column : Nat) : List Char → Nat × List Char
  | [] => (column, [])
  | c :: rest => if Text.isBlank c then skipBlanks (column + 1) rest else (column, c :: rest)

-- The longest run without blanks, and the blanks after it.
def scan (column : Nat) (buffer : List Char) : Scan :=
  match skipBlanks column buffer with
  | (column, []) => .nothing column
  | (column, '/' :: '/' :: _) => .nothing column
  | (column, c :: rest) =>
      let text := c :: rest.takeWhile (!Text.isBlank ·)
      let (next, rest) := skipBlanks (column + text.length) (rest.dropWhile (!Text.isBlank ·))
      .run column text next rest

theorem skipBlanks_length (column : Nat) (cs : List Char) :
    (skipBlanks column cs).2.length ≤ cs.length := by
  induction cs generalizing column with
  | nil => simp [skipBlanks]
  | cons c rest ih =>
      unfold skipBlanks
      split
      · exact Nat.le_succ_of_le (ih _)
      · exact Nat.le_refl _

theorem length_dropWhile_le {α : Type} (p : α → Bool) (l : List α) :
    (l.dropWhile p).length ≤ l.length :=
  (List.dropWhile_sublist p).length_le

-- A token is never empty, so that taking one shortens the line.
theorem scan_run_length {column start next : Nat} {buffer text rest : List Char}
    (h : scan column buffer = .run start text next rest) : rest.length < buffer.length := by
  unfold scan at h
  have hb := skipBlanks_length column buffer
  split at h
  · cases h
  · cases h
  · next first c tail _ heq =>
      simp only [heq, List.length_cons] at hb
      simp only [Scan.run.injEq] at h
      obtain ⟨rfl, rfl, rfl, rfl⟩ := h
      have hs := skipBlanks_length (first + (c :: tail.takeWhile (!Text.isBlank ·)).length)
        (tail.dropWhile (!Text.isBlank ·))
      have hd := length_dropWhile_le (!Text.isBlank ·) tail
      omega

-- Why no token can be handed out.
inductive StreamFault where
  | undecodable (fault : Utf8.Fault)
  | tooManyDigits (count : Nat)
  | closed
deriving DecidableEq, Repr

structure Stream where
  file : Path
  -- How many lines have been taken, and the column of the cursor in the last.
  line : Nat
  column : Nat
  -- The rest of that line.
  buffer : List Char
  -- The lines that have not been taken, and the fault that they end with.
  pending : List Line
  fault : Option Utf8.Fault
  closed : Bool

namespace Stream

def start (file : Path) (source : Lines) : Stream where
  file := file
  line := 0
  column := 1
  buffer := []
  pending := source.lines
  fault := source.fault
  closed := false

-- Before the first line the cursor has no position.
def cursor (s : Stream) : Location :=
  ⟨s.file, if s.line = 0 then none else some ⟨s.line, s.column⟩⟩

-- Lines already taken can still be used.
def close (s : Stream) : Stream :=
  { s with closed := true }

-- Everything that is still to be read.
def size (s : Stream) : Nat :=
  s.buffer.length + total List.length s.pending

-- One call for a token: what it logged on top of what had been logged before
-- (latest first), its answer (none at the end of the file) and the new state.
structure Pull where
  log : List Notice
  answer : Except StreamFault (Option (Token Location))
  stream : Stream

def takeLine (s : Stream) (line : Line) (rest : List Line) : Stream :=
  { s with line := s.line + 1, column := 1, buffer := line, pending := rest }

-- Hands out the token `text`, which starts at `column`.
def handOut (s : Stream) (log : List Notice) (column : Nat) (text : List Char) (next : Nat)
    (rest : List Char) : Pull :=
  let after := { s with column := next, buffer := rest }
  match Lexeme.classify text with
  | .error e => ⟨log, .error (.tooManyDigits e.count), after⟩
  | .ok lexeme =>
      let token : Token Location := ⟨lexeme, ({ s with column := column } : Stream).cursor⟩
      ⟨.lexed token :: log, .ok (some token), after⟩

-- The end of the lines, or a closed file.
def stop (s : Stream) (log : List Notice) (column : Nat) : Pull :=
  let after := { s with column := column, buffer := [] }
  if s.closed then ⟨log, .error .closed, after⟩
  else match s.fault with
    | some fault => ⟨log, .error (.undecodable fault), after⟩
    | none => ⟨log, .ok none, after⟩

-- `pending` are the stream's lines; each turn that finds no token takes one.
def pull (s : Stream) (log : List Notice) (pending : List Line) : Pull :=
  let here := { s with pending := pending }
  match scan s.column s.buffer with
  | .run column text next rest => here.handOut log column text next rest
  | .nothing column =>
      match pending with
      | [] => here.stop log column
      | line :: lines =>
          if s.closed then here.stop log column
          else
            let taken := s.takeLine line lines
            pull taken (.lineRead taken.cursor line :: log) lines
termination_by structural pending

-- The next token.
def next (s : Stream) (log : List Notice) : Pull :=
  s.pull log s.pending

theorem handOut_size {s : Stream} {log : List Notice} {column next : Nat} {text rest : List Char} :
    (s.handOut log column text next rest).stream.size =
      rest.length + total List.length s.pending := by
  unfold handOut
  split <;> rfl

theorem stop_answer_ne_some {s : Stream} {log : List Notice} {column : Nat}
    {token : Token Location} : (s.stop log column).answer ≠ .ok (some token) := by
  unfold stop
  split
  · simp
  · split <;> simp

-- Each token handed out leaves less to read.
theorem pull_size {s : Stream} {log : List Notice} {pending : List Line} {token : Token Location}
    (h : (s.pull log pending).answer = .ok (some token)) :
    (s.pull log pending).stream.size < s.buffer.length + total List.length pending := by
  induction pending generalizing s log with
  | nil =>
      unfold pull at h ⊢
      split at h
      · next heq =>
          have hs := scan_run_length heq
          simp only [handOut_size]
          omega
      · exact absurd h stop_answer_ne_some
  | cons line lines ih =>
      unfold pull at h ⊢
      split at h
      · next heq =>
          have hs := scan_run_length heq
          simp only [handOut_size]
          omega
      · simp only at h
        split at h
        · exact absurd h stop_answer_ne_some
        · next hc =>
            have hs := ih h
            simp only [takeLine] at hs
            simp only [hc, Bool.false_eq_true, if_false, total_cons]
            exact Nat.lt_of_lt_of_le hs (Nat.le_add_left _ _)

theorem next_size {s after : Stream} {log log' : List Notice} {token : Token Location}
    (h : s.next log = ⟨log', .ok (some token), after⟩) : after.size < s.size := by
  have hs := @pull_size s log s.pending token (by rw [← next, h])
  rwa [← next, h] at hs

-- All tokens up to the end of the file or the first fault.
structure Rest where
  log : List Notice
  tokens : List (Token Location)
  fault : Option StreamFault
  stream : Stream

-- `tokens` holds those handed out so far, latest first.
def restFrom (s : Stream) (log : List Notice) (tokens : List (Token Location)) : Rest :=
  match _h : s.next log with
  | ⟨log, .ok (some token), after⟩ => restFrom after log (token :: tokens)
  | ⟨log, .ok none, after⟩ => ⟨log, tokens.reverse, none, after⟩
  | ⟨log, .error fault, after⟩ => ⟨log, tokens.reverse, some fault, after⟩
termination_by s.size
decreasing_by exact next_size _h

def rest (s : Stream) (log : List Notice) : Rest :=
  s.restFrom log []

end Stream

end StackLang
