import StackLang.Program.Builder
import StackLang.Source.FileState
import StackLang.Token.Stream

-- Loading a source file. The builder takes tokens from the stream as it needs
-- them, so that a fault stops the reading where it is found.

namespace StackLang

-- Why a file does not load. All but the first are faults of the request or of
-- a limit, not of the program, and have no location.
inductive Failure where
  | diagnostic (d : Diagnostic Location)
  | tooManyDigits (count : Nat)
  | closed
  | nulInPath

namespace Failure

def message : Failure → String
  | .diagnostic d => d.cause.message
  | .tooManyDigits count =>
      "Exceeds the limit (" ++ Text.decimal maxDigits
        ++ " digits) for integer string conversion: value has " ++ Text.decimal count
        ++ " digits; use sys.set_int_max_str_digits() to increase the limit"
  | .closed => "I/O operation on closed file."
  | .nulInPath => "embedded null byte"

def ofStream (file : Path) : StreamFault → Failure
  | .undecodable fault => .diagnostic (.ofCause (.unreadable file fault.text))
  | .tooManyDigits count => .tooManyDigits count
  | .closed => .closed

end Failure

-- Opens a file for reading.
def openFile (file : Path) (state : FileState) : Except Failure Stream :=
  if file.text.toList.contains (Char.ofNat 0) then .error .nulInPath
  else match state.read file with
    | .ok bytes => .ok (.start file (.ofBytes bytes))
    | .error reason => .error (.diagnostic (.ofCause (.unreadable file reason)))

-- All tokens of a file.
def tokenize (given : String) (state : FileState) :
    Logged (Except Failure (List (Token Location))) :=
  match openFile (.ofText given) state with
  | .error failure => ⟨[], .error failure⟩
  | .ok stream =>
      let rest := stream.rest [.opened stream.file]
      match rest.fault with
      | none => ⟨rest.log.reverse, .ok rest.tokens⟩
      | some fault => ⟨rest.log.reverse, .error (.ofStream stream.file fault)⟩

-- Feeds the tokens of a stream to a builder. The log that is passed on and the
-- one that comes back hold the latest notice first.
def Builder.build (b : Builder Location) (s : Stream) (log : List Notice) :
    Logged (Except Failure (Block Location)) :=
  match _h : s.next log with
  | ⟨log, .error fault, _⟩ => ⟨log, .error (.ofStream s.file fault)⟩
  | ⟨log, .ok none, after⟩ =>
      match b.finish after.cursor with
      | .ok root => ⟨log, .ok root⟩
      | .error d => ⟨log, .error (.diagnostic d)⟩
  | ⟨log, .ok (some token), after⟩ =>
      match b.feed token with
      | .error d => ⟨log, .error (.diagnostic d)⟩
      | .ok next => next.build after ((next.completed?.map Notice.parsed).toList ++ log)
termination_by s.size
decreasing_by exact Stream.next_size _h

-- The tree of a file.
def parseFile (given : String) (state : FileState) :
    Logged (Except Failure (Block Location)) :=
  match openFile (.ofText given) state with
  | .error failure => ⟨[], .error failure⟩
  | .ok stream =>
      let built := Builder.initial.build stream [.opened stream.file]
      ⟨built.log.reverse, built.value⟩

-- The program in a file: its tree, and two notices more.
def loadFile (given : String) (state : FileState) : Logged (Except Failure (Block Location)) :=
  let parsed := parseFile given state
  match parsed.value with
  | .error failure => ⟨parsed.log, .error failure⟩
  | .ok root => ⟨parsed.log ++ [.loaded given, .rootSize root.length], .ok root⟩

end StackLang
