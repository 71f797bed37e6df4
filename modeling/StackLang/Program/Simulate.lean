import StackLang.Machine.Run
import StackLang.Program.Load

-- Loading a program and running it.

namespace StackLang

variable {α : Type}

def Trap.cause : Trap → Cause
  | .underflow => .stackUnderflow
  | .zeroDivisor => .divideByZero

-- The value in decimal and, in sixteen digits, in hexadecimal.
def printLine (value : Int) : String :=
  Text.decimalInt value ++ " (0x" ++ Text.hexadecimal 16 value.toNat ++ ")\n"

namespace Event

def output : Event α → String
  | .printed value => printLine value
  | _ => ""

def notice? : Event Location → Option Notice
  | .printed _ => none
  | .overflow loc op => some (.overflow loc op)
  | .nonBinary loc value => some (.nonBinary loc value)

end Event

namespace Run

def output (run : Run α) : String :=
  String.join (run.trace.map Event.output)

def notices (run : Run Location) : List Notice :=
  run.trace.filterMap Event.notice?

-- The fault that a run ended with.
def diagnostic? (run : Run α) : Option (Diagnostic α) :=
  match run.ending with
  | .failed trap loc => some ((Diagnostic.ofCause trap.cause).located loc)
  | _ => none

end Run

-- Loads a program and runs it on a stack.
def simulate (given : String) (state : FileState) (budget : Nat) (stack : Stack) :
    Logged (Except Failure (Run Location)) :=
  let loaded := loadFile given state
  match loaded.value with
  | .error failure => ⟨loaded.log, .error failure⟩
  | .ok root =>
      let run := execute .wrapping budget root stack
      ⟨loaded.log ++ run.notices, .ok run⟩

structure SessionStep where
  log : List Notice
  outcome : Except Failure (Run Location)
  stack : Stack

-- Programs that follow one another on one stack. A program that does not load
-- leaves it alone, and one that fails leaves what it has made of it.
def session (budget : Nat) : Stack → List (String × FileState) → List SessionStep
  | _, [] => []
  | stack, (given, state) :: rest =>
      let step := simulate given state budget stack
      let after := match step.value with
        | .ok run => run.stack
        | .error _ => stack
      ⟨step.log, step.value, after⟩ :: session budget after rest

end StackLang
