import StackLang.Command.Arguments
import StackLang.Log.Level
import StackLang.Op.Layout
import StackLang.Program.Simulate
import StackLang.Text.Plain

-- What the command line prints and how it ends.

namespace StackLang.Command

def version : String := "0.3.0"

-- The platform that the version text names.
def platform : String := "CPython 3.11.0"

inductive Status where
  | exit (code : Nat)
  -- The arguments make no sense.
  | usage
  -- A failure that is no diagnostic.
  | escaped (failure : Failure)
  -- The budget of tests was used up.
  | capped

structure Response where
  out : String
  err : String
  status : Status

def unlines (lines : List String) : String :=
  String.join (lines.map (· ++ "\n"))

-- The report of a diagnostic is plain text, whatever the names and words in it
-- are; log lines are left as they are.
def report (d : Diagnostic Location) : String :=
  unlines (d.lines.map Text.plain)

-- A failure is reported after what has been logged.
def Response.ofFailure (failure : Failure) (out err : String) : Response :=
  match failure with
  | .diagnostic d => ⟨out, err ++ report d, .exit 1⟩
  | _ => ⟨out, err, .escaped failure⟩

def dump (threshold : Nat) (file : String) (state : FileState) : Response :=
  let loaded := loadFile file state
  let err := unlines (logLines threshold loaded.log)
  match loaded.value with
  | .error failure => .ofFailure failure "" err
  | .ok root => ⟨Block.sourceText root, err, .exit 0⟩

def sim (threshold : Nat) (file : String) (state : FileState) (budget : Nat) : Response :=
  let ran := simulate file state budget []
  let err := unlines (logLines threshold ran.log)
  match ran.value with
  | .error failure => .ofFailure failure "" err
  | .ok run =>
      match run.ending, run.diagnostic? with
      | .capped, _ => ⟨run.output, err, .capped⟩
      | _, some d => .ofFailure (.diagnostic d) run.output err
      | _, none => ⟨run.output, err, .exit 0⟩

-- A warning about the log level comes before there is a form for log lines, so
-- it is the bare message.
def act (action : Action) (file : Path) (logLevel environment : Option String)
    (state : FileState) (budget : Nat) : Response :=
  let level := LogLevel.choose logLevel environment
  let response := match action with
    | .sim => sim level.value.threshold file.text state budget
    | .dump => dump level.value.threshold file.text state
  { response with err := unlines (level.log.map Notice.message) ++ response.err }

def versionLines : List String :=
  ["porthsim version " ++ version, "  Python:        " ++ platform]

-- Answers a command line where `lookUp` tells what a path leads to.
def respond (args : List String) (environment : Option String) (lookUp : Path → FileState)
    (budget : Nat) : Response :=
  match request? args with
  | none => ⟨"", "", .usage⟩
  | some .version => ⟨unlines versionLines, "", .exit 0⟩
  | some (.act action file logLevel) =>
      let file := Path.ofText file
      act action file logLevel environment (lookUp file) budget

end StackLang.Command
