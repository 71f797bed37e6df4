import StackLang.Command.Respond

-- The command line, as a program.

namespace StackLang.Command

def reasonOf : IO.Error → String
  | .noFileOrDirectory _ _ _ => "No such file or directory"
  | .inappropriateType _ _ details => details
  | .resourceExhausted _ _ details => details
  | .permissionDenied _ _ details => details
  | error => toString error

def lookUpFile (file : Path) : IO FileState := do
  try
    let bytes ← IO.FS.readBinFile file.text
    return .regular bytes.toList
  catch error => return .refused (reasonOf error)

-- What the file that is asked for leads to.
def stateAsked (args : List String) : IO FileState :=
  match request? args with
  | some (.act _ file _) => lookUpFile (.ofText file)
  | _ => return .missing

-- Answers with as large a budget as it takes. A larger budget adds to what is
-- shown, so that only the rest of it is new.
partial def answer (respond : Nat → Response) (budget shownOut shownErr : Nat) : IO UInt32 := do
  let response := respond budget
  IO.print (String.ofList (response.out.toList.drop shownOut))
  IO.eprint (String.ofList (response.err.toList.drop shownErr))
  match response.status with
  | .exit code => return code.toUInt32
  | .usage =>
      IO.eprintln "usage: porthsim [--version] [--log-level LEVEL] (sim | dump) SOURCE_FILE"
      return 2
  | .escaped failure => throw (IO.userError failure.message)
  | .capped => answer respond (2 * budget) response.out.length response.err.length

end StackLang.Command

open StackLang.Command in
def main (args : List String) : IO UInt32 := do
  let environment ← IO.getEnv "PORTHSIM_LOG"
  let state ← stateAsked args
  answer (respond args environment fun _ => state) 1024 0 0
