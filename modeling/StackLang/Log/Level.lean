import StackLang.Log.Notice
import StackLang.Text.Blank
import StackLang.Text.Lowercase

-- How much is logged.

namespace StackLang

inductive LogLevel where
  | trace
  | debug
  | info
  | warning
  | error
  | off
deriving DecidableEq, Repr

namespace LogLevel

def all : List LogLevel := [.trace, .debug, .info, .warning, .error, .off]

def text : LogLevel → String
  | .trace => "trace"
  | .debug => "debug"
  | .info => "info"
  | .warning => "warning"
  | .error => "error"
  | .off => "off"

-- The lowest rank that is logged. Nothing reaches the rank of `off`.
def threshold : LogLevel → Nat
  | .trace | .debug => 10
  | .info => 20
  | .warning => 30
  | .error => 40
  | .off => 51

def fallback : LogLevel := .info

-- Case and outer blanks do not matter. No text at all asks for the default;
-- an unknown text gets it too, and a warning.
def ofText (given : Option String) : Logged LogLevel :=
  let text := String.ofList (Text.strip (Text.lowercase (given.getD "")).toList)
  if text = "" then ⟨[], fallback⟩
  else if text = "warn" then ⟨[], .warning⟩
  else match all.find? (·.text == text) with
    | some level => ⟨[], level⟩
    | none => ⟨[.unknownLevel text (all.map LogLevel.text) fallback.text], fallback⟩

-- A level that is asked for comes before the one in the environment.
def choose (asked environment : Option String) : Logged LogLevel :=
  match asked with
  | some text => ofText (some text)
  | none => ofText environment

-- The shape of a log line.
def lineFormat : String := "%(levelname)s [%(name)s] %(message)s"

end LogLevel

end StackLang
