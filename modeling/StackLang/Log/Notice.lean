import StackLang.Op.Basic
import StackLang.Source.Location
import StackLang.Source.Lines
import StackLang.Text.Quoted
import StackLang.Token.Basic

-- What is worth logging while a program is read and run.

namespace StackLang

inductive Severity where
  | debug
  | info
  | warning
deriving DecidableEq, Repr

namespace Severity

def text : Severity → String
  | .debug => "DEBUG"
  | .info => "INFO"
  | .warning => "WARNING"

-- Severities and thresholds are compared by rank.
def rank : Severity → Nat
  | .debug => 10
  | .info => 20
  | .warning => 30

def ofText? : String → Option Severity
  | "DEBUG" => some .debug
  | "INFO" => some .info
  | "WARNING" => some .warning
  | _ => none

end Severity

def Lexeme.shown : Lexeme → String
  | .word s => Text.quoted s.toList
  | .int n => Text.decimal n.toNat
  | .marker m => "<Marker." ++ m.name ++ ": " ++ Text.quoted m.text.toList ++ ">"

def Token.shown (t : Token Location) : String :=
  "Token(" ++ t.lexeme.kind ++ ", " ++ t.lexeme.shown ++ ", " ++ t.loc.text ++ ")"

def Op.shown (op : Op Location) : String :=
  op.head ++ " @ " ++ op.loc.text

inductive Notice where
  | opened (file : Path)
  | lineRead (loc : Location) (line : Line)
  | lexed (token : Token Location)
  | parsed (op : Op Location)
  | loaded (given : String)
  | rootSize (count : Nat)
  | overflow (loc : Location) (op : Intrinsic)
  | nonBinary (loc : Location) (value : Int)
  | unknownLevel (text : String) (valid : List String) (fallback : String)

namespace Notice

def severity : Notice → Severity
  | .loaded _ => .info
  | .overflow _ _ | .nonBinary _ _ | .unknownLevel _ _ _ => .warning
  | _ => .debug

def logger : Notice → String
  | .opened _ | .lineRead _ _ | .lexed _ => "porthsim.core.lexer"
  | .parsed _ => "porthsim.core.parser"
  | .loaded _ | .rootSize _ => "porthsim.core.program"
  | .overflow _ _ | .nonBinary _ _ => "porthsim.core.evaluator"
  | .unknownLevel _ _ _ => "porthsim.core.config"

def message : Notice → String
  | .opened file => "Opened file: " ++ file.text
  | .lineRead loc line =>
      "Read " ++ Text.decimal line.length ++ " characters from " ++ loc.text ++ ": "
        ++ Text.quoted line
  | .lexed token => "Lexed token: " ++ token.shown
  | .parsed op => "Parsed operation: " ++ op.shown
  | .loaded given => "Parsed program at file: " ++ given
  | .rootSize count => "Root block has " ++ Text.decimal count ++ " operations"
  | .overflow loc op => loc.text ++ ": operation `" ++ op.text ++ "` overflowed"
  | .nonBinary loc value =>
      loc.text ++ ": non-binary value (" ++ Text.decimalInt value
        ++ ") used as a boolean condition"
  | .unknownLevel text valid fallback =>
      "Unknown log level '" ++ text ++ "'. Valid values: " ++ ", ".intercalate valid
        ++ ". Defaulting to " ++ fallback ++ "."

def line (n : Notice) : String :=
  n.severity.text ++ " [" ++ n.logger ++ "] " ++ n.message

end Notice

-- Something that was computed, with the notices on the way to it, in order.
structure Logged (β : Type) where
  log : List Notice
  value : β

-- The lines of the notices that reach a threshold.
def logLines (threshold : Nat) (notices : List Notice) : List String :=
  (notices.filter fun n => threshold ≤ n.severity.rank).map Notice.line

end StackLang
