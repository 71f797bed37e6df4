import StackLang.Source.Path
import StackLang.Text.Numeral

-- Where something stands in a source file. Lines and columns count from one,
-- and columns count code points. Locations are only ever shown.

namespace StackLang

structure Position where
  line : Nat
  column : Nat
deriving DecidableEq, Repr

def Position.text (p : Position) : String :=
  Text.decimal p.line ++ ":" ++ Text.decimal p.column

-- The position is absent until the first line has been read.
structure Location where
  file : Path
  position : Option Position
deriving DecidableEq, Repr

def Location.text (loc : Location) : String :=
  match loc.position with
  | none => loc.file.text
  | some p => loc.file.text ++ ":" ++ p.text

end StackLang
