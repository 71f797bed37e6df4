-- The built-in operations on the value stack.

namespace StackLang

inductive Intrinsic where
  | dup
  | swap
  | drop
  | print
  | over
  | rot
  | plus
  | subtract
  | multiply
  | divmod
deriving DecidableEq, Repr

namespace Intrinsic

def all : List Intrinsic :=
  [.dup, .swap, .drop, .print, .over, .rot, .plus, .subtract, .multiply, .divmod]

def text : Intrinsic → String
  | .dup => "dup"
  | .swap => "swap"
  | .drop => "drop"
  | .print => "print"
  | .over => "over"
  | .rot => "rot"
  | .plus => "+"
  | .subtract => "-"
  | .multiply => "*"
  | .divmod => "divmod"

def name : Intrinsic → String
  | .dup => "DUP"
  | .swap => "SWAP"
  | .drop => "DROP"
  | .print => "PRINT"
  | .over => "OVER"
  | .rot => "ROT"
  | .plus => "PLUS"
  | .subtract => "SUBTRACT"
  | .multiply => "MULTIPLY"
  | .divmod => "DIVMOD"

def ofText? (s : String) : Option Intrinsic :=
  all.find? (·.text == s)

theorem ofText?_text (i : Intrinsic) : ofText? i.text = some i := by
  cases i <;> rfl

end Intrinsic

end StackLang
