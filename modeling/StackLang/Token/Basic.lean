import StackLang.Text.Numeral

-- Tokens: control markers, unsigned 64-bit integers and words.

namespace StackLang

-- Reserved words that structure control flow.
inductive Marker where
  | branch
  | link
  | otherwise
  | loop
  | body
  | close
deriving DecidableEq, Repr

namespace Marker

def all : List Marker := [.branch, .link, .otherwise, .loop, .body, .close]

def text : Marker → String
  | .branch => "if"
  | .link => "if*"
  | .otherwise => "else"
  | .loop => "while"
  | .body => "do"
  | .close => "end"

-- The name that a marker has in listings of tokens.
def name : Marker → String
  | .branch => "IF"
  | .link => "IF_STAR"
  | .otherwise => "ELSE"
  | .loop => "WHILE"
  | .body => "DO"
  | .close => "END"

def ofText? (s : String) : Option Marker :=
  all.find? (·.text == s)

theorem ofText?_text (m : Marker) : ofText? m.text = some m := by
  cases m <;> rfl

end Marker

-- What a token says, apart from where it stands.
inductive Lexeme where
  | word (text : String)
  | int (value : UInt64)
  | marker (marker : Marker)
deriving DecidableEq, Repr

structure Token (α : Type) where
  lexeme : Lexeme
  loc : α
deriving DecidableEq, Repr

def Token.map {α β : Type} (f : α → β) (t : Token α) : Token β :=
  ⟨t.lexeme, f t.loc⟩

-- The longest row of digits that is read as a number.
def maxDigits : Nat := 4300

-- A row of more digits than can be read.
structure TooManyDigits where
  count : Nat
deriving DecidableEq, Repr

namespace Lexeme

-- The digits of a numeral: an optional plus sign, then decimal digits only.
def digits? (cs : List Char) : Option (List Char) :=
  let digits := match cs with
    | '+' :: rest => rest
    | _ => cs
  if !digits.isEmpty && digits.all Text.isDigit then some digits else none

-- The number that a text denotes, where it denotes one below 2^64.
def numeral? (cs : List Char) : Except TooManyDigits (Option UInt64) :=
  match digits? cs with
  | none => .ok none
  | some digits =>
      if maxDigits < digits.length then .error ⟨digits.length⟩
      else
        let n := Text.numberOf digits
        .ok (if n < UInt64.size then some (UInt64.ofNat n) else none)

-- Markers come first, then numbers; all else is a word.
def classify (cs : List Char) : Except TooManyDigits Lexeme :=
  let text := String.ofList cs
  match Marker.ofText? text with
  | some m => .ok (.marker m)
  | none =>
      match numeral? cs with
      | .error e => .error e
      | .ok (some n) => .ok (.int n)
      | .ok none => .ok (.word text)

-- How a token of this kind is spelled, an integer without sign and zeros.
def text : Lexeme → String
  | .word s => s
  | .int n => Text.decimal n.toNat
  | .marker m => m.text

def kind : Lexeme → String
  | .word _ => "word"
  | .int _ => "int"
  | .marker _ => "marker"

end Lexeme

end StackLang
