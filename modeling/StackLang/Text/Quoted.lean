import StackLang.Text.Numeral
import StackLang.Text.Printable

-- Text between quotes, for messages: what cannot be shown is escaped.

namespace StackLang.Text

def singleQuote : Char := Char.ofNat 0x27

def doubleQuote : Char := Char.ofNat 0x22

def backslash : Char := Char.ofNat 0x5c

-- Single quotes, unless they occur in the text and double quotes do not.
def quoteFor (cs : List Char) : Char :=
  if cs.contains singleQuote && !cs.contains doubleQuote then doubleQuote else singleQuote

-- Two, four or eight digits, as many as the code point needs.
def escapeCode (n : Nat) : String :=
  if n < 0x100 then "\\x" ++ hexadecimal 2 n
  else if n < 0x10000 then "\\u" ++ hexadecimal 4 n
  else "\\U" ++ hexadecimal 8 n

def escape (quote c : Char) : String :=
  if c = quote || c = backslash then String.ofList [backslash, c]
  else if c = '\n' then "\\n"
  else if c = '\r' then "\\r"
  else if c = '\t' then "\\t"
  else if isPrintable c then c.toString
  else escapeCode c.toNat

def quoted (cs : List Char) : String :=
  let quote := quoteFor cs
  cs.foldl (fun text c => text ++ escape quote c) quote.toString ++ quote.toString

end StackLang.Text
