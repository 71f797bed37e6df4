import StackLang.Text.Numeral

-- UTF-8, decoded a byte at a time. A byte that cannot continue the sequence
-- before it is refused when it arrives; a sequence cut short is only a fault
-- at the end of the input. The two bytes that start a surrogate are kept like
-- the start of a character, and refused with whatever comes after them.

namespace StackLang.Utf8

-- A sequence whose last byte has not come yet.
structure Opening where
  -- The bytes so far, latest first.
  bytes : List UInt8
  -- The bits of the code point so far.
  bits : Nat
  -- How many more bytes are wanted.
  wanted : Nat
  -- The range of the next byte.
  low : UInt8
  high : UInt8
  -- The bytes can only lead to a surrogate, so that no next byte will do.
  surrogate : Bool
deriving DecidableEq, Repr

-- The bytes that a fault counts as bad: those that could have led to a character.
def Opening.bad (o : Opening) : Nat :=
  if o.surrogate then 1 else o.bytes.length

inductive Problem where
  | invalidStart
  | invalidContinuation
  | unexpectedEnd
deriving DecidableEq, Repr

def Problem.text : Problem → String
  | .invalidStart => "invalid start byte"
  | .invalidContinuation => "invalid continuation byte"
  | .unexpectedEnd => "unexpected end of data"

-- What a byte does to the decoder.
inductive Taken where
  | char (c : Char)
  | more (o : Opening)
  | refused (problem : Problem)

-- The first continuation byte has a narrower range after some lead bytes, so
-- that no overlong form or code point above U+10FFFF gets through.
def start (b : UInt8) : Taken :=
  if b < 0x80 then .char (Char.ofNat b.toNat)
  else if b < 0xc2 then .refused .invalidStart
  else if b < 0xe0 then .more ⟨[b], b.toNat - 0xc0, 1, 0x80, 0xbf, false⟩
  else if b = 0xe0 then .more ⟨[b], 0, 2, 0xa0, 0xbf, false⟩
  else if b < 0xf0 then .more ⟨[b], b.toNat - 0xe0, 2, 0x80, 0xbf, false⟩
  else if b = 0xf0 then .more ⟨[b], 0, 3, 0x90, 0xbf, false⟩
  else if b < 0xf4 then .more ⟨[b], b.toNat - 0xf0, 3, 0x80, 0xbf, false⟩
  else if b = 0xf4 then .more ⟨[b], 4, 3, 0x80, 0x8f, false⟩
  else .refused .invalidStart

-- The surrogates are the code points from 0x360 * 64 to 0x380 * 64.
def extend (o : Opening) (b : UInt8) : Taken :=
  if o.surrogate || b < o.low || o.high < b then .refused .invalidContinuation
  else
    let bits := o.bits * 64 + (b.toNat - 0x80)
    if o.wanted ≤ 1 then .char (Char.ofNat bits)
    else
      let surrogate := o.wanted = 2 && 0x360 ≤ bits && bits < 0x380
      .more ⟨b :: o.bytes, bits, o.wanted - 1, 0x80, 0xbf, surrogate⟩

def take (pending : Option Opening) (b : UInt8) : Taken :=
  match pending with
  | none => start b
  | some o => extend o b

-- How many bytes of an unfinished sequence have been taken.
def held (pending : Option Opening) : Nat :=
  match pending with
  | none => 0
  | some o => o.bytes.length

-- Where decoding failed: the bad bytes are counted from the first byte that
-- was decoded together with them.
structure Fault where
  problem : Problem
  first : UInt8
  position : Nat
  length : Nat
deriving DecidableEq, Repr

-- The bad range of a refused byte at `position`: the sequence that it breaks
-- off, or the byte itself where no sequence has begun.
def Fault.ofRefused (problem : Problem) (pending : Option Opening) (b : UInt8)
    (position : Nat) : Fault :=
  match pending with
  | none => ⟨problem, b, position, 1⟩
  | some o => ⟨problem, o.bytes.getLast?.getD b, position - o.bytes.length, o.bad⟩

-- An unfinished sequence at the end of the input.
def Fault.ofUnfinished (o : Opening) : Fault :=
  let problem := if o.surrogate then .invalidContinuation else .unexpectedEnd
  ⟨problem, o.bytes.getLast?.getD 0, 0, o.bad⟩

def Fault.text (fault : Fault) : String :=
  let what :=
    if fault.length = 1 then
      "byte 0x" ++ Text.hexadecimal 2 fault.first.toNat ++ " in position "
        ++ Text.decimal fault.position
    else
      "bytes in position " ++ Text.decimal fault.position ++ "-"
        ++ Text.decimal (fault.position + fault.length - 1)
  "'utf-8' codec can't decode " ++ what ++ ": " ++ fault.problem.text

end StackLang.Utf8
