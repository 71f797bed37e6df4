import StackLang.Text.Numeral

-- Text without terminal control sequences, for output that no terminal reads.
-- A sequence is an escape, a bracket, any digits, semicolons and question
-- marks, and one letter.

namespace StackLang.Text

def escapeChar : Char := Char.ofNat 0x1b

def isParameter (c : Char) : Bool :=
  isDigit c || c == ';' || c == '?'

-- What follows a sequence, given what follows its escape.
def afterSequence? : List Char → Option (List Char)
  | '[' :: rest =>
      match rest.dropWhile isParameter with
      | c :: after => if c.isAlpha then some after else none
      | [] => none
  | _ => none

theorem afterSequence?_length {cs after : List Char} (h : afterSequence? cs = some after) :
    after.length < cs.length := by
  unfold afterSequence? at h
  split at h
  · next rest =>
      have hd : (rest.dropWhile isParameter).length ≤ rest.length :=
        (List.dropWhile_sublist isParameter).length_le
      split at h
      · next heq =>
          simp only [heq, List.length_cons] at hd
          split at h
          · cases h
            simp only [List.length_cons]
            omega
          · cases h
      · cases h
  · cases h

-- `done` holds what has been kept, latest first. What comes to stand together
-- when a sequence is dropped is not looked at again.
def plainFrom (done : List Char) : List Char → List Char
  | [] => done.reverse
  | c :: rest =>
      if c = escapeChar then
        match _h : afterSequence? rest with
        | some after => plainFrom done after
        | none => plainFrom (c :: done) rest
      else plainFrom (c :: done) rest
termination_by cs => cs.length
decreasing_by
  · have := afterSequence?_length _h
    simp only [List.length_cons]
    omega
  · simp
  · simp

def plain (s : String) : String :=
  String.ofList (plainFrom [] s.toList)

end StackLang.Text
