import StackLang.Source.Utf8

-- The lines of a source file. The bytes are decoded chunk by chunk, and each
-- of CR, LF and CR LF ends a line and is read as a line feed. A line is
-- delivered once the chunk that completes it has been decoded as a whole.

namespace StackLang

-- Characters of one line; all lines but the last end in a line feed.
abbrev Line := List Char

-- The reader between two bytes.
structure LineReader where
  sequence : Option Utf8.Opening
  -- The last character was a CR, and what it ends is not known yet.
  afterReturn : Bool
  -- The unfinished line, latest character first.
  line : List Char
deriving Repr

namespace LineReader

def initial : LineReader := ⟨none, false, []⟩

-- A character completes at most one line.
def takeChar (r : LineReader) (c : Char) : LineReader × Option Line :=
  if r.afterReturn then
    let done := ('\n' :: r.line).reverse
    if c = '\n' then (⟨none, false, []⟩, some done)
    else if c = '\r' then (⟨none, true, []⟩, some done)
    else (⟨none, false, [c]⟩, some done)
  else if c = '\n' then (⟨none, false, []⟩, some ('\n' :: r.line).reverse)
  else if c = '\r' then (⟨none, true, r.line⟩, none)
  else (⟨none, false, c :: r.line⟩, none)

-- Decodes the rest of a chunk; `position` counts the bytes decoded with it and
-- `done` holds the lines it has completed, latest first.
def takeBytes (r : LineReader) (position : Nat) (done : List Line) :
    List UInt8 → Except Utf8.Fault (LineReader × List Line)
  | [] => .ok (r, done.reverse)
  | b :: rest =>
      match Utf8.take r.sequence b with
      | .refused problem => .error (.ofRefused problem r.sequence b position)
      | .more o => takeBytes { r with sequence := some o } (position + 1) done rest
      | .char c =>
          let (next, line?) := r.takeChar c
          takeBytes next (position + 1) (line?.toList ++ done) rest

-- A chunk is decoded together with the bytes held over from the one before.
def takeChunk (r : LineReader) (chunk : List UInt8) :
    Except Utf8.Fault (LineReader × List Line) :=
  r.takeBytes (Utf8.held r.sequence) [] chunk

-- What the end of the input leaves: a last line without a line feed, or with
-- one that a CR stands for.
def finish (r : LineReader) : Except Utf8.Fault (List Line) :=
  match r.sequence with
  | some o => .error (.ofUnfinished o)
  | none =>
      let line := if r.afterReturn then '\n' :: r.line else r.line
      .ok (if line.isEmpty then [] else [line.reverse])

end LineReader

-- The lines that a file delivers, and the fault that ends it, if any.
structure Lines where
  lines : List Line
  fault : Option Utf8.Fault
deriving Repr

namespace Lines

def chunkSize : Nat := 8192

-- Pieces of `size` bytes each, the last of them maybe shorter.
def chunks (size : Nat) : List UInt8 → List (List UInt8)
  | [] => []
  | b :: rest => (b :: rest.take (size - 1)) :: chunks size (rest.drop (size - 1))
termination_by bytes => bytes.length
decreasing_by simp only [List.length_drop, List.length_cons]; omega

-- `done` holds the lines delivered so far, latest first. A fault loses the
-- unfinished line and the lines that its chunk would have completed.
def ofChunks (r : LineReader) (done : List Line) : List (List UInt8) → Lines
  | [] =>
      match r.finish with
      | .ok last => ⟨done.reverse ++ last, none⟩
      | .error fault => ⟨done.reverse, some fault⟩
  | chunk :: rest =>
      match r.takeChunk chunk with
      | .ok (next, lines) => ofChunks next (lines.reverse ++ done) rest
      | .error fault => ⟨done.reverse, some fault⟩

def ofBytes (bytes : List UInt8) : Lines :=
  ofChunks .initial [] (chunks chunkSize bytes)

-- The lines of a text, split after each line feed; `line` is the part of the
-- first of them that has been passed, latest character first.
def split (line : List Char) : List Char → List Line
  | [] => if line.isEmpty then [] else [line.reverse]
  | c :: rest =>
      if c = '\n' then ('\n' :: line).reverse :: split [] rest
      else split (c :: line) rest

-- A text whose line ends are line feeds already.
def ofText (text : List Char) : Lines :=
  ⟨split [] text, none⟩

end Lines

end StackLang
