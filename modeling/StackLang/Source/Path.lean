-- File paths. A path is shown without its empty and `.` components.

namespace StackLang

structure Path where
  -- Leading slashes that are kept: none, one or two.
  slashes : Nat
  names : List String
deriving DecidableEq, Repr, Inhabited

namespace Path

def splitAtSlashes : List Char → List (List Char)
  | [] => [[]]
  | c :: rest =>
      if c = '/' then [] :: splitAtSlashes rest
      else match splitAtSlashes rest with
        | [] => [[c]]
        | name :: names => (c :: name) :: names

-- Exactly two leading slashes are kept; any other number of them counts as one.
def leadingSlashes (cs : List Char) : Nat :=
  let n := (cs.takeWhile (· == '/')).length
  if n = 2 then 2 else min n 1

def ofText (text : String) : Path where
  slashes := leadingSlashes text.toList
  names := ((splitAtSlashes text.toList).map String.ofList).filter fun name =>
    name ≠ "" && name ≠ "."

def text (path : Path) : String :=
  if path.slashes = 0 && path.names.isEmpty then "."
  else String.ofList (List.replicate path.slashes '/') ++ "/".intercalate path.names

-- Without a name there is nothing but directories to walk through.
def namesDirectory (path : Path) : Bool :=
  path.names.all (· == "..")

-- The longest name that a directory can hold, and the longest path, in bytes.
def tooLong (path : Path) : Bool :=
  path.names.any (255 < ·.utf8ByteSize) || 4095 < path.text.utf8ByteSize

-- A proper ancestor of `inner`.
def above (outer inner : Path) : Bool :=
  outer.slashes == inner.slashes && outer.names.isPrefixOf inner.names
    && outer.names.length < inner.names.length

end Path

end StackLang
