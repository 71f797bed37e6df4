import StackLang.Op.Intrinsic
import StackLang.Text.Numeral

-- The operation tree. Markers do not survive into it: a construct owns its
-- blocks. Nodes carry a location of any type, and what a tree does cannot
-- depend on that type.

namespace StackLang

mutual

inductive Op (α : Type) where
  | push (loc : α) (value : UInt64)
  | intrinsic (loc : α) (name : Intrinsic)
  -- `if` body chain `end`
  | branch (loc : α) (body : List (Op α)) (chain : Chain α)
  -- `while` cond `do` body `end`; the location of `do` may be unknown
  | loop (loc : α) (cond : List (Op α)) (doLoc : Option α) (body : List (Op α))

-- What follows the body of an `if`. An empty `else` block is not the same as none.
inductive Chain (α : Type) where
  | none
  -- `else` block
  | otherwise (block : List (Op α))
  -- `else` cond `if*` inner rest, located at the `if*`
  | link (cond : List (Op α)) (loc : α) (inner : List (Op α)) (rest : Chain α)

end

abbrev Block (α : Type) := List (Op α)

namespace Op

variable {α : Type}

def loc : Op α → α
  | .push loc _ => loc
  | .intrinsic loc _ => loc
  | .branch loc _ _ => loc
  | .loop loc _ _ _ => loc

-- The word that an operation starts with.
def head : Op α → String
  | .push _ value => Text.decimal value.toNat
  | .intrinsic _ i => i.text
  | .branch _ _ _ => "if"
  | .loop _ _ _ _ => "while"

end Op

mutual

def Op.mapLoc {α β : Type} (f : α → β) : Op α → Op β
  | .push loc value => .push (f loc) value
  | .intrinsic loc i => .intrinsic (f loc) i
  | .branch loc body chain => .branch (f loc) (Block.mapLoc f body) (Chain.mapLoc f chain)
  | .loop loc cond doLoc body =>
      .loop (f loc) (Block.mapLoc f cond) (doLoc.map f) (Block.mapLoc f body)

def Block.mapLoc {α β : Type} (f : α → β) : List (Op α) → List (Op β)
  | [] => []
  | op :: rest => Op.mapLoc f op :: Block.mapLoc f rest

def Chain.mapLoc {α β : Type} (f : α → β) : Chain α → Chain β
  | .none => .none
  | .otherwise block => .otherwise (Block.mapLoc f block)
  | .link cond loc inner rest =>
      .link (Block.mapLoc f cond) (f loc) (Block.mapLoc f inner) (Chain.mapLoc f rest)

end

end StackLang
