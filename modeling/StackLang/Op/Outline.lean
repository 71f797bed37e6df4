import StackLang.Op.Basic

-- A tree written flat, in source order.

namespace StackLang

inductive Entry (α : Type) where
  | push (loc : α) (value : UInt64)
  | intrinsic (loc : α) (name : Intrinsic)
  | branch (loc : α)
  -- An `else` whose block is the condition of the `if*` that follows it.
  | cond
  | link (loc : α)
  | otherwise
  | loop (loc : α)
  | body (loc : Option α)
  | done
deriving DecidableEq, Repr

-- Each part is written in front of what follows it.

mutual

def Op.onto {α : Type} : Op α → List (Entry α) → List (Entry α)
  | .push loc value, rest => .push loc value :: rest
  | .intrinsic loc i, rest => .intrinsic loc i :: rest
  | .branch loc body chain, rest =>
      .branch loc :: Block.onto body (Chain.onto chain (.done :: rest))
  | .loop loc cond doLoc body, rest =>
      .loop loc :: Block.onto cond (.body doLoc :: Block.onto body (.done :: rest))

def Block.onto {α : Type} : List (Op α) → List (Entry α) → List (Entry α)
  | [], rest => rest
  | op :: ops, rest => Op.onto op (Block.onto ops rest)

def Chain.onto {α : Type} : Chain α → List (Entry α) → List (Entry α)
  | .none, rest => rest
  | .otherwise block, rest => .otherwise :: Block.onto block rest
  | .link cond loc inner chain, rest =>
      .cond :: Block.onto cond (.link loc :: Block.onto inner (Chain.onto chain rest))

end

def Block.outline {α : Type} (block : Block α) : List (Entry α) :=
  Block.onto block []

end StackLang
