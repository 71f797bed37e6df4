import StackLang.Measure
import StackLang.Op.Basic
import StackLang.Token.Basic

-- A tree as source text: one operation or marker on a line, and the blocks of
-- a construct one step further in.

namespace StackLang

variable {α : Type}

-- Two spaces for each level; there is no level below zero.
def indent (depth : Int) : String :=
  String.ofList (List.replicate (2 * depth.toNat) ' ')

-- A finished line, or a block that is still to be laid out.
inductive Piece (α : Type) where
  | line (text : String)
  | block (ops : Block α) (depth : Int)

def Marker.piece (m : Marker) (depth : Int) : Piece α :=
  .line (indent depth ++ m.text)

def Chain.pieces (depth : Int) : Chain α → List (Piece α)
  | .none => []
  | .otherwise block => [Marker.otherwise.piece depth, .block block (depth + 1)]
  | .link cond _ inner rest =>
      Marker.otherwise.piece depth :: .block cond (depth + 1) :: Marker.link.piece depth ::
        .block inner (depth + 1) :: rest.pieces depth

def Op.pieces (depth : Int) : Op α → List (Piece α)
  | .push _ value => [.line (indent depth ++ Text.decimal value.toNat)]
  | .intrinsic _ i => [.line (indent depth ++ i.text)]
  | .branch _ body chain =>
      Marker.branch.piece depth :: .block body (depth + 1) ::
        (chain.pieces depth ++ [Marker.close.piece depth])
  | .loop _ cond _ body =>
      [Marker.loop.piece depth, .block cond (depth + 1), Marker.body.piece depth,
        .block body (depth + 1), Marker.close.piece depth]

def Block.pieces (depth : Int) (ops : Block α) : List (Piece α) :=
  ops.flatMap (Op.pieces depth)

-- How many pieces are opened before a tree is laid out.

mutual

def Op.bulk : Op α → Nat
  | .push _ _ | .intrinsic _ _ => 1
  | .branch _ body chain => Block.bulk body + Chain.bulk chain + 2
  | .loop _ cond _ body => Block.bulk cond + Block.bulk body + 3

def Block.bulk : List (Op α) → Nat
  | [] => 1
  | op :: rest => Op.bulk op + Block.bulk rest

def Chain.bulk : Chain α → Nat
  | .none => 0
  | .otherwise block => Block.bulk block + 1
  | .link cond _ inner rest => Block.bulk cond + Block.bulk inner + Chain.bulk rest + 2

end

def Piece.bulk : Piece α → Nat
  | .line _ => 1
  | .block ops _ => Block.bulk ops

def piecesBulk (pieces : List (Piece α)) : Nat :=
  total Piece.bulk pieces

@[simp] theorem piecesBulk_nil : piecesBulk ([] : List (Piece α)) = 0 := rfl

@[simp] theorem piecesBulk_cons (p : Piece α) (rest : List (Piece α)) :
    piecesBulk (p :: rest) = p.bulk + piecesBulk rest := by
  simp [piecesBulk]

@[simp] theorem piecesBulk_append (a b : List (Piece α)) :
    piecesBulk (a ++ b) = piecesBulk a + piecesBulk b := by
  simp [piecesBulk]

theorem Chain.piecesBulk_pieces (depth : Int) : (chain : Chain α) →
    piecesBulk (chain.pieces depth) = chain.bulk
  | .none => rfl
  | .otherwise block => by
      simp only [Chain.pieces, Marker.piece, piecesBulk_cons, piecesBulk_nil, Piece.bulk, Chain.bulk]
      omega
  | .link cond loc inner rest => by
      simp only [Chain.pieces, Marker.piece, piecesBulk_cons, Piece.bulk, Chain.bulk,
        Chain.piecesBulk_pieces depth rest]
      omega

theorem Op.piecesBulk_pieces (depth : Int) (op : Op α) : piecesBulk (op.pieces depth) = op.bulk := by
  cases op <;>
    simp only [Op.pieces, Marker.piece, piecesBulk_cons, piecesBulk_append, piecesBulk_nil,
      Piece.bulk, Op.bulk, Chain.piecesBulk_pieces] <;>
    omega

theorem Block.piecesBulk_pieces (depth : Int) (ops : Block α) :
    piecesBulk (Block.pieces depth ops) + 1 = Block.bulk ops := by
  induction ops with
  | nil => rfl
  | cons op rest ih =>
      simp only [Block.pieces, List.flatMap_cons, piecesBulk_append, Op.piecesBulk_pieces,
        Block.bulk, ← ih]
      omega

-- Works through a list of pieces; `done` holds the finished lines, latest first.
def layOut (done : List String) : List (Piece α) → List String
  | [] => done.reverse
  | .line text :: rest => layOut (text :: done) rest
  | .block ops depth :: rest => layOut done (Block.pieces depth ops ++ rest)
termination_by pieces => piecesBulk pieces
decreasing_by
  · simp [Piece.bulk]
  · have := Block.piecesBulk_pieces depth ops
    simp only [piecesBulk_append, piecesBulk_cons, Piece.bulk]
    omega

-- The lines of a block at a level, which may be negative.
def Block.layout (block : Block α) (depth : Int) : List String :=
  layOut [] [.block block depth]

-- The source text of a program; every line is ended.
def Block.sourceText (root : Block α) : String :=
  String.join ((Block.layout root 0).map (· ++ "\n"))

end StackLang
