import StackLang.Op.Layout
import StackLang.Proofs.Parse.Grammar

-- The lines of a tree by recursion on the tree: one row for each token that it
-- is spelled with, a construct's own tokens one step further out than its blocks.

namespace StackLang

variable {α : Type}

structure Row where
  depth : Int
  lexeme : Lexeme

def Row.text (row : Row) : String :=
  indent row.depth ++ row.lexeme.text

mutual

def Op.rows (depth : Int) : Op α → List Row
  | .push _ value => [⟨depth, .int value⟩]
  | .intrinsic _ i => [⟨depth, .word i.text⟩]
  | .branch _ body chain =>
      ⟨depth, .marker .branch⟩ :: (Block.rows (depth + 1) body ++
        (Chain.rows depth chain ++ [⟨depth, .marker .close⟩]))
  | .loop _ cond _ body =>
      ⟨depth, .marker .loop⟩ :: (Block.rows (depth + 1) cond ++ ⟨depth, .marker .body⟩ ::
        (Block.rows (depth + 1) body ++ [⟨depth, .marker .close⟩]))

def Block.rows (depth : Int) : List (Op α) → List Row
  | [] => []
  | op :: ops => Op.rows depth op ++ Block.rows depth ops

def Chain.rows (depth : Int) : Chain α → List Row
  | .none => []
  | .otherwise block => ⟨depth, .marker .otherwise⟩ :: Block.rows (depth + 1) block
  | .link cond _ inner rest =>
      ⟨depth, .marker .otherwise⟩ :: (Block.rows (depth + 1) cond ++ ⟨depth, .marker .link⟩ ::
        (Block.rows (depth + 1) inner ++ Chain.rows depth rest))

end

-- What a piece of work comes to.
def Piece.lines : Piece α → List String
  | .line text => [text]
  | .block ops depth => (Block.rows depth ops).map Row.text

@[simp] theorem Piece.lines_block (ops : Block α) (depth : Int) :
    (Piece.block ops depth).lines = (Block.rows depth ops).map Row.text := rfl

@[simp] theorem Marker.lines_piece (m : Marker) (depth : Int) :
    (m.piece depth : Piece α).lines = [Row.text ⟨depth, .marker m⟩] := rfl

theorem Chain.lines_pieces (depth : Int) : (chain : Chain α) →
    (chain.pieces depth).flatMap Piece.lines = (chain.rows depth).map Row.text
  | .none => rfl
  | .otherwise block => by simp [Chain.pieces, Chain.rows]
  | .link cond loc inner rest => by
      have hrest := Chain.lines_pieces depth rest
      simp [Chain.pieces, Chain.rows, hrest]

theorem Op.lines_pieces (depth : Int) (op : Op α) :
    (op.pieces depth).flatMap Piece.lines = (op.rows depth).map Row.text := by
  cases op with
  | push loc value => rfl
  | intrinsic loc i => rfl
  | branch loc body chain => simp [Op.pieces, Op.rows, Chain.lines_pieces]
  | loop loc cond doLoc body => simp [Op.pieces, Op.rows]

theorem Block.lines_pieces (depth : Int) (ops : Block α) :
    (Block.pieces depth ops).flatMap Piece.lines = (Block.rows depth ops).map Row.text := by
  induction ops with
  | nil => rfl
  | cons op ops ih =>
      have hcons : Block.pieces depth (op :: ops) = op.pieces depth ++ Block.pieces depth ops := rfl
      rw [hcons, List.flatMap_append, Op.lines_pieces, ih, Block.rows, List.map_append]

-- Opening a block early or late makes no difference to the lines.
theorem layOut_eq (done : List String) (pieces : List (Piece α)) :
    layOut done pieces = done.reverse ++ pieces.flatMap Piece.lines := by
  induction done, pieces using layOut.induct with
  | case1 done => simp [layOut]
  | case2 done text rest ih =>
      rw [layOut, ih]
      simp [Piece.lines]
  | case3 done ops depth rest ih =>
      rw [layOut, ih, List.flatMap_append, Block.lines_pieces, List.flatMap_cons, Piece.lines_block]

theorem Block.layout_eq (block : Block α) (depth : Int) :
    Block.layout block depth = (Block.rows depth block).map Row.text := by
  rw [Block.layout, layOut_eq]
  simp

mutual

theorem Op.lexeme_rows (depth : Int) : (op : Op α) →
    (op.rows depth).map Row.lexeme = op.spelling.map Token.lexeme
  | .push _ _ => rfl
  | .intrinsic _ _ => rfl
  | .branch _ body chain => by
      simp [Op.rows, Block.lexeme_rows (depth + 1) body, Chain.lexeme_rows depth chain]
  | .loop _ cond _ body => by
      simp [Op.rows, Block.lexeme_rows (depth + 1) cond, Block.lexeme_rows (depth + 1) body]

theorem Block.lexeme_rows (depth : Int) : (block : List (Op α)) →
    (Block.rows depth block).map Row.lexeme = (Block.spelling block).map Token.lexeme
  | [] => rfl
  | op :: ops => by
      simp [Block.rows, Op.lexeme_rows depth op, Block.lexeme_rows depth ops]

theorem Chain.lexeme_rows (depth : Int) : (chain : Chain α) →
    (chain.rows depth).map Row.lexeme = chain.spelling.map Token.lexeme
  | .none => rfl
  | .otherwise block => by
      simp [Chain.rows, Block.lexeme_rows (depth + 1) block]
  | .link cond _ inner rest => by
      simp [Chain.rows, Block.lexeme_rows (depth + 1) cond, Block.lexeme_rows (depth + 1) inner,
        Chain.lexeme_rows depth rest]

end

end StackLang
