import StackLang.Proofs.Op.Layout
import StackLang.Proofs.Parse.Acceptance

-- Trees without their locations. What is left is told by the lexemes alone.

namespace StackLang

variable {α β : Type}

-- Whether the location of a `do` was known is forgotten with the location.

mutual

def Op.erased : Op α → Op Unit
  | .push _ value => .push () value
  | .intrinsic _ i => .intrinsic () i
  | .branch _ body chain => .branch () (Block.erased body) (Chain.erased chain)
  | .loop _ cond _ body => .loop () (Block.erased cond) (some ()) (Block.erased body)

def Block.erased : List (Op α) → List (Op Unit)
  | [] => []
  | op :: ops => Op.erased op :: Block.erased ops

def Chain.erased : Chain α → Chain Unit
  | .none => .none
  | .otherwise block => .otherwise (Block.erased block)
  | .link cond _ inner rest =>
      .link (Block.erased cond) () (Block.erased inner) (Chain.erased rest)

end

-- Erasing forgets all that a change of locations does.

mutual

theorem Op.erased_mapLoc (f : α → β) : (op : Op α) → (op.mapLoc f).erased = op.erased
  | .push _ _ => rfl
  | .intrinsic _ _ => rfl
  | .branch _ body chain => by
      have hbody := Block.erased_mapLoc f body
      have hchain := Chain.erased_mapLoc f chain
      rw [Op.mapLoc, Op.erased, Op.erased, hbody, hchain]
  | .loop _ cond _ body => by
      have hcond := Block.erased_mapLoc f cond
      have hbody := Block.erased_mapLoc f body
      rw [Op.mapLoc, Op.erased, Op.erased, hcond, hbody]

theorem Block.erased_mapLoc (f : α → β) : (block : List (Op α)) →
    Block.erased (Block.mapLoc f block) = Block.erased block
  | [] => rfl
  | op :: ops => by
      have hop := Op.erased_mapLoc f op
      have hops := Block.erased_mapLoc f ops
      rw [Block.mapLoc, Block.erased, Block.erased, hop, hops]

theorem Chain.erased_mapLoc (f : α → β) : (chain : Chain α) →
    (chain.mapLoc f).erased = chain.erased
  | .none => rfl
  | .otherwise block => by
      have hblock := Block.erased_mapLoc f block
      rw [Chain.mapLoc, Chain.erased, Chain.erased, hblock]
  | .link cond _ inner rest => by
      have hcond := Block.erased_mapLoc f cond
      have hinner := Block.erased_mapLoc f inner
      have hrest := Chain.erased_mapLoc f rest
      rw [Chain.mapLoc, Chain.erased, Chain.erased, hcond, hinner, hrest]

end

def Lexeme.unlocated (l : Lexeme) : Token Unit :=
  ⟨l, ()⟩

mutual

theorem Op.spelling_erased : (op : Op α) →
    op.erased.spelling = (op.spelling.map Token.lexeme).map fun l => l.unlocated.kept
  | .push _ _ => rfl
  | .intrinsic _ _ => rfl
  | .branch _ body chain => by
      have hbody := Block.spelling_erased body
      have hchain := Chain.spelling_erased chain
      simp [Op.erased, hbody, hchain, Lexeme.unlocated, Token.kept]
  | .loop _ cond _ body => by
      have hcond := Block.spelling_erased cond
      have hbody := Block.spelling_erased body
      simp [Op.erased, hcond, hbody, Lexeme.unlocated, Token.kept]

theorem Block.spelling_erased : (block : List (Op α)) →
    Block.spelling (Block.erased block) =
      ((Block.spelling block).map Token.lexeme).map fun l => l.unlocated.kept
  | [] => rfl
  | op :: ops => by
      have hop := Op.spelling_erased op
      have hops := Block.spelling_erased ops
      simp [Block.erased, hop, hops]

theorem Chain.spelling_erased : (chain : Chain α) →
    chain.erased.spelling = (chain.spelling.map Token.lexeme).map fun l => l.unlocated.kept
  | .none => rfl
  | .otherwise block => by
      have hblock := Block.spelling_erased block
      simp [Chain.erased, hblock, Lexeme.unlocated, Token.kept]
  | .link cond _ inner rest => by
      have hcond := Block.spelling_erased cond
      have hinner := Block.spelling_erased inner
      have hrest := Chain.spelling_erased rest
      simp [Chain.erased, hcond, hinner, hrest, Lexeme.unlocated, Token.kept]

end

-- The lexemes of a tree can be parsed, and give it back.
theorem parse_erased (block : Block α) :
    parse (((Block.spelling block).map Token.lexeme).map Lexeme.unlocated) () =
      .ok (Block.erased block) := by
  have hspelling := Block.spelling_erased block
  have hkept : (fun l : Lexeme => l.unlocated.kept) = Token.kept ∘ Lexeme.unlocated := rfl
  rw [hkept, ← List.map_map] at hspelling
  exact parse_of_units (Grammar.units_of_spelling_eq _ hspelling) ()

mutual

theorem Op.rows_erased (depth : Int) : (op : Op α) → op.erased.rows depth = op.rows depth
  | .push _ _ => rfl
  | .intrinsic _ _ => rfl
  | .branch _ body chain => by
      have hbody := Block.rows_erased (depth + 1) body
      have hchain := Chain.rows_erased depth chain
      rw [Op.erased, Op.rows, Op.rows, hbody, hchain]
  | .loop _ cond _ body => by
      have hcond := Block.rows_erased (depth + 1) cond
      have hbody := Block.rows_erased (depth + 1) body
      rw [Op.erased, Op.rows, Op.rows, hcond, hbody]

theorem Block.rows_erased (depth : Int) : (block : List (Op α)) →
    Block.rows depth (Block.erased block) = Block.rows depth block
  | [] => rfl
  | op :: ops => by
      have hop := Op.rows_erased depth op
      have hops := Block.rows_erased depth ops
      rw [Block.erased, Block.rows, Block.rows, hop, hops]

theorem Chain.rows_erased (depth : Int) : (chain : Chain α) →
    chain.erased.rows depth = chain.rows depth
  | .none => rfl
  | .otherwise block => by
      have hblock := Block.rows_erased (depth + 1) block
      rw [Chain.erased, Chain.rows, Chain.rows, hblock]
  | .link cond _ inner rest => by
      have hcond := Block.rows_erased (depth + 1) cond
      have hinner := Block.rows_erased (depth + 1) inner
      have hrest := Chain.rows_erased depth rest
      rw [Chain.erased, Chain.rows, Chain.rows, hcond, hinner, hrest]

end

-- Two trees are the same but for locations if their lexemes are, and then they
-- are laid out alike.

theorem Block.rows_of_erased_eq {a : Block α} {b : Block β}
    (h : Block.erased a = Block.erased b) (depth : Int) :
    Block.rows depth a = Block.rows depth b := by
  rw [← Block.rows_erased depth a, h, Block.rows_erased]

theorem Block.erased_eq_iff (a : Block α) (b : Block β) :
    Block.erased a = Block.erased b ↔
      (Block.spelling a).map Token.lexeme = (Block.spelling b).map Token.lexeme := by
  constructor
  · intro h
    rw [← Block.lexeme_rows 0 a, ← Block.lexeme_rows 0 b, Block.rows_of_erased_eq h]
  · intro h
    have ha := parse_erased a
    rw [h, parse_erased b] at ha
    exact (Except.ok.inj ha).symm

theorem Block.sourceText_of_erased_eq {a : Block α} {b : Block β}
    (h : Block.erased a = Block.erased b) : Block.sourceText a = Block.sourceText b := by
  rw [Block.sourceText, Block.sourceText, Block.layout_eq, Block.layout_eq,
    Block.rows_of_erased_eq h]

end StackLang
