import StackLang.Proofs.Program.RoundTrip

-- The lines of a tree, one for each token that it is written with. How far a line is
-- indented is told by how many blocks are around it and by the level of the whole.

namespace StackLang

variable {α : Type}

-- The same row of a tree that stands `depth` levels further in.
def Row.inward (depth : Int) (row : Row) : Row :=
  { row with depth := depth + row.depth }

-- The recursion on a tree does not look at the level that it has come to.

mutual

theorem Op.rows_inward (depth level : Int) : (op : Op α) →
    op.rows (depth + level) = (op.rows level).map (Row.inward depth)
  | .push _ _ => rfl
  | .intrinsic _ _ => rfl
  | .branch _ body chain => by
      have hbody := Block.rows_inward depth (level + 1) body
      have hchain := Chain.rows_inward depth level chain
      rw [← Int.add_assoc] at hbody
      simp [Op.rows, hbody, hchain, Row.inward]
  | .loop _ cond _ body => by
      have hcond := Block.rows_inward depth (level + 1) cond
      have hbody := Block.rows_inward depth (level + 1) body
      rw [← Int.add_assoc] at hcond hbody
      simp [Op.rows, hcond, hbody, Row.inward]

theorem Block.rows_inward (depth level : Int) : (block : List (Op α)) →
    Block.rows (depth + level) block = (Block.rows level block).map (Row.inward depth)
  | [] => rfl
  | op :: ops => by
      have hop := Op.rows_inward depth level op
      have hops := Block.rows_inward depth level ops
      rw [Block.rows, Block.rows, hop, hops, List.map_append]

theorem Chain.rows_inward (depth level : Int) : (chain : Chain α) →
    chain.rows (depth + level) = (chain.rows level).map (Row.inward depth)
  | .none => rfl
  | .otherwise block => by
      have hblock := Block.rows_inward depth (level + 1) block
      rw [← Int.add_assoc] at hblock
      simp [Chain.rows, hblock, Row.inward]
  | .link cond _ inner rest => by
      have hcond := Block.rows_inward depth (level + 1) cond
      have hinner := Block.rows_inward depth (level + 1) inner
      have hrest := Chain.rows_inward depth level rest
      rw [← Int.add_assoc] at hcond hinner
      simp [Chain.rows, hcond, hinner, hrest, Row.inward]

end

-- What is inside a tree is never further out than the tree.

mutual

theorem Op.le_depth (level : Int) : (op : Op α) → ∀ row ∈ op.rows level, level ≤ row.depth
  | .push _ _ => by simp [Op.rows]
  | .intrinsic _ _ => by simp [Op.rows]
  | .branch _ body chain => by
      have hbody := Block.le_depth (level + 1) body
      have hchain := Chain.le_depth level chain
      intro row hrow
      grind [Op.rows]
  | .loop _ cond _ body => by
      have hcond := Block.le_depth (level + 1) cond
      have hbody := Block.le_depth (level + 1) body
      intro row hrow
      grind [Op.rows]

theorem Block.le_depth (level : Int) : (block : List (Op α)) →
    ∀ row ∈ Block.rows level block, level ≤ row.depth
  | [] => by simp [Block.rows]
  | op :: ops => List.forall_mem_append.mpr ⟨Op.le_depth level op, Block.le_depth level ops⟩

theorem Chain.le_depth (level : Int) : (chain : Chain α) →
    ∀ row ∈ chain.rows level, level ≤ row.depth
  | .none => by simp [Chain.rows]
  | .otherwise block => by
      have hblock := Block.le_depth (level + 1) block
      intro row hrow
      grind [Chain.rows]
  | .link cond _ inner rest => by
      have hcond := Block.le_depth (level + 1) cond
      have hinner := Block.le_depth (level + 1) inner
      have hrest := Chain.le_depth level rest
      intro row hrow
      grind [Chain.rows]

end

theorem Block.rows_append (depth : Int) (block more : Block α) :
    Block.rows depth (block ++ more) = Block.rows depth block ++ Block.rows depth more := by
  induction block with
  | nil => rfl
  | cons op ops ih => rw [List.cons_append, Block.rows, Block.rows, ih, List.append_assoc]

-- Two spaces, as many times as the level says.
theorem indent_eq_join (depth : Int) :
    indent depth = String.join (List.replicate (max 0 depth).toNat "  ") := by
  have hlevel : (max 0 depth).toNat = depth.toNat := by omega
  rw [hlevel, indent]
  apply String.toList_injective
  rw [String.toList_ofList, String.toList_join]
  induction depth.toNat with
  | zero => rfl
  | succ n ih =>
      have hspaces : "  ".toList = List.replicate 2 ' ' := rfl
      rw [Nat.mul_succ, Nat.add_comm, List.replicate_add, ih, List.replicate_succ (n := n),
        List.flatMap_cons, hspaces]

theorem Text.stripLeft_of_unbroken {text : List Char}
    (h : ∀ c ∈ text, isBlank c = false) : stripLeft text = text := by
  cases text with
  | nil => rfl
  | cons c rest =>
      have hc := h c List.mem_cons_self
      rw [stripLeft, List.dropWhile_cons_of_neg (by simp [hc])]

-- A run keeps all its characters when the blanks around it are taken off.
theorem IsRun.strip_append {text : List Char} (h : IsRun text) {blanks : List Char}
    (hblanks : ∀ c ∈ blanks, Text.isBlank c = true) : Text.strip (blanks ++ text) = text := by
  have hleft : Text.stripLeft (blanks ++ text) = Text.stripLeft text :=
    List.dropWhile_append_of_pos hblanks
  have hright : ∀ c ∈ text.reverse, Text.isBlank c = false :=
    fun c hc => h.unbroken c (List.mem_reverse.mp hc)
  rw [Text.strip, hleft, Text.stripLeft_of_unbroken h.unbroken, Text.stripLeft_of_unbroken hright,
    List.reverse_reverse]

theorem Row.strip_text {row : Row} (h : row.lexeme.Known) :
    Text.strip row.text.toList = row.lexeme.text.toList := by
  rw [Row.text, String.toList_append, indent, String.toList_ofList]
  exact (Lexeme.isRun_text h).strip_append (Text.isBlank_spaces _)

-- Laying a tree out gives the lines that recursion on the tree gives. A line with `n`
-- blocks around it inside the tree has `depth + n` indents, if that is not negative. The
-- lines of two blocks follow one another, and without its blanks each line is one token of
-- the tree, in the order of the source.
theorem layout_follows_tree (block : Block α) (depth : Int) :
    Block.layout block depth = (Block.rows depth block).map Row.text ∧
    (Block.layout block depth = (Block.rows 0 block).map fun row =>
      String.join (List.replicate (max 0 (depth + row.depth)).toNat "  ") ++ row.lexeme.text) ∧
    (∀ row ∈ Block.rows 0 block, 0 ≤ row.depth) ∧
    (∀ more, Block.layout (block ++ more) depth =
      Block.layout block depth ++ Block.layout more depth) ∧
    ((Block.layout block depth).map fun line => Text.strip line.toList) =
      (Block.spelling block).map fun token => token.lexeme.text.toList := by
  refine ⟨Block.layout_eq block depth, ?_, Block.le_depth 0 block, ?_, ?_⟩
  · have hinward := Block.rows_inward depth 0 block
    rw [Int.add_zero] at hinward
    rw [Block.layout_eq, hinward, List.map_map]
    apply List.map_congr_left
    intro row _
    rw [← indent_eq_join]
    rfl
  · intro more
    rw [Block.layout_eq, Block.rows_append, List.map_append, Block.layout_eq, Block.layout_eq]
  · have hlexemes := Block.lexeme_rows depth block
    have htexts := congrArg (List.map fun lexeme => lexeme.text.toList) hlexemes
    rw [List.map_map, List.map_map] at htexts
    rw [Block.layout_eq, List.map_map]
    refine Eq.trans (List.map_congr_left ?_) htexts
    intro row hrow
    exact Row.strip_text (Block.known_rows hrow)

-- At a level below zero the outer lines are not indented, and the inner ones less.
example : Block.layout [.branch 0 [.loop 1 [] none [.push 2 7]] (.otherwise [])] (-1) =
    ["if", "while", "do", "  7", "end", "else", "end"] := by decide +kernel

end StackLang
