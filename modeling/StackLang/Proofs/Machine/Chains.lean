import StackLang.Proofs.Machine.Budget
import StackLang.Proofs.Machine.Sequencing

-- Links are a way to write nested `if`s. A chain of `if*` runs as if each link were an `if`
-- of its own, at the end of the `else` block that its condition starts.

namespace StackLang

variable {α : Type} {arith : Arithmetic}

-- The same tree without links, at any depth.

mutual

def Op.nested : Op α → Op α
  | .push loc value => .push loc value
  | .intrinsic loc i => .intrinsic loc i
  | .branch loc body chain => .branch loc (Block.nested body) (Chain.nested chain)
  | .loop loc cond doLoc body => .loop loc (Block.nested cond) doLoc (Block.nested body)

def Block.nested : List (Op α) → List (Op α)
  | [] => []
  | op :: ops => Op.nested op :: Block.nested ops

-- The last chain of the nest is that of the whole: `else` or nothing.
def Chain.nested : Chain α → Chain α
  | .none => .none
  | .otherwise block => .otherwise (Block.nested block)
  | .link cond loc inner rest =>
      .otherwise (Block.nested cond ++ [.branch loc (Block.nested inner) (Chain.nested rest)])

end

theorem Chain.links_nested (chain : Chain α) : chain.nested.links = 0 := by
  cases chain <;> rfl

theorem Block.nodes_append (a b : Block α) :
    Block.nodes (a ++ b) = Block.nodes a ++ Block.nodes b := by
  induction a with
  | nil => rfl
  | cons op ops ih => simp only [List.cons_append, Block.nodes, ih, List.append_assoc]

-- An `if` whose own chain has no links.
def Op.Unlinked (op : Op α) : Prop :=
  op.conditions ≤ 1

theorem Op.unlinked_branch_nested (loc : α) (body : Block α) (chain : Chain α) :
    (Op.branch loc body chain.nested).Unlinked := by
  simp [Op.Unlinked, Op.conditions, Chain.links_nested]

mutual

theorem Op.unlinked_nested : (op : Op α) → ∀ node ∈ op.nested.nodes, node.Unlinked
  | .push loc value => by simp [Op.nested, Op.nodes, Op.Unlinked, Op.conditions]
  | .intrinsic loc i => by simp [Op.nested, Op.nodes, Op.Unlinked, Op.conditions]
  | .branch loc body chain => by
      simp only [Op.nested, Op.nodes, List.forall_mem_cons, List.forall_mem_append]
      exact ⟨Op.unlinked_branch_nested _ _ _, Block.unlinked_nested body,
        Chain.unlinked_nested chain⟩
  | .loop loc cond doLoc body => by
      simp only [Op.nested, Op.nodes, List.forall_mem_cons, List.forall_mem_append]
      exact ⟨Nat.zero_le 1, Block.unlinked_nested cond, Block.unlinked_nested body⟩

theorem Block.unlinked_nested : (block : List (Op α)) →
    ∀ node ∈ Block.nodes (Block.nested block), node.Unlinked
  | [] => List.forall_mem_nil _
  | op :: ops => by
      simp only [Block.nested, Block.nodes, List.forall_mem_append]
      exact ⟨Op.unlinked_nested op, Block.unlinked_nested ops⟩

theorem Chain.unlinked_nested : (chain : Chain α) → ∀ node ∈ chain.nested.nodes, node.Unlinked
  | .none => List.forall_mem_nil _
  | .otherwise block => Block.unlinked_nested block
  | .link cond loc inner rest => by
      simp only [Chain.nested, Chain.nodes, Block.nodes_append, Block.nodes, Op.nodes,
        List.append_nil, List.forall_mem_append, List.forall_mem_cons]
      exact ⟨Block.unlinked_nested cond, Op.unlinked_branch_nested _ _ _,
        Block.unlinked_nested inner, Chain.unlinked_nested rest⟩

end

theorem OpRuns.block {k : Allowance} {op : Op α} {s : Stack} {r : Outcome α}
    (h : OpRuns arith k op s r) : BlockRuns arith k [op] s r := by
  obtain ⟨ending, s', trace, left⟩ := r
  by_cases hfinished : ending = .finished
  · subst hfinished
    have hblock := BlockRuns.cons h (.nil left s')
    simpa only [Outcome.after, List.append_nil] using hblock
  · exact .stop h hfinished

theorem BlockRuns.concat {k k' : Allowance} {ops : Block α} {op : Op α} {s s' : Stack}
    {trace : List (Event α)} {r : Outcome α}
    (hops : BlockRuns arith k ops s ⟨.finished, s', trace, k'⟩) (hop : OpRuns arith k' op s' r) :
    BlockRuns arith k (ops ++ [op]) s (r.after trace) :=
  hops.append rfl hop.block

-- By induction on the derivation. The rules for a link are those for its condition and then
-- an `if`, with the condition and the `if` in one block.

mutual

theorem BlockRuns.nested {k : Allowance} {ops : Block α} {s : Stack} {r : Outcome α} :
    BlockRuns arith k ops s r → BlockRuns arith k (Block.nested ops) s r
  | .nil k s => .nil k s
  | .cons hop hops => .cons hop.nested hops.nested
  | .stop hop hne => .stop hop.nested hne

theorem OpRuns.nested {k : Allowance} {op : Op α} {s : Stack} {r : Outcome α} :
    OpRuns arith k op s r → OpRuns arith k op.nested s r
  | .push k loc value s => .push k loc value s
  | .done k hrule => .done k hrule
  | .trapped k hrule => .trapped k hrule
  | .branchStop htest => .branchStop htest
  | .branchTrue hk hpos hbody => .branchTrue hk hpos hbody.nested
  | .branchFalse hk hpos hchain => .branchFalse hk hpos hchain.nested
  | .loop hloop => .loop hloop.nested

theorem ChainRuns.nested {k : Allowance} {chain : Chain α} {s : Stack} {r : Outcome α} :
    ChainRuns arith k chain s r → ChainRuns arith k chain.nested s r
  | .none k s => .none k s
  | .otherwise hblock => .otherwise hblock.nested
  | .condStop hcond hne => .otherwise (hcond.nested.append_of_ne_finished hne _)
  | .testStop hcond htest => .otherwise (hcond.nested.concat (.branchStop htest))
  | .linkTrue hcond hk hpos hinner => by
      rw [← Outcome.after_after]
      exact .otherwise (hcond.nested.concat (.branchTrue hk hpos hinner.nested))
  | .linkFalse hcond hk hpos hrest => by
      rw [← Outcome.after_after]
      exact .otherwise (hcond.nested.concat (.branchFalse hk hpos hrest.nested))

theorem LoopRuns.nested {k : Allowance} {loc : α} {cond body : Block α} {s : Stack}
    {r : Outcome α} : LoopRuns arith k loc cond body s r →
      LoopRuns arith k loc (Block.nested cond) (Block.nested body) s r
  | .condStop hcond hne => .condStop hcond.nested hne
  | .testStop hcond htest => .testStop hcond.nested htest
  | .leave hcond hk hpos => .leave hcond.nested hk hpos
  | .bodyStop hcond hk hpos hbody hne => .bodyStop hcond.nested hk hpos hbody.nested hne
  | .again hcond hk hpos hbody hloop =>
      .again hcond.nested hk hpos hbody.nested hloop.nested

end

theorem execute_nested (arith : Arithmetic) (budget : Nat) (block : Block α) (stack : Stack) :
    execute arith budget (Block.nested block) stack = execute arith budget block stack :=
  execute_eq_iff.mpr (blockRuns_execute arith budget block stack).nested

-- A tree and the same tree without links have the same runs: within any budget they show
-- the same, end in the same way and at the same location, and leave the same stack and the
-- same rest of the budget. Without a budget one of them runs forever just if the other does.
theorem links_are_nested_branches (arith : Arithmetic) (block : Block α) (stack : Stack) :
    (∀ node ∈ Block.nodes (Block.nested block), node.Unlinked) ∧
    (∀ budget, execute arith budget (Block.nested block) stack =
      execute arith budget block stack) ∧
    (∀ ending s trace, (Config.initial (Block.nested block) stack).EndsIn arith ending s trace ↔
      (Config.initial block stack).EndsIn arith ending s trace) ∧
    ((Config.initial (Block.nested block) stack).RunsForever arith ↔
      (Config.initial block stack).RunsForever arith) := by
  have hruns := fun budget => execute_nested arith budget block stack
  refine ⟨Block.unlinked_nested block, hruns, ?_, ?_⟩
  · intro ending s trace
    rw [Config.endsIn_iff_run, Config.endsIn_iff_run]
    refine and_congr_right fun _ => exists_congr fun n => exists_congr fun left => ?_
    exact Eq.congr_left (hruns n)
  · rw [runsForever_iff_capped, runsForever_iff_capped]
    simp only [hruns]

-- Two links, of which the second drops a value before it is tested.
def ladderSample : Block Nat :=
  [.branch 0 [.intrinsic 1 .print]
    (.link [.push 2 0] 3 []
      (.link [.intrinsic 4 .drop] 5 [.intrinsic 6 .print] .none))]

theorem links_are_nested_branches_ladderSample :
    Block.nested ladderSample =
      [.branch 0 [.intrinsic 1 .print] (.otherwise
        [.push 2 0, .branch 3 [] (.otherwise
          [.intrinsic 4 .drop, .branch 5 [.intrinsic 6 .print] .none])])] ∧
    (∀ node ∈ Block.nodes (Block.nested ladderSample), node.Unlinked) ∧
    execute .wrapping 9 (Block.nested ladderSample) [0, 7] =
      ⟨.failed .underflow 5, [], [], 7⟩ ∧
    execute .wrapping 9 (Block.nested ladderSample) [0, 7, 2, 6] =
      ⟨.finished, [], [.nonBinary 5 2, .printed 6], 6⟩ ∧
    execute .wrapping 2 (Block.nested ladderSample) [0, 7, 2, 6] = ⟨.capped, [6], [], 0⟩ := by
  obtain ⟨hunlinked, hlacks, _⟩ := links_are_nested_branches .wrapping ladderSample [0, 7]
  obtain ⟨_, hwhole, _⟩ := links_are_nested_branches .wrapping ladderSample [0, 7, 2, 6]
  rw [hlacks 9, hwhole 9, hwhole 2]
  exact ⟨rfl, hunlinked, by decide +kernel, by decide +kernel, by decide +kernel⟩

end StackLang
