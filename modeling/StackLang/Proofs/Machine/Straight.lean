import StackLang.Proofs.Machine.Residue
import StackLang.Proofs.Machine.Sequencing

-- Straight-line code: literals and intrinsics, one after another. Whether an operation finds
-- its operands is known from the depth of the stack alone, whatever the values are.

namespace StackLang

variable {α : Type} {arith : Arithmetic} {budget : Nat}

-- What an operation does that has no blocks in it.
def Op.effect? (arith : Arithmetic) (op : Op α) (s : Stack) : Option (Effect α) :=
  match op with
  | .push _ value => some (.done (value.toNat :: s) [])
  | .intrinsic loc i => some (i.effect arith loc s)
  | .branch _ _ _ | .loop _ _ _ _ => none

def Op.isStraight : Op α → Bool
  | .push _ _ | .intrinsic _ _ => true
  | .branch _ _ _ | .loop _ _ _ _ => false

theorem Op.exists_effect {op : Op α} (h : op.isStraight) (arith : Arithmetic) (s : Stack) :
    ∃ effect, op.effect? arith s = some effect := by
  cases op with
  | push loc value => exact ⟨_, rfl⟩
  | intrinsic loc i => exact ⟨_, rfl⟩
  | branch => cases h
  | loop => cases h

theorem Op.runs_of_done {op : Op α} {s s' : Stack} {events : List (Event α)}
    (h : op.effect? arith s = some (.done s' events)) (k : Allowance) :
    OpRuns arith k op s ⟨.finished, s', events.reverse, k⟩ := by
  cases op with
  | push loc value =>
      cases h
      exact .push k loc value s
  | intrinsic loc i => exact .done k (Intrinsic.effect_eq_iff.mp (Option.some.inj h))
  | branch => cases h
  | loop => cases h

theorem Op.runs_of_trapped {op : Op α} {s s' : Stack} {trap : Trap}
    (h : op.effect? arith s = some (.trapped trap s')) (k : Allowance) :
    OpRuns arith k op s ⟨.failed trap op.loc, s', [], k⟩ := by
  cases op with
  | push => cases h
  | intrinsic loc i => exact .trapped k (Intrinsic.effect_eq_iff.mp (Option.some.inj h))
  | branch => cases h
  | loop => cases h

theorem execute_of_done {op : Op α} {s s' : Stack} {events : List (Event α)}
    (h : op.effect? arith s = some (.done s' events)) (budget : Nat) (ops : Block α) :
    execute arith budget (op :: ops) s = (execute arith budget ops s').after events.reverse :=
  execute_eq_iff.mpr (.cons (Op.runs_of_done h _) (blockRuns_execute arith budget ops s'))

theorem execute_of_trapped {op : Op α} {s s' : Stack} {trap : Trap}
    (h : op.effect? arith s = some (.trapped trap s')) (budget : Nat) (ops : Block α) :
    execute arith budget (op :: ops) s = ⟨.failed trap op.loc, s', [], budget⟩ :=
  execute_eq_iff.mpr (.stop (Op.runs_of_trapped h _) (by simp [Outcome.ofRun]))

-- Operation number `i` of a block is `op`, and those before it have run and left `s`.
structure Block.Reaches (arith : Arithmetic) (budget : Nat) (block : Block α) (stack : Stack)
    (i : Nat) (op : Op α) (s : Stack) : Prop where
  here : block[i]? = some op
  finished : (execute arith budget (block.take i) stack).ending = .finished
  left : (execute arith budget (block.take i) stack).stack = s

-- Operation number `i` is the one that fails.
def Block.FailsAt (arith : Arithmetic) (budget : Nat) (block : Block α) (stack : Stack)
    (i : Nat) (trap : Trap) : Prop :=
  ∃ op s, Block.Reaches arith budget block stack i op s ∧
    (execute arith budget (block.take (i + 1)) stack).ending = .failed trap op.loc

section Reaches

variable {op op' : Op α} {ops block : Block α} {stack s s' : Stack} {i j : Nat}
  {trap trap' : Trap} {events : List (Event α)}

theorem Block.Reaches.first (op : Op α) (ops : Block α) (s : Stack) :
    Block.Reaches arith budget (op :: ops) s 0 op s where
  here := rfl
  finished := by rw [List.take_zero, execute_nil]
  left := by rw [List.take_zero, execute_nil]

theorem Block.Reaches.cons (hop : op.effect? arith stack = some (.done s' events))
    (h : Block.Reaches arith budget ops s' i op' s) :
    Block.Reaches arith budget (op :: ops) stack (i + 1) op' s where
  here := h.here
  finished := by
    rw [List.take_succ_cons, execute_of_done hop]
    exact h.finished
  left := by
    rw [List.take_succ_cons, execute_of_done hop]
    exact h.left

theorem Block.FailsAt.first (hop : op.effect? arith s = some (.trapped trap s')) (ops : Block α) :
    Block.FailsAt arith budget (op :: ops) s 0 trap :=
  ⟨op, s, .first op ops s, by rw [List.take_succ_cons, execute_of_trapped hop]⟩

theorem Block.FailsAt.cons (hop : op.effect? arith stack = some (.done s' events))
    (h : Block.FailsAt arith budget ops s' i trap) :
    Block.FailsAt arith budget (op :: ops) stack (i + 1) trap := by
  obtain ⟨op', s, hreaches, hfails⟩ := h
  refine ⟨op', s, hreaches.cons hop, ?_⟩
  rw [List.take_succ_cons, execute_of_done hop]
  exact hfails

-- Nothing runs after a failure, so that it is how any longer part of the block ends too.
theorem Block.FailsAt.execute_take (h : Block.FailsAt arith budget block stack i trap)
    (hij : i < j) :
    execute arith budget (block.take j) stack =
      execute arith budget (block.take (i + 1)) stack := by
  obtain ⟨op, s, _, hfails⟩ := h
  have hsplit : block.take j = block.take (i + 1) ++ (block.take j).drop (i + 1) := by
    have htake : (block.take j).take (i + 1) = block.take (i + 1) := by
      rw [List.take_take, Nat.min_eq_left hij]
    rw [← htake, List.take_append_drop]
  rw [hsplit]
  exact execute_append_of_ne_finished (by simp [hfails]) _

theorem Block.FailsAt.not_lt (h : Block.FailsAt arith budget block stack i trap)
    (h' : Block.FailsAt arith budget block stack j trap') : ¬i < j := by
  intro hij
  have hsame := h.execute_take hij
  obtain ⟨op, s, _, hfails⟩ := h
  obtain ⟨op', s', hreaches, _⟩ := h'
  have hfinished := hreaches.finished
  rw [hsame, hfails] at hfinished
  cases hfinished

-- A run fails at one operation only.
theorem Block.FailsAt.iff_eq (h : Block.FailsAt arith budget block stack i trap) :
    Block.FailsAt arith budget block stack j trap ↔ j = i := by
  constructor
  · intro h'
    have hle := h.not_lt h'
    have hge := h'.not_lt h
    omega
  · rintro rfl
    exact h

theorem Block.FailsAt.ending (h : Block.FailsAt arith budget block stack i trap) :
    ∃ op, block[i]? = some op ∧
      (execute arith budget block stack).ending = .failed trap op.loc := by
  have hwhole := h.execute_take (Nat.lt_succ_of_le (Nat.le_max_left i block.length))
  obtain ⟨op, s, hreaches, hfails⟩ := h
  rw [List.take_of_length_le (by omega)] at hwhole
  exact ⟨op, hreaches.here, by rw [hwhole, hfails]⟩

theorem Block.not_failsAt_of_finished (h : (execute arith budget block stack).ending = .finished) :
    ¬Block.FailsAt arith budget block stack i trap := by
  intro hfails
  obtain ⟨op, _, hending⟩ := hfails.ending
  simp [h] at hending

end Reaches

-- How many values an operation takes, and by how many the stack is deeper after it. This is
-- for operations without blocks; what a block comes to depends on the values.

def Op.operands : Op α → Nat
  | .push _ _ => 0
  | .intrinsic _ i => i.operands
  | .branch _ _ _ | .loop _ _ _ _ => 0

def Intrinsic.change : Intrinsic → Int
  | .dup | .over => 1
  | .swap | .rot | .divmod => 0
  | .drop | .print | .plus | .subtract | .multiply => -1

def Op.change : Op α → Int
  | .push _ _ => 1
  | .intrinsic _ i => i.change
  | .branch _ _ _ | .loop _ _ _ _ => 0

def Block.change : List (Op α) → Int
  | [] => 0
  | op :: ops => op.change + Block.change ops

theorem Intrinsic.length_of_done {i : Intrinsic} {loc : α} {s s' : Stack}
    {events : List (Event α)} (h : i.effect arith loc s = .done s' events) :
    i.operands ≤ s.length ∧ (s'.length : Int) = s.length + i.change := by
  cases Intrinsic.effect_eq_iff.mp h with
  | dups | swaps | drops | prints | copies | rotates | adds | addsOff | subtracts | subtractsOff
  | multiplies | divides =>
      simp only [Intrinsic.operands, Intrinsic.change, List.length_cons]
      omega

-- The depth that `op` leaves is known beforehand.
theorem Op.length_of_done {op : Op α} {s s' : Stack} {events : List (Event α)}
    (h : op.effect? arith s = some (.done s' events)) :
    op.operands ≤ s.length ∧ (s'.length : Int) = s.length + op.change := by
  cases op with
  | push loc value =>
      cases h
      simp [Op.operands, Op.change]
  | intrinsic loc i => exact Intrinsic.length_of_done (Option.some.inj h)
  | branch => cases h
  | loop => cases h

theorem Op.length_of_trapped {op : Op α} {s s' : Stack} {trap : Trap}
    (h : op.effect? arith s = some (.trapped trap s')) :
    (trap = .underflow ∧ s.length < op.operands) ∨
      (trap = .zeroDivisor ∧ op.operands ≤ s.length ∧
        ∃ loc a, op = .intrinsic loc .divmod ∧ s = 0 :: a :: s') := by
  cases op with
  | push => cases h
  | branch => cases h
  | loop => cases h
  | intrinsic loc i =>
      rcases Intrinsic.effect_trapped (Option.some.inj h) with
        ⟨htrap, _, hlacks⟩ | ⟨htrap, rfl, a, rfl⟩
      · exact .inl ⟨htrap, hlacks⟩
      · exact .inr ⟨htrap, by simp [Op.operands, Intrinsic.operands], loc, a, rfl, rfl⟩

-- Operation number `i` takes more values than there are, counted from a stack of this depth.
def Block.Lacks (depth : Int) (block : Block α) (i : Nat) : Prop :=
  ∃ op, block[i]? = some op ∧ depth + Block.change (block.take i) < op.operands

instance (depth : Int) (block : Block α) (i : Nat) : Decidable (Block.Lacks depth block i) :=
  decidable_of_iff (∃ op ∈ block[i]?, depth + Block.change (block.take i) < op.operands) Iff.rfl

-- It is the first to do so.
structure Block.FirstLacks (depth : Int) (block : Block α) (i : Nat) : Prop where
  lacks : Block.Lacks depth block i
  first : ∀ j < i, ¬Block.Lacks depth block j

instance (depth : Int) (block : Block α) (i : Nat) :
    Decidable (Block.FirstLacks depth block i) :=
  decidable_of_iff (Block.Lacks depth block i ∧ ∀ j < i, ¬Block.Lacks depth block j)
    ⟨fun h => ⟨h.1, h.2⟩, fun h => ⟨h.lacks, h.first⟩⟩

-- Operation number `i` is a `divmod` and finds a zero to divide by.
def Block.MeetsZero (arith : Arithmetic) (budget : Nat) (block : Block α) (stack : Stack)
    (i : Nat) : Prop :=
  ∃ loc a s, Block.Reaches arith budget block stack i (.intrinsic loc .divmod) (0 :: a :: s)

section Lacks

variable {depth : Int} {op : Op α} {ops : Block α} {i j : Nat}

theorem Block.lacks_zero : Block.Lacks depth (op :: ops) 0 ↔ depth < op.operands := by
  simp [Block.Lacks, Block.change]

theorem Block.lacks_succ :
    Block.Lacks depth (op :: ops) (i + 1) ↔ Block.Lacks (depth + op.change) ops i := by
  simp only [Block.Lacks, List.getElem?_cons_succ, List.take_succ_cons, Block.change,
    Int.add_assoc]

theorem Block.not_lacks_cons (hop : op.operands ≤ depth)
    (h : ∀ j < i, ¬Block.Lacks (depth + op.change) ops j) :
    ∀ j < i + 1, ¬Block.Lacks depth (op :: ops) j := by
  intro j hj
  cases j with
  | zero =>
      rw [Block.lacks_zero]
      omega
  | succ j =>
      rw [Block.lacks_succ]
      exact h j (by omega)

theorem Block.FirstLacks.cons (h : Block.FirstLacks (depth + op.change) ops i)
    (hop : op.operands ≤ depth) : Block.FirstLacks depth (op :: ops) (i + 1) where
  lacks := Block.lacks_succ.mpr h.lacks
  first := Block.not_lacks_cons hop h.first

theorem Block.FirstLacks.iff_eq {block : Block α} (h : Block.FirstLacks depth block i) :
    Block.FirstLacks depth block j ↔ j = i := by
  constructor
  · intro h'
    have hle : ¬i < j := fun hlt => h'.first i hlt h.lacks
    have hge : ¬j < i := fun hgt => h.first j hgt h'.lacks
    omega
  · rintro rfl
    exact h

end Lacks

-- The ways in which straight-line code can come out, by induction on the block: the depth
-- that an operation leaves is the depth that the rest of the block starts from.
theorem Block.straight_cases (arith : Arithmetic) (budget : Nat) {block : Block α}
    (hblock : ∀ op ∈ block, op.isStraight) (stack : Stack) :
    ((execute arith budget block stack).ending = .finished ∧
      ((execute arith budget block stack).stack.length : Int) =
        stack.length + Block.change block ∧
      ∀ i, ¬Block.Lacks stack.length block i) ∨
    (∃ i, Block.FailsAt arith budget block stack i .underflow ∧
      Block.FirstLacks stack.length block i) ∨
    ∃ i, Block.FailsAt arith budget block stack i .zeroDivisor ∧
      Block.MeetsZero arith budget block stack i ∧
      ∀ j < i + 1, ¬Block.Lacks stack.length block j := by
  induction block generalizing stack with
  | nil =>
      rw [execute_nil]
      exact .inl ⟨rfl, by simp [Block.change], by simp [Block.Lacks]⟩
  | cons op ops ih =>
      obtain ⟨hop, hops⟩ := List.forall_mem_cons.mp hblock
      obtain ⟨effect, heffect⟩ := op.exists_effect hop arith stack
      cases effect with
      | trapped trap s =>
          rcases Op.length_of_trapped heffect with
            ⟨rfl, hlacks⟩ | ⟨rfl, hneeds, loc, a, rfl, rfl⟩
          · have hfirst : Block.FirstLacks (stack.length : Int) (op :: ops) 0 :=
              ⟨Block.lacks_zero.mpr (by omega), by simp⟩
            exact .inr (.inl ⟨0, .first heffect ops, hfirst⟩)
          · have hnone : ∀ j < 0 + 1, ¬Block.Lacks (List.length (0 :: a :: s) : Int)
                (.intrinsic loc .divmod :: ops) j :=
              Block.not_lacks_cons (Int.ofNat_le.mpr hneeds) (by simp)
            exact .inr (.inr ⟨0, .first heffect ops, ⟨loc, a, s, .first _ ops _⟩, hnone⟩)
      | done s events =>
          obtain ⟨hneeds, hlength⟩ := Op.length_of_done heffect
          have hneeds : (op.operands : Int) ≤ stack.length := Int.ofNat_le.mpr hneeds
          have hrest := ih hops s
          rw [hlength] at hrest
          rcases hrest with ⟨hending, hdepth, hnone⟩ | ⟨i, hfails, hfirst⟩ |
            ⟨i, hfails, ⟨loc, a, s', hreaches⟩, hnone⟩
          · refine .inl ⟨?_, ?_, ?_⟩
            · rw [execute_of_done heffect]
              exact hending
            · rw [execute_of_done heffect, Block.change, ← Int.add_assoc]
              exact hdepth
            · intro i
              exact Block.not_lacks_cons hneeds (fun j _ => hnone j) i (Nat.lt_succ_self i)
          · exact .inr (.inl ⟨i + 1, hfails.cons heffect, hfirst.cons hneeds⟩)
          · exact .inr (.inr ⟨i + 1, hfails.cons heffect, ⟨loc, a, s', hreaches.cons heffect⟩,
              Block.not_lacks_cons hneeds hnone⟩)

-- Straight-line code that divides by no zero lacks a value at the first operation that takes
-- more of them than there are at its depth, which is known from the operations before it; if
-- there is none, it finishes with the depth that all its operations make. A zero to divide by,
-- at an operation before which and at which nothing is lacking, is the only other way to fail.
theorem straight_failure_by_depth (arith : Arithmetic) (budget : Nat) (block : Block α)
    (hblock : ∀ op ∈ block, op.isStraight) (stack : Stack) :
    let run := execute arith budget block stack
    ((∀ i, ¬Block.MeetsZero arith budget block stack i) →
      (∀ i, Block.FailsAt arith budget block stack i .underflow ↔
        Block.FirstLacks stack.length block i) ∧
      ((∀ i, ¬Block.Lacks stack.length block i) →
        run.ending = .finished ∧
        (run.stack.length : Int) = stack.length + Block.change block)) ∧
    (∀ i trap, Block.FailsAt arith budget block stack i trap →
      ∃ op, block[i]? = some op ∧ run.ending = .failed trap op.loc) ∧
    (run.ending ≠ .finished →
      ∃ i trap, Block.FailsAt arith budget block stack i trap ∧
        (trap = .underflow ∧ Block.FirstLacks stack.length block i ∨
          trap = .zeroDivisor ∧ Block.MeetsZero arith budget block stack i ∧
            ∀ j ≤ i, ¬Block.Lacks stack.length block j)) := by
  intro run
  rcases Block.straight_cases arith budget hblock stack with
    ⟨hending, hdepth, hnone⟩ | ⟨i, hfails, hfirst⟩ | ⟨i, hfails, hzero, hnone⟩
  · refine ⟨?_, fun _ _ hfails => hfails.ending, fun hne => absurd hending hne⟩
    intro _
    refine ⟨?_, fun _ => ⟨hending, hdepth⟩⟩
    intro i
    exact iff_of_false (Block.not_failsAt_of_finished hending) fun hfirst => hnone i hfirst.lacks
  · refine ⟨?_, fun _ _ hfails => hfails.ending, ?_⟩
    · intro _
      refine ⟨?_, fun hnone => absurd hfirst.lacks (hnone i)⟩
      intro j
      rw [hfails.iff_eq, hfirst.iff_eq]
    · intro _
      exact ⟨i, .underflow, hfails, .inl ⟨rfl, hfirst⟩⟩
  · refine ⟨?_, fun _ _ hfails => hfails.ending, ?_⟩
    · intro hnozero
      exact absurd hzero (hnozero i)
    · intro _
      exact ⟨i, .zeroDivisor, hfails, .inr ⟨rfl, hzero, fun j hj => hnone j (by omega)⟩⟩

-- Doubles seven, divides the value below by it and turns the top three round.
def straightSample : Block Nat :=
  [.push 0 7, .intrinsic 1 .dup, .intrinsic 2 .plus, .intrinsic 3 .divmod, .intrinsic 4 .rot]

theorem straight_failure_by_depth_straightSample :
    (∀ op ∈ straightSample, op.isStraight) ∧
    (∀ i, ¬Block.MeetsZero .wrapping 0 straightSample [3] i) ∧
    Block.FirstLacks 1 straightSample 4 ∧
    Block.FailsAt .wrapping 0 straightSample [3] 4 .underflow ∧
    (execute .wrapping 0 straightSample [3]).ending = .failed .underflow 4 := by
  have hblock : ∀ op ∈ straightSample, op.isStraight := by decide
  have hdivmod : (execute .wrapping 0 (straightSample.take 3) [3]).stack = [14, 3] := by
    decide +kernel
  -- Only operation 3 divides, and it divides by 14.
  have hzero : ∀ i, ¬Block.MeetsZero .wrapping 0 straightSample [3] i := by
    rintro i ⟨loc, a, s, hreaches⟩
    have hhere := hreaches.here
    match i with
    | 0 | 1 | 2 | 4 | _ + 5 => simp [straightSample] at hhere
    | 3 =>
        have hleft := hdivmod.symm.trans hreaches.left
        simp at hleft
  have hfirst : Block.FirstLacks (List.length [3] : Int) straightSample 4 := by decide
  obtain ⟨hdepth, hends, _⟩ := straight_failure_by_depth .wrapping 0 straightSample hblock [3]
  have hfails := ((hdepth hzero).1 4).mpr hfirst
  obtain ⟨op, hop, hending⟩ := hends 4 .underflow hfails
  cases hop
  exact ⟨hblock, hzero, hfirst, hfails, hending⟩

end StackLang
