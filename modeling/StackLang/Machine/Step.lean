import StackLang.Machine.Effect
import StackLang.Measure
import StackLang.Op.Basic

-- One turn of the machine. What is still to be done is kept on a stack of
-- frames, innermost first, so that nesting needs no recursion.

namespace StackLang

variable {α : Type}

inductive Frame (α : Type) where
  -- The operations of a block that have not run yet.
  | block (ops : Block α)
  -- Tests the condition of an `if*` once its block has run.
  | link (loc : α) (inner : Block α) (rest : Chain α)
  -- Tests the condition of a `while` once its block has run.
  | loop (loc : α) (cond body : Block α)

-- What is done when all conditions before this part of the chain were false.
def Chain.frames : Chain α → List (Frame α)
  | .none => []
  | .otherwise block => [.block block]
  | .link cond loc inner rest => [.block cond, .link loc inner rest]

structure Config (α : Type) where
  frames : List (Frame α)
  stack : Stack
  -- Latest first.
  trace : List (Event α)

-- The outcome of one turn. A turn that needs a decision leaves it open.
inductive Turn (α : Type) where
  | finished
  | failed (trap : Trap) (loc : α) (stack : Stack)
  | next (c : Config α)
  | test (loc : α) (value : Int) (stack : Stack) (yes no : List (Frame α))

namespace Config

-- Takes the value to be tested; `rest` is done after either branch.
def test (c : Config α) (loc : α) (yes no rest : List (Frame α)) : Turn α :=
  match c.stack.pop with
  | .error trap => .failed trap loc c.stack
  | .ok (value, stack) => .test loc value stack (yes ++ rest) (no ++ rest)

def runOp (c : Config α) (arith : Arithmetic) (op : Op α) (rest : List (Frame α)) : Turn α :=
  match op with
  | .push _ value => .next { c with frames := rest, stack := value.toNat :: c.stack }
  | .intrinsic loc i =>
      match i.effect arith loc c.stack with
      | .done stack events => .next ⟨rest, stack, events ++ c.trace⟩
      | .trapped trap stack => .failed trap loc stack
  | .branch loc body chain => c.test loc [.block body] chain.frames rest
  | .loop loc cond doLoc body =>
      .next { c with frames := .block cond :: .loop (doLoc.getD loc) cond body :: rest }

def step (arith : Arithmetic) (c : Config α) : Turn α :=
  match c.frames with
  | [] => .finished
  | .block [] :: rest => .next { c with frames := rest }
  | .block (op :: ops) :: rest => c.runOp arith op (.block ops :: rest)
  | .link loc inner chain :: rest => c.test loc [.block inner] chain.frames rest
  | .loop loc cond body :: rest =>
      c.test loc [.block body, .block cond, .loop loc cond body] [] rest

end Config

-- How many turns can pass before a test is due.

mutual

def Op.work : Op α → Nat
  | .push _ _ | .intrinsic _ _ | .branch _ _ _ => 1
  | .loop _ cond _ _ => 1 + Block.work cond

def Block.work : List (Op α) → Nat
  | [] => 1
  | op :: rest => Op.work op + Block.work rest

end

def Frame.work : Frame α → Nat
  | .block ops => Block.work ops
  | .link _ _ _ | .loop _ _ _ => 0

def Config.work (c : Config α) : Nat :=
  total Frame.work c.frames

theorem Config.test_ne_next {c c' : Config α} {loc : α} {yes no rest : List (Frame α)} :
    c.test loc yes no rest ≠ .next c' := by
  unfold Config.test
  split <;> simp

theorem Op.work_pos (op : Op α) : 0 < op.work := by
  cases op <;> simp only [Op.work] <;> omega

theorem Config.work_runOp {c c' : Config α} {arith : Arithmetic} {op : Op α}
    {rest : List (Frame α)} (h : c.runOp arith op rest = .next c') :
    c'.work < op.work + total Frame.work rest := by
  have hp := op.work_pos
  cases op with
  | push =>
      simp only [Config.runOp, Turn.next.injEq] at h
      subst h
      simp only [Config.work]
      omega
  | intrinsic =>
      simp only [Config.runOp] at h
      split at h
      · simp only [Turn.next.injEq] at h
        subst h
        simp only [Config.work]
        omega
      · cases h
  | branch => exact absurd h Config.test_ne_next
  | loop =>
      simp only [Config.runOp, Turn.next.injEq] at h
      subst h
      simp only [Config.work, Op.work, Frame.work, total_cons]
      omega

-- Every turn without a test uses up work.
theorem Config.work_step {arith : Arithmetic} {c c' : Config α} (h : c.step arith = .next c') :
    c'.work < c.work := by
  unfold Config.step at h
  split at h
  · cases h
  · next hf =>
      simp only [Turn.next.injEq] at h
      subst h
      simp [Config.work, hf, Frame.work, Block.work]
  · next hf =>
      have hw := Config.work_runOp h
      simp only [total_cons, Frame.work] at hw
      simp only [Config.work, hf, total_cons, Frame.work, Block.work]
      simp only [Config.work] at hw
      omega
  · exact absurd h Config.test_ne_next
  · exact absurd h Config.test_ne_next

end StackLang
