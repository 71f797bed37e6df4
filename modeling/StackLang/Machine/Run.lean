import StackLang.Machine.Step

-- Runs of the machine. Only tests of conditions can make a run endless, so a
-- run is given a budget of tests.

namespace StackLang

variable {α : Type}

-- A machine that cannot go on without a decision, or at all.
inductive Pause (α : Type) where
  | finished (stack : Stack) (trace : List (Event α))
  | failed (trap : Trap) (loc : α) (stack : Stack) (trace : List (Event α))
  | test (loc : α) (value : Int) (stack : Stack) (trace : List (Event α))
      (yes no : List (Frame α))

-- All turns up to the next test.
def Config.settle (arith : Arithmetic) (c : Config α) : Pause α :=
  match _h : c.step arith with
  | .finished => .finished c.stack c.trace
  | .failed trap loc stack => .failed trap loc stack c.trace
  | .next c' => c'.settle arith
  | .test loc value stack yes no => .test loc value stack c.trace yes no
termination_by c.work
decreasing_by exact Config.work_step _h

-- A condition holds when its value is above zero. Values other than zero and
-- one are reported.
def Config.decide (loc : α) (value : Int) (stack : Stack) (trace : List (Event α))
    (yes no : List (Frame α)) : Config α where
  frames := if 0 < value then yes else no
  stack := stack
  trace := if value = 0 || value = 1 then trace else .nonBinary loc value :: trace

inductive Ending (α : Type) where
  | finished
  | failed (trap : Trap) (loc : α)
  -- A test was due and the budget was used up.
  | capped
deriving DecidableEq, Repr

structure Run (α : Type) where
  ending : Ending α
  stack : Stack
  -- In the order of execution.
  trace : List (Event α)
  -- What is left of the budget.
  left : Nat
deriving DecidableEq, Repr

def Config.run (arith : Arithmetic) : Nat → Config α → Run α
  | budget, c =>
      match c.settle arith with
      | .finished stack trace => ⟨.finished, stack, trace.reverse, budget⟩
      | .failed trap loc stack trace => ⟨.failed trap loc, stack, trace.reverse, budget⟩
      | .test loc value stack trace yes no =>
          match budget with
          | 0 => ⟨.capped, stack, trace.reverse, 0⟩
          | budget + 1 => Config.run arith budget (.decide loc value stack trace yes no)

-- Runs a block on a stack.
def execute (arith : Arithmetic) (budget : Nat) (block : Block α) (stack : Stack) : Run α :=
  Config.run arith budget ⟨[.block block], stack, []⟩

-- Runs the operations of a block one by one, up to the first that does not
-- finish. The budget is shared.
def executeEach (arith : Arithmetic) : Nat → Block α → Stack → List (Op α × Run α)
  | _, [], _ => []
  | budget, op :: rest, stack =>
      let run := execute arith budget [op] stack
      match run.ending with
      | .finished => (op, run) :: executeEach arith run.left rest run.stack
      | _ => [(op, run)]

end StackLang
