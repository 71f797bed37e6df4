import StackLang.Op.Intrinsic
import StackLang.Text.Numeral

-- What the built-in operations do to the value stack.

namespace StackLang

-- The top of the stack comes first.
abbrev Stack := List Int

-- Listed from bottom to top.
def Stack.shown (s : Stack) : String :=
  "ValueStack([" ++ ", ".intercalate (s.reverse.map Text.decimalInt) ++ "])"

-- How the results of sums, differences and products are brought into range.
structure Arithmetic where
  reduce : Int → Int

namespace Arithmetic

-- Two to the power of 64.
def modulus : Int := 0x10000000000000000

-- Unsigned 64-bit values, which wrap around.
def wrapping : Arithmetic := ⟨(· % modulus)⟩

-- Unbounded integers, which never do.
def exact : Arithmetic := ⟨id⟩

-- The largest value of 64 bits.
def maxValue : Int := 0xffffffffffffffff

end Arithmetic

-- What a run shows of itself.
inductive Event (α : Type) where
  | printed (value : Int)
  | overflow (loc : α) (op : Intrinsic)
  | nonBinary (loc : α) (value : Int)
deriving DecidableEq, Repr

-- Why a run fails.
inductive Trap where
  | underflow
  | zeroDivisor
deriving DecidableEq, Repr

def Stack.pop : Stack → Except Trap (Int × Stack)
  | [] => .error .underflow
  | value :: rest => .ok (value, rest)

inductive Effect (α : Type) where
  | done (stack : Stack) (events : List (Event α))
  -- The operands that were taken before the failure are gone.
  | trapped (trap : Trap) (stack : Stack)
deriving DecidableEq, Repr

variable {α : Type}

-- A sum or difference, which is reported if it is off the range of values.
def Arithmetic.checked (arith : Arithmetic) (loc : α) (op : Intrinsic) (exact : Int) (off : Bool)
    (rest : Stack) : Effect α :=
  .done (arith.reduce exact :: rest) (if off then [.overflow loc op] else [])

theorem Arithmetic.checked_of_off {arith : Arithmetic} {loc : α} {op : Intrinsic} {off : Prop}
    [Decidable off] (h : off) (exact : Int) (rest : Stack) :
    arith.checked loc op exact off rest =
      .done (arith.reduce exact :: rest) [.overflow loc op] := by
  simp only [Arithmetic.checked, decide_eq_true_eq, if_pos h]

theorem Arithmetic.checked_of_not_off {arith : Arithmetic} {loc : α} {op : Intrinsic} {off : Prop}
    [Decidable off] (h : ¬off) (exact : Int) (rest : Stack) :
    arith.checked loc op exact off rest = .done (arith.reduce exact :: rest) [] := by
  simp only [Arithmetic.checked, decide_eq_true_eq, if_neg h]

-- Takes the value on top and goes on with it. If there is none, the stack stays as it is by
-- then: what has been taken before is not put back.
def Stack.popThen (s : Stack) (next : Int → Stack → Effect α) : Effect α :=
  match s.pop with
  | .error trap => .trapped trap s
  | .ok (value, rest) => next value rest

@[simp] theorem Stack.popThen_nil (next : Int → Stack → Effect α) :
    Stack.popThen [] next = .trapped .underflow [] := rfl

@[simp] theorem Stack.popThen_cons (value : Int) (s : Stack) (next : Int → Stack → Effect α) :
    Stack.popThen (value :: s) next = next value s := rfl

def Intrinsic.effect (arith : Arithmetic) (loc : α) (i : Intrinsic) (s : Stack) : Effect α :=
  match i with
  | .dup => s.popThen fun a s => .done (a :: a :: s) []
  | .swap => s.popThen fun b s => s.popThen fun a s => .done (a :: b :: s) []
  | .drop => s.popThen fun _ s => .done s []
  | .print => s.popThen fun a s => .done s [.printed a]
  | .over => s.popThen fun b s => s.popThen fun a s => .done (a :: b :: a :: s) []
  | .rot =>
      s.popThen fun c s => s.popThen fun b s => s.popThen fun a s => .done (a :: c :: b :: s) []
  -- A sum can only be too large, a difference only too small.
  | .plus =>
      s.popThen fun b s => s.popThen fun a s =>
        arith.checked loc .plus (a + b) (Arithmetic.maxValue < a + b) s
  | .subtract =>
      s.popThen fun b s => s.popThen fun a s =>
        arith.checked loc .subtract (a - b) (a - b < 0) s
  | .multiply => s.popThen fun b s => s.popThen fun a s => .done (arith.reduce (a * b) :: s) []
  | .divmod =>
      s.popThen fun b s => s.popThen fun a s =>
        if b = 0 then .trapped .zeroDivisor s
        else .done (Int.fmod a b :: Int.fdiv a b :: s) []

end StackLang
