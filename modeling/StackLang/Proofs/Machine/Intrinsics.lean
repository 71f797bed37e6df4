import StackLang.Machine.Effect

-- The table of the intrinsics: what each of them takes from the stack, what it leaves there
-- and what it shows. An intrinsic does what its rule in the table says, and no other.

namespace StackLang

variable {α : Type} {arith : Arithmetic} {loc : α}

-- How many values an intrinsic takes.
def Intrinsic.operands : Intrinsic → Nat
  | .dup | .drop | .print => 1
  | .swap | .over | .plus | .subtract | .multiply | .divmod => 2
  | .rot => 3

-- The operands are named in the order in which they were pushed.
inductive Intrinsic.Does (arith : Arithmetic) (loc : α) : Intrinsic → Stack → Effect α → Prop where
  | dups (a : Int) (s : Stack) : Does arith loc .dup (a :: s) (.done (a :: a :: s) [])
  | swaps (a b : Int) (s : Stack) : Does arith loc .swap (b :: a :: s) (.done (a :: b :: s) [])
  | drops (a : Int) (s : Stack) : Does arith loc .drop (a :: s) (.done s [])
  | prints (a : Int) (s : Stack) : Does arith loc .print (a :: s) (.done s [.printed a])
  | copies (a b : Int) (s : Stack) :
      Does arith loc .over (b :: a :: s) (.done (a :: b :: a :: s) [])
  | rotates (a b c : Int) (s : Stack) :
      Does arith loc .rot (c :: b :: a :: s) (.done (a :: c :: b :: s) [])
  | adds {a b : Int} (s : Stack) :
      a + b ≤ Arithmetic.maxValue →
      Does arith loc .plus (b :: a :: s) (.done (arith.reduce (a + b) :: s) [])
  | addsOff {a b : Int} (s : Stack) :
      Arithmetic.maxValue < a + b →
      Does arith loc .plus (b :: a :: s)
        (.done (arith.reduce (a + b) :: s) [.overflow loc .plus])
  | subtracts {a b : Int} (s : Stack) :
      b ≤ a → Does arith loc .subtract (b :: a :: s) (.done (arith.reduce (a - b) :: s) [])
  | subtractsOff {a b : Int} (s : Stack) :
      a < b →
      Does arith loc .subtract (b :: a :: s)
        (.done (arith.reduce (a - b) :: s) [.overflow loc .subtract])
  -- A product is not checked.
  | multiplies (a b : Int) (s : Stack) :
      Does arith loc .multiply (b :: a :: s) (.done (arith.reduce (a * b) :: s) [])
  | divides {b : Int} (a : Int) (s : Stack) :
      b ≠ 0 → Does arith loc .divmod (b :: a :: s) (.done (Int.fmod a b :: Int.fdiv a b :: s) [])
  | dividesByZero (a : Int) (s : Stack) :
      Does arith loc .divmod (0 :: a :: s) (.trapped .zeroDivisor s)
  | lacks {i : Intrinsic} {s : Stack} :
      s.length < i.operands → Does arith loc i s (.trapped .underflow [])

-- Pops that run out of values have taken all there were: each takes the value it finds, so
-- that the one which finds none finds the stack empty.
theorem Stack.popThen_lacks {next : Int → Stack → Effect α} {n : Nat}
    (hnext : ∀ value rest, rest.length < n → next value rest = .trapped .underflow [])
    {s : Stack} (h : s.length < n + 1) : s.popThen next = .trapped .underflow [] := by
  cases s with
  | nil => rw [popThen_nil]
  | cons value rest =>
      rw [popThen_cons]
      apply hnext
      simp only [List.length_cons] at h
      omega

theorem Intrinsic.effect_of_lacks {i : Intrinsic} {s : Stack} (h : s.length < i.operands) :
    i.effect arith loc s = .trapped .underflow [] := by
  match i with
  | .dup | .drop | .print =>
      refine Stack.popThen_lacks ?_ h
      omega
  | .swap | .over | .plus | .subtract | .multiply | .divmod =>
      refine Stack.popThen_lacks (fun _ _ => Stack.popThen_lacks ?_) h
      omega
  | .rot =>
      refine Stack.popThen_lacks (fun _ _ => Stack.popThen_lacks fun _ _ => ?_) h
      refine Stack.popThen_lacks ?_
      omega

theorem Intrinsic.Does.eq {i : Intrinsic} {s : Stack} {e : Effect α} (h : Does arith loc i s e) :
    i.effect arith loc s = e := by
  cases h with
  | dups | swaps | drops | prints | copies | rotates | multiplies | dividesByZero => rfl
  | adds s hfits => exact Arithmetic.checked_of_not_off (by omega) _ s
  | addsOff s hoff => exact Arithmetic.checked_of_off hoff _ s
  | subtracts s hle => exact Arithmetic.checked_of_not_off (by omega) _ s
  | subtractsOff s hless => exact Arithmetic.checked_of_off (by omega) _ s
  | divides a s hdivisor => exact if_neg hdivisor
  | lacks hlacks => exact Intrinsic.effect_of_lacks hlacks

-- There is a rule for every intrinsic and every stack.
theorem Intrinsic.exists_does (arith : Arithmetic) (loc : α) (i : Intrinsic) (s : Stack) :
    ∃ e, Does arith loc i s e := by
  match i with
  | .dup =>
      match s with
      | [] => exact ⟨_, .lacks Nat.zero_lt_one⟩
      | a :: s => exact ⟨_, .dups a s⟩
  | .swap =>
      match s with
      | [] | [_] => exact ⟨_, .lacks (by simp [Intrinsic.operands])⟩
      | b :: a :: s => exact ⟨_, .swaps a b s⟩
  | .drop =>
      match s with
      | [] => exact ⟨_, .lacks Nat.zero_lt_one⟩
      | a :: s => exact ⟨_, .drops a s⟩
  | .print =>
      match s with
      | [] => exact ⟨_, .lacks Nat.zero_lt_one⟩
      | a :: s => exact ⟨_, .prints a s⟩
  | .over =>
      match s with
      | [] | [_] => exact ⟨_, .lacks (by simp [Intrinsic.operands])⟩
      | b :: a :: s => exact ⟨_, .copies a b s⟩
  | .rot =>
      match s with
      | [] | [_] | [_, _] => exact ⟨_, .lacks (by simp [Intrinsic.operands])⟩
      | c :: b :: a :: s => exact ⟨_, .rotates a b c s⟩
  | .plus =>
      match s with
      | [] | [_] => exact ⟨_, .lacks (by simp [Intrinsic.operands])⟩
      | b :: a :: s =>
          by_cases hoff : Arithmetic.maxValue < a + b
          · exact ⟨_, .addsOff s hoff⟩
          · exact ⟨_, .adds s (by omega)⟩
  | .subtract =>
      match s with
      | [] | [_] => exact ⟨_, .lacks (by simp [Intrinsic.operands])⟩
      | b :: a :: s =>
          by_cases hoff : a < b
          · exact ⟨_, .subtractsOff s hoff⟩
          · exact ⟨_, .subtracts s (by omega)⟩
  | .multiply =>
      match s with
      | [] | [_] => exact ⟨_, .lacks (by simp [Intrinsic.operands])⟩
      | b :: a :: s => exact ⟨_, .multiplies a b s⟩
  | .divmod =>
      match s with
      | [] | [_] => exact ⟨_, .lacks (by simp [Intrinsic.operands])⟩
      | b :: a :: s =>
          by_cases hzero : b = 0
          · subst hzero
            exact ⟨_, .dividesByZero a s⟩
          · exact ⟨_, .divides a s hzero⟩

-- The rules say what an intrinsic does, and all that it does.
theorem Intrinsic.effect_eq_iff {i : Intrinsic} {s : Stack} {e : Effect α} :
    i.effect arith loc s = e ↔ Does arith loc i s e := by
  constructor
  · intro h
    obtain ⟨e', hrule⟩ := i.exists_does arith loc s
    rwa [← h, hrule.eq]
  · exact Does.eq

theorem Intrinsic.does (arith : Arithmetic) (loc : α) (i : Intrinsic) (s : Stack) :
    Does arith loc i s (i.effect arith loc s) :=
  effect_eq_iff.mp rfl

end StackLang
