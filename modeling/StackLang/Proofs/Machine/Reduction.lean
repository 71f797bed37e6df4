import StackLang.Proofs.Machine.Exactness
import StackLang.Proofs.Machine.Straight

-- To wrap at each step is to compute exactly and reduce once at the end. Sums, differences
-- and products respect the modulus, and so does every rearrangement of values; a quotient
-- does not.

namespace StackLang

variable {α : Type}

-- Intrinsics that make polynomials of the values they find.
def Intrinsic.isPolynomial : Intrinsic → Bool
  | .dup | .swap | .drop | .over | .rot | .plus | .subtract | .multiply => true
  | .print | .divmod => false

def Op.isPolynomial : Op α → Bool
  | .push _ _ => true
  | .intrinsic _ i => i.isPolynomial
  | .branch _ _ _ | .loop _ _ _ _ => false

def Stack.reduced (s : Stack) : Stack :=
  s.map Arithmetic.wrapping.reduce

theorem Stack.reduced_of_fits {s : Stack} (h : s.Fits) : s.reduced = s := by
  have hsame : s.map Arithmetic.wrapping.reduce = s.map id :=
    List.map_congr_left fun value hvalue => Arithmetic.reduce_of_fits (h value hvalue)
  rw [Stack.reduced, hsame, List.map_id]

-- Both effects are done and the first leaves what the second leaves, reduced, or both lack
-- a value. They need not report the same: an exact sum can be off the range where the sum of
-- the reduced values is not.
inductive Effect.Reduces : Effect α → Effect α → Prop where
  | done (t : Stack) (events events' : List (Event α)) :
      Effect.Reduces (.done t.reduced events) (.done t events')
  | lacks : Effect.Reduces (.trapped .underflow []) (.trapped .underflow [])

theorem Effect.reduces_cons {value result : Int}
    (h : value = Arithmetic.wrapping.reduce result) (t : Stack) (events events' : List (Event α)) :
    Effect.Reduces (.done (value :: t.reduced) events) (.done (result :: t) events') := by
  subst h
  exact .done (result :: t) events events'

theorem Intrinsic.effect_reduces {i : Intrinsic} (hi : i.isPolynomial) (loc : α) (t : Stack) :
    Effect.Reduces (i.effect .wrapping loc t.reduced) (i.effect .exact loc t) := by
  match i with
  | .dup =>
      match t with
      | [] => exact .lacks
      | a :: t => exact .done (a :: a :: t) _ _
  | .drop =>
      match t with
      | [] => exact .lacks
      | _ :: t => exact .done t _ _
  | .swap =>
      match t with
      | [] | [_] => exact .lacks
      | b :: a :: t => exact .done (a :: b :: t) _ _
  | .over =>
      match t with
      | [] | [_] => exact .lacks
      | b :: a :: t => exact .done (a :: b :: a :: t) _ _
  | .rot =>
      match t with
      | [] | [_] | [_, _] => exact .lacks
      | c :: b :: a :: t => exact .done (a :: c :: b :: t) _ _
  | .plus =>
      match t with
      | [] | [_] => exact .lacks
      | b :: a :: t => exact Effect.reduces_cons (Int.add_emod a b _).symm t _ _
  | .subtract =>
      match t with
      | [] | [_] => exact .lacks
      | b :: a :: t => exact Effect.reduces_cons (Int.sub_emod a b _).symm t _ _
  | .multiply =>
      match t with
      | [] | [_] => exact .lacks
      | b :: a :: t => exact Effect.reduces_cons (Int.mul_emod a b _).symm t _ _
  | .print => cases hi
  | .divmod => cases hi

theorem Op.effect_reduces {op : Op α} (h : op.isPolynomial) (t : Stack) :
    ∃ wrapped exact, op.effect? .wrapping t.reduced = some wrapped ∧
      op.effect? .exact t = some exact ∧ Effect.Reduces wrapped exact := by
  cases op with
  | push loc value =>
      have hvalue := Arithmetic.reduce_of_fits (Arithmetic.fits_toNat value)
      exact ⟨_, _, rfl, rfl, Effect.reduces_cons hvalue.symm t [] []⟩
  | intrinsic loc i => exact ⟨_, _, rfl, rfl, Intrinsic.effect_reduces h loc t⟩
  | branch => cases h
  | loop => cases h

-- By induction on the block: the two machines lack a value at the same operation, or leave
-- stacks for the rest of the block of which one is the other reduced.
theorem Block.polynomial_cases (budget : Nat) {block : Block α}
    (hblock : ∀ op ∈ block, op.isPolynomial) (t : Stack) :
    ((execute .wrapping budget block t.reduced).ending = .finished ∧
      (execute .exact budget block t).ending = .finished ∧
      (execute .wrapping budget block t.reduced).stack =
        (execute .exact budget block t).stack.reduced) ∨
    ∃ i, Block.FailsAt .wrapping budget block t.reduced i .underflow ∧
      Block.FailsAt .exact budget block t i .underflow := by
  induction block generalizing t with
  | nil =>
      rw [execute_nil, execute_nil]
      exact .inl ⟨rfl, rfl, rfl⟩
  | cons op ops ih =>
      obtain ⟨hop, hops⟩ := List.forall_mem_cons.mp hblock
      obtain ⟨wrapped, exact, hwrapped, hexact, hreduces⟩ := Op.effect_reduces hop t
      cases hreduces with
      | lacks => exact .inr ⟨0, .first hwrapped ops, .first hexact ops⟩
      | done t' events events' =>
          rcases ih hops t' with hfinished | ⟨i, hfails, hfails'⟩
          · rw [execute_of_done hwrapped, execute_of_done hexact]
            exact .inl hfinished
          · exact .inr ⟨i + 1, hfails.cons hwrapped, hfails'.cons hexact⟩

-- Code that makes polynomials of its values lacks a value, when its sums, differences and
-- products wrap, just at the operation at which it does over unbounded integers. If it lacks
-- none, both finish, and the stack that it leaves is the exact one reduced.
theorem execute_wrapping_reduces (budget : Nat) (block : Block α)
    (hblock : ∀ op ∈ block, op.isPolynomial) (stack : Stack) (hstack : stack.Fits) :
    let wrapped := execute .wrapping budget block stack
    let exact := execute .exact budget block stack
    (∀ i, Block.FailsAt .wrapping budget block stack i .underflow ↔
      Block.FailsAt .exact budget block stack i .underflow) ∧
    ((∃ i op, Block.FailsAt .wrapping budget block stack i .underflow ∧ block[i]? = some op ∧
        wrapped.ending = .failed .underflow op.loc ∧ exact.ending = .failed .underflow op.loc) ∨
      (wrapped.ending = .finished ∧ exact.ending = .finished ∧
        wrapped.stack = exact.stack.map (· % Arithmetic.modulus))) := by
  intro wrapped exact
  have hcases := Block.polynomial_cases budget hblock stack
  rw [Stack.reduced_of_fits hstack] at hcases
  rcases hcases with ⟨hwrapped, hexact, hstacks⟩ | ⟨i, hwrapped, hexact⟩
  · refine ⟨?_, .inr ⟨hwrapped, hexact, hstacks⟩⟩
    intro i
    exact iff_of_false (Block.not_failsAt_of_finished hwrapped)
      (Block.not_failsAt_of_finished hexact)
  · refine ⟨?_, .inl ?_⟩
    · intro j
      rw [hwrapped.iff_eq, hexact.iff_eq]
    · obtain ⟨op, hop, hending⟩ := hwrapped.ending
      obtain ⟨op', hop', hending'⟩ := hexact.ending
      cases hop.symm.trans hop'
      exact ⟨i, op, hwrapped, hop, hending, hending'⟩

-- Takes a value from three, and leaves the difference and its square.
def differenceSample : Block Nat :=
  [.push 0 3, .intrinsic 1 .swap, .intrinsic 2 .subtract, .intrinsic 3 .dup, .intrinsic 4 .dup,
    .intrinsic 5 .multiply]

theorem execute_wrapping_reduces_differenceSample :
    (∀ op ∈ differenceSample, op.isPolynomial) ∧ Stack.Fits [5] ∧
    (execute .exact 0 differenceSample [5]).stack = [4, -2] ∧
    (execute .wrapping 0 differenceSample [5]).stack = [4, 18446744073709551614] ∧
    (execute .wrapping 0 differenceSample []).ending = .failed .underflow 1 ∧
    (execute .exact 0 differenceSample []).ending = .failed .underflow 1 := by
  have hblock : ∀ op ∈ differenceSample, op.isPolynomial := by decide
  have hfive : Stack.Fits [5] := by simp [Stack.Fits, Arithmetic.Fits, Arithmetic.maxValue]
  have hexact : execute .exact 0 differenceSample [5] =
      ⟨.finished, [4, -2], [.overflow 2 .subtract], 0⟩ := by decide +kernel
  have hlacks : (execute .wrapping 0 differenceSample []).ending = .failed .underflow 1 := by
    decide +kernel
  obtain ⟨_, hends⟩ := execute_wrapping_reduces 0 differenceSample hblock [5] hfive
  obtain ⟨_, hends'⟩ :=
    execute_wrapping_reduces 0 differenceSample hblock [] (List.forall_mem_nil _)
  refine ⟨hblock, hfive, by rw [hexact], ?_, hlacks, ?_⟩
  · rcases hends with ⟨i, op, _, _, _, hfailed⟩ | ⟨_, _, hstack⟩
    · simp [hexact] at hfailed
    · rw [hstack, hexact]
      decide
  · rcases hends' with ⟨i, op, _, _, hwrapped, hfailed⟩ | ⟨hfinished, _⟩
    · rw [hfailed, ← hwrapped, hlacks]
    · simp [hlacks] at hfinished

end StackLang
