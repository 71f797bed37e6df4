import StackLang.Proofs.Machine.Course
import StackLang.Proofs.Machine.Exactness
import StackLang.Proofs.Program.Failures

-- The range of the values. Whatever programs run one after another on a stack, and however
-- each of them ends, the stack holds values of 64 bits only.

namespace StackLang

variable {α : Type}

-- The stack that a turn leaves.
def Turn.Fits : Turn α → Prop
  | .finished => True
  | .next c => c.stack.Fits
  | .failed _ _ s | .test _ _ s _ _ => s.Fits

theorem Config.step_fits {c : Config α} (h : c.stack.Fits) : (c.step .wrapping).Fits := by
  have hrule := c.stepsTo .wrapping
  generalize c.step .wrapping = turn at hrule
  cases hrule with
  | finished => trivial
  | leave | enter => exact h
  | push loc value => exact Stack.fits_cons.mpr ⟨Arithmetic.fits_toNat value, h⟩
  | done ops rest trace hrule => exact hrule.fits h
  | trapped ops rest trace hrule => exact hrule.fits h
  | lacks => exact h
  | test value s => exact (Stack.fits_cons.mp h).2

theorem Config.next?_fits {c c' : Config α} (h : c.stack.Fits)
    (hturn : c.next? .wrapping = some c') : c'.stack.Fits := by
  have hfits := Config.step_fits h
  rcases Config.step_of_next? hturn with hstep | ⟨loc, value, s, yes, no, hstep, rfl⟩
  · rw [hstep] at hfits
    exact hfits
  · rw [hstep] at hfits
    exact hfits

theorem Config.Stops.fits {c : Config α} {run : Run α} (h : c.Stops .wrapping run)
    (hc : c.stack.Fits) : run.stack.Fits := by
  have hfits := Config.step_fits hc
  cases h with
  | finished => exact hc
  | failed _ _ hstep =>
      rw [hstep] at hfits
      exact hfits
  | capped _ hstep =>
      rw [hstep] at hfits
      exact hfits

-- However a program ends, it leaves values in range where it found some.
theorem execute_fits (budget : Nat) (block : Block α) {stack : Stack} (h : stack.Fits) :
    (execute .wrapping budget block stack).stack.Fits := by
  obtain ⟨completed, last, hcourse⟩ :=
    (Config.initial block stack).exists_course .wrapping budget
  have hlast : last.stack.Fits :=
    hcourse.turns.invariant (P := fun c => c.stack.Fits) Config.next?_fits h
  exact hcourse.stops.fits hlast

-- The stack that programs leave which follow one another on it, each with its own budget.
def stackAfter (arith : Arithmetic) (stack : Stack) (programs : List (Nat × Block α)) : Stack :=
  programs.foldl (fun s program => (execute arith program.1 program.2 s).stack) stack

theorem stackAfter_fits {stack : Stack} (h : stack.Fits) (programs : List (Nat × Block α)) :
    (stackAfter .wrapping stack programs).Fits := by
  induction programs generalizing stack with
  | nil => exact h
  | cons program rest ih => exact ih (execute_fits program.1 program.2 h)

theorem simulate_fits (given : String) (state : FileState) (budget : Nat) {stack : Stack}
    (h : stack.Fits) {run : Run Location}
    (hrun : (simulate given state budget stack).value = .ok run) : run.stack.Fits := by
  rw [simulate_value] at hrun
  cases hloaded : (loadFile given state).value with
  | error failure => simp [hloaded, Except.map] at hrun
  | ok root =>
      simp only [hloaded, Except.map, Except.ok.injEq] at hrun
      subst hrun
      exact execute_fits budget root h

theorem session_fits (budget : Nat) {stack : Stack} (h : stack.Fits)
    (sources : List (String × FileState)) :
    ∀ step ∈ session budget stack sources, step.stack.Fits := by
  induction sources generalizing stack with
  | nil => simp [session]
  | cons source rest ih =>
      obtain ⟨given, state⟩ := source
      simp only [session]
      cases hvalue : (simulate given state budget stack).value with
      | error failure => exact List.forall_mem_cons.mpr ⟨h, ih h⟩
      | ok run =>
          have hrun := simulate_fits given state budget h hvalue
          exact List.forall_mem_cons.mpr ⟨hrun, ih hrun⟩

-- Whatever programs have run before, each to its end, to a failure or as far as its budget
-- went: after any number of turns of the next program, and once that has ended in whatever
-- way, the values on the stack are in range. So they are for programs that are loaded from
-- their sources, whether or not all of these load.
theorem stack_fits_throughout :
    (∀ (programs : List (Nat × Block α)) (block : Block α),
      (∀ k, ((Config.initial block (stackAfter .wrapping [] programs)).afterTurns
        .wrapping k).stack.Fits) ∧
      ∀ budget, (execute .wrapping budget block (stackAfter .wrapping [] programs)).stack.Fits) ∧
    ∀ budget sources, ∀ step ∈ session budget [] sources, step.stack.Fits := by
  have hempty : Stack.Fits [] := List.forall_mem_nil _
  refine ⟨fun programs block => ?_, fun budget => session_fits budget hempty⟩
  have hstart := stackAfter_fits hempty programs
  constructor
  · intro k
    exact Config.afterTurns_invariant (P := fun c => c.stack.Fits) Config.next?_fits hstart k
  · intro budget
    exact execute_fits budget block hstart

-- The first program leaves the largest value, the second squares it and fails, the third
-- does not load, and the fourth is cut short.
def wrappedSample : List (String × FileState) :=
  [("p1", .regular "0 1 -".toUTF8.toList), ("p2", .regular "dup * 7 0 divmod".toUTF8.toList),
    ("p3", .regular "if".toUTF8.toList), ("p4", .regular "while 1 do 3 - end".toUTF8.toList)]

theorem stack_fits_throughout_wrappedSample :
    (session 2 [] wrappedSample).map SessionStep.stack =
      [[18446744073709551615], [1], [1], [18446744073709551611]] ∧
    ∀ step ∈ session 2 [] wrappedSample, step.stack.Fits :=
  ⟨by decide +kernel, (@stack_fits_throughout Nat).2 2 wrappedSample⟩

end StackLang
