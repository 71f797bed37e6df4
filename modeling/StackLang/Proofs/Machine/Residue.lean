import StackLang.Proofs.Machine.Course

-- What a run that fails leaves behind. Operands are taken before anything is checked, so
-- that a turn which lacks a value has taken all there were.

namespace StackLang

variable {α : Type} {arith : Arithmetic}

theorem Intrinsic.effect_trapped {i : Intrinsic} {loc : α} {s s' : Stack} {trap : Trap}
    (h : i.effect arith loc s = .trapped trap s') :
    (trap = .underflow ∧ s' = [] ∧ s.length < i.operands) ∨
      (trap = .zeroDivisor ∧ i = .divmod ∧ ∃ a, s = 0 :: a :: s') := by
  cases Intrinsic.effect_eq_iff.mp h with
  | lacks hlacks => exact .inl ⟨rfl, rfl, hlacks⟩
  | dividesByZero a => exact .inr ⟨rfl, rfl, a, rfl⟩

-- How many values the next turn takes.
def Config.operands (c : Config α) : Nat :=
  match c.frames with
  | .block (.intrinsic _ i :: _) :: _ => i.operands
  | .block (.branch _ _ _ :: _) :: _ | .link _ _ _ :: _ | .loop _ _ _ :: _ => 1
  | _ => 0

theorem Tests.operands {frames yes no rest : List (Frame α)} {loc : α}
    (h : Tests frames loc yes no rest) (s : Stack) (trace : List (Event α)) :
    Config.operands ⟨frames, s, trace⟩ = 1 := by
  cases h <;> rfl

-- The two ways in which a turn fails, and what it leaves of the stack.
theorem Config.step_failed {c : Config α} {trap : Trap} {loc : α} {s : Stack}
    (h : c.step arith = .failed trap loc s) :
    (trap = .underflow ∧ s = [] ∧ c.stack.length < c.operands) ∨
      (trap = .zeroDivisor ∧
        (∃ ops rest, c.frames = .block (.intrinsic loc .divmod :: ops) :: rest) ∧
        ∃ a, c.stack = 0 :: a :: s) := by
  have hrule := c.stepsTo arith
  rw [h] at hrule
  cases hrule with
  | trapped ops rest trace hrule =>
      rcases Intrinsic.effect_trapped hrule.eq with ⟨htrap, hs, hlacks⟩ | ⟨htrap, rfl, hs⟩
      · exact .inl ⟨htrap, hs, hlacks⟩
      · exact .inr ⟨htrap, ⟨ops, rest, rfl⟩, hs⟩
  | lacks trace htests =>
      refine .inl ⟨rfl, rfl, ?_⟩
      rw [htests.operands]
      exact Nat.zero_lt_one

-- A run that fails stops in a turn that is due to the token at the location of the failure.
-- A turn that lacks a value needs more of them than there were when it began, and leaves the
-- stack empty; one that divides by zero is a `divmod`, and leaves what was below its operands.
-- What the run shows is what the turns before it show, and its diagnostic has no notes.
theorem execute_failed_leaves (arith : Arithmetic) (budget : Nat) (block : Block α)
    (stack : Stack) (trap : Trap) (loc : α) :
    let run := execute arith budget block stack
    run.ending = .failed trap loc →
    ∃ completed last,
      Course arith budget (Config.initial block stack) completed last run ∧
      last.step arith = .failed trap loc run.stack ∧
      (∃ t, last.token? = some t ∧ t.loc = loc ∧ trap.At t.lexeme) ∧
      (trap = .underflow → run.stack = [] ∧ last.stack.length < last.operands) ∧
      (trap = .zeroDivisor →
        (∃ ops rest, last.frames = .block (.intrinsic loc .divmod :: ops) :: rest) ∧
        ∃ a, last.stack = 0 :: a :: run.stack) ∧
      run.trace = completed.flatMap (Config.shows arith) ∧
      run.diagnostic? = some ⟨trap.cause, some loc, []⟩ := by
  intro run h
  obtain ⟨completed, last, hcourse⟩ : ∃ completed last,
      Course arith budget (Config.initial block stack) completed last run :=
    (Config.initial block stack).exists_course arith budget
  have hstep := hcourse.stops.step_of_failed h
  have hat := last.step_at arith
  rw [hstep] at hat
  refine ⟨completed, last, hcourse, hstep, hat, ?_, ?_, hcourse.shown, ?_⟩
  · rintro rfl
    rcases Config.step_failed hstep with ⟨_, hleft, hlacks⟩ | ⟨htrap, _⟩
    · exact ⟨hleft, hlacks⟩
    · cases htrap
  · rintro rfl
    rcases Config.step_failed hstep with ⟨htrap, _⟩ | ⟨_, hdivmod⟩
    · cases htrap
    · exact hdivmod
  · rw [Run.diagnostic?, h]
    rfl

theorem execute_failed_leaves_countdownSample :
    (execute .wrapping 9 countdownSample [2, 7]).ending = .failed .underflow 6 ∧
    (execute .wrapping 9 countdownSample [2, 7]).trace = [.nonBinary 2 2] ∧
    (∃ completed last, Course .wrapping 9 (Config.initial countdownSample [2, 7]) completed last
        (execute .wrapping 9 countdownSample [2, 7]) ∧
      last.stack.length < last.operands ∧
      [.nonBinary 2 2] = completed.flatMap (Config.shows .wrapping)) ∧
    (execute .wrapping 9 countdownSample [2, 0, 7, 5]).ending = .failed .zeroDivisor 6 ∧
    (execute .wrapping 9 countdownSample [2, 0, 7, 5]).stack = [5] ∧
    ∃ completed last, Course .wrapping 9 (Config.initial countdownSample [2, 0, 7, 5]) completed
        last (execute .wrapping 9 countdownSample [2, 0, 7, 5]) ∧
      ∃ a, last.stack = 0 :: a :: [5] := by
  have hlacks : execute .wrapping 9 countdownSample [2, 7] =
      ⟨.failed .underflow 6, [], [.nonBinary 2 2], 6⟩ := by decide +kernel
  have hzero : execute .wrapping 9 countdownSample [2, 0, 7, 5] =
      ⟨.failed .zeroDivisor 6, [5], [.nonBinary 2 2], 6⟩ := by decide +kernel
  obtain ⟨completed, last, hcourse, _, _, hunder, _, hshown, _⟩ :=
    execute_failed_leaves .wrapping 9 countdownSample [2, 7] .underflow 6 (by rw [hlacks])
  obtain ⟨completed', last', hcourse', _, _, _, hdivides, _, _⟩ :=
    execute_failed_leaves .wrapping 9 countdownSample [2, 0, 7, 5] .zeroDivisor 6 (by rw [hzero])
  obtain ⟨_, hneeds⟩ := hunder rfl
  obtain ⟨_, hoperands⟩ := hdivides rfl
  rw [hlacks] at hcourse hshown ⊢
  rw [hzero] at hcourse' hoperands ⊢
  exact ⟨rfl, rfl, ⟨completed, last, hcourse, hneeds, hshown⟩, rfl, rfl, completed', last',
    hcourse', hoperands⟩

end StackLang
