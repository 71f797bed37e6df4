import StackLang.Program.Simulate
import StackLang.Proofs.Machine.Lockstep
import StackLang.Proofs.Machine.Rules

-- A block works on the top of the stack only. What lies below the values that a run
-- uses is neither read nor changed, unless the run asks for more values than it has.

namespace StackLang

variable {α : Type} {arith : Arithmetic}

-- The same with `base` below the stack.

def Effect.onto (base : Stack) : Effect α → Effect α
  | .done s events => .done (s ++ base) events
  | .trapped trap s => .trapped trap (s ++ base)

def Config.onto (base : Stack) (c : Config α) : Config α :=
  { c with stack := c.stack ++ base }

def Turn.onto (base : Stack) : Turn α → Turn α
  | .finished => .finished
  | .failed trap loc s => .failed trap loc (s ++ base)
  | .next c => .next (c.onto base)
  | .test loc value s yes no => .test loc value (s ++ base) yes no

def Run.onto (base : Stack) (run : Run α) : Run α :=
  { run with stack := run.stack ++ base }

-- What a run reports, without what it prints.

def Event.isWarning : Event α → Bool
  | .printed _ => false
  | .overflow _ _ | .nonBinary _ _ => true

def Run.warnings (run : Run α) : List (Event α) :=
  run.trace.filter Event.isWarning

-- An intrinsic that has its operands does not see what is below them.
theorem Intrinsic.Does.onto {i : Intrinsic} {loc : α} {s : Stack} {e : Effect α}
    (h : Does arith loc i s e) (base : Stack) :
    e = .trapped .underflow [] ∨ Does arith loc i (s ++ base) (e.onto base) := by
  cases h with
  | dups a s => exact .inr (.dups a (s ++ base))
  | swaps a b s => exact .inr (.swaps a b (s ++ base))
  | drops a s => exact .inr (.drops a (s ++ base))
  | prints a s => exact .inr (.prints a (s ++ base))
  | copies a b s => exact .inr (.copies a b (s ++ base))
  | rotates a b c s => exact .inr (.rotates a b c (s ++ base))
  | adds s hfits => exact .inr (.adds (s ++ base) hfits)
  | addsOff s hoff => exact .inr (.addsOff (s ++ base) hoff)
  | subtracts s hfits => exact .inr (.subtracts (s ++ base) hfits)
  | subtractsOff s hoff => exact .inr (.subtractsOff (s ++ base) hoff)
  | multiplies a b s => exact .inr (.multiplies a b (s ++ base))
  | divides a s hdivisor => exact .inr (.divides a (s ++ base) hdivisor)
  | dividesByZero a s => exact .inr (.dividesByZero a (s ++ base))
  | lacks => exact .inl rfl

theorem Intrinsic.effect_onto (arith : Arithmetic) (i : Intrinsic) (loc : α) (s base : Stack) :
    i.effect arith loc s = .trapped .underflow [] ∨
      i.effect arith loc (s ++ base) = (i.effect arith loc s).onto base :=
  ((i.does arith loc s).onto base).imp_right Does.eq

theorem Config.test_onto (c : Config α) (base : Stack) (loc : α) (yes no rest : List (Frame α)) :
    (∃ s, c.test loc yes no rest = .failed .underflow loc s) ∨
      (c.onto base).test loc yes no rest = (c.test loc yes no rest).onto base := by
  obtain ⟨frames, stack, trace⟩ := c
  cases stack with
  | nil => exact .inl ⟨[], rfl⟩
  | cons value stack => exact .inr rfl

theorem Config.runOp_onto (arith : Arithmetic) (c : Config α) (base : Stack) (op : Op α)
    (rest : List (Frame α)) :
    (∃ loc s, c.runOp arith op rest = .failed .underflow loc s) ∨
      (c.onto base).runOp arith op rest = (c.runOp arith op rest).onto base := by
  cases op with
  | push loc value => exact .inr rfl
  | intrinsic loc i =>
      simp only [Config.runOp]
      rcases i.effect_onto arith loc c.stack base with heffect | heffect
      · rw [heffect]
        exact .inl ⟨loc, [], rfl⟩
      · have hstack : (c.onto base).stack = c.stack ++ base := rfl
        rw [hstack, heffect]
        refine .inr ?_
        cases i.effect arith loc c.stack with
        | done s events => rfl
        | trapped trap s => rfl
  | branch loc body chain => exact (c.test_onto base loc _ _ _).imp_left fun h => ⟨loc, h⟩
  | loop loc cond doLoc body => exact .inr rfl

-- A turn that does not run out of values is the same turn on top of `base`.
theorem Config.step_onto (arith : Arithmetic) (c : Config α) (base : Stack) :
    (∃ loc s, c.step arith = .failed .underflow loc s) ∨
      (c.onto base).step arith = (c.step arith).onto base := by
  obtain ⟨frames, stack, trace⟩ := c
  cases frames with
  | nil => exact .inr rfl
  | cons frame rest =>
      cases frame with
      | block ops =>
          cases ops with
          | nil => exact .inr rfl
          | cons op ops => exact Config.runOp_onto arith _ base op _
      | link loc inner chain => exact (Config.test_onto _ base loc _ _ _).imp_left fun h => ⟨loc, h⟩
      | loop loc cond body => exact (Config.test_onto _ base loc _ _ _).imp_left fun h => ⟨loc, h⟩

-- What has been shown stays shown.
theorem Config.trace_kept (arith : Arithmetic) (n : Nat) (c : Config α) :
    c.trace.reverse <+: (Config.run arith n c).trace := by
  induction n, c using Config.run_induction arith with
  | finished h => exact ⟨[], by rw [Config.run_of_finished h, List.append_nil]⟩
  | failed h => exact ⟨[], by rw [Config.run_of_failed h, List.append_nil]⟩
  | next h ih =>
      rw [Config.trace_of_next? (Config.next?_of_next h), List.reverse_append] at ih
      rw [Config.run_of_next h]
      exact (List.prefix_append _ _).trans ih
  | capped h => exact ⟨[], by rw [Config.run_of_test h, List.append_nil]⟩
  | test h ih =>
      rw [Config.trace_of_next? (Config.next?_of_test h), List.reverse_append] at ih
      rw [Config.run_of_test h]
      exact (List.prefix_append _ _).trans ih

-- Turn by turn the two runs go together, until one of them lacks a value.
theorem Config.run_onto (arith : Arithmetic) (n : Nat) (c : Config α) (base : Stack) :
    ((∃ loc, (Config.run arith n c).ending = .failed .underflow loc) ∧
      (Config.run arith n c).trace <+: (Config.run arith n (c.onto base)).trace) ∨
    Config.run arith n (c.onto base) = (Config.run arith n c).onto base := by
  induction n, c using Config.run_induction arith with
  | @finished n c h =>
      have honto := (c.step_onto arith base).resolve_left (by simp [h])
      rw [h] at honto
      rw [Config.run_of_finished h, Config.run_of_finished honto]
      exact .inr rfl
  | @failed n c trap loc s h =>
      rcases c.step_onto arith base with ⟨loc', s', hlacks⟩ | honto
      · refine .inl ?_
        rw [Config.run_of_failed hlacks]
        exact ⟨⟨loc', rfl⟩, (c.onto base).trace_kept arith n⟩
      · rw [h] at honto
        rw [Config.run_of_failed h, Config.run_of_failed honto]
        exact .inr rfl
  | @next n c c' h ih =>
      have honto := (c.step_onto arith base).resolve_left (by simp [h])
      rw [h] at honto
      rw [Config.run_of_next h, Config.run_of_next honto]
      exact ih
  | @capped c loc value s yes no h =>
      have honto := (c.step_onto arith base).resolve_left (by simp [h])
      rw [h] at honto
      rw [Config.run_of_test h, Config.run_of_test honto]
      exact .inr rfl
  | @test n c loc value s yes no h ih =>
      have honto := (c.step_onto arith base).resolve_left (by simp [h])
      rw [h] at honto
      rw [Config.run_of_test h, Config.run_of_test honto]
      exact ih

theorem Run.output_of_trace {run longer : Run α} (h : run.trace <+: longer.trace) :
    ∃ more, longer.output = run.output ++ more := by
  obtain ⟨events, hevents⟩ := h
  refine ⟨String.join (events.map Event.output), ?_⟩
  rw [Run.output, ← hevents, List.map_append, String.join_append, Run.output]

-- A run that has the values it needs runs the same on top of any others and leaves
-- those alone: it ends in the same way, at the same location, with the same trace and
-- within the same budget. A run that lacks a value has shown by then what the run on
-- top of others shows first.
theorem execute_onto_base (arith : Arithmetic) (budget : Nat) (block : Block α)
    (s base : Stack) :
    let run := execute arith budget block s
    let based := execute arith budget block (s ++ base)
    ((∀ loc, run.ending ≠ .failed .underflow loc) →
      based.ending = run.ending ∧ based.stack = run.stack ++ base ∧
        based.output = run.output ∧ based.warnings = run.warnings ∧
        based.trace = run.trace ∧ based.left = run.left) ∧
    ∀ loc, run.ending = .failed .underflow loc →
      (∃ more, based.output = run.output ++ more) ∧ run.warnings <+: based.warnings ∧
        run.trace <+: based.trace := by
  intro run based
  have hrun : ((∃ loc, run.ending = .failed .underflow loc) ∧ run.trace <+: based.trace) ∨
      based = run.onto base := Config.run_onto arith budget ⟨[.block block], s, []⟩ base
  rcases hrun with ⟨⟨loc, hunderflow⟩, htrace⟩ | hbased
  · refine ⟨fun hnot => absurd hunderflow (hnot loc), ?_⟩
    intro _ _
    exact ⟨Run.output_of_trace htrace, htrace.filter _, htrace⟩
  · have htrace : run.trace <+: (run.onto base).trace := List.prefix_refl _
    rw [hbased]
    refine ⟨fun _ => ⟨rfl, rfl, rfl, rfl, rfl, rfl⟩, ?_⟩
    intro _ _
    exact ⟨Run.output_of_trace htrace, htrace.filter _, htrace⟩

-- Counts down to zero and divides by what is below.
def countdownSample : Block Nat :=
  [.loop 0 [.intrinsic 1 .dup] (some 2) [.push 3 1, .intrinsic 4 .subtract], .intrinsic 5 .drop,
    .intrinsic 6 .divmod]

theorem execute_onto_base_countdownSample :
    (execute .wrapping 9 countdownSample [2, 0, 7]).ending = .failed .zeroDivisor 6 ∧
    (execute .wrapping 9 countdownSample ([2, 0, 7] ++ [5])).ending = .failed .zeroDivisor 6 ∧
    (execute .wrapping 9 countdownSample ([2, 0, 7] ++ [5])).stack = [] ++ [5] ∧
    (execute .wrapping 9 countdownSample [2, 7]).ending = .failed .underflow 6 ∧
    (execute .wrapping 9 countdownSample [2, 7]).warnings = [.nonBinary 2 2] ∧
    (execute .wrapping 9 countdownSample [2, 7]).warnings <+:
      (execute .wrapping 9 countdownSample ([2, 7] ++ [5])).warnings := by
  have hzero : execute .wrapping 9 countdownSample [2, 0, 7] =
      ⟨.failed .zeroDivisor 6, [], [.nonBinary 2 2], 6⟩ := by decide +kernel
  have hlacks : execute .wrapping 9 countdownSample [2, 7] =
      ⟨.failed .underflow 6, [], [.nonBinary 2 2], 6⟩ := by decide +kernel
  obtain ⟨hsame, _⟩ := execute_onto_base .wrapping 9 countdownSample [2, 0, 7] [5]
  obtain ⟨_, hfirst⟩ := execute_onto_base .wrapping 9 countdownSample [2, 7] [5]
  obtain ⟨hending, hstack, _⟩ := hsame (by simp [hzero])
  obtain ⟨_, hwarnings, _⟩ := hfirst 6 (by rw [hlacks])
  rw [hzero] at hending hstack
  rw [hlacks] at hwarnings
  rw [hzero, hlacks]
  exact ⟨rfl, hending, hstack, rfl, rfl, hwarnings⟩

end StackLang
