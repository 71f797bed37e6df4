import StackLang.Proofs.Machine.Framing
import StackLang.Proofs.Machine.Refinement

-- One block after another. The second is not seen by the first, and starts with what
-- the first leaves: its stack and the rest of its budget.

namespace StackLang

variable {α : Type} {arith : Arithmetic}

theorem Outcome.after_after (r : Outcome α) (first second : List (Event α)) :
    (r.after second).after first = r.after (first ++ second) := by
  simp only [Outcome.after, List.append_assoc]

-- A run that comes behind what has been shown before.
def Run.after (trace : List (Event α)) (run : Run α) : Run α :=
  { run with trace := trace ++ run.trace }

-- Both inductions are on the first block, whose operations run before the second is
-- reached.

theorem BlockRuns.append {k : Allowance} {a b : Block α} {s : Stack} {first r : Outcome α}
    (ha : BlockRuns arith k a s first) (hfinished : first.ending = .finished)
    (hb : BlockRuns arith first.left b first.stack r) :
    BlockRuns arith k (a ++ b) s (r.after first.trace) := by
  induction a generalizing k s first with
  | nil =>
      cases ha
      exact hb
  | cons op ops ih =>
      cases ha with
      | cons hop hops =>
          have hrest := ih hops hfinished hb
          have hwhole := BlockRuns.cons hop hrest
          rw [Outcome.after_after] at hwhole
          exact hwhole
      | stop _ hne => exact absurd hfinished hne

theorem BlockRuns.append_of_ne_finished {k : Allowance} {a : Block α} {s : Stack}
    {first : Outcome α} (ha : BlockRuns arith k a s first) (hne : first.ending ≠ .finished)
    (b : Block α) : BlockRuns arith k (a ++ b) s first := by
  induction a generalizing k s first with
  | nil =>
      cases ha
      exact absurd rfl hne
  | cons op ops ih =>
      cases ha with
      | cons hop hops => exact .cons hop (ih hops hne)
      | stop hop _ => exact .stop hop hne

section Execute

variable {budget : Nat} {a : Block α} {s : Stack}

theorem blockRuns_execute (arith : Arithmetic) (budget : Nat) (block : Block α) (s : Stack) :
    BlockRuns arith (.upTo budget) block s (.ofRun (execute arith budget block s)) :=
  execute_eq_iff.mp rfl

theorem execute_append_of_finished (h : (execute arith budget a s).ending = .finished)
    (b : Block α) :
    execute arith budget (a ++ b) s =
      (execute arith (execute arith budget a s).left b (execute arith budget a s).stack).after
        (execute arith budget a s).trace := by
  have hfirst := blockRuns_execute arith budget a s
  have hsecond := blockRuns_execute arith (execute arith budget a s).left b
    (execute arith budget a s).stack
  exact execute_eq_iff.mpr (hfirst.append h hsecond)

theorem execute_append_of_ne_finished (h : (execute arith budget a s).ending ≠ .finished)
    (b : Block α) : execute arith budget (a ++ b) s = execute arith budget a s := by
  have hfirst := blockRuns_execute arith budget a s
  exact execute_eq_iff.mpr (hfirst.append_of_ne_finished h b)

theorem execute_nil (arith : Arithmetic) (budget : Nat) (s : Stack) :
    execute arith budget ([] : Block α) s = ⟨.finished, s, [], budget⟩ :=
  execute_eq_iff.mpr (.nil (.upTo budget) s)

end Execute

-- The operations of a block, one at a time.

theorem executeEach_of_finished {budget : Nat} {op : Op α} {s : Stack}
    (h : (execute arith budget [op] s).ending = .finished) (rest : Block α) :
    executeEach arith budget (op :: rest) s = (op, execute arith budget [op] s) ::
      executeEach arith (execute arith budget [op] s).left rest
        (execute arith budget [op] s).stack := by
  simp only [executeEach, h]

theorem executeEach_of_ne_finished {budget : Nat} {op : Op α} {s : Stack}
    (h : (execute arith budget [op] s).ending ≠ .finished) (rest : Block α) :
    executeEach arith budget (op :: rest) s = [(op, execute arith budget [op] s)] := by
  simp only [executeEach]

-- How things stand after some steps, before which they stood as `start` says.
def lastOf (start : Run α) (steps : List (Op α × Run α)) : Run α :=
  (steps.getLast?.map Prod.snd).getD start

theorem lastOf_cons (start : Run α) (step : Op α × Run α) (steps : List (Op α × Run α)) :
    lastOf start (step :: steps) = lastOf step.2 steps := by
  rw [lastOf, lastOf, List.getLast?_cons]
  cases steps.getLast? <;> rfl

-- What was shown before the steps makes no difference to how things stand after them.
theorem lastOf_congr {start start' : Run α} (hending : start.ending = start'.ending)
    (hstack : start.stack = start'.stack) (hleft : start.left = start'.left)
    (steps : List (Op α × Run α)) :
    (lastOf start steps).ending = (lastOf start' steps).ending ∧
    (lastOf start steps).stack = (lastOf start' steps).stack ∧
    (lastOf start steps).left = (lastOf start' steps).left := by
  unfold lastOf
  cases steps.getLast? with
  | none => exact ⟨hending, hstack, hleft⟩
  | some last => exact ⟨rfl, rfl, rfl⟩

theorem execute_eq_lastOf (arith : Arithmetic) (budget : Nat) (block : Block α) (s : Stack) :
    let run := execute arith budget block s
    let steps := executeEach arith budget block s
    let last := lastOf ⟨.finished, s, [], budget⟩ steps
    run.ending = last.ending ∧ run.stack = last.stack ∧ run.left = last.left ∧
      run.trace = steps.flatMap fun step => step.2.trace := by
  induction block generalizing budget s with
  | nil =>
      rw [execute_nil]
      exact ⟨rfl, rfl, rfl, rfl⟩
  | cons op rest ih =>
      by_cases hfinished : (execute arith budget [op] s).ending = .finished
      · have hwhole := execute_append_of_finished hfinished rest
        rw [List.singleton_append] at hwhole
        rw [hwhole, executeEach_of_finished hfinished]
        generalize execute arith budget [op] s = first at hfinished
        obtain ⟨hending, hstack, hleft, htrace⟩ := ih first.left first.stack
        obtain ⟨hending', hstack', hleft'⟩ :=
          @lastOf_congr α ⟨.finished, first.stack, [], first.left⟩ first hfinished.symm rfl rfl
            (executeEach arith first.left rest first.stack)
        simp only [lastOf_cons, List.flatMap_cons, ← htrace]
        exact ⟨hending.trans hending', hstack.trans hstack', hleft.trans hleft', rfl⟩
      · have hwhole := execute_append_of_ne_finished hfinished rest
        rw [List.singleton_append] at hwhole
        rw [hwhole, executeEach_of_ne_finished hfinished]
        exact ⟨rfl, rfl, rfl, (List.flatMap_singleton _ _).symm⟩

-- The steps are those of the block up to the first that does not finish.
theorem executeEach_stops (arith : Arithmetic) (budget : Nat) (block : Block α) (s : Stack) :
    (executeEach arith budget block s).map Prod.fst <+: block ∧
    (∀ step ∈ (executeEach arith budget block s).dropLast, step.2.ending = .finished) ∧
    ((execute arith budget block s).ending = .finished →
      (executeEach arith budget block s).map Prod.fst = block) := by
  induction block generalizing budget s with
  | nil => exact ⟨List.nil_prefix, by simp [executeEach], fun _ => rfl⟩
  | cons op rest ih =>
      by_cases hfinished : (execute arith budget [op] s).ending = .finished
      · obtain ⟨hstart, hbefore, hall⟩ :=
          ih (execute arith budget [op] s).left (execute arith budget [op] s).stack
        have hwhole := execute_append_of_finished hfinished rest
        rw [List.singleton_append] at hwhole
        rw [executeEach_of_finished hfinished, hwhole, List.map_cons]
        refine ⟨List.cons_prefix_cons.mpr ⟨rfl, hstart⟩, ?_, ?_⟩
        · intro step hstep
          cases hsteps : executeEach arith (execute arith budget [op] s).left rest
              (execute arith budget [op] s).stack with
          | nil => simp [hsteps] at hstep
          | cons next steps =>
              rw [hsteps, List.dropLast_cons_cons, ← hsteps] at hstep
              rcases List.mem_cons.mp hstep with rfl | hstep
              · exact hfinished
              · exact hbefore step hstep
        · intro hend
          rw [hall hend]
      · have hwhole := execute_append_of_ne_finished hfinished rest
        rw [List.singleton_append] at hwhole
        rw [executeEach_of_ne_finished hfinished, hwhole]
        refine ⟨List.cons_prefix_cons.mpr ⟨rfl, List.nil_prefix⟩, by simp, ?_⟩
        intro hend
        exact absurd hend hfinished

-- What is shown in parts is shown as a whole.

theorem Run.output_of_append {run first second : Run α}
    (h : run.trace = first.trace ++ second.trace) :
    run.output = first.output ++ second.output := by
  rw [Run.output, h, List.map_append, String.join_append, Run.output, Run.output]

theorem Run.output_of_flatMap {run : Run α} {steps : List (Op α × Run α)}
    (h : run.trace = steps.flatMap fun step => step.2.trace) :
    run.output = String.join (steps.map fun step => step.2.output) := by
  rw [Run.output, h, List.map_flatMap]
  clear h
  induction steps with
  | nil => rfl
  | cons step steps ih =>
      rw [List.flatMap_cons, String.join_append, ih, List.map_cons, String.join_cons, Run.output]

-- To run one block and then another is to run the first and, if it finishes, the second
-- on what the first leaves. A first block that does not finish is all that runs. So the
-- operations of a block can be run one by one, up to the first that does not finish.
theorem execute_in_sequence (arith : Arithmetic) (budget : Nat) (a b : Block α)
    (stack : Stack) :
    let first := execute arith budget a stack
    let second := execute arith first.left b first.stack
    let whole := execute arith budget (a ++ b) stack
    let steps := executeEach arith budget a stack
    let last := lastOf ⟨.finished, stack, [], budget⟩ steps
    (first.ending = .finished →
      whole.output = first.output ++ second.output ∧
        whole.warnings = first.warnings ++ second.warnings ∧
        whole.trace = first.trace ++ second.trace ∧
        whole.ending = second.ending ∧ whole.stack = second.stack ∧ whole.left = second.left) ∧
    (first.ending ≠ .finished → whole = first) ∧
    first.output = String.join (steps.map fun step => step.2.output) ∧
    first.warnings = (steps.flatMap fun step => step.2.warnings) ∧
    first.trace = (steps.flatMap fun step => step.2.trace) ∧
    first.ending = last.ending ∧ first.stack = last.stack ∧ first.left = last.left ∧
    steps.map Prod.fst <+: a ∧ (∀ step ∈ steps.dropLast, step.2.ending = .finished) ∧
    (first.ending = .finished → steps.map Prod.fst = a) := by
  intro first second whole steps last
  obtain ⟨hending, hstack, hleft, htrace⟩ := execute_eq_lastOf arith budget a stack
  obtain ⟨hstart, hbefore, hall⟩ := executeEach_stops arith budget a stack
  refine ⟨?_, fun h => execute_append_of_ne_finished h b, Run.output_of_flatMap htrace, ?_,
    htrace, hending, hstack, hleft, hstart, hbefore, hall⟩
  · intro hfinished
    have hwhole : whole = second.after first.trace := execute_append_of_finished hfinished b
    have hshown : whole.trace = first.trace ++ second.trace := by rw [hwhole, Run.after]
    have hwarned : whole.warnings = first.warnings ++ second.warnings := by
      rw [Run.warnings, hshown, List.filter_append, Run.warnings, Run.warnings]
    refine ⟨Run.output_of_append hshown, hwarned, hshown, ?_⟩
    rw [hwhole]
    exact ⟨rfl, rfl, rfl⟩
  · rw [Run.warnings, htrace, List.filter_flatMap]
    rfl

-- Prints a remainder and divides by zero.
def remainderSample : Block Nat :=
  [.intrinsic 7 .print, .push 8 0, .intrinsic 9 .divmod]

theorem execute_in_sequence_countdownSample :
    (execute .wrapping 9 countdownSample [2, 3, 7]).ending = .finished ∧
    (execute .wrapping 9 (countdownSample ++ remainderSample) [2, 3, 7]).trace =
      [.nonBinary 2 2] ++ [.printed 1] ∧
    (execute .wrapping 9 (countdownSample ++ remainderSample) [2, 3, 7]).ending =
      .failed .zeroDivisor 9 ∧
    (execute .wrapping 2 countdownSample [2, 3, 7]).ending = .capped ∧
    execute .wrapping 2 (countdownSample ++ remainderSample) [2, 3, 7] =
      execute .wrapping 2 countdownSample [2, 3, 7] ∧
    (executeEach .wrapping 2 countdownSample [2, 3, 7]).length = 1 := by
  have hfirst : execute .wrapping 9 countdownSample [2, 3, 7] =
      ⟨.finished, [1, 2], [.nonBinary 2 2], 6⟩ := by decide +kernel
  have hsecond : execute .wrapping 6 remainderSample [1, 2] =
      ⟨.failed .zeroDivisor 9, [], [.printed 1], 6⟩ := by decide +kernel
  have hcapped : (execute .wrapping 2 countdownSample [2, 3, 7]).ending = .capped := by
    decide +kernel
  obtain ⟨hseq, _⟩ := execute_in_sequence .wrapping 9 countdownSample remainderSample [2, 3, 7]
  obtain ⟨_, hstop, _⟩ := execute_in_sequence .wrapping 2 countdownSample remainderSample [2, 3, 7]
  obtain ⟨_, _, htrace, hending, _⟩ := hseq (by rw [hfirst])
  rw [hfirst, hsecond] at htrace hending
  refine ⟨by rw [hfirst], htrace, hending, hcapped, hstop (by simp [hcapped]), ?_⟩
  decide +kernel

end StackLang
