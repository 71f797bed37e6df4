import StackLang.Proofs.Machine.BigStep
import StackLang.Proofs.Machine.Turns

-- The machine computes what the rules derive. A derivation for a part of the
-- program carries the machine from the frames of that part to the frames below.

namespace StackLang

variable {α : Type} {arith : Arithmetic}

-- How a machine goes on once a part of its work has come to `r`: with the
-- frames below, or not at all.
def Outcome.resume (arith : Arithmetic) (r : Outcome α) (left : Nat) (rest : List (Frame α))
    (trace : List (Event α)) : Run α :=
  match r.ending with
  | .finished => Config.run arith left ⟨rest, r.stack, r.trace.reverse ++ trace⟩
  | ending => ⟨ending, r.stack, trace.reverse ++ r.trace, left⟩

theorem Outcome.resume_after (r : Outcome α) (events : List (Event α)) (left : Nat)
    (rest : List (Frame α)) (trace : List (Event α)) :
    (r.after events).resume arith left rest trace =
      r.resume arith left rest (events.reverse ++ trace) := by
  obtain ⟨ending, s, trace', k⟩ := r
  cases ending <;> simp [Outcome.resume, Outcome.after]

theorem Outcome.resume_of_ne_finished {r : Outcome α} (h : r.ending ≠ .finished) (left : Nat)
    (rest : List (Frame α)) (trace : List (Event α)) :
    r.resume arith left rest trace = ⟨r.ending, r.stack, trace.reverse ++ r.trace, left⟩ := by
  obtain ⟨ending, s, trace', k⟩ := r
  cases ending with
  | finished => exact absurd rfl h
  | failed trap loc => rfl
  | capped => rfl

section Test

variable {frames rest yes no : List (Frame α)} {loc : α}

theorem Config.run_of_covers {k : Allowance} {n : Nat} (hn : k = .upTo n) (hk : k.covers 1)
    (hstep : ∀ s trace, Config.step arith ⟨frames, s, trace⟩ =
      Config.test ⟨frames, s, trace⟩ loc yes no rest)
    (value : Int) (s : Stack) (trace : List (Event α)) :
    Config.run arith n ⟨frames, value :: s, trace⟩ =
      Config.run arith (n - 1) ⟨(if 0 < value then yes else no) ++ rest, s,
        (conditionWarning loc value).reverse ++ trace⟩ := by
  subst hn
  obtain ⟨m, rfl⟩ : ∃ m, n = m + 1 := Nat.exists_eq_add_of_le' hk
  rw [Config.run_of_test (hstep (value :: s) trace)]
  simp only [Config.decide, conditionWarning, Nat.add_sub_cancel]
  congr 2
  · split <;> rfl
  · by_cases h : value = 0 ∨ value = 1 <;> simp [h]

theorem TestStops.run_eq {k : Allowance} {n m : Nat} {s : Stack} {r : Outcome α}
    (h : TestStops loc k s r) (hn : k = .upTo n) (hm : r.left = .upTo m)
    (hstep : ∀ s trace, Config.step arith ⟨frames, s, trace⟩ =
      Config.test ⟨frames, s, trace⟩ loc yes no rest)
    (below : List (Frame α)) (trace : List (Event α)) :
    Config.run arith n ⟨frames, s, trace⟩ = r.resume arith m below trace := by
  subst hn
  cases h with
  | underflow =>
      cases hm
      rw [Config.run_of_failed (hstep [] trace)]
      simp [Outcome.resume]
  | capped value s hk =>
      cases hm
      obtain rfl : n = 0 := by
        simp only [Allowance.covers] at hk
        omega
      rw [Config.run_of_test (hstep (value :: s) trace)]
      simp [Outcome.resume]

end Test

theorem Allowance.less_one_of_eq {k : Allowance} {n : Nat} (hn : k = .upTo n) :
    k.less 1 = .upTo (n - 1) := by
  rw [hn, Allowance.less]

-- The cases are those of the rules. The equations for the allowances are not
-- substituted, since the recursion is on the derivation as it stands.

mutual

theorem BlockRuns.run_eq {k : Allowance} {ops : Block α} {s : Stack} {r : Outcome α} :
    BlockRuns arith k ops s r → ∀ {n m : Nat}, k = .upTo n → r.left = .upTo m →
      ∀ (rest : List (Frame α)) (trace : List (Event α)),
        Config.run arith n ⟨.block ops :: rest, s, trace⟩ = r.resume arith m rest trace
  | .nil _ _, n, m, hn, hm, rest, trace => by
      obtain rfl : n = m := Allowance.upTo.inj (hn.symm.trans hm)
      exact Config.run_of_next rfl n
  | .cons hop hops, n, m, hn, hm, rest, trace => by
      obtain ⟨l, _, hl⟩ := hop.spends.left_upTo hn
      rw [hop.run_eq hn hl, Outcome.resume_after]
      exact hops.run_eq hl hm rest _
  | .stop hop hne, n, m, hn, hm, rest, trace => by
      rw [hop.run_eq hn hm, Outcome.resume_of_ne_finished hne, Outcome.resume_of_ne_finished hne]

theorem OpRuns.run_eq {k : Allowance} {op : Op α} {s : Stack} {r : Outcome α} :
    OpRuns arith k op s r → ∀ {n m : Nat}, k = .upTo n → r.left = .upTo m →
      ∀ (ops : Block α) (rest : List (Frame α)) (trace : List (Event α)),
        Config.run arith n ⟨.block (op :: ops) :: rest, s, trace⟩ =
          r.resume arith m (.block ops :: rest) trace
  | .push _ _ _ _, n, m, hn, hm, ops, rest, trace => by
      obtain rfl : n = m := Allowance.upTo.inj (hn.symm.trans hm)
      exact Config.run_of_next rfl n
  | @OpRuns.done _ _ loc i s s' events _ hrule, n, m, hn, hm, ops, rest, trace => by
      obtain rfl : n = m := Allowance.upTo.inj (hn.symm.trans hm)
      have hstep : Config.step arith ⟨.block (.intrinsic loc i :: ops) :: rest, s, trace⟩ =
          .next ⟨.block ops :: rest, s', events ++ trace⟩ := by
        simp only [Config.step, Config.runOp, hrule.eq]
      rw [Config.run_of_next hstep]
      simp [Outcome.resume]
  | @OpRuns.trapped _ _ loc i s s' trap _ hrule, n, m, hn, hm, ops, rest, trace => by
      obtain rfl : n = m := Allowance.upTo.inj (hn.symm.trans hm)
      have hstep : Config.step arith ⟨.block (.intrinsic loc i :: ops) :: rest, s, trace⟩ =
          .failed trap loc s' := by
        simp only [Config.step, Config.runOp, hrule.eq]
      rw [Config.run_of_failed hstep]
      simp [Outcome.resume]
  | .branchStop htest, n, m, hn, hm, ops, rest, trace =>
      htest.run_eq hn hm (fun _ _ => rfl) _ trace
  | .branchTrue hk hpos hbody, n, m, hn, hm, ops, rest, trace => by
      rw [Config.run_of_covers hn hk fun _ _ => rfl, if_pos hpos, Outcome.resume_after]
      exact hbody.run_eq (Allowance.less_one_of_eq hn) hm _ _
  | .branchFalse hk hpos hchain, n, m, hn, hm, ops, rest, trace => by
      rw [Config.run_of_covers hn hk fun _ _ => rfl, if_neg hpos, Outcome.resume_after]
      exact hchain.run_eq (Allowance.less_one_of_eq hn) hm _ _
  | .loop hloop, n, m, hn, hm, ops, rest, trace => by
      rw [Config.run_of_next rfl]
      exact hloop.run_eq hn hm _ trace

theorem ChainRuns.run_eq {k : Allowance} {chain : Chain α} {s : Stack} {r : Outcome α} :
    ChainRuns arith k chain s r → ∀ {n m : Nat}, k = .upTo n → r.left = .upTo m →
      ∀ (rest : List (Frame α)) (trace : List (Event α)),
        Config.run arith n ⟨chain.frames ++ rest, s, trace⟩ = r.resume arith m rest trace
  | .none _ _, n, m, hn, hm, rest, trace => by
      obtain rfl : n = m := Allowance.upTo.inj (hn.symm.trans hm)
      rfl
  | .otherwise hblock, n, m, hn, hm, rest, trace => hblock.run_eq hn hm rest trace
  | .condStop hcond hne, n, m, hn, hm, rest, trace => by
      refine (hcond.run_eq hn hm _ trace).trans ?_
      rw [Outcome.resume_of_ne_finished hne, Outcome.resume_of_ne_finished hne]
  | .testStop hcond htest, n, m, hn, hm, rest, trace => by
      obtain ⟨l, _, hl⟩ := hcond.spends.left_upTo hn
      refine (hcond.run_eq hn hl _ trace).trans ?_
      rw [Outcome.resume_after]
      exact htest.run_eq hl hm (fun _ _ => rfl) rest _
  | .linkTrue hcond hk hpos hinner, n, m, hn, hm, rest, trace => by
      obtain ⟨l, _, hl⟩ := hcond.spends.left_upTo hn
      refine (hcond.run_eq hn hl _ trace).trans ?_
      refine (Config.run_of_covers hl hk (fun _ _ => rfl) _ _ _).trans ?_
      rw [if_pos hpos, Outcome.resume_after, List.reverse_append, List.append_assoc]
      exact hinner.run_eq (Allowance.less_one_of_eq hl) hm rest _
  | .linkFalse hcond hk hpos hrest, n, m, hn, hm, rest, trace => by
      obtain ⟨l, _, hl⟩ := hcond.spends.left_upTo hn
      refine (hcond.run_eq hn hl _ trace).trans ?_
      refine (Config.run_of_covers hl hk (fun _ _ => rfl) _ _ _).trans ?_
      rw [if_neg hpos, Outcome.resume_after, List.reverse_append, List.append_assoc]
      exact hrest.run_eq (Allowance.less_one_of_eq hl) hm rest _

theorem LoopRuns.run_eq {k : Allowance} {loc : α} {cond body : Block α} {s : Stack}
    {r : Outcome α} :
    LoopRuns arith k loc cond body s r → ∀ {n m : Nat}, k = .upTo n → r.left = .upTo m →
      ∀ (rest : List (Frame α)) (trace : List (Event α)),
        Config.run arith n ⟨.block cond :: .loop loc cond body :: rest, s, trace⟩ =
          r.resume arith m rest trace
  | .condStop hcond hne, n, m, hn, hm, rest, trace => by
      rw [hcond.run_eq hn hm, Outcome.resume_of_ne_finished hne, Outcome.resume_of_ne_finished hne]
  | .testStop hcond htest, n, m, hn, hm, rest, trace => by
      obtain ⟨l, _, hl⟩ := hcond.spends.left_upTo hn
      rw [hcond.run_eq hn hl, Outcome.resume_after]
      exact htest.run_eq hl hm (fun _ _ => rfl) rest _
  | .leave hcond hk hpos, n, m, hn, hm, rest, trace => by
      obtain ⟨l, _, hl⟩ := hcond.spends.left_upTo hn
      obtain rfl : l - 1 = m :=
        Allowance.upTo.inj ((Allowance.less_one_of_eq hl).symm.trans hm)
      rw [hcond.run_eq hn hl]
      refine (Config.run_of_covers hl hk (fun _ _ => rfl) _ _ _).trans ?_
      simp [Outcome.resume, if_neg hpos]
  | .bodyStop hcond hk hpos hbody hne, n, m, hn, hm, rest, trace => by
      obtain ⟨l, _, hl⟩ := hcond.spends.left_upTo hn
      rw [hcond.run_eq hn hl]
      refine (Config.run_of_covers hl hk (fun _ _ => rfl) _ _ _).trans ?_
      rw [if_pos hpos, Outcome.resume_after, List.reverse_append, List.append_assoc]
      refine (hbody.run_eq (Allowance.less_one_of_eq hl) hm _ _).trans ?_
      rw [Outcome.resume_of_ne_finished hne, Outcome.resume_of_ne_finished hne]
  | .again hcond hk hpos hbody hloop, n, m, hn, hm, rest, trace => by
      obtain ⟨l, _, hl⟩ := hcond.spends.left_upTo hn
      obtain ⟨l', _, hl'⟩ := hbody.spends.left_upTo (Allowance.less_one_of_eq hl)
      rw [hcond.run_eq hn hl]
      refine (Config.run_of_covers hl hk (fun _ _ => rfl) _ _ _).trans ?_
      rw [if_pos hpos, Outcome.resume_after]
      refine (hbody.run_eq (Allowance.less_one_of_eq hl) hl' _ _).trans ?_
      simp only [List.reverse_append, List.append_assoc]
      exact hloop.run_eq hl' hm rest _

end

theorem Outcome.resume_ofRun (run : Run α) :
    (Outcome.ofRun run).resume arith run.left [] [] = run := by
  obtain ⟨ending, s, trace, left⟩ := run
  cases ending with
  | finished =>
      refine (Config.run_of_finished rfl left).trans ?_
      simp [Outcome.ofRun]
  | failed trap loc => simp [Outcome.resume, Outcome.ofRun]
  | capped => simp [Outcome.resume, Outcome.ofRun]

theorem BlockRuns.execute_eq {budget : Nat} {block : Block α} {s : Stack} {run : Run α}
    (h : BlockRuns arith (.upTo budget) block s (.ofRun run)) :
    execute arith budget block s = run :=
  (h.run_eq rfl rfl [] []).trans (Outcome.resume_ofRun run)

theorem execute_eq_iff {budget : Nat} {block : Block α} {s : Stack} {run : Run α} :
    execute arith budget block s = run ↔ BlockRuns arith (.upTo budget) block s (.ofRun run) := by
  constructor
  · rintro rfl
    obtain ⟨⟨ending, s', trace, left⟩, h⟩ := @BlockRuns.exists_upTo α arith block budget s
    obtain ⟨m, _, rfl : left = .upTo m⟩ := h.spends.left_upTo rfl
    have heq : execute arith budget block s = ⟨ending, s', trace, m⟩ := BlockRuns.execute_eq h
    rw [heq]
    exact h
  · exact BlockRuns.execute_eq

theorem endsIn_iff_blockRuns {block : Block α} {s s' : Stack} {ending : Ending α}
    {trace : List (Event α)} :
    Config.EndsIn arith ⟨[.block block], s, []⟩ ending s' trace ↔
      BlockRuns arith .endless block s ⟨ending, s', trace, .endless⟩ := by
  rw [Config.endsIn_iff_run, BlockRuns.endless_iff]
  refine and_congr_right fun _ => exists_congr fun n => exists_congr fun left => ?_
  exact execute_eq_iff

-- The machine and the rules agree on every result under every bound on the
-- tests, and on every result without one; and the machine runs forever just
-- where the rules derive nothing.
theorem execute_iff_blockRuns (arith : Arithmetic) (block : Block α) (stack : Stack) :
    (∀ budget run, execute arith budget block stack = run ↔
      BlockRuns arith (.upTo budget) block stack (.ofRun run)) ∧
    (∀ ending s trace, Config.EndsIn arith ⟨[.block block], stack, []⟩ ending s trace ↔
      BlockRuns arith .endless block stack ⟨ending, s, trace, .endless⟩) ∧
    (Config.RunsForever arith ⟨[.block block], stack, []⟩ ↔
      ¬∃ r, BlockRuns arith .endless block stack r) := by
  refine ⟨fun budget run => execute_eq_iff, fun ending s trace => endsIn_iff_blockRuns, ?_⟩
  rw [Config.runsForever_iff]
  apply not_congr
  constructor
  · rintro ⟨ending, s, trace, h⟩
    exact ⟨_, endsIn_iff_blockRuns.mp h⟩
  · rintro ⟨⟨ending, s, trace, left⟩, h⟩
    obtain rfl : left = .endless := h.left_of_endless
    exact ⟨ending, s, trace, endsIn_iff_blockRuns.mpr h⟩

end StackLang
