import StackLang.Machine.Run

-- The machine turn by turn, with no bound on the tests. Either some turn is the
-- last, or the turns go on forever.

namespace StackLang

variable {α : Type} {arith : Arithmetic}

-- A run follows the turns of its machine.

theorem Config.run_of_finished {c : Config α} (h : c.step arith = .finished) (n : Nat) :
    Config.run arith n c = ⟨.finished, c.stack, c.trace.reverse, n⟩ := by
  have hs : c.settle arith = .finished c.stack c.trace := by
    rw [Config.settle]
    split <;> simp_all
  rw [Config.run, hs]

theorem Config.run_of_failed {c : Config α} {trap : Trap} {loc : α} {s : Stack}
    (h : c.step arith = .failed trap loc s) (n : Nat) :
    Config.run arith n c = ⟨.failed trap loc, s, c.trace.reverse, n⟩ := by
  have hs : c.settle arith = .failed trap loc s c.trace := by
    rw [Config.settle]
    split <;> simp_all
  rw [Config.run, hs]

theorem Config.run_of_next {c c' : Config α} (h : c.step arith = .next c') (n : Nat) :
    Config.run arith n c = Config.run arith n c' := by
  have hs : c.settle arith = c'.settle arith := by
    rw [Config.settle]
    split <;> simp_all
  rw [Config.run, hs, ← Config.run]

theorem Config.run_of_test {c : Config α} {loc : α} {value : Int} {s : Stack}
    {yes no : List (Frame α)} (h : c.step arith = .test loc value s yes no) (n : Nat) :
    Config.run arith n c = match n with
      | 0 => ⟨.capped, s, c.trace.reverse, 0⟩
      | n + 1 => Config.run arith n (.decide loc value s c.trace yes no) := by
  have hs : c.settle arith = .test loc value s c.trace yes no := by
    rw [Config.settle]
    split <;> simp_all
  cases n with
  | zero => rw [Config.run, hs]
  | succ n => rw [Config.run, hs]

-- Induction along a run. A turn without a test uses up work, a test uses up the budget.
theorem Config.run_induction (arith : Arithmetic) {motive : Nat → Config α → Prop}
    (finished : ∀ {n c}, c.step arith = .finished → motive n c)
    (failed : ∀ {n c trap loc s}, c.step arith = .failed trap loc s → motive n c)
    (next : ∀ {n c c'}, c.step arith = .next c' → motive n c' → motive n c)
    (capped : ∀ {c loc value s yes no}, c.step arith = .test loc value s yes no → motive 0 c)
    (test : ∀ {n c loc value s yes no}, c.step arith = .test loc value s yes no →
      motive n (.decide loc value s c.trace yes no) → motive (n + 1) c)
    (n : Nat) (c : Config α) : motive n c := by
  cases h : c.step arith with
  | finished => exact finished h
  | failed trap loc s => exact failed h
  | next c' =>
      refine next h ?_
      exact Config.run_induction (motive := motive) arith finished failed next capped test n c'
  | test loc value s yes no =>
      cases hn : n with
      | zero => exact capped h
      | succ m =>
          refine test h ?_
          exact Config.run_induction (motive := motive) arith finished failed next capped test m _
termination_by (n, c.work)
decreasing_by
  · exact Prod.Lex.right _ (Config.work_step h)
  · exact Prod.Lex.left _ _ (by omega)

-- One turn, a test included; the last turn has none after it.
def Config.next? (arith : Arithmetic) (c : Config α) : Option (Config α) :=
  match c.step arith with
  | .next c' => some c'
  | .test loc value stack yes no => some (.decide loc value stack c.trace yes no)
  | .finished | .failed _ _ _ => none

theorem Config.next?_of_next {c c' : Config α} (h : c.step arith = .next c') :
    c.next? arith = some c' := by
  simp only [Config.next?, h]

theorem Config.next?_of_test {c : Config α} {loc : α} {value : Int} {s : Stack}
    {yes no : List (Frame α)} (h : c.step arith = .test loc value s yes no) :
    c.next? arith = some (.decide loc value s c.trace yes no) := by
  simp only [Config.next?, h]

theorem Config.step_of_next? {c c' : Config α} (h : c.next? arith = some c') :
    c.step arith = .next c' ∨ ∃ loc value s yes no,
      c.step arith = .test loc value s yes no ∧ c' = .decide loc value s c.trace yes no := by
  cases hstep : c.step arith with
  | finished => simp [Config.next?, hstep] at h
  | failed => simp [Config.next?, hstep] at h
  | next c'' =>
      rw [Config.next?_of_next hstep] at h
      cases h
      exact .inl rfl
  | test loc value s yes no =>
      rw [Config.next?_of_test hstep] at h
      cases h
      exact .inr ⟨loc, value, s, yes, no, rfl, rfl⟩

-- The turns come to an end, with this ending, stack and trace.
inductive Config.EndsIn (arith : Arithmetic) :
    Config α → Ending α → Stack → List (Event α) → Prop where
  | finished {c : Config α} :
      c.step arith = .finished → EndsIn arith c .finished c.stack c.trace.reverse
  | failed {c : Config α} {trap : Trap} {loc : α} {s : Stack} :
      c.step arith = .failed trap loc s → EndsIn arith c (.failed trap loc) s c.trace.reverse
  | turn {c c' : Config α} {ending : Ending α} {s : Stack} {trace : List (Event α)} :
      c.next? arith = some c' → EndsIn arith c' ending s trace → EndsIn arith c ending s trace

def Config.RunsForever (arith : Arithmetic) (c : Config α) : Prop :=
  ∃ turns : Nat → Config α, turns 0 = c ∧ ∀ i, (turns i).next? arith = some (turns (i + 1))

-- A run that is not cut short shows how the turns end.
theorem Config.capped_or_endsIn (arith : Arithmetic) (n : Nat) (c : Config α) :
    (Config.run arith n c).ending = .capped ∨
      c.EndsIn arith (Config.run arith n c).ending (Config.run arith n c).stack
        (Config.run arith n c).trace := by
  induction n, c using Config.run_induction arith with
  | finished h =>
      rw [Config.run_of_finished h]
      exact .inr (.finished h)
  | failed h =>
      rw [Config.run_of_failed h]
      exact .inr (.failed h)
  | next h ih =>
      rw [Config.run_of_next h]
      exact ih.imp id (.turn (Config.next?_of_next h))
  | capped h =>
      rw [Config.run_of_test h]
      exact .inl rfl
  | test h ih =>
      rw [Config.run_of_test h]
      exact ih.imp id (.turn (Config.next?_of_test h))

theorem Config.EndsIn.exists_run {c : Config α} {ending : Ending α} {s : Stack}
    {trace : List (Event α)} (h : c.EndsIn arith ending s trace) :
    ending ≠ .capped ∧ ∃ n left, Config.run arith n c = ⟨ending, s, trace, left⟩ := by
  induction h with
  | finished hstep => exact ⟨by simp, 0, 0, Config.run_of_finished hstep 0⟩
  | failed hstep => exact ⟨by simp, 0, 0, Config.run_of_failed hstep 0⟩
  | @turn c c' ending s trace hturn _ ih =>
      obtain ⟨hne, n, left, hrun⟩ := ih
      refine ⟨hne, ?_⟩
      rcases Config.step_of_next? hturn with hstep | ⟨_, _, _, _, _, hstep, rfl⟩
      · exact ⟨n, left, (Config.run_of_next hstep n).trans hrun⟩
      · exact ⟨n + 1, left, (Config.run_of_test hstep (n + 1)).trans hrun⟩

theorem Config.endsIn_iff_run {c : Config α} {ending : Ending α} {s : Stack}
    {trace : List (Event α)} :
    c.EndsIn arith ending s trace ↔
      ending ≠ .capped ∧ ∃ n left, Config.run arith n c = ⟨ending, s, trace, left⟩ := by
  constructor
  · exact Config.EndsIn.exists_run
  · rintro ⟨hne, n, left, hrun⟩
    have h := Config.capped_or_endsIn arith n c
    rw [hrun] at h
    exact h.resolve_left hne

theorem Config.EndsIn.not_runsForever {c : Config α} {ending : Ending α} {s : Stack}
    {trace : List (Event α)} (h : c.EndsIn arith ending s trace) : ¬c.RunsForever arith := by
  induction h with
  | finished hstep =>
      rintro ⟨turns, rfl, hturns⟩
      have hfirst := hturns 0
      simp [Config.next?, hstep] at hfirst
  | failed hstep =>
      rintro ⟨turns, rfl, hturns⟩
      have hfirst := hturns 0
      simp [Config.next?, hstep] at hfirst
  | turn hturn _ ih =>
      rintro ⟨turns, rfl, hturns⟩
      have hsecond := Option.some.inj (hturn.symm.trans (hturns 0))
      exact ih ⟨fun i => turns (i + 1), hsecond.symm, fun i => hturns (i + 1)⟩

-- Where no turn is the last, each has one after it, and that goes on likewise.
theorem Config.exists_next_of_not_endsIn {c : Config α}
    (h : ¬∃ ending s trace, c.EndsIn arith ending s trace) :
    ∃ c', c.next? arith = some c' ∧ ¬∃ ending s trace, c'.EndsIn arith ending s trace := by
  cases hturn : c.next? arith with
  | some c' =>
      refine ⟨c', rfl, ?_⟩
      rintro ⟨ending, s, trace, hends⟩
      exact h ⟨ending, s, trace, .turn hturn hends⟩
  | none =>
      cases hstep : c.step arith with
      | finished => exact absurd ⟨_, _, _, .finished hstep⟩ h
      | failed trap loc s => exact absurd ⟨_, _, _, .failed hstep⟩ h
      | next c' => simp [Config.next?, hstep] at hturn
      | test => simp [Config.next?, hstep] at hturn

def Config.afterTurns (arith : Arithmetic) (c : Config α) : Nat → Config α
  | 0 => c
  | i + 1 => ((c.afterTurns arith i).next? arith).getD (c.afterTurns arith i)

theorem Config.runsForever_iff {c : Config α} :
    c.RunsForever arith ↔ ¬∃ ending s trace, c.EndsIn arith ending s trace := by
  constructor
  · rintro h ⟨ending, s, trace, hends⟩
    exact hends.not_runsForever h
  · intro hnot
    have hall : ∀ i, ¬∃ ending s trace, (c.afterTurns arith i).EndsIn arith ending s trace := by
      intro i
      induction i with
      | zero => exact hnot
      | succ i ih =>
          obtain ⟨c', hturn, hc'⟩ := Config.exists_next_of_not_endsIn ih
          rwa [Config.afterTurns, hturn, Option.getD_some]
    refine ⟨c.afterTurns arith, rfl, fun i => ?_⟩
    obtain ⟨c', hturn, _⟩ := Config.exists_next_of_not_endsIn (hall i)
    rw [Config.afterTurns, hturn, Option.getD_some]

theorem Config.afterTurns_of_next? {c c' : Config α} (h : c.next? arith = some c') (k : Nat) :
    c.afterTurns arith (k + 1) = c'.afterTurns arith k := by
  induction k with
  | zero => simp only [Config.afterTurns, h, Option.getD_some]
  | succ k ih => rw [Config.afterTurns, ih, Config.afterTurns]

-- What each turn keeps, any number of them keep.
theorem Config.afterTurns_invariant {P : Config α → Prop}
    (hstep : ∀ {c c' : Config α}, P c → c.next? arith = some c' → P c') {c : Config α} (h : P c)
    (k : Nat) : P (c.afterTurns arith k) := by
  induction k with
  | zero => exact h
  | succ k ih =>
      rw [Config.afterTurns]
      cases hnext : (c.afterTurns arith k).next? arith with
      | none => exact ih
      | some c' => exact hstep ih hnext

-- A run is made of turns: some number of them leaves its trace, and if it fails, then in
-- the turn after these.
theorem Config.exists_turns (arith : Arithmetic) (n : Nat) (c : Config α) :
    ∃ k, (Config.run arith n c).trace = (c.afterTurns arith k).trace.reverse ∧
      ∀ trap loc, (Config.run arith n c).ending = .failed trap loc →
        (c.afterTurns arith k).step arith = .failed trap loc (Config.run arith n c).stack := by
  induction n, c using Config.run_induction arith with
  | finished h =>
      refine ⟨0, ?_⟩
      rw [Config.run_of_finished h]
      exact ⟨rfl, fun _ _ hending => by cases hending⟩
  | failed h =>
      refine ⟨0, ?_⟩
      rw [Config.run_of_failed h]
      refine ⟨rfl, ?_⟩
      rintro _ _ ⟨⟩
      exact h
  | next h ih =>
      obtain ⟨k, hk⟩ := ih
      refine ⟨k + 1, ?_⟩
      rw [Config.run_of_next h, Config.afterTurns_of_next? (Config.next?_of_next h)]
      exact hk
  | capped h =>
      refine ⟨0, ?_⟩
      rw [Config.run_of_test h]
      exact ⟨rfl, fun _ _ hending => by cases hending⟩
  | test h ih =>
      obtain ⟨k, hk⟩ := ih
      refine ⟨k + 1, ?_⟩
      rw [Config.run_of_test h, Config.afterTurns_of_next? (Config.next?_of_test h)]
      exact hk

end StackLang
