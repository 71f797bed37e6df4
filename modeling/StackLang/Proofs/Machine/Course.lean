import StackLang.Proofs.Machine.Reporting

-- The course of a run: the turns that it completes, one after another, and the state in
-- which it stops.

namespace StackLang

variable {α : Type} {arith : Arithmetic}

-- A turn that makes a test.
def Config.isTest (arith : Arithmetic) (c : Config α) : Bool :=
  match c.step arith with
  | .test _ _ _ _ _ => true
  | .finished | .failed _ _ _ | .next _ => false

-- The turns that lead from one state to another, by the states in which they are taken.
inductive Config.Leads (arith : Arithmetic) : Config α → List (Config α) → Config α → Prop where
  | stay (c : Config α) : Leads arith c [] c
  | turn {c c' last : Config α} {states : List (Config α)} :
      c.next? arith = some c' → Leads arith c' states last → Leads arith c (c :: states) last

-- What each turn keeps, the states of a course keep.
theorem Config.Leads.invariant {P : Config α → Prop}
    (hstep : ∀ {c c' : Config α}, P c → c.next? arith = some c' → P c') {c last : Config α}
    {states : List (Config α)} (h : c.Leads arith states last) (hc : P c) : P last := by
  induction h with
  | stay c => exact hc
  | turn hturn _ ih => exact ih (hstep hc hturn)

theorem Config.Leads.forall_mem {P : Config α → Prop}
    (hstep : ∀ {c c' : Config α}, P c → c.next? arith = some c' → P c') {c last : Config α}
    {states : List (Config α)} (h : c.Leads arith states last) (hc : P c) :
    ∀ state ∈ states, P state := by
  induction h with
  | stay c => exact List.forall_mem_nil _
  | turn hturn _ ih => exact List.forall_mem_cons.mpr ⟨hc, ih (hstep hc hturn)⟩

-- How a run comes out that stops in this state: no turn follows it, or a test is due and
-- none is left.
inductive Config.Stops (arith : Arithmetic) (c : Config α) : Run α → Prop where
  | finished (trace : List (Event α)) (left : Nat) :
      c.step arith = .finished → Stops arith c ⟨.finished, c.stack, trace, left⟩
  | failed {trap : Trap} {loc : α} {s : Stack} (trace : List (Event α)) (left : Nat) :
      c.step arith = .failed trap loc s → Stops arith c ⟨.failed trap loc, s, trace, left⟩
  | capped {loc : α} {value : Int} {s : Stack} {yes no : List (Frame α)}
      (trace : List (Event α)) :
      c.step arith = .test loc value s yes no → Stops arith c ⟨.capped, s, trace, 0⟩

theorem Config.Stops.step_of_failed {c : Config α} {run : Run α} {trap : Trap} {loc : α}
    (h : c.Stops arith run) (hending : run.ending = .failed trap loc) :
    c.step arith = .failed trap loc run.stack := by
  cases h with
  | finished => cases hending
  | capped => cases hending
  | failed trace left hstep =>
      cases hending
      exact hstep

-- A run within a budget, as the turns that it completes and the state in which it stops.
-- The tests among these turns are what it takes from its budget, and what they show is all
-- that it shows.
structure Course (arith : Arithmetic) (budget : Nat) (start : Config α)
    (completed : List (Config α)) (last : Config α) (run : Run α) : Prop where
  turns : start.Leads arith completed last
  tests : completed.countP (Config.isTest arith) + run.left = budget
  shown : run.trace = start.trace.reverse ++ completed.flatMap (Config.shows arith)
  stops : last.Stops arith run

namespace Course

variable {n m : Nat} {c c' last : Config α} {completed : List (Config α)} {run : Run α}

theorem of_stops (h : c.Stops arith run) (htrace : run.trace = c.trace.reverse)
    (hleft : run.left = n) : Course arith n c [] c run :=
  ⟨.stay c, by simpa using hleft, by simpa using htrace, h⟩

theorem turn (h : Course arith m c' completed last run) (hturn : c.next? arith = some c')
    (hbudget : n = m + (c.isTest arith).toNat) :
    Course arith n c (c :: completed) last run := by
  refine ⟨.turn hturn h.turns, ?_, ?_, h.stops⟩
  · have htests := h.tests
    rw [List.countP_cons, hbudget]
    cases c.isTest arith <;> simp <;> omega
  · rw [h.shown, Config.trace_of_next? hturn]
    simp

end Course

-- Every run within a budget is a finite number of turns.
theorem Config.exists_course (arith : Arithmetic) (n : Nat) (c : Config α) :
    ∃ completed last, Course arith n c completed last (Config.run arith n c) := by
  induction n, c using Config.run_induction arith with
  | @finished n c h =>
      rw [Config.run_of_finished h]
      exact ⟨[], c, .of_stops (.finished _ _ h) rfl rfl⟩
  | @failed n c trap loc s h =>
      rw [Config.run_of_failed h]
      exact ⟨[], c, .of_stops (.failed _ _ h) rfl rfl⟩
  | @next n c c' h ih =>
      obtain ⟨completed, last, hcourse⟩ := ih
      have htest : c.isTest arith = false := by simp only [Config.isTest, h]
      rw [Config.run_of_next h]
      exact ⟨c :: completed, last, hcourse.turn (Config.next?_of_next h) (by simp [htest])⟩
  | @capped c loc value s yes no h =>
      rw [Config.run_of_test h]
      exact ⟨[], c, .of_stops (.capped _ h) rfl rfl⟩
  | @test n c loc value s yes no h ih =>
      obtain ⟨completed, last, hcourse⟩ := ih
      have htest : c.isTest arith = true := by simp only [Config.isTest, h]
      rw [Config.run_of_test h]
      exact ⟨c :: completed, last, hcourse.turn (Config.next?_of_test h) (by simp [htest])⟩

end StackLang
