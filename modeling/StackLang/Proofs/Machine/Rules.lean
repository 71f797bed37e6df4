import StackLang.Proofs.Machine.BigStep
import StackLang.Proofs.Machine.Turns

-- The rules of the machine: all that one turn can do, and what it shows.

namespace StackLang

variable {α : Type} {arith : Arithmetic}

-- Frames whose next turn tests a condition: where it stands, what is done if it holds and
-- if it does not, and what is done after either.
inductive Tests : List (Frame α) → α → List (Frame α) → List (Frame α) → List (Frame α) → Prop where
  | branch (loc : α) (body : Block α) (chain : Chain α) (ops : Block α) (rest : List (Frame α)) :
      Tests (.block (.branch loc body chain :: ops) :: rest) loc [.block body] chain.frames
        (.block ops :: rest)
  | link (loc : α) (inner : Block α) (chain : Chain α) (rest : List (Frame α)) :
      Tests (.link loc inner chain :: rest) loc [.block inner] chain.frames rest
  | loop (loc : α) (cond body : Block α) (rest : List (Frame α)) :
      Tests (.loop loc cond body :: rest) loc [.block body, .block cond, .loop loc cond body] []
        rest

-- All that a turn can do.
inductive Config.StepsTo (arith : Arithmetic) : Config α → Turn α → Prop where
  | finished (s : Stack) (trace : List (Event α)) : StepsTo arith ⟨[], s, trace⟩ .finished
  | leave (rest : List (Frame α)) (s : Stack) (trace : List (Event α)) :
      StepsTo arith ⟨.block [] :: rest, s, trace⟩ (.next ⟨rest, s, trace⟩)
  | push (loc : α) (value : UInt64) (ops : Block α) (rest : List (Frame α)) (s : Stack)
      (trace : List (Event α)) :
      StepsTo arith ⟨.block (.push loc value :: ops) :: rest, s, trace⟩
        (.next ⟨.block ops :: rest, value.toNat :: s, trace⟩)
  | done {loc : α} {i : Intrinsic} {s s' : Stack} {events : List (Event α)} (ops : Block α)
      (rest : List (Frame α)) (trace : List (Event α)) :
      i.Does arith loc s (.done s' events) →
      StepsTo arith ⟨.block (.intrinsic loc i :: ops) :: rest, s, trace⟩
        (.next ⟨.block ops :: rest, s', events ++ trace⟩)
  | trapped {loc : α} {i : Intrinsic} {s s' : Stack} {trap : Trap} (ops : Block α)
      (rest : List (Frame α)) (trace : List (Event α)) :
      i.Does arith loc s (.trapped trap s') →
      StepsTo arith ⟨.block (.intrinsic loc i :: ops) :: rest, s, trace⟩ (.failed trap loc s')
  | enter (loc : α) (cond : Block α) (doLoc : Option α) (body ops : Block α)
      (rest : List (Frame α)) (s : Stack) (trace : List (Event α)) :
      StepsTo arith ⟨.block (.loop loc cond doLoc body :: ops) :: rest, s, trace⟩
        (.next ⟨.block cond :: .loop (doLoc.getD loc) cond body :: .block ops :: rest, s, trace⟩)
  | lacks {frames yes no rest : List (Frame α)} {loc : α} (trace : List (Event α)) :
      Tests frames loc yes no rest → StepsTo arith ⟨frames, [], trace⟩ (.failed .underflow loc [])
  | test {frames yes no rest : List (Frame α)} {loc : α} (value : Int) (s : Stack)
      (trace : List (Event α)) :
      Tests frames loc yes no rest →
      StepsTo arith ⟨frames, value :: s, trace⟩ (.test loc value s (yes ++ rest) (no ++ rest))

theorem Tests.stepsTo {frames yes no rest : List (Frame α)} {loc : α}
    (h : Tests frames loc yes no rest) (s : Stack) (trace : List (Event α)) :
    Config.StepsTo arith ⟨frames, s, trace⟩ (Config.test ⟨frames, s, trace⟩ loc yes no rest) := by
  cases s with
  | nil => exact .lacks trace h
  | cons value s => exact .test value s trace h

theorem Config.stepsTo (arith : Arithmetic) (c : Config α) : c.StepsTo arith (c.step arith) := by
  obtain ⟨frames, s, trace⟩ := c
  cases frames with
  | nil => exact .finished s trace
  | cons frame rest =>
      cases frame with
      | link loc inner chain => exact (Tests.link loc inner chain rest).stepsTo s trace
      | loop loc cond body => exact (Tests.loop loc cond body rest).stepsTo s trace
      | block ops =>
          cases ops with
          | nil => exact .leave rest s trace
          | cons op ops =>
              cases op with
              | push loc value => exact .push loc value ops rest s trace
              | branch loc body chain =>
                  exact (Tests.branch loc body chain ops rest).stepsTo s trace
              | loop loc cond doLoc body => exact .enter loc cond doLoc body ops rest s trace
              | intrinsic loc i =>
                  obtain ⟨e, hrule⟩ := i.exists_does arith loc s
                  simp only [Config.step, Config.runOp, hrule.eq]
                  cases e with
                  | done s' events => exact .done ops rest trace hrule
                  | trapped trap s' => exact .trapped ops rest trace hrule

-- What a turn shows, in order.

def Effect.shown : Effect α → List (Event α)
  | .done _ events => events.reverse
  | .trapped _ _ => []

def Config.shows (arith : Arithmetic) (c : Config α) : List (Event α) :=
  match c.frames, c.stack with
  | .block (.intrinsic loc i :: _) :: _, s => (i.effect arith loc s).shown
  | .block (.branch loc _ _ :: _) :: _, value :: _ => conditionWarning loc value
  | .link loc _ _ :: _, value :: _ => conditionWarning loc value
  | .loop loc _ _ :: _, value :: _ => conditionWarning loc value
  | _, _ => []

theorem Tests.shows {frames yes no rest : List (Frame α)} {loc : α}
    (h : Tests frames loc yes no rest) (value : Int) (s : Stack) (trace : List (Event α)) :
    Config.shows arith ⟨frames, value :: s, trace⟩ = conditionWarning loc value := by
  cases h <;> rfl

theorem Config.trace_decide (loc : α) (value : Int) (s : Stack) (trace : List (Event α))
    (yes no : List (Frame α)) :
    (Config.decide loc value s trace yes no).trace =
      (conditionWarning loc value).reverse ++ trace := by
  by_cases h : value = 0 ∨ value = 1 <;> simp [Config.decide, conditionWarning, h]

theorem Config.trace_of_next? {c c' : Config α} (h : c.next? arith = some c') :
    c'.trace = (c.shows arith).reverse ++ c.trace := by
  have hrule := c.stepsTo arith
  rcases Config.step_of_next? h with hstep | ⟨loc, value, s, yes, no, hstep, rfl⟩
  · rw [hstep] at hrule
    cases hrule with
    | leave | push | enter => rfl
    | done ops rest trace hrule => simp [Config.shows, hrule.eq, Effect.shown]
  · rw [hstep] at hrule
    cases hrule with
    | test value s trace htests => rw [Config.trace_decide, htests.shows]

end StackLang
