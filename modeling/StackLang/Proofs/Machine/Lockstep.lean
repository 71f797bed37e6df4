import Mathlib.Data.List.Forall2
import StackLang.Proofs.Machine.Intrinsics
import StackLang.Proofs.Machine.Turns

-- Two machines with trees that differ in their locations only run in lockstep:
-- they do the same, and each reports its own location where the other does.

namespace StackLang

variable {α β : Type}

-- Trees of one shape. `rel` is asked of the locations that can be reported: those
-- of intrinsics, of `if` and `if*`, and of the `do` of a loop.

mutual

inductive Op.Alike (rel : α → β → Prop) : Op α → Op β → Prop where
  | push (a : α) (b : β) (value : UInt64) : Op.Alike rel (.push a value) (.push b value)
  | intrinsic {a : α} {b : β} (i : Intrinsic) :
      rel a b → Op.Alike rel (.intrinsic a i) (.intrinsic b i)
  | branch {a : α} {b : β} {body : List (Op α)} {body' : List (Op β)} {chain : Chain α}
      {chain' : Chain β} : rel a b → Block.Alike rel body body' → Chain.Alike rel chain chain' →
      Op.Alike rel (.branch a body chain) (.branch b body' chain')
  | loop {a : α} {b : β} {cond body : List (Op α)} {cond' body' : List (Op β)}
      {doLoc : Option α} {doLoc' : Option β} : rel (doLoc.getD a) (doLoc'.getD b) →
      Block.Alike rel cond cond' → Block.Alike rel body body' →
      Op.Alike rel (.loop a cond doLoc body) (.loop b cond' doLoc' body')

inductive Block.Alike (rel : α → β → Prop) : List (Op α) → List (Op β) → Prop where
  | nil : Block.Alike rel [] []
  | cons {op : Op α} {op' : Op β} {ops : List (Op α)} {ops' : List (Op β)} :
      Op.Alike rel op op' → Block.Alike rel ops ops' →
      Block.Alike rel (op :: ops) (op' :: ops')

inductive Chain.Alike (rel : α → β → Prop) : Chain α → Chain β → Prop where
  | none : Chain.Alike rel .none .none
  | otherwise {block : List (Op α)} {block' : List (Op β)} :
      Block.Alike rel block block' → Chain.Alike rel (.otherwise block) (.otherwise block')
  | link {cond inner : List (Op α)} {cond' inner' : List (Op β)} {a : α} {b : β}
      {rest : Chain α} {rest' : Chain β} : Block.Alike rel cond cond' → rel a b →
      Block.Alike rel inner inner' → Chain.Alike rel rest rest' →
      Chain.Alike rel (.link cond a inner rest) (.link cond' b inner' rest')

end

inductive Frame.Alike (rel : α → β → Prop) : Frame α → Frame β → Prop where
  | block {ops : Block α} {ops' : Block β} :
      Block.Alike rel ops ops' → Frame.Alike rel (.block ops) (.block ops')
  | link {a : α} {b : β} {inner : Block α} {inner' : Block β} {rest : Chain α}
      {rest' : Chain β} : rel a b → Block.Alike rel inner inner' → Chain.Alike rel rest rest' →
      Frame.Alike rel (.link a inner rest) (.link b inner' rest')
  | loop {a : α} {b : β} {cond body : Block α} {cond' body' : Block β} : rel a b →
      Block.Alike rel cond cond' → Block.Alike rel body body' →
      Frame.Alike rel (.loop a cond body) (.loop b cond' body')

abbrev Frames.Alike (rel : α → β → Prop) : List (Frame α) → List (Frame β) → Prop :=
  List.Forall₂ (Frame.Alike rel)

inductive Event.Alike (rel : α → β → Prop) : Event α → Event β → Prop where
  | printed (value : Int) : Event.Alike rel (.printed value) (.printed value)
  | overflow {a : α} {b : β} (op : Intrinsic) :
      rel a b → Event.Alike rel (.overflow a op) (.overflow b op)
  | nonBinary {a : α} {b : β} (value : Int) :
      rel a b → Event.Alike rel (.nonBinary a value) (.nonBinary b value)

abbrev Trace.Alike (rel : α → β → Prop) : List (Event α) → List (Event β) → Prop :=
  List.Forall₂ (Event.Alike rel)

structure Config.Alike (rel : α → β → Prop) (c : Config α) (c' : Config β) : Prop where
  frames : Frames.Alike rel c.frames c'.frames
  stack : c.stack = c'.stack
  trace : Trace.Alike rel c.trace c'.trace

inductive Effect.Alike (rel : α → β → Prop) : Effect α → Effect β → Prop where
  | done (s : Stack) {events : List (Event α)} {events' : List (Event β)} :
      Trace.Alike rel events events' → Effect.Alike rel (.done s events) (.done s events')
  | trapped (trap : Trap) (s : Stack) : Effect.Alike rel (.trapped trap s) (.trapped trap s)

inductive Turn.Alike (rel : α → β → Prop) : Turn α → Turn β → Prop where
  | finished : Turn.Alike rel .finished .finished
  | failed {a : α} {b : β} (trap : Trap) (s : Stack) :
      rel a b → Turn.Alike rel (.failed trap a s) (.failed trap b s)
  | next {c : Config α} {c' : Config β} :
      Config.Alike rel c c' → Turn.Alike rel (.next c) (.next c')
  | test {a : α} {b : β} (value : Int) (s : Stack) {yes no : List (Frame α)}
      {yes' no' : List (Frame β)} : rel a b → Frames.Alike rel yes yes' →
      Frames.Alike rel no no' → Turn.Alike rel (.test a value s yes no) (.test b value s yes' no')

inductive Ending.Alike (rel : α → β → Prop) : Ending α → Ending β → Prop where
  | finished : Ending.Alike rel .finished .finished
  | failed {a : α} {b : β} (trap : Trap) :
      rel a b → Ending.Alike rel (.failed trap a) (.failed trap b)
  | capped : Ending.Alike rel .capped .capped

structure Run.Alike (rel : α → β → Prop) (run : Run α) (run' : Run β) : Prop where
  ending : Ending.Alike rel run.ending run'.ending
  stack : run.stack = run'.stack
  trace : Trace.Alike rel run.trace run'.trace
  left : run.left = run'.left

variable {rel : α → β → Prop} {arith : Arithmetic}

-- The rule that holds at `a` holds at `b`, with the other place in what it reports.
theorem Intrinsic.Does.alike {a : α} {b : β} {i : Intrinsic} {s : Stack} {e : Effect α}
    (hrule : Does arith a i s e) (h : rel a b) :
    ∃ e', Does arith b i s e' ∧ Effect.Alike rel e e' := by
  cases hrule with
  | dups a s => exact ⟨_, .dups a s, .done _ .nil⟩
  | swaps a b s => exact ⟨_, .swaps a b s, .done _ .nil⟩
  | drops a s => exact ⟨_, .drops a s, .done _ .nil⟩
  | prints a s => exact ⟨_, .prints a s, .done _ (.cons (.printed a) .nil)⟩
  | copies a b s => exact ⟨_, .copies a b s, .done _ .nil⟩
  | rotates a b c s => exact ⟨_, .rotates a b c s, .done _ .nil⟩
  | adds s hfits => exact ⟨_, .adds s hfits, .done _ .nil⟩
  | addsOff s hoff => exact ⟨_, .addsOff s hoff, .done _ (.cons (.overflow _ h) .nil)⟩
  | subtracts s hfits => exact ⟨_, .subtracts s hfits, .done _ .nil⟩
  | subtractsOff s hoff => exact ⟨_, .subtractsOff s hoff, .done _ (.cons (.overflow _ h) .nil)⟩
  | multiplies a b s => exact ⟨_, .multiplies a b s, .done _ .nil⟩
  | divides a s hdivisor => exact ⟨_, .divides a s hdivisor, .done _ .nil⟩
  | dividesByZero a s => exact ⟨_, .dividesByZero a s, .trapped _ _⟩
  | lacks hlacks => exact ⟨_, .lacks hlacks, .trapped _ _⟩

theorem Intrinsic.effect_alike {a : α} {b : β} (h : rel a b) (i : Intrinsic) (s : Stack) :
    Effect.Alike rel (i.effect arith a s) (i.effect arith b s) := by
  obtain ⟨e, hrule, halike⟩ := (i.does arith a s).alike h
  rwa [hrule.eq]

theorem Chain.frames_alike {chain : Chain α} {chain' : Chain β}
    (h : Chain.Alike rel chain chain') : Frames.Alike rel chain.frames chain'.frames := by
  cases h with
  | none => exact .nil
  | otherwise hblock => exact .cons (.block hblock) .nil
  | link hcond hloc hinner hrest =>
      exact .cons (.block hcond) (.cons (.link hloc hinner hrest) .nil)

variable {c : Config α} {c' : Config β}

theorem Config.Alike.test (hc : Config.Alike rel c c') {a : α} {b : β} (hloc : rel a b)
    {yes no rest : List (Frame α)} {yes' no' rest' : List (Frame β)}
    (hyes : Frames.Alike rel yes yes') (hno : Frames.Alike rel no no')
    (hrest : Frames.Alike rel rest rest') :
    Turn.Alike rel (c.test a yes no rest) (c'.test b yes' no' rest') := by
  unfold Config.test
  rw [← hc.stack]
  cases c.stack with
  | nil => exact .failed .underflow [] hloc
  | cons value s =>
      exact .test value s hloc (List.rel_append hyes hrest) (List.rel_append hno hrest)

theorem Config.Alike.runOp (hc : Config.Alike rel c c') {op : Op α} {op' : Op β}
    (hop : Op.Alike rel op op') {rest : List (Frame α)} {rest' : List (Frame β)}
    (hrest : Frames.Alike rel rest rest') :
    Turn.Alike rel (c.runOp arith op rest) (c'.runOp arith op' rest') := by
  cases hop with
  | push a b value => exact .next ⟨hrest, congrArg (_ :: ·) hc.stack, hc.trace⟩
  | @intrinsic a b i hloc =>
      have heffect : Effect.Alike rel (i.effect arith a c.stack) (i.effect arith b c.stack) :=
        Intrinsic.effect_alike hloc i c.stack
      simp only [Config.runOp, ← hc.stack]
      generalize i.effect arith a c.stack = e, i.effect arith b c.stack = e' at heffect
      cases heffect with
      | done s hevents => exact .next ⟨hrest, rfl, List.rel_append hevents hc.trace⟩
      | trapped trap s => exact .failed trap s hloc
  | branch hloc hbody hchain =>
      exact hc.test hloc (.cons (.block hbody) .nil) (Chain.frames_alike hchain) hrest
  | loop hloc hcond hbody =>
      exact .next ⟨.cons (.block hcond) (.cons (.loop hloc hcond hbody) hrest), hc.stack, hc.trace⟩

-- Alike machines take alike turns.
theorem Config.Alike.step (hc : Config.Alike rel c c') :
    Turn.Alike rel (c.step arith) (c'.step arith) := by
  obtain ⟨frames, stack, trace⟩ := c
  obtain ⟨frames', stack', trace'⟩ := c'
  cases hc.frames with
  | nil => exact .finished
  | cons hframe hrest =>
      cases hframe with
      | block hops =>
          cases hops with
          | nil => exact .next ⟨hrest, hc.stack, hc.trace⟩
          | cons hop hops => exact hc.runOp hop (.cons (.block hops) hrest)
      | link hloc hinner hchain =>
          exact hc.test hloc (.cons (.block hinner) .nil) (Chain.frames_alike hchain) hrest
      | loop hloc hcond hbody =>
          have hagain := Frame.Alike.loop hloc hcond hbody
          exact hc.test hloc (.cons (.block hbody) (.cons (.block hcond) (.cons hagain .nil)))
            .nil hrest

theorem Config.decide_alike {a : α} {b : β} (hloc : rel a b) (value : Int) (s : Stack)
    {trace : List (Event α)} {trace' : List (Event β)} (htrace : Trace.Alike rel trace trace')
    {yes no : List (Frame α)} {yes' no' : List (Frame β)} (hyes : Frames.Alike rel yes yes')
    (hno : Frames.Alike rel no no') :
    Config.Alike rel (.decide a value s trace yes no) (.decide b value s trace' yes' no') := by
  refine ⟨?_, rfl, ?_⟩
  · simp only [Config.decide]
    by_cases hvalue : 0 < value
    · simpa only [if_pos hvalue] using hyes
    · simpa only [if_neg hvalue] using hno
  · simp only [Config.decide]
    split
    · exact htrace
    · exact .cons (.nonBinary value hloc) htrace

-- Turn by turn their runs stay alike. A turn without a test uses up work, a test uses up
-- the budget.
theorem Config.Alike.run {c : Config α} {c' : Config β} (hc : Config.Alike rel c c') (n : Nat) :
    Run.Alike rel (Config.run arith n c) (Config.run arith n c') := by
  have hturn : Turn.Alike rel (c.step arith) (c'.step arith) := hc.step
  have htrace := List.rel_reverse hc.trace
  generalize hstep : c.step arith = turn, hstep' : c'.step arith = turn' at hturn
  cases hturn with
  | finished =>
      rw [Config.run_of_finished hstep, Config.run_of_finished hstep']
      exact ⟨.finished, hc.stack, htrace, rfl⟩
  | failed trap s hloc =>
      rw [Config.run_of_failed hstep, Config.run_of_failed hstep']
      exact ⟨.failed trap hloc, rfl, htrace, rfl⟩
  | next hnext =>
      rw [Config.run_of_next hstep, Config.run_of_next hstep']
      exact hnext.run n
  | test value s hloc hyes hno =>
      rw [Config.run_of_test hstep, Config.run_of_test hstep']
      cases hn : n with
      | zero => exact ⟨.capped, rfl, htrace, rfl⟩
      | succ m => exact (Config.decide_alike hloc value s hc.trace hyes hno).run m
termination_by (n, c.work)
decreasing_by
  · exact Prod.Lex.right _ (Config.work_step hstep)
  · exact Prod.Lex.left _ _ (by omega)

theorem execute_alike {block : Block α} {block' : Block β} (h : Block.Alike rel block block')
    (budget : Nat) (stack : Stack) :
    Run.Alike rel (execute arith budget block stack) (execute arith budget block' stack) := by
  have hstart : Config.Alike rel ⟨[.block block], stack, []⟩ ⟨[.block block'], stack, []⟩ :=
    ⟨.cons (.block h) .nil, rfl, .nil⟩
  exact hstart.run budget

-- A run with other names for the locations that it reports.

def Event.map (f : α → β) : Event α → Event β
  | .printed value => .printed value
  | .overflow loc op => .overflow (f loc) op
  | .nonBinary loc value => .nonBinary (f loc) value

def Ending.map (f : α → β) : Ending α → Ending β
  | .finished => .finished
  | .failed trap loc => .failed trap (f loc)
  | .capped => .capped

def Run.map (f : α → β) (run : Run α) : Run β :=
  ⟨run.ending.map f, run.stack, run.trace.map (Event.map f), run.left⟩

variable {γ : Type} {f : α → γ} {g : β → γ}

theorem Event.Alike.map_eq {event : Event α} {event' : Event β}
    (h : Event.Alike (fun a b => f a = g b) event event') : event.map f = event'.map g := by
  cases h with
  | printed value => rfl
  | overflow op hloc => rw [Event.map, Event.map, hloc]
  | nonBinary value hloc => rw [Event.map, Event.map, hloc]

theorem Ending.Alike.map_eq {ending : Ending α} {ending' : Ending β}
    (h : Ending.Alike (fun a b => f a = g b) ending ending') : ending.map f = ending'.map g := by
  cases h with
  | finished | capped => rfl
  | failed trap hloc => rw [Ending.map, Ending.map, hloc]

-- Alike runs are one run when related locations get one name.
theorem Run.Alike.map_eq {run : Run α} {run' : Run β}
    (h : Run.Alike (fun a b => f a = g b) run run') : run.map f = run'.map g := by
  have htrace : run.trace.map (Event.map f) = run'.trace.map (Event.map g) := by
    rw [← List.forall₂_eq_eq_eq, List.forall₂_map_left_iff, List.forall₂_map_right_iff]
    exact h.trace.imp fun _ _ => Event.Alike.map_eq
  rw [Run.map, Run.map, h.ending.map_eq, h.stack, htrace, h.left]

end StackLang
