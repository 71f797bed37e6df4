import StackLang.Machine.Run
import StackLang.Proofs.Machine.Intrinsics

-- The recursive semantics of blocks, without a machine: rules that say what a
-- block comes to in terms of its parts.

namespace StackLang

variable {α : Type}

-- How many tests of conditions may still be made.
inductive Allowance where
  | endless
  | upTo (tests : Nat)

namespace Allowance

def covers : Allowance → Nat → Prop
  | .endless, _ => True
  | .upTo tests, used => used ≤ tests

def less : Allowance → Nat → Allowance
  | .endless, _ => .endless
  | .upTo tests, used => .upTo (tests - used)

@[simp] theorem covers_zero (k : Allowance) : k.covers 0 := by
  cases k <;> simp [covers]

@[simp] theorem less_zero (k : Allowance) : k.less 0 = k := by
  cases k <;> simp [less]

theorem covers_add {k : Allowance} {m n : Nat} :
    k.covers (m + n) ↔ k.covers m ∧ (k.less m).covers n := by
  cases k with
  | endless => simp [covers, less]
  | upTo tests =>
      simp only [covers, less]
      omega

theorem less_add (k : Allowance) (m n : Nat) : k.less (m + n) = (k.less m).less n := by
  cases k with
  | endless => rfl
  | upTo tests =>
      simp only [less, upTo.injEq]
      omega

end Allowance

-- What evaluation comes to; the trace is in the order of execution.
structure Outcome (α : Type) where
  ending : Ending α
  stack : Stack
  trace : List (Event α)
  left : Allowance

def Outcome.after (trace : List (Event α)) (r : Outcome α) : Outcome α :=
  { r with trace := trace ++ r.trace }

def Outcome.ofRun (run : Run α) : Outcome α :=
  ⟨run.ending, run.stack, run.trace, .upTo run.left⟩

-- A condition other than zero and one is reported.
def conditionWarning (loc : α) (value : Int) : List (Event α) :=
  if value = 0 ∨ value = 1 then [] else [.nonBinary loc value]

-- A test that is not made: there is nothing to test, or no test is left. The
-- value is taken off the stack even so.
inductive TestStops (loc : α) : Allowance → Stack → Outcome α → Prop where
  | underflow (k : Allowance) : TestStops loc k [] ⟨.failed .underflow loc, [], [], k⟩
  | capped {k : Allowance} (value : Int) (s : Stack) :
      ¬k.covers 1 → TestStops loc k (value :: s) ⟨.capped, s, [], k⟩

mutual

-- Operations run in order, and the first that does not finish is the last.
inductive BlockRuns (arith : Arithmetic) : Allowance → Block α → Stack → Outcome α → Prop where
  | nil (k : Allowance) (s : Stack) : BlockRuns arith k [] s ⟨.finished, s, [], k⟩
  | cons {k k' : Allowance} {op : Op α} {ops : Block α} {s s' : Stack} {trace : List (Event α)}
      {r : Outcome α} :
      OpRuns arith k op s ⟨.finished, s', trace, k'⟩ → BlockRuns arith k' ops s' r →
      BlockRuns arith k (op :: ops) s (r.after trace)
  | stop {k : Allowance} {op : Op α} {ops : Block α} {s : Stack} {r : Outcome α} :
      OpRuns arith k op s r → r.ending ≠ .finished → BlockRuns arith k (op :: ops) s r

-- An `if` takes a value and tests it: its body runs if that is above zero, and
-- its chain if it is not.
inductive OpRuns (arith : Arithmetic) : Allowance → Op α → Stack → Outcome α → Prop where
  | push (k : Allowance) (loc : α) (value : UInt64) (s : Stack) :
      OpRuns arith k (.push loc value) s ⟨.finished, value.toNat :: s, [], k⟩
  | done {loc : α} {i : Intrinsic} {s s' : Stack} {events : List (Event α)} (k : Allowance) :
      i.Does arith loc s (.done s' events) →
      OpRuns arith k (.intrinsic loc i) s ⟨.finished, s', events.reverse, k⟩
  | trapped {loc : α} {i : Intrinsic} {s s' : Stack} {trap : Trap} (k : Allowance) :
      i.Does arith loc s (.trapped trap s') →
      OpRuns arith k (.intrinsic loc i) s ⟨.failed trap loc, s', [], k⟩
  | branchStop {k : Allowance} {loc : α} {body : Block α} {chain : Chain α} {s : Stack}
      {r : Outcome α} :
      TestStops loc k s r → OpRuns arith k (.branch loc body chain) s r
  | branchTrue {k : Allowance} {loc : α} {body : Block α} {chain : Chain α} {value : Int}
      {s : Stack} {r : Outcome α} :
      k.covers 1 → 0 < value → BlockRuns arith (k.less 1) body s r →
      OpRuns arith k (.branch loc body chain) (value :: s) (r.after (conditionWarning loc value))
  | branchFalse {k : Allowance} {loc : α} {body : Block α} {chain : Chain α} {value : Int}
      {s : Stack} {r : Outcome α} :
      k.covers 1 → ¬0 < value → ChainRuns arith (k.less 1) chain s r →
      OpRuns arith k (.branch loc body chain) (value :: s) (r.after (conditionWarning loc value))
  | loop {k : Allowance} {loc : α} {cond body : Block α} {doLoc : Option α} {s : Stack}
      {r : Outcome α} :
      LoopRuns arith k (doLoc.getD loc) cond body s r →
      OpRuns arith k (.loop loc cond doLoc body) s r

-- The links are tried in order: the condition of a link runs, and its value is
-- tested. The first that holds runs its block, and none after it is tried.
inductive ChainRuns (arith : Arithmetic) : Allowance → Chain α → Stack → Outcome α → Prop where
  | none (k : Allowance) (s : Stack) : ChainRuns arith k .none s ⟨.finished, s, [], k⟩
  | otherwise {k : Allowance} {block : Block α} {s : Stack} {r : Outcome α} :
      BlockRuns arith k block s r → ChainRuns arith k (.otherwise block) s r
  | condStop {k : Allowance} {cond inner : Block α} {loc : α} {rest : Chain α} {s : Stack}
      {r : Outcome α} :
      BlockRuns arith k cond s r → r.ending ≠ .finished →
      ChainRuns arith k (.link cond loc inner rest) s r
  | testStop {k k' : Allowance} {cond inner : Block α} {loc : α} {rest : Chain α}
      {s s' : Stack} {trace : List (Event α)} {r : Outcome α} :
      BlockRuns arith k cond s ⟨.finished, s', trace, k'⟩ → TestStops loc k' s' r →
      ChainRuns arith k (.link cond loc inner rest) s (r.after trace)
  | linkTrue {k k' : Allowance} {cond inner : Block α} {loc : α} {rest : Chain α} {value : Int}
      {s s' : Stack} {trace : List (Event α)} {r : Outcome α} :
      BlockRuns arith k cond s ⟨.finished, value :: s', trace, k'⟩ → k'.covers 1 → 0 < value →
      BlockRuns arith (k'.less 1) inner s' r →
      ChainRuns arith k (.link cond loc inner rest) s
        (r.after (trace ++ conditionWarning loc value))
  | linkFalse {k k' : Allowance} {cond inner : Block α} {loc : α} {rest : Chain α} {value : Int}
      {s s' : Stack} {trace : List (Event α)} {r : Outcome α} :
      BlockRuns arith k cond s ⟨.finished, value :: s', trace, k'⟩ → k'.covers 1 → ¬0 < value →
      ChainRuns arith (k'.less 1) rest s' r →
      ChainRuns arith k (.link cond loc inner rest) s
        (r.after (trace ++ conditionWarning loc value))

-- A `while` runs its condition and tests the value; if that holds, it runs its
-- body and starts again.
inductive LoopRuns (arith : Arithmetic) :
    Allowance → α → Block α → Block α → Stack → Outcome α → Prop where
  | condStop {k : Allowance} {loc : α} {cond body : Block α} {s : Stack} {r : Outcome α} :
      BlockRuns arith k cond s r → r.ending ≠ .finished → LoopRuns arith k loc cond body s r
  | testStop {k k' : Allowance} {loc : α} {cond body : Block α} {s s' : Stack}
      {trace : List (Event α)} {r : Outcome α} :
      BlockRuns arith k cond s ⟨.finished, s', trace, k'⟩ → TestStops loc k' s' r →
      LoopRuns arith k loc cond body s (r.after trace)
  | leave {k k' : Allowance} {loc : α} {cond body : Block α} {value : Int} {s s' : Stack}
      {trace : List (Event α)} :
      BlockRuns arith k cond s ⟨.finished, value :: s', trace, k'⟩ → k'.covers 1 → ¬0 < value →
      LoopRuns arith k loc cond body s
        ⟨.finished, s', trace ++ conditionWarning loc value, k'.less 1⟩
  | bodyStop {k k' : Allowance} {loc : α} {cond body : Block α} {value : Int} {s s' : Stack}
      {trace : List (Event α)} {r : Outcome α} :
      BlockRuns arith k cond s ⟨.finished, value :: s', trace, k'⟩ → k'.covers 1 → 0 < value →
      BlockRuns arith (k'.less 1) body s' r → r.ending ≠ .finished →
      LoopRuns arith k loc cond body s (r.after (trace ++ conditionWarning loc value))
  | again {k k' k'' : Allowance} {loc : α} {cond body : Block α} {value : Int}
      {s s' s'' : Stack} {trace trace' : List (Event α)} {r : Outcome α} :
      BlockRuns arith k cond s ⟨.finished, value :: s', trace, k'⟩ → k'.covers 1 → 0 < value →
      BlockRuns arith (k'.less 1) body s' ⟨.finished, s'', trace', k''⟩ →
      LoopRuns arith k'' loc cond body s'' r →
      LoopRuns arith k loc cond body s
        (r.after (trace ++ conditionWarning loc value ++ trace'))

end

-- How evaluation depends on its allowance: it uses up a number of tests, and
-- unless it is cut short, any allowance for these tests leads to the same.
def Spends (runs : Allowance → Outcome α → Prop) (k : Allowance) (r : Outcome α) : Prop :=
  ∃ used, k.covers used ∧ r.left = k.less used ∧ (r.ending = .capped → ¬r.left.covers 1) ∧
    (r.ending ≠ .capped → ∀ k', k'.covers used → runs k' { r with left := k'.less used })

namespace Spends

variable {P Q R : Allowance → Outcome α → Prop} {k : Allowance} {first r whole : Outcome α}

theorem nothing (hleft : r.left = k) (hending : r.ending ≠ .capped)
    (h : ∀ k', R k' { r with left := k' }) : Spends R k r := by
  refine ⟨0, by simp, by simpa using hleft, fun hc => absurd hc hending, ?_⟩
  intro _ k' _
  simpa using h k'

theorem imp (hp : Spends P k r) (hending : whole.ending = r.ending) (hleft : whole.left = r.left)
    (h : ∀ k' left, P k' { r with left := left } → R k' { whole with left := left }) :
    Spends R k whole := by
  obtain ⟨used, hcovers, hr, hcapped, hruns⟩ := hp
  refine ⟨used, hcovers, hleft.trans hr, by rwa [hending, hleft], ?_⟩
  intro hne k' hk'
  exact h k' _ (hruns (by rwa [← hending]) k' hk')

-- One part after another: what the second ends with is what the whole ends with.
theorem seq (hp : Spends P k first) (hq : Spends Q first.left r)
    (hfinished : first.ending = .finished) (hending : whole.ending = r.ending)
    (hleft : whole.left = r.left)
    (h : ∀ k₁ k₂ left, P k₁ { first with left := k₂ } → Q k₂ { r with left := left } →
      R k₁ { whole with left := left }) : Spends R k whole := by
  obtain ⟨m, hm, hfirst, _, hp⟩ := hp
  obtain ⟨n, hn, hr, hcapped, hq⟩ := hq
  rw [hfirst] at hn hr
  refine ⟨m + n, Allowance.covers_add.mpr ⟨hm, hn⟩, ?_, by rwa [hending, hleft], ?_⟩
  · rw [hleft, hr, Allowance.less_add]
  · intro hne k' hk'
    obtain ⟨hk₁, hk₂⟩ := Allowance.covers_add.mp hk'
    rw [Allowance.less_add]
    exact h _ _ _ (hp (by simp [hfinished]) k' hk₁) (hq (by rwa [← hending]) _ hk₂)

-- A test that is made, and what follows it.
theorem test (hk : k.covers 1) (hq : Spends Q (k.less 1) r) :
    Spends (fun k r => k.covers 1 ∧ Q (k.less 1) r) k r := by
  obtain ⟨n, hn, hr, hcapped, hq⟩ := hq
  refine ⟨1 + n, Allowance.covers_add.mpr ⟨hk, hn⟩, ?_, hcapped, ?_⟩
  · rw [hr, Allowance.less_add]
  · intro hne k' hk'
    obtain ⟨hk₁, hk₂⟩ := Allowance.covers_add.mp hk'
    rw [Allowance.less_add]
    exact ⟨hk₁, hq hne _ hk₂⟩

end Spends

variable {arith : Arithmetic}

theorem TestStops.spends {loc : α} {k : Allowance} {s : Stack} {r : Outcome α}
    (h : TestStops loc k s r) : Spends (fun k r => TestStops loc k s r) k r := by
  cases h with
  | underflow => exact .nothing rfl (by simp) fun k' => .underflow k'
  | capped value s hk =>
      exact ⟨0, by simp, by simp, fun _ => hk, fun hne => absurd rfl hne⟩

mutual

theorem BlockRuns.spends {k : Allowance} {ops : Block α} {s : Stack} {r : Outcome α} :
    BlockRuns arith k ops s r → Spends (fun k r => BlockRuns arith k ops s r) k r
  | .nil _ s => .nothing rfl (by simp) fun k' => .nil k' s
  | .cons hop hops => .seq hop.spends hops.spends rfl rfl rfl fun _ _ _ h₁ h₂ => .cons h₁ h₂
  | .stop hop hne => hop.spends.imp rfl rfl fun _ _ h => .stop h hne

theorem OpRuns.spends {k : Allowance} {op : Op α} {s : Stack} {r : Outcome α} :
    OpRuns arith k op s r → Spends (fun k r => OpRuns arith k op s r) k r
  | .push _ loc value s => .nothing rfl (by simp) fun k' => .push k' loc value s
  | .done _ hrule => .nothing rfl (by simp) fun k' => .done k' hrule
  | .trapped _ hrule => .nothing rfl (by simp) fun k' => .trapped k' hrule
  | .branchStop htest => htest.spends.imp rfl rfl fun _ _ h => .branchStop h
  | .branchTrue hk hpos hbody =>
      .imp (.test hk hbody.spends) rfl rfl fun _ _ h => .branchTrue h.1 hpos h.2
  | .branchFalse hk hpos hchain =>
      .imp (.test hk hchain.spends) rfl rfl fun _ _ h => .branchFalse h.1 hpos h.2
  | .loop hloop => hloop.spends.imp rfl rfl fun _ _ h => .loop h

theorem ChainRuns.spends {k : Allowance} {chain : Chain α} {s : Stack} {r : Outcome α} :
    ChainRuns arith k chain s r → Spends (fun k r => ChainRuns arith k chain s r) k r
  | .none _ s => .nothing rfl (by simp) fun k' => .none k' s
  | .otherwise hblock => hblock.spends.imp rfl rfl fun _ _ h => .otherwise h
  | .condStop hcond hne => hcond.spends.imp rfl rfl fun _ _ h => .condStop h hne
  | .testStop hcond htest =>
      .seq hcond.spends htest.spends rfl rfl rfl fun _ _ _ h₁ h₂ => .testStop h₁ h₂
  | .linkTrue hcond hk hpos hinner =>
      .seq hcond.spends (.test hk hinner.spends) rfl rfl rfl
        fun _ _ _ h₁ h₂ => .linkTrue h₁ h₂.1 hpos h₂.2
  | .linkFalse hcond hk hpos hrest =>
      .seq hcond.spends (.test hk hrest.spends) rfl rfl rfl
        fun _ _ _ h₁ h₂ => .linkFalse h₁ h₂.1 hpos h₂.2

theorem LoopRuns.spends {k : Allowance} {loc : α} {cond body : Block α} {s : Stack}
    {r : Outcome α} :
    LoopRuns arith k loc cond body s r →
      Spends (fun k r => LoopRuns arith k loc cond body s r) k r
  | .condStop hcond hne => hcond.spends.imp rfl rfl fun _ _ h => .condStop h hne
  | .testStop hcond htest =>
      .seq hcond.spends htest.spends rfl rfl rfl fun _ _ _ h₁ h₂ => .testStop h₁ h₂
  | @LoopRuns.leave _ _ k k' loc cond body value s s' trace hcond hk hpos => by
      have hend : Spends (fun k r => r.left = k) (k'.less 1)
          (⟨.finished, s', [], k'.less 1⟩ : Outcome α) :=
        .nothing rfl (by simp) fun _ => rfl
      refine .seq hcond.spends (.test hk hend) rfl rfl rfl ?_
      rintro k₁ k₂ left h₁ ⟨hk₂, rfl⟩
      exact .leave h₁ hk₂ hpos
  | .bodyStop hcond hk hpos hbody hne =>
      .seq hcond.spends (.test hk hbody.spends) rfl rfl rfl
        fun _ _ _ h₁ h₂ => .bodyStop h₁ h₂.1 hpos h₂.2 hne
  | @LoopRuns.again _ _ k k' k'' loc cond body value s s' s'' trace trace' r hcond hk hpos hbody
      hloop => by
      have hrest : Spends (fun k r => ∃ k₂, (k.covers 1 ∧
          BlockRuns arith (k.less 1) body s' ⟨.finished, s'', trace', k₂⟩) ∧
          LoopRuns arith k₂ loc cond body s'' r) k' r :=
        .seq (.test hk hbody.spends) hloop.spends rfl rfl rfl
          fun _ k₂ _ h₁ h₂ => ⟨k₂, h₁, h₂⟩
      refine .seq hcond.spends hrest rfl rfl rfl ?_
      rintro k₁ k₂ left h₁ ⟨k₃, ⟨hk₂, hbody'⟩, hloop'⟩
      exact .again h₁ hk₂ hpos hbody' hloop'

end

theorem Spends.left_upTo {runs : Allowance → Outcome α → Prop} {k : Allowance} {n : Nat}
    {r : Outcome α} (h : Spends runs k r) (hn : k = .upTo n) : ∃ m ≤ n, r.left = .upTo m := by
  subst hn
  obtain ⟨used, _, hleft, _⟩ := h
  exact ⟨n - used, Nat.sub_le n used, hleft⟩

theorem testStops_or_covers (loc : α) (k : Allowance) (s : Stack) :
    (∃ r, TestStops loc k s r) ∨ ∃ value s', s = value :: s' ∧ k.covers 1 := by
  cases s with
  | nil => exact .inl ⟨_, .underflow k⟩
  | cons value s =>
      by_cases hk : k.covers 1
      · exact .inr ⟨value, s, rfl, hk⟩
      · exact .inl ⟨_, .capped value s hk⟩

-- Each turn of a loop uses up a test, so that a bounded loop comes to an end
-- if its condition and its body do.
theorem LoopRuns.exists_upTo (loc : α) {cond body : Block α}
    (hcond : ∀ n s, ∃ r, BlockRuns arith (.upTo n) cond s r)
    (hbody : ∀ n s, ∃ r, BlockRuns arith (.upTo n) body s r) (n : Nat) (s : Stack) :
    ∃ r, LoopRuns arith (.upTo n) loc cond body s r := by
  induction n using Nat.strongRecOn generalizing s with
  | _ n ih =>
      obtain ⟨⟨ending, s₁, trace, left⟩, hc⟩ := hcond n s
      obtain ⟨m, hm, rfl : left = .upTo m⟩ := hc.spends.left_upTo rfl
      by_cases hfinished : ending = .finished
      · subst hfinished
        obtain ⟨r, htest⟩ | ⟨value, s₂, rfl, hk⟩ := testStops_or_covers loc (.upTo m) s₁
        · exact ⟨_, .testStop hc htest⟩
        · by_cases hpos : 0 < value
          · obtain ⟨⟨ending, s₃, trace', left⟩, hb⟩ := hbody (m - 1) s₂
            obtain ⟨l, hl, rfl : left = .upTo l⟩ := hb.spends.left_upTo rfl
            by_cases hfinished : ending = .finished
            · subst hfinished
              have hlt : l < n := by
                simp only [Allowance.covers] at hk
                omega
              obtain ⟨r, hloop⟩ := ih l hlt s₃
              exact ⟨_, .again hc hk hpos hb hloop⟩
            · exact ⟨_, .bodyStop hc hk hpos hb hfinished⟩
          · exact ⟨_, .leave hc hk hpos⟩
      · exact ⟨_, .condStop hc hfinished⟩

mutual

theorem BlockRuns.exists_upTo : (ops : List (Op α)) → (n : Nat) → (s : Stack) →
    ∃ r, BlockRuns arith (.upTo n) ops s r
  | [], n, s => ⟨_, .nil (.upTo n) s⟩
  | op :: ops, n, s => by
      obtain ⟨⟨ending, s₁, trace, left⟩, hop⟩ := OpRuns.exists_upTo op n s
      obtain ⟨m, _, rfl : left = .upTo m⟩ := hop.spends.left_upTo rfl
      by_cases hfinished : ending = .finished
      · subst hfinished
        obtain ⟨r, hops⟩ := BlockRuns.exists_upTo ops m s₁
        exact ⟨_, .cons hop hops⟩
      · exact ⟨_, .stop hop hfinished⟩

theorem OpRuns.exists_upTo : (op : Op α) → (n : Nat) → (s : Stack) →
    ∃ r, OpRuns arith (.upTo n) op s r
  | .push loc value, n, s => ⟨_, .push (.upTo n) loc value s⟩
  | .intrinsic loc i, n, s => by
      obtain ⟨e, hrule⟩ := i.exists_does arith loc s
      cases e with
      | done s' events => exact ⟨_, .done (.upTo n) hrule⟩
      | trapped trap s' => exact ⟨_, .trapped (.upTo n) hrule⟩
  | .branch loc body chain, n, s => by
      obtain ⟨r, htest⟩ | ⟨value, s₁, rfl, hk⟩ := testStops_or_covers loc (.upTo n) s
      · exact ⟨r, .branchStop htest⟩
      · by_cases hpos : 0 < value
        · obtain ⟨r, hbody⟩ := BlockRuns.exists_upTo body (n - 1) s₁
          exact ⟨_, .branchTrue hk hpos hbody⟩
        · obtain ⟨r, hchain⟩ := ChainRuns.exists_upTo chain (n - 1) s₁
          exact ⟨_, .branchFalse hk hpos hchain⟩
  | .loop loc cond doLoc body, n, s => by
      obtain ⟨r, hloop⟩ := LoopRuns.exists_upTo (doLoc.getD loc)
        (BlockRuns.exists_upTo cond) (BlockRuns.exists_upTo body) n s
      exact ⟨r, .loop hloop⟩

theorem ChainRuns.exists_upTo : (chain : Chain α) → (n : Nat) → (s : Stack) →
    ∃ r, ChainRuns arith (.upTo n) chain s r
  | .none, n, s => ⟨_, .none (.upTo n) s⟩
  | .otherwise block, n, s => by
      obtain ⟨r, hblock⟩ := BlockRuns.exists_upTo block n s
      exact ⟨r, .otherwise hblock⟩
  | .link cond loc inner rest, n, s => by
      obtain ⟨⟨ending, s₁, trace, left⟩, hcond⟩ := BlockRuns.exists_upTo cond n s
      obtain ⟨m, _, rfl : left = .upTo m⟩ := hcond.spends.left_upTo rfl
      by_cases hfinished : ending = .finished
      · subst hfinished
        obtain ⟨r, htest⟩ | ⟨value, s₂, rfl, hk⟩ := testStops_or_covers loc (.upTo m) s₁
        · exact ⟨_, .testStop hcond htest⟩
        · by_cases hpos : 0 < value
          · obtain ⟨r, hinner⟩ := BlockRuns.exists_upTo inner (m - 1) s₂
            exact ⟨_, .linkTrue hcond hk hpos hinner⟩
          · obtain ⟨r, hrest⟩ := ChainRuns.exists_upTo rest (m - 1) s₂
            exact ⟨_, .linkFalse hcond hk hpos hrest⟩
      · exact ⟨_, .condStop hcond hfinished⟩

end

theorem BlockRuns.left_of_endless {ops : Block α} {s : Stack} {r : Outcome α}
    (h : BlockRuns arith .endless ops s r) : r.left = .endless := by
  obtain ⟨used, _, hleft, _⟩ := h.spends
  exact hleft

-- What comes to an end without a bound does so within some bound.
theorem BlockRuns.endless_iff {ops : Block α} {s s' : Stack} {ending : Ending α}
    {trace : List (Event α)} :
    BlockRuns arith .endless ops s ⟨ending, s', trace, .endless⟩ ↔
      ending ≠ .capped ∧
        ∃ n left, BlockRuns arith (.upTo n) ops s ⟨ending, s', trace, .upTo left⟩ := by
  constructor
  · intro h
    obtain ⟨used, _, _, hcapped, hruns⟩ := h.spends
    have hne : ending ≠ .capped := fun hc => hcapped hc trivial
    exact ⟨hne, used, used - used, hruns hne (.upTo used) (Nat.le_refl used)⟩
  · rintro ⟨hne, n, left, h⟩
    obtain ⟨used, _, _, _, hruns⟩ := h.spends
    exact hruns hne .endless trivial

end StackLang
