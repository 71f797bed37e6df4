import StackLang.Proofs.Machine.Reporting

-- Wrapping arithmetic is exact until it says otherwise. A machine that wraps and one over
-- unbounded integers go through the same states up to the first sum or difference that is
-- off the range of values, and that one is reported.

namespace StackLang

variable {α : Type}

-- The values of 64 bits.
def Arithmetic.Fits (value : Int) : Prop :=
  0 ≤ value ∧ value ≤ maxValue

def Stack.Fits (s : Stack) : Prop :=
  ∀ value ∈ s, Arithmetic.Fits value

theorem Stack.fits_cons {value : Int} {s : Stack} :
    Stack.Fits (value :: s) ↔ Arithmetic.Fits value ∧ Stack.Fits s :=
  List.forall_mem_cons

theorem Arithmetic.reduce_of_fits {value : Int} (h : Fits value) :
    wrapping.reduce value = value := by
  obtain ⟨hlow, hhigh⟩ := h
  apply Int.emod_eq_of_lt hlow
  simp only [maxValue] at hhigh
  simp only [modulus]
  omega

theorem Arithmetic.fits_toNat (value : UInt64) : Fits (value.toNat : Int) := by
  have hlt := value.toNat_lt
  simp only [Fits, maxValue]
  omega

theorem Arithmetic.fits_reduce (value : Int) : Fits (wrapping.reduce value) := by
  have hlow := Int.emod_nonneg value (by decide : modulus ≠ 0)
  have hhigh := Int.emod_lt_of_pos value (by decide : 0 < modulus)
  refine ⟨hlow, ?_⟩
  simp only [modulus] at hhigh
  simp only [wrapping, modulus, maxValue]
  omega

theorem Arithmetic.fits_divmod {a b : Int} (ha : Fits a) (hb : Fits b) (hne : b ≠ 0) :
    Fits (Int.fmod a b) ∧ Fits (Int.fdiv a b) := by
  obtain ⟨halow, hahigh⟩ := ha
  obtain ⟨hblow, hbhigh⟩ := hb
  have hmodlow := Int.emod_nonneg a hne
  have hmodhigh := Int.emod_lt_of_pos a (by omega : 0 < b)
  have hdivlow := Int.ediv_nonneg halow hblow
  have hdivhigh := Int.ediv_le_self b halow
  rw [Int.fmod_eq_emod_of_nonneg a hblow, Int.fdiv_eq_ediv_of_nonneg a hblow]
  exact ⟨⟨hmodlow, by omega⟩, hdivlow, by omega⟩

def Effect.Fits : Effect α → Prop
  | .done s _ | .trapped _ s => s.Fits

theorem Intrinsic.Does.fits {i : Intrinsic} {loc : α} {s : Stack} {e : Effect α}
    (h : Does .wrapping loc i s e) (hs : s.Fits) : e.Fits := by
  cases h with
  -- Values are taken, moved and copied.
  | dups | swaps | drops | prints | copies | rotates | dividesByZero =>
      simp only [Stack.fits_cons] at hs
      simp only [Effect.Fits, Stack.fits_cons, hs, and_self]
  -- New values are made.
  | adds s | addsOff s | subtracts s | subtractsOff s | multiplies _ _ s =>
      obtain ⟨_, _, hs⟩ : _ ∧ _ ∧ Stack.Fits s := by simpa only [Stack.fits_cons] using hs
      exact Stack.fits_cons.mpr ⟨Arithmetic.fits_reduce _, hs⟩
  | divides a s hdivisor =>
      obtain ⟨hb, ha, hs⟩ : _ ∧ _ ∧ Stack.Fits s := by simpa only [Stack.fits_cons] using hs
      obtain ⟨hmod, hdiv⟩ := Arithmetic.fits_divmod ha hb hdivisor
      exact Stack.fits_cons.mpr ⟨hmod, Stack.fits_cons.mpr ⟨hdiv, hs⟩⟩
  | lacks => exact List.forall_mem_nil _

-- Where an intrinsic occurs in a tree, at any depth.

mutual

def Op.uses (i : Intrinsic) : Op α → Bool
  | .push _ _ => false
  | .intrinsic _ name => name = i
  | .branch _ body chain => Block.uses i body || Chain.uses i chain
  | .loop _ cond _ body => Block.uses i cond || Block.uses i body

def Block.uses (i : Intrinsic) : List (Op α) → Bool
  | [] => false
  | op :: ops => Op.uses i op || Block.uses i ops

def Chain.uses (i : Intrinsic) : Chain α → Bool
  | .none => false
  | .otherwise block => Block.uses i block
  | .link cond _ inner rest => Block.uses i cond || (Block.uses i inner || Chain.uses i rest)

end

def Frame.uses (i : Intrinsic) : Frame α → Bool
  | .block ops => Block.uses i ops
  | .link _ inner rest => Block.uses i inner || Chain.uses i rest
  | .loop _ cond body => Block.uses i cond || Block.uses i body

-- What is left to be done is free of the intrinsic.
def Free (i : Intrinsic) (frames : List (Frame α)) : Prop :=
  ∀ frame ∈ frames, frame.uses i = false

def Event.isOverflow : Event α → Bool
  | .overflow _ _ => true
  | .printed _ | .nonBinary _ _ => false

def Quiet (trace : List (Event α)) : Prop :=
  ∀ e ∈ trace, e.isOverflow = false

-- A machine in which nothing has gone off the range so far, and no product can.
structure Config.InRange (c : Config α) : Prop where
  free : Free .multiply c.frames
  fits : c.stack.Fits
  quiet : Quiet c.trace

def Turn.InRange : Turn α → Prop
  | .finished | .failed _ _ _ => True
  | .next c => c.InRange
  | .test _ _ s yes no => s.Fits ∧ Free .multiply yes ∧ Free .multiply no

def Effect.InRange : Effect α → Prop
  | .done s events => s.Fits ∧ Quiet events
  | .trapped _ _ => True

theorem free_cons {i : Intrinsic} {frame : Frame α} {rest : List (Frame α)} :
    Free i (frame :: rest) ↔ frame.uses i = false ∧ Free i rest :=
  List.forall_mem_cons

theorem free_nil {i : Intrinsic} : Free i ([] : List (Frame α)) :=
  List.forall_mem_nil _

theorem free_block {i : Intrinsic} {ops : Block α} :
    Free i [Frame.block ops] ↔ Block.uses i ops = false :=
  List.forall_mem_singleton

theorem free_append {i : Intrinsic} {a b : List (Frame α)} (ha : Free i a) (hb : Free i b) :
    Free i (a ++ b) :=
  List.forall_mem_append.mpr ⟨ha, hb⟩

theorem Chain.free_frames {i : Intrinsic} {chain : Chain α} (h : chain.uses i = false) :
    Free i chain.frames := by
  cases chain with
  | none => simp [Free, Chain.frames]
  | otherwise block => simpa [Free, Chain.frames, Frame.uses, Chain.uses] using h
  | link cond loc inner rest => simpa [Free, Chain.frames, Frame.uses, Chain.uses] using h

-- The result of a sum or difference of two values.
def Intrinsic.result : Intrinsic → Int → Int → Option Int
  | .plus, a, b => some (a + b)
  | .subtract, a, b => some (a - b)
  | _, _, _ => none

theorem Intrinsic.Does.stays {i : Intrinsic} {loc : α} {s s' : Stack} {events : List (Event α)}
    (h : Does .wrapping loc i s (.done s' events)) (hs : s.Fits) (hquiet : Quiet events) :
    Does .wrapping loc i s (.done s' events) ∧ Effect.InRange (.done s' events) :=
  ⟨h, h.fits hs, hquiet⟩

-- Two values make no sum below the range and no difference above it, so that the one
-- comparison which is made of each tells whether it is off the range.
theorem Intrinsic.Does.inRange {i : Intrinsic} {loc : α} {s : Stack} {e : Effect α}
    (h : Does .exact loc i s e) (hi : i ≠ .multiply) (hs : s.Fits) :
    (Does .wrapping loc i s e ∧ e.InRange) ∨
    ∃ a b rest exact, s = b :: a :: rest ∧ i.result a b = some exact ∧
      ¬Arithmetic.Fits exact ∧ ∀ arith : Arithmetic,
        Does arith loc i s (.done (arith.reduce exact :: rest) [.overflow loc i]) := by
  have hquiet : Quiet ([] : List (Event α)) := by simp [Quiet]
  cases h with
  | dups a s => exact .inl (Does.stays (.dups a s) hs hquiet)
  | swaps a b s => exact .inl (Does.stays (.swaps a b s) hs hquiet)
  | drops a s => exact .inl (Does.stays (.drops a s) hs hquiet)
  | prints a s => exact .inl (Does.stays (.prints a s) hs (by simp [Quiet, Event.isOverflow]))
  | copies a b s => exact .inl (Does.stays (.copies a b s) hs hquiet)
  | rotates a b c s => exact .inl (Does.stays (.rotates a b c s) hs hquiet)
  | @adds a b s hsum =>
      have hfits : Arithmetic.Fits (a + b) := by
        simp only [Stack.fits_cons, Arithmetic.Fits] at hs ⊢
        omega
      have hrule : Does .wrapping loc .plus (b :: a :: s) _ := .adds s hsum
      rw [Arithmetic.reduce_of_fits hfits] at hrule
      exact .inl (hrule.stays hs hquiet)
  | @addsOff a b s hoff =>
      have hfits : ¬Arithmetic.Fits (a + b) := by
        simp only [Arithmetic.Fits]
        omega
      exact .inr ⟨a, b, s, a + b, rfl, rfl, hfits, fun _ => .addsOff s hoff⟩
  | @subtracts a b s hle =>
      have hfits : Arithmetic.Fits (a - b) := by
        simp only [Stack.fits_cons, Arithmetic.Fits] at hs ⊢
        omega
      have hrule : Does .wrapping loc .subtract (b :: a :: s) _ := .subtracts s hle
      rw [Arithmetic.reduce_of_fits hfits] at hrule
      exact .inl (hrule.stays hs hquiet)
  | @subtractsOff a b s hless =>
      have hfits : ¬Arithmetic.Fits (a - b) := by
        simp only [Arithmetic.Fits]
        omega
      exact .inr ⟨a, b, s, a - b, rfl, rfl, hfits, fun _ => .subtractsOff s hless⟩
  | multiplies => exact absurd rfl hi
  | divides a s hdivisor => exact .inl (Does.stays (.divides a s hdivisor) hs hquiet)
  | dividesByZero a s => exact .inl ⟨.dividesByZero a s, trivial⟩
  | lacks hlacks => exact .inl ⟨.lacks hlacks, trivial⟩

-- The next turn is a sum or difference off the range.
structure Config.Overflows (c : Config α) (loc : α) (op : Intrinsic) (a b exact : Int) : Prop where
  at_op : ∃ ops rest, c.frames = .block (.intrinsic loc op :: ops) :: rest
  operands : ∃ s, c.stack = b :: a :: s
  result : op.result a b = some exact
  off : ¬Arithmetic.Fits exact

theorem Config.InRange.test {c : Config α} (h : c.InRange) (loc : α)
    {yes no rest : List (Frame α)} (hyes : Free .multiply yes) (hno : Free .multiply no)
    (hrest : Free .multiply rest) : (c.test loc yes no rest).InRange := by
  obtain ⟨frames, stack, trace⟩ := c
  cases stack with
  | nil => trivial
  | cons value stack =>
      exact ⟨(Stack.fits_cons.mp h.fits).2, free_append hyes hrest, free_append hno hrest⟩

-- A turn that is the same in both arithmetics and stays in range.
def Config.StepsExactly (c : Config α) : Prop :=
  c.step .exact = c.step .wrapping ∧ (c.step .wrapping).InRange

-- In either arithmetic the turn reports that it goes off the range.
def Config.StepsOff (c : Config α) : Prop :=
  ∃ loc op a b exact, c.Overflows loc op a b exact ∧
    ∀ arith : Arithmetic, ∃ c', c.step arith = .next c' ∧
      c'.trace = .overflow loc op :: c.trace

theorem Config.step_intrinsic_inRange {loc : α} {i : Intrinsic} {ops : Block α}
    {rest : List (Frame α)} {s : Stack} {trace : List (Event α)}
    (h : Config.InRange ⟨.block (.intrinsic loc i :: ops) :: rest, s, trace⟩) :
    Config.StepsExactly ⟨.block (.intrinsic loc i :: ops) :: rest, s, trace⟩ ∨
      Config.StepsOff ⟨.block (.intrinsic loc i :: ops) :: rest, s, trace⟩ := by
  obtain ⟨hframe, hrest⟩ := free_cons.mp h.free
  simp only [Frame.uses, Block.uses, Op.uses, Bool.or_eq_false_iff, decide_eq_false_iff_not]
    at hframe
  obtain ⟨hi, hops⟩ := hframe
  obtain ⟨e, hexact⟩ := i.exists_does .exact loc s
  rcases hexact.inRange hi h.fits with
    ⟨hwraps, hrange⟩ | ⟨a, b, s, exact, rfl, hresult, hoff, hrule⟩
  · refine .inl ?_
    simp only [Config.StepsExactly, Config.step, Config.runOp, hexact.eq, hwraps.eq, true_and]
    cases e with
    | trapped trap s => trivial
    | done s events =>
        have hquiet := List.forall_mem_append.mpr ⟨hrange.2, h.quiet⟩
        exact ⟨free_cons.mpr ⟨hops, hrest⟩, hrange.1, hquiet⟩
  · refine .inr ⟨loc, i, a, b, exact, ⟨⟨ops, rest, rfl⟩, ⟨s, rfl⟩, hresult, hoff⟩, ?_⟩
    intro arith
    have hstep : Config.step arith
        ⟨.block (.intrinsic loc i :: ops) :: rest, b :: a :: s, trace⟩ =
        .next ⟨.block ops :: rest, arith.reduce exact :: s, .overflow loc i :: trace⟩ := by
      simp only [Config.step, Config.runOp, (hrule arith).eq, List.singleton_append]
    exact ⟨_, hstep, rfl⟩

-- In range, a turn is exact and stays in range, or it is the first to go off it.
theorem Config.step_inRange {c : Config α} (h : c.InRange) : c.StepsExactly ∨ c.StepsOff := by
  obtain ⟨frames, stack, trace⟩ := c
  cases frames with
  | nil => exact .inl ⟨rfl, trivial⟩
  | cons frame rest =>
      obtain ⟨hframe, hrest⟩ := free_cons.mp h.free
      cases frame with
      | link loc inner chain =>
          simp only [Frame.uses, Bool.or_eq_false_iff] at hframe
          obtain ⟨hinner, hchain⟩ := hframe
          exact .inl ⟨rfl, h.test loc (free_block.mpr hinner) (Chain.free_frames hchain) hrest⟩
      | loop loc cond body =>
          have hparts := hframe
          simp only [Frame.uses, Bool.or_eq_false_iff] at hparts
          have hagain : Free .multiply [.block body, .block cond, .loop loc cond body] :=
            free_cons.mpr ⟨hparts.2, free_cons.mpr ⟨hparts.1, free_cons.mpr ⟨hframe, free_nil⟩⟩⟩
          exact .inl ⟨rfl, h.test loc hagain free_nil hrest⟩
      | block ops =>
          cases ops with
          | nil => exact .inl ⟨rfl, hrest, h.fits, h.quiet⟩
          | cons op ops =>
              simp only [Frame.uses, Block.uses, Bool.or_eq_false_iff] at hframe
              obtain ⟨hop, hops⟩ := hframe
              have hafter : Free .multiply (.block ops :: rest) := free_cons.mpr ⟨hops, hrest⟩
              cases op with
              | intrinsic loc i => exact Config.step_intrinsic_inRange h
              | push loc value =>
                  have hfits := Stack.fits_cons.mpr ⟨Arithmetic.fits_toNat value, h.fits⟩
                  exact .inl ⟨rfl, hafter, hfits, h.quiet⟩
              | branch loc body chain =>
                  simp only [Op.uses, Bool.or_eq_false_iff] at hop
                  obtain ⟨hbody, hchain⟩ := hop
                  exact .inl ⟨rfl, h.test loc (free_block.mpr hbody) (Chain.free_frames hchain)
                    hafter⟩
              | loop loc cond doLoc body =>
                  have hparts := hop
                  simp only [Op.uses, Bool.or_eq_false_iff] at hparts
                  have hloop : (Frame.loop (doLoc.getD loc) cond body).uses .multiply = false := hop
                  exact .inl ⟨rfl, free_cons.mpr ⟨hparts.1, free_cons.mpr ⟨hloop, hafter⟩⟩, h.fits,
                    h.quiet⟩

theorem Config.InRange.decide {loc : α} {value : Int} {s : Stack} {trace : List (Event α)}
    {yes no : List (Frame α)} (hs : s.Fits) (htrace : Quiet trace) (hyes : Free .multiply yes)
    (hno : Free .multiply no) : (Config.decide loc value s trace yes no).InRange := by
  refine ⟨?_, hs, ?_⟩
  · simp only [Config.decide]
    split
    · exact hyes
    · exact hno
  · simp only [Config.decide]
    split
    · exact htrace
    · exact List.forall_mem_cons.mpr ⟨rfl, htrace⟩

-- Up to turn `k` both machines have been in the same states and have reported nothing, and
-- turn `k` is a sum or difference off the range.
structure Config.LeavesAt (c : Config α) (k : Nat) (loc : α) (op : Intrinsic) (a b exact : Int) :
    Prop where
  same : ∀ j ≤ k, c.afterTurns .exact j = c.afterTurns .wrapping j
  overflows : (c.afterTurns .wrapping k).Overflows loc op a b exact
  quiet : Quiet (c.afterTurns .wrapping k).trace

-- Both runs show what has been shown by then, and the report next.
def Config.Leaves (n : Nat) (c : Config α) : Prop :=
  ∃ k loc op a b exact, c.LeavesAt k loc op a b exact ∧
    (c.afterTurns .wrapping k).trace.reverse ++ [.overflow loc op] <+:
      (Config.run .wrapping n c).trace ∧
    (c.afterTurns .wrapping k).trace.reverse ++ [.overflow loc op] <+:
      (Config.run .exact n c).trace

theorem Config.Leaves.of_stepsOff {c : Config α} (hc : Quiet c.trace) (h : c.StepsOff) (n : Nat) :
    c.Leaves n := by
  obtain ⟨loc, op, a, b, exact, hover, hoff⟩ := h
  have hshown : ∀ arith, c.trace.reverse ++ [.overflow loc op] <+:
      (Config.run arith n c).trace := by
    intro arith
    obtain ⟨c', hstep, htrace⟩ := hoff arith
    have hkept := c'.trace_kept arith n
    rw [htrace, List.reverse_cons] at hkept
    rw [Config.run_of_next hstep]
    exact hkept
  have hsame : ∀ j ≤ 0, c.afterTurns .exact j = c.afterTurns .wrapping j := by
    intro j hj
    obtain rfl : j = 0 := by omega
    rfl
  exact ⟨0, loc, op, a, b, exact, ⟨hsame, hover, hc⟩, hshown .wrapping, hshown .exact⟩

-- What comes of the state after a turn that both take comes of the state before it.
theorem Config.Leaves.of_next? {n m : Nat} {c c' : Config α} (h : c'.Leaves m)
    (hexact : c.next? .exact = some c') (hwrap : c.next? .wrapping = some c')
    (hexactRun : Config.run .exact n c = Config.run .exact m c')
    (hwrapRun : Config.run .wrapping n c = Config.run .wrapping m c') : c.Leaves n := by
  obtain ⟨k, loc, op, a, b, exact, hleaves, hshown⟩ := h
  have hturns := Config.afterTurns_of_next? hwrap
  have hsame : ∀ j ≤ k + 1, c.afterTurns .exact j = c.afterTurns .wrapping j := by
    intro j hj
    cases j with
    | zero => rfl
    | succ j =>
        rw [Config.afterTurns_of_next? hexact, hturns]
        exact hleaves.same j (by omega)
  refine ⟨k + 1, loc, op, a, b, exact, ⟨hsame, ?_, ?_⟩, ?_⟩
  · rw [hturns]
    exact hleaves.overflows
  · rw [hturns]
    exact hleaves.quiet
  · rw [hturns, hwrapRun, hexactRun]
    exact hshown

-- Turn by turn the two runs are one, and nothing is reported, or there is a first turn
-- that goes off the range.
theorem Config.run_inRange (n : Nat) {c : Config α} (h : c.InRange) :
    (Config.run .exact n c = Config.run .wrapping n c ∧
      Quiet (Config.run .wrapping n c).trace) ∨ c.Leaves n := by
  have hquiet : Quiet c.trace.reverse := fun e he => h.quiet e (List.mem_reverse.mp he)
  rcases Config.step_inRange h with ⟨hsame, hrange⟩ | hoff
  · cases hstep : c.step .wrapping with
    | finished =>
        rw [hstep] at hsame
        rw [Config.run_of_finished hstep, Config.run_of_finished hsame]
        exact .inl ⟨rfl, hquiet⟩
    | failed trap loc s =>
        rw [hstep] at hsame
        rw [Config.run_of_failed hstep, Config.run_of_failed hsame]
        exact .inl ⟨rfl, hquiet⟩
    | next c' =>
        rw [hstep] at hsame hrange
        have hexact := Config.next?_of_next hsame
        have hwrap := Config.next?_of_next hstep
        have hexactRun := Config.run_of_next hsame n
        have hwrapRun := Config.run_of_next hstep n
        rcases Config.run_inRange n hrange with hone | hleaves
        · rw [hexactRun, hwrapRun]
          exact .inl hone
        · exact .inr (hleaves.of_next? hexact hwrap hexactRun hwrapRun)
    | test loc value s yes no =>
        rw [hstep] at hsame hrange
        obtain ⟨hs, hyes, hno⟩ := hrange
        have hexact := Config.next?_of_test hsame
        have hwrap := Config.next?_of_test hstep
        cases hn : n with
        | zero =>
            rw [Config.run_of_test hstep, Config.run_of_test hsame]
            exact .inl ⟨rfl, hquiet⟩
        | succ m =>
            have hexactRun := Config.run_of_test hsame (m + 1)
            have hwrapRun := Config.run_of_test hstep (m + 1)
            rcases Config.run_inRange m (.decide hs h.quiet hyes hno) with hone | hleaves
            · rw [hexactRun, hwrapRun]
              exact .inl hone
            · exact .inr (hleaves.of_next? hexact hwrap hexactRun hwrapRun)
  · exact .inr (.of_stepsOff h.quiet hoff n)
termination_by (n, c.work)
decreasing_by
  · exact Prod.Lex.right _ (Config.work_step hstep)
  · exact Prod.Lex.left _ _ (by omega)

theorem quiet_iff {trace : List (Event α)} :
    Quiet trace ↔ ∀ loc op, Event.overflow loc op ∉ trace := by
  constructor
  · intro h loc op hmem
    cases h _ hmem
  · intro h e he
    cases e with
    | overflow loc op => exact absurd he (h loc op)
    | printed value => rfl
    | nonBinary loc value => rfl

-- There is only one first report.
theorem eq_of_first_overflow {before before' after after' : List (Event α)} {e e' : Event α}
    (h : before ++ e :: after = before' ++ e' :: after') (hbefore : Quiet before)
    (hbefore' : Quiet before') (he : e.isOverflow = true) (he' : e'.isOverflow = true) :
    before = before' ∧ e = e' := by
  induction before generalizing before' with
  | nil =>
      cases before' with
      | nil =>
          cases h
          exact ⟨rfl, rfl⟩
      | cons first rest =>
          cases h
          simp [hbefore' e List.mem_cons_self] at he
  | cons first rest ih =>
      cases before' with
      | nil =>
          cases h
          simp [hbefore e' List.mem_cons_self] at he'
      | cons first' rest' =>
          obtain ⟨rfl, hrest⟩ := List.cons.inj h
          obtain ⟨rfl, hsame⟩ := ih hrest (List.forall_mem_cons.mp hbefore).2
            (List.forall_mem_cons.mp hbefore').2
          exact ⟨rfl, hsame⟩

theorem Config.initial_inRange {block : Block α} (hblock : Block.uses .multiply block = false)
    {stack : Stack} (hstack : stack.Fits) : (Config.initial block stack).InRange :=
  ⟨free_block.mpr hblock, hstack, by simp [Quiet, Config.initial]⟩

-- A program without products, run on values of 64 bits, computes exactly unless it reports
-- an overflow: what it shows and leaves, and how it ends, is as over unbounded integers,
-- whether or not its tests are bounded. Where it does report one, both arithmetics go
-- through the same states up to that operation, whose exact result is off the range.
theorem execute_exact_of_no_overflow (block : Block α)
    (hblock : Block.uses .multiply block = false) (stack : Stack) (hstack : stack.Fits) :
    (∀ budget, (∀ loc op, Event.overflow loc op ∉ (execute .wrapping budget block stack).trace) →
      execute .exact budget block stack = execute .wrapping budget block stack) ∧
    ((∀ budget loc op, Event.overflow loc op ∉ (execute .wrapping budget block stack).trace) →
      (∀ ending s trace, (Config.initial block stack).EndsIn .exact ending s trace ↔
        (Config.initial block stack).EndsIn .wrapping ending s trace) ∧
      ((Config.initial block stack).RunsForever .exact ↔
        (Config.initial block stack).RunsForever .wrapping)) ∧
    ∀ budget before loc op after,
      (execute .wrapping budget block stack).trace = before ++ .overflow loc op :: after →
      (∀ loc' op', Event.overflow loc' op' ∉ before) →
      ∃ k a b exact, (Config.initial block stack).LeavesAt k loc op a b exact ∧
        ((Config.initial block stack).afterTurns .wrapping k).trace.reverse = before ∧
        before ++ [.overflow loc op] <+: (execute .exact budget block stack).trace := by
  have hruns := fun budget => Config.run_inRange budget (Config.initial_inRange hblock hstack)
  have hexact : ∀ budget,
      (∀ loc op, Event.overflow loc op ∉ (execute .wrapping budget block stack).trace) →
      execute .exact budget block stack = execute .wrapping budget block stack := by
    intro budget hquiet
    rcases hruns budget with ⟨hsame, _⟩ | ⟨k, loc, op, a, b, exact, _, hshown, _⟩
    · exact hsame
    · exact absurd (hshown.subset (by simp)) (hquiet loc op)
  refine ⟨hexact, ?_, ?_⟩
  · intro hquiet
    have hends : ∀ ending s trace, (Config.initial block stack).EndsIn .exact ending s trace ↔
        (Config.initial block stack).EndsIn .wrapping ending s trace := by
      intro ending s trace
      rw [Config.endsIn_iff_run, Config.endsIn_iff_run]
      refine and_congr_right fun _ => exists_congr fun n => exists_congr fun left => ?_
      exact Eq.congr_left (hexact n (hquiet n))
    refine ⟨hends, ?_⟩
    rw [Config.runsForever_iff, Config.runsForever_iff]
    simp only [hends]
  · intro budget before loc op after htrace hbefore
    rcases hruns budget with ⟨_, hquiet⟩ | ⟨k, loc', op', a, b, exact, hleaves, hshown, hexactShown⟩
    · have hmem : Event.overflow loc op ∈ (execute .wrapping budget block stack).trace := by
        simp [htrace]
      exact absurd hmem (quiet_iff.mp hquiet loc op)
    · obtain ⟨more, hmore⟩ := hshown
      have hwhole := htrace.symm.trans hmore.symm
      rw [List.append_assoc] at hwhole
      have hquiet : Quiet ((Config.initial block stack).afterTurns .wrapping k).trace.reverse :=
        fun e he => hleaves.quiet e (List.mem_reverse.mp he)
      obtain ⟨rfl, hevent⟩ :=
        eq_of_first_overflow hwhole (quiet_iff.mpr hbefore) hquiet rfl rfl
      cases hevent
      exact ⟨k, a, b, exact, hleaves, rfl, hexactShown⟩

-- Doubles a number as often as the value on top of it says.
def doublingSample : Block Nat :=
  [.loop 0 [.intrinsic 1 .dup] (some 2)
    [.push 3 1, .intrinsic 4 .subtract, .intrinsic 5 .swap, .intrinsic 6 .dup,
      .intrinsic 7 .plus, .intrinsic 8 .swap],
    .intrinsic 9 .drop]

theorem execute_exact_of_no_overflow_doublingSample :
    Block.uses .multiply doublingSample = false ∧
    Stack.Fits [1, 0x4000000000000000] ∧ Stack.Fits [2, 0x4000000000000000] ∧
    execute .exact 9 doublingSample [1, 0x4000000000000000] =
      execute .wrapping 9 doublingSample [1, 0x4000000000000000] ∧
    (execute .wrapping 9 doublingSample [2, 0x4000000000000000]).trace =
      [.nonBinary 2 2] ++ .overflow 7 .plus :: [] ∧
    ∃ k a b exact, (Config.initial doublingSample [2, 0x4000000000000000]).LeavesAt k 7 .plus
      a b exact := by
  have hblock : Block.uses .multiply doublingSample = false := by decide +kernel
  have hone : Stack.Fits [1, 0x4000000000000000] := by
    simp [Stack.Fits, Arithmetic.Fits, Arithmetic.maxValue]
  have htwo : Stack.Fits [2, 0x4000000000000000] := by
    simp [Stack.Fits, Arithmetic.Fits, Arithmetic.maxValue]
  have hquiet : (execute .wrapping 9 doublingSample [1, 0x4000000000000000]).trace = [] := by
    decide +kernel
  have htrace : (execute .wrapping 9 doublingSample [2, 0x4000000000000000]).trace =
      [.nonBinary 2 2] ++ .overflow 7 .plus :: [] := by decide +kernel
  obtain ⟨hexact, _⟩ := execute_exact_of_no_overflow doublingSample hblock _ hone
  obtain ⟨_, _, hfirst⟩ := execute_exact_of_no_overflow doublingSample hblock _ htwo
  obtain ⟨k, a, b, exact, hleaves, _⟩ := hfirst 9 _ 7 .plus [] htrace (by simp)
  exact ⟨hblock, hone, htwo, hexact 9 (by simp [hquiet]), htrace, k, a, b, exact, hleaves⟩

end StackLang
