import StackLang.Proofs.Machine.Course

-- What a budget of tests does to a run. With one, every run comes to an end; a larger one
-- only lets the run go on. A tree without loops needs no more tests than it has conditions.

namespace StackLang

variable {α : Type} {arith : Arithmetic}

-- A larger budget changes nothing but what is left of it, unless the run was cut short; and
-- then it goes on from there.
theorem Config.run_add (arith : Arithmetic) (n : Nat) (c : Config α) (more : Nat) :
    ((Config.run arith n c).ending = .capped ∧
      (Config.run arith n c).trace <+: (Config.run arith (n + more) c).trace) ∨
    Config.run arith (n + more) c =
      { Config.run arith n c with left := (Config.run arith n c).left + more } := by
  induction n, c using Config.run_induction arith with
  | finished h => exact .inr (by rw [Config.run_of_finished h, Config.run_of_finished h])
  | failed h => exact .inr (by rw [Config.run_of_failed h, Config.run_of_failed h])
  | next h ih =>
      rw [Config.run_of_next h, Config.run_of_next h]
      exact ih
  | @capped c loc value s yes no h =>
      have hkept := c.trace_kept arith (0 + more)
      rw [Config.run_of_test h 0]
      exact .inl ⟨rfl, hkept⟩
  | @test n c loc value s yes no h ih =>
      rw [Config.run_of_test h (n + 1), Nat.add_right_comm, Config.run_of_test h (n + more + 1)]
      exact ih

-- A budget only cuts a run short. A run that ends within it is the same run within any larger
-- one; of a run that does not, the larger one shows first what the smaller one shows.
theorem execute_of_budget_le (arith : Arithmetic) {n m : Nat} (h : n ≤ m) (block : Block α)
    (stack : Stack) :
    let shorter := execute arith n block stack
    let longer := execute arith m block stack
    (shorter.ending ≠ .capped →
      longer.ending = shorter.ending ∧ longer.stack = shorter.stack ∧
        longer.output = shorter.output ∧ longer.warnings = shorter.warnings ∧
        longer.trace = shorter.trace ∧ longer.left = shorter.left + (m - n)) ∧
    (shorter.ending = .capped →
      (∃ more, longer.output = shorter.output ++ more) ∧
        shorter.warnings <+: longer.warnings ∧ shorter.trace <+: longer.trace) := by
  intro shorter longer
  obtain ⟨more, rfl⟩ := Nat.exists_eq_add_of_le h
  have hruns : (shorter.ending = .capped ∧ shorter.trace <+: longer.trace) ∨
      longer = { shorter with left := shorter.left + more } :=
    Config.run_add arith n ⟨[.block block], stack, []⟩ more
  rcases hruns with ⟨hcapped, htrace⟩ | hlonger
  · refine ⟨fun hnot => absurd hcapped hnot, ?_⟩
    intro _
    exact ⟨Run.output_of_trace htrace, htrace.filter _, htrace⟩
  · have htrace : shorter.trace <+: longer.trace := ⟨[], by rw [hlonger, List.append_nil]⟩
    refine ⟨?_, fun _ => ⟨Run.output_of_trace htrace, htrace.filter _, htrace⟩⟩
    intro _
    rw [hlonger, Nat.add_sub_cancel_left]
    exact ⟨rfl, rfl, rfl, rfl, rfl, rfl⟩

theorem execute_of_budget_le_countdownSample :
    (execute .wrapping 2 countdownSample [2, 7, 3]).ending = .capped ∧
    (execute .wrapping 2 countdownSample [2, 7, 3]).warnings = [.nonBinary 2 2] ∧
    (execute .wrapping 2 countdownSample [2, 7, 3]).warnings <+:
      (execute .wrapping 9 countdownSample [2, 7, 3]).warnings ∧
    (execute .wrapping 3 countdownSample [2, 7, 3]).ending = .finished ∧
    (execute .wrapping 9 countdownSample [2, 7, 3]).ending = .finished ∧
    (execute .wrapping 9 countdownSample [2, 7, 3]).left = 6 := by
  have hcut : execute .wrapping 2 countdownSample [2, 7, 3] =
      ⟨.capped, [0, 7, 3], [.nonBinary 2 2], 0⟩ := by decide +kernel
  have hwhole : execute .wrapping 3 countdownSample [2, 7, 3] =
      ⟨.finished, [3, 0], [.nonBinary 2 2], 0⟩ := by decide +kernel
  obtain ⟨_, hfirst⟩ :=
    execute_of_budget_le .wrapping (by decide : 2 ≤ 9) countdownSample [2, 7, 3]
  obtain ⟨hsame, _⟩ :=
    execute_of_budget_le .wrapping (by decide : 3 ≤ 9) countdownSample [2, 7, 3]
  obtain ⟨_, hwarnings, _⟩ := hfirst (by rw [hcut])
  obtain ⟨hending, _, _, _, _, hleft⟩ := hsame (by simp [hwhole])
  rw [hwhole] at hending hleft
  exact ⟨by rw [hcut], by rw [hcut]; rfl, hwarnings, by rw [hwhole], hending, hleft⟩

-- The operations of a tree at any depth, in the order of the source.

mutual

def Op.nodes : Op α → List (Op α)
  | .push loc value => [.push loc value]
  | .intrinsic loc i => [.intrinsic loc i]
  | .branch loc body chain => .branch loc body chain :: (Block.nodes body ++ Chain.nodes chain)
  | .loop loc cond doLoc body =>
      .loop loc cond doLoc body :: (Block.nodes cond ++ Block.nodes body)

def Block.nodes : List (Op α) → List (Op α)
  | [] => []
  | op :: ops => Op.nodes op ++ Block.nodes ops

def Chain.nodes : Chain α → List (Op α)
  | .none => []
  | .otherwise block => Block.nodes block
  | .link cond _ inner rest => Block.nodes cond ++ (Block.nodes inner ++ Chain.nodes rest)

end

def Op.isLoop : Op α → Bool
  | .loop _ _ _ _ => true
  | .push _ _ | .intrinsic _ _ | .branch _ _ _ => false

-- The links of a chain.
def Chain.links : Chain α → Nat
  | .none | .otherwise _ => 0
  | .link _ _ _ rest => rest.links + 1

-- The conditions of an `if`: its own and those of its links.
def Op.conditions : Op α → Nat
  | .branch _ _ chain => chain.links + 1
  | .push _ _ | .intrinsic _ _ | .loop _ _ _ _ => 0

def Block.conditions (block : Block α) : Nat :=
  total Op.conditions (Block.nodes block)

def Chain.conditions (chain : Chain α) : Nat :=
  chain.links + total Op.conditions chain.nodes

-- What frames have before them.

def Frame.nodes : Frame α → List (Op α)
  | .block ops => Block.nodes ops
  | .link _ inner rest => Block.nodes inner ++ rest.nodes
  | .loop _ cond body => Block.nodes cond ++ Block.nodes body

def Frame.conditions : Frame α → Nat
  | .block ops => Block.conditions ops
  | .link _ inner rest => 1 + (Block.conditions inner + rest.conditions)
  | .loop _ cond body => 1 + (Block.conditions cond + Block.conditions body)

def Frame.isLoop : Frame α → Bool
  | .loop _ _ _ => true
  | .block _ | .link _ _ _ => false

def nodesOf (frames : List (Frame α)) : List (Op α) :=
  frames.flatMap Frame.nodes

def conditionsOf (frames : List (Frame α)) : Nat :=
  total Frame.conditions frames

structure LoopFree (frames : List (Frame α)) : Prop where
  nodes : ∀ op ∈ nodesOf frames, op.isLoop = false
  frames : ∀ frame ∈ frames, frame.isLoop = false

@[simp] theorem nodesOf_nil : nodesOf ([] : List (Frame α)) = [] := rfl

@[simp] theorem nodesOf_cons (frame : Frame α) (rest : List (Frame α)) :
    nodesOf (frame :: rest) = frame.nodes ++ nodesOf rest := rfl

@[simp] theorem nodesOf_append (a b : List (Frame α)) :
    nodesOf (a ++ b) = nodesOf a ++ nodesOf b :=
  List.flatMap_append

@[simp] theorem conditionsOf_cons (frame : Frame α) (rest : List (Frame α)) :
    conditionsOf (frame :: rest) = frame.conditions + conditionsOf rest := rfl

@[simp] theorem conditionsOf_append (a b : List (Frame α)) :
    conditionsOf (a ++ b) = conditionsOf a + conditionsOf b :=
  total_append _ a b

theorem Block.conditions_cons (op : Op α) (ops : Block α) :
    Block.conditions (op :: ops) = total Op.conditions op.nodes + Block.conditions ops := by
  rw [Block.conditions, Block.nodes, total_append, Block.conditions]

theorem Block.conditions_branch (loc : α) (body : Block α) (chain : Chain α) (ops : Block α) :
    Block.conditions (.branch loc body chain :: ops) =
      1 + (Block.conditions body + chain.conditions) + Block.conditions ops := by
  simp only [Block.conditions, Block.nodes, Op.nodes, Op.conditions, Chain.conditions,
    List.cons_append, total_cons, total_append]
  omega

theorem Chain.conditions_otherwise (block : Block α) :
    (Chain.otherwise block).conditions = Block.conditions block := by
  rw [Chain.conditions, Chain.links, Chain.nodes, Block.conditions, Nat.zero_add]

theorem Chain.conditions_link (cond : Block α) (loc : α) (inner : Block α) (rest : Chain α) :
    (Chain.link cond loc inner rest).conditions =
      Block.conditions cond + (1 + (Block.conditions inner + rest.conditions)) := by
  simp only [Chain.conditions, Chain.links, Chain.nodes, Block.conditions, total_append]
  omega

-- The operation that the next turn executes.
def Config.op? (c : Config α) : Option (Op α) :=
  match c.frames with
  | .block (op :: _) :: _ => some op
  | _ => none

theorem Op.singleton_sublist_nodes (op : Op α) : [op].Sublist op.nodes := by
  cases op <;> simp [Op.nodes]

theorem Config.op?_sublist (c : Config α) : c.op?.toList.Sublist (nodesOf c.frames) := by
  unfold Config.op?
  split
  · next op ops rest hframes =>
      rw [hframes, nodesOf_cons, Frame.nodes, Block.nodes, List.append_assoc]
      exact op.singleton_sublist_nodes.trans (List.sublist_append_left _ _)
  · exact List.nil_sublist _

-- Either way on from the condition of an `if` or a link.
structure Part (body : Block α) (chain : Chain α) (part : List (Frame α)) : Prop where
  nodes : (nodesOf part).Sublist (Block.nodes body ++ chain.nodes)
  conditions : conditionsOf part ≤ Block.conditions body + chain.conditions
  frames : ∀ frame ∈ part, frame.isLoop = false

theorem Part.body (body : Block α) (chain : Chain α) : Part body chain [.block body] where
  nodes := by simp [Frame.nodes]
  conditions := Nat.le_add_right _ _
  frames := by simp [Frame.isLoop]

theorem Part.chain (body : Block α) (chain : Chain α) : Part body chain chain.frames where
  nodes := by cases chain <;> simp [Chain.frames, Frame.nodes, Chain.nodes]
  conditions := by
    cases chain with
    | none => exact Nat.zero_le _
    | otherwise block =>
        rw [Chain.conditions_otherwise]
        exact Nat.le_add_left _ _
    | link cond loc inner rest =>
        rw [Chain.conditions_link]
        exact Nat.le_add_left _ _
  frames := by cases chain <;> simp [Chain.frames, Frame.isLoop]

-- Without loops, a turn takes what it does from what there is to do: it leaves neither the
-- operation that it executes nor the condition that it tests.
structure Config.Unrolls (c : Config α) (tests : Nat) (frames : List (Frame α)) : Prop where
  nodes : (c.op?.toList ++ nodesOf frames).Sublist (nodesOf c.frames)
  conditions : tests + conditionsOf frames ≤ conditionsOf c.frames
  frames : ∀ frame ∈ frames, frame.isLoop = false

theorem LoopFree.of_unrolls {c : Config α} {tests : Nat} {frames : List (Frame α)}
    (hc : LoopFree c.frames) (h : c.Unrolls tests frames) : LoopFree frames where
  nodes op hop := hc.nodes op (h.nodes.subset (List.mem_append_right _ hop))
  frames := h.frames

theorem Part.unrolls {body : Block α} {chain : Chain α} {part rest : List (Frame α)}
    (h : Part body chain part) (hrest : ∀ frame ∈ rest, frame.isLoop = false) {c : Config α}
    (hnodes : nodesOf c.frames =
      c.op?.toList ++ ((Block.nodes body ++ chain.nodes) ++ nodesOf rest))
    (hconditions : conditionsOf c.frames =
      1 + (Block.conditions body + chain.conditions) + conditionsOf rest) :
    c.Unrolls 1 (part ++ rest) where
  nodes := by
    rw [hnodes, nodesOf_append]
    exact (List.Sublist.refl _).append (h.nodes.append (List.Sublist.refl _))
  conditions := by
    have hpart := h.conditions
    rw [hconditions, conditionsOf_append]
    omega
  frames := List.forall_mem_append.mpr ⟨h.frames, hrest⟩

theorem Tests.unrolls {frames yes no rest : List (Frame α)} {loc : α}
    (h : Tests frames loc yes no rest) (hfree : LoopFree frames) (s : Stack)
    (trace : List (Event α)) :
    Config.Unrolls ⟨frames, s, trace⟩ 1 (yes ++ rest) ∧
      Config.Unrolls ⟨frames, s, trace⟩ 1 (no ++ rest) := by
  have hframes := hfree.frames
  cases h with
  | loop => simp [Frame.isLoop] at hframes
  | branch loc body chain ops rest =>
      have hrest : ∀ frame ∈ Frame.block ops :: rest, frame.isLoop = false :=
        List.forall_mem_cons.mpr ⟨rfl, (List.forall_mem_cons.mp hframes).2⟩
      have hnodes : nodesOf (.block (.branch loc body chain :: ops) :: rest) =
          [.branch loc body chain] ++ ((Block.nodes body ++ chain.nodes) ++
            nodesOf (.block ops :: rest)) := by
        simp [Frame.nodes, Block.nodes, Op.nodes]
      have hconditions : conditionsOf (.block (.branch loc body chain :: ops) :: rest) =
          1 + (Block.conditions body + chain.conditions) + conditionsOf (.block ops :: rest) := by
        rw [conditionsOf_cons, conditionsOf_cons, Frame.conditions, Frame.conditions,
          Block.conditions_branch, Nat.add_assoc]
      exact ⟨(Part.body body chain).unrolls hrest hnodes hconditions,
        (Part.chain body chain).unrolls hrest hnodes hconditions⟩
  | link loc inner chain rest =>
      have hrest := (List.forall_mem_cons.mp hframes).2
      exact ⟨(Part.body inner chain).unrolls hrest rfl rfl,
        (Part.chain inner chain).unrolls hrest rfl rfl⟩

-- An operation with nothing in it.
theorem Config.unrolls_of_leaf {c : Config α} {op : Op α} {ops : Block α}
    {rest : List (Frame α)} (hframes : c.frames = .block (op :: ops) :: rest)
    (hop : op.nodes = [op]) (hrest : ∀ frame ∈ rest, frame.isLoop = false) :
    c.Unrolls 0 (.block ops :: rest) where
  nodes := by
    simp [Config.op?, hframes, Frame.nodes, Block.nodes, hop]
  conditions := by
    simp only [hframes, conditionsOf_cons, Frame.conditions, Block.conditions_cons]
    omega
  frames := List.forall_mem_cons.mpr ⟨rfl, hrest⟩

theorem Config.next?_unrolls {c c' : Config α} (hfree : LoopFree c.frames)
    (hturn : c.next? arith = some c') : c.Unrolls (c.isTest arith).toNat c'.frames := by
  have hrule := c.stepsTo arith
  rcases Config.step_of_next? hturn with hstep | ⟨loc, value, s, yes, no, hstep, rfl⟩
  · have htest : (c.isTest arith).toNat = 0 := by simp [Config.isTest, hstep]
    rw [htest]
    rw [hstep] at hrule
    have hframes := hfree.frames
    cases hrule with
    | leave rest s trace =>
        have hrest := (List.forall_mem_cons.mp hframes).2
        exact ⟨List.Sublist.refl _, Nat.le_refl _, hrest⟩
    | push => exact Config.unrolls_of_leaf rfl rfl (List.forall_mem_cons.mp hframes).2
    | done => exact Config.unrolls_of_leaf rfl rfl (List.forall_mem_cons.mp hframes).2
    | enter loc cond doLoc body ops rest s trace =>
        have hloop : (Op.loop loc cond doLoc body).isLoop = false :=
          hfree.nodes _ (by simp [Frame.nodes, Block.nodes, Op.nodes])
        cases hloop
  · have htest : (c.isTest arith).toNat = 1 := by simp [Config.isTest, hstep]
    rw [htest]
    rw [hstep] at hrule
    cases hrule with
    | test value s trace htests =>
        obtain ⟨hyes, hno⟩ := htests.unrolls hfree (value :: s) trace
        simp only [Config.decide]
        split
        · exact hyes
        · exact hno

-- Turn by turn, each operation is executed once at most, and each condition tested once.
theorem Config.Leads.unrolls {c last : Config α} {states : List (Config α)}
    (h : c.Leads arith states last) (hfree : LoopFree c.frames) :
    ((states ++ [last]).filterMap Config.op?).Sublist (nodesOf c.frames) ∧
      states.countP (Config.isTest arith) + conditionsOf last.frames ≤ conditionsOf c.frames ∧
      LoopFree last.frames := by
  induction h with
  | stay c =>
      refine ⟨?_, by simp, hfree⟩
      rw [List.filterMap_eq_flatMap_toList, List.nil_append, List.flatMap_singleton]
      exact c.op?_sublist
  | @turn c c' last states hturn _ ih =>
      have hunrolls := Config.next?_unrolls hfree hturn
      obtain ⟨hnodes, hconditions, hlast⟩ := ih (hfree.of_unrolls hunrolls)
      refine ⟨?_, ?_, hlast⟩
      · rw [List.filterMap_eq_flatMap_toList] at hnodes ⊢
        rw [List.cons_append, List.flatMap_cons]
        exact ((List.Sublist.refl _).append hnodes).trans hunrolls.nodes
      · have hspent := hunrolls.conditions
        rw [List.countP_cons]
        cases hc : c.isTest arith <;> simp [hc] at hspent ⊢ <;> omega

-- A run that is cut short has a condition before it.
theorem Config.Stops.pos_of_capped {c : Config α} {run : Run α} (h : c.Stops arith run)
    (hcapped : run.ending = .capped) (hfree : LoopFree c.frames) :
    run.left = 0 ∧ 0 < conditionsOf c.frames := by
  cases h with
  | finished => cases hcapped
  | failed => cases hcapped
  | @capped loc value s yes no trace hstep =>
      have hunrolls := Config.next?_unrolls hfree (Config.next?_of_test hstep)
      have hspent := hunrolls.conditions
      simp only [Config.isTest, hstep, Bool.toNat_true] at hspent
      exact ⟨rfl, by omega⟩

theorem Course.unrolls {n : Nat} {c last : Config α} {completed : List (Config α)} {run : Run α}
    (h : Course arith n c completed last run) (hfree : LoopFree c.frames) :
    completed.countP (Config.isTest arith) ≤ conditionsOf c.frames ∧
      (conditionsOf c.frames ≤ n → run.ending ≠ .capped) ∧
      ((completed ++ [last]).filterMap Config.op?).Sublist (nodesOf c.frames) := by
  obtain ⟨hnodes, hconditions, hlast⟩ := h.turns.unrolls hfree
  refine ⟨by omega, ?_, hnodes⟩
  intro hn hcapped
  obtain ⟨hleft, hpos⟩ := h.stops.pos_of_capped hcapped hlast
  have htests := h.tests
  omega

theorem LoopFree.initial {block : Block α} (h : ∀ op ∈ Block.nodes block, op.isLoop = false)
    (stack : Stack) : LoopFree (Config.initial block stack).frames where
  nodes := by simpa [Config.initial, Frame.nodes] using h
  frames := by simp [Config.initial, Frame.isLoop]

-- A run is endless just if it uses up every budget.
theorem runsForever_iff_capped (arith : Arithmetic) (block : Block α) (stack : Stack) :
    (Config.initial block stack).RunsForever arith ↔
      ∀ budget, (execute arith budget block stack).ending = .capped := by
  rw [Config.runsForever_iff]
  constructor
  · intro hnot budget
    have hends := Config.capped_or_endsIn arith budget (Config.initial block stack)
    exact hends.resolve_right fun h => hnot ⟨_, _, _, h⟩
  · rintro hcapped ⟨ending, s, trace, hends⟩
    obtain ⟨hne, budget, left, hrun⟩ := hends.exists_run
    have hrun : execute arith budget block stack = ⟨ending, s, trace, left⟩ := hrun
    have hending := hcapped budget
    rw [hrun] at hending
    exact hne hending

-- The turns of a run within a budget come to an end, at the latest when a test is due and
-- none is left, so that only tests can make a run endless. A tree without loops comes to an
-- end in any case: it makes no more tests than it has conditions, and executes each of its
-- operations at most once, in the order of the source.
theorem execute_ends (arith : Arithmetic) (block : Block α) (stack : Stack) :
    let start := Config.initial block stack
    (∀ budget, ∃ completed last,
      Course arith budget start completed last (execute arith budget block stack)) ∧
    (start.RunsForever arith ↔ ∀ budget, (execute arith budget block stack).ending = .capped) ∧
    ((∀ op ∈ Block.nodes block, op.isLoop = false) →
      ¬start.RunsForever arith ∧
      ∀ budget, ∃ completed last,
        Course arith budget start completed last (execute arith budget block stack) ∧
        completed.countP (Config.isTest arith) ≤ Block.conditions block ∧
        (Block.conditions block ≤ budget → (execute arith budget block stack).ending ≠ .capped) ∧
        ((completed ++ [last]).filterMap Config.op?).Sublist (Block.nodes block)) := by
  intro start
  have hcourse := fun budget => start.exists_course arith budget
  refine ⟨hcourse, runsForever_iff_capped arith block stack, ?_⟩
  intro hloops
  have hfree := LoopFree.initial hloops stack
  have hnodes : nodesOf start.frames = Block.nodes block := List.append_nil _
  constructor
  · rw [runsForever_iff_capped]
    intro hcapped
    obtain ⟨completed, last, hcourse⟩ := hcourse (Block.conditions block)
    obtain ⟨_, hnot, _⟩ := hcourse.unrolls hfree
    exact hnot (Nat.le_refl _) (hcapped _)
  · intro budget
    obtain ⟨completed, last, hcourse⟩ := hcourse budget
    obtain ⟨htests, hnot, hops⟩ := hcourse.unrolls hfree
    rw [hnodes] at hops
    exact ⟨completed, last, hcourse, htests, hnot, hops⟩

-- An `if` with a link, in which there is another `if`.
def chosenSample : Block Nat :=
  [.branch 0 [.intrinsic 1 .print]
    (.link [.push 2 4, .push 3 2] 4 [.branch 5 [] .none] (.otherwise [.intrinsic 6 .drop])),
    .intrinsic 7 .print]

theorem execute_ends_chosenSample :
    (∀ op ∈ Block.nodes chosenSample, op.isLoop = false) ∧ Block.conditions chosenSample = 3 ∧
    (execute .wrapping 2 chosenSample [0, 9]).ending = .capped ∧
    (execute .wrapping 3 chosenSample [0, 9]).ending ≠ .capped ∧
    ∃ completed last, Course .wrapping 3 (Config.initial chosenSample [0, 9]) completed last
        (execute .wrapping 3 chosenSample [0, 9]) ∧
      completed.countP (Config.isTest .wrapping) ≤ 3 ∧
      ((completed ++ [last]).filterMap Config.op?).Sublist (Block.nodes chosenSample) := by
  have hloops : ∀ op ∈ Block.nodes chosenSample, op.isLoop = false := by decide +kernel
  have hthree : Block.conditions chosenSample = 3 := by decide +kernel
  obtain ⟨_, _, hfree⟩ := execute_ends .wrapping chosenSample [0, 9]
  obtain ⟨completed, last, hcourse, htests, hends, hops⟩ := (hfree hloops).2 3
  rw [hthree] at htests hends
  exact ⟨hloops, hthree, by decide +kernel, hends (Nat.le_refl 3), completed, last, hcourse, htests,
    hops⟩

end StackLang
