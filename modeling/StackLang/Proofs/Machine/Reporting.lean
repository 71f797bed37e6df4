import StackLang.Proofs.Machine.Framing
import StackLang.Proofs.Parse.Grammar

-- What a run reports, and where. Each turn does the work of one token, and all that is
-- still to be done is spelled with tokens of the program, so that a run points at
-- nothing but these.

namespace StackLang

variable {α : Type} {arith : Arithmetic} {loc : α}

-- The token that the next turn does the work of. A block that has come to its end has
-- none.
def Config.token? (c : Config α) : Option (Token α) :=
  match c.frames with
  | .block (.push loc value :: _) :: _ => some ⟨.int value, loc⟩
  | .block (.intrinsic loc i :: _) :: _ => some ⟨.word i.text, loc⟩
  | .block (.branch loc _ _ :: _) :: _ => some ⟨.marker .branch, loc⟩
  | .block (.loop loc _ _ _ :: _) :: _ => some ⟨.marker .loop, loc⟩
  | .link loc _ _ :: _ => some ⟨.marker .link, loc⟩
  | .loop loc _ _ :: _ => some ⟨.marker .body, loc⟩
  | _ => none

-- The markers that take a condition from the stack.
def Marker.tests : Marker → Bool
  | .branch | .link | .body => true
  | .otherwise | .loop | .close => false

-- The token that an event is due to.
def Event.At (t : Token α) : Event α → Prop
  | .printed _ => t.lexeme = .word Intrinsic.print.text
  | .overflow loc op => (op = .plus ∨ op = .subtract) ∧ t = ⟨.word op.text, loc⟩
  | .nonBinary loc _ => ∃ m : Marker, m.tests ∧ t = ⟨.marker m, loc⟩

-- What a run can fail at.
def Trap.At (lexeme : Lexeme) : Trap → Prop
  | .zeroDivisor => lexeme = .word Intrinsic.divmod.text
  | .underflow =>
      (∃ i : Intrinsic, lexeme = .word i.text) ∨ ∃ m : Marker, m.tests ∧ lexeme = .marker m

-- An effect shows one event at most, and that or its failure is due to the token.
def Effect.At (t : Token α) : Effect α → Prop
  | .done _ events => events = [] ∨ ∃ e, events = [e] ∧ e.At t
  | .trapped trap _ => trap.At t.lexeme

-- A turn that was due to `token?`, with `trace` shown before it.
def Turn.At (token? : Option (Token α)) (trace : List (Event α)) : Turn α → Prop
  | .finished => True
  | .failed trap loc _ => ∃ t, token? = some t ∧ t.loc = loc ∧ trap.At t.lexeme
  | .next c => c.trace = trace ∨ ∃ t e, token? = some t ∧ c.trace = e :: trace ∧ e.At t
  | .test loc _ _ _ _ => ∃ m : Marker, m.tests ∧ token? = some ⟨.marker m, loc⟩

theorem Intrinsic.Does.at {i : Intrinsic} {s : Stack} {e : Effect α} (h : Does arith loc i s e) :
    e.At ⟨.word i.text, loc⟩ := by
  cases h with
  | dups | swaps | drops | copies | rotates | adds | subtracts | multiplies | divides =>
      exact .inl rfl
  | prints => exact .inr ⟨_, rfl, rfl⟩
  | addsOff => exact .inr ⟨_, rfl, .inl rfl, rfl⟩
  | subtractsOff => exact .inr ⟨_, rfl, .inr rfl, rfl⟩
  | dividesByZero => rfl
  | lacks => exact .inl ⟨i, rfl⟩

theorem Tests.token? {frames yes no rest : List (Frame α)} (h : Tests frames loc yes no rest)
    (s : Stack) (trace : List (Event α)) :
    ∃ m : Marker, m.tests ∧ Config.token? ⟨frames, s, trace⟩ = some ⟨.marker m, loc⟩ := by
  cases h with
  | branch => exact ⟨.branch, rfl, rfl⟩
  | link => exact ⟨.link, rfl, rfl⟩
  | loop => exact ⟨.body, rfl, rfl⟩

-- All that a turn reports is due to the token that it does the work of.
theorem Config.step_at (arith : Arithmetic) (c : Config α) :
    (c.step arith).At c.token? c.trace := by
  have hrule := c.stepsTo arith
  generalize c.step arith = turn at hrule
  cases hrule with
  | finished => trivial
  | leave | push | enter => exact .inl rfl
  | done ops rest trace hdoes =>
      rcases hdoes.at with rfl | ⟨e, rfl, he⟩
      · exact .inl rfl
      · exact .inr ⟨_, e, rfl, rfl, he⟩
  | trapped ops rest trace hdoes => exact ⟨_, rfl, rfl, hdoes.at⟩
  | lacks trace htests =>
      obtain ⟨m, hm, htoken⟩ := htests.token? [] trace
      exact ⟨_, htoken, rfl, .inr ⟨m, hm, rfl⟩⟩
  | test value s trace htests => exact htests.token? (value :: s) trace

theorem Config.next?_at {c c' : Config α} (h : c.next? arith = some c') :
    c'.trace = c.trace ∨ ∃ t e, c.token? = some t ∧ c'.trace = e :: c.trace ∧ e.At t := by
  have hstep := c.step_at arith
  rcases Config.step_of_next? h with heq | ⟨loc, value, s, yes, no, heq, rfl⟩
  · rw [heq] at hstep
    exact hstep
  · rw [heq] at hstep
    obtain ⟨m, hm, htoken⟩ := hstep
    simp only [Config.decide]
    split
    · exact .inl rfl
    · exact .inr ⟨_, _, htoken, rfl, m, hm, rfl⟩

-- The tokens that are left to a frame. The condition of a loop comes round again.
def Frame.spelling : Frame α → List (Token (Option α))
  | .block ops => Block.spelling ops
  | .link loc inner rest => ⟨.marker .link, some loc⟩ :: (Block.spelling inner ++ rest.spelling)
  | .loop loc cond body =>
      ⟨.marker .body, some loc⟩ :: (Block.spelling cond ++ Block.spelling body)

-- What is left to be done is spelled with these tokens.
def Spelled (tokens : List (Token α)) (frames : List (Frame α)) : Prop :=
  frames.flatMap Frame.spelling ⊆ tokens.map Token.kept

def Turn.Spelled (tokens : List (Token α)) : Turn α → Prop
  | .finished | .failed _ _ _ => True
  | .next c => StackLang.Spelled tokens c.frames
  | .test _ _ _ yes no => StackLang.Spelled tokens yes ∧ StackLang.Spelled tokens no

variable {tokens : List (Token α)}

theorem spelled_cons {frame : Frame α} {rest : List (Frame α)} :
    Spelled tokens (frame :: rest) ↔
      frame.spelling ⊆ tokens.map Token.kept ∧ Spelled tokens rest := by
  simp only [Spelled, List.flatMap_cons, List.append_subset]

theorem spelled_append {a b : List (Frame α)} :
    Spelled tokens (a ++ b) ↔ Spelled tokens a ∧ Spelled tokens b := by
  simp only [Spelled, List.flatMap_append, List.append_subset]

theorem Chain.spelled_frames {chain : Chain α} (h : chain.spelling ⊆ tokens.map Token.kept) :
    Spelled tokens chain.frames := by
  cases chain with
  | none => exact List.nil_subset _
  | otherwise block =>
      simp only [Chain.spelling_otherwise, List.cons_subset] at h
      simpa [Spelled, Chain.frames, Frame.spelling] using h.2
  | link cond loc inner rest =>
      simp only [Chain.spelling_link, List.cons_subset] at h
      simpa [Spelled, Chain.frames, Frame.spelling] using h.2

theorem Config.test_spelled (c : Config α) (loc : α) {yes no rest : List (Frame α)}
    (hyes : Spelled tokens yes) (hno : Spelled tokens no) (hrest : Spelled tokens rest) :
    (c.test loc yes no rest).Spelled tokens := by
  unfold Config.test
  split
  · trivial
  · exact ⟨spelled_append.mpr ⟨hyes, hrest⟩, spelled_append.mpr ⟨hno, hrest⟩⟩

theorem spelled_block {ops : Block α} :
    Spelled tokens [.block ops] ↔ Block.spelling ops ⊆ tokens.map Token.kept := by
  simp only [Spelled, List.flatMap_singleton, Frame.spelling]

theorem Config.runOp_spelled (arith : Arithmetic) (c : Config α) {op : Op α}
    {rest : List (Frame α)} (hop : op.spelling ⊆ tokens.map Token.kept)
    (hrest : Spelled tokens rest) : (c.runOp arith op rest).Spelled tokens := by
  cases op with
  | push loc value => exact hrest
  | intrinsic loc i =>
      simp only [Config.runOp]
      split
      · exact hrest
      · trivial
  | branch loc body chain =>
      simp only [Op.spelling_branch, List.cons_subset, List.append_subset] at hop
      obtain ⟨_, hbody, hchain, _⟩ := hop
      exact c.test_spelled loc (spelled_block.mpr hbody) (Chain.spelled_frames hchain) hrest
  | loop loc cond doLoc body =>
      simp only [Op.spelling_loop, List.cons_subset, List.append_subset] at hop
      obtain ⟨_, hcond, hdo, hbody, _⟩ := hop
      -- A `do` of the program has a location, which is then that of the frame.
      obtain ⟨t, _, hkept⟩ := List.mem_map.mp hdo
      obtain rfl := Token.doLoc_of_kept hkept
      have hloop : (Frame.loop t.loc cond body).spelling ⊆ tokens.map Token.kept := by
        simp only [Frame.spelling, List.cons_subset, List.append_subset]
        exact ⟨hdo, hcond, hbody⟩
      exact spelled_cons.mpr ⟨hcond, spelled_cons.mpr ⟨hloop, hrest⟩⟩

theorem Config.step_spelled (arith : Arithmetic) {c : Config α} (h : Spelled tokens c.frames) :
    (c.step arith).Spelled tokens := by
  obtain ⟨frames, stack, trace⟩ := c
  cases frames with
  | nil => trivial
  | cons frame rest =>
      obtain ⟨hframe, hrest⟩ := spelled_cons.mp h
      cases frame with
      | block ops =>
          cases ops with
          | nil => exact hrest
          | cons op ops =>
              simp only [Frame.spelling, Block.spelling_cons, List.append_subset] at hframe
              obtain ⟨hop, hops⟩ := hframe
              exact Config.runOp_spelled arith _ hop (spelled_cons.mpr ⟨hops, hrest⟩)
      | link loc inner chain =>
          simp only [Frame.spelling, List.cons_subset, List.append_subset] at hframe
          obtain ⟨_, hinner, hchain⟩ := hframe
          exact Config.test_spelled _ loc (spelled_block.mpr hinner) (Chain.spelled_frames hchain)
            hrest
      | loop loc cond body =>
          have hparts := hframe
          simp only [Frame.spelling, List.cons_subset, List.append_subset] at hparts
          obtain ⟨_, hcond, hbody⟩ := hparts
          have hagain : Spelled tokens [.block body, .block cond, .loop loc cond body] := by
            simp only [spelled_cons]
            exact ⟨hbody, hcond, hframe, List.nil_subset _⟩
          exact Config.test_spelled _ loc hagain (List.nil_subset _) hrest

theorem Config.next?_spelled {c c' : Config α} (h : Spelled tokens c.frames)
    (hnext : c.next? arith = some c') : Spelled tokens c'.frames := by
  have hstep := Config.step_spelled arith h
  rcases Config.step_of_next? hnext with heq | ⟨loc, value, s, yes, no, heq, rfl⟩
  · rw [heq] at hstep
    exact hstep
  · rw [heq] at hstep
    simp only [Config.decide]
    split
    · exact hstep.1
    · exact hstep.2

-- The token of a turn is one of the program.
theorem Spelled.token?_mem {c : Config α} (h : Spelled tokens c.frames) {t : Token α}
    (ht : c.token? = some t) : t ∈ tokens := by
  have hspelled : ⟨t.lexeme, some t.loc⟩ ∈ c.frames.flatMap Frame.spelling := by
    unfold Config.token? at ht
    split at ht
    · next hframes => cases ht; simp [hframes, Frame.spelling]
    · next hframes => cases ht; simp [hframes, Frame.spelling]
    · next hframes => cases ht; simp [hframes, Frame.spelling]
    · next hframes => cases ht; simp [hframes, Frame.spelling]
    · next hframes => cases ht; simp [hframes, Frame.spelling]
    · next hframes => cases ht; simp [hframes, Frame.spelling]
    · cases ht
  obtain ⟨found, hfound, hkept⟩ := List.mem_map.mp (h hspelled)
  rwa [Token.eq_of_kept_eq_some hkept] at hfound

-- What holds of one turn holds of any number of them.

theorem Config.afterTurns_spelled (arith : Arithmetic) {c : Config α}
    (h : Spelled tokens c.frames) (k : Nat) : Spelled tokens (c.afterTurns arith k).frames :=
  Config.afterTurns_invariant (P := fun c => Spelled tokens c.frames) Config.next?_spelled h k

-- Each event was shown by some turn, which did the work of the token that it is due to.
theorem Config.afterTurns_at (arith : Arithmetic) (c : Config α) (k : Nat) {e : Event α}
    (he : e ∈ (c.afterTurns arith k).trace) :
    e ∈ c.trace ∨ ∃ j t, (c.afterTurns arith j).token? = some t ∧ e.At t ∧
      (c.afterTurns arith (j + 1)).trace = e :: (c.afterTurns arith j).trace := by
  induction k with
  | zero => exact .inl he
  | succ k ih =>
      cases hnext : (c.afterTurns arith k).next? arith with
      | none =>
          rw [Config.afterTurns, hnext] at he
          exact ih he
      | some c' =>
          have hsucc : c.afterTurns arith (k + 1) = c' := by
            rw [Config.afterTurns, hnext, Option.getD_some]
          rw [hsucc] at he
          rcases Config.next?_at hnext with hsame | ⟨t, e', htoken, htrace, hat⟩
          · rw [hsame] at he
            exact ih he
          · rw [htrace] at he
            rcases List.mem_cons.mp he with rfl | he
            · exact .inr ⟨k, t, htoken, hat, by rw [hsucc, htrace]⟩
            · exact ih he

-- The machine before its first turn.
def Config.initial (root : Block α) (stack : Stack) : Config α :=
  ⟨[.block root], stack, []⟩

-- Some turn does the work of `t` and shows `e`.
def Config.ShowsAt (arith : Arithmetic) (c : Config α) (t : Token α) (e : Event α) : Prop :=
  ∃ k, (c.afterTurns arith k).token? = some t ∧
    (c.afterTurns arith (k + 1)).trace = e :: (c.afterTurns arith k).trace

-- Some turn does the work of `t` and fails, at the location of `t`.
def Config.FailsAt (arith : Arithmetic) (c : Config α) (t : Token α) (trap : Trap)
    (s : Stack) : Prop :=
  ∃ k, (c.afterTurns arith k).token? = some t ∧
    (c.afterTurns arith k).step arith = .failed trap t.loc s

-- Whatever a run shows or fails with is due to a token of the program, to that of the
-- turn in which it happens.
theorem execute_at {root : Block α} (h : Block.spelling root = tokens.map Token.kept)
    (arith : Arithmetic) (budget : Nat) (stack : Stack) :
    (∀ e ∈ (execute arith budget root stack).trace, ∃ t ∈ tokens, e.At t ∧
      (Config.initial root stack).ShowsAt arith t e) ∧
    ∀ trap loc, (execute arith budget root stack).ending = .failed trap loc →
      ∃ t ∈ tokens, t.loc = loc ∧ trap.At t.lexeme ∧
        (Config.initial root stack).FailsAt arith t trap
          (execute arith budget root stack).stack := by
  have hroot : Spelled tokens (Config.initial root stack).frames :=
    spelled_block.mpr fun _ hx => h ▸ hx
  have hspelled := Config.afterTurns_spelled arith hroot
  obtain ⟨k, htrace, hfailed⟩ := (Config.initial root stack).exists_turns arith budget
  constructor
  · intro e he
    have he : e ∈ ((Config.initial root stack).afterTurns arith k).trace :=
      List.mem_reverse.mp (htrace ▸ he)
    rcases Config.afterTurns_at arith _ k he with hnil | ⟨j, t, htoken, hat, hshown⟩
    · cases hnil
    · exact ⟨t, (hspelled j).token?_mem htoken, hat, j, htoken, hshown⟩
  · intro trap loc hending
    have hstep := hfailed trap loc hending
    have hat := ((Config.initial root stack).afterTurns arith k).step_at arith
    rw [hstep] at hat
    obtain ⟨t, htoken, rfl, htrap⟩ := hat
    exact ⟨t, (hspelled k).token?_mem htoken, rfl, htrap, k, htoken, hstep⟩

end StackLang
