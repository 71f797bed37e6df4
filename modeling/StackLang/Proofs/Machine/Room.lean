import StackLang.Proofs.Machine.Course

-- How many frames a run keeps. The blocks inside one another bound them, whatever the turns
-- before: a loop that starts again finds its own frame gone, and a block that is used up
-- stays only until what it has entered is done.

namespace StackLang

variable {α : Type} {arith : Arithmetic}

-- How many constructs stand inside one another.

mutual

def Op.height : Op α → Nat
  | .push _ _ | .intrinsic _ _ => 0
  | .branch _ body chain => 1 + max (Block.height body) (Chain.height chain)
  | .loop _ cond _ body => 1 + max (Block.height cond) (Block.height body)

def Block.height : List (Op α) → Nat
  | [] => 0
  | op :: ops => max (Op.height op) (Block.height ops)

-- The blocks of a chain stand in the `if` that it belongs to.
def Chain.height : Chain α → Nat
  | .none => 0
  | .otherwise block => Block.height block
  | .link cond _ inner rest =>
      max (max (Block.height cond) (Block.height inner)) (Chain.height rest)

end

-- The most frames that there can be at a time in place of this one. A link has its own
-- frame under that of a condition; a loop has two under that of its body.
def Frame.room : Frame α → Nat
  | .block ops => 1 + 3 * Block.height ops
  | .link _ inner chain => 2 + 3 * max (Block.height inner) chain.height
  | .loop _ cond body => 3 + 3 * max (Block.height cond) (Block.height body)

-- The most frames that there can be before all of these are done. While one of them is in
-- work, those after it wait.
def roomOf : List (Frame α) → Nat
  | [] => 0
  | frame :: rest => max (frame.room + rest.length) (roomOf rest)

theorem roomOf_cons (frame : Frame α) (rest : List (Frame α)) :
    roomOf (frame :: rest) = max (frame.room + rest.length) (roomOf rest) := rfl

theorem Frame.room_pos (frame : Frame α) : 0 < frame.room := by
  cases frame <;> simp only [Frame.room] <;> omega

theorem length_le_roomOf (frames : List (Frame α)) : frames.length ≤ roomOf frames := by
  cases frames with
  | nil => exact Nat.le_refl 0
  | cons frame rest =>
      have hpos := frame.room_pos
      rw [roomOf_cons, List.length_cons]
      omega

-- What is left of a block needs no more room than the block.
theorem roomOf_block_le (op : Op α) (ops : Block α) (rest : List (Frame α)) :
    roomOf (.block ops :: rest) ≤ roomOf (.block (op :: ops) :: rest) := by
  simp only [roomOf_cons, Frame.room, Block.height]
  omega

theorem Chain.roomOf_frames_le (chain : Chain α) (rest : List (Frame α)) :
    roomOf (chain.frames ++ rest) ≤ max (2 + 3 * chain.height + rest.length) (roomOf rest) := by
  cases chain with
  | none => exact Nat.le_max_right _ _
  | otherwise block =>
      simp only [Chain.frames, Chain.height, List.cons_append, List.nil_append, roomOf_cons,
        Frame.room]
      omega
  | link cond loc inner chain =>
      simp only [Chain.frames, Chain.height, List.cons_append, List.nil_append, roomOf_cons,
        Frame.room, List.length_cons]
      omega

-- Neither way on from a test needs more room than there was before it.
theorem Tests.roomOf_le {frames yes no rest : List (Frame α)} {loc : α}
    (h : Tests frames loc yes no rest) :
    roomOf (yes ++ rest) ≤ roomOf frames ∧ roomOf (no ++ rest) ≤ roomOf frames := by
  cases h with
  | branch loc body chain ops rest =>
      have hchain := chain.roomOf_frames_le (.block ops :: rest)
      have hops := roomOf_block_le (.branch loc body chain) ops rest
      simp only [List.cons_append, List.nil_append, roomOf_cons, Frame.room, Block.height,
        Op.height, List.length_cons] at hchain hops ⊢
      omega
  | link loc inner chain rest =>
      have hchain := chain.roomOf_frames_le rest
      simp only [List.cons_append, List.nil_append, roomOf_cons, Frame.room] at hchain ⊢
      omega
  | loop loc cond body rest =>
      simp only [List.cons_append, List.nil_append, roomOf_cons, Frame.room, List.length_cons]
      omega

-- No turn needs more room than there was before it.
theorem Config.next?_roomOf_le {c c' : Config α} (hturn : c.next? arith = some c') :
    roomOf c'.frames ≤ roomOf c.frames := by
  have hrule := c.stepsTo arith
  rcases Config.step_of_next? hturn with hstep | ⟨loc, value, s, yes, no, hstep, rfl⟩
  · rw [hstep] at hrule
    cases hrule with
    | leave rest s trace => exact Nat.le_max_right _ _
    | push loc value ops rest s trace => exact roomOf_block_le _ ops rest
    | done ops rest trace hrule => exact roomOf_block_le _ ops rest
    | enter loc cond doLoc body ops rest s trace =>
        -- The frames of a loop stand on what is left of its block.
        have hops := roomOf_block_le (.loop loc cond doLoc body) ops rest
        simp only [roomOf_cons, Frame.room, Block.height, Op.height, List.length_cons] at hops ⊢
        omega
  · rw [hstep] at hrule
    cases hrule with
    | test value s trace htests =>
        obtain ⟨hyes, hno⟩ := htests.roomOf_le
        simp only [Config.decide]
        split
        · exact hyes
        · exact hno

theorem roomOf_initial (block : Block α) (stack : Stack) :
    roomOf (Config.initial block stack).frames = 1 + 3 * Block.height block :=
  Nat.max_eq_left (Nat.zero_le _)

-- Frames do not pile up. After any number of turns there are at most three for each of the
-- constructs that stand inside one another, and one more; and so in each state that a run
-- within a budget goes through.
theorem frames_bounded_by_height (arith : Arithmetic) (block : Block α) (stack : Stack) :
    (∀ k, ((Config.initial block stack).afterTurns arith k).frames.length ≤
      1 + 3 * Block.height block) ∧
    ∀ budget, ∃ completed last,
      Course arith budget (Config.initial block stack) completed last
        (execute arith budget block stack) ∧
      ∀ state ∈ completed ++ [last], state.frames.length ≤ 1 + 3 * Block.height block := by
  -- The room that is needed never grows, so it stays within what the block needs at first.
  have hstep : ∀ {c c' : Config α}, roomOf c.frames ≤ 1 + 3 * Block.height block →
      c.next? arith = some c' → roomOf c'.frames ≤ 1 + 3 * Block.height block :=
    fun hroom hturn => Nat.le_trans (Config.next?_roomOf_le hturn) hroom
  have hstart := Nat.le_of_eq (roomOf_initial block stack)
  constructor
  · intro k
    exact Nat.le_trans (length_le_roomOf _) (Config.afterTurns_invariant hstep hstart k)
  · intro budget
    obtain ⟨completed, last, hcourse⟩ :=
      (Config.initial block stack).exists_course arith budget
    refine ⟨completed, last, hcourse, ?_⟩
    have hcompleted := hcourse.turns.forall_mem hstep hstart
    have hlast := hcourse.turns.invariant hstep hstart
    intro state hstate
    apply Nat.le_trans (length_le_roomOf state.frames)
    rcases List.mem_append.mp hstate with hmem | hmem
    · exact hcompleted state hmem
    · rw [List.mem_singleton.mp hmem]
      exact hlast

-- With one loop in another the bound of seven is reached, in the inner body.
example : ((Config.initial [.loop 0 [.push 1 1] none [.loop 2 [.push 3 1] none []]] []).afterTurns
    .wrapping 8).frames.length = 7 := by decide +kernel

end StackLang
