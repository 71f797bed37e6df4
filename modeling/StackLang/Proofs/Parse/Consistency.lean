import StackLang.Proofs.Machine.Budget
import StackLang.Proofs.Parse.Acceptance

-- What is under construction is consistent at all times: the phase of an open block says
-- which of its parts are there, and no loop is finished without its `do`.

namespace StackLang

variable {α : Type}

theorem Block.mem_spelling {block : Block α} {t : Token (Option α)} :
    t ∈ Block.spelling block ↔ ∃ op ∈ block, t ∈ op.spelling := by
  induction block with
  | nil => simp
  | cons op ops ih => simp [ih]

-- An operation inside a tree is spelled with tokens of the tree.

mutual

theorem Op.spelling_subset {found : Op α} : (op : Op α) → found ∈ op.nodes →
    found.spelling ⊆ op.spelling
  | .push _ _, h => by
      rw [List.mem_singleton.mp h]
      exact List.Subset.refl _
  | .intrinsic _ _, h => by
      rw [List.mem_singleton.mp h]
      exact List.Subset.refl _
  | .branch loc body chain, h => by
      rw [Op.nodes, List.mem_cons, List.mem_append] at h
      rcases h with rfl | hmem | hmem
      · exact List.Subset.refl _
      · intro t ht
        simp [Block.spelling_subset body hmem ht]
      · intro t ht
        simp [Chain.spelling_subset chain hmem ht]
  | .loop loc cond doLoc body, h => by
      rw [Op.nodes, List.mem_cons, List.mem_append] at h
      rcases h with rfl | hmem | hmem
      · exact List.Subset.refl _
      · intro t ht
        simp [Block.spelling_subset cond hmem ht]
      · intro t ht
        simp [Block.spelling_subset body hmem ht]

theorem Block.spelling_subset {found : Op α} : (block : List (Op α)) →
    found ∈ Block.nodes block → found.spelling ⊆ Block.spelling block
  | [], h => by cases h
  | op :: ops, h => by
      intro t ht
      rw [Block.spelling_cons]
      rcases List.mem_append.mp h with hmem | hmem
      · exact List.mem_append_left _ (Op.spelling_subset op hmem ht)
      · exact List.mem_append_right _ (Block.spelling_subset ops hmem ht)

theorem Chain.spelling_subset {found : Op α} : (chain : Chain α) → found ∈ chain.nodes →
    found.spelling ⊆ chain.spelling
  | .none, h => by cases h
  | .otherwise block, h => by
      intro t ht
      simp [Block.spelling_subset block h ht]
  | .link cond _ inner rest, h => by
      rw [Chain.nodes, List.mem_append, List.mem_append] at h
      intro t ht
      rcases h with hmem | hmem | hmem
      · simp [Block.spelling_subset cond hmem ht]
      · simp [Block.spelling_subset inner hmem ht]
      · simp [Chain.spelling_subset rest hmem ht]

end

-- The operations that have gone to an open block.
def OpenBlock.ops : OpenBlock α → Block α
  | .branch x => x.body ++ (x.links.flatMap (fun link => link.cond ++ link.inner) ++
      x.otherwise.getD [])
  | .loop l => l.cond ++ l.body

-- All that has been built, finished or not.
def Builder.ops (b : Builder α) : Block α :=
  b.root ++ b.opened.flatMap OpenBlock.ops

theorem OpenLink.spelling_subset {link : OpenLink α} {op : Op α}
    (h : op ∈ link.cond ++ link.inner) : op.spelling ⊆ link.spelling := by
  intro t ht
  rw [List.mem_append] at h
  simp only [OpenLink.spelling, List.mem_cons, List.mem_append, Block.mem_spelling,
    List.mem_reverse]
  rcases h with hmem | hmem
  · exact .inr (.inl ⟨op, hmem, ht⟩)
  · exact .inr (.inr (.inr ⟨op, hmem, ht⟩))

-- Before its `do` a loop has no body that its spelling could leave out.
theorem OpenBlock.Sound.spelling_subset {block : OpenBlock α} (hs : block.Sound) {op : Op α}
    (h : op ∈ block.ops) : op.spelling ⊆ block.spelling := by
  intro t ht
  cases block with
  | branch x =>
      simp only [OpenBlock.ops, List.mem_append, List.mem_flatMap] at h
      simp only [OpenBlock.spelling, OpenBranch.spelling, List.mem_cons, List.mem_append,
        List.mem_flatMap, List.mem_reverse]
      rcases h with hmem | ⟨link, hlink, hmem⟩ | hmem
      · exact .inr (.inl (Block.mem_spelling.mpr ⟨op, List.mem_reverse.mpr hmem, ht⟩))
      · have hin := OpenLink.spelling_subset (List.mem_append.mpr hmem) ht
        exact .inr (.inr (.inl ⟨link, hlink, hin⟩))
      · cases hlast : x.otherwise with
        | none => simp [hlast] at hmem
        | some last =>
            rw [hlast, Option.getD_some] at hmem
            have hin : t ∈ Block.spelling last.reverse :=
              Block.mem_spelling.mpr ⟨op, List.mem_reverse.mpr hmem, ht⟩
            exact .inr (.inr (.inr (List.mem_cons_of_mem _ hin)))
  | loop l =>
      obtain ⟨hdo, hbody⟩ : l.Sound := hs
      simp only [OpenBlock.ops, List.mem_append] at h
      simp only [OpenBlock.spelling, OpenLoop.spelling, List.mem_cons, List.mem_append]
      rcases h with hmem | hmem
      · exact .inr (.inl (Block.mem_spelling.mpr ⟨op, List.mem_reverse.mpr hmem, ht⟩))
      · cases hphase : l.phase with
        | cond =>
            rw [hbody hphase] at hmem
            cases hmem
        | body =>
            obtain ⟨doLoc, hloc⟩ := Option.isSome_iff_exists.mp (hdo.mpr hphase)
            have hin : t ∈ Block.spelling l.body.reverse :=
              Block.mem_spelling.mpr ⟨op, List.mem_reverse.mpr hmem, ht⟩
            rw [hloc]
            exact .inr (.inr (List.mem_cons_of_mem _ hin))

theorem Builder.Sound.spelling_subset {b : Builder α} (hb : b.Sound) :
    Block.spelling b.ops ⊆ b.spelling := by
  intro t ht
  obtain ⟨op, hop, ht⟩ := Block.mem_spelling.mp ht
  rw [Builder.spelling, List.mem_append]
  rcases List.mem_append.mp hop with hmem | hmem
  · exact .inl (Block.mem_spelling.mpr ⟨op, List.mem_reverse.mpr hmem, ht⟩)
  · obtain ⟨block, hblock, hmem⟩ := List.mem_flatMap.mp hmem
    refine .inr (List.mem_flatMap.mpr ⟨block, List.mem_reverse.mpr hblock, ?_⟩)
    exact (hb block hblock).spelling_subset hmem ht

-- A loop is spelled with its `do`, and a `do` that has been read has a location.
theorem Block.doLoc_isSome {block : Block α} {ts : List (Token α)}
    (h : Block.spelling block ⊆ ts.map Token.kept) {loc : α} {cond body : Block α}
    {doLoc : Option α} (hloop : .loop loc cond doLoc body ∈ Block.nodes block) :
    doLoc.isSome := by
  have hdo : (⟨.marker .body, doLoc⟩ : Token (Option α)) ∈
      (Op.loop loc cond doLoc body).spelling := by simp
  obtain ⟨t, _, ht⟩ := List.mem_map.mp (h (Block.spelling_subset block hloop hdo))
  rw [Token.doLoc_of_kept ht]
  rfl

-- What comes next has a block to go to, and goes there.
theorem OpenBranch.Sound.exists_current {x : OpenBranch α} (hx : x.Sound) :
    ∃ block, x.current? = some block ∧ ∀ op, (x.add op).current? = some (op :: block) := by
  obtain ⟨loc, body, links, otherwise, phase⟩ := x
  obtain ⟨hotherwise, _, hlinks⟩ := hx
  cases phase with
  | body => exact ⟨body, rfl, fun op => rfl⟩
  | link =>
      obtain ⟨link, rest, rfl⟩ := List.exists_cons_of_ne_nil (hlinks rfl)
      exact ⟨link.inner, rfl, fun op => rfl⟩
  | otherwise =>
      obtain ⟨block, rfl⟩ := Option.isSome_iff_exists.mp (hotherwise.mpr rfl)
      exact ⟨block, rfl, fun op => rfl⟩

-- Whether an `if*` is in order is told by the phase alone.
theorem OpenBranch.Sound.link_refused_iff {x : OpenBranch α} (hx : x.Sound) (loc : α) :
    (∃ cause, x.mark .link loc = .error cause) ↔ x.phase ≠ .otherwise := by
  constructor
  · rintro ⟨cause, hmark⟩ hphase
    obtain ⟨cond, hcond⟩ := Option.isSome_iff_exists.mp (hx.otherwise_iff.mpr hphase)
    simp [OpenBranch.mark, hphase, hcond] at hmark
  · intro hphase
    cases hmark : x.mark .link loc with
    | error cause => exact ⟨cause, rfl⟩
    | ok marked =>
        obtain ⟨hm, _⟩ | ⟨cond, _, hcond, _⟩ | ⟨hm, _⟩ := OpenBranch.mark_cases hmark
        · cases hm
        · exact absurd (hx.otherwise_iff.mp (by simp [hcond])) hphase
        · cases hm

-- Whatever tokens have been taken, in each open `if` the `else` block is there just while
-- the last marker is `else`, and links are there from the first `if*` on; in each open
-- `while` the location of the `do` is there just after the `do`, and nothing is in its body
-- before. So there is always a block that the next operation goes to, an `if*` is refused
-- for the phase alone, and every loop that has been built has the location of its `do`.
theorem opened_consistent {ts : List (Token α)} {b : Builder α}
    (h : Builder.initial.feedAll ts = .ok b) :
    (∀ x, .branch x ∈ b.opened →
      (x.otherwise.isSome ↔ x.phase = .otherwise) ∧ (x.phase = .body → x.links = []) ∧
      (x.phase = .link → x.links ≠ []) ∧
      (∃ block, x.current? = some block ∧ ∀ op, (x.add op).current? = some (op :: block)) ∧
      ∀ loc, (∃ cause, x.mark .link loc = .error cause) ↔ x.phase ≠ .otherwise) ∧
    (∀ l, .loop l ∈ b.opened →
      (l.doLoc.isSome ↔ l.phase = .body) ∧ (l.phase = .cond → l.body = [])) ∧
    ∀ loc cond doLoc body, .loop loc cond doLoc body ∈ Block.nodes b.ops → doLoc.isSome := by
  obtain ⟨hsound, hspelling⟩ := Builder.sound_initial.feedAll h
  refine ⟨?_, ?_, ?_⟩
  · intro x hmem
    have hx : x.Sound := hsound _ hmem
    exact ⟨hx.otherwise_iff, hx.links_of_body, hx.links_of_link, hx.exists_current,
      hx.link_refused_iff⟩
  · intro l hmem
    have hl : l.Sound := hsound _ hmem
    exact ⟨hl.doLoc_iff, hl.body_of_cond⟩
  · intro loc cond doLoc body hloop
    have hall : b.spelling = ts.map Token.kept := hspelling
    exact Block.doLoc_isSome (hall ▸ hsound.spelling_subset) hloop

-- A `while` that has just begun, inside an `if` behind its link and a finished `while`.
def openedSample : List (Token Nat) :=
  [⟨.marker .branch, 0⟩, ⟨.int 7, 1⟩, ⟨.marker .otherwise, 2⟩, ⟨.marker .link, 3⟩,
    ⟨.marker .loop, 4⟩, ⟨.marker .body, 5⟩, ⟨.marker .close, 6⟩, ⟨.marker .loop, 7⟩]

def linkedBranch : OpenBranch Nat :=
  ⟨0, [.push 1 7], [⟨[], 3, [.loop 4 [] (some 5) []]⟩], none, .link⟩

def openedBuilder : Builder Nat :=
  ⟨[], [.loop (.start 7), .branch linkedBranch]⟩

theorem opened_consistent_openedSample :
    Builder.initial.feedAll openedSample = .ok openedBuilder ∧
    linkedBranch.links ≠ [] ∧
    (∃ block, linkedBranch.current? = some block ∧
      ∀ op, (linkedBranch.add op).current? = some (op :: block)) ∧
    ((OpenLoop.start 7).doLoc.isSome ↔ (OpenLoop.start 7).phase = .body) ∧
    .loop 4 [] (some 5) [] ∈ Block.nodes openedBuilder.ops ∧ (some 5).isSome := by
  have hfeed : Builder.initial.feedAll openedSample = .ok openedBuilder := rfl
  have hmem : .loop 4 [] (some 5) [] ∈ Block.nodes openedBuilder.ops := by
    simp [openedBuilder, Builder.ops, OpenBlock.ops, OpenLoop.start, linkedBranch, Block.nodes,
      Op.nodes]
  obtain ⟨hbranch, hloop, hbuilt⟩ := opened_consistent hfeed
  obtain ⟨_, _, hlinks, hcurrent, _⟩ := hbranch linkedBranch (by simp [openedBuilder])
  obtain ⟨hdo, _⟩ := hloop (.start 7) (by simp [openedBuilder])
  exact ⟨hfeed, hlinks rfl, hcurrent, hdo, hmem, hbuilt _ _ _ _ hmem⟩

end StackLang
