import StackLang.Program.Builder
import StackLang.Proofs.Parse.Grammar

-- The open blocks of a builder: what a token can do to them, the shape that
-- they always have, and the tokens that they stand for.

namespace StackLang

variable {α : Type}

theorem Intrinsic.text_of_ofText? {s : String} {i : Intrinsic} (h : Intrinsic.ofText? s = some i) :
    i.text = s := by
  simpa using List.find?_some h

-- What a marker can do to an open `if`.
theorem OpenBranch.mark_cases {b : OpenBranch α} {m : Marker} {loc : α} {marked : Marked α}
    (h : b.mark m loc = .ok marked) :
    (m = .otherwise ∧ b.phase ≠ .otherwise ∧
      marked = .still (.branch { b with otherwise := some [], phase := .otherwise })) ∨
    (∃ cond, m = .link ∧ b.otherwise = some cond ∧ marked = .still (.branch
      { b with links := ⟨cond, loc, []⟩ :: b.links, otherwise := none, phase := .link })) ∨
    (m = .close ∧ marked = .closed b.closed) := by
  cases m with
  | otherwise =>
      simp only [OpenBranch.mark] at h
      split at h
      · cases h
      · next hphase => exact .inl ⟨rfl, hphase, by simpa using h.symm⟩
  | link =>
      simp only [OpenBranch.mark] at h
      split at h
      · next cond _ hcond => exact .inr (.inl ⟨cond, rfl, hcond, by simpa using h.symm⟩)
      · cases h
  | close => exact .inr (.inr ⟨rfl, by simpa [OpenBranch.mark] using h.symm⟩)
  | branch | loop | body => cases h

-- What a marker can do to an open `while`.
theorem OpenLoop.mark_cases {l : OpenLoop α} {m : Marker} {loc : α} {marked : Marked α}
    (h : l.mark m loc = .ok marked) :
    (m = .body ∧ l.phase = .cond ∧
      marked = .still (.loop { l with doLoc := some loc, phase := .body })) ∨
    (m = .close ∧ l.phase = .body ∧ marked = .closed l.closed) := by
  cases m with
  | body =>
      simp only [OpenLoop.mark] at h
      split at h
      · cases h
      · next hphase =>
          refine .inl ⟨rfl, ?_, by simpa using h.symm⟩
          cases hl : l.phase <;> simp_all
  | close =>
      simp only [OpenLoop.mark] at h
      split at h
      · cases h
      · next hphase =>
          refine .inr ⟨rfl, ?_, by simpa using h.symm⟩
          cases hl : l.phase <;> simp_all
  | branch | link | otherwise | loop => cases h

-- All that a token can do to a builder that takes it.
inductive Builder.Takes (b : Builder α) : Token α → Builder α → Prop where
  | int (loc : α) (value : UInt64) : Takes b ⟨.int value, loc⟩ (b.place (.push loc value))
  | word (loc : α) (i : Intrinsic) : Takes b ⟨.word i.text, loc⟩ (b.place (.intrinsic loc i))
  | branch (loc : α) :
      Takes b ⟨.marker .branch, loc⟩ { b with opened := .branch (.start loc) :: b.opened }
  | loop (loc : α) :
      Takes b ⟨.marker .loop, loc⟩ { b with opened := .loop (.start loc) :: b.opened }
  | still {m : Marker} {loc : α} {block next : OpenBlock α} {outer : List (OpenBlock α)}
      (hopened : b.opened = block :: outer) (hmark : block.mark m loc = .ok (.still next)) :
      Takes b ⟨.marker m, loc⟩ { b with opened := next :: outer }
  | closed {m : Marker} {loc : α} {block : OpenBlock α} {op : Op α} {outer : List (OpenBlock α)}
      (hopened : b.opened = block :: outer) (hmark : block.mark m loc = .ok (.closed op)) :
      Takes b ⟨.marker m, loc⟩ ({ b with opened := outer }.place op)

theorem Builder.takes_of_step {b next : Builder α} {t : Token α} (h : b.step t = .ok next) :
    b.Takes t next := by
  obtain ⟨lexeme, loc⟩ := t
  unfold Builder.step at h
  split at h
  · next text heq =>
      cases heq
      split at h
      · next i hi =>
          cases h
          rw [← Intrinsic.text_of_ofText? hi]
          exact .word loc i
      · cases h
  · next heq =>
      cases heq
      cases h
      exact .int loc _
  · next heq =>
      cases heq
      cases h
      exact .branch loc
  · next heq =>
      cases heq
      cases h
      exact .loop loc
  · next m _ _ heq =>
      cases heq
      split at h
      · cases h
      · next block outer hopened =>
          split at h
          · cases h
          · next hmark =>
              cases h
              exact .still hopened hmark
          · next hmark =>
              cases h
              exact .closed hopened hmark

theorem Builder.takes_of_feed {b next : Builder α} {t : Token α} (h : b.feed t = .ok next) :
    b.Takes t next := by
  unfold Builder.feed at h
  split at h
  · next hstep =>
      cases h
      exact Builder.takes_of_step hstep
  · cases h

-- An `if` has an `else` block just while its last marker is `else`, no link
-- before the first `if*`, and a link after one.
structure OpenBranch.Sound (b : OpenBranch α) : Prop where
  otherwise_iff : b.otherwise.isSome ↔ b.phase = .otherwise
  links_of_body : b.phase = .body → b.links = []
  links_of_link : b.phase = .link → b.links ≠ []

-- A `while` has the location of its `do` just after the `do`, and no body before it.
structure OpenLoop.Sound (l : OpenLoop α) : Prop where
  doLoc_iff : l.doLoc.isSome ↔ l.phase = .body
  body_of_cond : l.phase = .cond → l.body = []

def OpenBlock.Sound : OpenBlock α → Prop
  | .branch b => b.Sound
  | .loop l => l.Sound

def Builder.Sound (b : Builder α) : Prop :=
  ∀ block ∈ b.opened, block.Sound

theorem OpenBranch.sound_start (loc : α) : (OpenBranch.start loc).Sound :=
  ⟨by simp [OpenBranch.start], fun _ => rfl, by simp [OpenBranch.start]⟩

theorem OpenLoop.sound_start (loc : α) : (OpenLoop.start loc).Sound :=
  ⟨by simp [OpenLoop.start], fun _ => rfl⟩

theorem OpenBranch.Sound.add {b : OpenBranch α} (hb : b.Sound) (op : Op α) : (b.add op).Sound := by
  obtain ⟨loc, body, links, otherwise, phase⟩ := b
  obtain ⟨ho, hbody, hlink⟩ := hb
  cases phase with
  | body => exact ⟨ho, hbody, hlink⟩
  | otherwise => exact ⟨by simpa [OpenBranch.add] using ho, hbody, hlink⟩
  | link =>
      cases links with
      | nil => exact absurd rfl (hlink rfl)
      | cons link links => exact ⟨ho, (fun h => by cases h), by simp [OpenBranch.add]⟩

theorem OpenLoop.Sound.add {l : OpenLoop α} (hl : l.Sound) (op : Op α) : (l.add op).Sound := by
  obtain ⟨loc, cond, doLoc, body, phase⟩ := l
  obtain ⟨hd, hbody⟩ := hl
  cases phase with
  | cond => exact ⟨hd, hbody⟩
  | body => exact ⟨hd, fun h => by cases h⟩

theorem OpenBlock.Sound.add {block : OpenBlock α} (h : block.Sound) (op : Op α) :
    (block.add op).Sound := by
  cases block with
  | branch b => exact OpenBranch.Sound.add h op
  | loop l => exact OpenLoop.Sound.add h op

-- A marker leaves the shape that it asks for, whatever was there before.
theorem OpenBlock.sound_of_mark {block next : OpenBlock α} {m : Marker} {loc : α}
    (hmark : block.mark m loc = .ok (.still next)) : next.Sound := by
  cases block with
  | branch b =>
      obtain ⟨_, _, hnext⟩ | ⟨cond, _, _, hnext⟩ | ⟨_, hnext⟩ := OpenBranch.mark_cases hmark
      · cases hnext
        exact ⟨by simp, by simp, by simp⟩
      · cases hnext
        exact ⟨by simp, by simp, by simp⟩
      · cases hnext
  | loop l =>
      obtain ⟨_, _, hnext⟩ | ⟨_, _, hnext⟩ := OpenLoop.mark_cases hmark
      · cases hnext
        exact ⟨by simp, by simp⟩
      · cases hnext

theorem Builder.sound_initial : (Builder.initial : Builder α).Sound := by
  intro block hb
  cases hb

theorem Builder.Sound.place {b : Builder α} (hb : b.Sound) (op : Op α) : (b.place op).Sound := by
  obtain ⟨root, opened⟩ := b
  cases opened with
  | nil => exact hb
  | cons block outer =>
      have h := List.forall_mem_cons.mp hb
      exact List.forall_mem_cons.mpr ⟨h.1.add op, h.2⟩

theorem Builder.Sound.of_opened {b : Builder α} {block : OpenBlock α}
    {outer : List (OpenBlock α)} (hb : b.Sound) (h : b.opened = block :: outer) :
    block.Sound ∧ ∀ other ∈ outer, other.Sound := by
  unfold Builder.Sound at hb
  rw [h] at hb
  exact List.forall_mem_cons.mp hb

-- One step: the shape of the open blocks is kept whatever the token does.
theorem Builder.Sound.takes {b next : Builder α} {t : Token α} (hb : b.Sound)
    (h : b.Takes t next) : next.Sound := by
  cases h with
  | int loc value => exact hb.place _
  | word loc i => exact hb.place _
  | branch loc => exact List.forall_mem_cons.mpr ⟨OpenBranch.sound_start loc, hb⟩
  | loop loc => exact List.forall_mem_cons.mpr ⟨OpenLoop.sound_start loc, hb⟩
  | still hopened hmark =>
      have hs := hb.of_opened hopened
      exact List.forall_mem_cons.mpr ⟨OpenBlock.sound_of_mark hmark, hs.2⟩
  | @closed m loc block op outer hopened hmark =>
      have houter : Builder.Sound { b with opened := outer } := (hb.of_opened hopened).2
      exact houter.place op

end StackLang
