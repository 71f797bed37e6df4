import StackLang.Program.Builder

-- Locations pass through the builder untouched: to parse and then to change
-- the locations is to change them first.

namespace StackLang

variable {α β : Type} (f : α → β)

theorem Block.mapLoc_eq_map (block : Block α) : Block.mapLoc f block = block.map (Op.mapLoc f) := by
  induction block with
  | nil => rfl
  | cons op ops ih => rw [Block.mapLoc, ih, List.map_cons]

theorem Block.mapLoc_reverse (block : Block α) :
    Block.mapLoc f block.reverse = (Block.mapLoc f block).reverse := by
  rw [Block.mapLoc_eq_map, Block.mapLoc_eq_map, List.map_reverse]

def OpenLink.map (link : OpenLink α) : OpenLink β :=
  ⟨Block.mapLoc f link.cond, f link.loc, Block.mapLoc f link.inner⟩

def OpenBranch.map (b : OpenBranch α) : OpenBranch β :=
  ⟨f b.loc, Block.mapLoc f b.body, b.links.map (OpenLink.map f),
    b.otherwise.map (Block.mapLoc f), b.phase⟩

def OpenLoop.map (l : OpenLoop α) : OpenLoop β :=
  ⟨f l.loc, Block.mapLoc f l.cond, l.doLoc.map f, Block.mapLoc f l.body, l.phase⟩

def OpenBlock.map : OpenBlock α → OpenBlock β
  | .branch b => .branch (b.map f)
  | .loop l => .loop (l.map f)

def Marked.map : Marked α → Marked β
  | .still block => .still (block.map f)
  | .closed op => .closed (op.mapLoc f)

def Builder.map (b : Builder α) : Builder β :=
  ⟨Block.mapLoc f b.root, b.opened.map (OpenBlock.map f)⟩

theorem OpenBlock.map_add (block : OpenBlock α) (op : Op α) :
    (block.map f).add (op.mapLoc f) = (block.add op).map f := by
  cases block with
  | branch b =>
      obtain ⟨loc, body, links, otherwise, phase⟩ := b
      cases phase with
      | body => rfl
      | link => cases links <;> rfl
      | otherwise => cases otherwise <;> rfl
  | loop l =>
      obtain ⟨loc, cond, doLoc, body, phase⟩ := l
      cases phase <;> rfl

theorem OpenBranch.map_chain (b : OpenBranch α) : (b.map f).chain = b.chain.mapLoc f := by
  obtain ⟨loc, body, links, otherwise, phase⟩ := b
  have hlinks : ∀ (last : Chain α) (links : List (OpenLink α)),
      (links.map (OpenLink.map f)).foldl
        (fun rest link => .link link.cond.reverse link.loc link.inner.reverse rest)
        (last.mapLoc f) =
      (links.foldl (fun rest link => .link link.cond.reverse link.loc link.inner.reverse rest)
        last).mapLoc f := by
    intro last links
    induction links generalizing last with
    | nil => rfl
    | cons link links ih =>
        simp only [List.map_cons, List.foldl_cons]
        rw [← ih]
        simp only [OpenLink.map, Chain.mapLoc, Block.mapLoc_reverse]
  cases otherwise with
  | none => exact hlinks .none links
  | some block =>
      have h := hlinks (.otherwise block.reverse) links
      rw [Chain.mapLoc, Block.mapLoc_reverse] at h
      exact h

theorem OpenBlock.map_mark (block : OpenBlock α) (m : Marker) (loc : α) :
    (block.map f).mark m (f loc) = (block.mark m loc).map (Marked.map f) := by
  cases block with
  | branch b =>
      have hclosed : (b.map f).closed = b.closed.mapLoc f := by
        simp only [OpenBranch.closed, Op.mapLoc, OpenBranch.map_chain, Block.mapLoc_reverse]
        rfl
      obtain ⟨start, body, links, otherwise, phase⟩ := b
      cases m with
      | otherwise => cases phase <;> rfl
      | link => cases phase <;> cases otherwise <;> rfl
      | close => exact congrArg (fun op => Except.ok (Marked.closed op)) hclosed
      | branch | loop | body => rfl
  | loop l =>
      have hclosed : (l.map f).closed = l.closed.mapLoc f := by
        simp only [OpenLoop.closed, OpenLoop.map, Op.mapLoc, Block.mapLoc_reverse]
      obtain ⟨start, cond, doLoc, body, phase⟩ := l
      cases m with
      | body => cases phase <;> rfl
      | close =>
          cases phase with
          | cond => rfl
          | body => exact congrArg (fun op => Except.ok (Marked.closed op)) hclosed
      | branch | link | otherwise | loop => rfl

theorem Builder.map_place (b : Builder α) (op : Op α) :
    (b.map f).place (op.mapLoc f) = (b.place op).map f := by
  obtain ⟨root, opened⟩ := b
  cases opened with
  | nil => rfl
  | cons block outer =>
      simp only [Builder.map, Builder.place, List.map_cons, OpenBlock.map_add]

theorem Builder.map_step (b : Builder α) (t : Token α) :
    (b.map f).step (t.map f) = (b.step t).map (Builder.map f) := by
  obtain ⟨lexeme, loc⟩ := t
  cases lexeme with
  | word text =>
      simp only [Builder.step, Token.map]
      cases Intrinsic.ofText? text with
      | none => rfl
      | some i => exact congrArg Except.ok (Builder.map_place f b (.intrinsic loc i))
  | int value => exact congrArg Except.ok (Builder.map_place f b (.push loc value))
  | marker m =>
      obtain ⟨root, opened⟩ := b
      have hmark : ∀ block outer, opened = block :: outer →
          (block.map f).mark m (f loc) = (block.mark m loc).map (Marked.map f) :=
        fun block _ _ => OpenBlock.map_mark f block m loc
      cases m with
      | branch => rfl
      | loop => rfl
      | link | otherwise | body | close =>
          cases opened with
          | nil => rfl
          | cons block outer =>
              simp only [Builder.step, Token.map, Builder.map, List.map_cons,
                hmark block outer rfl]
              cases block.mark _ loc with
              | error cause => rfl
              | ok marked =>
                  cases marked with
                  | still next => rfl
                  | closed op => exact congrArg Except.ok (Builder.map_place f ⟨root, outer⟩ op)

theorem Builder.map_diagnose (b : Builder α) (cause : Cause) (loc : α) :
    (b.map f).diagnose cause (f loc) = (b.diagnose cause loc).map f := by
  have hnote : ∀ block : OpenBlock α,
      (block.map f).note = ⟨block.note.marker, f block.note.loc⟩ := by
    intro block
    cases block <;> rfl
  simp only [Builder.diagnose_eq, Builder.map, Diagnostic.map, List.map_map, Option.map_some,
    Function.comp_def, hnote]

theorem Builder.map_feed (b : Builder α) (t : Token α) :
    (b.map f).feed (t.map f) =
      ((b.feed t).map (Builder.map f)).mapError (Diagnostic.map f) := by
  simp only [Builder.feed, Builder.map_step]
  cases b.step t with
  | ok next => rfl
  | error cause => exact congrArg Except.error (Builder.map_diagnose f b cause t.loc)

theorem Builder.map_feedAll (b : Builder α) (ts : List (Token α)) :
    (b.map f).feedAll (ts.map (Token.map f)) =
      ((b.feedAll ts).map (Builder.map f)).mapError (Diagnostic.map f) := by
  induction ts generalizing b with
  | nil => rfl
  | cons t ts ih =>
      simp only [List.map_cons, Builder.feedAll, Builder.map_feed]
      cases b.feed t with
      | ok next => exact ih next
      | error d => rfl

theorem Builder.map_finish (b : Builder α) (loc : α) :
    (b.map f).finish (f loc) =
      ((b.finish loc).map (Block.mapLoc f)).mapError (Diagnostic.map f) := by
  obtain ⟨root, opened⟩ := b
  cases opened with
  | nil => exact congrArg Except.ok (Block.mapLoc_reverse f root).symm
  | cons block outer =>
      exact congrArg Except.error (Builder.map_diagnose f ⟨root, block :: outer⟩ _ loc)

theorem parse_map (ts : List (Token α)) (loc : α) :
    parse (ts.map (Token.map f)) (f loc) =
      ((parse ts loc).map (Block.mapLoc f)).mapError (Diagnostic.map f) := by
  have h := Builder.map_feedAll f Builder.initial ts
  unfold parse
  cases hfeed : Builder.initial.feedAll ts with
  | ok b =>
      rw [hfeed] at h
      have hinitial : Builder.initial.feedAll (ts.map (Token.map f)) = .ok (b.map f) := h
      simp only [hinitial]
      exact Builder.map_finish f b loc
  | error d =>
      rw [hfeed] at h
      have hinitial : Builder.initial.feedAll (ts.map (Token.map f)) = .error (d.map f) := h
      simp only [hinitial]
      rfl

end StackLang
