import StackLang.Proofs.Parse.Frames

-- The builder accepts exactly the grammar. What it holds always stands for the
-- tokens that it has read, and each derivation leads it to the derived tree.

namespace StackLang

variable {α : Type}

-- The tokens that have been read, told from what is under construction.

def OpenLink.spelling (link : OpenLink α) : List (Token (Option α)) :=
  ⟨.marker .otherwise, none⟩ :: (Block.spelling link.cond.reverse ++
    ⟨.marker .link, some link.loc⟩ :: Block.spelling link.inner.reverse)

def elseSpelling : Option (Block α) → List (Token (Option α))
  | none => []
  | some block => ⟨.marker .otherwise, none⟩ :: Block.spelling block.reverse

def OpenBranch.spelling (b : OpenBranch α) : List (Token (Option α)) :=
  ⟨.marker .branch, some b.loc⟩ :: (Block.spelling b.body.reverse ++
    (b.links.reverse.flatMap OpenLink.spelling ++ elseSpelling b.otherwise))

def OpenLoop.spelling (l : OpenLoop α) : List (Token (Option α)) :=
  ⟨.marker .loop, some l.loc⟩ :: (Block.spelling l.cond.reverse ++
    match l.doLoc with
    | none => []
    | some doLoc => ⟨.marker .body, some doLoc⟩ :: Block.spelling l.body.reverse)

def OpenBlock.spelling : OpenBlock α → List (Token (Option α))
  | .branch b => b.spelling
  | .loop l => l.spelling

-- The root first, then the open blocks from the outermost to the innermost.
def Builder.spelling (b : Builder α) : List (Token (Option α)) :=
  Block.spelling b.root.reverse ++ b.opened.reverse.flatMap OpenBlock.spelling

theorem OpenBranch.Sound.spelling_add {b : OpenBranch α} (hb : b.Sound) (op : Op α) :
    (b.add op).spelling = b.spelling ++ op.spelling := by
  obtain ⟨loc, body, links, otherwise, phase⟩ := b
  obtain ⟨ho, hbody, hlink⟩ := hb
  cases phase with
  | body =>
      have hlinks : links = [] := hbody rfl
      have hnone : otherwise = none := by simpa using ho
      simp [OpenBranch.add, OpenBranch.spelling, hlinks, hnone, elseSpelling]
  | link =>
      have hnone : otherwise = none := by simpa using ho
      cases links with
      | nil => exact absurd rfl (hlink rfl)
      | cons link links =>
          simp [OpenBranch.add, OpenBranch.spelling, OpenLink.spelling, hnone, elseSpelling]
  | otherwise =>
      obtain ⟨block, rfl⟩ : ∃ block, otherwise = some block := by
        simpa [Option.isSome_iff_exists] using ho
      simp [OpenBranch.add, OpenBranch.spelling, elseSpelling]

theorem OpenLoop.Sound.spelling_add {l : OpenLoop α} (hl : l.Sound) (op : Op α) :
    (l.add op).spelling = l.spelling ++ op.spelling := by
  obtain ⟨loc, cond, doLoc, body, phase⟩ := l
  obtain ⟨hd, hbody⟩ := hl
  cases phase with
  | cond =>
      have hnone : doLoc = none := by simpa using hd
      simp [OpenLoop.add, OpenLoop.spelling, hnone]
  | body =>
      obtain ⟨at', rfl⟩ : ∃ at', doLoc = some at' := by simpa [Option.isSome_iff_exists] using hd
      simp [OpenLoop.add, OpenLoop.spelling]

theorem OpenBlock.Sound.spelling_add {block : OpenBlock α} (h : block.Sound) (op : Op α) :
    (block.add op).spelling = block.spelling ++ op.spelling := by
  cases block with
  | branch b => exact OpenBranch.Sound.spelling_add h op
  | loop l => exact OpenLoop.Sound.spelling_add h op

theorem Builder.Sound.spelling_place {b : Builder α} (hb : b.Sound) (op : Op α) :
    (b.place op).spelling = b.spelling ++ op.spelling := by
  obtain ⟨root, opened⟩ := b
  cases opened with
  | nil => simp [Builder.place, Builder.spelling]
  | cons block outer =>
      have h := (hb.of_opened rfl).1.spelling_add op
      simp [Builder.place, Builder.spelling, h]

-- The links of an open `if` come before whatever ends its chain.
def OpenBranch.linked (links : List (OpenLink α)) (last : Chain α) : Chain α :=
  links.foldl (fun rest link => .link link.cond.reverse link.loc link.inner.reverse rest) last

theorem OpenBranch.spelling_linked (links : List (OpenLink α)) (last : Chain α) :
    (OpenBranch.linked links last).spelling =
      links.reverse.flatMap OpenLink.spelling ++ last.spelling := by
  induction links generalizing last with
  | nil => rfl
  | cons link links ih =>
      have h := ih (.link link.cond.reverse link.loc link.inner.reverse last)
      simp only [OpenBranch.linked, List.foldl_cons] at h ⊢
      rw [h]
      simp [OpenLink.spelling]

theorem OpenBranch.spelling_closed (b : OpenBranch α) :
    b.closed.spelling = b.spelling ++ [⟨.marker .close, none⟩] := by
  have h := OpenBranch.spelling_linked b.links
    (match b.otherwise with
      | none => .none
      | some block => .otherwise block.reverse)
  have hchain : b.chain.spelling =
      b.links.reverse.flatMap OpenLink.spelling ++ elseSpelling b.otherwise := by
    refine h.trans ?_
    cases b.otherwise <;> rfl
  simp [OpenBranch.closed, OpenBranch.spelling, hchain]

theorem OpenBlock.spelling_closed_of_mark {block : OpenBlock α} {m : Marker} {loc : α} {op : Op α}
    (hs : block.Sound) (h : block.mark m loc = .ok (.closed op)) :
    op.spelling = block.spelling ++ [Token.kept ⟨.marker m, loc⟩] := by
  cases block with
  | branch b =>
      obtain ⟨_, _, hop⟩ | ⟨cond, _, _, hop⟩ | ⟨rfl, hop⟩ := OpenBranch.mark_cases h
      · cases hop
      · cases hop
      · cases hop
        exact b.spelling_closed
  | loop l =>
      obtain ⟨_, _, hop⟩ | ⟨rfl, hphase, hop⟩ := OpenLoop.mark_cases h
      · cases hop
      · cases hop
        obtain ⟨doLoc, hd⟩ := Option.isSome_iff_exists.mp (hs.doLoc_iff.mpr hphase)
        simp [OpenLoop.closed, OpenBlock.spelling, OpenLoop.spelling, hd, Token.kept]

-- The block that an `if*` moves from the `else` to a link is spelled as before.
theorem OpenBlock.spelling_still_of_mark {block next : OpenBlock α} {m : Marker} {loc : α}
    (hs : block.Sound) (h : block.mark m loc = .ok (.still next)) :
    next.spelling = block.spelling ++ [Token.kept ⟨.marker m, loc⟩] := by
  cases block with
  | branch b =>
      obtain ⟨rfl, hphase, hnext⟩ | ⟨cond, rfl, hcond, hnext⟩ | ⟨_, hnext⟩ :=
        OpenBranch.mark_cases h
      · cases hnext
        have hnone : b.otherwise = none := by
          simpa using mt hs.otherwise_iff.mp hphase
        simp [OpenBlock.spelling, OpenBranch.spelling, elseSpelling, hnone, Token.kept]
      · cases hnext
        simp [OpenBlock.spelling, OpenBranch.spelling, OpenLink.spelling, elseSpelling, hcond,
          Token.kept]
      · cases hnext
  | loop l =>
      obtain ⟨rfl, hphase, hnext⟩ | ⟨_, _, hnext⟩ := OpenLoop.mark_cases h
      · cases hnext
        have hnone : l.doLoc = none := by
          have hne : l.phase ≠ .body := by simp [hphase]
          simpa using mt hs.doLoc_iff.mp hne
        simp [OpenBlock.spelling, OpenLoop.spelling, hnone, hs.body_of_cond hphase, Token.kept]
      · cases hnext

-- One step: the token that is taken comes to stand last.
theorem Builder.Sound.spelling_takes {b next : Builder α} {t : Token α} (hb : b.Sound)
    (h : b.Takes t next) : next.spelling = b.spelling ++ [t.kept] := by
  cases h with
  | int loc value => exact hb.spelling_place _
  | word loc i => exact hb.spelling_place _
  | branch loc =>
      simp [Builder.spelling, OpenBlock.spelling, OpenBranch.spelling, OpenBranch.start,
        elseSpelling, Token.kept]
  | loop loc =>
      simp [Builder.spelling, OpenBlock.spelling, OpenLoop.spelling, OpenLoop.start, Token.kept]
  | still hopened hmark =>
      have hs := OpenBlock.spelling_still_of_mark (hb.of_opened hopened).1 hmark
      simp [Builder.spelling, hopened, hs]
  | @closed m loc block op outer hopened hmark =>
      have hs := OpenBlock.spelling_closed_of_mark (hb.of_opened hopened).1 hmark
      have houter : Builder.Sound { b with opened := outer } := (hb.of_opened hopened).2
      rw [houter.spelling_place op, hs]
      simp [Builder.spelling, hopened]

theorem Builder.feedAll_cons_of_step {b next : Builder α} {t : Token α} (h : b.step t = .ok next)
    (rest : List (Token α)) : b.feedAll (t :: rest) = next.feedAll rest := by
  simp only [Builder.feedAll, Builder.feed, h]

-- A whole run: nothing that has been read is lost, doubled or moved.
theorem Builder.Sound.feedAll {b next : Builder α} {ts : List (Token α)} (hb : b.Sound)
    (h : b.feedAll ts = .ok next) :
    next.Sound ∧ next.spelling = b.spelling ++ ts.map Token.kept := by
  induction ts generalizing b with
  | nil =>
      cases h
      exact ⟨hb, by simp⟩
  | cons t ts ih =>
      simp only [Builder.feedAll] at h
      split at h
      · next mid hfeed =>
          have htakes := Builder.takes_of_feed hfeed
          obtain ⟨hsound, hspelling⟩ := ih (hb.takes htakes) h
          refine ⟨hsound, ?_⟩
          rw [hspelling, hb.spelling_takes htakes, List.append_assoc]
          rfl
      · cases h

def Builder.placeAll (b : Builder α) (ops : Block α) : Builder α :=
  ops.foldl Builder.place b

-- An open block with a hole for the operations that come next. Each of the
-- phases of a block has its own hole.
theorem Builder.placeAll_hole (hole : Block α → OpenBlock α)
    (hadd : ∀ ops op, (hole ops).add op = hole (op :: ops)) (root : Block α)
    (outer : List (OpenBlock α)) (ops : Block α) :
    Builder.placeAll ⟨root, hole [] :: outer⟩ ops = ⟨root, hole ops.reverse :: outer⟩ := by
  have h : ∀ done : Block α, Builder.placeAll ⟨root, hole done :: outer⟩ ops =
      ⟨root, hole (ops.reverse ++ done) :: outer⟩ := by
    induction ops with
    | nil => intro done; rfl
    | cons op ops ih =>
        intro done
        have hplace : Builder.place ⟨root, hole done :: outer⟩ op =
            ⟨root, hole (op :: done) :: outer⟩ := by
          rw [← hadd]
          rfl
        have hstep : Builder.placeAll ⟨root, hole done :: outer⟩ (op :: ops) =
            Builder.placeAll ⟨root, hole (op :: done) :: outer⟩ ops := by
          rw [← hplace]
          rfl
        rw [hstep, ih]
        simp
  simpa using h []

theorem Builder.placeAll_root (done ops : Block α) :
    Builder.placeAll ⟨done, []⟩ ops = ⟨ops.reverse ++ done, []⟩ := by
  induction ops generalizing done with
  | nil => rfl
  | cons op ops ih =>
      have hstep : Builder.placeAll ⟨done, []⟩ (op :: ops) =
          Builder.placeAll ⟨op :: done, []⟩ ops := rfl
      rw [hstep, ih]
      simp

-- What a derivation does to a builder: it places the derived operations, or
-- puts the derived chain behind the links of the innermost `if`.

mutual

theorem Grammar.Units.feedAll_eq {ts : List (Token α)} {ops : Block α} :
    Grammar.Units ts ops → ∀ (b : Builder α) (more : List (Token α)),
      b.feedAll (ts ++ more) = (b.placeAll ops).feedAll more
  | .nil, _, _ => rfl
  | .cons hop hops, b, more => by
      rw [List.append_assoc, hop.feedAll_eq, hops.feedAll_eq]
      rfl

theorem Grammar.One.feedAll_eq {ts : List (Token α)} {op : Op α} :
    Grammar.One ts op → ∀ (b : Builder α) (more : List (Token α)),
      b.feedAll (ts ++ more) = (b.place op).feedAll more
  | .int loc value, b, more => Builder.feedAll_cons_of_step rfl more
  | .word loc i, b, more => by
      apply Builder.feedAll_cons_of_step
      simp only [Builder.step, Intrinsic.ofText?_text]
  | @Grammar.One.branch _ loc close ts us body chain hbody hchain, b, more => by
      have hopen := Builder.placeAll_hole (fun ops => .branch ⟨loc, ops, [], none, .body⟩)
        (fun _ _ => rfl) b.root b.opened body
      obtain ⟨y, hfeed, hclosed⟩ := hchain.feedAll_eq ⟨loc, body.reverse, [], none, .body⟩ b.root
        b.opened (⟨.marker .close, close⟩ :: more) rfl (by simp)
      rw [List.reverse_reverse] at hclosed
      simp only [List.cons_append, List.append_assoc, List.nil_append]
      rw [Builder.feedAll_cons_of_step rfl, hbody.feedAll_eq]
      simp only [OpenBranch.start] at hopen ⊢
      rw [hopen, hfeed, Builder.feedAll_cons_of_step rfl, hclosed]
      rfl
  | @Grammar.One.loop _ loc doLoc close ts us cond body hcond hbody, b, more => by
      have hfirst := Builder.placeAll_hole (fun ops => .loop ⟨loc, ops, none, [], .cond⟩)
        (fun _ _ => rfl) b.root b.opened cond
      have hsecond := Builder.placeAll_hole
        (fun ops => .loop ⟨loc, cond.reverse, some doLoc, ops, .body⟩)
        (fun _ _ => rfl) b.root b.opened body
      simp only [List.cons_append, List.append_assoc, List.nil_append]
      rw [Builder.feedAll_cons_of_step rfl, hcond.feedAll_eq]
      simp only [OpenLoop.start] at hfirst ⊢
      rw [hfirst, Builder.feedAll_cons_of_step rfl, hbody.feedAll_eq, hsecond,
        Builder.feedAll_cons_of_step rfl]
      simp [OpenLoop.closed]

theorem Grammar.Tail.feedAll_eq {ts : List (Token α)} {chain : Chain α} :
    Grammar.Tail ts chain → ∀ (x : OpenBranch α) (root : Block α) (outer : List (OpenBlock α))
      (more : List (Token α)), x.otherwise = none → x.phase ≠ .otherwise →
      ∃ y : OpenBranch α,
        Builder.feedAll ⟨root, .branch x :: outer⟩ (ts ++ more) =
          Builder.feedAll ⟨root, .branch y :: outer⟩ more ∧
        y.closed = .branch x.loc x.body.reverse (OpenBranch.linked x.links chain)
  | .none, x, root, outer, more, hx, _ => by
      refine ⟨x, rfl, ?_⟩
      simp only [OpenBranch.closed, OpenBranch.chain, hx]
      rfl
  | @Grammar.Tail.otherwise _ at' ts block hblock, ⟨loc, body, links, _, phase⟩, root, outer,
      more, rfl, hphase => by
      have hopen := Builder.placeAll_hole
        (fun ops => .branch ⟨loc, body, links, some ops, .otherwise⟩)
        (fun _ _ => rfl) root outer block
      have helse : Builder.step ⟨root, .branch ⟨loc, body, links, none, phase⟩ :: outer⟩
          ⟨.marker .otherwise, at'⟩ =
          .ok ⟨root, .branch ⟨loc, body, links, some [], .otherwise⟩ :: outer⟩ := by
        simp only [Builder.step, OpenBlock.mark, OpenBranch.mark, if_neg hphase]
      refine ⟨⟨loc, body, links, some block.reverse, .otherwise⟩, ?_, ?_⟩
      · rw [List.cons_append, Builder.feedAll_cons_of_step helse, hblock.feedAll_eq, hopen]
      · simp only [OpenBranch.closed, OpenBranch.chain, List.reverse_reverse]
        rfl
  | @Grammar.Tail.link _ at' linkLoc ts us vs cond inner rest hcond hinner hrest,
      ⟨loc, body, links, _, phase⟩, root, outer, more, rfl, hphase => by
      have hfirst := Builder.placeAll_hole
        (fun ops => .branch ⟨loc, body, links, some ops, .otherwise⟩)
        (fun _ _ => rfl) root outer cond
      have hsecond := Builder.placeAll_hole
        (fun ops => .branch ⟨loc, body, ⟨cond.reverse, linkLoc, ops⟩ :: links, none, .link⟩)
        (fun _ _ => rfl) root outer inner
      have helse : Builder.step ⟨root, .branch ⟨loc, body, links, none, phase⟩ :: outer⟩
          ⟨.marker .otherwise, at'⟩ =
          .ok ⟨root, .branch ⟨loc, body, links, some [], .otherwise⟩ :: outer⟩ := by
        simp only [Builder.step, OpenBlock.mark, OpenBranch.mark, if_neg hphase]
      obtain ⟨y, hfeed, hclosed⟩ := hrest.feedAll_eq
        ⟨loc, body, ⟨cond.reverse, linkLoc, inner.reverse⟩ :: links, none, .link⟩ root outer more
        rfl (by simp)
      refine ⟨y, ?_, ?_⟩
      · simp only [List.cons_append, List.append_assoc]
        rw [Builder.feedAll_cons_of_step helse, hcond.feedAll_eq, hfirst,
          Builder.feedAll_cons_of_step rfl, hinner.feedAll_eq, hsecond, hfeed]
      · rw [hclosed]
        simp [OpenBranch.linked]

end

theorem Builder.finish_eq_ok_iff {b : Builder α} {loc : α} {root : Block α} :
    b.finish loc = .ok root ↔ b.opened = [] ∧ root = b.root.reverse := by
  unfold Builder.finish
  constructor
  · intro h
    split at h
    · next hopened =>
        cases h
        exact ⟨List.isEmpty_iff.mp hopened, rfl⟩
    · cases h
  · rintro ⟨hopened, rfl⟩
    rw [if_pos (List.isEmpty_iff.mpr hopened)]

theorem parse_eq_ok_iff {ts : List (Token α)} {loc : α} {root : Block α} :
    parse ts loc = .ok root ↔
      ∃ b, Builder.initial.feedAll ts = .ok b ∧ b.opened = [] ∧ root = b.root.reverse := by
  unfold parse
  cases hfeed : Builder.initial.feedAll ts with
  | error d => simp
  | ok b =>
      simp only [Except.ok.injEq, exists_eq_left']
      exact Builder.finish_eq_ok_iff

theorem spelling_of_parse {ts : List (Token α)} {loc : α} {root : Block α}
    (h : parse ts loc = .ok root) : Block.spelling root = ts.map Token.kept := by
  obtain ⟨b, hfeed, hopened, rfl⟩ := parse_eq_ok_iff.mp h
  have hspelling := (Builder.sound_initial.feedAll hfeed).2
  simpa [Builder.spelling, hopened, Builder.initial] using hspelling

theorem parse_of_units {ts : List (Token α)} {root : Block α} (h : Grammar.Units ts root)
    (loc : α) : parse ts loc = .ok root := by
  have hfeed := h.feedAll_eq Builder.initial []
  rw [List.append_nil] at hfeed
  refine parse_eq_ok_iff.mpr ⟨⟨root.reverse, []⟩, ?_, rfl, by simp⟩
  rw [hfeed, Builder.initial, Builder.placeAll_root, List.append_nil]
  rfl

-- Parsing gives a tree for exactly the tokens that the tree is written as, and
-- these are the sentences of the grammar, each of them derived in one way only.
theorem parse_iff_spelling (ts : List (Token α)) (loc : α) (root : Block α) :
    (parse ts loc = .ok root ↔ Block.spelling root = ts.map Token.kept) ∧
    (parse ts loc = .ok root ↔ Grammar.Units ts root) ∧
    (∀ other, Grammar.Units ts root → Grammar.Units ts other → root = other) := by
  have hunits : Block.spelling root = ts.map Token.kept → Grammar.Units ts root :=
    Grammar.units_of_spelling_eq root
  refine ⟨⟨spelling_of_parse, fun h => parse_of_units (hunits h) loc⟩,
    ⟨fun h => hunits (spelling_of_parse h), fun h => parse_of_units h loc⟩, ?_⟩
  intro other hroot hother
  have h := (parse_of_units hroot loc).symm.trans (parse_of_units hother loc)
  exact Except.ok.inj h

end StackLang
