import StackLang.Proofs.Parse.Acceptance

-- Faults are found at the first token that no continuation can mend. Every
-- builder can be completed, so that tokens that are taken are never in vain.

namespace StackLang

variable {α : Type}

-- The faults of a token, as opposed to those of the end of the tokens or of a file.
def Cause.ofToken : Cause → Bool
  | .unexpectedMarker _ _ _ _ => true
  | .missingMarker _ .requiredByBlock _ => true
  | .unknownWord _ => true
  | _ => false

-- The fault of the end of the tokens: a block that has not been closed.
def Cause.ofEnd : Cause → Bool
  | .missingMarker _ .blockNotClosed _ => true
  | _ => false

theorem Cause.not_ofEnd_of_ofToken {cause : Cause} (h : cause.ofToken) : ¬cause.ofEnd := by
  intro hend
  unfold Cause.ofEnd at hend
  split at hend
  · cases h
  · cases hend

def Parses (ts : List (Token α)) : Prop :=
  ∃ loc root, parse ts loc = .ok root

-- Something that parses starts with these tokens.
def Viable (ts : List (Token α)) : Prop :=
  ∃ more, Parses (ts ++ more)

-- The tokens before `i` are taken, and token `i` is refused with `d`.
def RejectedAt (ts : List (Token α)) (i : Nat) (d : Diagnostic α) : Prop :=
  ∃ b t, Builder.initial.feedAll (ts.take i) = .ok b ∧ ts[i]? = some t ∧ b.feed t = .error d

theorem OpenBranch.ofToken_of_mark {b : OpenBranch α} {m : Marker} {loc : α} {cause : Cause}
    (h : b.mark m loc = .error cause) : cause.ofToken := by
  unfold OpenBranch.mark at h
  split at h
  · split at h
    · cases h; rfl
    · cases h
  · split at h
    · cases h
    · cases h; rfl
  · cases h
  · cases h; rfl
  · cases h; rfl
  · cases h; rfl

theorem OpenLoop.ofToken_of_mark {l : OpenLoop α} {m : Marker} {loc : α} {cause : Cause}
    (h : l.mark m loc = .error cause) : cause.ofToken := by
  unfold OpenLoop.mark at h
  split at h
  · split at h
    · cases h; rfl
    · cases h
  · split at h
    · cases h; rfl
    · cases h
  · cases h; rfl
  · cases h; rfl
  · cases h; rfl
  · cases h; rfl

theorem Builder.ofToken_of_step {b : Builder α} {t : Token α} {cause : Cause}
    (h : b.step t = .error cause) : cause.ofToken := by
  unfold Builder.step at h
  split at h
  · split at h
    · cases h
    · cases h; rfl
  · cases h
  · cases h
  · cases h
  · split at h
    · cases h; rfl
    · next block outer hopened =>
        split at h
        · next hmark =>
            cases h
            cases block with
            | branch b => exact OpenBranch.ofToken_of_mark hmark
            | loop l => exact OpenLoop.ofToken_of_mark hmark
        · cases h
        · cases h

theorem Builder.ofToken_of_feed {b : Builder α} {t : Token α} {d : Diagnostic α}
    (h : b.feed t = .error d) : d.cause.ofToken ∧ d.loc = some t.loc := by
  unfold Builder.feed at h
  split at h
  · cases h
  · next hstep =>
      cases h
      rw [Builder.diagnose_cause, Builder.diagnose_loc]
      exact ⟨Builder.ofToken_of_step hstep, rfl⟩

theorem Builder.feedAll_append (b : Builder α) (us vs : List (Token α)) :
    b.feedAll (us ++ vs) = (b.feedAll us).bind fun mid => mid.feedAll vs := by
  induction us generalizing b with
  | nil => rfl
  | cons t us ih =>
      simp only [List.cons_append, Builder.feedAll]
      cases b.feed t with
      | ok next => exact ih next
      | error d => rfl

-- The markers that an open block still needs.
def OpenBlock.closing (loc : α) : OpenBlock α → List (Token α)
  | .loop ⟨_, _, _, _, .cond⟩ => [⟨.marker .body, loc⟩, ⟨.marker .close, loc⟩]
  | _ => [⟨.marker .close, loc⟩]

theorem OpenBlock.exists_feedAll_closing (loc : α) (block : OpenBlock α) :
    ∃ op, ∀ (root : Block α) (outer : List (OpenBlock α)),
      Builder.feedAll ⟨root, block :: outer⟩ (block.closing loc) =
        .ok (Builder.place ⟨root, outer⟩ op) := by
  cases block with
  | branch b => exact ⟨b.closed, fun root outer => rfl⟩
  | loop l =>
      obtain ⟨start, cond, doLoc, body, phase⟩ := l
      cases phase with
      | cond =>
          exact ⟨.loop start cond.reverse (some loc) body.reverse, fun root outer => rfl⟩
      | body => exact ⟨.loop start cond.reverse doLoc body.reverse, fun root outer => rfl⟩

theorem Builder.length_opened_place (b : Builder α) (op : Op α) :
    (b.place op).opened.length = b.opened.length := by
  obtain ⟨root, opened⟩ := b
  cases opened <;> rfl

-- The induction is on the number of open blocks: closing the innermost of them
-- changes the block around it, and no other.
theorem Builder.exists_completion (loc : α) (n : Nat) (b : Builder α) (hn : b.opened.length = n) :
    ∃ ts root, b.feedAll ts = .ok ⟨root, []⟩ := by
  induction n generalizing b with
  | zero =>
      obtain ⟨root, opened⟩ := b
      obtain rfl := List.length_eq_zero_iff.mp hn
      exact ⟨[], root, rfl⟩
  | succ n ih =>
      obtain ⟨root, opened⟩ := b
      cases opened with
      | nil => cases hn
      | cons block outer =>
          obtain ⟨op, hclosing⟩ := block.exists_feedAll_closing loc
          have hlength : (Builder.place ⟨root, outer⟩ op).opened.length = n := by
            rw [Builder.length_opened_place]
            simpa using hn
          obtain ⟨ts, root', hts⟩ := ih _ hlength
          refine ⟨block.closing loc ++ ts, root', ?_⟩
          rw [Builder.feedAll_append, hclosing]
          exact hts

theorem parses_iff {ts : List (Token α)} (loc : α) :
    Parses ts ↔ ∃ root, Builder.initial.feedAll ts = .ok ⟨root, []⟩ := by
  constructor
  · rintro ⟨_, _, h⟩
    obtain ⟨⟨root, opened⟩, hfeed, hopened, _⟩ := parse_eq_ok_iff.mp h
    obtain rfl : opened = [] := hopened
    exact ⟨root, hfeed⟩
  · rintro ⟨root, hfeed⟩
    exact ⟨loc, root.reverse, parse_eq_ok_iff.mpr ⟨_, hfeed, rfl, rfl⟩⟩

-- Tokens are viable as long as they are taken.
theorem viable_iff {ts : List (Token α)} (loc : α) :
    Viable ts ↔ ∃ b, Builder.initial.feedAll ts = .ok b := by
  constructor
  · rintro ⟨more, h⟩
    obtain ⟨root, hfeed⟩ := (parses_iff loc).mp h
    rw [Builder.feedAll_append] at hfeed
    cases hts : Builder.initial.feedAll ts with
    | ok b => exact ⟨b, rfl⟩
    | error d =>
        rw [hts] at hfeed
        cases hfeed
  · rintro ⟨b, hfeed⟩
    obtain ⟨more, root, hmore⟩ := Builder.exists_completion loc _ b rfl
    refine ⟨more, (parses_iff loc).mpr ⟨root, ?_⟩⟩
    rw [Builder.feedAll_append, hfeed]
    exact hmore

theorem feedAll_take_succ {ts : List (Token α)} {i : Nat} {t : Token α} {b : Builder α}
    (ht : ts[i]? = some t) (hb : Builder.initial.feedAll (ts.take i) = .ok b) :
    Builder.initial.feedAll (ts.take (i + 1)) = b.feed t := by
  rw [List.take_add_one, ht, Builder.feedAll_append, hb]
  simp only [Except.bind, Option.toList, Builder.feedAll]
  cases b.feed t <;> rfl

theorem RejectedAt.feedAll_take {ts : List (Token α)} {i : Nat} {d : Diagnostic α}
    (h : RejectedAt ts i d) : Builder.initial.feedAll (ts.take (i + 1)) = .error d := by
  obtain ⟨b, t, hb, ht, hfeed⟩ := h
  rw [feedAll_take_succ ht hb, hfeed]

-- What has been refused stays refused.
theorem RejectedAt.parse_append {ts : List (Token α)} {i : Nat} {d : Diagnostic α}
    (h : RejectedAt ts i d) (more : List (Token α)) (loc : α) :
    parse (ts.take (i + 1) ++ more) loc = .error d := by
  unfold parse
  rw [Builder.feedAll_append, h.feedAll_take]
  rfl

theorem RejectedAt.parse_eq {ts : List (Token α)} {i : Nat} {d : Diagnostic α}
    (h : RejectedAt ts i d) (loc : α) : parse ts loc = .error d := by
  have hparse := h.parse_append (ts.drop (i + 1)) loc
  rwa [List.take_append_drop] at hparse

theorem rejectedAt_iff_viable (loc : α) (ts : List (Token α)) (i : Nat) :
    (∃ d, RejectedAt ts i d) ↔
      i < ts.length ∧ Viable (ts.take i) ∧ ¬Viable (ts.take (i + 1)) := by
  rw [viable_iff loc, viable_iff loc]
  constructor
  · rintro ⟨d, h⟩
    have hnext := h.feedAll_take
    obtain ⟨b, t, hb, ht, _⟩ := h
    refine ⟨(List.getElem?_eq_some_iff.mp ht).1, ⟨b, hb⟩, ?_⟩
    rintro ⟨b', hb'⟩
    rw [hnext] at hb'
    cases hb'
  · rintro ⟨hi, ⟨b, hb⟩, hnot⟩
    have ht : ts[i]? = some ts[i] := List.getElem?_eq_getElem hi
    cases hfeed : b.feed ts[i] with
    | ok b' => exact absurd ⟨b', (feedAll_take_succ ht hb).trans hfeed⟩ hnot
    | error d => exact ⟨d, b, ts[i], hb, ht, hfeed⟩

-- A run that is refused is refused at one of its tokens.
theorem Builder.exists_rejected_of_feedAll {b : Builder α} {ts : List (Token α)} {d : Diagnostic α}
    (h : b.feedAll ts = .error d) :
    ∃ i last t, b.feedAll (ts.take i) = .ok last ∧ ts[i]? = some t ∧ last.feed t = .error d := by
  induction ts generalizing b with
  | nil => cases h
  | cons t ts ih =>
      simp only [Builder.feedAll] at h
      split at h
      · next next hfeed =>
          obtain ⟨i, last, t', hlast, ht', hd⟩ := ih h
          refine ⟨i + 1, last, t', ?_, ht', hd⟩
          simpa only [List.take_succ_cons, Builder.feedAll, hfeed] using hlast
      · next hfeed =>
          cases h
          exact ⟨0, b, t, rfl, rfl, hfeed⟩

theorem Builder.ofToken_of_feedAll {b : Builder α} {ts : List (Token α)} {d : Diagnostic α}
    (h : b.feedAll ts = .error d) : d.cause.ofToken := by
  obtain ⟨_, _, _, _, _, hfeed⟩ := Builder.exists_rejected_of_feedAll h
  exact (Builder.ofToken_of_feed hfeed).1

theorem parse_eq_error_iff {ts : List (Token α)} {loc : α} {d : Diagnostic α} :
    parse ts loc = .error d ↔ (∃ i, RejectedAt ts i d) ∨
      ∃ b, Builder.initial.feedAll ts = .ok b ∧ b.opened ≠ [] ∧
        d = b.diagnose (.missingMarker .close .blockNotClosed none) loc := by
  constructor
  · intro h
    unfold parse at h
    split at h
    · next b hfeed =>
        refine .inr ⟨b, hfeed, ?_⟩
        unfold Builder.finish at h
        split at h
        · cases h
        · next hopened =>
            cases h
            exact ⟨by simpa using hopened, rfl⟩
    · next hfeed =>
        cases h
        exact .inl (Builder.exists_rejected_of_feedAll hfeed)
  · rintro (⟨i, h⟩ | ⟨b, hfeed, hopened, rfl⟩)
    · exact h.parse_eq loc
    · simp only [parse, hfeed, Builder.finish, List.isEmpty_iff, if_neg hopened]

theorem RejectedAt.ofToken {ts : List (Token α)} {i : Nat} {d : Diagnostic α}
    (h : RejectedAt ts i d) :
    d.cause.ofToken ∧ ∃ t, ts[i]? = some t ∧ d.loc = some t.loc := by
  obtain ⟨b, t, _, ht, hfeed⟩ := h
  have hd := Builder.ofToken_of_feed hfeed
  exact ⟨hd.1, t, ht, hd.2⟩

-- Parsing fails with a fault of a token just when some token is refused.
theorem parse_ofToken_iff {ts : List (Token α)} {loc : α} {d : Diagnostic α} :
    (parse ts loc = .error d ∧ d.cause.ofToken) ↔ ∃ i, RejectedAt ts i d := by
  constructor
  · rintro ⟨h, hcause⟩
    rcases parse_eq_error_iff.mp h with hrejected | ⟨b, _, _, rfl⟩
    · exact hrejected
    · rw [Builder.diagnose_cause] at hcause
      cases hcause
  · rintro ⟨i, h⟩
    exact ⟨h.parse_eq loc, h.ofToken.1⟩

-- With locations that tell tokens apart, the location of a fault says which
-- token was refused.
theorem rejectedAt_iff_loc {ts : List (Token α)} {loc : α} {d : Diagnostic α} {i : Nat}
    {t : Token α} (hdistinct : (ts.map Token.loc).Nodup) (ht : ts[i]? = some t) :
    RejectedAt ts i d ↔ parse ts loc = .error d ∧ d.cause.ofToken ∧ d.loc = some t.loc := by
  constructor
  · intro h
    obtain ⟨hcause, t', ht', hloc⟩ := h.ofToken
    obtain rfl := Option.some.inj (ht.symm.trans ht')
    exact ⟨h.parse_eq loc, hcause, hloc⟩
  · rintro ⟨h, hcause, hloc⟩
    obtain ⟨j, hj⟩ := parse_ofToken_iff.mp ⟨h, hcause⟩
    obtain ⟨_, t', ht', hloc'⟩ := hj.ofToken
    have hsame : (ts.map Token.loc)[i]? = (ts.map Token.loc)[j]? := by
      rw [List.getElem?_map, List.getElem?_map, ht, ht']
      exact hloc.symm.trans hloc'
    have hi : i < (ts.map Token.loc).length := by
      simpa using (List.getElem?_eq_some_iff.mp ht).1
    rwa [(List.getElem?_inj hi hdistinct).mp hsame]

theorem parse_unclosed_iff {ts : List (Token α)} (loc : α) :
    (∃ d, parse ts loc = .error d ∧ d.cause.ofEnd) ↔
      ¬Parses ts ∧ ∃ more, more ≠ [] ∧ Parses (ts ++ more) := by
  constructor
  · rintro ⟨d, h, hcause⟩
    rcases parse_eq_error_iff.mp h with ⟨i, hrejected⟩ | ⟨b, hfeed, hopened, rfl⟩
    · exact absurd hcause (Cause.not_ofEnd_of_ofToken hrejected.ofToken.1)
    · have hnot : ¬Parses ts := by
        intro hparses
        obtain ⟨root, hroot⟩ := (parses_iff loc).mp hparses
        rw [hfeed] at hroot
        cases hroot
        exact hopened rfl
      obtain ⟨more, hmore⟩ := (viable_iff loc).mpr ⟨b, hfeed⟩
      refine ⟨hnot, more, ?_, hmore⟩
      rintro rfl
      rw [List.append_nil] at hmore
      exact hnot hmore
  · rintro ⟨hnot, more, _, hmore⟩
    obtain ⟨b, hfeed⟩ := (viable_iff loc).mp ⟨more, hmore⟩
    have hopened : b.opened ≠ [] := by
      intro h
      obtain ⟨root, opened⟩ := b
      obtain rfl : opened = [] := h
      exact hnot ((parses_iff loc).mpr ⟨root, hfeed⟩)
    refine ⟨_, parse_eq_error_iff.mpr (.inr ⟨b, hfeed, hopened, rfl⟩), ?_⟩
    rw [Builder.diagnose_cause]
    rfl

-- A token is refused just when it is the first that leaves nothing to hope
-- for; a block is reported open just when more tokens would help; and what is
-- refused once is refused in the same words whatever follows.
theorem parse_faults_earliest (ts : List (Token α)) (loc : α) :
    (∀ d, (parse ts loc = .error d ∧ d.cause.ofToken) ↔ ∃ i, RejectedAt ts i d) ∧
    (∀ i, (∃ d, RejectedAt ts i d) ↔
      i < ts.length ∧ Viable (ts.take i) ∧ ¬Viable (ts.take (i + 1))) ∧
    (∀ i d, RejectedAt ts i d → (∃ t, ts[i]? = some t ∧ d.loc = some t.loc) ∧
      ∀ more last, parse (ts.take (i + 1) ++ more) last = .error d) ∧
    ((ts.map Token.loc).Nodup → ∀ i t d, ts[i]? = some t → (RejectedAt ts i d ↔
      parse ts loc = .error d ∧ d.cause.ofToken ∧ d.loc = some t.loc)) ∧
    ((∃ d, parse ts loc = .error d ∧ d.cause.ofEnd) ↔
      ¬Parses ts ∧ ∃ more, more ≠ [] ∧ Parses (ts ++ more)) := by
  refine ⟨fun d => parse_ofToken_iff, rejectedAt_iff_viable loc ts, ?_, ?_,
    parse_unclosed_iff loc⟩
  · intro i d h
    exact ⟨h.ofToken.2, h.parse_append⟩
  · intro hdistinct i t d ht
    exact rejectedAt_iff_loc hdistinct ht

end StackLang
