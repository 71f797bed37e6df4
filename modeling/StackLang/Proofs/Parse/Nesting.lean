import Mathlib.Data.List.Induction
import StackLang.Proofs.Parse.Faults
import StackLang.Proofs.Program.Pipeline

-- What a diagnostic says, told from the tokens alone: plain bracket matching
-- gives the notes, and the innermost open block and its last marker the cause.

namespace StackLang

variable {α : Type}

-- Bracket matching: `if` and `while` open and `end` closes. What is left open is
-- held latest first.
def bracket (unclosed : List (Note α)) (t : Token α) : List (Note α) :=
  match t.lexeme with
  | .marker .branch => ⟨.branch, t.loc⟩ :: unclosed
  | .marker .loop => ⟨.loop, t.loc⟩ :: unclosed
  | .marker .close => unclosed.tail
  | _ => unclosed

def unclosed (ts : List (Token α)) : List (Note α) :=
  ts.foldl bracket []

-- The last `else`, `if*` or `do` of the innermost open block itself. The tokens
-- are passed latest first, and `closed` counts the blocks inside it to be skipped.
def ownMarker (closed : Nat) : List (Token α) → Option Marker
  | [] => none
  | t :: earlier =>
      match t.lexeme with
      | .marker .close => ownMarker (closed + 1) earlier
      | .marker .branch | .marker .loop =>
          if closed = 0 then none else ownMarker (closed - 1) earlier
      | .marker m => if closed = 0 then some m else ownMarker closed earlier
      | _ => ownMarker closed earlier

-- What is wrong with a marker in a block whose last own marker is `last`.
def Marker.fault (block last : Option Marker) (m : Marker) : Option Cause :=
  match block, m with
  | _, .branch | _, .loop => none
  | none, m => some (.unexpectedMarker m .freeFloating none none)
  | some .branch, .otherwise =>
      if last = some .otherwise then
        some (.unexpectedMarker .otherwise .repeated (some .branch) none)
      else none
  | some .branch, .link =>
      if last = some .otherwise then none
      else some (.unexpectedMarker .link .general none
        (some "`if*` must follow an `else` with a condition block"))
  | some .branch, .body => some (.unexpectedMarker .body .notApplicable (some .branch) none)
  | some .loop, .body =>
      if last = some .body then some (.unexpectedMarker .body .repeated (some .loop) none)
      else none
  | some .loop, .close =>
      if last = some .body then none
      else some (.missingMarker .body .requiredByBlock (some .loop))
  | some .loop, m => some (.unexpectedMarker m .notApplicable (some .loop) none)
  | _, _ => none

-- What is wrong with a token behind others.
def faultAfter (before : List (Token α)) (t : Token α) : Option Cause :=
  match t.lexeme with
  | .int _ => none
  | .word text => if (Intrinsic.ofText? text).isSome then none else some (.unknownWord text)
  | .marker m => m.fault ((unclosed before).head?.map Note.marker) (ownMarker 0 before.reverse)

-- An open block, as far as diagnostics see it.
structure Level (α : Type) where
  note : Note α
  last : Option Marker

def BranchPhase.last : BranchPhase → Option Marker
  | .body => none
  | .link => some .link
  | .otherwise => some .otherwise

def LoopPhase.last : LoopPhase → Option Marker
  | .cond => none
  | .body => some .body

def OpenBlock.level (block : OpenBlock α) : Level α where
  note := block.note
  last := match block with
    | .branch b => b.phase.last
    | .loop l => l.phase.last

def Builder.levels (b : Builder α) : List (Level α) :=
  b.opened.map OpenBlock.level

-- What a token does to the levels, brackets and own markers together.
def Level.after (levels : List (Level α)) (t : Token α) : List (Level α) :=
  match t.lexeme with
  | .marker .branch => ⟨⟨.branch, t.loc⟩, none⟩ :: levels
  | .marker .loop => ⟨⟨.loop, t.loc⟩, none⟩ :: levels
  | .marker .close => levels.tail
  | .marker m => levels.modifyHead fun level => { level with last := some m }
  | _ => levels

theorem OpenBlock.level_add (block : OpenBlock α) (op : Op α) :
    (block.add op).level = block.level := by
  cases block with
  | branch b =>
      obtain ⟨loc, body, links, otherwise, phase⟩ := b
      cases phase with
      | body => rfl
      | link => cases links <;> rfl
      | otherwise => rfl
  | loop l =>
      obtain ⟨loc, cond, doLoc, body, phase⟩ := l
      cases phase <;> rfl

theorem Builder.levels_place (b : Builder α) (op : Op α) : (b.place op).levels = b.levels := by
  obtain ⟨root, opened⟩ := b
  cases opened with
  | nil => rfl
  | cons block outer => simp [Builder.place, Builder.levels, OpenBlock.level_add]

theorem OpenBlock.level_of_mark {block next : OpenBlock α} {m : Marker} {loc : α}
    (h : block.mark m loc = .ok (.still next)) :
    next.level = { block.level with last := some m } ∧ m ≠ .branch ∧ m ≠ .loop ∧ m ≠ .close := by
  cases block with
  | branch b =>
      obtain ⟨rfl, _, hnext⟩ | ⟨_, rfl, _, hnext⟩ | ⟨_, hnext⟩ := OpenBranch.mark_cases h
      · cases hnext
        exact ⟨rfl, by decide⟩
      · cases hnext
        exact ⟨rfl, by decide⟩
      · cases hnext
  | loop l =>
      obtain ⟨rfl, _, hnext⟩ | ⟨_, _, hnext⟩ := OpenLoop.mark_cases h
      · cases hnext
        exact ⟨rfl, by decide⟩
      · cases hnext

theorem OpenBlock.close_of_mark {block : OpenBlock α} {op : Op α} {m : Marker} {loc : α}
    (h : block.mark m loc = .ok (.closed op)) : m = .close := by
  cases block with
  | branch b =>
      obtain ⟨_, _, hnext⟩ | ⟨_, _, _, hnext⟩ | ⟨hm, _⟩ := OpenBranch.mark_cases h
      · cases hnext
      · cases hnext
      · exact hm
  | loop l =>
      obtain ⟨_, _, hnext⟩ | ⟨hm, _, _⟩ := OpenLoop.mark_cases h
      · cases hnext
      · exact hm

-- One step.
theorem Builder.levels_takes {b next : Builder α} {t : Token α} (h : b.Takes t next) :
    next.levels = Level.after b.levels t := by
  cases h with
  | int loc value => exact b.levels_place _
  | word loc i => exact b.levels_place _
  | branch loc => rfl
  | loop loc => rfl
  | @still m loc block next outer hopened hmark =>
      obtain ⟨hlevel, hbranch, hloop, hclose⟩ := OpenBlock.level_of_mark hmark
      have hlevels : b.levels = block.level :: outer.map OpenBlock.level := by
        simp [Builder.levels, hopened]
      cases m with
      | branch => exact absurd rfl hbranch
      | loop => exact absurd rfl hloop
      | close => exact absurd rfl hclose
      | link | otherwise | body =>
          rw [hlevels]
          simp [Builder.levels, Level.after, hlevel]
  | @closed m loc block op outer hopened hmark =>
      obtain rfl := OpenBlock.close_of_mark hmark
      rw [Builder.levels_place]
      simp [Builder.levels, Level.after, hopened]

-- A whole run.
theorem Builder.levels_feedAll {b next : Builder α} {ts : List (Token α)}
    (h : b.feedAll ts = .ok next) : next.levels = ts.foldl Level.after b.levels := by
  induction ts generalizing b with
  | nil =>
      cases h
      rfl
  | cons t ts ih =>
      simp only [Builder.feedAll] at h
      split at h
      · next mid hfeed =>
          rw [ih h, Builder.levels_takes (Builder.takes_of_feed hfeed), List.foldl_cons]
      · cases h

def levelsOf (ts : List (Token α)) : List (Level α) :=
  ts.foldl Level.after []

theorem Level.note_after (levels : List (Level α)) (t : Token α) :
    (Level.after levels t).map Level.note = bracket (levels.map Level.note) t := by
  obtain ⟨lexeme, loc⟩ := t
  cases lexeme with
  | word text => rfl
  | int value => rfl
  | marker m =>
      cases m with
      | branch => rfl
      | loop => rfl
      | close => exact List.map_tail
      | link | otherwise | body => cases levels <;> rfl

theorem Builder.note_levels (b : Builder α) :
    b.levels.map Level.note = b.opened.map OpenBlock.note := by
  rw [Builder.levels, List.map_map]
  rfl

theorem Builder.note_takes {b next : Builder α} {t : Token α} (h : b.Takes t next) :
    next.opened.map OpenBlock.note = bracket (b.opened.map OpenBlock.note) t := by
  rw [← Builder.note_levels, Builder.levels_takes h, Level.note_after, Builder.note_levels]

theorem note_levelsOf (ts : List (Token α)) : (levelsOf ts).map Level.note = unclosed ts := by
  have hfold : ∀ levels : List (Level α),
      (ts.foldl Level.after levels).map Level.note = ts.foldl bracket (levels.map Level.note) := by
    induction ts with
    | nil => intro levels; rfl
    | cons t ts ih =>
        intro levels
        rw [List.foldl_cons, ih, Level.note_after, List.foldl_cons]
  exact hfold []

-- Scanning back past `closed` blocks leads to the level that many further out.
theorem ownMarker_eq {ts : List (Token α)} {closed : Nat} {level : Level α}
    (h : (levelsOf ts)[closed]? = some level) : ownMarker closed ts.reverse = level.last := by
  induction ts using List.reverseRecOn generalizing closed with
  | nil => cases h
  | append_singleton ts t ih =>
      obtain ⟨lexeme, loc⟩ := t
      rw [levelsOf, List.foldl_concat] at h
      rw [List.reverse_concat]
      cases lexeme with
      | word text => exact ih h
      | int value => exact ih h
      | marker m =>
          cases m with
          | branch | loop =>
              cases closed with
              | zero =>
                  cases h
                  rfl
              | succ closed => exact ih h
          | close =>
              apply ih
              rw [← h]
              exact List.getElem?_tail.symm
          | link | otherwise | body =>
              cases hlevels : levelsOf ts with
              | nil =>
                  rw [← levelsOf, hlevels] at h
                  cases h
              | cons first outer =>
                  rw [← levelsOf, hlevels] at h
                  cases closed with
                  | zero =>
                      cases h
                      rfl
                  | succ closed =>
                      apply ih
                      rw [hlevels]
                      exact h

theorem linkDetail : "`" ++ Marker.link.text ++ "` must follow an `" ++ Marker.otherwise.text
    ++ "` with a condition block" = "`if*` must follow an `else` with a condition block" := by
  decide

-- The faults of a marker are those that the level of the block shows.
theorem OpenBranch.mark_eq_error_iff {b : OpenBranch α} (hs : b.Sound) {m : Marker}
    (hbranch : m ≠ .branch) (hloop : m ≠ .loop) {loc : α} {cause : Cause} :
    b.mark m loc = .error cause ↔ m.fault (some .branch) b.phase.last = some cause := by
  cases m with
  | branch => exact absurd rfl hbranch
  | loop => exact absurd rfl hloop
  | otherwise =>
      cases hphase : b.phase <;> simp [OpenBranch.mark, Marker.fault, hphase, BranchPhase.last]
  | link =>
      have hsome := hs.otherwise_iff
      cases hphase : b.phase with
      | body | link => simp [OpenBranch.mark, Marker.fault, hphase, BranchPhase.last, linkDetail]
      | otherwise =>
          obtain ⟨cond, hcond⟩ := Option.isSome_iff_exists.mp (hsome.mpr hphase)
          simp [OpenBranch.mark, Marker.fault, hphase, hcond, BranchPhase.last]
  | body => simp [OpenBranch.mark, Marker.fault]
  | close => simp [OpenBranch.mark, Marker.fault]

theorem OpenLoop.mark_eq_error_iff {l : OpenLoop α} {m : Marker}
    (hbranch : m ≠ .branch) (hloop : m ≠ .loop) {loc : α} {cause : Cause} :
    l.mark m loc = .error cause ↔ m.fault (some .loop) l.phase.last = some cause := by
  cases m with
  | branch => exact absurd rfl hbranch
  | loop => exact absurd rfl hloop
  | body => cases hphase : l.phase <;> simp [OpenLoop.mark, Marker.fault, hphase, LoopPhase.last]
  | close => cases hphase : l.phase <;> simp [OpenLoop.mark, Marker.fault, hphase, LoopPhase.last]
  | link | otherwise => simp [OpenLoop.mark, Marker.fault]

theorem OpenBlock.mark_eq_error_iff {block : OpenBlock α} (hs : block.Sound) {m : Marker}
    (hbranch : m ≠ .branch) (hloop : m ≠ .loop) {loc : α} {cause : Cause} :
    block.mark m loc = .error cause ↔
      m.fault (some block.level.note.marker) block.level.last = some cause := by
  cases block with
  | branch b => exact OpenBranch.mark_eq_error_iff hs hbranch hloop
  | loop l => exact OpenLoop.mark_eq_error_iff hbranch hloop

-- A marker that opens nothing is a matter of the innermost open block.
theorem Builder.step_marker_iff {b : Builder α} {m : Marker} (hbranch : m ≠ .branch)
    (hloop : m ≠ .loop) {loc : α} {cause : Cause} :
    b.step ⟨.marker m, loc⟩ = .error cause ↔
      (b.opened = [] ∧ cause = .unexpectedMarker m .freeFloating none none) ∨
      ∃ block outer, b.opened = block :: outer ∧ block.mark m loc = .error cause := by
  cases m with
  | branch => exact absurd rfl hbranch
  | loop => exact absurd rfl hloop
  | link | otherwise | body | close =>
      cases hopened : b.opened with
      | nil => simp [Builder.step, hopened, eq_comm]
      | cons block outer =>
          simp only [Builder.step, hopened]
          split <;> simp_all

theorem Builder.step_eq_error_iff {b : Builder α} (hs : b.Sound) {ts : List (Token α)}
    (hlevels : b.levels = levelsOf ts) {t : Token α} {cause : Cause} :
    b.step t = .error cause ↔ faultAfter ts t = some cause := by
  obtain ⟨lexeme, loc⟩ := t
  cases lexeme with
  | int value => simp [Builder.step, faultAfter]
  | word text =>
      cases hi : Intrinsic.ofText? text with
      | none => simp [Builder.step, faultAfter, hi]
      | some i => simp [Builder.step, faultAfter, hi]
  | marker m =>
      by_cases hbranch : m = .branch
      · simp [hbranch, Builder.step, faultAfter, Marker.fault]
      by_cases hloop : m = .loop
      · simp [hloop, Builder.step, faultAfter, Marker.fault]
      rw [Builder.step_marker_iff hbranch hloop, faultAfter, ← note_levelsOf, ← hlevels]
      cases hopened : b.opened with
      | nil =>
          have hnone : b.levels = [] := by simp [Builder.levels, hopened]
          have hfree : ∀ last, m.fault none last =
              some (.unexpectedMarker m .freeFloating none none) := by
            intro last
            cases m <;> simp_all [Marker.fault]
          simp [hnone, hfree, eq_comm]
      | cons block outer =>
          have hfirst : b.levels = block.level :: outer.map OpenBlock.level := by
            simp [Builder.levels, hopened]
          have hlast : ownMarker 0 ts.reverse = block.level.last :=
            ownMarker_eq (by rw [← hlevels, hfirst]; rfl)
          rw [hlast, hfirst]
          simp only [List.map_cons, List.head?_cons, Option.map_some, reduceCtorEq, false_and,
            false_or, List.cons.injEq]
          rw [← OpenBlock.mark_eq_error_iff (hs.of_opened hopened).1 hbranch hloop]
          constructor
          · rintro ⟨_, _, ⟨rfl, rfl⟩, hmark⟩
            exact hmark
          · intro hmark
            exact ⟨block, outer, ⟨rfl, rfl⟩, hmark⟩

theorem Builder.note_opened {b : Builder α} {ts : List (Token α)}
    (h : Builder.initial.feedAll ts = .ok b) : b.opened.map OpenBlock.note = unclosed ts := by
  have hlevels : b.levels = levelsOf ts := Builder.levels_feedAll h
  rw [← note_levelsOf, ← hlevels, Builder.note_levels]

theorem Builder.feed_eq_error_iff {b : Builder α} {ts : List (Token α)} {t : Token α}
    {d : Diagnostic α} (h : Builder.initial.feedAll ts = .ok b) :
    b.feed t = .error d ↔
      ∃ cause, faultAfter ts t = some cause ∧ d = ⟨cause, some t.loc, unclosed ts⟩ := by
  have hsound := (Builder.sound_initial.feedAll h).1
  have hcause : ∀ cause, b.step t = .error cause ↔ faultAfter ts t = some cause :=
    fun cause => Builder.step_eq_error_iff hsound (Builder.levels_feedAll h)
  simp only [Builder.feed, ← hcause]
  cases b.step t with
  | ok next => simp
  | error cause => simp [Builder.diagnose_eq, Builder.note_opened h, eq_comm]

-- Each token is in order behind those before it.
def Faultless (ts : List (Token α)) : Prop :=
  ∀ i t, ts[i]? = some t → faultAfter (ts.take i) t = none

theorem faultless_concat {ts : List (Token α)} {t : Token α} :
    Faultless (ts ++ [t]) ↔ Faultless ts ∧ faultAfter ts t = none := by
  constructor
  · intro h
    constructor
    · intro i u hu
      have hi := (List.getElem?_eq_some_iff.mp hu).1
      have hfault := h i u (by rw [List.getElem?_append_left hi, hu])
      rwa [List.take_append_of_le_length (Nat.le_of_lt hi)] at hfault
    · have hfault := h ts.length t (by simp)
      rwa [List.take_left] at hfault
  · rintro ⟨hts, ht⟩ i u hu
    by_cases hi : i < ts.length
    · rw [List.getElem?_append_left hi] at hu
      rw [List.take_append_of_le_length (Nat.le_of_lt hi)]
      exact hts i u hu
    · have hlength := (List.getElem?_eq_some_iff.mp hu).1
      obtain rfl : i = ts.length := by
        simp only [List.length_append, List.length_singleton] at hlength
        omega
      obtain rfl : t = u := by simpa using hu
      rwa [List.take_left]

theorem faultAfter_eq_none_iff {b : Builder α} {ts : List (Token α)} {t : Token α}
    (h : Builder.initial.feedAll ts = .ok b) :
    faultAfter ts t = none ↔ ∃ next, b.feed t = .ok next := by
  constructor
  · intro hnone
    cases hnext : b.feed t with
    | ok next => exact ⟨next, rfl⟩
    | error d =>
        obtain ⟨cause, hfault, _⟩ := (Builder.feed_eq_error_iff h).mp hnext
        simp [hnone] at hfault
  · rintro ⟨next, hnext⟩
    apply Option.eq_none_iff_forall_ne_some.mpr
    intro cause hfault
    have herror := (Builder.feed_eq_error_iff h).mpr ⟨cause, hfault, rfl⟩
    simp [hnext] at herror

theorem faultless_iff {ts : List (Token α)} :
    Faultless ts ↔ ∃ b, Builder.initial.feedAll ts = .ok b := by
  induction ts using List.reverseRecOn with
  | nil => exact ⟨fun _ => ⟨_, rfl⟩, fun _ i t ht => by cases ht⟩
  | append_singleton ts t ih =>
      rw [faultless_concat, ih, Builder.feedAll_append]
      cases hfeed : Builder.initial.feedAll ts with
      | error d => simp [Except.bind]
      | ok b =>
          simp only [Except.bind, Builder.feedAll, faultAfter_eq_none_iff hfeed]
          cases b.feed t <;> simp

theorem rejectedAt_iff_fault {ts : List (Token α)} {i : Nat} {d : Diagnostic α} :
    RejectedAt ts i d ↔ ∃ t cause, ts[i]? = some t ∧ Faultless (ts.take i) ∧
      faultAfter (ts.take i) t = some cause ∧
      d = ⟨cause, some t.loc, unclosed (ts.take i)⟩ := by
  constructor
  · rintro ⟨b, t, hb, ht, hfeed⟩
    obtain ⟨cause, hfault, hd⟩ := (Builder.feed_eq_error_iff hb).mp hfeed
    exact ⟨t, cause, ht, faultless_iff.mpr ⟨b, hb⟩, hfault, hd⟩
  · rintro ⟨t, cause, ht, hclean, hfault, hd⟩
    obtain ⟨b, hb⟩ := faultless_iff.mp hclean
    exact ⟨b, t, hb, ht, (Builder.feed_eq_error_iff hb).mpr ⟨cause, hfault, hd⟩⟩

theorem parse_eq_error_iff_fault {ts : List (Token α)} {loc : α} {d : Diagnostic α} :
    parse ts loc = .error d ↔
      (∃ i t cause, ts[i]? = some t ∧ Faultless (ts.take i) ∧
        faultAfter (ts.take i) t = some cause ∧
        d = ⟨cause, some t.loc, unclosed (ts.take i)⟩) ∨
      (Faultless ts ∧ unclosed ts ≠ [] ∧
        d = ⟨.missingMarker .close .blockNotClosed none, some loc, unclosed ts⟩) := by
  rw [parse_eq_error_iff]
  apply or_congr
  · exact exists_congr fun i => rejectedAt_iff_fault
  · constructor
    · rintro ⟨b, hb, hopened, hd⟩
      have hnotes := Builder.note_opened hb
      refine ⟨faultless_iff.mpr ⟨b, hb⟩, ?_, ?_⟩
      · rw [← hnotes]
        simpa using hopened
      · rw [hd, Builder.diagnose_eq, hnotes]
    · rintro ⟨hclean, hopened, hd⟩
      obtain ⟨b, hb⟩ := faultless_iff.mp hclean
      have hnotes := Builder.note_opened hb
      refine ⟨b, hb, ?_, ?_⟩
      · rw [← hnotes] at hopened
        simpa using hopened
      · rw [hd, Builder.diagnose_eq, hnotes]

-- A block that is open behind a token was open before it, or starts there.
theorem mem_bracket {opened : List (Note α)} {t : Token α} {note : Note α}
    (h : note ∈ bracket opened t) : note ∈ opened ∨ note.loc = t.loc := by
  unfold bracket at h
  split at h
  · exact (List.mem_cons.mp h).symm.imp id (congrArg Note.loc)
  · exact (List.mem_cons.mp h).symm.imp id (congrArg Note.loc)
  · exact .inl (List.mem_of_mem_tail h)
  · exact .inl h

theorem exists_mem_of_unclosed {ts : List (Token α)} {note : Note α} (h : note ∈ unclosed ts) :
    ∃ t ∈ ts, t.loc = note.loc := by
  induction ts using List.reverseRecOn with
  | nil => cases h
  | append_singleton ts t ih =>
      rw [unclosed, List.foldl_append, ← unclosed] at h
      rcases mem_bracket h with hmem | hloc
      · obtain ⟨found, hfound, hloc⟩ := ih hmem
        exact ⟨found, List.mem_append_left _ hfound, hloc⟩
      · exact ⟨t, by simp, hloc.symm⟩

-- A token does not stand where a block around it starts.
theorem loc_ne_of_unclosed {before after : List (Token α)} {t : Token α}
    (h : ((before ++ t :: after).map Token.loc).Nodup) {note : Note α}
    (hnote : note ∈ unclosed before) : note.loc ≠ t.loc := by
  obtain ⟨found, hfound, hloc⟩ := exists_mem_of_unclosed hnote
  rw [List.map_append, List.map_cons] at h
  have hdisjoint := (List.nodup_append.mp h).2.2
  rw [← hloc]
  exact hdisjoint _ (List.mem_map_of_mem hfound) _ List.mem_cons_self

-- A file that cannot be read is no fault of a block, so that no block is named.
theorem unreadable_unlocated {given : String} {state : FileState} {d : Diagnostic Location}
    {path : Path} {reason : String}
    (h : (loadFile given state).value = .error (.diagnostic d))
    (hcause : d.cause = .unreadable path reason) : d.loc = none ∧ d.notes = [] := by
  cases hopen : openFile (.ofText given) state with
  | error failure =>
      rw [loadFile_value, parseFile, hopen] at h
      simp only [Except.error.injEq] at h
      subst h
      unfold openFile at hopen
      split at hopen
      · cases hopen
      · split at hopen
        · cases hopen
        · cases hopen
          exact ⟨rfl, rfl⟩
  | ok s =>
      obtain ⟨tokens, fault, last, hdelivers⟩ := s.exists_delivers
      rw [loadFile_of_open hopen hdelivers] at h
      cases hfeed : Builder.initial.feedAll tokens with
      | error found =>
          simp only [hfeed, Except.error.injEq, Failure.diagnostic.injEq] at h
          subst h
          obtain ⟨_, b, t, _, _, hrefused⟩ := Builder.exists_rejected_of_feedAll hfeed
          have htoken := (Builder.ofToken_of_feed hrefused).1
          simp [hcause, Cause.ofToken] at htoken
      | ok built =>
          simp only [hfeed] at h
          cases fault with
          | some fault =>
              cases fault with
              | undecodable fault =>
                  cases h
                  exact ⟨rfl, rfl⟩
              | tooManyDigits count => cases h
              | closed => cases h
          | none =>
              simp only [Builder.atEnd, Builder.finish] at h
              split at h
              · cases h
              · cases h
                rw [Builder.diagnose_cause] at hcause
                cases hcause

-- A diagnostic is told from the tokens: its cause from the first token that is
-- out of order, the block around it and that block's last marker, and its notes
-- from the brackets that are open there. What cannot be read is reported without
-- either, however many blocks are open.
theorem parse_error_iff_nesting (ts : List (Token α)) (loc : α) :
    (∀ d, parse ts loc = .error d ↔
      (∃ i t cause, ts[i]? = some t ∧ Faultless (ts.take i) ∧
        faultAfter (ts.take i) t = some cause ∧
        d = ⟨cause, some t.loc, unclosed (ts.take i)⟩) ∨
      (Faultless ts ∧ unclosed ts ≠ [] ∧
        d = ⟨.missingMarker .close .blockNotClosed none, some loc, unclosed ts⟩)) ∧
    (∀ given state d path reason, (loadFile given state).value = .error (.diagnostic d) →
      d.cause = .unreadable path reason → d.loc = none ∧ d.notes = []) ∧
    (∀ (s last : Stream) tokens fault (b built : Builder Location) log,
      s.Delivers tokens (some (.undecodable fault)) last → b.feedAll tokens = .ok built →
      (b.build s log).value = .error (.diagnostic ⟨.unreadable s.file fault.text, none, []⟩)) := by
  refine ⟨fun d => parse_eq_error_iff_fault, fun _ _ _ _ _ => unreadable_unlocated, ?_⟩
  intro s last tokens fault b built log hdelivers hfeed
  rw [hdelivers.build, hfeed, ← hdelivers.file]
  rfl

end StackLang
