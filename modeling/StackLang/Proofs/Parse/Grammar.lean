import StackLang.Op.Outline
import StackLang.Token.Basic

-- Trees and the token lists that they stand for, said twice: a tree can be
-- written out as tokens, and the grammar derives it from tokens.

namespace StackLang

variable {α : Type}

-- What a tree remembers of a token. It forgets where `else` and `end` stand.
def Token.kept (t : Token α) : Token (Option α) :=
  match t.lexeme with
  | .marker .otherwise | .marker .close => ⟨t.lexeme, none⟩
  | _ => ⟨t.lexeme, some t.loc⟩

-- The token behind an entry. A `do` whose location is unknown is like no
-- token at all, since the location of a `do` is kept.
def Entry.token : Entry α → Token (Option α)
  | .push loc value => ⟨.int value, some loc⟩
  | .intrinsic loc i => ⟨.word i.text, some loc⟩
  | .branch loc => ⟨.marker .branch, some loc⟩
  | .cond | .otherwise => ⟨.marker .otherwise, none⟩
  | .link loc => ⟨.marker .link, some loc⟩
  | .loop loc => ⟨.marker .loop, some loc⟩
  | .body loc => ⟨.marker .body, loc⟩
  | .done => ⟨.marker .close, none⟩

def Op.spelling (op : Op α) : List (Token (Option α)) :=
  (Op.onto op []).map Entry.token

def Block.spelling (block : Block α) : List (Token (Option α)) :=
  (Block.outline block).map Entry.token

def Chain.spelling (chain : Chain α) : List (Token (Option α)) :=
  (Chain.onto chain []).map Entry.token

-- Writing in front of something is writing, and then that.

mutual

theorem Op.onto_eq_append : (op : Op α) → (rest : List (Entry α)) →
    Op.onto op rest = Op.onto op [] ++ rest
  | .push _ _, _ => rfl
  | .intrinsic _ _, _ => rfl
  | .branch loc body chain, rest => by
      simp only [Op.onto]
      rw [Block.onto_eq_append body, Block.onto_eq_append body (Chain.onto chain [.done]),
        Chain.onto_eq_append chain, Chain.onto_eq_append chain [.done]]
      simp
  | .loop loc cond doLoc body, rest => by
      simp only [Op.onto]
      rw [Block.onto_eq_append cond, Block.onto_eq_append cond (.body doLoc :: _),
        Block.onto_eq_append body, Block.onto_eq_append body [.done]]
      simp

theorem Block.onto_eq_append : (block : List (Op α)) → (rest : List (Entry α)) →
    Block.onto block rest = Block.onto block [] ++ rest
  | [], _ => rfl
  | op :: ops, rest => by
      simp only [Block.onto]
      rw [Op.onto_eq_append op, Op.onto_eq_append op (Block.onto ops []),
        Block.onto_eq_append ops rest, List.append_assoc]

theorem Chain.onto_eq_append : (chain : Chain α) → (rest : List (Entry α)) →
    Chain.onto chain rest = Chain.onto chain [] ++ rest
  | .none, _ => rfl
  | .otherwise block, rest => by
      simp only [Chain.onto]
      rw [Block.onto_eq_append block rest, List.cons_append]
  | .link cond loc inner chain, rest => by
      simp only [Chain.onto]
      rw [Block.onto_eq_append cond, Block.onto_eq_append cond (.link loc :: _),
        Block.onto_eq_append inner, Block.onto_eq_append inner (Chain.onto chain []),
        Chain.onto_eq_append chain rest]
      simp

end

@[simp] theorem Op.spelling_push (loc : α) (value : UInt64) :
    (Op.push loc value).spelling = [⟨.int value, some loc⟩] := rfl

@[simp] theorem Op.spelling_intrinsic (loc : α) (i : Intrinsic) :
    (Op.intrinsic loc i).spelling = [⟨.word i.text, some loc⟩] := rfl

@[simp] theorem Op.spelling_branch (loc : α) (body : Block α) (chain : Chain α) :
    (Op.branch loc body chain).spelling = ⟨.marker .branch, some loc⟩ ::
      (Block.spelling body ++ (chain.spelling ++ [⟨.marker .close, none⟩])) := by
  simp only [Op.spelling, Op.onto, List.map_cons]
  rw [Block.onto_eq_append, Chain.onto_eq_append]
  simp only [List.map_append, List.map_cons, List.map_nil]
  rfl

@[simp] theorem Op.spelling_loop (loc : α) (cond : Block α) (doLoc : Option α) (body : Block α) :
    (Op.loop loc cond doLoc body).spelling = ⟨.marker .loop, some loc⟩ ::
      (Block.spelling cond ++ ⟨.marker .body, doLoc⟩ ::
        (Block.spelling body ++ [⟨.marker .close, none⟩])) := by
  simp only [Op.spelling, Op.onto, List.map_cons]
  rw [Block.onto_eq_append cond, Block.onto_eq_append body]
  simp only [List.map_append, List.map_cons, List.map_nil]
  rfl

@[simp] theorem Block.spelling_nil : Block.spelling ([] : Block α) = [] := rfl

@[simp] theorem Block.spelling_cons (op : Op α) (ops : Block α) :
    Block.spelling (op :: ops) = op.spelling ++ Block.spelling ops := by
  simp only [Block.spelling, Block.outline, Block.onto]
  rw [Op.onto_eq_append, List.map_append]
  rfl

@[simp] theorem Block.spelling_append (a b : Block α) :
    Block.spelling (a ++ b) = Block.spelling a ++ Block.spelling b := by
  induction a with
  | nil => rfl
  | cons op ops ih => rw [List.cons_append, Block.spelling_cons, Block.spelling_cons, ih,
      List.append_assoc]

@[simp] theorem Chain.spelling_none : (Chain.none : Chain α).spelling = [] := rfl

@[simp] theorem Chain.spelling_otherwise (block : Block α) :
    (Chain.otherwise block).spelling = ⟨.marker .otherwise, .none⟩ :: Block.spelling block := rfl

@[simp] theorem Chain.spelling_link (cond : Block α) (loc : α) (inner : Block α)
    (chain : Chain α) :
    (Chain.link cond loc inner chain).spelling = ⟨.marker .otherwise, .none⟩ ::
      (Block.spelling cond ++ ⟨.marker .link, some loc⟩ ::
        (Block.spelling inner ++ chain.spelling)) := by
  simp only [Chain.spelling, Chain.onto, List.map_cons]
  rw [Block.onto_eq_append cond, Block.onto_eq_append inner]
  simp only [List.map_append, List.map_cons]
  rfl

theorem Token.eq_of_kept_eq_some {t : Token α} {lexeme : Lexeme} {loc : α}
    (h : t.kept = ⟨lexeme, some loc⟩) : t = ⟨lexeme, loc⟩ := by
  obtain ⟨found, at'⟩ := t
  unfold Token.kept at h
  split at h <;> simp_all

theorem Token.lexeme_eq_of_kept {t : Token α} {kept : Token (Option α)} (h : t.kept = kept) :
    t.lexeme = kept.lexeme := by
  subst h
  unfold Token.kept
  split <;> rfl

-- A `do` always has a location.
theorem Token.doLoc_of_kept {t : Token α} {doLoc : Option α}
    (h : t.kept = ⟨.marker .body, doLoc⟩) : doLoc = some t.loc := by
  obtain ⟨lexeme, loc⟩ := t
  obtain rfl := Token.lexeme_eq_of_kept h
  exact (congrArg Token.loc h).symm

-- The documented grammar. The words are those of the ten intrinsics.

namespace Grammar

mutual

-- unit*
inductive Units : List (Token α) → Block α → Prop where
  | nil : Units [] []
  | cons {ts us : List (Token α)} {op : Op α} {ops : Block α} :
      One ts op → Units us ops → Units (ts ++ us) (op :: ops)

-- INT | WORD | "if" unit* chain "end" | "while" unit* "do" unit* "end"
inductive One : List (Token α) → Op α → Prop where
  | int (loc : α) (value : UInt64) : One [⟨.int value, loc⟩] (.push loc value)
  | word (loc : α) (i : Intrinsic) : One [⟨.word i.text, loc⟩] (.intrinsic loc i)
  | branch (loc close : α) {ts us : List (Token α)} {body : Block α} {chain : Chain α} :
      Units ts body → Tail us chain →
      One (⟨.marker .branch, loc⟩ :: (ts ++ (us ++ [⟨.marker .close, close⟩])))
        (.branch loc body chain)
  | loop (loc doLoc close : α) {ts us : List (Token α)} {cond body : Block α} :
      Units ts cond → Units us body →
      One (⟨.marker .loop, loc⟩ :: (ts ++ ⟨.marker .body, doLoc⟩ ::
          (us ++ [⟨.marker .close, close⟩])))
        (.loop loc cond (some doLoc) body)

-- ("else" unit* "if*" unit*)* ("else" unit*)?
inductive Tail : List (Token α) → Chain α → Prop where
  | none : Tail [] .none
  | otherwise (loc : α) {ts : List (Token α)} {block : Block α} :
      Units ts block → Tail (⟨.marker .otherwise, loc⟩ :: ts) (.otherwise block)
  | link (otherwise loc : α) {ts us vs : List (Token α)} {cond inner : Block α}
      {rest : Chain α} :
      Units ts cond → Units us inner → Tail vs rest →
      Tail (⟨.marker .otherwise, otherwise⟩ :: (ts ++ ⟨.marker .link, loc⟩ :: (us ++ vs)))
        (.link cond loc inner rest)

end

-- A derivation leaves no choice for the spelling of its tree.

mutual

theorem Units.spelling_eq {ts : List (Token α)} {block : Block α} :
    Units ts block → Block.spelling block = ts.map Token.kept
  | .nil => rfl
  | .cons hop hops => by
      rw [Block.spelling_cons, hop.spelling_eq, hops.spelling_eq, List.map_append]

theorem One.spelling_eq {ts : List (Token α)} {op : Op α} :
    One ts op → op.spelling = ts.map Token.kept
  | .int _ _ => rfl
  | .word _ _ => rfl
  | .branch _ _ hbody hchain => by
      rw [Op.spelling_branch, hbody.spelling_eq, hchain.spelling_eq]
      simp [Token.kept]
  | .loop _ _ _ hcond hbody => by
      rw [Op.spelling_loop, hcond.spelling_eq, hbody.spelling_eq]
      simp [Token.kept]

theorem Tail.spelling_eq {ts : List (Token α)} {chain : Chain α} :
    Tail ts chain → chain.spelling = ts.map Token.kept
  | .none => rfl
  | .otherwise _ hblock => by
      rw [Chain.spelling_otherwise, hblock.spelling_eq]
      simp [Token.kept]
  | .link _ _ hcond hinner hrest => by
      rw [Chain.spelling_link, hcond.spelling_eq, hinner.spelling_eq, hrest.spelling_eq]
      simp [Token.kept]

end

-- Token lists that are kept as a spelling are split where the spelling is.

theorem exists_cons_of_kept {ts : List (Token α)} {first : Token (Option α)}
    {rest : List (Token (Option α))} (h : first :: rest = ts.map Token.kept) :
    ∃ t us, ts = t :: us ∧ t.kept = first ∧ us.map Token.kept = rest :=
  List.map_eq_cons_iff.mp h.symm

theorem exists_append_of_kept {ts : List (Token α)} {a b : List (Token (Option α))}
    (h : a ++ b = ts.map Token.kept) :
    ∃ us vs, ts = us ++ vs ∧ a = us.map Token.kept ∧ b = vs.map Token.kept := by
  obtain ⟨us, vs, hts, ha, hb⟩ := List.map_eq_append_iff.mp h.symm
  exact ⟨us, vs, hts, ha.symm, hb.symm⟩

-- The closing `end` of a construct stands alone behind its blocks.
theorem exists_close_of_kept {ts : List (Token α)}
    (h : [⟨.marker .close, none⟩] = ts.map Token.kept) :
    ∃ close, ts = [⟨.marker .close, close⟩] := by
  obtain ⟨t, us, rfl, ht, hus⟩ := exists_cons_of_kept h
  obtain rfl := List.map_eq_nil_iff.mp hus
  obtain ⟨lexeme, close⟩ := t
  obtain rfl := Token.lexeme_eq_of_kept ht
  exact ⟨close, rfl⟩

mutual

theorem units_of_spelling_eq : (block : List (Op α)) → {ts : List (Token α)} →
    Block.spelling block = ts.map Token.kept → Units ts block
  | [], ts, h => by
      obtain rfl := List.map_eq_nil_iff.mp h.symm
      exact .nil
  | op :: ops, ts, h => by
      rw [Block.spelling_cons] at h
      obtain ⟨us, vs, rfl, hop, hops⟩ := exists_append_of_kept h
      exact .cons (one_of_spelling_eq op hop) (units_of_spelling_eq ops hops)

theorem one_of_spelling_eq : (op : Op α) → {ts : List (Token α)} →
    op.spelling = ts.map Token.kept → One ts op
  | .push loc value, ts, h => by
      obtain ⟨t, us, rfl, ht, hus⟩ := exists_cons_of_kept h
      obtain rfl := List.map_eq_nil_iff.mp hus
      rw [Token.eq_of_kept_eq_some ht]
      exact .int loc value
  | .intrinsic loc i, ts, h => by
      obtain ⟨t, us, rfl, ht, hus⟩ := exists_cons_of_kept h
      obtain rfl := List.map_eq_nil_iff.mp hus
      rw [Token.eq_of_kept_eq_some ht]
      exact .word loc i
  | .branch loc body chain, ts, h => by
      rw [Op.spelling_branch] at h
      obtain ⟨t, us, rfl, ht, hus⟩ := exists_cons_of_kept h
      obtain ⟨us, vs, rfl, hbody, hvs⟩ := exists_append_of_kept hus.symm
      obtain ⟨vs, ws, rfl, hchain, hws⟩ := exists_append_of_kept hvs
      obtain ⟨close, rfl⟩ := exists_close_of_kept hws
      rw [Token.eq_of_kept_eq_some ht]
      exact .branch loc close (units_of_spelling_eq body hbody) (tail_of_spelling_eq chain hchain)
  | .loop loc cond doLoc body, ts, h => by
      rw [Op.spelling_loop] at h
      obtain ⟨t, us, rfl, ht, hus⟩ := exists_cons_of_kept h
      obtain ⟨us, vs, rfl, hcond, hvs⟩ := exists_append_of_kept hus.symm
      obtain ⟨u, ws, rfl, hu, hws⟩ := exists_cons_of_kept hvs
      obtain ⟨ws, xs, rfl, hbody, hxs⟩ := exists_append_of_kept hws.symm
      obtain ⟨close, rfl⟩ := exists_close_of_kept hxs
      obtain rfl := Token.doLoc_of_kept hu
      rw [Token.eq_of_kept_eq_some ht, Token.eq_of_kept_eq_some hu]
      exact .loop loc u.loc close (units_of_spelling_eq cond hcond)
        (units_of_spelling_eq body hbody)

theorem tail_of_spelling_eq : (chain : Chain α) → {ts : List (Token α)} →
    chain.spelling = ts.map Token.kept → Tail ts chain
  | .none, ts, h => by
      obtain rfl := List.map_eq_nil_iff.mp h.symm
      exact .none
  | .otherwise block, ts, h => by
      rw [Chain.spelling_otherwise] at h
      obtain ⟨t, us, rfl, ht, hus⟩ := exists_cons_of_kept h
      obtain ⟨lexeme, loc⟩ := t
      obtain rfl := Token.lexeme_eq_of_kept ht
      exact .otherwise loc (units_of_spelling_eq block hus.symm)
  | .link cond loc inner rest, ts, h => by
      rw [Chain.spelling_link] at h
      obtain ⟨t, us, rfl, ht, hus⟩ := exists_cons_of_kept h
      obtain ⟨us, vs, rfl, hcond, hvs⟩ := exists_append_of_kept hus.symm
      obtain ⟨u, ws, rfl, hu, hws⟩ := exists_cons_of_kept hvs
      obtain ⟨ws, xs, rfl, hinner, hrest⟩ := exists_append_of_kept hws.symm
      obtain ⟨lexeme, otherwise⟩ := t
      obtain rfl := Token.lexeme_eq_of_kept ht
      rw [Token.eq_of_kept_eq_some hu]
      exact .link otherwise loc (units_of_spelling_eq cond hcond)
        (units_of_spelling_eq inner hinner) (tail_of_spelling_eq rest hrest)

end

end Grammar

end StackLang
