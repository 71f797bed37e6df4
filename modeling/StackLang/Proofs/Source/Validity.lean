import StackLang.Proofs.Source.Decoding

-- Bytes that are no text. The decoder takes nothing but the bytes of characters, so
-- that what it has delivered when it fails comes from the longest text in front.

namespace StackLang

namespace Utf8

variable {c : Char} {o : Opening} {b : UInt8} {bytes rest : List UInt8}

theorem spells_cons {pending : Option Opening} :
    Spells c pending (b :: rest) ↔ (take pending b = .char c ∧ rest = []) ∨
      ∃ o, take pending b = .more o ∧ Spells c (some o) rest := by
  cases rest with
  | nil => simp [Spells]
  | cons b' rest => simp [Spells]

-- The byte is in the range that an unfinished sequence asks for.
structure Opening.Admits (o : Opening) (b : UInt8) : Prop where
  whole : o.surrogate = false
  low : o.low.toNat ≤ b.toNat
  high : b.toNat ≤ o.high.toNat

def Opening.value (o : Opening) (b : UInt8) : Nat :=
  o.bits * 64 + (b.toNat - 0x80)

def Opening.next (o : Opening) (b : UInt8) : Opening :=
  ⟨b :: o.bytes, o.value b, o.wanted - 1, 0x80, 0xbf,
    o.wanted = 2 && 0x360 ≤ o.value b && o.value b < 0x380⟩

-- All that a byte can do to an unfinished sequence.
theorem extend_cases (o : Opening) (b : UInt8) :
    extend o b = .refused .invalidContinuation ∨
    (o.Admits b ∧ o.wanted ≤ 1 ∧ extend o b = .char (Char.ofNat (o.value b))) ∨
    (o.Admits b ∧ 1 < o.wanted ∧ extend o b = .more (o.next b)) := by
  unfold extend
  split
  · exact .inl rfl
  · next hrange =>
      simp only [Bool.or_eq_true, decide_eq_true_eq, not_or, Bool.not_eq_true,
        UInt8.lt_iff_toNat_lt, Nat.not_lt] at hrange
      have hadmits : o.Admits b := ⟨hrange.1.1, hrange.1.2, hrange.2⟩
      split
      · next hwanted => exact .inr (.inl ⟨hadmits, hwanted, rfl⟩)
      · next hwanted => exact .inr (.inr ⟨hadmits, Nat.lt_of_not_le hwanted, rfl⟩)

theorem spells_extend (h : Spells c (some o) bytes) :
    ∃ b rest, bytes = b :: rest ∧ o.Admits b ∧
      ((o.wanted ≤ 1 ∧ rest = [] ∧ c = Char.ofNat (o.value b)) ∨
        (1 < o.wanted ∧ Spells c (some (o.next b)) rest)) := by
  cases bytes with
  | nil => exact absurd h (by simp [Spells])
  | cons b rest =>
      refine ⟨b, rest, rfl, ?_⟩
      rcases extend_cases o b with he | ⟨ha, hw, he⟩ | ⟨ha, hw, he⟩
      · simp [spells_cons, take, he] at h
      · simp only [spells_cons, take, he, Taken.char.injEq, reduceCtorEq, false_and,
          exists_false, or_false] at h
        exact ⟨ha, .inl ⟨hw, h.2, h.1.symm⟩⟩
      · simp only [spells_cons, take, he, reduceCtorEq, false_and, false_or,
          Taken.more.injEq] at h
        obtain ⟨o', rfl, hrest⟩ := h
        exact ⟨ha, .inr ⟨hw, hrest⟩⟩

theorem spells_last (h : Spells c (some o) bytes) (hw : o.wanted = 1) :
    ∃ b n, bytes = [b] ∧ o.Admits b ∧ n = o.value b ∧ c = Char.ofNat n := by
  obtain ⟨b, rest, rfl, ha, ⟨_, rfl, hc⟩ | ⟨hmore, _⟩⟩ := spells_extend h
  · exact ⟨b, _, rfl, ha, rfl, hc⟩
  · omega

theorem spells_next (h : Spells c (some o) bytes) (hw : 1 < o.wanted) :
    ∃ b rest, bytes = b :: rest ∧ o.Admits b ∧ Spells c (some (o.next b)) rest := by
  obtain ⟨b, rest, rfl, ha, ⟨hlast, _⟩ | ⟨_, hrest⟩⟩ := spells_extend h
  · omega
  · exact ⟨b, rest, rfl, ha, hrest⟩

theorem start_cases (b : UInt8) :
    (b.toNat < 0x80 ∧ start b = .char (Char.ofNat b.toNat)) ∨
    start b = .refused .invalidStart ∨
    (0xc2 ≤ b.toNat ∧ b.toNat < 0xe0) ∨ (0xe0 ≤ b.toNat ∧ b.toNat < 0xf0) ∨
    (0xf0 ≤ b.toNat ∧ b.toNat ≤ 0xf4) := by
  by_cases hone : b.toNat < 0x80
  · exact .inl ⟨hone, by simp [start, UInt8.lt_iff_toNat_lt, hone]⟩
  · by_cases hlow : b.toNat < 0xc2
    · exact .inr (.inl (by simp [start, UInt8.lt_iff_toNat_lt, hone, hlow]))
    · by_cases hhigh : b.toNat ≤ 0xf4
      · omega
      · refine .inr (.inl ?_)
        unfold start
        simp only [UInt8.lt_iff_toNat_lt, ← UInt8.toNat_inj, UInt8.reduceToNat]
        rw [if_neg hone, if_neg hlow]
        repeat rw [if_neg (by omega)]

theorem toNat_val_ofNat {n : Nat} (h : n < 0xd800 ∨ 0xdfff < n ∧ n < 0x110000) :
    (Char.ofNat n).val.toNat = n := by
  have hvalid : n.isValidChar := h
  unfold Char.ofNat
  rw [dif_pos hvalid]
  rfl

theorem ofNat_eq_of_toNat {n : Nat} (h : n = b.toNat) : UInt8.ofNat n = b := by
  rw [h, UInt8.ofNat_toNat]

-- A character can be spelled in one way only, by how many bytes there are.

theorem eq_encode_one (hb : b.toNat < 0x80) :
    [b] = String.utf8EncodeChar (Char.ofNat b.toNat) := by
  have hn := @toNat_val_ofNat b.toNat (by omega)
  unfold String.utf8EncodeChar
  simp only [hn]
  rw [if_pos (by omega), UInt8.ofNat_toNat]

theorem eq_encode_two {b₁ : UInt8} {n : Nat} (hlow : 0xc2 ≤ b.toNat) (hhigh : b.toNat < 0xe0)
    (hlow₁ : 0x80 ≤ b₁.toNat) (hhigh₁ : b₁.toNat ≤ 0xbf)
    (hn : n = (b.toNat - 0xc0) * 64 + (b₁.toNat - 0x80)) :
    [b, b₁] = String.utf8EncodeChar (Char.ofNat n) := by
  have hval := @toNat_val_ofNat n (by omega)
  unfold String.utf8EncodeChar
  simp only [hval]
  rw [if_neg (by omega), if_pos (by omega), ofNat_eq_of_toNat (b := b) (by omega),
    ofNat_eq_of_toNat (b := b₁) (by omega)]

theorem eq_encode_three {b₁ b₂ : UInt8} {n : Nat} (hlow : 0xe0 ≤ b.toNat) (hhigh : b.toNat < 0xf0)
    (hlow₁ : 0x80 ≤ b₁.toNat) (hhigh₁ : b₁.toNat ≤ 0xbf)
    (hlow₂ : 0x80 ≤ b₂.toNat) (hhigh₂ : b₂.toNat ≤ 0xbf)
    (hn : n = ((b.toNat - 0xe0) * 64 + (b₁.toNat - 0x80)) * 64 + (b₂.toNat - 0x80))
    (hlong : 0x800 ≤ n) (hvalid : n < 0xd800 ∨ 0xdfff < n) :
    [b, b₁, b₂] = String.utf8EncodeChar (Char.ofNat n) := by
  have hval := @toNat_val_ofNat n (by omega)
  unfold String.utf8EncodeChar
  simp only [hval]
  rw [if_neg (by omega), if_neg (by omega), if_pos (by omega),
    ofNat_eq_of_toNat (b := b) (by omega), ofNat_eq_of_toNat (b := b₁) (by omega),
    ofNat_eq_of_toNat (b := b₂) (by omega)]

theorem eq_encode_four {b₁ b₂ b₃ : UInt8} {n : Nat} (hlow : 0xf0 ≤ b.toNat)
    (hhigh : b.toNat ≤ 0xf4) (hlow₁ : 0x80 ≤ b₁.toNat) (hhigh₁ : b₁.toNat ≤ 0xbf)
    (hlow₂ : 0x80 ≤ b₂.toNat) (hhigh₂ : b₂.toNat ≤ 0xbf)
    (hlow₃ : 0x80 ≤ b₃.toNat) (hhigh₃ : b₃.toNat ≤ 0xbf)
    (hn : n = (((b.toNat - 0xf0) * 64 + (b₁.toNat - 0x80)) * 64 + (b₂.toNat - 0x80)) * 64 +
      (b₃.toNat - 0x80))
    (hlong : 0x10000 ≤ n) (hvalid : n < 0x110000) :
    [b, b₁, b₂, b₃] = String.utf8EncodeChar (Char.ofNat n) := by
  have hval := @toNat_val_ofNat n (by omega)
  unfold String.utf8EncodeChar
  simp only [hval]
  rw [if_neg (by omega), if_neg (by omega), if_neg (by omega),
    ofNat_eq_of_toNat (b := b) (by omega), ofNat_eq_of_toNat (b := b₁) (by omega),
    ofNat_eq_of_toNat (b := b₂) (by omega), ofNat_eq_of_toNat (b := b₃) (by omega)]

theorem eq_encode_of_spells_two (hlow : 0xc2 ≤ b.toNat) (hhigh : b.toNat < 0xe0)
    (h : Spells c none (b :: rest)) : b :: rest = String.utf8EncodeChar c := by
  simp only [spells_cons, take, start_two hlow hhigh, reduceCtorEq, false_and, false_or,
    Taken.more.injEq, exists_eq_left'] at h
  obtain ⟨b₁, n, rfl, ha, hn, rfl⟩ := spells_last h rfl
  exact eq_encode_two hlow hhigh ha.low ha.high hn

theorem Opening.Admits.low_cases (h : o.Admits b) {p : Prop} [Decidable p] {x y : UInt8}
    (hlow : o.low = if p then x else y) :
    (p ∧ x.toNat ≤ b.toNat) ∨ (¬p ∧ y.toNat ≤ b.toNat) := by
  have hle := h.low
  by_cases hp : p
  · rw [hlow, if_pos hp] at hle
    exact .inl ⟨hp, hle⟩
  · rw [hlow, if_neg hp] at hle
    exact .inr ⟨hp, hle⟩

theorem Opening.Admits.high_cases (h : o.Admits b) {p : Prop} [Decidable p] {x y : UInt8}
    (hhigh : o.high = if p then x else y) :
    (p ∧ b.toNat ≤ x.toNat) ∨ (¬p ∧ b.toNat ≤ y.toNat) := by
  have hle := h.high
  by_cases hp : p
  · rw [hhigh, if_pos hp] at hle
    exact .inl ⟨hp, hle⟩
  · rw [hhigh, if_neg hp] at hle
    exact .inr ⟨hp, hle⟩

theorem admits_next {b' : UInt8} (h : (o.next b).Admits b') :
    0x80 ≤ b'.toNat ∧ b'.toNat ≤ 0xbf :=
  ⟨h.low, h.high⟩

-- The mark that the second of three bytes leaves rules out surrogates.
theorem whole_next {b' : UInt8} (h : (o.next b).Admits b') (hw : o.wanted = 2) {n : Nat}
    (hn : n = o.value b) : n < 0x360 ∨ 0x380 ≤ n := by
  have hwhole := h.whole
  simp only [Opening.next, hw, decide_true, Bool.true_and, Bool.and_eq_false_iff,
    decide_eq_false_iff_not] at hwhole
  omega

theorem eq_encode_of_spells_three (hlow : 0xe0 ≤ b.toNat) (hhigh : b.toNat < 0xf0)
    (h : Spells c none (b :: rest)) : b :: rest = String.utf8EncodeChar c := by
  simp only [spells_cons, take, start_three hlow hhigh, reduceCtorEq, false_and, false_or,
    Taken.more.injEq, exists_eq_left'] at h
  obtain ⟨b₁, rest₁, rfl, ha₁, h₁⟩ := spells_next h Nat.one_lt_two
  obtain ⟨b₂, n, rfl, ha₂, hn, rfl⟩ := spells_last h₁ rfl
  have hhigh₁ : b₁.toNat ≤ 0xbf := ha₁.high
  have hlow₁ : b.toNat = 0xe0 ∧ 0xa0 ≤ b₁.toNat ∨ b.toNat ≠ 0xe0 ∧ 0x80 ≤ b₁.toNat :=
    ha₁.low_cases rfl
  obtain ⟨hlow₂, hhigh₂⟩ := admits_next ha₂
  have hwhole := @whole_next _ _ _ ha₂ rfl ((b.toNat - 0xe0) * 64 + (b₁.toNat - 0x80)) rfl
  have hn : n = ((b.toNat - 0xe0) * 64 + (b₁.toNat - 0x80)) * 64 + (b₂.toNat - 0x80) := hn
  exact eq_encode_three hlow hhigh (by omega) hhigh₁ hlow₂ hhigh₂ hn (by omega) (by omega)

theorem eq_encode_of_spells_four (hlow : 0xf0 ≤ b.toNat) (hhigh : b.toNat ≤ 0xf4)
    (h : Spells c none (b :: rest)) : b :: rest = String.utf8EncodeChar c := by
  simp only [spells_cons, take, start_four hlow hhigh, reduceCtorEq, false_and, false_or,
    Taken.more.injEq, exists_eq_left'] at h
  obtain ⟨b₁, rest₁, rfl, ha₁, h₁⟩ := spells_next h (Nat.lt_succ_of_lt Nat.one_lt_two)
  obtain ⟨b₂, rest₂, rfl, ha₂, h₂⟩ := spells_next h₁ Nat.one_lt_two
  obtain ⟨b₃, n, rfl, ha₃, hn, rfl⟩ := spells_last h₂ rfl
  have hlow₁ : b.toNat = 0xf0 ∧ 0x90 ≤ b₁.toNat ∨ b.toNat ≠ 0xf0 ∧ 0x80 ≤ b₁.toNat :=
    ha₁.low_cases rfl
  have hhigh₁ : b.toNat = 0xf4 ∧ b₁.toNat ≤ 0x8f ∨ b.toNat ≠ 0xf4 ∧ b₁.toNat ≤ 0xbf :=
    ha₁.high_cases rfl
  obtain ⟨hlow₂, hhigh₂⟩ := admits_next ha₂
  obtain ⟨hlow₃, hhigh₃⟩ := admits_next ha₃
  have hn : n = (((b.toNat - 0xf0) * 64 + (b₁.toNat - 0x80)) * 64 + (b₂.toNat - 0x80)) * 64 +
      (b₃.toNat - 0x80) := hn
  exact eq_encode_four hlow hhigh (by omega) (by omega) hlow₂ hhigh₂ hlow₃ hhigh₃ hn (by omega)
    (by omega)

-- Nothing but its own bytes spells a character.
theorem Spells.eq_encode (h : Spells c none bytes) : bytes = String.utf8EncodeChar c := by
  cases bytes with
  | nil => exact absurd h (by simp [Spells])
  | cons b rest =>
      rcases start_cases b with ⟨hb, hs⟩ | hs | ⟨hlow, hhigh⟩ | ⟨hlow, hhigh⟩ | ⟨hlow, hhigh⟩
      · rw [spells_cons] at h
        simp only [take, hs, Taken.char.injEq, reduceCtorEq, false_and, exists_false,
          or_false] at h
        rw [← h.1, h.2]
        exact eq_encode_one hb
      · simp [spells_cons, take, hs] at h
      · exact eq_encode_of_spells_two hlow hhigh h
      · exact eq_encode_of_spells_three hlow hhigh h
      · exact eq_encode_of_spells_four hlow hhigh h

-- No character stands in front of these bytes.
def Stuck (bytes : List UInt8) : Prop :=
  ∀ c, ¬String.utf8EncodeChar c <+: bytes

-- All bytes are a text and what is left when no more characters can be taken.
theorem exists_stuck (bytes : List UInt8) :
    ∃ (cs : List Char) (tail : List UInt8), bytes = cs.flatMap String.utf8EncodeChar ++ tail ∧
      Stuck tail := by
  by_cases h : ∃ c, String.utf8EncodeChar c <+: bytes
  · obtain ⟨c, rest, rfl⟩ := h
    have hpos : 0 < (String.utf8EncodeChar c).length :=
      List.length_pos_iff.mpr String.utf8EncodeChar_ne_nil
    obtain ⟨cs, tail, hrest, hstuck⟩ := exists_stuck rest
    refine ⟨c :: cs, tail, ?_, hstuck⟩
    rw [List.flatMap_cons, List.append_assoc, ← hrest]
  · exact ⟨[], bytes, rfl, fun c hc => h ⟨c, hc⟩⟩
termination_by bytes.length
decreasing_by
  subst_vars
  simp only [List.length_append]
  omega

theorem encode_append_inj {c d : Char} {x y : List UInt8}
    (h : String.utf8EncodeChar c ++ x = String.utf8EncodeChar d ++ y) : c = d := by
  have hc := @ByteArray.utf8DecodeChar?_utf8EncodeChar_append x.toByteArray c
  have hd := @ByteArray.utf8DecodeChar?_utf8EncodeChar_append y.toByteArray d
  rw [← List.toByteArray_append, h, List.toByteArray_append, hd] at hc
  exact (Option.some.inj hc).symm

-- No text in front of the bytes is longer.
theorem Stuck.longest {tail : List UInt8} (h : Stuck tail) {cs other : List Char}
    (hother : other.flatMap String.utf8EncodeChar <+:
      cs.flatMap String.utf8EncodeChar ++ tail) : other <+: cs := by
  induction other generalizing cs with
  | nil => exact List.nil_prefix
  | cons d other ih =>
      rw [List.flatMap_cons] at hother
      cases cs with
      | nil => exact absurd ((List.prefix_append _ _).trans hother) (h d)
      | cons c cs =>
          rw [List.flatMap_cons, List.append_assoc] at hother
          obtain ⟨more, hmore⟩ := hother
          rw [List.append_assoc] at hmore
          obtain rfl := encode_append_inj hmore
          have hrest := ih ⟨more, List.append_cancel_left hmore⟩
          exact List.cons_prefix_cons.mpr ⟨rfl, hrest⟩

end Utf8

namespace LineReader

-- Bytes that complete no character are refused, or held over as a sequence.
theorem takeBytes_of_unspelled {r : LineReader} {bytes : List UInt8}
    (h : ∀ c front, front <+: bytes → ¬Utf8.Spells c r.sequence front) (position : Nat)
    (done : List Line) :
    (∃ fault, r.takeBytes position done bytes = .error fault) ∨
    ∃ pending, r.takeBytes position done bytes =
        .ok ({ r with sequence := pending }, done.reverse) ∧
      (pending.isSome ∨ bytes = [] ∧ pending = r.sequence) := by
  induction bytes generalizing r position with
  | nil => exact .inr ⟨r.sequence, rfl, .inr ⟨rfl, rfl⟩⟩
  | cons b rest ih =>
      simp only [takeBytes]
      cases htake : Utf8.take r.sequence b with
      | refused problem => exact .inl ⟨_, rfl⟩
      | char c =>
          have hspells : Utf8.Spells c r.sequence [b] := htake
          exact absurd hspells (h c [b] (List.prefix_append [b] rest))
      | more o =>
          have hrest : ∀ c front, front <+: rest → ¬Utf8.Spells c (some o) front := by
            intro c front hfront hspells
            refine h c (b :: front) (List.cons_prefix_cons.mpr ⟨rfl, hfront⟩) ?_
            exact Utf8.spells_cons.mpr (.inr ⟨o, htake, hspells⟩)
          rcases @ih { r with sequence := some o } hrest (position + 1) with
            hfault | ⟨pending, hok, hpending⟩
          · exact .inl hfault
          · refine .inr ⟨pending, hok, .inl ?_⟩
            rcases hpending with hsome | ⟨_, rfl⟩
            · exact hsome
            · rfl

theorem read_sequence {r : LineReader} (hr : r.sequence = none) (cs : List Char) :
    (r.read cs).1.sequence = none := by
  induction cs generalizing r with
  | nil => exact hr
  | cons c cs ih => exact ih (takeChar_sequence r c)

theorem read_append (r : LineReader) (a b : List Char) :
    r.read (a ++ b) = (((r.read a).1.read b).1, (r.read a).2 ++ ((r.read a).1.read b).2) := by
  induction a generalizing r with
  | nil => rfl
  | cons c a ih => simp only [List.cons_append, read, ih, List.append_assoc]

-- A text with bytes behind it that do not go on with the text.
theorem takeBytes_of_stuck {r : LineReader} (hr : r.sequence = none) (cs : List Char)
    {tail : List UInt8} (hstuck : Utf8.Stuck tail) (position : Nat) :
    (∃ fault, r.takeBytes position [] (cs.flatMap String.utf8EncodeChar ++ tail) =
      .error fault) ∨
    ∃ pending, r.takeBytes position [] (cs.flatMap String.utf8EncodeChar ++ tail) =
        .ok ({ (r.read cs).1 with sequence := pending }, (r.read cs).2) ∧
      (tail ≠ [] → pending.isSome) := by
  have hunspelled : ∀ c front, front <+: tail →
      ¬Utf8.Spells c (r.read cs).1.sequence front := by
    intro c front hfront hspells
    rw [read_sequence hr] at hspells
    exact hstuck c (hspells.eq_encode ▸ hfront)
  rw [takeBytes_append, takeBytes_utf8 hr]
  simp only [List.reverse_nil, List.nil_append]
  rcases takeBytes_of_unspelled hunspelled (position + (cs.flatMap String.utf8EncodeChar).length)
    (r.read cs).2.reverse with hfault | ⟨pending, hok, hpending⟩
  · exact .inl hfault
  · rw [List.reverse_reverse] at hok
    refine .inr ⟨pending, hok, fun hne => ?_⟩
    rcases hpending with hsome | ⟨hnil, _⟩
    · exact hsome
    · exact absurd hnil hne

theorem takeBytes_trans {r mid last : LineReader} {position : Nat} {a b : List UInt8}
    {first more : List Line} (ha : r.takeBytes position [] a = .ok (mid, first))
    (hb : mid.takeBytes 0 [] b = .ok (last, more)) :
    r.takeBytes 0 [] (a ++ b) = .ok (last, first ++ more) := by
  obtain ⟨_, rfl, hany⟩ := takeBytes_eq_ok ha
  obtain ⟨_, rfl, hrest⟩ := takeBytes_eq_ok hb
  rw [takeBytes_append, hany]
  simp only [List.reverse_nil, List.nil_append, hrest, List.reverse_reverse]

end LineReader

namespace Lines

-- What chunks come to: all of them are taken, and nothing is left over, or those in
-- front are taken that have been decoded when a fault is found.
theorem ofChunks_cases (r : LineReader) (done : List Line) (pieces : List (List UInt8)) :
    (∃ last lines rest, r.takeBytes 0 [] pieces.flatten = .ok (last, lines) ∧
      last.finish = .ok rest ∧ ofChunks r done pieces = ⟨done.reverse ++ lines ++ rest, none⟩) ∨
    ∃ front last lines fault, front <+: pieces.flatten ∧
      r.takeBytes 0 [] front = .ok (last, lines) ∧
      ofChunks r done pieces = ⟨done.reverse ++ lines, some fault⟩ := by
  induction pieces generalizing r done with
  | nil =>
      cases hfinish : r.finish with
      | ok rest => exact .inl ⟨r, [], rest, rfl, hfinish, by simp [ofChunks, hfinish]⟩
      | error fault =>
          exact .inr ⟨[], r, [], fault, List.nil_prefix, rfl, by simp [ofChunks, hfinish]⟩
  | cons piece pieces ih =>
      cases hpiece : r.takeChunk piece with
      | error fault =>
          exact .inr ⟨[], r, [], fault, List.nil_prefix, rfl, by simp [ofChunks, hpiece]⟩
      | ok taken =>
          obtain ⟨next, first⟩ := taken
          have hnext : ofChunks r done (piece :: pieces) =
              ofChunks next (first.reverse ++ done) pieces := by
            simp only [ofChunks, hpiece]
          rw [hnext, List.flatten_cons]
          rcases ih next (first.reverse ++ done) with
            ⟨last, lines, rest, hok, hfinish, heq⟩ | ⟨front, last, lines, fault, hfront, hok, heq⟩
          · exact .inl ⟨last, first ++ lines, rest, LineReader.takeBytes_trans hpiece hok, hfinish,
              by simp [heq]⟩
          · exact .inr ⟨piece ++ front, last, first ++ lines, fault,
              (List.prefix_append_right_inj piece).mpr hfront,
              LineReader.takeBytes_trans hpiece hok, by simp [heq]⟩

theorem lines_read {cs front : List Char} (h : front <+: cs) :
    (LineReader.initial.read front).2 <+: split [] (newlines cs) := by
  obtain ⟨more, rfl⟩ := h
  obtain ⟨rest, _, hlines⟩ := @read_finish .initial rfl (front ++ more)
  have hall : split [] (newlines (front ++ more)) =
      (LineReader.initial.read (front ++ more)).2 ++ rest := hlines.symm
  rw [hall, LineReader.read_append, List.append_assoc]
  exact List.prefix_append _ _

-- Bytes that are no text end in a fault. The lines before it are lines of the text in
-- front, wherever the chunks are cut.
theorem ofChunks_of_stuck {pieces : List (List UInt8)} {cs : List Char} {tail : List UInt8}
    (hpieces : pieces.flatten = cs.flatMap String.utf8EncodeChar ++ tail)
    (hstuck : Utf8.Stuck tail) (hne : tail ≠ []) :
    (∃ fault, (ofChunks .initial [] pieces).fault = some fault) ∧
    (ofChunks .initial [] pieces).lines <+: split [] (newlines cs) := by
  rcases ofChunks_cases .initial [] pieces with
    ⟨last, lines, rest, hok, hfinish, _⟩ | ⟨front, last, lines, fault, hfront, hok, heq⟩
  · -- The bytes behind the text leave a sequence that is not finished.
    rw [hpieces] at hok
    rcases @LineReader.takeBytes_of_stuck .initial rfl cs tail hstuck 0 with
      ⟨fault, hfault⟩ | ⟨pending, hall, hsome⟩
    · rw [hfault] at hok
      cases hok
    · rw [hall] at hok
      cases hok
      obtain ⟨o, rfl⟩ := Option.isSome_iff_exists.mp (hsome hne)
      cases hfinish
  · rw [heq]
    refine ⟨⟨fault, rfl⟩, ?_⟩
    obtain ⟨read, held, rfl, hheld⟩ := Utf8.exists_stuck front
    have hread : read <+: cs := by
      apply hstuck.longest
      rw [← hpieces]
      exact (List.prefix_append _ _).trans hfront
    rcases @LineReader.takeBytes_of_stuck .initial rfl read held hheld 0 with
      ⟨fault, hfault⟩ | ⟨pending, hall, _⟩
    · rw [hfault] at hok
      cases hok
    · rw [hall] at hok
      cases hok
      exact lines_read hread

-- The longest text in front of bytes that are no text.
theorem exists_longest {bytes : List UInt8} (h : ∀ text : String, text.toUTF8.toList ≠ bytes) :
    ∃ longest : String, longest.toUTF8.toList <+: bytes ∧
      (∀ other : String, other.toUTF8.toList <+: bytes → other.toList <+: longest.toList) ∧
      ∀ pieces : List (List UInt8), pieces.flatten = bytes →
        (∃ fault, (ofChunks .initial [] pieces).fault = some fault) ∧
        (ofChunks .initial [] pieces).lines <+: split [] (newlines longest.toList) := by
  obtain ⟨cs, tail, hbytes, hstuck⟩ := Utf8.exists_stuck bytes
  have hlongest : (String.ofList cs).toUTF8.toList = cs.flatMap String.utf8EncodeChar := by
    rw [toList_toUTF8, String.toList_ofList]
  have hne : tail ≠ [] := by
    rintro rfl
    rw [List.append_nil] at hbytes
    exact h (String.ofList cs) (hlongest.trans hbytes.symm)
  refine ⟨String.ofList cs, ?_, ?_, ?_⟩
  · rw [hlongest, hbytes]
    exact List.prefix_append _ _
  · intro other hother
    rw [toList_toUTF8, hbytes] at hother
    rw [String.toList_ofList]
    exact hstuck.longest hother
  · intro pieces hpieces
    rw [String.toList_ofList]
    exact ofChunks_of_stuck (hpieces.trans hbytes) hstuck hne

theorem exists_text_of_fault_eq_none {bytes : List UInt8} (h : (ofBytes bytes).fault = none) :
    ∃ text : String, text.toUTF8.toList = bytes := by
  by_cases htext : ∃ text : String, text.toUTF8.toList = bytes
  · exact htext
  · obtain ⟨_, _, _, hchunks⟩ := exists_longest fun text h => htext ⟨text, h⟩
    obtain ⟨⟨fault, hfault⟩, _⟩ := hchunks _ (flatten_chunks chunkSize bytes)
    rw [ofBytes, hfault] at h
    cases h

end Lines

end StackLang
