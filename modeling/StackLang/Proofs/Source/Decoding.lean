import StackLang.Source.Lines

-- Decoding undoes encoding: a text that is written as UTF-8 is read back line by
-- line, wherever the chunks are cut.

namespace StackLang

namespace Utf8

-- The bytes that turn what is pending into the character.
def Spells (c : Char) : Option Opening → List UInt8 → Prop
  | _, [] => False
  | pending, [b] => take pending b = .char c
  | pending, b :: rest => ∃ o, take pending b = .more o ∧ Spells c (some o) rest

theorem start_two {b : UInt8} (hlow : 0xc2 ≤ b.toNat) (hhigh : b.toNat < 0xe0) :
    start b = .more ⟨[b], b.toNat - 0xc0, 1, 0x80, 0xbf, false⟩ := by
  unfold start
  rw [if_neg, if_neg, if_pos]
  all_goals
    simp only [UInt8.lt_iff_toNat_lt, UInt8.reduceToNat]
    omega

theorem start_three {b : UInt8} (hlow : 0xe0 ≤ b.toNat) (hhigh : b.toNat < 0xf0) :
    start b =
      .more ⟨[b], b.toNat - 0xe0, 2, if b.toNat = 0xe0 then 0xa0 else 0x80, 0xbf, false⟩ := by
  unfold start
  simp only [UInt8.lt_iff_toNat_lt, ← UInt8.toNat_inj, UInt8.reduceToNat]
  rw [if_neg (by omega), if_neg (by omega), if_neg (by omega)]
  split
  · next h => rw [h]
  · rfl

theorem start_four {b : UInt8} (hlow : 0xf0 ≤ b.toNat) (hhigh : b.toNat ≤ 0xf4) :
    start b = .more ⟨[b], b.toNat - 0xf0, 3, if b.toNat = 0xf0 then 0x90 else 0x80,
      if b.toNat = 0xf4 then 0x8f else 0xbf, false⟩ := by
  unfold start
  simp only [UInt8.lt_iff_toNat_lt, ← UInt8.toNat_inj, UInt8.reduceToNat]
  rw [if_neg (by omega), if_neg (by omega), if_neg (by omega), if_neg (by omega),
    if_neg (by omega)]
  by_cases hfirst : b.toNat = 0xf0
  · simp [hfirst]
  · by_cases hlast : b.toNat = 0xf4
    · simp [hlast]
    · rw [if_neg hfirst, if_pos (by omega), if_neg hfirst, if_neg hlast]

theorem extend_last {o : Opening} {b : UInt8} {c : Char} (hs : o.surrogate = false)
    (hw : o.wanted ≤ 1) (hlow : o.low.toNat ≤ b.toNat) (hhigh : b.toNat ≤ o.high.toNat)
    (hbits : o.bits * 64 + (b.toNat - 0x80) = c.toNat) : extend o b = .char c := by
  unfold extend
  simp only [hs, UInt8.lt_iff_toNat_lt, Bool.false_or, Bool.or_eq_true, decide_eq_true_eq]
  rw [if_neg (by omega), if_pos hw, hbits, Char.ofNat_toNat]

theorem extend_more {o : Opening} {b : UInt8} (hs : o.surrogate = false) (hw : 1 < o.wanted)
    (hlow : o.low.toNat ≤ b.toNat) (hhigh : b.toNat ≤ o.high.toNat) :
    extend o b = .more ⟨b :: o.bytes, o.bits * 64 + (b.toNat - 0x80), o.wanted - 1, 0x80, 0xbf,
      o.wanted = 2 && 0x360 ≤ o.bits * 64 + (b.toNat - 0x80) &&
        o.bits * 64 + (b.toNat - 0x80) < 0x380⟩ := by
  unfold extend
  simp only [hs, UInt8.lt_iff_toNat_lt, Bool.false_or, Bool.or_eq_true, decide_eq_true_eq]
  rw [if_neg (by omega), if_neg (by omega)]

theorem toNat_ofNat_of_lt {n : Nat} (h : n < 256) : (UInt8.ofNat n).toNat = n := by
  simpa using h

-- The bytes of a character, by how many there are.

theorem spells_one {c : Char} (h : c.toNat < 0x80) : Spells c none [UInt8.ofNat c.toNat] := by
  have hb := @toNat_ofNat_of_lt c.toNat (by omega)
  show start _ = _
  unfold start
  rw [hb, if_pos, Char.ofNat_toNat]
  rw [UInt8.lt_iff_toNat_lt, hb]
  exact h

theorem spells_two {c : Char} (hlow : 0x80 ≤ c.toNat) (hhigh : c.toNat < 0x800) :
    Spells c none [UInt8.ofNat (c.toNat / 64 % 32 + 192), UInt8.ofNat (c.toNat % 64 + 128)] := by
  have hlead := @toNat_ofNat_of_lt (c.toNat / 64 % 32 + 192) (by omega)
  have hlast := @toNat_ofNat_of_lt (c.toNat % 64 + 128) (by omega)
  refine ⟨_, start_two (by omega) (by omega), extend_last rfl (by simp) ?_ ?_ ?_⟩
  all_goals
    simp only [UInt8.reduceToNat, hlead, hlast]
    omega

-- Without the surrogates, the second byte never opens one.
theorem spells_three {c : Char} (hlow : 0x800 ≤ c.toNat) (hhigh : c.toNat < 0x10000)
    (hvalid : c.toNat < 0xd800 ∨ 0xdfff < c.toNat) :
    Spells c none [UInt8.ofNat (c.toNat / 4096 % 16 + 224),
      UInt8.ofNat (c.toNat / 64 % 64 + 128), UInt8.ofNat (c.toNat % 64 + 128)] := by
  have hlead := @toNat_ofNat_of_lt (c.toNat / 4096 % 16 + 224) (by omega)
  have hnext := @toNat_ofNat_of_lt (c.toNat / 64 % 64 + 128) (by omega)
  have hlast := @toNat_ofNat_of_lt (c.toNat % 64 + 128) (by omega)
  refine ⟨_, start_three (by omega) (by omega), _, extend_more rfl (by simp) ?_ ?_,
    extend_last ?_ (by simp) ?_ ?_ ?_⟩
  all_goals simp only [UInt8.reduceToNat, hlead, hnext, hlast]
  · split <;> simp only [UInt8.reduceToNat] <;> omega
  · omega
  · simp only [decide_true, Bool.true_and, Bool.and_eq_false_iff, decide_eq_false_iff_not]
    omega
  · omega
  · omega
  · omega

theorem spells_four {c : Char} (hlow : 0x10000 ≤ c.toNat) (hhigh : c.toNat < 0x110000) :
    Spells c none [UInt8.ofNat (c.toNat / 262144 % 8 + 240),
      UInt8.ofNat (c.toNat / 4096 % 64 + 128), UInt8.ofNat (c.toNat / 64 % 64 + 128),
      UInt8.ofNat (c.toNat % 64 + 128)] := by
  have hlead := @toNat_ofNat_of_lt (c.toNat / 262144 % 8 + 240) (by omega)
  have hsecond := @toNat_ofNat_of_lt (c.toNat / 4096 % 64 + 128) (by omega)
  have hthird := @toNat_ofNat_of_lt (c.toNat / 64 % 64 + 128) (by omega)
  have hlast := @toNat_ofNat_of_lt (c.toNat % 64 + 128) (by omega)
  refine ⟨_, start_four (by omega) (by omega), _, extend_more rfl (by simp) ?_ ?_,
    _, extend_more ?_ (by simp) ?_ ?_, extend_last ?_ (by simp) ?_ ?_ ?_⟩
  all_goals simp only [UInt8.reduceToNat, hlead, hsecond, hthird, hlast]
  · split <;> simp only [UInt8.reduceToNat] <;> omega
  · split <;> simp only [UInt8.reduceToNat] <;> omega
  · simp
  · omega
  · omega
  · simp only [decide_true, Bool.true_and, Bool.and_eq_false_iff, decide_eq_false_iff_not]
    omega
  · omega
  · omega
  · omega

theorem spells_utf8EncodeChar (c : Char) : Spells c none (String.utf8EncodeChar c) := by
  have hvalid : c.toNat < 0xd800 ∨ 0xdfff < c.toNat ∧ c.toNat < 0x110000 := c.valid
  have hval : c.val.toNat = c.toNat := rfl
  fun_cases String.utf8EncodeChar c with
  | case1 v hone =>
      simp only [v, hval] at hone ⊢
      exact spells_one (by omega)
  | case2 v hone htwo =>
      simp only [v, hval] at hone htwo ⊢
      exact spells_two (by omega) (by omega)
  | case3 v hone htwo hthree =>
      simp only [v, hval] at hone htwo hthree ⊢
      exact spells_three (by omega) (by omega) (by omega)
  | case4 v hone htwo hthree =>
      simp only [v, hval] at hone htwo hthree ⊢
      exact spells_four (by omega) (by omega)

end Utf8

namespace LineReader

-- Characters are read with no regard to the bytes that they came from.
def read (r : LineReader) : List Char → LineReader × List Line
  | [] => (r, [])
  | c :: rest =>
      let taken := r.takeChar c
      let last := taken.1.read rest
      (last.1, taken.2.toList ++ last.2)

theorem takeChar_sequence (r : LineReader) (c : Char) : (r.takeChar c).1.sequence = none := by
  unfold takeChar
  repeat' split
  all_goals rfl

theorem takeBytes_of_spells {c : Char} {r : LineReader} {bytes : List UInt8}
    (h : Utf8.Spells c r.sequence bytes) (position : Nat) (done : List Line)
    (rest : List UInt8) :
    r.takeBytes position done (bytes ++ rest) =
      (r.takeChar c).1.takeBytes (position + bytes.length) ((r.takeChar c).2.toList ++ done)
        rest := by
  induction bytes generalizing r position with
  | nil => exact absurd h (by simp [Utf8.Spells])
  | cons b bytes ih =>
      cases bytes with
      | nil =>
          have htake : Utf8.take r.sequence b = .char c := h
          simp only [List.cons_append, List.nil_append, takeBytes, htake, List.length_singleton]
      | cons b' bytes =>
          obtain ⟨o, htake, hrest⟩ := h
          have hnext := @ih { r with sequence := some o } hrest (position + 1)
          have hposition : position + (b :: b' :: bytes).length =
              position + 1 + (b' :: bytes).length := by
            simp only [List.length_cons]
            omega
          rw [hposition, List.cons_append, takeBytes, htake]
          exact hnext

theorem takeBytes_utf8 {r : LineReader} (hr : r.sequence = none) (cs : List Char)
    (position : Nat) (done : List Line) :
    r.takeBytes position done (cs.flatMap String.utf8EncodeChar) =
      .ok ((r.read cs).1, done.reverse ++ (r.read cs).2) := by
  induction cs generalizing r position done with
  | nil => simp [takeBytes, read]
  | cons c cs ih =>
      have hc : Utf8.Spells c r.sequence (String.utf8EncodeChar c) := by
        rw [hr]
        exact Utf8.spells_utf8EncodeChar c
      rw [List.flatMap_cons, takeBytes_of_spells hc, ih (takeChar_sequence r c)]
      cases hline : (r.takeChar c).2 with
      | none => simp [read, hline]
      | some line => simp [read, hline]

theorem takeBytes_append (r : LineReader) (position : Nat) (done : List Line)
    (a b : List UInt8) :
    r.takeBytes position done (a ++ b) =
      match r.takeBytes position done a with
      | .ok (next, lines) => next.takeBytes (position + a.length) lines.reverse b
      | .error fault => .error fault := by
  induction a generalizing r position done with
  | nil => simp [takeBytes]
  | cons byte a ih =>
      simp only [List.cons_append, takeBytes, List.length_cons]
      have hposition : position + (a.length + 1) = position + 1 + a.length := by omega
      rw [hposition]
      cases Utf8.take r.sequence byte with
      | refused problem => rfl
      | more o => exact ih _ _ _
      | char c => exact ih _ _ _

-- Where bytes stand shows in faults only.
theorem takeBytes_eq_ok {r last : LineReader} {position : Nat} {done lines : List Line}
    {bytes : List UInt8} (h : r.takeBytes position done bytes = .ok (last, lines)) :
    ∃ more, lines = done.reverse ++ more ∧ ∀ position' done',
      r.takeBytes position' done' bytes = .ok (last, done'.reverse ++ more) := by
  induction bytes generalizing r position done with
  | nil =>
      simp only [takeBytes, Except.ok.injEq, Prod.mk.injEq] at h
      obtain ⟨rfl, rfl⟩ := h
      exact ⟨[], by simp, by simp [takeBytes]⟩
  | cons b bytes ih =>
      simp only [takeBytes] at h
      cases htake : Utf8.take r.sequence b with
      | refused problem => simp [htake] at h
      | more o =>
          simp only [htake] at h
          obtain ⟨more, hlines, hmore⟩ := ih h
          refine ⟨more, hlines, ?_⟩
          intro position' done'
          simp only [takeBytes, htake, hmore]
      | char c =>
          simp only [htake] at h
          obtain ⟨more, hlines, hmore⟩ := ih h
          refine ⟨(r.takeChar c).2.toList.reverse ++ more, by simp [hlines], ?_⟩
          intro position' done'
          simp only [takeBytes, htake, hmore, List.reverse_append, List.append_assoc]

end LineReader

namespace Lines

theorem flatten_chunks (size : Nat) (bytes : List UInt8) :
    (chunks size bytes).flatten = bytes := by
  fun_induction chunks size bytes with
  | case1 => rfl
  | case2 b rest ih =>
      rw [List.flatten_cons, ih, List.cons_append, List.take_append_drop]

theorem ofChunks_eq {r last : LineReader} {pieces : List (List UInt8)} {lines : List Line}
    (h : r.takeBytes 0 [] pieces.flatten = .ok (last, lines)) (done : List Line) :
    ofChunks r done pieces =
      match last.finish with
      | .ok rest => ⟨done.reverse ++ lines ++ rest, none⟩
      | .error fault => ⟨done.reverse ++ lines, some fault⟩ := by
  induction pieces generalizing r lines done with
  | nil =>
      simp only [List.flatten_nil, LineReader.takeBytes, List.reverse_nil, Except.ok.injEq,
        Prod.mk.injEq] at h
      obtain ⟨rfl, rfl⟩ := h
      cases hfinish : r.finish with
      | ok rest => simp [ofChunks, hfinish]
      | error fault => simp [ofChunks, hfinish]
  | cons piece pieces ih =>
      rw [List.flatten_cons, LineReader.takeBytes_append] at h
      cases hpiece : r.takeBytes 0 [] piece with
      | error fault => simp [hpiece] at h
      | ok pair =>
          obtain ⟨next, first⟩ := pair
          simp only [hpiece] at h
          obtain ⟨_, hfirst, hany⟩ := LineReader.takeBytes_eq_ok hpiece
          obtain ⟨more, rfl, hmore⟩ := LineReader.takeBytes_eq_ok h
          have hchunk : r.takeChunk piece = .ok (next, first) := by
            rw [LineReader.takeChunk, hany, hfirst]
          have hrest := @ih next more (hmore 0 []) (first.reverse ++ done)
          simp only [ofChunks, hchunk, hrest, List.reverse_append, List.reverse_reverse,
            List.append_assoc]

-- Each of CR LF, CR and LF, read as a line feed.
def newlines : List Char → List Char
  | [] => []
  | '\r' :: '\n' :: rest => '\n' :: newlines rest
  | '\r' :: rest => '\n' :: newlines rest
  | c :: rest => c :: newlines rest

theorem newlines_cons {c : Char} (h : c ≠ '\r') (rest : List Char) :
    newlines (c :: rest) = c :: newlines rest := by
  rw [newlines]
  all_goals simp [h]

theorem newlines_return {c : Char} (h : c ≠ '\n') (rest : List Char) :
    newlines ('\r' :: c :: rest) = '\n' :: newlines (c :: rest) := by
  rw [newlines]
  simp [h]

theorem newlines_eq_self {cs : List Char} (h : '\r' ∉ cs) : newlines cs = cs := by
  fun_induction newlines cs with
  | case1 => rfl
  | case2 rest ih => simp at h
  | case3 rest _ ih => simp at h
  | case4 c rest _ _ ih =>
      rw [ih (fun hmem => h (List.mem_cons_of_mem _ hmem))]

theorem split_append {cs : List Char} (h : '\n' ∉ cs) (line rest : List Char) :
    split line (cs ++ '\n' :: rest) = (line.reverse ++ (cs ++ ['\n'])) :: split [] rest := by
  induction cs generalizing line with
  | nil => simp [split]
  | cons c cs ih =>
      have hc : c ≠ '\n' := fun heq => h (by simp [heq])
      have hrest := ih (fun hmem => h (List.mem_cons_of_mem c hmem)) (c :: line)
      rw [List.cons_append, split, if_neg hc, hrest]
      simp

-- What a reader has passed stands in front of what it reads; a CR that it has
-- just passed is not part of its line yet.
theorem read_finish {r : LineReader} (hr : r.sequence = none) (cs : List Char) :
    ∃ rest, (r.read cs).1.finish = .ok rest ∧
      (r.read cs).2 ++ rest =
        split r.line (newlines (if r.afterReturn then '\r' :: cs else cs)) := by
  induction cs generalizing r with
  | nil =>
      obtain ⟨sequence, afterReturn, line⟩ := r
      subst hr
      cases afterReturn with
      | false => exact ⟨_, rfl, by simp [LineReader.read, newlines, split]⟩
      | true => exact ⟨_, rfl, by simp [LineReader.read, newlines, split]⟩
  | cons c cs ih =>
      obtain ⟨rest, hfinish, hlines⟩ := ih (LineReader.takeChar_sequence r c)
      refine ⟨rest, hfinish, ?_⟩
      have hread : (r.read (c :: cs)).2 =
          (r.takeChar c).2.toList ++ ((r.takeChar c).1.read cs).2 := rfl
      rw [hread, List.append_assoc, hlines]
      unfold LineReader.takeChar
      cases hreturn : r.afterReturn with
      | false =>
          by_cases hfeed : c = '\n'
          · simp [hfeed, newlines_cons, split]
          · by_cases hcr : c = '\r'
            · simp [hcr]
            · simp [hfeed, hcr, newlines_cons, split]
      | true =>
          by_cases hfeed : c = '\n'
          · simp [hfeed, newlines, split]
          · by_cases hcr : c = '\r'
            · simp [hcr, newlines_return, split]
            · simp [hfeed, hcr, newlines_return, newlines_cons, split]

theorem byteArray_toList_loop (bytes : ByteArray) (i : Nat) (done : List UInt8) :
    ByteArray.toList.loop bytes i done = done.reverse ++ bytes.data.toList.drop i := by
  fun_induction ByteArray.toList.loop bytes i done with
  | case1 i done hi ih =>
      have hlength : i < bytes.data.toList.length := hi
      rw [ih, List.reverse_cons, List.append_assoc, List.drop_eq_getElem_cons hlength]
      have hget : bytes.get! i = bytes.data.toList[i] := by
        rw [Array.getElem_toList]
        exact getElem!_pos bytes.data i hi
      rw [hget, List.singleton_append]
  | case2 i done hi =>
      have hlength : bytes.data.toList.length ≤ i := Nat.le_of_not_lt hi
      rw [List.drop_eq_nil_of_le hlength, List.append_nil]

theorem toList_toUTF8 (text : String) :
    text.toUTF8.toList = text.toList.flatMap String.utf8EncodeChar := by
  rw [ByteArray.toList, byteArray_toList_loop, String.toUTF8_eq_toByteArray,
    ← String.utf8Encode_toList, List.utf8Encode, List.toList_data_toByteArray]
  simp

-- Wherever the bytes of a text are cut.
theorem ofChunks_toUTF8 {text : String} {pieces : List (List UInt8)}
    (h : pieces.flatten = text.toUTF8.toList) :
    ofChunks .initial [] pieces = ofText (newlines text.toList) := by
  have hread := LineReader.takeBytes_utf8 (r := .initial) rfl text.toList 0 []
  rw [← toList_toUTF8, ← h] at hread
  obtain ⟨rest, hfinish, hlines⟩ := @read_finish .initial rfl text.toList
  rw [ofChunks_eq hread, hfinish]
  simp only [List.reverse_nil, List.nil_append, hlines]
  rfl

theorem ofBytes_toUTF8 (text : String) :
    ofBytes text.toUTF8.toList = ofText (newlines text.toList) :=
  ofChunks_toUTF8 (flatten_chunks chunkSize text.toUTF8.toList)

end Lines

end StackLang
