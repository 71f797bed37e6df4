import StackLang.Proofs.Text.Numeral

-- Which texts are integers. They are the numerals of the numbers of 64 bits, so that what is
-- printed in decimal is read back, and all other texts are markers or stay as they are.

namespace StackLang

namespace Lexeme

theorem digits?_of_signed {cs : List Char} (hne : cs ≠ [])
    (h : ∀ c ∈ cs, Text.isDigit c = true) : digits? ('+' :: cs) = some cs := by
  have hdigits : cs.all Text.isDigit = true := List.all_eq_true.mpr h
  simp [digits?, hdigits, hne]

theorem digits?_eq_some_iff {cs digits : List Char} :
    digits? cs = some digits ↔ (cs = digits ∨ cs = '+' :: digits) ∧ digits ≠ [] ∧
      ∀ c ∈ digits, Text.isDigit c = true := by
  constructor
  · intro h
    simp only [digits?, Option.ite_none_right_eq_some, Option.some.injEq, Bool.and_eq_true,
      Bool.not_eq_true', List.isEmpty_eq_false_iff, List.all_eq_true] at h
    obtain ⟨⟨hne, hdigits⟩, hrow⟩ := h
    rw [hrow] at hne hdigits
    refine ⟨?_, hne, hdigits⟩
    split at hrow
    · exact .inr (by rw [hrow])
    · exact .inl hrow
  · rintro ⟨rfl | rfl, hne, hdigits⟩
    · exact digits?_of_digits hne hdigits
    · exact digits?_of_signed hne hdigits

-- The texts that have a value are the numerals.
theorem isNumeral_iff {n : Nat} {cs : List Char} :
    Text.IsNumeral n cs ↔ ∃ digits, digits? cs = some digits ∧ Text.numberOf digits = n := by
  constructor
  · rintro ⟨sign, row, hsign, rfl, hrow⟩
    obtain ⟨hne, hdigits, hvalue⟩ := Text.isPadded_iff.mp hrow
    refine ⟨row, digits?_eq_some_iff.mpr ⟨?_, hne, hdigits⟩, hvalue⟩
    rcases hsign with rfl | rfl
    · exact .inl rfl
    · exact .inr rfl
  · rintro ⟨digits, hdigits, hvalue⟩
    obtain ⟨hsign, hrow⟩ := digits?_eq_some_iff.mp hdigits
    have hpadded : Text.IsPadded n digits := Text.isPadded_iff.mpr ⟨hrow.1, hrow.2, hvalue⟩
    rcases hsign with hcs | hcs
    · exact ⟨[], digits, .inl rfl, hcs, hpadded⟩
    · exact ⟨['+'], digits, .inr rfl, hcs, hpadded⟩

-- A numeral has no more digits than the text that it is.
theorem length_le_countP {cs digits : List Char} (h : digits? cs = some digits) :
    digits.length ≤ cs.countP Text.isDigit := by
  obtain ⟨hsign, _, hdigits⟩ := digits?_eq_some_iff.mp h
  have hcount : digits.countP Text.isDigit = digits.length := List.countP_eq_length.mpr hdigits
  rcases hsign with rfl | rfl
  · exact Nat.le_of_eq hcount.symm
  · rw [← hcount, List.countP_cons]
    exact Nat.le_add_right _ _

theorem exists_classify {cs : List Char} (h : cs.countP Text.isDigit ≤ maxDigits) :
    ∃ lexeme, classify cs = .ok lexeme := by
  cases hclass : classify cs with
  | ok lexeme => exact ⟨lexeme, rfl⟩
  | error e =>
      obtain ⟨digits, hdigits, hlimit, _⟩ := classify_eq_error_iff.mp hclass
      have hlength := length_le_countP hdigits
      omega

theorem classify_ne_int {cs : List Char} (h : digits? cs = none) (value : UInt64) :
    classify cs ≠ .ok (.int value) := by
  simp only [classify, numeral?, h]
  split <;> simp

theorem classify_eq_int_iff {cs : List Char} (h : cs.countP Text.isDigit ≤ maxDigits) (n : Nat) :
    (∃ value : UInt64, value.toNat = n ∧ classify cs = .ok (.int value)) ↔
      Text.IsNumeral n cs ∧ n < UInt64.size := by
  rw [isNumeral_iff]
  constructor
  · rintro ⟨value, rfl, hclass⟩
    cases hdigits : digits? cs with
    | none => exact absurd hclass (classify_ne_int hdigits value)
    | some digits =>
        have hlength := length_le_countP hdigits
        rw [classify_of_digits hdigits, if_neg (by omega)] at hclass
        by_cases hsize : Text.numberOf digits < UInt64.size
        · simp only [if_pos hsize, Except.ok.injEq, int.injEq] at hclass
          refine ⟨⟨digits, rfl, ?_⟩, value.toNat_lt⟩
          rw [← hclass, UInt64.toNat_ofNat_of_lt' hsize]
        · simp [if_neg hsize] at hclass
  · rintro ⟨⟨digits, hdigits, rfl⟩, hsize⟩
    have hlength := length_le_countP hdigits
    refine ⟨UInt64.ofNat (Text.numberOf digits), UInt64.toNat_ofNat_of_lt' hsize, ?_⟩
    rw [classify_of_digits hdigits, if_neg (by omega), if_pos hsize]

theorem ofList_of_classify {cs : List Char} {l : Lexeme} (h : classify cs = .ok l)
    (hl : ∀ n, l ≠ .int n) : String.ofList cs = l.text := by
  rw [← text_of_classify h hl, String.ofList_toList]

theorem classify_eq_marker_iff {cs : List Char} {m : Marker} :
    classify cs = .ok (.marker m) ↔ String.ofList cs = m.text := by
  constructor
  · intro h
    exact ofList_of_classify h (by simp)
  · intro h
    have hclass := classify_text (l := .marker m) trivial
    rwa [text, ← h, String.toList_ofList] at hclass

-- A word is what is nothing else.
theorem classify_eq_word_iff {cs : List Char} (h : cs.countP Text.isDigit ≤ maxDigits)
    {text : String} :
    classify cs = .ok (.word text) ↔ text = String.ofList cs ∧
      (¬∃ m : Marker, String.ofList cs = m.text) ∧
      ∀ n, n < UInt64.size → ¬Text.IsNumeral n cs := by
  constructor
  · intro hword
    refine ⟨(ofList_of_classify hword (by simp)).symm, ?_, ?_⟩
    · rintro ⟨m, hm⟩
      rw [classify_eq_marker_iff.mpr hm] at hword
      cases hword
    · intro n hn hnumeral
      obtain ⟨value, _, hvalue⟩ := (classify_eq_int_iff h n).mpr ⟨hnumeral, hn⟩
      rw [hword] at hvalue
      cases hvalue
  · rintro ⟨rfl, hmarker, hnumeral⟩
    obtain ⟨lexeme, hlexeme⟩ := exists_classify h
    cases lexeme with
    | word text => rw [hlexeme, ofList_of_classify hlexeme (by simp), Lexeme.text]
    | marker m => exact absurd ⟨m, classify_eq_marker_iff.mp hlexeme⟩ hmarker
    | int value =>
        have hvalue := (classify_eq_int_iff h value.toNat).mp ⟨value, rfl, hlexeme⟩
        exact absurd hvalue.1 (hnumeral _ hvalue.2)

end Lexeme

theorem Marker.exists_text_iff {text : String} :
    (∃ m : Marker, text = m.text) ↔ text ∈ ["if", "if*", "else", "while", "do", "end"] := by
  constructor
  · rintro ⟨m, rfl⟩
    cases m <;> simp [Marker.text]
  · intro h
    obtain ⟨m, _, hm⟩ : ∃ m ∈ Marker.all, m.text = text := List.mem_map.mp h
    exact ⟨m, hm.symm⟩

-- What a text of no more digits than can be read is: the integer that it is a numeral of, if
-- that is of 64 bits; a marker, if it is one of their six spellings; or a word, as it stands,
-- if it is neither. So an integer is read back from its decimal, and an intrinsic is a word.
theorem classify_inverts_printing :
    (∀ cs : List Char, cs.countP Text.isDigit ≤ 4300 →
      (∀ n : Nat, (∃ value : UInt64, value.toNat = n ∧ Lexeme.classify cs = .ok (.int value)) ↔
        Text.IsNumeral n cs ∧ n ≤ 0xffffffffffffffff) ∧
      (∀ m, Lexeme.classify cs = .ok (.marker m) ↔ String.ofList cs = m.text) ∧
      ((∃ m, Lexeme.classify cs = .ok (.marker m)) ↔
        String.ofList cs ∈ ["if", "if*", "else", "while", "do", "end"]) ∧
      ∀ text, Lexeme.classify cs = .ok (.word text) ↔
        text = String.ofList cs ∧
          String.ofList cs ∉ ["if", "if*", "else", "while", "do", "end"] ∧
          ∀ n, n ≤ 0xffffffffffffffff → ¬Text.IsNumeral n cs) ∧
    (∀ value : UInt64, Lexeme.classify (Text.decimal value.toNat).toList = .ok (.int value)) ∧
    ∀ i : Intrinsic, Lexeme.classify i.text.toList = .ok (.word i.text) := by
  refine ⟨?_, fun value => Lexeme.classify_text (l := .int value) trivial,
    fun i => Lexeme.classify_text (l := .word i.text) ⟨i, rfl⟩⟩
  intro cs hcount
  have hsize : ∀ n : Nat, n ≤ 0xffffffffffffffff ↔ n < UInt64.size :=
    fun n => Nat.lt_succ_iff.symm
  refine ⟨?_, fun m => Lexeme.classify_eq_marker_iff, ?_, ?_⟩
  · intro n
    rw [Lexeme.classify_eq_int_iff hcount, hsize]
  · rw [← Marker.exists_text_iff]
    exact exists_congr fun m => Lexeme.classify_eq_marker_iff
  · intro text
    simp only [hsize, ← Marker.exists_text_iff]
    exact Lexeme.classify_eq_word_iff hcount

-- The largest integer with a sign and zeros, and the number after it.
def edgeSample : List Char := "+0018446744073709551615".toList

def beyondSample : List Char := "+0018446744073709551616".toList

theorem classify_inverts_printing_edgeSample :
    edgeSample.countP Text.isDigit ≤ 4300 ∧ beyondSample.countP Text.isDigit ≤ 4300 ∧
    (∃ value : UInt64, value.toNat = 18446744073709551615 ∧
      Lexeme.classify edgeSample = .ok (.int value)) ∧
    Lexeme.classify beyondSample = .ok (.word "+0018446744073709551616") ∧
    ∀ n, n ≤ 0xffffffffffffffff → ¬Text.IsNumeral n beyondSample := by
  have hedge : edgeSample.countP Text.isDigit ≤ 4300 := by decide +kernel
  have hbeyond : beyondSample.countP Text.isDigit ≤ 4300 := by decide +kernel
  have hnumeral : Text.IsNumeral 18446744073709551615 edgeSample :=
    ⟨['+'], "0018446744073709551615".toList, .inr rfl, by decide +kernel, 2,
      "18446744073709551615".toList, by decide +kernel, .inl (by decide +kernel)⟩
  have hword : Lexeme.classify beyondSample = .ok (.word "+0018446744073709551616") := by
    decide +kernel
  have hint := (classify_inverts_printing.1 edgeSample hedge).1
  obtain ⟨_, _, _, hwords⟩ := classify_inverts_printing.1 beyondSample hbeyond
  exact ⟨hedge, hbeyond, (hint _).mpr ⟨hnumeral, Nat.le_refl _⟩, hword,
    ((hwords _).mp hword).2.2⟩

end StackLang
