import StackLang.Op.Intrinsic
import StackLang.Proofs.Token.Runs

-- How tokens are told from their text: what a program can be spelled with is
-- scanned whole, and classified as what was written.

namespace StackLang

namespace Text

theorem isDigit_iff (c : Char) : isDigit c = true ↔ 48 ≤ c.toNat ∧ c.toNat ≤ 57 := by
  simp only [isDigit, Bool.and_eq_true, decide_eq_true_eq]
  exact Iff.rfl

theorem isDigit_of_mem_toDigits {c : Char} {n : Nat} (h : c ∈ Nat.toDigits 10 n) :
    isDigit c = true := by
  have hdigit := Nat.isDigit_of_mem_toDigits (by decide) (by decide) h
  simp only [Char.isDigit, Bool.and_eq_true, decide_eq_true_eq] at hdigit
  exact (isDigit_iff c).mpr hdigit

theorem isBlank_of_isDigit {c : Char} (h : isDigit c = true) : isBlank c = false := by
  rw [isDigit_iff] at h
  apply Bool.eq_false_iff.mpr
  intro hblank
  obtain ⟨range, hmem, hlow, hhigh⟩ := (Ranges.holds_iff _ _).mp hblank
  have hgap : ∀ range ∈ blanks, range.2 ≤ 0x20 ∨ 0x85 ≤ range.1 := by decide
  have hrange := hgap range hmem
  omega

theorem numberOf_toDigits (n : Nat) : numberOf (Nat.toDigits 10 n) = n :=
  Nat.ofDigitChars_toDigits (by decide) (by decide)

theorem numberOf_zeros (n : Nat) (digits : List Char) :
    numberOf (List.replicate n '0' ++ digits) = numberOf digits := by
  induction n with
  | zero => rfl
  | succ n ih => exact ih

end Text

theorem isRun_of_digits {cs : List Char} (hne : cs ≠ [])
    (h : ∀ c ∈ cs, Text.isDigit c = true) : IsRun cs where
  ne_nil := hne
  unbroken := fun c hc => Text.isBlank_of_isDigit (h c hc)
  plain := by
    intro hslashes
    have hslash : '/' ∈ cs := hslashes.subset List.mem_cons_self
    exact absurd (h '/' hslash) (by decide)

namespace Lexeme

-- The lexemes that a tree can be spelled with.
def Known : Lexeme → Prop
  | .word text => ∃ i : Intrinsic, text = i.text
  | .int _ => True
  | .marker _ => True

theorem digits?_of_digits {cs : List Char} (hne : cs ≠ [])
    (h : ∀ c ∈ cs, Text.isDigit c = true) : digits? cs = some cs := by
  have hdigits : cs.all Text.isDigit = true := List.all_eq_true.mpr h
  unfold digits?
  split
  · exact absurd (h '+' List.mem_cons_self) (by decide)
  · simp [hdigits, hne]

theorem digits?_toDigits (n : Nat) :
    digits? (Nat.toDigits 10 n) = some (Nat.toDigits 10 n) :=
  digits?_of_digits Nat.toDigits_ne_nil fun _ hc => Text.isDigit_of_mem_toDigits hc

-- No 64-bit number has as many digits as would be refused.
theorem numeral?_toDigits (value : UInt64) :
    numeral? (Nat.toDigits 10 value.toNat) = .ok (some value) := by
  have hlength : (Nat.toDigits 10 value.toNat).length ≤ 20 := by
    rw [Nat.length_toDigits_le_iff (by decide) (by decide)]
    exact Nat.lt_trans value.toNat_lt (by decide)
  have hlimit : ¬ maxDigits < (Nat.toDigits 10 value.toNat).length := by
    unfold maxDigits
    omega
  have hsize : value.toNat < UInt64.size := value.toNat_lt
  simp only [numeral?, digits?_toDigits, if_neg hlimit, Text.numberOf_toDigits, if_pos hsize,
    UInt64.ofNat_toNat]

-- A row of digits is neither a marker nor an intrinsic.
theorem find?_of_digits {ι : Type} {names : List ι} {text : ι → String}
    (hnames : ∀ name ∈ names, digits? (text name).toList = none) {cs digits : List Char}
    (h : digits? cs = some digits) :
    (names.find? fun name => text name == String.ofList cs) = none := by
  rw [List.find?_eq_none]
  intro name hname htext
  have hnone := hnames name hname
  rw [eq_of_beq htext, String.toList_ofList, h] at hnone
  cases hnone

theorem ofText?_of_digits {cs digits : List Char} (h : digits? cs = some digits) :
    Marker.ofText? (String.ofList cs) = none ∧ Intrinsic.ofText? (String.ofList cs) = none :=
  ⟨find?_of_digits (by decide) h, find?_of_digits (by decide) h⟩

theorem classify_text {l : Lexeme} (h : l.Known) : classify l.text.toList = .ok l := by
  cases l with
  | word text =>
      obtain ⟨i, rfl⟩ := h
      cases i <;> rfl
  | int value =>
      have hmarker := (ofText?_of_digits (digits?_toDigits value.toNat)).1
      simp only [text, Text.decimal, String.toList_ofList, classify, hmarker, numeral?_toDigits]
  | marker m => cases m <;> rfl

-- How a row of digits is read, whatever zeros it starts with.
theorem classify_of_digits {cs digits : List Char} (h : digits? cs = some digits) :
    classify cs = if maxDigits < digits.length then .error ⟨digits.length⟩
      else if Text.numberOf digits < UInt64.size then
        .ok (.int (UInt64.ofNat (Text.numberOf digits)))
      else .ok (.word (String.ofList cs)) := by
  simp only [classify, (ofText?_of_digits h).1, numeral?, h]
  by_cases hlimit : maxDigits < digits.length
  · simp [hlimit]
  · by_cases hsize : Text.numberOf digits < UInt64.size
    · simp [hlimit, hsize]
    · simp [hlimit, hsize]

-- Only a row of too many digits is no token.
theorem classify_eq_error_iff {cs : List Char} {e : TooManyDigits} :
    classify cs = .error e ↔
      ∃ digits, digits? cs = some digits ∧ maxDigits < digits.length ∧ e = ⟨digits.length⟩ := by
  cases hdigits : digits? cs with
  | none =>
      have hok : ∃ lexeme, classify cs = .ok lexeme := by
        simp only [classify, numeral?, hdigits]
        cases Marker.ofText? (String.ofList cs) with
        | some m => exact ⟨_, rfl⟩
        | none => exact ⟨_, rfl⟩
      obtain ⟨lexeme, hlexeme⟩ := hok
      simp [hlexeme]
  | some digits =>
      rw [classify_of_digits hdigits]
      by_cases hlimit : maxDigits < digits.length
      · simp [hlimit, eq_comm]
      · by_cases hsize : Text.numberOf digits < UInt64.size
        · simp [hlimit, hsize]
        · simp [hlimit, hsize]

-- Words and markers are read as they are written.
theorem text_of_classify {cs : List Char} {l : Lexeme} (h : classify cs = .ok l)
    (hl : ∀ n, l ≠ .int n) : l.text.toList = cs := by
  simp only [classify] at h
  cases hm : Marker.ofText? (String.ofList cs) with
  | some m =>
      rw [hm] at h
      cases h
      have htext := List.find?_some hm
      rw [text, eq_of_beq htext, String.toList_ofList]
  | none =>
      rw [hm] at h
      cases hn : numeral? cs with
      | error e => simp [hn] at h
      | ok n =>
          rw [hn] at h
          cases n with
          | some n =>
              cases h
              exact absurd rfl (hl n)
          | none =>
              cases h
              exact String.toList_ofList

theorem isRun_text {l : Lexeme} (h : l.Known) : IsRun l.text.toList := by
  cases l with
  | word text =>
      obtain ⟨i, rfl⟩ := h
      cases i <;> exact .of_check (by decide)
  | int value =>
      simp only [text, Text.decimal, String.toList_ofList]
      exact isRun_of_digits Nat.toDigits_ne_nil fun _ hc => Text.isDigit_of_mem_toDigits hc
  | marker m => cases m <;> exact .of_check (by decide)

end Lexeme

end StackLang
