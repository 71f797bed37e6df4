import Mathlib.Data.List.Basic
import StackLang.Proofs.Token.Classify

-- How numbers are written: in decimal without a zero in front, and as words of 64 bits in
-- sixteen hexadecimal digits. Either way the digits tell the number.

namespace StackLang.Text

structure IsDecimal (n : Nat) (cs : List Char) : Prop where
  digits : ∀ c ∈ cs, isDigit c = true
  nonempty : cs ≠ []
  shortest : cs.head? = some '0' → cs = ['0']
  value : numberOf cs = n

-- Digits are added at the end, so that the first digit of a number of two or more is that of
-- a number above zero.
theorem toDigits_of_head?_zero {n : Nat} (h : (Nat.toDigits 10 n).head? = some '0') : n = 0 := by
  induction n using Nat.strongRecOn with
  | _ n ih =>
      by_cases hlt : n < 10
      · rw [Nat.toDigits_of_lt_base hlt, List.head?_singleton, Option.some.injEq] at h
        exact Nat.digitChar_eq_zero.mp h
      · have hle : 10 ≤ n := by omega
        rw [Nat.toDigits_of_base_le (by decide) hle,
          List.head?_append_of_ne_nil _ Nat.toDigits_ne_nil] at h
        have hzero := ih (n / 10) (by omega) h
        omega

theorem isDecimal_toDigits (n : Nat) : IsDecimal n (Nat.toDigits 10 n) where
  digits _ hc := isDigit_of_mem_toDigits hc
  nonempty := Nat.toDigits_ne_nil
  shortest h := by
    rw [toDigits_of_head?_zero h, Nat.toDigits_zero]
  value := numberOf_toDigits n

theorem digitValue_lt {c : Char} (h : isDigit c = true) : digitValue c < 10 := by
  have hcode : digitValue c = c.toNat - 48 := rfl
  rw [isDigit_iff] at h
  omega

theorem digitChar_digitValue {c : Char} (h : isDigit c = true) :
    Nat.digitChar (digitValue c) = c := by
  have hcode : digitValue c = c.toNat - 48 := rfl
  apply Char.toNat_inj.mp
  rw [Nat.toNat_digitChar_of_lt_ten (digitValue_lt h)]
  rw [isDigit_iff] at h
  omega

theorem digitValue_pos {c : Char} (h : isDigit c = true) (hzero : c ≠ '0') :
    0 < digitValue c := by
  apply Nat.pos_of_ne_zero
  intro hvalue
  have hchar := digitChar_digitValue h
  rw [hvalue] at hchar
  exact hzero hchar.symm

-- Digits that are read after a number above zero continue its decimal.
theorem toDigits_foldl {cs : List Char} (hcs : ∀ c ∈ cs, isDigit c = true) {n : Nat}
    (hn : 0 < n) :
    Nat.toDigits 10 (cs.foldl (fun n c => 10 * n + digitValue c) n) = Nat.toDigits 10 n ++ cs := by
  induction cs generalizing n with
  | nil => rw [List.foldl_nil, List.append_nil]
  | cons c cs ih =>
      obtain ⟨hc, hcs⟩ := List.forall_mem_cons.mp hcs
      have hnext : Nat.toDigits 10 (10 * n + digitValue c) = Nat.toDigits 10 n ++ [c] := by
        rw [← Nat.toDigits_append_toDigits (by decide) hn (digitValue_lt hc),
          Nat.toDigits_of_lt_base (digitValue_lt hc), digitChar_digitValue hc]
      rw [List.foldl_cons, ih hcs (by omega), hnext, List.append_assoc, List.singleton_append]

-- A number has one shortest decimal.
theorem IsDecimal.eq_toDigits {n : Nat} {cs : List Char} (h : IsDecimal n cs) :
    cs = Nat.toDigits 10 n := by
  obtain ⟨hdigits, hne, hshortest, rfl⟩ := h
  cases cs with
  | nil => exact absurd rfl hne
  | cons c rest =>
      by_cases hzero : c = '0'
      · subst hzero
        rw [hshortest rfl]
        rfl
      · obtain ⟨hc, hrest⟩ := List.forall_mem_cons.mp hdigits
        have hvalue : numberOf (c :: rest) =
            rest.foldl (fun n c => 10 * n + digitValue c) (digitValue c) := by
          rw [numberOf, List.foldl_cons, Nat.mul_zero, Nat.zero_add]
        rw [hvalue, toDigits_foldl hrest (digitValue_pos hc hzero),
          Nat.toDigits_of_lt_base (digitValue_lt hc), digitChar_digitValue hc,
          List.singleton_append]

-- A number after any number of zeros. For zero these can be all there is.
def IsPadded (n : Nat) (cs : List Char) : Prop :=
  ∃ zeros shortest, cs = List.replicate zeros '0' ++ shortest ∧
    (shortest = (decimal n).toList ∨ n = 0 ∧ shortest = [] ∧ 0 < zeros)

-- The zeros that a row starts with, and what follows them.
theorem exists_zeros (cs : List Char) :
    ∃ zeros shortest, cs = List.replicate zeros '0' ++ shortest ∧ shortest.head? ≠ some '0' := by
  induction cs with
  | nil => exact ⟨0, [], rfl, by simp⟩
  | cons c rest ih =>
      by_cases hzero : c = '0'
      · obtain ⟨zeros, shortest, hrest, hhead⟩ := ih
        refine ⟨zeros + 1, shortest, ?_, hhead⟩
        rw [hzero, hrest, List.replicate_succ, List.cons_append]
      · exact ⟨0, c :: rest, rfl, by simpa using hzero⟩

-- A row of digits denotes just the number that it pads with zeros.
theorem isPadded_iff {n : Nat} {cs : List Char} :
    IsPadded n cs ↔ cs ≠ [] ∧ (∀ c ∈ cs, isDigit c = true) ∧ numberOf cs = n := by
  constructor
  · rintro ⟨zeros, shortest, rfl, hshortest⟩
    have hzeros : ∀ c ∈ List.replicate zeros '0', isDigit c = true := by
      intro c hc
      rw [List.eq_of_mem_replicate hc]
      rfl
    rw [numberOf_zeros]
    rcases hshortest with rfl | ⟨rfl, rfl, hpos⟩
    · rw [decimal, String.toList_ofList]
      refine ⟨List.append_ne_nil_of_right_ne_nil _ Nat.toDigits_ne_nil, ?_, numberOf_toDigits n⟩
      exact List.forall_mem_append.mpr ⟨hzeros, fun _ hc => isDigit_of_mem_toDigits hc⟩
    · rw [List.append_nil]
      refine ⟨?_, hzeros, rfl⟩
      rw [ne_eq, List.replicate_eq_nil_iff]
      omega
  · rintro ⟨hne, hdigits, rfl⟩
    obtain ⟨zeros, shortest, rfl, hhead⟩ := exists_zeros cs
    refine ⟨zeros, shortest, rfl, ?_⟩
    rw [numberOf_zeros]
    by_cases hempty : shortest = []
    · subst hempty
      refine .inr ⟨rfl, rfl, Nat.pos_of_ne_zero ?_⟩
      rintro rfl
      exact hne rfl
    · have hdecimal : IsDecimal (numberOf shortest) shortest :=
        ⟨(List.forall_mem_append.mp hdigits).2, hempty, fun hzero => absurd hzero hhead, rfl⟩
      rw [decimal, String.toList_ofList]
      exact .inl hdecimal.eq_toDigits

-- A number as it can be written: with a plus sign or without, after any number of zeros.
def IsNumeral (n : Nat) (cs : List Char) : Prop :=
  ∃ sign row, (sign = [] ∨ sign = ['+']) ∧ cs = sign ++ row ∧ IsPadded n row

def isHexDigit (c : Char) : Bool :=
  isDigit c || 'a' ≤ c && c ≤ 'f'

def hexDigitValue (c : Char) : Nat :=
  if isDigit c then digitValue c else c.toNat - 'a'.toNat + 10

-- The number that a row of hexadecimal digits denotes.
def hexNumberOf (digits : List Char) : Nat :=
  digits.foldl (fun n c => 16 * n + hexDigitValue c) 0

structure IsHexWord (n : Nat) (cs : List Char) : Prop where
  length : cs.length = 16
  digits : ∀ c ∈ cs, isHexDigit c = true
  value : hexNumberOf cs = n

theorem hexDigit_digitChar : ∀ d < 16,
    isHexDigit (Nat.digitChar d) = true ∧ hexDigitValue (Nat.digitChar d) = d := by
  decide

theorem hexNumberOf_concat (digits : List Char) (c : Char) :
    hexNumberOf (digits ++ [c]) = 16 * hexNumberOf digits + hexDigitValue c := by
  rw [hexNumberOf, List.foldl_append, hexNumberOf]
  rfl

theorem hexDigits_toDigits (n : Nat) :
    (∀ c ∈ Nat.toDigits 16 n, isHexDigit c = true) ∧ hexNumberOf (Nat.toDigits 16 n) = n := by
  induction n using Nat.strongRecOn with
  | _ n ih =>
      by_cases hlt : n < 16
      · obtain ⟨hdigit, hvalue⟩ := hexDigit_digitChar n hlt
        rw [Nat.toDigits_of_lt_base hlt]
        exact ⟨List.forall_mem_singleton.mpr hdigit, by simp [hexNumberOf, hvalue]⟩
      · have hle : 16 ≤ n := by omega
        obtain ⟨hdigits, hnumber⟩ := ih (n / 16) (by omega)
        obtain ⟨hdigit, hvalue⟩ := hexDigit_digitChar (n % 16) (by omega)
        rw [Nat.toDigits_of_base_le (by decide) hle]
        refine ⟨List.forall_mem_append.mpr ⟨hdigits, List.forall_mem_singleton.mpr hdigit⟩, ?_⟩
        rw [hexNumberOf_concat, hnumber, hvalue]
        omega

theorem hexNumberOf_zeros (k : Nat) (digits : List Char) :
    hexNumberOf (List.replicate k '0' ++ digits) = hexNumberOf digits := by
  induction k with
  | zero => rfl
  | succ k ih =>
      rw [List.replicate_succ, List.cons_append]
      exact ih

-- Zeros fill a word up to its width, which no number of 64 bits exceeds.
theorem isHexWord_hexadecimal {n : Nat} (h : n < 0x10000000000000000) :
    IsHexWord n (hexadecimal 16 n).toList := by
  obtain ⟨hdigits, hvalue⟩ := hexDigits_toDigits n
  have hlength : (Nat.toDigits 16 n).length ≤ 16 := by
    rw [Nat.length_toDigits_le_iff (by decide) (by decide)]
    exact h
  rw [hexadecimal, String.toList_ofList]
  refine ⟨?_, ?_, ?_⟩
  · rw [List.length_append, List.length_replicate]
    omega
  · refine List.forall_mem_append.mpr ⟨?_, hdigits⟩
    intro c hc
    rw [List.eq_of_mem_replicate hc]
    rfl
  · rw [hexNumberOf_zeros, hvalue]

end StackLang.Text
