import Mathlib.Tactic.Ring
import SqlComposer.Text

set_option autoImplicit false

namespace SqlComposer

namespace Text

def digit (c : Char) : Nat := c.toNat - '0'.toNat

def value : Text → Nat
  | [] => 0
  | c :: rest => digit c * 10 ^ rest.length + value rest

variable {c d : Char} {text other : Text}

theorem isDigit_iff : c.isDigit = true ↔ '0'.toNat ≤ c.toNat ∧ c.toNat ≤ '9'.toNat := by
  have lower : '0'.val ≤ c.val ↔ '0'.toNat ≤ c.toNat := UInt32.le_iff_toNat_le
  have upper : c.val ≤ '9'.val ↔ c.toNat ≤ '9'.toNat := UInt32.le_iff_toNat_le
  simp only [Char.isDigit, Bool.and_eq_true, decide_eq_true_eq, ge_iff_le]
  exact and_congr lower upper

theorem digit_lt (numeric : c.isDigit = true) : digit c < 10 := by
  have bounds := isDigit_iff.1 numeric
  have nine : '9'.toNat = '0'.toNat + 9 := rfl
  unfold digit
  omega

theorem digit_inj (left : c.isDigit = true) (right : d.isDigit = true) (same : digit c = digit d) : c = d := by
  have first := isDigit_iff.1 left
  have second := isDigit_iff.1 right
  unfold digit at same
  exact Char.toNat_inj.1 (by omega)

theorem digit_eq_zero (numeric : c.isDigit = true) : digit c = 0 ↔ c = '0' :=
  ⟨fun zero => digit_inj numeric rfl zero, fun zero => zero ▸ rfl⟩

theorem value_lt (numeric : text.all Char.isDigit = true) : value text < 10 ^ text.length := by
  induction text with
  | nil => exact Nat.one_pos
  | cons c rest ih =>
    rw [List.all_cons, Bool.and_eq_true] at numeric
    have later := ih numeric.2
    have first : digit c + 1 ≤ 10 := digit_lt numeric.1
    calc value (c :: rest) < digit c * 10 ^ rest.length + 10 ^ rest.length := Nat.add_lt_add_left later _
      _ = (digit c + 1) * 10 ^ rest.length := by ring
      _ ≤ 10 * 10 ^ rest.length := Nat.mul_le_mul_right _ first
      _ = 10 ^ (c :: rest).length := by rw [List.length_cons, Nat.pow_succ']

theorem value_inj (left : text.all Char.isDigit = true) (right : other.all Char.isDigit = true)
    (places : text.length = other.length) (same : value text = value other) : text = other := by
  induction text generalizing other with
  | nil => exact (List.eq_nil_of_length_eq_zero places.symm).symm
  | cons c rest ih =>
    match other with
    | [] => cases places
    | d :: later =>
      rw [List.all_cons, Bool.and_eq_true] at left right
      have places : rest.length = later.length := Nat.succ.inj places
      have small := value_lt left.2
      have bounded := value_lt right.2
      simp only [value, ← places] at same bounded
      have first : digit c = digit d := by
        have high := congrArg (· / 10 ^ rest.length) same
        have positive : 0 < 10 ^ rest.length := Nat.pow_pos (by decide)
        simpa [Nat.mul_add_div, Nat.mul_comm, positive, Nat.div_eq_of_lt, small, bounded] using high
      have behind : value rest = value later := by rw [first] at same; omega
      rw [digit_inj left.1 right.1 first, ih left.2 right.2 places behind]

theorem value_eq_zero (numeric : text.all Char.isDigit = true) :
    value text = 0 ↔ text.all (· == '0') = true := by
  induction text with
  | nil => exact iff_of_true rfl rfl
  | cons c rest ih =>
    rw [List.all_cons, Bool.and_eq_true] at numeric
    rw [value, Nat.add_eq_zero_iff, ih numeric.2, List.all_cons, Bool.and_eq_true, beq_iff_eq,
      ← digit_eq_zero numeric.1, Nat.mul_eq_zero]
    simp

theorem value_cutZeros (text : Text) : value (text.dropWhile (· == '0')) = value text := by
  induction text with
  | nil => rfl
  | cons c rest ih =>
    by_cases zero : c = '0'
    · have worthless : digit '0' = 0 := rfl
      rw [zero, List.dropWhile_cons_of_pos (by simp), ih, value, worthless, Nat.zero_mul, Nat.zero_add]
    · rw [List.dropWhile_cons_of_neg (by simpa using zero)]

theorem value_zeros (count : Nat) (text : Text) : value (List.replicate count '0' ++ text) = value text := by
  have worthless : digit '0' = 0 := rfl
  induction count with
  | zero => rfl
  | succ count ih => rw [List.replicate_succ, List.cons_append, value, worthless, Nat.zero_mul, Nat.zero_add, ih]

theorem value_eq_ofDigitChars (text : Text) : Nat.ofDigitChars 10 text 0 = value text := by
  have read (before : Nat) : Nat.ofDigitChars 10 text before = before * 10 ^ text.length + value text := by
    induction text generalizing before with
    | nil => simp [value, Nat.ofDigitChars]
    | cons c rest ih =>
      rw [Nat.ofDigitChars_cons, ih, value, digit, List.length_cons]
      ring
  simpa using read 0

end Text

/-- The digits of the number, without leading zeros. -/
structure Numeral (n : Nat) (text : Text) : Prop where
  numeric : text.all Char.isDigit = true
  value : text.value = n
  least : text = ['0'] ∨ ∃ c rest, text = c :: rest ∧ c ≠ '0'

namespace Numeral

open Text

variable {m n : Nat} {text other : Text}

theorem places (numeral : Numeral n text) (positive : 0 < n) :
    10 ^ (text.length - 1) ≤ n ∧ n < 10 ^ text.length := by
  refine ⟨?_, numeral.value ▸ value_lt numeral.numeric⟩
  obtain rfl | ⟨c, rest, rfl, large⟩ := numeral.least
  · exact positive
  · have numeric := numeral.numeric
    rw [List.all_cons, Bool.and_eq_true] at numeric
    have first : 0 < digit c := Nat.pos_of_ne_zero fun zero => large ((digit_eq_zero numeric.1).1 zero)
    calc 10 ^ rest.length ≤ digit c * 10 ^ rest.length := Nat.le_mul_of_pos_left _ first
      _ ≤ Text.value (c :: rest) := Nat.le_add_right ..
      _ = n := numeral.value

theorem eq_zero (numeral : Numeral 0 text) : text = ['0'] := by
  obtain zero | ⟨c, rest, rfl, large⟩ := numeral.least
  · exact zero
  · have zeros := (value_eq_zero numeral.numeric).1 numeral.value
    rw [List.all_cons, Bool.and_eq_true, beq_iff_eq] at zeros
    exact absurd zeros.1 large

theorem unique (left : Numeral n text) (right : Numeral n other) : text = other := by
  cases n with
  | zero => rw [left.eq_zero, right.eq_zero]
  | succ n =>
    have first := left.places n.succ_pos
    have second := right.places n.succ_pos
    have shorter : text.length - 1 < other.length :=
      (Nat.pow_lt_pow_iff_right (by decide)).1 (first.1.trans_lt second.2)
    have longer : other.length - 1 < text.length :=
      (Nat.pow_lt_pow_iff_right (by decide)).1 (second.1.trans_lt first.2)
    exact value_inj left.numeric right.numeric (by omega) (left.value.trans right.value.symm)

end Numeral

theorem decimal_least (n : Nat) : decimal n = ['0'] ∨ ∃ c rest, decimal n = c :: rest ∧ c ≠ '0' := by
  unfold decimal
  induction n using Nat.strong_induction_on with
  | _ n ih =>
    rw [Nat.toDigits_eq_if (by decide)]
    split
    · by_cases zero : Nat.digitChar n = '0'
      · exact .inl (by rw [zero])
      · exact .inr ⟨Nat.digitChar n, [], rfl, zero⟩
    · next large =>
      obtain zero | ⟨c, rest, higher, nonzero⟩ := ih (n / 10) (by omega)
      · have worth : Nat.ofDigitChars 10 (Nat.toDigits 10 (n / 10)) 0 = n / 10 := Nat.ofDigitChars_ten_toDigits
        rw [zero] at worth
        have none : 0 = n / 10 := worth
        omega
      · exact .inr ⟨c, rest ++ [Nat.digitChar (n % 10)], by rw [higher, List.cons_append], nonzero⟩

theorem numeral_decimal (n : Nat) : Numeral n (decimal n) where
  numeric := List.all_eq_true.2 fun _ member => Nat.isDigit_of_mem_toDigits (by decide) (by decide) member
  value := by rw [← Text.value_eq_ofDigitChars, decimal, Nat.ofDigitChars_ten_toDigits]
  least := decimal_least n

end SqlComposer
