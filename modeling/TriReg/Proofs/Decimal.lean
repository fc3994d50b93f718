import Mathlib.Data.List.Basic
import Mathlib.Tactic.Ring
import TriReg.Numeral

namespace TriReg

theorem exists_digit_of_mem_toDigits {base n : Nat} {c : Char} (hbase : 1 < base)
    (h : c ∈ Nat.toDigits base n) : ∃ d < base, c = Nat.digitChar d := by
  induction n using Nat.strongRecOn with
  | ind n ih =>
      rw [Nat.toDigits_eq_if hbase] at h
      split at h
      · rename_i hn
        exact ⟨n, hn, List.mem_singleton.mp h⟩
      · rename_i hn
        rcases List.mem_append.mp h with hhigh | hlow
        · exact ih (n / base) (Nat.div_lt_self (by omega) hbase) hhigh
        · exact ⟨n % base, Nat.mod_lt n (by omega), List.mem_singleton.mp hlow⟩

namespace Text

theorem digitValue_of_isDigit {c : Char} (h : c.isDigit = true) :
    digitValue c = c.toNat - '0'.toNat := by
  simp only [Char.isDigit, Bool.and_eq_true, decide_eq_true_eq] at h
  have hlow : 48 ≤ c.toNat := h.1
  have hhigh : c.toNat ≤ 57 := h.2
  have hlt : c.toNat < 58 := by omega
  simp [digitValue, digitValue?, decimalZeros, hlow, hlt]

theorem foldl_digitValue (digits : List Char) (value : Nat) :
    digits.foldl (fun value c => 10 * value + digitValue c) value =
      value * 10 ^ digits.length + decimalValue digits := by
  induction digits generalizing value with
  | nil => simp [decimalValue]
  | cons c digits ih =>
      rw [decimalValue, List.foldl_cons, List.foldl_cons, ih, ih (10 * 0 + _), List.length_cons]
      ring

theorem decimalValue_cons (c : Char) (digits : List Char) :
    decimalValue (c :: digits) = digitValue c * 10 ^ digits.length + decimalValue digits := by
  rw [decimalValue, List.foldl_cons, foldl_digitValue, Nat.mul_zero, Nat.zero_add]

theorem decimalValue_lt (digits : List Char) : decimalValue digits < 10 ^ digits.length := by
  induction digits with
  | nil => decide
  | cons c digits ih =>
      have hc := digitValue_lt c
      rw [decimalValue_cons, List.length_cons, Nat.pow_succ]
      calc digitValue c * 10 ^ digits.length + decimalValue digits
        _ < digitValue c * 10 ^ digits.length + 10 ^ digits.length := Nat.add_lt_add_left ih _
        _ = (digitValue c + 1) * 10 ^ digits.length := (Nat.succ_mul _ _).symm
        _ ≤ 10 * 10 ^ digits.length := Nat.mul_le_mul_right _ hc
        _ = 10 ^ digits.length * 10 := Nat.mul_comm _ _

theorem decimalValue_toDigits (n : Nat) : decimalValue (Nat.toDigits 10 n) = n := by
  have hstep : ∀ value, ∀ c ∈ Nat.toDigits 10 n,
      10 * value + digitValue c = 10 * value + (c.toNat - '0'.toNat) := by
    intro value c hc
    rw [digitValue_of_isDigit (Nat.isDigit_of_mem_toDigits (by decide) (by decide) hc)]
  rw [decimalValue, List.foldl_ext _ _ _ hstep, ← Nat.ofDigitChars_eq_foldl]
  exact Nat.ofDigitChars_ten_toDigits

end Text

namespace Numeral

open TriReg.Text

theorem writable_iff {n : Nat} : writable n = true ↔ (Nat.toDigits 10 n).length ≤ maxDigits := by
  rw [writable, decide_eq_true_eq, Nat.pow_eq,
    Nat.length_toDigits_le_iff (by decide) (by decide)]

theorem writable_of_lt {n length : Nat} (h : n < 10 ^ length) (hlength : length ≤ maxDigits) :
    writable n = true := by
  have hpow : ∀ limit, length ≤ limit → 10 ^ length ≤ Nat.pow 10 limit :=
    fun limit hlimit => Nat.pow_le_pow_right (by decide) hlimit
  rw [writable, decide_eq_true_eq]
  exact Nat.lt_of_lt_of_le h (hpow maxDigits hlength)

theorem writable_of_readDecimal {digits : List Char} {n : Nat} (h : readDecimal digits = .ok n) :
    writable n = true := by
  unfold readDecimal at h
  split at h
  · rename_i hlength
    obtain rfl := Except.ok.inj h
    exact writable_of_lt (decimalValue_lt digits) hlength
  · cases h

theorem readDecimal_toDigits {n : Nat} (h : writable n = true) :
    readDecimal (Nat.toDigits 10 n) = .ok n := by
  rw [readDecimal, if_pos (writable_iff.mp h), decimalValue_toDigits]

theorem Base.value_map_toDigits (base : Base) {shown : Char → Char}
    (h : ∀ d < base.radix, base.digit? (shown (Nat.digitChar d)) = some d) (n : Nat) :
    base.value ((Nat.toDigits base.radix n).map shown) = n := by
  have hradix : 1 < base.radix := by cases base <;> decide
  induction n using Nat.strongRecOn with
  | ind n ih =>
      -- The digits of `n / radix` come first, so the induction is on the number and not on a list.
      rw [Nat.toDigits_eq_if hradix]
      split
      · rename_i hn
        simp [value, h n hn]
      · rename_i hn
        have hhigh := ih (n / base.radix) (Nat.div_lt_self (by omega) hradix)
        have hlow := h (n % base.radix) (Nat.mod_lt n (by omega))
        rw [value] at hhigh ⊢
        rw [List.map_append, List.foldl_append, hhigh]
        simp only [List.map_cons, List.map_nil, List.foldl_cons, List.foldl_nil, hlow,
          Option.getD_some]
        exact Nat.div_add_mod n base.radix

theorem Base.value_zeros_append (base : Base) (count : Nat) (digits : List Char) :
    base.value (List.replicate count '0' ++ digits) = base.value digits := by
  have hzero : base.digit? '0' = some 0 := by cases base <;> decide
  induction count with
  | zero => rfl
  | succ count ih =>
      rw [value, List.replicate_succ, List.cons_append, List.foldl_cons, hzero]
      exact ih

end Numeral

end TriReg
