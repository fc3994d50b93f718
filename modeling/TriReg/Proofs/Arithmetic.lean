import Mathlib.Data.Int.Bitwise
import Mathlib.Data.Int.ModEq
import TriReg.Proofs.Except
import TriReg.Value.Arithmetic

namespace TriReg

/-- The number is the value of a word. -/
def FitsWord (n : Int) : Prop := -2 ^ 63 ≤ n ∧ n < 2 ^ 63

section Wrapping

variable {k m n : Int}

theorem fitsWord_toInt (a : Int64) : FitsWord a.toInt := ⟨a.le_toInt, a.toInt_lt⟩

theorem wrap_toInt (a : Int64) : wrap a.toInt = a := Int64.ofInt_toInt a

theorem toInt_wrap_of_fitsWord (h : FitsWord n) : (wrap n).toInt = n :=
  Int64.toInt_ofInt_of_le h.1 h.2

theorem toInt_wrap_eq_iff : (wrap n).toInt = n ↔ FitsWord n := by
  constructor
  · intro h
    rw [← h]
    exact fitsWord_toInt (wrap n)
  · exact toInt_wrap_of_fitsWord

theorem wrap_add (m n : Int) : wrap (m + n) = wrap m + wrap n := Int64.ofInt_add m n

theorem wrap_sub (m n : Int) : wrap (m - n) = wrap m - wrap n := Int64.ofInt_sub m n

theorem wrap_eq_wrap_iff : wrap m = wrap n ↔ m ≡ n [ZMOD 2 ^ 64] := by
  rw [← Int64.toInt_inj, wrap, wrap, Int64.toInt_ofInt, Int64.toInt_ofInt]
  constructor
  · intro h
    calc m % 2 ^ 64 = m.bmod Int64.size % 2 ^ 64 := Int.bmod_emod.symm
      _ = n.bmod Int64.size % 2 ^ 64 := by rw [h]
      _ = n % 2 ^ 64 := Int.bmod_emod
  · intro h
    calc m.bmod Int64.size = (m % 2 ^ 64).bmod Int64.size := (Int.emod_bmod m Int64.size).symm
      _ = (n % 2 ^ 64).bmod Int64.size := by rw [h.eq]
      _ = n.bmod Int64.size := Int.emod_bmod n Int64.size

theorem eq_toInt_wrap_iff : k = (wrap n).toInt ↔ FitsWord k ∧ k ≡ n [ZMOD 2 ^ 64] := by
  constructor
  · rintro rfl
    exact ⟨fitsWord_toInt _, wrap_eq_wrap_iff.mp (wrap_toInt _)⟩
  · rintro ⟨hfits, hcongruent⟩
    rw [← wrap_eq_wrap_iff.mpr hcongruent, toInt_wrap_of_fitsWord hfits]

end Wrapping

section Mask

/-- The word of a number by its bits: the low 64 of them, less `2 ^ 64` if the highest one of these
is set. -/
def maskedWord (n : Int) : Int :=
  let low := Int.land n (2 ^ 64 - 1)
  if Int.land low (2 ^ 63) = 0 then low else low - 2 ^ 64

theorem ldiff_two_pow_sub_one (n w : Nat) : (2 ^ w - 1).ldiff n = 2 ^ w - (n % 2 ^ w + 1) := by
  apply Nat.eq_of_testBit_eq
  intro i
  have hlt : n % 2 ^ w < 2 ^ w := Nat.mod_lt n (Nat.two_pow_pos w)
  rw [Nat.testBit_ldiff, Nat.testBit_two_pow_sub_one, Nat.testBit_two_pow_sub_succ hlt,
    Nat.testBit_mod_two_pow]
  cases decide (i < w) <;> simp

theorem land_two_pow_sub_one (n : Int) (w : Nat) : Int.land n (2 ^ w - 1 : Nat) = n % 2 ^ w := by
  cases n with
  | ofNat n =>
      change ((n &&& (2 ^ w - 1) : Nat) : Int) = (n : Int) % 2 ^ w
      rw [Nat.and_two_pow_sub_one_eq_mod]
      push_cast
      rfl
  | negSucc n =>
      have hlt : n % 2 ^ w < 2 ^ w := Nat.mod_lt n (Nat.two_pow_pos w)
      change (((2 ^ w - 1).ldiff n : Nat) : Int) = Int.negSucc n % 2 ^ w
      rw [ldiff_two_pow_sub_one, Int.negSucc_emod n (Int.pow_pos (by decide)),
        Nat.cast_sub (Nat.succ_le_of_lt hlt)]
      push_cast
      omega

theorem land_two_pow_eq_zero_iff {n w : Nat} (h : n < 2 ^ (w + 1)) :
    Int.land n (2 ^ w : Nat) = 0 ↔ n < 2 ^ w := by
  change ((n &&& 2 ^ w : Nat) : Int) = 0 ↔ n < 2 ^ w
  rw [Nat.and_two_pow, Int.natCast_eq_zero]
  rcases Nat.lt_or_ge n (2 ^ w) with hlow | hhigh
  · rw [Nat.testBit_lt_two_pow hlow]
    simp [hlow]
  · have hdiv : n / 2 ^ w = 1 := Nat.div_eq_of_lt_le (by omega) (by omega)
    have hbit : n.testBit w = true := by
      rw [Nat.testBit_eq_decide_div_mod_eq, hdiv]
      rfl
    simp [hbit, hhigh]

theorem toInt_wrap_eq_maskedWord (n : Int) : (wrap n).toInt = maskedWord n := by
  obtain ⟨low, hlow⟩ : ∃ low : Nat, n % 2 ^ 64 = low := Int.eq_ofNat_of_zero_le (by omega)
  have hlt : low < 2 ^ (63 + 1) := by omega
  have hmask : Int.land n (2 ^ 64 - 1) = low := (land_two_pow_sub_one n 64).trans hlow
  have hsign : Int.land low (2 ^ 63) = 0 ↔ low < 2 ^ 63 := land_two_pow_eq_zero_iff hlt
  rw [wrap, Int64.toInt_ofInt, Int.bmod_def, maskedWord, hmask]
  simp only [hsign]
  change (if n % 2 ^ 64 < (2 ^ 64 + 1) / 2 then n % 2 ^ 64 else n % 2 ^ 64 - 2 ^ 64) = _
  rw [hlow]
  split <;> split <;> omega

end Mask

/-- The result of an operation on numbers of any size. -/
def Operation.exact : Operation → Int → Int → Int
  | .add, m, n => m + n
  | .subtract, m, n => m - n

theorem Operation.exact_comm (operation operation' : Operation) (n a b : Int) :
    operation'.exact (operation.exact n a) b = operation.exact (operation'.exact n b) a := by
  cases operation <;> cases operation' <;> simp only [Operation.exact] <;> omega

namespace Value

/-- The result of a sequence of operations, each on what the ones before it gave and a word. -/
def calculate (v : Value) (steps : List (Operation × Int64)) : Except Fault Value :=
  steps.foldlM (fun v step => step.1.apply v (.integer step.2)) v

/-- The result of the same sequence on numbers of any size. -/
def exactResult (n : Int) (steps : List (Operation × Int64)) : Int :=
  steps.foldl (fun n step => step.1.exact n step.2.toInt) n

/-- A result of the sequence on numbers of any size, wrapped after some of the operations. -/
inductive SometimesWrapped : Int → List (Operation × Int64) → Int → Prop
  | nil {n : Int} : SometimesWrapped n [] n
  | exact {n r : Int} {operation : Operation} {a : Int64} {steps : List (Operation × Int64)}
      (h : SometimesWrapped (operation.exact n a.toInt) steps r) :
      SometimesWrapped n ((operation, a) :: steps) r
  | wrapped {n r : Int} {operation : Operation} {a : Int64} {steps : List (Operation × Int64)}
      (h : SometimesWrapped (wrap (operation.exact n a.toInt)).toInt steps r) :
      SometimesWrapped n ((operation, a) :: steps) r

variable {steps steps' : List (Operation × Int64)} {m n r : Int}

theorem apply_wrap (operation : Operation) (n : Int) (a : Int64) :
    operation.apply (.integer (wrap n)) (.integer a) =
      .ok (.integer (wrap (operation.exact n a.toInt))) := by
  cases operation with
  | add => simp only [Operation.apply, add, Operation.exact, wrap_add, wrap_toInt]
  | subtract => simp only [Operation.apply, sub, Operation.exact, wrap_sub, wrap_toInt]

theorem calculate_wrap (n : Int) (steps : List (Operation × Int64)) :
    calculate (.integer (wrap n)) steps = .ok (.integer (wrap (exactResult n steps))) := by
  -- A wrapped number stands for the exact one, which goes on through the later operations.
  induction steps generalizing n with
  | nil => rfl
  | cons step steps ih =>
      calc calculate (.integer (wrap n)) (step :: steps)
          = step.1.apply (.integer (wrap n)) (.integer step.2) >>= (calculate · steps) :=
            List.foldlM_cons
        _ = calculate (.integer (wrap (step.1.exact n step.2.toInt))) steps := by
            rw [apply_wrap, ok_bind]
        _ = .ok (.integer (wrap (exactResult n (step :: steps)))) := ih _

theorem wrap_exactResult (h : wrap m = wrap n) :
    wrap (exactResult m steps) = wrap (exactResult n steps) := by
  have hcalculate := calculate_wrap m steps
  rw [h, calculate_wrap] at hcalculate
  exact (Value.integer.inj (Except.ok.inj hcalculate)).symm

theorem wrap_of_sometimesWrapped (h : SometimesWrapped n steps r) :
    wrap r = wrap (exactResult n steps) := by
  induction h with
  | nil => rfl
  | exact h ih => exact ih
  | wrapped h ih => exact ih.trans (wrap_exactResult (wrap_toInt _))

theorem exactResult_perm (h : steps.Perm steps') (n : Int) :
    exactResult n steps = exactResult n steps' :=
  h.foldl_eq' (fun step _ step' _ n => step.1.exact_comm step'.1 n step.2.toInt step'.2.toInt) n

theorem sub_of_add (a b : Int64) :
    (add (.integer a) (.integer b) >>= fun sum => sub sum (.integer b)) = .ok (.integer a) := by
  simp only [add, sub, ok_bind, wrap_add, wrap_sub, wrap_toInt]
  rw [Int64.add_sub_cancel]

/-- A sequence of sums and differences of integers succeeds with the word that is congruent to the
exact result, and with the exact result where that is a word. Neither wrapping on the way nor the
order of the operations makes a difference. -/
theorem calculate_exact (a : Int64) (steps : List (Operation × Int64)) : ∃ word : Int64,
    calculate (.integer a) steps = .ok (.integer word) ∧
      (∀ k, k = word.toInt ↔ FitsWord k ∧ k ≡ exactResult a.toInt steps [ZMOD 2 ^ 64]) ∧
      word.toInt = maskedWord (exactResult a.toInt steps) ∧
      (∀ r, SometimesWrapped a.toInt steps r → wrap r = word) ∧
      (∀ steps', steps.Perm steps' → calculate (.integer a) steps' = .ok (.integer word)) ∧
      (FitsWord (exactResult a.toInt steps) → word.toInt = exactResult a.toInt steps) ∧
      ∀ b, (add (.integer a) (.integer b) >>= fun sum => sub sum (.integer b)) =
        .ok (.integer a) := by
  have hcalculate (steps : List (Operation × Int64)) :
      calculate (.integer a) steps = .ok (.integer (wrap (exactResult a.toInt steps))) := by
    rw [← calculate_wrap, wrap_toInt]
  refine ⟨wrap (exactResult a.toInt steps), hcalculate steps, fun k => eq_toInt_wrap_iff,
    toInt_wrap_eq_maskedWord _, fun r => wrap_of_sometimesWrapped, ?_, toInt_wrap_of_fitsWord,
    sub_of_add a⟩
  intro steps' hperm
  rw [hcalculate, exactResult_perm hperm]

section Pointers

variable {i j : Nat} {a b : Int64} {v w : Value} {cause : Fault}

theorem add_pointer_eq_error_iff :
    add (.pointer (.slot i)) (.integer a) = .error cause ↔
      cause = .incompatible (.pointer (.slot i)) (.integer a) ∧ i + a.toInt < 0 := by
  change (if 0 ≤ i + a.toInt then _ else _) = _ ↔ _
  split
  · rename_i hslot
    simp only [reduceCtorEq, Int.not_lt.mpr hslot, and_false]
  · rename_i hbelow
    simp only [Except.error.injEq, eq_comm, Int.not_le.mp hbelow, and_true]

theorem add_pointer_eq_ok_iff :
    add (.pointer (.slot i)) (.integer a) = .ok v ↔
      ∃ k : Nat, (k : Int) = i + a.toInt ∧ v = .pointer (.slot k) := by
  change (if 0 ≤ i + a.toInt then _ else _) = _ ↔ _
  split
  · rename_i hslot
    constructor
    · intro h
      exact ⟨_, Int.toNat_of_nonneg hslot, (Except.ok.inj h).symm⟩
    · rintro ⟨k, hk, rfl⟩
      rw [← hk, Int.toNat_natCast]
  · rename_i hbelow
    constructor
    · intro h
      cases h
    · rintro ⟨k, hk, -⟩
      omega

theorem add_pointer_eq_slot_iff :
    add (.pointer (.slot i)) (.integer a) = .ok (.pointer (.slot j)) ↔ (j : Int) = i + a.toInt := by
  rw [add_pointer_eq_ok_iff]
  constructor
  · rintro ⟨k, hk, ⟨⟩⟩
    exact hk
  · intro h
    exact ⟨j, h, rfl⟩

theorem sub_of_add_pointer (h : add (.pointer (.slot i)) (.integer a) = .ok v) :
    sub v (.pointer (.slot i)) = .ok (.integer a) := by
  obtain ⟨k, hk, rfl⟩ := add_pointer_eq_ok_iff.mp h
  have hdistance : (k : Int) - i = a.toInt := by omega
  rw [sub, hdistance, wrap_toInt]

theorem add_distance_iff :
    (sub (.pointer (.slot j)) (.pointer (.slot i)) >>= add (.pointer (.slot i))) =
      .ok (.pointer (.slot j)) ↔ FitsWord ((j : Int) - i) := by
  rw [sub, ok_bind, add_pointer_eq_slot_iff, ← toInt_wrap_eq_iff]
  constructor <;> intro h <;> omega

theorem add_sum_iff (hfirst : add (.pointer (.slot i)) (.integer a) = .ok v)
    (hsecond : add v (.integer b) = .ok w) :
    (add (.integer a) (.integer b) >>= add (.pointer (.slot i))) = .ok w ↔
      FitsWord (a.toInt + b.toInt) := by
  obtain ⟨j, hj, rfl⟩ := add_pointer_eq_ok_iff.mp hfirst
  obtain ⟨k, hk, rfl⟩ := add_pointer_eq_ok_iff.mp hsecond
  rw [add, ok_bind, add_pointer_eq_slot_iff, ← toInt_wrap_eq_iff]
  constructor <;> intro h <;> omega

/-- Moving a pointer to slot `i` fails exactly below the first slot, and the distance from the
pointer tells how far it was moved. A pointer moves by its distance to slot `j`, and by a sum of
words in one go, as long as these numbers do not wrap. -/
theorem pointer_arithmetic (i j : Nat) (a b : Int64) :
    (∀ cause, add (.pointer (.slot i)) (.integer a) = .error cause ↔
      cause = .incompatible (.pointer (.slot i)) (.integer a) ∧ i + a.toInt < 0) ∧
    (∀ v, add (.pointer (.slot i)) (.integer a) = .ok v →
      sub v (.pointer (.slot i)) = .ok (.integer a)) ∧
    ((sub (.pointer (.slot j)) (.pointer (.slot i)) >>= add (.pointer (.slot i))) =
      .ok (.pointer (.slot j)) ↔ FitsWord ((j : Int) - i)) ∧
    ∀ v w, add (.pointer (.slot i)) (.integer a) = .ok v → add v (.integer b) = .ok w →
      ((add (.integer a) (.integer b) >>= add (.pointer (.slot i))) = .ok w ↔
        FitsWord (a.toInt + b.toInt)) := by
  refine ⟨fun cause => add_pointer_eq_error_iff, fun v => sub_of_add_pointer, add_distance_iff, ?_⟩
  intro v w hfirst hsecond
  exact add_sum_iff hfirst hsecond

/-- The distance from the first slot to slot `2 ^ 63` wraps to a negative number. -/
example : (sub (.pointer (.slot (2 ^ 63))) (.pointer (.slot 0)) >>= add (.pointer (.slot 0))) =
    .error (.incompatible (.pointer (.slot 0)) (.integer Int64.minValue)) := by
  decide

end Pointers

end Value

end TriReg
