import ManagementPlane.Decimal.Numeral
import Mathlib.Algebra.Group.Int.Defs

/-!
# Digits, and integers as they are written

* `ofDigits_toDigits` : the digits of a number tell it; `head?_toDigits_ne_zero` : they do not start with a zero;
* `NumberEnds` : where a numeral ends;
* `Numeral.ofInt` : the numeral that writes an integer, its digits behind its sign;
* `integer?_ofInt` : it writes the integer it was made of, if that fits 64 bits with or without sign.
-/

namespace ManagementPlane.Decimal

/-! ## Digits -/

theorem ofDigits_toDigits (n : Nat) : ofDigits (Nat.toDigits 10 n) = n := by
  have heq : ∀ ds : List Char, ofDigits ds = Nat.ofDigitChars 10 ds 0 := fun ds => by
    simp only [ofDigits, Nat.ofDigitChars_eq_foldl, digitValue, Nat.mul_comm]
  rw [heq, Nat.ofDigitChars_ten_toDigits]

theorem isDigit_of_mem_toDigits {n : Nat} {c : Char} (hc : c ∈ Nat.toDigits 10 n) : c.isDigit = true :=
  Nat.isDigit_of_mem_toDigits (by decide) (by decide) hc

/-- More than one digit never starts with a zero. -/
theorem head?_toDigits_ne_zero {n : Nat} (hn : n ≠ 0) : (Nat.toDigits 10 n).head? ≠ some '0' := by
  induction n using Nat.strongRecOn with
  | ind n ih =>
    by_cases hlt : n < 10
    · rw [Nat.toDigits_of_lt_base hlt]
      simpa using hn
    · have hdiv : n / 10 ≠ 0 := by omega
      obtain ⟨c, ds, hds⟩ := List.exists_cons_of_ne_nil (Nat.toDigits_ne_nil : Nat.toDigits 10 (n / 10) ≠ [])
      have hfirst := ih (n / 10) (by omega) hdiv
      rw [Nat.toDigits_of_base_le (by decide) (Nat.le_of_not_lt hlt), hds]
      rw [hds] at hfirst
      exact hfirst

/-- What may follow a numeral: nothing that could belong to it. -/
def NumberEnds (r : List Char) : Prop :=
  ∀ c ∈ r.head?, c.isDigit = false ∧ c ≠ '.' ∧ c ≠ 'e' ∧ c ≠ 'E'

theorem spanDigits_append {ds r : List Char} (hds : ∀ c ∈ ds, c.isDigit = true)
    (hr : ∀ c ∈ r.head?, c.isDigit = false) : spanDigits (ds ++ r) = (ds, r) := by
  have hrest : r.takeWhile Char.isDigit = [] ∧ r.dropWhile Char.isDigit = r := by
    cases r with
    | nil => exact ⟨rfl, rfl⟩
    | cons c r =>
      have hc : c.isDigit = false := hr c rfl
      simp [hc]
  rw [spanDigits, List.takeWhile_append_of_pos hds, List.dropWhile_append_of_pos hds, hrest.1, hrest.2,
    List.append_nil]

namespace Numeral

theorem lexExponent?_of_ends {r : List Char} (hr : NumberEnds r) : lexExponent? r = some (none, r) := by
  cases r with
  | nil => rfl
  | cons c r =>
    obtain ⟨-, -, he, hE⟩ := hr c rfl
    unfold lexExponent?
    simp only [he, hE, or_self, if_false]

/-- The numeral that writes an integer. -/
def ofInt (i : Int) : Numeral := ⟨decide (i < 0), Nat.toDigits 10 i.natAbs, none, none⟩

theorem integer?_ofInt {i : Int} (hlow : -2 ^ 63 ≤ i) (hhigh : i < 2 ^ 64) : (ofInt i).integer? = some i := by
  have hsize : UInt64.size = 2 ^ 64 := rfl
  simp only [integer?, ofInt, ofDigits_toDigits]
  by_cases hi : 0 ≤ i
  · have hneg : decide (i < 0) = false := by simpa using hi
    rw [hneg, if_neg Bool.false_ne_true, if_pos (by omega)]
    congr 1
    omega
  · have hneg : decide (i < 0) = true := by simpa using hi
    rw [hneg, if_pos rfl, if_pos (by omega)]
    congr 1
    omega

end Numeral

end ManagementPlane.Decimal
