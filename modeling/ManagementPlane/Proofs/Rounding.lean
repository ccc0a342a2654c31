import ManagementPlane.Decimal.Shortest
import Mathlib.Algebra.Order.Field.Power
import Mathlib.Algebra.Order.Floor.Semifield
import Mathlib.Data.Nat.Cast.Order.Field
import Mathlib.Data.Rat.Floor
import Mathlib.Tactic.FieldSimp
import Mathlib.Tactic.Linarith
import Mathlib.Tactic.NormNum
import Mathlib.Tactic.Positivity
import Mathlib.Tactic.Ring

/-!
# What the shortest decimal stands for

The numbers that round to a binary64 form an interval around it, and the intervals of different ones do not meet. The
shortest decimal lies in that interval, so it belongs to one binary64 only.

* `Decimal.value` : the number that a decimal writes;
* `RoundsTo` : a number rounds to `m * 2 ^ q`; `RoundsTo.unique` : and to no other;
* `roundsTo_shortest` : with 17 digits at the latest there is a decimal that does;
* `magnitude_unique` : the trimmed shortest decimal tells what it was made of.
-/

namespace ManagementPlane

namespace Decimal

/-- The number that a decimal writes. -/
def value (d : Decimal) : ℚ := d.digits * 10 ^ d.exponent

/-! ## Ratios -/

/-- The number that a pair of a numerator and a denominator stands for. -/
def ratio (a : Nat × Nat) : ℚ := a.1 / a.2

theorem below_iff {a b : Nat × Nat} (ha : 0 < a.2) (hb : 0 < b.2) : below a b = true ↔ ratio a < ratio b := by
  have ha' : (0 : ℚ) < a.2 := by exact_mod_cast ha
  have hb' : (0 : ℚ) < b.2 := by exact_mod_cast hb
  rw [below, decide_eq_true_eq, ratio, ratio, div_lt_div_iff₀ ha' hb']
  exact_mod_cast Iff.rfl

theorem snd_scaleTen_pos (a : Nat) (p : Int) : 0 < (scaleTen a p).2 := by
  unfold scaleTen
  split
  · exact Nat.one_pos
  · exact Nat.pow_pos (by decide)

theorem snd_scaleTwo_pos (a : Nat) (q : Int) : 0 < (scaleTwo a q).2 := by
  unfold scaleTwo
  split
  · exact Nat.one_pos
  · exact Nat.pow_pos (by decide)

/-- A power with a negative exponent stands in the denominator. -/
theorem div_pow_toNat (a b : ℚ) {p : Int} (hp : ¬ 0 ≤ p) : a / b ^ (-p).toNat = a * b ^ p := by
  have hpos : ((-p).toNat : Int) = -p := Int.toNat_of_nonneg (by omega)
  rw [← zpow_natCast, hpos, zpow_neg, div_inv_eq_mul]

theorem ratio_scaleTen (a : Nat) (p : Int) : ratio (scaleTen a p) = a * 10 ^ p := by
  unfold scaleTen ratio
  split
  · next hp =>
    obtain ⟨n, rfl⟩ := Int.eq_ofNat_of_zero_le hp
    simp
  · next hp =>
    rw [← div_pow_toNat _ _ hp]
    simp

theorem ratio_scaleTwo (a : Nat) (q : Int) : ratio (scaleTwo a q) = a * 2 ^ q := by
  unfold scaleTwo ratio
  split
  · next hq =>
    obtain ⟨n, rfl⟩ := Int.eq_ofNat_of_zero_le hq
    simp
  · next hq =>
    rw [← div_pow_toNat _ _ hq]
    simp

/-! ## Intervals -/

/-- `m` and `q` as they are read off the bits of a binary64: below a power of two the neighbours are closer, other than at
the end of the range. -/
structure IsMagnitude (m : Nat) (q : Int) (close : Bool) : Prop where
  lt : m < 2 ^ 53
  least : -1074 ≤ q
  normal : 2 ^ 52 ≤ m ∨ q = -1074
  close_iff : close = true ↔ m = 2 ^ 52 ∧ -1074 < q

/-- Half-way to the next lower number. -/
def lowEnd (m : Nat) (q : Int) (close : Bool) : ℚ := (4 * m - if close then 1 else 2) * 2 ^ (q - 2)

/-- Half-way to the next higher number. -/
def highEnd (m : Nat) (q : Int) : ℚ := (4 * m + 2) * 2 ^ (q - 2)

/-- The number rounds to `m * 2 ^ q`, a number half-way to a neighbour only if `m` is even. -/
structure RoundsTo (m : Nat) (q : Int) (close : Bool) (x : ℚ) : Prop where
  low : lowEnd m q close ≤ x
  high : x ≤ highEnd m q
  odd : m % 2 = 1 → lowEnd m q close < x ∧ x < highEnd m q

theorem roundsTo_iff {m : Nat} (hm : 0 < m) (q : Int) (close : Bool) (d : Nat) (p : Int) :
    roundsTo m q close d p = true ↔ RoundsTo m q close (d * 10 ^ p) := by
  have hlow : ratio (scaleTwo (4 * m - (if close then 1 else 2)) (q - 2)) = lowEnd m q close := by
    rw [ratio_scaleTwo, lowEnd, Nat.cast_sub (by split <;> omega)]
    split <;> push_cast <;> rfl
  have hhigh : ratio (scaleTwo (4 * m + 2) (q - 2)) = highEnd m q := by
    rw [ratio_scaleTwo, highEnd]
    push_cast
    rfl
  have hbelow : ∀ a b : Nat × Nat, 0 < a.2 → 0 < b.2 → (below a b = false ↔ ratio b ≤ ratio a) := by
    intro a b ha hb
    rw [← not_lt, ← below_iff ha hb, Bool.not_eq_true]
  unfold roundsTo
  dsimp only
  rw [← ratio_scaleTen]
  have hten := snd_scaleTen_pos d p
  have htwo := snd_scaleTwo_pos
  split
  · next heven =>
    rw [Bool.and_eq_true, Bool.not_eq_true', Bool.not_eq_true', hbelow _ _ hten (htwo _ _), hbelow _ _ (htwo _ _) hten,
      hlow, hhigh]
    constructor
    · rintro ⟨h₁, h₂⟩
      exact ⟨h₁, h₂, fun hodd => by omega⟩
    · rintro ⟨h₁, h₂, -⟩
      exact ⟨h₁, h₂⟩
  · next hodd =>
    rw [Bool.and_eq_true, below_iff (htwo _ _) hten, below_iff hten (htwo _ _), hlow, hhigh]
    constructor
    · rintro ⟨h₁, h₂⟩
      exact ⟨h₁.le, h₂.le, fun _ => ⟨h₁, h₂⟩⟩
    · rintro ⟨-, -, h⟩
      exact h (by omega)

section Unique
variable {m m' : Nat} {q q' : Int} {close close' : Bool} {x : ℚ}

theorem quarter_pos (q : Int) : (0 : ℚ) < 2 ^ (q - 2) := by positivity

/-- Other than at the end of the range, an interval begins no lower than just below the least multiple of its step. -/
theorem IsMagnitude.le_lowEnd (h : IsMagnitude m q close) (hq : -1074 < q) :
    ((2 : ℚ) ^ 54 - 1) * 2 ^ (q - 2) ≤ lowEnd m q close := by
  have hnormal : 2 ^ 52 ≤ m := h.normal.resolve_right (by omega)
  have hfactor : (2 : ℚ) ^ 54 - 1 ≤ 4 * m - if close then 1 else 2 := by
    rcases Nat.eq_or_lt_of_le hnormal with heq | hgt
    · have hclose : close = true := h.close_iff.2 ⟨heq.symm, hq⟩
      rw [hclose, ← heq]
      norm_num
    · have hm : (2 : ℚ) ^ 52 + 1 ≤ m := by exact_mod_cast hgt
      split <;> linarith
  exact mul_le_mul_of_nonneg_right hfactor (quarter_pos q).le

/-- An interval ends at the greatest multiple of its step, which is odd, at the latest. -/
theorem RoundsTo.lt_top (h : IsMagnitude m q close) (hx : RoundsTo m q close x) :
    x < ((2 : ℚ) ^ 55 - 2) * 2 ^ (q - 2) := by
  have hw := quarter_pos q
  rcases Nat.eq_or_lt_of_le (Nat.succ_le_of_lt h.lt) with heq | hless
  · have hm : (m : ℚ) + 1 = 2 ^ 53 := by exact_mod_cast heq
    have hodd := (hx.odd (by omega)).2
    refine hodd.trans_eq ?_
    rw [highEnd, show (m : ℚ) = 2 ^ 53 - 1 by linarith]
    norm_num
  · have hm : (m : ℚ) + 1 < 2 ^ 53 := by exact_mod_cast hless
    refine lt_of_le_of_lt hx.high ?_
    unfold highEnd
    gcongr
    linarith

theorem RoundsTo.not_step_lt (h : IsMagnitude m q close) (h' : IsMagnitude m' q' close') (hx : RoundsTo m q close x)
    (hx' : RoundsTo m' q' close' x) : ¬ q < q' := by
  intro hlt
  have hw := quarter_pos q
  have hdouble : 2 * (2 : ℚ) ^ (q - 2) ≤ 2 ^ (q' - 2) := by
    rw [← zpow_one_add₀ (by norm_num)]
    exact zpow_le_zpow_right₀ (by norm_num) (by omega)
  have hhigh := hx.lt_top h
  have hlow := (h'.le_lowEnd (by have := h.least; omega)).trans hx'.low
  linarith

theorem RoundsTo.not_multiple_lt (hx : RoundsTo m q close x) (hx' : RoundsTo m' q close' x) : ¬ m < m' := by
  intro hlt
  have hw := quarter_pos q
  have hlow : (4 * (m' : ℚ) - 2) * 2 ^ (q - 2) ≤ lowEnd m' q close' := by
    unfold lowEnd
    gcongr
    split <;> norm_num
  have hhigh : highEnd m q = (4 * (m : ℚ) + 2) * 2 ^ (q - 2) := rfl
  have h₁ := hx.high
  have h₂ := hx'.low
  have hnear : (4 * (m' : ℚ) - 2) * 2 ^ (q - 2) ≤ (4 * (m : ℚ) + 2) * 2 ^ (q - 2) := by linarith
  have hle : (m' : ℚ) ≤ m + 1 := by
    have := le_of_mul_le_mul_right hnear hw
    linarith
  have hnext : m' = m + 1 := Nat.le_antisymm (by exact_mod_cast hle) hlt
  -- of two neighbours one is odd, and its interval is open
  have hends : (4 * (m' : ℚ) - 2) * 2 ^ (q - 2) = (4 * (m : ℚ) + 2) * 2 ^ (q - 2) := by
    rw [hnext]
    push_cast
    ring
  rcases Nat.mod_two_eq_zero_or_one m with heven | hodd
  · have := (hx'.odd (by omega)).1
    linarith
  · have := (hx.odd hodd).2
    linarith

/-- A number rounds to one binary64 only. -/
theorem RoundsTo.unique (h : IsMagnitude m q close) (h' : IsMagnitude m' q' close') (hx : RoundsTo m q close x)
    (hx' : RoundsTo m' q' close' x) : m = m' ∧ q = q' := by
  have hq : q = q' := le_antisymm (not_lt.1 (hx'.not_step_lt h' h hx)) (not_lt.1 (hx.not_step_lt h h' hx'))
  subst hq
  exact ⟨Nat.le_antisymm (Nat.le_of_not_lt (hx'.not_multiple_lt hx)) (Nat.le_of_not_lt (hx.not_multiple_lt hx')), rfl⟩

end Unique

/-! ## Grids -/

section Grid
variable {m : Nat} {q p : Int} {close : Bool} {d : Nat}

/-- What is found on a grid rounds to the number. -/
theorem roundsTo_of_onGrid? (h : onGrid? m q close p = some d) : roundsTo m q close d p = true ∧ d ≠ 0 := by
  unfold onGrid? at h
  dsimp only at h
  split at h
  · cases h
  · next hfloor _ =>
    cases h
    simpa using hfloor
  · next _ hnext =>
    cases h
    exact ⟨hnext, Nat.succ_ne_zero _⟩
  · next hfloor hnext =>
    simp only [Bool.and_eq_true, decide_eq_true_eq] at hfloor
    split at h
    · cases h
      exact hfloor
    · split at h
      · cases h
        exact ⟨hnext, Nat.succ_ne_zero _⟩
      · split at h <;> cases h
        · exact hfloor
        · exact ⟨hnext, Nat.succ_ne_zero _⟩

/-- A grid has something unless both neighbours of the number fail to round to it. -/
theorem isSome_onGrid?_of_roundsTo
    (h : ∀ d : Nat, d * (10 : ℚ) ^ p ≤ m * 2 ^ q → (m : ℚ) * 2 ^ q < (d + 1) * 10 ^ p →
      (roundsTo m q close d p = true ∧ d ≠ 0) ∨ roundsTo m q close (d + 1) p = true) :
    (onGrid? m q close p).isSome = true := by
  have hunit : (0 : ℚ) < 10 ^ p := by positivity
  have hquotient : (((scaleTwo m q).1 * (scaleTen 1 p).2 : Nat) : ℚ) / ((scaleTwo m q).2 * (scaleTen 1 p).1 : Nat) =
      m * 2 ^ q / 10 ^ p := by
    have hten := ratio_scaleTen 1 p
    rw [Nat.cast_one, one_mul] at hten
    rw [← ratio_scaleTwo, ← hten, ratio, ratio, div_div_div_eq, Nat.cast_mul, Nat.cast_mul]
  have hfloor : ((scaleTwo m q).1 * (scaleTen 1 p).2) / ((scaleTwo m q).2 * (scaleTen 1 p).1) =
      ⌊(m : ℚ) * 2 ^ q / 10 ^ p⌋₊ := by
    rw [← hquotient, Nat.floor_div_eq_div]
  have hle := Nat.floor_le (a := (m : ℚ) * 2 ^ q / 10 ^ p) (by positivity)
  have hlt := Nat.lt_floor_add_one ((m : ℚ) * 2 ^ q / 10 ^ p)
  rw [← hfloor, le_div_iff₀ hunit] at hle
  rw [← hfloor, div_lt_iff₀ hunit] at hlt
  have hnear := h _ hle hlt
  unfold onGrid?
  dsimp only
  split
  · next hfloor hnext =>
    rcases hnear with ⟨hd, hne⟩ | hnear
    · rw [hd, Bool.true_and, decide_eq_false_iff_not] at hfloor
      exact absurd hne hfloor
    · rw [hnear] at hnext
      cases hnext
  · rfl
  · rfl
  · split
    · rfl
    · split <;> rfl

/-- A unit of a grid of 17 digits is less than twice the way to either end of the interval. -/
theorem unit_lt (h : IsMagnitude m q close) (hp : 10 ^ 16 * (10 : ℚ) ^ p ≤ 4 * m * 2 ^ (q - 2)) :
    (10 : ℚ) ^ p < 4 * 2 ^ (q - 2) ∧ (10 : ℚ) ^ p < 2 * (if close then 1 else 2) * 2 ^ (q - 2) := by
  have hw := quarter_pos q
  have hu : (0 : ℚ) < 10 ^ p := by positivity
  have hlt : (m : ℚ) < 2 ^ 53 := by exact_mod_cast h.lt
  have hup : (10 : ℚ) ^ p < 4 * 2 ^ (q - 2) := by
    have := mul_lt_mul_of_pos_right hlt hw
    linarith
  refine ⟨hup, ?_⟩
  split
  · next hclose =>
    have hm : (m : ℚ) = 2 ^ 52 := by exact_mod_cast (h.close_iff.1 hclose).1
    rw [hm] at hp
    linarith
  · linarith

/-- A number is near one of its neighbours on a grid of 17 digits. -/
theorem roundsTo_or_of_grid (h : IsMagnitude m q close) (hm : 0 < m) (hp : 10 ^ 16 * (10 : ℚ) ^ p ≤ m * 2 ^ q)
    (hlow : d * (10 : ℚ) ^ p ≤ m * 2 ^ q) (hhigh : (m : ℚ) * 2 ^ q < (d + 1) * 10 ^ p) :
    (roundsTo m q close d p = true ∧ d ≠ 0) ∨ roundsTo m q close (d + 1) p = true := by
  have hu : (0 : ℚ) < 10 ^ p := by positivity
  have hv : (m : ℚ) * 2 ^ q = 4 * m * 2 ^ (q - 2) := by
    rw [show q = 2 + (q - 2) by omega, zpow_add₀ (by norm_num)]
    norm_num
    ring
  rw [hv] at hp hlow hhigh
  obtain ⟨hup, hdown⟩ := unit_lt h hp
  have hdigits : d ≠ 0 := by
    rintro rfl
    rw [Nat.cast_zero, zero_add, one_mul] at hhigh
    linarith
  have hlowEnd : lowEnd m q close = 4 * m * 2 ^ (q - 2) - (if close then 1 else 2) * 2 ^ (q - 2) := by
    rw [lowEnd]
    ring
  have hhighEnd : highEnd m q = 4 * m * 2 ^ (q - 2) + 2 * 2 ^ (q - 2) := by
    rw [highEnd]
    ring
  rw [roundsTo_iff hm, roundsTo_iff hm]
  by_cases hnear : 4 * m * 2 ^ (q - 2) - d * (10 : ℚ) ^ p ≤ 10 ^ p / 2
  · have h₁ : lowEnd m q close < d * 10 ^ p := by linarith
    have h₂ : d * (10 : ℚ) ^ p < highEnd m q := by linarith
    exact .inl ⟨⟨h₁.le, h₂.le, fun _ => ⟨h₁, h₂⟩⟩, hdigits⟩
  · have hnext : ((d + 1 : Nat) : ℚ) * 10 ^ p = d * 10 ^ p + 10 ^ p := by
      push_cast
      ring
    have hw' : (0 : ℚ) ≤ (if close then 1 else 2) * 2 ^ (q - 2) := by positivity
    have h₁ : lowEnd m q close < ((d + 1 : Nat) : ℚ) * 10 ^ p := by linarith
    have h₂ : ((d + 1 : Nat) : ℚ) * 10 ^ p < highEnd m q := by linarith
    exact .inr ⟨h₁.le, h₂.le, fun _ => ⟨h₁, h₂⟩⟩

/-- The first grid that has something is found, and what it has. -/
theorem exists_firstGrid_eq {top : Int} (tries : Nat) {count : Nat}
    (h : ∃ i < tries, (onGrid? m q close (top + 1 - (count + i : Nat))).isSome = true) :
    ∃ d p, firstGrid m q close top tries count = ⟨d, p⟩ ∧ onGrid? m q close p = some d := by
  induction tries generalizing count with
  | zero =>
    obtain ⟨i, hi, -⟩ := h
    exact absurd hi (Nat.not_lt_zero i)
  | succ n ih =>
    unfold firstGrid
    dsimp only
    cases hgrid : onGrid? m q close (top + 1 - count) with
    | some d => exact ⟨d, _, rfl, hgrid⟩
    | none =>
      apply ih
      obtain ⟨i, hi, hsome⟩ := h
      cases i with
      | zero =>
        rw [Nat.add_zero, hgrid] at hsome
        cases hsome
      | succ i =>
        refine ⟨i, Nat.lt_of_succ_lt_succ hi, ?_⟩
        rwa [show count + 1 + i = count + (i + 1) by omega]

end Grid

/-! ## The shortest decimal -/

theorem lt_pow_digitCount (n : Nat) : n < 10 ^ digitCount n :=
  (Nat.length_toDigits_le_iff (by decide) (List.length_pos_of_ne_nil Nat.toDigits_ne_nil)).1 le_rfl

theorem pow_digitCount_le {n : Nat} (hn : 0 < n) : 10 ^ (digitCount n - 1) ≤ n := by
  by_contra hlt
  rcases Nat.eq_zero_or_pos (digitCount n - 1) with hzero | hpos
  · rw [hzero] at hlt
    omega
  · have := (Nat.length_toDigits_le_iff (b := 10) (n := n) (by decide) hpos).2 (Nat.lt_of_not_le hlt)
    unfold digitCount at hpos this
    omega

/-- The leading digit is no greater than the number. -/
theorem pow_leadingExponent_le {num den : Nat} (hnum : 0 < num) (hden : 0 < den) :
    (10 : ℚ) ^ leadingExponent num den ≤ num / den := by
  have hden' : (0 : ℚ) < den := by exact_mod_cast hden
  have hnum' : (0 : ℚ) < num := by exact_mod_cast hnum
  unfold leadingExponent
  split
  · next hle =>
    have hquotient : 0 < num / den := Nat.div_pos hle hden
    have hcount : 0 < digitCount (num / den) := List.length_pos_of_ne_nil Nat.toDigits_ne_nil
    have hpow : ((10 ^ (digitCount (num / den) - 1) : Nat) : ℚ) ≤ (num / den : Nat) := by
      exact_mod_cast pow_digitCount_le hquotient
    rw [show (digitCount (num / den) : Int) - 1 = ((digitCount (num / den) - 1 : Nat) : Int) by omega, zpow_natCast]
    push_cast at hpow
    exact hpow.trans Nat.cast_div_le
  · next hgt =>
    -- the number of times that the numerator goes into the denominator, rounded up
    generalize hk : (den + num - 1) / num = k
    have hcover : den ≤ k * num := by
      have := Nat.lt_div_mul_add hnum (a := den + num - 1)
      rw [hk] at this
      omega
    have hk1 : k ≤ 10 ^ digitCount (k - 1) := by
      have := lt_pow_digitCount (k - 1)
      omega
    rw [zpow_neg, zpow_natCast, inv_le_comm₀ (by positivity) (by positivity), inv_div, div_le_iff₀ hnum']
    have hall : den ≤ 10 ^ digitCount (k - 1) * num := hcover.trans (Nat.mul_le_mul_right num hk1)
    exact_mod_cast hall

/-- The shortest decimal rounds to the number. -/
theorem roundsTo_shortest {m : Nat} {q : Int} {close : Bool} (h : IsMagnitude m q close) (hm : 0 < m) :
    RoundsTo m q close (shortest m q close).value ∧ (shortest m q close).digits ≠ 0 := by
  have hnum : 0 < (scaleTwo m q).1 := by
    unfold scaleTwo
    split
    · exact Nat.mul_pos hm (Nat.pow_pos (by decide))
    · exact hm
  have htop := pow_leadingExponent_le hnum (snd_scaleTwo_pos m q)
  rw [show ((scaleTwo m q).1 : ℚ) / (scaleTwo m q).2 = m * 2 ^ q from ratio_scaleTwo m q] at htop
  have hgrid : (onGrid? m q close (leadingExponent (scaleTwo m q).1 (scaleTwo m q).2 + 1 - (1 + 16 : Nat))).isSome = true := by
    refine isSome_onGrid?_of_roundsTo fun d hlow hhigh => roundsTo_or_of_grid h hm ?_ hlow hhigh
    refine le_trans (le_of_eq ?_) htop
    rw [← zpow_natCast, ← zpow_add₀ (by norm_num)]
    congr 1
    push_cast
    ring
  obtain ⟨d, p, hfirst, hd⟩ := exists_firstGrid_eq 17 ⟨16, by decide, hgrid⟩
  obtain ⟨hrounds, hne⟩ := roundsTo_of_onGrid? hd
  unfold shortest
  dsimp only
  rw [hfirst]
  exact ⟨(roundsTo_iff hm q close d p).1 hrounds, hne⟩

/-- Taking zeros off the end changes neither the number nor that it is positive. -/
theorem trim_spec (d : Decimal) (n : Nat) : (d.trim n).value = d.value ∧ (d.digits ≠ 0 → (d.trim n).digits ≠ 0) := by
  induction n generalizing d with
  | zero => exact ⟨rfl, id⟩
  | succ n ih =>
    unfold trim
    split
    · next h =>
      obtain ⟨hvalue, hne⟩ := ih ⟨d.digits / 10, d.exponent + 1⟩
      have hten : d.digits = d.digits / 10 * 10 := by omega
      refine ⟨hvalue.trans ?_, fun _ => hne (by dsimp only; omega)⟩
      have hcast : (d.digits : ℚ) = (d.digits / 10 : Nat) * 10 := by exact_mod_cast hten
      rw [value, value, hcast, zpow_add₀ (by norm_num)]
      ring
    · exact ⟨rfl, id⟩

/-- The shortest decimal of a number, without zeros at the end, tells what number it is. -/
theorem magnitude_unique {m m' : Nat} {q q' : Int} {close close' : Bool} (h : IsMagnitude m q close)
    (h' : IsMagnitude m' q' close') (hm : 0 < m) (hm' : 0 < m')
    (heq : ((shortest m q close).trim 17).value = ((shortest m' q' close').trim 17).value) : m = m' ∧ q = q' := by
  rw [(trim_spec _ 17).1, (trim_spec _ 17).1] at heq
  have hx := (roundsTo_shortest h hm).1
  rw [heq] at hx
  exact hx.unique h h' (roundsTo_shortest h' hm').1

end Decimal

end ManagementPlane
