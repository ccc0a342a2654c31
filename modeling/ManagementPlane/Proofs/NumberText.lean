import ManagementPlane.Json.Printer
import ManagementPlane.Proofs.Numerals
import ManagementPlane.Proofs.Rounding

/-!
# Numbers as they are written

Every number is written as a numeral, which is read back from its text, and different numbers are written as different
numerals.

* `Numeral.chars` : a numeral as it is written; `Numeral.lex?_chars` : it is what stands at the front of the text, if
  nothing that follows could belong to it;
* `Numeral.size` : the number that a numeral writes, without its sign;
* `exists_writes_render` : a decimal is written as a numeral of its value;
* `Number.exists_spells`, `Number.Spells.unique` : so is every number, and the numeral tells which.
-/

namespace ManagementPlane

namespace Decimal

namespace Numeral

def fractionChars : Option (List Char) → List Char
  | some ds => '.' :: ds
  | none => []

/-- The exponent part always has its sign. -/
def exponentChars : Option (Bool × List Char) → List Char
  | some (negative, ds) => 'e' :: (if negative then '-' else '+') :: ds
  | none => []

/-- A numeral as it is written. -/
def chars (n : Numeral) : List Char :=
  (if n.negative then ['-'] else []) ++ (n.whole ++ (fractionChars n.fraction ++ exponentChars n.exponent))

/-- Digits, and at least one. -/
structure AreDigits (ds : List Char) : Prop where
  ne_nil : ds ≠ []
  isDigit : ∀ c ∈ ds, c.isDigit = true

/-- All parts that are there have digits, and a zero that leads stands alone. -/
structure WellFormed (n : Numeral) : Prop where
  whole : AreDigits n.whole
  leading : n.whole.head? = some '0' → n.whole = ['0']
  fraction : ∀ ds, n.fraction = some ds → AreDigits ds
  exponent : ∀ negative ds, n.exponent = some (negative, ds) → AreDigits ds

/-! ## Reading a numeral back -/

variable {n : Numeral} {ds r : List Char}

theorem lexWhole?_append (h : AreDigits ds) (hlead : ds.head? = some '0' → ds = ['0'])
    (hr : ∀ c ∈ r.head?, c.isDigit = false) : lexWhole? (ds ++ r) = some (ds, r) := by
  rw [lexWhole?, spanDigits_append h.isDigit hr]
  split
  · next he => exact absurd (Prod.mk.inj he).1 h.ne_nil
  · next he =>
    have hds := (Prod.mk.inj he).1
    have := hlead (by rw [hds]; rfl)
    rw [hds] at this
    cases this
  · next he =>
    cases he
    rfl

theorem lexFraction?_append {fraction : Option (List Char)} (h : ∀ ds, fraction = some ds → AreDigits ds)
    (hr : ∀ c ∈ r.head?, c.isDigit = false ∧ c ≠ '.') :
    lexFraction? (fractionChars fraction ++ r) = some (fraction, r) := by
  cases fraction with
  | none =>
    cases r with
    | nil => rfl
    | cons c r =>
      have hc : c ≠ '.' := (hr c rfl).2
      show lexFraction? (c :: r) = _
      rw [lexFraction?]
      rintro s hs
      exact hc (List.cons.inj hs).1
  | some ds =>
    have hds := h ds rfl
    show lexFraction? ('.' :: (ds ++ r)) = _
    rw [lexFraction?, spanDigits_append hds.isDigit fun c hc => (hr c hc).1]
    split
    · next he => exact absurd (Prod.mk.inj he).1 hds.ne_nil
    · next he =>
      cases he
      rfl

theorem lexExponent?_append {exponent : Option (Bool × List Char)}
    (h : ∀ negative ds, exponent = some (negative, ds) → AreDigits ds) (hr : NumberEnds r) :
    lexExponent? (exponentChars exponent ++ r) = some (exponent, r) := by
  cases exponent with
  | none => exact lexExponent?_of_ends hr
  | some e =>
    obtain ⟨negative, ds⟩ := e
    have hds := h negative ds rfl
    have hspan := spanDigits_append (r := r) hds.isDigit fun c hc => (hr c hc).1
    obtain ⟨c, cs, rfl⟩ := List.exists_cons_of_ne_nil hds.ne_nil
    rw [List.cons_append] at hspan
    cases negative with
    | true => simp [exponentChars, lexExponent?, hspan]
    | false => simp [exponentChars, lexExponent?, hspan]

/-- A numeral is read back from its text. -/
theorem lex?_chars (h : n.WellFormed) (hr : NumberEnds r) : lex? (n.chars ++ r) = some (n, r) := by
  obtain ⟨negative, whole, fraction, exponent⟩ := n
  obtain ⟨hwhole, hlead, hfraction, hexponent⟩ := h
  dsimp only at hwhole hlead hfraction hexponent
  have hends : ∀ c ∈ (exponentChars exponent ++ r).head?, c.isDigit = false ∧ c ≠ '.' := by
    intro c hc
    cases exponent with
    | none => exact ⟨(hr c hc).1, (hr c hc).2.1⟩
    | some e =>
      cases hc
      decide
  have hpoint : ∀ c ∈ (fractionChars fraction ++ (exponentChars exponent ++ r)).head?, c.isDigit = false := by
    intro c hc
    cases fraction with
    | none => exact (hends c hc).1
    | some ds =>
      cases hc
      decide
  have hread₁ := lexWhole?_append hwhole hlead hpoint
  have hread₂ := lexFraction?_append hfraction hends
  have hread₃ := lexExponent?_append hexponent hr
  cases negative with
  | true =>
    have hchars : chars ⟨true, whole, fraction, exponent⟩ ++ r =
        '-' :: (whole ++ (fractionChars fraction ++ (exponentChars exponent ++ r))) := by simp [chars]
    rw [hchars]
    simp only [lex?, hread₁, hread₂, hread₃, Option.bind_eq_bind, Option.bind_some]
  | false =>
    have hchars : chars ⟨false, whole, fraction, exponent⟩ ++ r =
        whole ++ (fractionChars fraction ++ (exponentChars exponent ++ r)) := by simp [chars]
    rw [hchars, lex?]
    · simp only [hread₁, hread₂, hread₃, Option.bind_eq_bind, Option.bind_some]
    · -- no digit is a sign
      intro s hs
      obtain ⟨c, cs, rfl⟩ := List.exists_cons_of_ne_nil hwhole.ne_nil
      have hc : c.isDigit = true := hwhole.isDigit c List.mem_cons_self
      cases hs
      cases hc

/-- A numeral starts with a digit or a minus sign. -/
theorem exists_first_chars (h : n.WellFormed) : ∃ c cs, n.chars = c :: cs ∧ (c = '-' ∨ c.isDigit = true) := by
  unfold chars
  split
  · exact ⟨'-', _, rfl, .inl rfl⟩
  · obtain ⟨c, cs, hcs⟩ := List.exists_cons_of_ne_nil h.whole.ne_nil
    rw [hcs]
    exact ⟨c, _, rfl, .inr (h.whole.isDigit c (by rw [hcs]; exact List.mem_cons_self))⟩

/-! ## The number that a numeral writes -/

/-- The exponent that is written. -/
def scale (n : Numeral) : Int :=
  match n.exponent with
  | none => 0
  | some (true, ds) => -(ofDigits ds : Int)
  | some (false, ds) => ofDigits ds

/-- The number that the numeral writes, without its sign. -/
def size (n : Numeral) : ℚ :=
  ofDigits (n.whole ++ n.fraction.getD []) * 10 ^ (n.scale - (n.fraction.getD []).length)

/-- The numeral has a fraction or an exponent, as numbers have that are not written as integers. -/
def IsReal (n : Numeral) : Prop := n.fraction ≠ none ∨ n.exponent ≠ none

end Numeral

/-! ## Digits -/

open Numeral (AreDigits)

theorem areDigits_zero : AreDigits ['0'] := ⟨List.cons_ne_nil _ _, List.forall_mem_singleton.2 rfl⟩

theorem areDigits_toDigits (n : Nat) : AreDigits (Nat.toDigits 10 n) :=
  ⟨Nat.toDigits_ne_nil, fun _ => isDigit_of_mem_toDigits⟩

theorem ofDigits_append (ds es : List Char) : ofDigits (ds ++ es) = ofDigits ds * 10 ^ es.length + ofDigits es := by
  have hfold : ∀ (es : List Char) (n : Nat), es.foldl (fun n c => n * 10 + digitValue c) n =
      n * 10 ^ es.length + es.foldl (fun n c => n * 10 + digitValue c) 0 := by
    intro es
    induction es with
    | nil => simp
    | cons c es ih =>
      intro n
      rw [List.foldl_cons, List.foldl_cons, ih, ih (0 * 10 + digitValue c), List.length_cons, pow_succ]
      ring
  rw [ofDigits, List.foldl_append, hfold]
  rfl

theorem ofDigits_replicate (n : Nat) : ofDigits (List.replicate n '0') = 0 := by
  induction n with
  | zero => rfl
  | succ n ih =>
    rw [List.replicate_succ', ofDigits_append, ih, Nat.zero_mul]
    rfl

/-! ## Decimals -/

/-- A numeral, the text that it is written as, and the number that it writes, which is not written as an integer. -/
structure Writes (n : Numeral) (negative : Bool) (text : List Char) (x : ℚ) : Prop where
  wellFormed : n.WellFormed
  isReal : n.IsReal
  negative_eq : n.negative = negative
  chars_eq : n.chars = (if negative then ['-'] else []) ++ text
  size_eq : n.size = x

theorem Writes.of_text_eq {n : Numeral} {negative : Bool} {text text' : List Char} {x : ℚ} (h : Writes n negative text x)
    (heq : text' = text) : Writes n negative text' x := heq ▸ h

section Layouts
variable {ds : List Char} (hds : AreDigits ds) (hlead : ds.head? ≠ some '0') (negative : Bool)
include hds

include hlead in
/-- Zeros behind the digits, and a fraction that is zero. -/
theorem writes_whole (k : Nat) : Writes ⟨negative, ds ++ List.replicate k '0', some ['0'], none⟩ negative
    (ds ++ List.replicate k '0' ++ ['.', '0']) (ofDigits ds * 10 ^ (k : Int)) where
  wellFormed := by
    refine ⟨⟨List.append_ne_nil_of_left_ne_nil hds.ne_nil _, fun c hc => ?_⟩, fun hzero => ?_, ?_, nofun⟩
    · rcases List.mem_append.1 hc with hc | hc
      · exact hds.isDigit c hc
      · rw [List.eq_of_mem_replicate hc]
        rfl
    · rw [List.head?_append_of_ne_nil _ hds.ne_nil] at hzero
      exact absurd hzero hlead
    · rintro es ⟨⟩
      exact areDigits_zero
  isReal := .inl nofun
  negative_eq := rfl
  chars_eq := by simp [Numeral.chars, Numeral.fractionChars, Numeral.exponentChars]
  size_eq := by
    have hzero : ofDigits ['0'] = 0 := rfl
    simp only [Numeral.size, Numeral.scale, Option.getD_some, ofDigits_append, ofDigits_replicate, hzero,
      List.length_replicate, List.length_singleton]
    push_cast
    simp

include hlead in
/-- A point among the digits. -/
theorem writes_point {k : Nat} (hk : 0 < k) (hless : k < ds.length) :
    Writes ⟨negative, ds.take k, some (ds.drop k), none⟩ negative (ds.take k ++ '.' :: ds.drop k)
      (ofDigits ds * 10 ^ ((k : Int) - ds.length)) where
  wellFormed := by
    refine ⟨⟨?_, fun c hc => hds.isDigit c (List.mem_of_mem_take hc)⟩, fun hzero => ?_, ?_, nofun⟩
    · rw [ne_eq, List.take_eq_nil_iff, not_or]
      exact ⟨by omega, hds.ne_nil⟩
    · rw [List.head?_take, if_neg (by omega)] at hzero
      exact absurd hzero hlead
    · rintro es ⟨⟩
      refine ⟨?_, fun c hc => hds.isDigit c (List.mem_of_mem_drop hc)⟩
      rw [ne_eq, List.drop_eq_nil_iff]
      omega
  isReal := .inl nofun
  negative_eq := rfl
  chars_eq := by simp [Numeral.chars, Numeral.fractionChars, Numeral.exponentChars]
  size_eq := by
    simp only [Numeral.size, Numeral.scale, Option.getD_some, List.take_append_drop, List.length_drop]
    rw [Nat.cast_sub hless.le, zero_sub, neg_sub]

/-- Zeros between the point and the digits. -/
theorem writes_small (k : Nat) : Writes ⟨negative, ['0'], some (List.replicate k '0' ++ ds), none⟩ negative
    ('0' :: '.' :: (List.replicate k '0' ++ ds)) (ofDigits ds * 10 ^ (-(k + ds.length : Int))) where
  wellFormed := by
    refine ⟨areDigits_zero, fun _ => rfl, ?_, nofun⟩
    rintro es ⟨⟩
    refine ⟨List.append_ne_nil_of_right_ne_nil _ hds.ne_nil, fun c hc => ?_⟩
    rcases List.mem_append.1 hc with hc | hc
    · rw [List.eq_of_mem_replicate hc]
      rfl
    · exact hds.isDigit c hc
  isReal := .inl nofun
  negative_eq := rfl
  chars_eq := by simp [Numeral.chars, Numeral.fractionChars, Numeral.exponentChars]
  size_eq := by
    have hzero : ofDigits ['0'] = 0 := rfl
    simp only [Numeral.size, Numeral.scale, Option.getD_some, ofDigits_append, ofDigits_replicate, hzero, List.length_append,
      List.length_replicate, Nat.zero_mul, Nat.zero_add]
    push_cast
    simp

end Layouts

/-- One digit in front of the point, and an exponent. -/
theorem writes_scientific {c : Char} {cs : List Char} (hds : AreDigits (c :: cs)) (negative : Bool) (top : Int) :
    Writes ⟨negative, [c], if cs = [] then none else some cs, some (decide (top < 0), Nat.toDigits 10 top.natAbs)⟩ negative
      ((if cs = [] then [c] else c :: '.' :: cs) ++ 'e' :: (if top < 0 then '-' else '+') :: Nat.toDigits 10 top.natAbs)
      (ofDigits (c :: cs) * 10 ^ (top - cs.length)) where
  wellFormed := by
    refine ⟨⟨List.cons_ne_nil _ _, fun d hd => ?_⟩, fun hzero => ?_, fun es hes => ?_, fun b es hes => ?_⟩
    · rw [List.mem_singleton.1 hd]
      exact hds.isDigit c List.mem_cons_self
    · rw [List.head?_cons, Option.some.injEq] at hzero
      rw [hzero]
    · rw [Option.ite_none_left_eq_some] at hes
      cases hes.2
      exact ⟨hes.1, fun d hd => hds.isDigit d (List.mem_cons_of_mem _ hd)⟩
    · cases hes
      exact areDigits_toDigits _
  isReal := .inr nofun
  negative_eq := rfl
  chars_eq := by
    by_cases hcs : cs = [] <;> by_cases htop : top < 0 <;>
      simp [Numeral.chars, Numeral.fractionChars, Numeral.exponentChars, hcs, htop]
  size_eq := by
    have hscale : Numeral.scale ⟨negative, [c], if cs = [] then none else some cs,
        some (decide (top < 0), Nat.toDigits 10 top.natAbs)⟩ = top := by
      unfold Numeral.scale
      by_cases htop : top < 0
      · simp only [htop, decide_true, ofDigits_toDigits]
        omega
      · simp only [htop, decide_false, ofDigits_toDigits]
        omega
    have hfraction : (if cs = [] then none else some cs).getD [] = cs := by
      split
      · next h => exact h.symm
      · rfl
    rw [Numeral.size, hscale, hfraction]
    rfl

theorem writes_zero (negative : Bool) : Writes ⟨negative, ['0'], some ['0'], none⟩ negative ['0', '.', '0'] 0 where
  wellFormed := by
    refine ⟨areDigits_zero, fun _ => rfl, ?_, nofun⟩
    rintro ds ⟨⟩
    exact areDigits_zero
  isReal := .inl nofun
  negative_eq := rfl
  chars_eq := by simp [Numeral.chars, Numeral.fractionChars, Numeral.exponentChars]
  size_eq := by
    have hzero : ofDigits (['0'] ++ ['0']) = 0 := rfl
    rw [Numeral.size, Option.getD_some, hzero, Nat.cast_zero, zero_mul]

/-- A decimal is written as a numeral of its value. -/
theorem exists_writes_render (negative : Bool) {d : Decimal} (hd : d.digits ≠ 0) :
    ∃ n, Writes n negative (Json.numberFormat.render d).toList d.value := by
  have hlead := head?_toDigits_ne_zero hd
  have hdigits := areDigits_toDigits d.digits
  have hvalue : d.value = ofDigits (Nat.toDigits 10 d.digits) * 10 ^ d.exponent := by rw [ofDigits_toDigits, value]
  unfold NumberFormat.render Json.numberFormat
  dsimp only
  rw [hvalue]
  generalize Nat.toDigits 10 d.digits = ds at hlead hdigits
  have hlength : 0 < ds.length := List.length_pos_of_ne_nil hdigits.ne_nil
  split
  · split
    · next he =>
      have h := writes_whole hdigits hlead negative d.exponent.toNat
      rw [Int.toNat_of_nonneg he] at h
      exact ⟨_, h.of_text_eq (by simp)⟩
    · next he =>
      split
      · next htop =>
        have h := writes_point hdigits hlead negative (k := ds.length - (-d.exponent).toNat) (by omega) (by omega)
        rw [show ((ds.length - (-d.exponent).toNat : Nat) : Int) - ds.length = d.exponent by omega] at h
        exact ⟨_, h.of_text_eq (by simp)⟩
      · next htop =>
        have h := writes_small hdigits negative (-(ds.length + d.exponent - 1) - 1).toNat
        rw [show -(((-(ds.length + d.exponent - 1) - 1).toNat : Int) + ds.length) = d.exponent by omega] at h
        exact ⟨_, h.of_text_eq (by simp)⟩
  · obtain ⟨c, cs, rfl⟩ := List.exists_cons_of_ne_nil hdigits.ne_nil
    have h := writes_scientific hdigits negative ((c :: cs).length + d.exponent - 1)
    rw [show ((c :: cs).length + d.exponent - 1 : Int) - cs.length = d.exponent by simp; omega] at h
    refine ⟨_, h.of_text_eq ?_⟩
    generalize ((c :: cs).length + d.exponent - 1 : Int) = top
    by_cases htop : top < 0
    · cases cs <;> simp [htop]
    · cases cs <;> simp [htop]

/-! ## Numbers of 64 bits -/

namespace Binary64

variable {a b : UInt64}

def fraction (bits : UInt64) : Nat := (bits &&& 0xfffffffffffff).toNat

def exponent (bits : UInt64) : Nat := ((bits >>> 52) &&& 0x7ff).toNat

theorem fraction_eq (bits : UInt64) : fraction bits = bits.toNat % 2 ^ 52 := by
  rw [fraction, UInt64.toNat_and]
  exact Nat.and_two_pow_sub_one_eq_mod _ 52

theorem exponent_eq (bits : UInt64) : exponent bits = bits.toNat / 2 ^ 52 % 2 ^ 11 := by
  rw [exponent, UInt64.toNat_and, UInt64.toNat_shiftRight, Nat.shiftRight_eq_div_pow]
  exact Nat.and_two_pow_sub_one_eq_mod _ 11

theorem negative_iff (bits : UInt64) : negative bits = true ↔ bits.toNat / 2 ^ 63 = 1 := by
  rw [negative, beq_iff_eq, ← UInt64.toNat_inj, UInt64.toNat_shiftRight, Nat.shiftRight_eq_div_pow]
  rfl

theorem magnitude_eq (bits : UInt64) : magnitude bits = if exponent bits = 0 then (fraction bits, -1074, false)
    else (fraction bits + 2 ^ 52, (exponent bits : Int) - 1075, decide (fraction bits = 0) && decide (1 < exponent bits)) := by
  rfl

theorem isMagnitude_magnitude (bits : UInt64) :
    IsMagnitude (magnitude bits).1 (magnitude bits).2.1 (magnitude bits).2.2 := by
  have hfraction : fraction bits < 2 ^ 52 := by
    rw [fraction_eq]
    omega
  rw [magnitude_eq]
  split
  · exact ⟨by dsimp only; omega, le_rfl, .inr rfl, by simp⟩
  · refine ⟨by dsimp only; omega, by dsimp only; omega, .inl (by dsimp only; omega), ?_⟩
    simp only [Bool.and_eq_true, decide_eq_true_eq]
    omega

theorem least_of_zero (h : (magnitude a).1 = 0) : (magnitude a).2.1 = -1074 :=
  (isMagnitude_magnitude a).normal.resolve_left (by omega)

/-- The sign and the magnitude tell the bits. -/
theorem eq_of_magnitude_eq (hsign : negative a = negative b) (hm : (magnitude a).1 = (magnitude b).1)
    (hq : (magnitude a).2.1 = (magnitude b).2.1) : a = b := by
  have hbound : ∀ bits, fraction bits < 2 ^ 52 := by
    intro bits
    rw [fraction_eq]
    omega
  have hfields : fraction a = fraction b ∧ exponent a = exponent b := by
    have hfa := hbound a
    have hfb := hbound b
    rw [magnitude_eq, magnitude_eq] at hm hq
    by_cases ha : exponent a = 0
    · by_cases hb : exponent b = 0
      · simp only [ha, hb, if_true] at hm ⊢
        exact ⟨hm, trivial⟩
      · simp only [ha, hb, if_true, if_false] at hm
        omega
    · by_cases hb : exponent b = 0
      · simp only [ha, hb, if_true, if_false] at hm
        omega
      · simp only [ha, hb, if_false] at hm hq
        omega
  obtain ⟨hfraction, hexponent⟩ := hfields
  have hiff : a.toNat / 2 ^ 63 = 1 ↔ b.toNat / 2 ^ 63 = 1 := by rw [← negative_iff, ← negative_iff, hsign]
  rw [fraction_eq, fraction_eq] at hfraction
  rw [exponent_eq, exponent_eq] at hexponent
  have ha := a.toNat_lt
  have hb := b.toNat_lt
  apply UInt64.toNat_inj.1
  omega

/-- The number that is written for the bits, without its sign. -/
def written (bits : UInt64) : ℚ :=
  if (magnitude bits).1 = 0 then 0
  else ((shortest (magnitude bits).1 (magnitude bits).2.1 (magnitude bits).2.2).trim 17).value

theorem exists_writes_text (bits : UInt64) : ∃ n text, Writes n (negative bits) text (written bits) ∧
    n.chars = (Binary64.text Json.numberFormat bits).toList := by
  have hsign : (if negative bits then "-" else "").toList = if negative bits then ['-'] else [] := by
    cases negative bits <;> rfl
  unfold written Binary64.text
  dsimp only
  split
  · next hzero =>
    refine ⟨_, _, writes_zero _, ?_⟩
    rw [(writes_zero _).chars_eq, String.toList_append, String.toList_append, hsign, List.append_assoc]
    rfl
  · next hpos =>
    have hmag := isMagnitude_magnitude bits
    have hdigits := (roundsTo_shortest hmag (Nat.pos_of_ne_zero hpos)).2
    obtain ⟨n, hn⟩ := exists_writes_render (negative bits) ((trim_spec _ 17).2 hdigits)
    refine ⟨n, _, hn, ?_⟩
    rw [hn.chars_eq, String.toList_append, hsign]

/-- The number that is written and its sign tell the bits. -/
theorem eq_of_written_eq (hsign : negative a = negative b) (h : written a = written b) : a = b := by
  have hne : ∀ bits, (magnitude bits).1 ≠ 0 → written bits ≠ 0 := by
    intro bits hpos
    have hdigits := (roundsTo_shortest (isMagnitude_magnitude bits) (Nat.pos_of_ne_zero hpos)).2
    have := (trim_spec (shortest (magnitude bits).1 (magnitude bits).2.1 (magnitude bits).2.2) 17).2 hdigits
    rw [written, if_neg hpos, value]
    positivity
  by_cases ha : (magnitude a).1 = 0
  · by_cases hb : (magnitude b).1 = 0
    · refine eq_of_magnitude_eq hsign (ha.trans hb.symm) ?_
      rw [least_of_zero ha, least_of_zero hb]
    · exact absurd (h.symm.trans (if_pos ha)) (hne b hb)
  · by_cases hb : (magnitude b).1 = 0
    · exact absurd (h.trans (if_pos hb)) (hne a ha)
    · rw [written, written, if_neg ha, if_neg hb] at h
      obtain ⟨hm, hq⟩ := magnitude_unique (isMagnitude_magnitude a) (isMagnitude_magnitude b) (Nat.pos_of_ne_zero ha)
        (Nat.pos_of_ne_zero hb) h
      exact eq_of_magnitude_eq hsign hm hq

end Binary64

end Decimal

namespace Json

open Decimal

namespace Number

variable {x y : Number}

theorem wellFormed_ofInt (i : Int) : (Numeral.ofInt i).WellFormed where
  whole := areDigits_toDigits _
  leading hzero := by
    by_cases hi : i.natAbs = 0
    · rw [Numeral.ofInt, hi]
      rfl
    · exact absurd hzero (head?_toDigits_ne_zero hi)
  fraction := nofun
  exponent := nofun

theorem chars_ofInt (i : Int) : (Numeral.ofInt i).chars = (toString i).toList := by
  have hchars : (Numeral.ofInt i).chars = (if decide (i < 0) then ['-'] else []) ++ Nat.toDigits 10 i.natAbs := by
    simp [Numeral.chars, Numeral.ofInt, Numeral.fractionChars, Numeral.exponentChars]
  rw [hchars, Int.toString_eq_repr, Int.repr_eq_if]
  by_cases hi : 0 ≤ i
  · have hneg : decide (i < 0) = false := by simpa using hi
    have habs : i.toNat = i.natAbs := by omega
    rw [if_pos hi, Nat.toList_repr, hneg, habs]
    rfl
  · have hneg : decide (i < 0) = true := by simpa using hi
    have habs : (-i).toNat = i.natAbs := by omega
    rw [if_neg hi, String.toList_append, Nat.toList_repr, hneg, habs]
    rfl

theorem ofInt_inj {i j : Int} (h : Numeral.ofInt i = .ofInt j) : i = j := by
  have hsign : decide (i < 0) = decide (j < 0) := congrArg Numeral.negative h
  have hdigits : Nat.toDigits 10 i.natAbs = Nat.toDigits 10 j.natAbs := congrArg Numeral.whole h
  have habs := congrArg ofDigits hdigits
  rw [ofDigits_toDigits, ofDigits_toDigits] at habs
  rw [decide_eq_decide] at hsign
  omega

theorem not_isReal_ofInt (i : Int) : ¬ (Numeral.ofInt i).IsReal := by
  rintro (h | h) <;> exact h rfl

/-- What a number is written as: an integer, or a numeral that has a fraction or an exponent. -/
inductive Spells : Number → Numeral → Prop where
  | int (i : Int) : Spells (.int i) (.ofInt i)
  | real {bits : UInt64} {n : Numeral} {text : List Char}
      (h : Writes n (Binary64.negative bits) text (Binary64.written bits)) : Spells (.real bits) n

/-- Every number is written as a numeral. -/
theorem exists_spells (x : Number) : ∃ n, Spells x n ∧ n.WellFormed ∧ n.chars = x.text.toList := by
  cases x with
  | int i => exact ⟨_, .int i, wellFormed_ofInt i, chars_ofInt i⟩
  | real bits =>
    obtain ⟨n, text, hn, hchars⟩ := Binary64.exists_writes_text bits
    exact ⟨n, .real hn, hn.wellFormed, hchars⟩

/-- A numeral is what one number is written as. -/
theorem Spells.unique {n m : Numeral} (h : Spells x n) (h' : Spells y m) (heq : n = m) : x = y := by
  cases h with
  | int i =>
    cases h' with
    | int j => rw [ofInt_inj heq]
    | real hm => exact absurd (heq ▸ hm.isReal) (not_isReal_ofInt i)
  | real hn =>
    cases h' with
    | int j => exact absurd (heq ▸ hn.isReal) (not_isReal_ofInt j)
    | real hm =>
      have hsign := hn.negative_eq.symm.trans ((congrArg Numeral.negative heq).trans hm.negative_eq)
      have hsize := hn.size_eq.symm.trans ((congrArg Numeral.size heq).trans hm.size_eq)
      rw [Binary64.eq_of_written_eq hsign hsize]

end Number

end Json

end ManagementPlane
