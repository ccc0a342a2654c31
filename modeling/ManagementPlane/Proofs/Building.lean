import ManagementPlane.Proofs.Turns

/-!
# What the phases before the last keep

* `Pass.Building n p q` : from the pass `p` to `q` the live manager was only extended, the shells of `q` are its own,
  its mode is that of `p`, and the last phase has not been entered if it had not been;
* `Pass.building_of_turns` : so it is with any number of turns.
-/

namespace ManagementPlane

open Plane (Extends)

/-! ## Filling the catalog -/

theorem Pass.extends_adoptAll {n : Nat} (objects : List Object) {p : Plane} (hn : n ≤ p.heap.size) :
    Extends n p (adoptAll objects p).2 := by
  induction objects generalizing p with
  | nil => exact .refl n p
  | cons o r ih => exact (Extends.adopt hn o).trans (ih (Nat.le_succ_of_le hn))

theorem Pass.extends_fillCatalog {n : Nat} (items : List CatalogItem) {p : Plane}
    (hn : n ≤ p.heap.size) : Extends n p (fillCatalog items p) :=
  (extends_adoptAll (items.map .ofItem) hn).trans (.setCatalog _)

namespace Pass

variable {σ : Type} {t : Task} {n : Nat} {p q r : Pass σ}

/-- The pass `q` has come from `p` in phases before the last. The pass found `n` objects. -/
structure Building (n : Nat) (p q : Pass σ) : Prop where
  sound : q.scratch.Sound n q.plane
  extend : Extends n p.plane q.plane
  mode : q.mode = p.mode
  allReadOnly : q.scratch.allReadOnly = p.scratch.allReadOnly
  phase_lt : p.phase < 8 → q.phase < 8

theorem Building.refl (hp : p.scratch.Sound n p.plane) : Building n p p :=
  ⟨hp, .refl n _, rfl, rfl, id⟩

theorem Building.trans (h₁ : Building n p q) (h₂ : Building n q r) : Building n p r where
  sound := h₂.sound
  extend := h₁.extend.trans h₂.extend
  mode := h₂.mode.trans h₁.mode
  allReadOnly := h₂.allReadOnly.trans h₁.allReadOnly
  phase_lt := h₂.phase_lt ∘ h₁.phase_lt

/-- A change of the live manager alone. -/
theorem Building.of_extends (hp : p.scratch.Sound n p.plane) {plane : Plane}
    (he : Extends n p.plane plane) : Building n p { p with plane } :=
  ⟨hp.extend he, he, rfl, rfl, id⟩

theorem building_of_turn (hp : p.scratch.Sound n p.plane) (h : Turn t p q) : Building n p q := by
  cases h with
  | enter hphase => exact ⟨hp, .refl n _, rfl, rfl, fun _ => hphase⟩
  | note m => exact ⟨hp, .refl n _, rfl, rfl, id⟩
  | hear he s =>
    have hrec := Extends.record he n p.plane
    exact ⟨hp.extend hrec, hrec, rfl, rfl, id⟩
  | @fail k id item candidates d hd e plane hm =>
    have hmade := Instantiator.made_makeLoaded hp.size_le k d id item candidates
    rw [hm] at hmade
    exact .of_extends hp hmade
  | @make k id item candidates d hd shell plane hm =>
    have hmade := Instantiator.made_makeLoaded hp.size_le k d id item candidates
    rw [hm] at hmade
    obtain ⟨he, hnext, hv, -⟩ := hmade
    have hfresh : n ≤ shell.index := by
      rw [hnext]
      exact hp.size_le
    exact ⟨(hp.extend he).register hfresh hv, he.trans (Scratch.extends_register hfresh _ _), rfl,
      Scratch.allReadOnly_register _ _ _, fun h => h⟩
  | populateItem hs item => exact .of_extends hp (.reconstructItem (hp.fresh hs) item)
  | reset => exact .of_extends hp (.setCatalog _)
  | fill items => exact .of_extends hp (extends_fillCatalog items hp.size_le)
  | populate hm hs => exact .of_extends hp (.reconstruct _ _ (hp.fresh hs) _)
  | leave hk id => exact ⟨hp.unregister _ id, .refl n _, rfl, rfl, fun h => h⟩
  | attach he ha => exact .of_extends hp (.addAdjunct (hp.fresh he) (hp.fresh ha) _)

theorem building_of_turns (hp : p.scratch.Sound n p.plane) (h : Turns t p q) : Building n p q := by
  induction h with
  | refl => exact .refl hp
  | tail _ hturn ih => exact ih.trans (building_of_turn ih.sound hturn)

end Pass

end ManagementPlane
