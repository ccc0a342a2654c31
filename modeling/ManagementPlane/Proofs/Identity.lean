import ManagementPlane.Plane.Basic

/-!
# What changes of objects leave alone

* `Object.SameIdentity` : two states of an object have one id and one kind;
* every change that a live manager makes to an object (populating, joining, managing) keeps its identity;
* `Heap.read_modify_of_ne` : changing an object leaves the others alone.
-/

namespace ManagementPlane

namespace Object

/-- Two states of an object with one id and one kind. -/
structure SameIdentity (o o' : Object) : Prop where
  id : o'.id = o.id
  kind : o'.kind = o.kind

namespace SameIdentity

theorem refl (o : Object) : SameIdentity o o := ⟨rfl, rfl⟩

theorem trans {a b c : Object} (h₁ : SameIdentity a b) (h₂ : SameIdentity b c) :
    SameIdentity a c := ⟨h₂.id.trans h₁.id, h₂.kind.trans h₁.kind⟩

end SameIdentity

theorem sameIdentity_setReadOnly (b : Bool) (o : Object) : SameIdentity o (o.setReadOnly b) :=
  ⟨rfl, rfl⟩

theorem sameIdentity_noteManaged (t : Option Transition) (o : Object) :
    SameIdentity o (o.noteManaged t) := ⟨rfl, by simp [kind, noteManaged]⟩

theorem sameIdentity_reconstructItem (i : CatalogItem) (o : Object) :
    SameIdentity o (o.reconstructItem i) := by
  unfold reconstructItem
  cases hb : o.body <;> exact ⟨rfl, by simp [kind, hb, Body.kind]⟩

theorem sameIdentity_of_reconstruct {known : ObjectKind → String → Bool} {m : Memento} {o o' : Object}
    (h : o.reconstruct known m = .ok o') : SameIdentity o o' := by
  unfold reconstruct at h
  cases hb : o.body <;> simp only [hb, Except.ok.injEq, reduceCtorEq] at h <;> subst h <;>
    exact ⟨rfl, by simp [kind, hb, Body.kind, Body.mapAdjunct]⟩

theorem sameIdentity_of_attachTo {entity : String} {o o' : Object}
    (h : o.attachTo entity = .ok o') : SameIdentity o o' := by
  unfold attachTo at h
  split at h
  · split at h
    · cases h
    · cases h
      exact .refl o
  · cases h
    exact ⟨rfl, by simp [kind]⟩

theorem sameIdentity_of_pushAdjunct {k : ObjectKind} {h : Handle} {o o' : Object}
    (hp : o.pushAdjunct k h = .ok o') : SameIdentity o o' := by
  unfold pushAdjunct at hp
  split at hp <;> cases hp <;> exact ⟨rfl, by simp [kind]⟩

end Object

namespace Heap

/-- Changing an object leaves the others alone. -/
theorem read_modify_of_ne (heap : Heap) {h h' : Handle} (hne : h ≠ h') (f : Object → Object) :
    (heap.modify h f).read h' = heap.read h' := by
  have hi : ¬ h.index = h'.index := fun hi => hne (by cases h; cases h'; cases hi; rfl)
  simp only [read, modify, Std.TreeMap.getD_modify, Nat.compare_eq_eq, if_neg hi]

theorem read_modify_self (heap : Heap) {h : Handle} (hv : heap.Valid h) (f : Object → Object) :
    (heap.modify h f).read h = f (heap.read h) := by
  rw [read_modify _ _ _ _ hv, if_pos rfl]

@[simp] theorem size_modify (heap : Heap) (h : Handle) (f : Object → Object) :
    (heap.modify h f).size = heap.size := rfl

end Heap

end ManagementPlane
