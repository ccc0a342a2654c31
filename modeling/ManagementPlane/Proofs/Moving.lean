import ManagementPlane.Proofs.Identity
import ManagementPlane.Proofs.Making
import ManagementPlane.Proofs.Managing

/-!
# Objects in another heap

* `Handle.moved n m` : the handle of what was made after `m` objects as this one was after `n`;
* `Object.moved f` : the object with its adjuncts under other handles;
* `Object.reconstruct_moved`, `attachTo_moved`, … : moving an object commutes with what a pass does to it;
* `Object.reconstruct_congr` : what populating an object looks up.
-/

namespace ManagementPlane

/-- The handle of what was made after `m` objects in the way that the object of this one was after `n`. -/
def Handle.moved (n m : Nat) (a : Handle) : Handle := ⟨a.index - n + m⟩

theorem Handle.moved_inj {n m : Nat} {a b : Handle} (ha : n ≤ a.index) (hb : n ≤ b.index) :
    a.moved n m = b.moved n m ↔ a = b := by
  obtain ⟨i⟩ := a
  obtain ⟨j⟩ := b
  simp only [moved, Handle.mk.injEq] at ha hb ⊢
  omega

namespace Object

variable {f : Handle → Handle}

/-- The object with its adjuncts under other handles. -/
def moved (f : Handle → Handle) (o : Object) : Object :=
  { o with body := o.body.mapEntity fun s => { s with
      policies := s.policies.map f
      enrichers := s.enrichers.map f
      feeds := s.feeds.map f } }

@[simp] theorem id_moved (f : Handle → Handle) (o : Object) : (o.moved f).id = o.id := rfl

@[simp] theorem kind_moved (f : Handle → Handle) (o : Object) : (o.moved f).kind = o.kind :=
  Body.kind_mapEntity _ _

@[simp] theorem behaviour_moved (f : Handle → Handle) (o : Object) :
    (o.moved f).behaviour = o.behaviour := rfl

@[simp] theorem parent_moved (f : Handle → Handle) (o : Object) : (o.moved f).parent = o.parent := by
  unfold parent moved
  cases o.body <;> rfl

@[simp] theorem children_moved (f : Handle → Handle) (o : Object) : (o.moved f).children = o.children := by
  unfold children moved
  cases o.body <;> rfl

@[simp] theorem item_moved (f : Handle → Handle) (o : Object) : (o.moved f).item = o.item := by
  unfold item moved
  cases o.body <;> rfl

@[simp] theorem owner_moved (f : Handle → Handle) (o : Object) : (o.moved f).owner = o.owner := by
  unfold owner moved
  cases o.body <;> rfl

theorem adjuncts_moved (f : Handle → Handle) (o : Object) (k : ObjectKind) :
    (o.moved f).adjuncts k = (o.adjuncts k).map f := by
  unfold adjuncts moved
  cases o.body <;> cases k <;> rfl

/-- An object without adjuncts is the same anywhere. -/
theorem moved_of_adjuncts {o : Object} (h : ∀ k, o.adjuncts k = []) (f : Handle → Handle) :
    o.moved f = o := by
  have h₁ := h .policy
  have h₂ := h .enricher
  have h₃ := h .feed
  obtain ⟨id, type, item, readOnly, behaviour, body⟩ := o
  unfold moved
  cases body with
  | entity s =>
    simp only [adjuncts] at h₁ h₂ h₃
    simp only [Body.mapEntity, h₁, h₂, h₃, List.map_nil]
    cases s
    simp_all
  | _ => rfl

/-! ## What a pass does to objects -/

theorem setReadOnly_moved (b : Bool) (o : Object) : (o.moved f).setReadOnly b = (o.setReadOnly b).moved f := rfl

theorem reconstructItem_moved (i : CatalogItem) (o : Object) :
    (o.moved f).reconstructItem i = (o.reconstructItem i).moved f := by
  obtain ⟨id, type, item, readOnly, behaviour, body⟩ := o
  cases body <;> rfl

theorem reconstruct_moved (known : ObjectKind → String → Bool) (m : Memento) (o : Object) :
    (o.moved f).reconstruct known m = (o.reconstruct known m).map (moved f) := by
  obtain ⟨id, type, item, readOnly, behaviour, body⟩ := o
  cases body <;> rfl

theorem attachTo_moved (entity : String) (o : Object) :
    (o.moved f).attachTo entity = (o.attachTo entity).map (moved f) := by
  unfold attachTo
  rw [owner_moved]
  split
  · split <;> rfl
  · obtain ⟨id, type, item, readOnly, behaviour, body⟩ := o
    cases body <;> rfl

theorem pushAdjunct_moved (k : ObjectKind) (h : Handle) (o : Object) :
    (o.moved f).pushAdjunct k (f h) = (o.pushAdjunct k h).map (moved f) := by
  obtain ⟨id, type, item, readOnly, behaviour, body⟩ := o
  cases k <;> cases body <;> simp [pushAdjunct, moved, Body.mapEntity, Except.map]

/-! ## Adjuncts -/

theorem adjuncts_reconstructItem (i : CatalogItem) (o : Object) (k : ObjectKind) :
    (o.reconstructItem i).adjuncts k = o.adjuncts k := by
  obtain ⟨id, type, item, readOnly, behaviour, body⟩ := o
  cases body <;> rfl

theorem adjuncts_of_reconstruct {known : ObjectKind → String → Bool} {m : Memento} {o o' : Object}
    (h : o.reconstruct known m = .ok o') (k : ObjectKind) : o'.adjuncts k = o.adjuncts k := by
  obtain ⟨id, type, item, readOnly, behaviour, body⟩ := o
  cases body <;> cases h <;> cases k <;> rfl

theorem adjuncts_of_attachTo {entity : String} {o o' : Object} (h : o.attachTo entity = .ok o')
    (k : ObjectKind) : o'.adjuncts k = o.adjuncts k := by
  unfold attachTo at h
  split at h
  · split at h
    · cases h
    · cases h
      rfl
  · cases h
    unfold adjuncts
    cases o.body <;> cases k <;> rfl

/-- Only the new adjunct comes to those that an entity has. -/
theorem mem_adjuncts_of_pushAdjunct {k j : ObjectKind} {h a : Handle} {o o' : Object}
    (hp : o.pushAdjunct k h = .ok o') (ha : a ∈ o'.adjuncts j) : a ∈ o.adjuncts j ∨ a = h := by
  obtain ⟨id, type, item, readOnly, behaviour, body⟩ := o
  cases k <;> cases hp <;> cases body <;> cases j <;>
    simp only [adjuncts, Body.mapEntity, List.mem_append, List.mem_singleton, List.not_mem_nil] at ha ⊢ <;>
    tauto

/-! ## Populating -/

/-- Populating an object looks up the parent and, of an entity, the locations that the memento names. -/
theorem reconstruct_congr {known known' : ObjectKind → String → Bool} {m : Memento} {o : Object}
    (hparent : ∀ id, m.parent = some id → o.kind = .entity ∨ o.kind = .location →
      known o.kind id = known' o.kind id)
    (hlocations : o.kind = .entity → ∀ id ∈ m.locations, known .location id = known' .location id) :
    o.reconstruct known m = o.reconstruct known' m := by
  have hfilter : ∀ k, o.kind = k → (k = .entity ∨ k = .location) →
      m.parent.filter (known k) = m.parent.filter (known' k) := by
    rintro k rfl hk
    rcases hp : m.parent with _ | id
    · rfl
    · rw [Option.filter_some, Option.filter_some, hparent id hp hk]
  obtain ⟨id, type, item, readOnly, behaviour, body⟩ := o
  unfold reconstruct
  cases body with
  | entity s =>
    have hl : m.locations.filter (known .location) = m.locations.filter (known' .location) :=
      List.filter_congr (hlocations rfl)
    simp only [hfilter .entity rfl (Or.inl rfl), hl]
  | location s => simp only [hfilter .location rfl (Or.inr rfl)]
  | _ => rfl

end Object

end ManagementPlane
