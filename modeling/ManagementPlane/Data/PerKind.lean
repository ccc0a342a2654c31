import ManagementPlane.Kind

/-!
# One thing for each kind

`PerKind α` holds an `α` for every kind of object; `get_set` says what storing does.
-/

namespace ManagementPlane

/-- An `α` for every kind of object. -/
structure PerKind (α : Type) where
  entity : α
  location : α
  policy : α
  enricher : α
  feed : α
  catalogItem : α
  deriving DecidableEq

namespace PerKind

variable {α β : Type}

def const (a : α) : PerKind α := ⟨a, a, a, a, a, a⟩

instance [EmptyCollection α] : EmptyCollection (PerKind α) := ⟨const ∅⟩

instance [Inhabited α] : Inhabited (PerKind α) := ⟨const default⟩

def get (p : PerKind α) : ObjectKind → α
  | .entity => p.entity
  | .location => p.location
  | .policy => p.policy
  | .enricher => p.enricher
  | .feed => p.feed
  | .catalogItem => p.catalogItem

def set (p : PerKind α) (k : ObjectKind) (a : α) : PerKind α :=
  match k with
  | .entity => { p with entity := a }
  | .location => { p with location := a }
  | .policy => { p with policy := a }
  | .enricher => { p with enricher := a }
  | .feed => { p with feed := a }
  | .catalogItem => { p with catalogItem := a }

def modify (p : PerKind α) (k : ObjectKind) (f : α → α) : PerKind α := p.set k (f (p.get k))

@[simp] theorem get_const (a : α) (k : ObjectKind) : (const a).get k = a := by cases k <;> rfl

@[simp] theorem get_empty [EmptyCollection α] (k : ObjectKind) : (∅ : PerKind α).get k = ∅ :=
  get_const ∅ k

theorem get_set (p : PerKind α) (j k : ObjectKind) (a : α) :
    (p.set j a).get k = if j = k then a else p.get k := by
  cases j <;> cases k <;> rfl

theorem get_modify (p : PerKind α) (j k : ObjectKind) (f : α → α) :
    (p.modify j f).get k = if j = k then f (p.get k) else p.get k := by
  cases j <;> cases k <;> rfl

theorem ext_get {p q : PerKind α} (h : ∀ k, p.get k = q.get k) : p = q := by
  obtain ⟨⟩ := p
  obtain ⟨⟩ := q
  have h₁ := h .entity
  have h₂ := h .location
  have h₃ := h .policy
  have h₄ := h .enricher
  have h₅ := h .feed
  have h₆ := h .catalogItem
  simp_all [get]

end PerKind

end ManagementPlane
