import ManagementPlane.Proofs.Settling

/-!
# What the registries say of their objects

A registry keeps an object under an id, with the transition that it was managed with last. The object itself knows its
id, and whether it is read-only.

* `Registered.Agrees` : an entry and its object say the same;
* `Plane.RegistriesAgree` : so do all entries of entities and of locations;
* `Plane.HasObject p k h` : the handle names an object of kind `k`;
* `Plane.Tidy p q` : from `p` to `q` objects keep their identity, and registries that agreed do so still;
* `Plane.Tidy.carry` : so it is where objects come and entries go;
* `Plane.Tidy.manageWith`, `Plane.Tidy.manageTree` : managing objects sets the mode and the object alike;
* `RegistriesAgree.hasPrimary_iff` : so the modes tell whether an object that is not read-only is managed.
-/

namespace ManagementPlane

theorem ObjectKind.Registered.eq_of_iff {j k : ObjectKind} (hj : j.Registered) (hk : k.Registered)
    (h : j = .location ↔ k = .location) : j = k := by
  rcases hj with rfl | rfl <;> rcases hk with rfl | rfl <;> simp_all

/-- What an entry under an id in the registry of kind `k` says of its object is so. -/
structure Registered.Agrees (e : Registered) (p : Plane) (k : ObjectKind) (id : String) : Prop where
  valid : p.heap.Valid e.object
  kind : (p.read e.object).kind = k
  id : (p.read e.object).id = id
  readOnly : (p.read e.object).readOnly = e.mode.isReadOnly

namespace Plane

variable {p q r : Plane} {k : ObjectKind} {h : Handle}

/-- Every entry lies under the id of its object, which is of the kind of the registry, and read-only just if the mode
of the entry is a read-only one. -/
def RegistriesAgree (p : Plane) : Prop :=
  ∀ k, k.Registered → ∀ id e, (p.registry k).objects.get? id = some e → e.Agrees p k id

theorem registriesAgree_empty : ({} : Plane).RegistriesAgree := by
  rintro k (rfl | rfl) id e he <;> cases he

/-- The modes of the entries tell whether an object that is not read-only is managed. -/
theorem RegistriesAgree.hasPrimary_iff (hp : p.RegistriesAgree) (hk : k.Registered) :
    (p.registry k).hasPrimary p.heap = true ↔
      ∃ id e, (p.registry k).objects.get? id = some e ∧ e.mode.isReadOnly = false := by
  simp only [Registry.hasPrimary, List.any_eq_true, OrderedMap.mem_values_iff, Bool.not_eq_true']
  constructor
  · rintro ⟨e, ⟨id, he⟩, hprimary⟩
    exact ⟨id, e, he, (hp k hk id e he).readOnly.symm.trans hprimary⟩
  · rintro ⟨id, e, he, hprimary⟩
    exact ⟨e, ⟨id, he⟩, (hp k hk id e he).readOnly.trans hprimary⟩

/-- The handle names an object of kind `k`. -/
structure HasObject (p : Plane) (k : ObjectKind) (h : Handle) : Prop where
  valid : p.heap.Valid h
  kind : (p.read h).kind = k

/-- The entry that an object gets when it is managed agrees with it. -/
theorem agrees_manageWith_self (hh : p.HasObject k h) (t : Transition) :
    (Registered.mk h t).Agrees (p.manageWith k h t).2 k (p.read h).id := by
  have hread : (p.manageWith k h t).2.read h = (p.read h).managedWith t := by
    rw [read_manageWith p k t hh.valid, if_pos rfl]
  refine ⟨Nat.lt_of_lt_of_eq hh.valid (size_manageWith p k h t).symm, ?_, ?_, ?_⟩
  · rw [hread, Object.kind_managedWith, hh.kind]
  · rw [hread, Object.id_managedWith]
  · rw [hread, Object.readOnly_managedWith]

/-- Other objects are as they were, and so are their entries. -/
theorem agrees_manageWith_of_ne {j : ObjectKind} {id : String} {e : Registered} (he : e.Agrees p j id)
    (hv : p.heap.Valid h) (hne : e.object ≠ h) (k : ObjectKind) (t : Transition) :
    e.Agrees (p.manageWith k h t).2 j id := by
  have hread : (p.manageWith k h t).2.read e.object = p.read e.object := by
    rw [read_manageWith p k t hv, if_neg hne]
  exact ⟨Nat.lt_of_lt_of_eq he.valid (size_manageWith p k h t).symm, hread ▸ he.kind, hread ▸ he.id, hread ▸ he.readOnly⟩

/-! ## What keeps the registries in agreement -/

/-- From `p` to `q` objects keep their identity, and registries that agree with their objects do so still. -/
structure Tidy (p q : Plane) : Prop where
  hasObject : ∀ {k h}, p.HasObject k h → q.HasObject k h
  identity : ∀ a, p.heap.Valid a → (p.read a).SameIdentity (q.read a)
  agree : p.RegistriesAgree → q.RegistriesAgree

namespace Tidy

theorem refl (p : Plane) : Tidy p p := ⟨id, fun _ _ => .refl _, id⟩

theorem valid (h : Tidy p q) {a : Handle} (ha : p.heap.Valid a) : q.heap.Valid a := (h.hasObject ⟨ha, rfl⟩).valid

theorem trans (h₁ : Tidy p q) (h₂ : Tidy q r) : Tidy p r where
  hasObject := h₂.hasObject ∘ h₁.hasObject
  identity a ha := (h₁.identity a ha).trans (h₂.identity a (h₁.valid ha))
  agree := h₂.agree ∘ h₁.agree

/-- Objects may come, and entries may go, if the objects that were there keep what the registries say of them. -/
theorem carry (hsize : p.heap.size ≤ q.heap.size)
    (hread : ∀ a, p.heap.Valid a →
      (p.read a).SameIdentity (q.read a) ∧ (q.read a).readOnly = (p.read a).readOnly)
    (hentries : ∀ k id e, (q.registry k).objects.get? id = some e → (p.registry k).objects.get? id = some e) :
    Tidy p q where
  hasObject hh := ⟨Nat.lt_of_lt_of_le hh.valid hsize, (hread _ hh.valid).1.kind.trans hh.kind⟩
  identity a ha := (hread a ha).1
  agree hp k hk id e he := by
    have hold := hp k hk id e (hentries k id e he)
    obtain ⟨hsame, hreadOnly⟩ := hread e.object hold.valid
    exact ⟨Nat.lt_of_lt_of_le hold.valid hsize, hsame.kind.trans hold.kind, hsame.id.trans hold.id,
      hreadOnly.trans hold.readOnly⟩

/-- The objects are the same, and so are the entries of each registry. -/
theorem of_objects (hheap : q.heap = p.heap) (hobjects : ∀ k, (q.registry k).objects = (p.registry k).objects) :
    Tidy p q := by
  have hread : ∀ a, q.read a = p.read a := fun a => by rw [Plane.read, hheap, Plane.read]
  refine carry (Nat.le_of_eq (congrArg Heap.size hheap.symm)) (fun a _ => ?_) fun k id e he => ?_
  · rw [hread]
    exact ⟨.refl _, rfl⟩
  · rwa [hobjects] at he

theorem of_extends (h : Extends p.heap.size p q) : Tidy p q :=
  carry h.size_le (fun a ha => ⟨h.identity a ha, congrArg Object.readOnly (h.read_old a ha)⟩) fun k id e he => by
    rwa [h.registry] at he

theorem of_told (h : Told p q) : Tidy p q :=
  of_objects h.heap fun k => congrArg Registry.objects (h.registry k)

/-- Another table of noted transitions. -/
theorem setPending (p : Plane) (k : ObjectKind) (pending : OrderedMap String Transition) :
    Tidy p (p.setRegistry k { p.registry k with pending }) := by
  refine of_objects (heap_setRegistry _ _ _) fun j => ?_
  rw [registry_setRegistry]
  split
  · next hj => rw [p.registry_eq_of_iff hj]
  · rfl

/-- An object is managed: its entry and the object itself are set alike. -/
theorem manageWith (hk : k.Registered) (hh : p.HasObject k h) (t : Transition) : Tidy p (p.manageWith k h t).2 where
  hasObject {j a} ha := by
    refine ⟨Nat.lt_of_lt_of_eq ha.valid (size_manageWith p k h t).symm, ?_⟩
    rw [p.read_manageWith k t hh.valid a]
    split
    · exact (Object.kind_managedWith t _).trans ha.kind
    · exact ha.kind
  identity a _ := by
    rw [p.read_manageWith k t hh.valid a]
    split
    · exact ⟨Object.id_managedWith t _, Object.kind_managedWith t _⟩
    · exact .refl _
  agree hp j hj id e he := by
    rw [registry_manageWith] at he
    by_cases hjk : j = .location ↔ k = .location
    · obtain rfl := hj.eq_of_iff hk hjk
      rw [if_pos Iff.rfl, OrderedMap.get?_insert] at he
      split at he
      · next hid =>
        obtain rfl := Option.some.inj he
        exact hid ▸ agrees_manageWith_self hh t
      · next hid =>
        have hold := hp j hj id e he
        exact agrees_manageWith_of_ne hold hh.valid (fun hne => hid (hne ▸ hold.id)) j t
    · rw [if_neg hjk] at he
      have hold := hp j hj id e he
      -- the entry is in the other registry, so that its object is of another kind
      refine agrees_manageWith_of_ne hold hh.valid (fun hne => hjk ?_) k t
      rw [← hold.kind, hne, hh.kind]

theorem manageNoted (hk : k.Registered) (hh : p.HasObject k h) : Tidy p (p.manageNoted k h).2 := by
  have hused := setPending p k ((p.registry k).pending.erase (p.read h).id)
  exact hused.trans (manageWith hk (hused.hasObject hh) _)

/-- Objects of one kind are managed in order. -/
theorem manageAll (hk : k.Registered) {order : List Handle} (horder : ∀ a ∈ order, p.HasObject k a) :
    Tidy p (Plane.manageAll k order p).2 := by
  induction order generalizing p with
  | nil => exact refl p
  | cons a order ih =>
    have hone : Tidy p (p.manageNoted k a).2 := manageNoted hk (horder a List.mem_cons_self)
    exact hone.trans (ih fun b hb => hone.hasObject (horder b (List.mem_cons_of_mem _ hb)))

/-- An object is managed with everything below it. -/
theorem manageTree (hk : k.Registered) {children : OrderedMap String (List Handle)} {root : Handle}
    (hroot : p.HasObject k root)
    (hchildren : ∀ id l, children.get? id = some l → ∀ a ∈ l, p.HasObject k a) :
    Tidy p (p.manageTree k children root).2 := by
  rw [snd_manageTree]
  refine manageAll hk fun a ha => ?_
  obtain ⟨l₁, l₂, hsplit⟩ := List.append_of_mem ha
  rcases p.treeOrder_origin children hsplit with rfl | ⟨b, -, hb⟩
  · exact hroot
  · rcases hl : children.get? (p.read b).id with _ | l
    · simp [Child, Under, childrenIn, hl] at hb
    · have hmem : a ∈ l := by simpa [Child, Under, childrenIn, hl] using hb
      exact hchildren _ l hl a hmem

/-- An entry goes. -/
theorem without (p : Plane) (k : ObjectKind) (id : String) : Tidy p (p.without k id) := by
  refine carry (Nat.le_of_eq (congrArg Heap.size (heap_setRegistry _ _ _).symm)) (fun a _ => ?_) fun j id' e he => ?_
  · rw [Plane.without, read_setRegistry]
    exact ⟨.refl _, rfl⟩
  · rw [Plane.without, registry_setRegistry] at he
    split at he
    · next hj =>
      rw [OrderedMap.get?_erase, ← p.registry_eq_of_iff hj] at he
      split at he
      · cases he
      · exact he
    · exact he

/-- An object is told of a transition; this says nothing of its kind and id, and whether it is read-only. -/
theorem noteManaged (p : Plane) (h : Handle) (c : HookCall) (t : Option Transition) :
    Tidy p ((p.recordHook h c).modify h (Object.noteManaged t)) := by
  refine carry (Nat.le_refl _) (fun a _ => ?_) fun j id e he => by simpa using he
  rcases (p.recordHook h c).read_modify_cases h (Object.noteManaged t) a with ha | ⟨-, ha⟩ <;>
    rw [ha, read_recordHook]
  · exact ⟨.refl _, rfl⟩
  · exact ⟨Object.sameIdentity_noteManaged t _, rfl⟩

theorem unmanage (p : Plane) (k : ObjectKind) (id : String) (t : Transition) : Tidy p (p.unmanage k id t).2 :=
  unmanage_induction (without p k id) fun _ => (without p k id).trans (noteManaged _ _ _ _)

theorem dropAll (k : ObjectKind) (ids : List String) (p : Plane) : Tidy p (Pass.dropAll k ids p) :=
  List.foldlRecOn ids _ (refl p) fun q hq id _ => hq.trans (unmanage q k id .rebindingDestroyed)

theorem release (p : Plane) : Tidy p (Pass.release p) := by
  refine of_objects rfl fun k => ?_
  cases k <;> rfl

end Tidy

end Plane

end ManagementPlane
