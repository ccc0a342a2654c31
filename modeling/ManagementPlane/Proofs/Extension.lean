import ManagementPlane.Plane.Instantiation
import ManagementPlane.Proofs.Identity

/-!
# Live managers that only grow

* `Event.managed?`, `Event.unmanaged?`, `Plane.managedCalls`, `Plane.unmanagedCalls` : the hook calls by which objects
  enter and leave management, in order;
* `Plane.Extends n p q` : from `p` to `q` objects were made and the objects numbered from `n` on were changed, each
  keeping its identity; the registries and the objects numbered below `n` are as they were, and no object
  entered or left management;
* `Extends.modify`, `Extends.adopt`, … : what making, populating and joining objects do is such an extension;
* `Plane.Made` : what making a shell ends in.
-/

namespace ManagementPlane

/-! ## Calls on record -/

/-- The object of kind `k` that came under management, with the transition its hook was given. -/
def Event.managed? (k : ObjectKind) : Event → Option (Handle × Transition)
  | .hook _ h k' _ (.managed t) => if k' = k then some (h, t) else none
  | _ => none

/-- The object that left management, with the transition its hook was given. -/
def Event.unmanaged? : Event → Option (Handle × Transition)
  | .hook _ h _ _ (.unmanaged t) => some (h, t)
  | _ => none

/-- Nothing enters or leaves management by this event. -/
def Event.Quiet (e : Event) : Prop := (∀ k, e.managed? k = none) ∧ e.unmanaged? = none

/-- No object lies where the heap ends. -/
theorem Heap.Valid.ne_next {heap : Heap} {h : Handle} (hv : heap.Valid h) : h ≠ heap.next := by
  rintro rfl
  exact Nat.lt_irrefl _ hv

namespace Plane

/-- The calls by which objects of kind `k` came under management, in order. -/
def managedCalls (p : Plane) (k : ObjectKind) : List (Handle × Transition) :=
  p.events.filterMap (Event.managed? k)

/-- The calls by which objects left management, in order. -/
def unmanagedCalls (p : Plane) : List (Handle × Transition) := p.events.filterMap Event.unmanaged?

theorem managedCalls_record (p : Plane) (e : Event) (k : ObjectKind) :
    (p.record e).managedCalls k = p.managedCalls k ++ (e.managed? k).toList := by
  unfold managedCalls
  rw [events_record, List.filterMap_append]
  cases h : e.managed? k <;> simp [h]

theorem unmanagedCalls_record (p : Plane) (e : Event) :
    (p.record e).unmanagedCalls = p.unmanagedCalls ++ e.unmanaged?.toList := by
  unfold unmanagedCalls
  rw [events_record, List.filterMap_append]
  cases h : e.unmanaged? <;> simp [h]

@[simp] theorem heap_modify (p : Plane) (h : Handle) (f : Object → Object) :
    (p.modify h f).heap = p.heap.modify h f := rfl

@[simp] theorem read_recordHook (p : Plane) (h h' : Handle) (c : HookCall) :
    (p.recordHook h c).read h' = p.read h' := rfl

@[simp] theorem heap_recordHook (p : Plane) (h : Handle) (c : HookCall) :
    (p.recordHook h c).heap = p.heap := rfl

theorem read_modify_of_ne (p : Plane) {h h' : Handle} (hne : h ≠ h') (f : Object → Object) :
    (p.modify h f).read h' = p.read h' := p.heap.read_modify_of_ne hne f

theorem read_modify_self (p : Plane) {h : Handle} (hv : p.heap.Valid h) (f : Object → Object) :
    (p.modify h f).read h = f (p.read h) := p.heap.read_modify_self hv f

/-- A change of an object shows there, if the object is in the heap, and nowhere else. -/
theorem read_modify_cases (p : Plane) (h : Handle) (f : Object → Object) (a : Handle) :
    (p.modify h f).read a = p.read a ∨ a = h ∧ (p.modify h f).read a = f (p.read a) := by
  by_cases ha : a = h
  · subst ha
    by_cases hv : p.heap.Valid a
    · exact Or.inr ⟨rfl, p.read_modify_self hv f⟩
    · -- a handle that names no object reads as before
      have hnone : ∀ heap : Heap, ¬heap.Valid a → heap.read a = .blank .entity "" "" := fun heap hn =>
        Std.TreeMap.getD_eq_fallback fun hm => hn ((heap.mem_cells_iff _).1 hm)
      exact Or.inl ((hnone (p.heap.modify a f) hv).trans (hnone p.heap hv).symm)
  · exact Or.inl (p.read_modify_of_ne (Ne.symm ha) f)

/-- An object that has been adopted lies where the heap ended. -/
theorem read_adopt_self (p : Plane) (o : Object) : (p.adopt o).2.read p.heap.next = o :=
  (p.heap.read_alloc o _).trans (if_pos rfl)

theorem read_adopt_of_valid {p : Plane} {h : Handle} (hv : p.heap.Valid h) (o : Object) :
    (p.adopt o).2.read h = p.read h := (p.heap.read_alloc o h).trans (if_neg hv.ne_next)

/-! ## Extensions -/

/-- From `p` to `q` objects were made, and objects numbered from `n` on were changed but kept their
identity. Nothing entered or left management. -/
structure Extends (n : Nat) (p q : Plane) : Prop where
  entities : q.entities = p.entities
  locations : q.locations = p.locations
  size_le : p.heap.size ≤ q.heap.size
  read_old : ∀ h : Handle, h.index < n → q.read h = p.read h
  identity : ∀ h, p.heap.Valid h → (p.read h).SameIdentity (q.read h)
  managedCalls : ∀ k, q.managedCalls k = p.managedCalls k
  unmanagedCalls : q.unmanagedCalls = p.unmanagedCalls

namespace Extends

variable {n : Nat} {p q r : Plane}

theorem refl (n : Nat) (p : Plane) : Extends n p p :=
  ⟨rfl, rfl, Nat.le_refl _, fun _ _ => rfl, fun _ _ => .refl _, fun _ => rfl, rfl⟩

theorem trans (h₁ : Extends n p q) (h₂ : Extends n q r) : Extends n p r where
  entities := h₂.entities.trans h₁.entities
  locations := h₂.locations.trans h₁.locations
  size_le := Nat.le_trans h₁.size_le h₂.size_le
  read_old h hn := (h₂.read_old h hn).trans (h₁.read_old h hn)
  identity h hv := (h₁.identity h hv).trans (h₂.identity h (Nat.lt_of_lt_of_le hv h₁.size_le))
  managedCalls k := (h₂.managedCalls k).trans (h₁.managedCalls k)
  unmanagedCalls := h₂.unmanagedCalls.trans h₁.unmanagedCalls

theorem registry (h : Extends n p q) (k : ObjectKind) : q.registry k = p.registry k := by
  cases k <;> simp only [Plane.registry, h.entities, h.locations]

theorem valid (h : Extends n p q) {a : Handle} (ha : p.heap.Valid a) : q.heap.Valid a :=
  Nat.lt_of_lt_of_le ha h.size_le

theorem record {e : Event} (he : e.Quiet) (n : Nat) (p : Plane) : Extends n p (p.record e) where
  entities := rfl
  locations := rfl
  size_le := Nat.le_refl _
  read_old _ _ := rfl
  identity _ _ := .refl _
  managedCalls k := by rw [managedCalls_record, he.1 k, Option.toList_none, List.append_nil]
  unmanagedCalls := by rw [unmanagedCalls_record, he.2, Option.toList_none, List.append_nil]

/-- Changing an object numbered from `n` on. -/
theorem modify {h : Handle} (hn : n ≤ h.index) {f : Object → Object}
    (hf : (p.read h).SameIdentity (f (p.read h))) : Extends n p (p.modify h f) where
  entities := rfl
  locations := rfl
  size_le := Nat.le_refl _
  read_old h' hh := p.read_modify_of_ne (fun he => by subst he; omega) f
  identity h' hv := by
    by_cases he : h = h'
    · subst he
      rw [p.read_modify_self hv]
      exact hf
    · rw [p.read_modify_of_ne he]
      exact .refl _
  managedCalls _ := rfl
  unmanagedCalls := rfl

theorem setPreManaged (l : List (ObjectKind × String)) : Extends n p { p with preManaged := l } :=
  ⟨rfl, rfl, Nat.le_refl _, fun _ _ => rfl, fun _ _ => .refl _, fun _ => rfl, rfl⟩

theorem setCatalog (c : Catalog) : Extends n p { p with catalog := c } :=
  ⟨rfl, rfl, Nat.le_refl _, fun _ _ => rfl, fun _ _ => .refl _, fun _ => rfl, rfl⟩

theorem adopt (hn : n ≤ p.heap.size) (o : Object) : Extends n p (p.adopt o).2 where
  entities := rfl
  locations := rfl
  size_le := Nat.le_succ _
  read_old _ hh := read_adopt_of_valid (Nat.lt_of_lt_of_le hh hn) o
  identity h hv := by
    rw [read_adopt_of_valid hv]
    exact .refl _
  managedCalls _ := rfl
  unmanagedCalls := rfl

theorem recordHook (h : Handle) {c : HookCall} (hm : ∀ t, c ≠ .managed t)
    (hu : ∀ t, c ≠ .unmanaged t) : Extends n p (p.recordHook h c) := by
  refine record ⟨fun k => ?_, ?_⟩ n p
  · cases c <;> first | rfl | exact absurd rfl (hm _)
  · cases c <;> first | rfl | exact absurd rfl (hu _)

/-! ### Populating and joining -/

theorem reconstruct (known : ObjectKind → String → Bool) (readOnly : Bool) {h : Handle} (hn : n ≤ h.index)
    (m : Memento) : Extends n p (p.reconstruct known readOnly h m).2 := by
  have hrec : Extends n p (p.recordHook h (.reconstruct m.id readOnly)) :=
    recordHook h (fun _ => nofun) (fun _ => nofun)
  unfold Plane.reconstruct
  dsimp only
  split
  · exact .refl n p
  · split
    · exact hrec
    · split
      · next o ho => exact hrec.trans (modify hn (Object.sameIdentity_of_reconstruct ho))
      · exact hrec

theorem reconstructItem {h : Handle} (hn : n ≤ h.index) (i : CatalogItem) :
    Extends n p (p.reconstructItem h i).2 := by
  have hrec : Extends n p (p.recordHook h (.reconstructItem i.id)) :=
    recordHook h (fun _ => nofun) (fun _ => nofun)
  unfold Plane.reconstructItem
  dsimp only
  split
  · exact hrec
  · exact hrec.trans (modify hn (Object.sameIdentity_reconstructItem i _))

theorem attach {adjunct : Handle} (hn : n ≤ adjunct.index) (entity : String) :
    Extends n p (p.attach adjunct entity).2 := by
  have hrec : Extends n p (p.recordHook adjunct (.attach entity)) :=
    recordHook adjunct (fun _ => nofun) (fun _ => nofun)
  unfold Plane.attach
  dsimp only
  split
  · exact hrec
  · split
    · next o ho => exact hrec.trans (modify hn (Object.sameIdentity_of_attachTo ho))
    · exact hrec

theorem addAdjunct {entity adjunct : Handle} (he : n ≤ entity.index) (ha : n ≤ adjunct.index)
    (k : ObjectKind) : Extends n p (p.addAdjunct entity k adjunct).2 := by
  have hatt : Extends n p (p.attach adjunct (p.read entity).id).2 := attach ha _
  unfold Plane.addAdjunct
  rcases h : p.attach adjunct (p.read entity).id with ⟨_ | _, q⟩
  · rw [h] at hatt
    exact hatt
  · rw [h] at hatt
    dsimp only
    split
    · next o ho => exact hatt.trans (modify he (Object.sameIdentity_of_pushAdjunct ho))
    · exact hatt

end Extends

/-! ## Making shells -/

/-- What making a shell of an id ends in: a new object of that id behind all others, or no new object. -/
def Made (n : Nat) (id : String) (p : Plane) : Except ObjectError Handle × Plane → Prop
  | (.error _, q) => Extends n p q
  | (.ok h, q) => Extends n p q ∧ h = p.heap.next ∧ q.heap.Valid h ∧ (q.read h).id = id

theorem Extends.preManage {n : Nat} (p : Plane) (h : Handle) : Extends n p (p.preManage h) := by
  unfold Plane.preManage
  dsimp only
  split
  · exact .refl n p
  · exact .setPreManaged _

@[simp] theorem heap_preManage (p : Plane) (h : Handle) : (p.preManage h).heap = p.heap := by
  unfold preManage
  dsimp only
  split <;> rfl

end Plane

namespace Instantiator

open Plane

theorem extends_construct (n : Nat) (k : ObjectKind) (d : TypeDescriptor) (id : String)
    (candidates : List ConstructorArgs) (p : Plane) :
    Extends n p (construct k d id candidates p).2 ∧ (construct k d id candidates p).2.heap = p.heap := by
  unfold construct
  split
  · exact ⟨.record ⟨fun _ => rfl, rfl⟩ n p, rfl⟩
  · split
    · exact ⟨.record ⟨fun _ => rfl, rfl⟩ n p, rfl⟩
    · exact ⟨.refl n p, rfl⟩

theorem made_make {n : Nat} {p : Plane} (hn : n ≤ p.heap.size) (k : ObjectKind) (d : TypeDescriptor)
    (id : String) (item : Option String) (candidates : List ConstructorArgs) :
    Made n id p (make k d id item candidates p) := by
  obtain ⟨hext, hheap⟩ := extends_construct n k d id candidates p
  unfold make
  rcases hc : construct k d id candidates p with ⟨_ | o, q⟩
  · rw [hc] at hext
    exact hext
  · rw [hc] at hext hheap
    dsimp only at hext hheap ⊢
    let o' : Object := { o with id, catalogItemId := item.or o.catalogItemId }
    have hread : (q.adopt o').2.read (q.adopt o').1 = o' := q.read_adopt_self o'
    refine ⟨hext.trans ((Extends.adopt (hheap ▸ hn) o').trans (.preManage _ _)), ?_, ?_, ?_⟩
    · exact congrArg Heap.next hheap
    · show ((q.adopt o').2.preManage _).heap.Valid _
      rw [heap_preManage]
      exact Nat.lt_succ_self _
    · show (((q.adopt o').2.preManage _).heap.read _).id = id
      rw [heap_preManage]
      exact congrArg Object.id hread

theorem made_makeLoaded {n : Nat} {p : Plane} (hn : n ≤ p.heap.size) (k : ObjectKind)
    (d : Except ObjectError TypeDescriptor) (id : String) (item : Option String)
    (candidates : List ConstructorArgs) : Made n id p (makeLoaded k d id item candidates p) := by
  cases d with
  | error e => exact .refl n p
  | ok d => exact made_make hn k d id item candidates

end Instantiator

end ManagementPlane
