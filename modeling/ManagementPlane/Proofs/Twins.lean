import ManagementPlane.Proofs.Building
import ManagementPlane.Proofs.Lockstep
import ManagementPlane.Proofs.Moving

/-!
# Live managers with the same new objects

Two passes begin with live managers that had `n` and `m` objects.

* `Plane.New n p a` : an object that was made since;
* `Plane.Twin n m p q` : what was made since is the same on both sides, and so are the catalogs. Nothing is said of what
  is managed;
* `Scratch.Twin n m s s'` : both sides have the same shells;
* `Plane.Twin.modify`, `Plane.Twin.adopt`, … : what passes do keeps both sides the same.
-/

namespace ManagementPlane

open Step (Alike)

/-! ## The relation -/

namespace Plane

/-- The object is one of those made since there were `n`. -/
def New (n : Nat) (p : Plane) (a : Handle) : Prop := n ≤ a.index ∧ p.heap.Valid a

/-- The same catalog item: under the same id and with the same contents. -/
def SameItem (p q : Plane) (a b : Handle) : Prop :=
  (q.read b).id = (p.read a).id ∧ (q.read b).item = (p.read a).item

/-- An object that has not changed shows the same item. -/
theorem SameItem.of_read {p q : Plane} {a : Handle} (h : q.read a = p.read a) : SameItem p q a a :=
  ⟨congrArg Object.id h, congrArg Object.item h⟩

/-- Catalog items that correspond: old ones that are the same, or new ones. -/
def ItemTwin (n m : Nat) (p q : Plane) (a b : Handle) : Prop :=
  (a.index < n ∧ b.index < m ∧ SameItem p q a b) ∨ (New n p a ∧ b = a.moved n m)

/-- What was made since there were `n` objects on one side and `m` on the other is the same, and has no adjuncts but such
objects. The catalogs have the same items. -/
structure Twin (n m : Nat) (p q : Plane) : Prop where
  le : n ≤ p.heap.size
  size : q.heap.size + n = p.heap.size + m
  read : ∀ a, New n p a → q.read (a.moved n m) = (p.read a).moved (Handle.moved n m)
  adjuncts : ∀ a, New n p a → ∀ k, ∀ b ∈ (p.read a).adjuncts k, New n p b
  catalog : OrderedMap.Pairs (ItemTwin n m p q) p.catalog.items q.catalog.items

end Plane

/-- The same shells, in the same order. -/
structure Scratch.Twin (n m : Nat) (s s' : Scratch) : Prop where
  objects : ∀ k, OrderedMap.Pairs (fun a b => b = a.moved n m) (s.objects.get k) (s'.objects.get k)
  readOnly : s'.readOnly = s.readOnly
  allReadOnly : s'.allReadOnly = s.allReadOnly

namespace Plane

variable {n m : Nat} {p q p' q' : Plane} {a b : Handle}

theorem New.of_size_le (ha : New n p a) (h : p.heap.size ≤ p'.heap.size) : New n p' a :=
  ⟨ha.1, Nat.lt_of_lt_of_le ha.2 h⟩

namespace Twin

theorem valid_moved (h : Twin n m p q) (ha : New n p a) : q.heap.Valid (a.moved n m) := by
  have hsize := h.size
  have hnew : n ≤ a.index ∧ a.index < p.heap.size := ha
  show a.index - n + m < q.heap.size
  omega

theorem next_moved (h : Twin n m p q) : p.heap.next.moved n m = q.heap.next := by
  have hsize := h.size
  have hle := h.le
  simp only [Handle.moved, Heap.next, Handle.mk.injEq]
  omega

theorem sameItem_of_new (h : Twin n m p q) (ha : New n p a) : SameItem p q a (a.moved n m) := by
  unfold SameItem
  rw [h.read a ha]
  exact ⟨Object.id_moved _ _, Object.item_moved _ _⟩

theorem sameItem (h : Twin n m p q) (hab : ItemTwin n m p q a b) : SameItem p q a b := by
  rcases hab with ⟨-, -, hab⟩ | ⟨ha, rfl⟩
  · exact hab
  · exact h.sameItem_of_new ha

/-! ## Changes -/

/-- Both sides may change as long as new objects are the same and old ones show the same items. -/
theorem change (h : Twin n m p q) (hp : p'.catalog = p.catalog) (hq : q'.catalog = q.catalog)
    (hle : p.heap.size ≤ p'.heap.size) (hsize : q'.heap.size + n = p'.heap.size + m)
    (hread : ∀ a, New n p' a → q'.read (a.moved n m) = (p'.read a).moved (Handle.moved n m))
    (hadjuncts : ∀ a, New n p' a → ∀ k, ∀ b ∈ (p'.read a).adjuncts k, New n p' b)
    (hold : ∀ a : Handle, a.index < n → SameItem p p' a a)
    (hold' : ∀ a : Handle, a.index < m → SameItem q q' a a) : Twin n m p' q' := by
  refine ⟨Nat.le_trans h.le hle, hsize, hread, hadjuncts, ?_⟩
  rw [hp, hq]
  refine h.catalog.imp fun a b hab => ?_
  rcases hab with ⟨ha, hb, hi, hc⟩ | ⟨ha, rfl⟩
  · refine Or.inl ⟨ha, hb, ?_, ?_⟩
    · rw [(hold' b hb).1, hi, (hold a ha).1]
    · rw [(hold' b hb).2, hc, (hold a ha).2]
  · exact Or.inr ⟨ha.of_size_le hle, rfl⟩

/-- What concerns neither objects nor the catalog may change. -/
theorem of_heap (h : Twin n m p q) (hp : p'.heap = p.heap) (hpc : p'.catalog = p.catalog)
    (hq : q'.heap = q.heap) (hqc : q'.catalog = q.catalog) : Twin n m p' q' := by
  have hpr : ∀ a, p'.read a = p.read a := fun a => by rw [Plane.read, hp, Plane.read]
  have hqr : ∀ a, q'.read a = q.read a := fun a => by rw [Plane.read, hq, Plane.read]
  have hnew : ∀ a, New n p' a ↔ New n p a := fun a => by rw [New, hp, New]
  refine h.change hpc hqc (Nat.le_of_eq (congrArg Heap.size hp.symm)) (by rw [hp, hq]; exact h.size)
    (fun a ha => ?_) (fun a ha k b hb => ?_) (fun a _ => .of_read (hpr a)) fun a _ => .of_read (hqr a)
  · rw [hpr, hqr]
    exact h.read a ((hnew a).1 ha)
  · rw [hpr] at hb
    exact (hnew b).2 (h.adjuncts a ((hnew a).1 ha) k b hb)

/-- A new object changes in the same way on both sides. -/
theorem modify (h : Twin n m p q) (ha : New n p a) {f g : Object → Object}
    (hfg : g ((p.read a).moved (Handle.moved n m)) = (f (p.read a)).moved (Handle.moved n m))
    (hadjuncts : ∀ k, ∀ b ∈ (f (p.read a)).adjuncts k, New n p b) :
    Twin n m (p.modify a f) (q.modify (a.moved n m) g) := by
  have hva := h.valid_moved ha
  have hne : ∀ b : Handle, b.index < n → a ≠ b := fun b hb he => by
    subst he
    exact absurd ha.1 (Nat.not_le_of_lt hb)
  have hne' : ∀ b : Handle, b.index < m → a.moved n m ≠ b := fun b hb he => by
    subst he
    exact absurd (Nat.le_add_left m _) (Nat.not_le_of_lt hb)
  refine h.change rfl rfl (Nat.le_refl _) h.size (fun b hb => ?_) (fun b hb k c hc => ?_)
    (fun b hb => .of_read (p.read_modify_of_ne (hne b hb) f)) fun b hb => .of_read (q.read_modify_of_ne (hne' b hb) g)
  · by_cases he : a = b
    · subst he
      rw [p.read_modify_self ha.2, q.read_modify_self hva, h.read a ha, hfg]
    · have he' : a.moved n m ≠ b.moved n m := fun hm => he ((Handle.moved_inj ha.1 hb.1).1 hm)
      rw [p.read_modify_of_ne he, q.read_modify_of_ne he']
      exact h.read b hb
  · by_cases he : a = b
    · subst he
      rw [p.read_modify_self ha.2] at hc
      exact hadjuncts k c hc
    · rw [p.read_modify_of_ne he] at hc
      exact h.adjuncts b hb k c hc

/-- The same object without adjuncts is made on both sides. -/
theorem adopt (h : Twin n m p q) {o : Object} (ho : ∀ k, o.adjuncts k = []) :
    Twin n m (p.adopt o).2 (q.adopt o).2 := by
  have hsize := h.size
  have hle := h.le
  refine h.change rfl rfl (Nat.le_succ _) ?_ (fun b hb => ?_) (fun b hb k c hc => ?_)
    (fun b hb => .of_read (read_adopt_of_valid (Nat.lt_of_lt_of_le hb h.le) o))
    fun b hb => .of_read (read_adopt_of_valid (show b.index < q.heap.size by omega) o)
  · show q.heap.size + 1 + n = p.heap.size + 1 + m
    omega
  · rcases Heap.valid_alloc.1 hb.2 with hv | rfl
    · rw [read_adopt_of_valid hv, read_adopt_of_valid (h.valid_moved ⟨hb.1, hv⟩)]
      exact h.read b ⟨hb.1, hv⟩
    · rw [h.next_moved, read_adopt_self, read_adopt_self, Object.moved_of_adjuncts ho]
  · rcases Heap.valid_alloc.1 hb.2 with hv | rfl
    · rw [read_adopt_of_valid hv] at hc
      exact (h.adjuncts b ⟨hb.1, hv⟩ k c hc).of_size_le (Nat.le_succ _)
    · rw [read_adopt_self, ho] at hc
      cases hc

/-! ## Populating and joining -/

theorem recordHook (h : Twin n m p q) (a b : Handle) (c c' : HookCall) :
    Twin n m (p.recordHook a c) (q.recordHook b c') := h.of_heap rfl rfl rfl rfl

/-- Populating a new object does the same on both sides if both find the same references. -/
theorem reconstruct (h : Twin n m p q) (ha : New n p a) {known known' : ObjectKind → String → Bool}
    {mem : Memento} (hknown : (p.read a).reconstruct known mem = (p.read a).reconstruct known' mem)
    (readOnly : Bool) :
    (p.reconstruct known readOnly a mem).1 = (q.reconstruct known' readOnly (a.moved n m) mem).1 ∧
      Twin n m (p.reconstruct known readOnly a mem).2
        (q.reconstruct known' readOnly (a.moved n m) mem).2 := by
  have hrec := h.recordHook a (a.moved n m) (.reconstruct mem.id readOnly) (.reconstruct mem.id readOnly)
  unfold Plane.reconstruct
  rw [h.read a ha]
  simp only [Object.kind_moved, Object.behaviour_moved, Object.reconstruct_moved, ← hknown]
  split
  · refine ⟨?_, h⟩
    cases (p.read a).reconstruct known mem <;> rfl
  · split
    · exact ⟨rfl, hrec⟩
    · rcases ho : (p.read a).reconstruct known mem with e | o
      · exact ⟨rfl, hrec⟩
      · refine ⟨rfl, hrec.modify ha rfl fun k b hb => ?_⟩
        rw [Object.adjuncts_of_reconstruct ho] at hb
        exact h.adjuncts a ha k b hb

theorem reconstructItem (h : Twin n m p q) (ha : New n p a) (i : CatalogItem) :
    (p.reconstructItem a i).1 = (q.reconstructItem (a.moved n m) i).1 ∧
      Twin n m (p.reconstructItem a i).2 (q.reconstructItem (a.moved n m) i).2 := by
  have hrec := h.recordHook a (a.moved n m) (.reconstructItem i.id) (.reconstructItem i.id)
  unfold Plane.reconstructItem
  rw [h.read a ha]
  simp only [Object.behaviour_moved]
  split
  · exact ⟨rfl, hrec⟩
  · refine ⟨rfl, hrec.modify ha (Object.reconstructItem_moved i _) fun k b hb => ?_⟩
    rw [Object.adjuncts_reconstructItem] at hb
    exact h.adjuncts a ha k b hb

theorem attach (h : Twin n m p q) (ha : New n p a) (entity : String) :
    (p.attach a entity).1 = (q.attach (a.moved n m) entity).1 ∧
      Twin n m (p.attach a entity).2 (q.attach (a.moved n m) entity).2 := by
  have hrec := h.recordHook a (a.moved n m) (.attach entity) (.attach entity)
  unfold Plane.attach
  rw [h.read a ha]
  simp only [Object.behaviour_moved, Object.attachTo_moved]
  split
  · exact ⟨rfl, hrec⟩
  · rcases ho : (p.read a).attachTo entity with e | o
    · exact ⟨rfl, hrec⟩
    · refine ⟨rfl, hrec.modify ha rfl fun k b hb => ?_⟩
      rw [Object.adjuncts_of_attachTo ho] at hb
      exact h.adjuncts a ha k b hb

theorem addAdjunct (h : Twin n m p q) (ha : New n p a) (hb : New n p b) (k : ObjectKind) :
    (p.addAdjunct a k b).1 = (q.addAdjunct (a.moved n m) k (b.moved n m)).1 ∧
      Twin n m (p.addAdjunct a k b).2 (q.addAdjunct (a.moved n m) k (b.moved n m)).2 := by
  obtain ⟨hres, htwin⟩ := h.attach hb (p.read a).id
  have hsize := (Extends.attach (n := 0) (p := p) (Nat.zero_le b.index) (p.read a).id).size_le
  unfold Plane.addAdjunct
  rw [h.read a ha, Object.id_moved]
  rcases hp : p.attach b (p.read a).id with ⟨r, p₁⟩
  rcases hq : q.attach (b.moved n m) (p.read a).id with ⟨r', q₁⟩
  rw [hp] at hres htwin hsize
  rw [hq] at hres htwin
  obtain rfl : r = r' := hres
  have ha₁ : New n p₁ a := ha.of_size_le hsize
  cases r with
  | error e => exact ⟨rfl, htwin⟩
  | ok u =>
    dsimp only
    rw [htwin.read a ha₁, Object.pushAdjunct_moved]
    rcases ho : (p₁.read a).pushAdjunct k b with e | o
    · exact ⟨rfl, htwin⟩
    · refine ⟨rfl, htwin.modify ha₁ rfl fun j c hc => ?_⟩
      rcases Object.mem_adjuncts_of_pushAdjunct ho hc with hc | rfl
      · exact htwin.adjuncts a ha₁ j c hc
      · exact hb.of_size_le hsize

/-! ## Making shells -/

theorem preManage (h : Twin n m p q) (a b : Handle) : Twin n m (p.preManage a) (q.preManage b) := by
  have hcat : ∀ (p : Plane) a, (p.preManage a).catalog = p.catalog := fun p a => by
    unfold Plane.preManage
    dsimp only
    split <;> rfl
  exact h.of_heap (heap_preManage _ _) (hcat _ _) (heap_preManage _ _) (hcat _ _)

theorem construct (h : Twin n m p q) (k : ObjectKind) (d : TypeDescriptor) (id : String)
    (candidates : List ConstructorArgs) :
    (Instantiator.construct k d id candidates p).1 = (Instantiator.construct k d id candidates q).1 ∧
      Twin n m (Instantiator.construct k d id candidates p).2
        (Instantiator.construct k d id candidates q).2 := by
  unfold Instantiator.construct
  split
  · exact ⟨rfl, h.of_heap rfl rfl rfl rfl⟩
  · split
    · exact ⟨rfl, h.of_heap rfl rfl rfl rfl⟩
    · exact ⟨rfl, h⟩

/-- The same shell is made on both sides, or neither can make it. -/
theorem makeLoaded (h : Twin n m p q) {types : TypeRegistry} (htypes : types.GivesNone)
    {d : Except ObjectError TypeDescriptor} {k : ObjectKind} {id : String} {candidates : List ConstructorArgs}
    (hd : Instantiator.Asked types k id candidates d) (item : Option String) :
    Alike (Twin n m) (fun a b => b = a.moved n m) (Instantiator.makeLoaded k d id item candidates p)
      (Instantiator.makeLoaded k d id item candidates q) := by
  cases d with
  | error e => exact .error h
  | ok d =>
    obtain ⟨hres, htwin⟩ := h.construct k d id candidates
    unfold Instantiator.makeLoaded
    dsimp only
    unfold Instantiator.make
    rcases hp : Instantiator.construct k d id candidates p with ⟨r, p₁⟩
    rcases hq : Instantiator.construct k d id candidates q with ⟨r', q₁⟩
    rw [hp] at hres htwin
    rw [hq] at hres htwin
    obtain rfl : r = r' := hres
    cases r with
    | error e => exact .error htwin
    | ok o =>
      have hbare := htypes.adjuncts (hd.type d rfl).1 (Instantiator.makes_of_construct hd hp)
      have hadopt := htwin.adopt (o := { o with id, catalogItemId := item.or o.catalogItemId })
        fun k => hbare k
      exact .ok htwin.next_moved.symm (hadopt.preManage _ _)

end Twin

end Plane

end ManagementPlane
