import ManagementPlane.Plane.Scratch
import ManagementPlane.Proofs.Extension
import ManagementPlane.Proofs.Tables

/-!
# The shells of a pass are its own

* `Scratch.Sound n s p` : every shell was made by the pass, which found `n` objects, lies under its own kind and id,
  and is read-only just when all of them are;
* `Sound.extend`, `Sound.carry`, `Sound.register`, `Sound.unregister` : what a pass does keeps its shells sound;
* `Sound.shell_ext`, `Sound.mem_shells_iff`, `Sound.ids_shells` : the shells of a kind are told apart by their ids,
  and these are the keys of their table.
-/

namespace ManagementPlane.Scratch

variable {n : Nat} {s : Scratch} {p q : Plane} {k : ObjectKind} {id : String} {h : Handle}

/-- The shells of a pass that found `n` objects were made by it, and lie under their own kind and id. -/
structure Sound (n : Nat) (s : Scratch) (p : Plane) : Prop where
  size_le : n ≤ p.heap.size
  fresh : ∀ {k id h}, s.get? k id = some h → n ≤ h.index
  valid : ∀ {k id h}, s.get? k id = some h → p.heap.Valid h
  kind : ∀ {k id h}, s.get? k id = some h → (p.read h).kind = k
  id : ∀ {k id h}, s.get? k id = some h → (p.read h).id = id
  isReadOnly : ∀ k id, s.isReadOnly k id = (s.allReadOnly && s.contains k id)

/-! ## Lookups after a change -/

@[simp] theorem allReadOnly_register (s : Scratch) (p : Plane) (h : Handle) :
    (s.register p h).1.allReadOnly = s.allReadOnly := by
  unfold register
  split <;> rfl

theorem get?_register (s : Scratch) (p : Plane) (h : Handle) (k : ObjectKind) (id : String) :
    (s.register p h).1.get? k id =
      if (p.read h).kind = k ∧ (p.read h).id = id then some h else s.get? k id := by
  have hobjects : (s.register p h).1.objects =
      s.objects.modify (p.read h).kind fun m => m.insert (p.read h).id h := by
    unfold register
    split <;> rfl
  unfold get?
  rw [hobjects, PerKind.get_modify]
  by_cases hk : (p.read h).kind = k
  · rw [if_pos hk, OrderedMap.get?_insert]
    simp only [hk, true_and]
  · rw [if_neg hk, if_neg fun hc => hk hc.1]

theorem get?_unregister (s : Scratch) (k : ObjectKind) (id : String) (k' : ObjectKind) (id' : String) :
    (s.unregister k id).2.get? k' id' = if k = k' ∧ id = id' then none else s.get? k' id' := by
  unfold get? unregister
  rw [PerKind.get_modify]
  by_cases hk : k = k'
  · rw [if_pos hk, OrderedMap.get?_erase]
    simp only [hk, true_and]
  · rw [if_neg hk, if_neg fun hc => hk hc.1]

/-- A lookup after an object is registered finds that object or what was there before. -/
theorem get?_register_cases {a : Handle} (hg : (s.register p h).1.get? k id = some a) :
    (a = h ∧ (p.read h).kind = k ∧ (p.read h).id = id) ∨ s.get? k id = some a := by
  rw [get?_register] at hg
  split at hg
  · next hc => exact Or.inl ⟨(Option.some.inj hg).symm, hc⟩
  · exact Or.inr hg

theorem get?_of_unregister {k' : ObjectKind} {id' : String} {a : Handle}
    (hg : (s.unregister k id).2.get? k' id' = some a) : s.get? k' id' = some a := by
  rw [get?_unregister] at hg
  split at hg
  · cases hg
  · exact hg

theorem contains_eq_isSome (s : Scratch) (k : ObjectKind) (id : String) :
    s.contains k id = (s.get? k id).isSome := rfl

theorem isReadOnly_register (s : Scratch) (p : Plane) (h : Handle) (k : ObjectKind) (id : String) :
    (s.register p h).1.isReadOnly k id =
      (s.isReadOnly k id || s.allReadOnly && decide ((p.read h).kind = k ∧ (p.read h).id = id)) := by
  unfold register
  by_cases hall : s.allReadOnly = true
  · rw [if_pos hall]
    rw [Bool.eq_iff_iff]
    simp only [isReadOnly, hall, Bool.true_and, List.contains_iff_mem, List.mem_cons, List.mem_filter,
      decide_eq_true_eq, Bool.or_eq_true]
    grind
  · rw [if_neg hall]
    simp [isReadOnly, hall]

theorem isReadOnly_unregister (s : Scratch) (k : ObjectKind) (id : String) (k' : ObjectKind)
    (id' : String) : (s.unregister k id).2.isReadOnly k' id' =
      (s.isReadOnly k' id' && !decide (k = k' ∧ id = id')) := by
  rw [Bool.eq_iff_iff]
  simp only [isReadOnly, unregister, List.contains_iff_mem, List.mem_filter, decide_eq_true_eq,
    Bool.and_eq_true, Bool.not_eq_true', decide_eq_false_iff_not]
  grind

/-! ## What a pass does keeps its shells sound -/

theorem extends_register (hn : n ≤ h.index) (s : Scratch) (p : Plane) :
    Plane.Extends n p (s.register p h).2 := by
  unfold Scratch.register
  split
  · exact .modify hn (Object.sameIdentity_setReadOnly true _)
  · exact .refl n p

namespace Sound

/-- A pass that has no shells yet. -/
theorem empty (p : Plane) (allReadOnly : Bool) : Sound p.heap.size { allReadOnly } p := by
  have hnone : ∀ k id, ({ allReadOnly } : Scratch).get? k id = none := fun k id => by cases k <;> rfl
  have hempty : ∀ {k id h} {P : Prop}, ({ allReadOnly } : Scratch).get? k id = some h → P := fun hg => by
    rw [hnone] at hg
    cases hg
  refine ⟨Nat.le_refl _, hempty, hempty, hempty, hempty, fun k id => ?_⟩
  rw [contains_eq_isSome, hnone, Option.isSome_none, Bool.and_false]
  rfl

theorem extend (hs : s.Sound n p) (he : Plane.Extends n p q) : s.Sound n q where
  size_le := Nat.le_trans hs.size_le he.size_le
  fresh := hs.fresh
  valid hg := he.valid (hs.valid hg)
  kind hg := ((he.identity _ (hs.valid hg)).kind).trans (hs.kind hg)
  id hg := ((he.identity _ (hs.valid hg)).id).trans (hs.id hg)
  isReadOnly := hs.isReadOnly

/-- Objects may change if they keep their kinds and ids. -/
theorem carry (hs : s.Sound n p) (hsize : q.heap.size = p.heap.size) (hkind : ∀ a, (q.read a).kind = (p.read a).kind)
    (hid : ∀ a, (q.read a).id = (p.read a).id) : s.Sound n q where
  size_le := Nat.le_trans hs.size_le (Nat.le_of_eq hsize.symm)
  fresh := hs.fresh
  valid hg := Nat.lt_of_lt_of_eq (hs.valid hg) hsize.symm
  kind hg := (hkind _).trans (hs.kind hg)
  id hg := (hid _).trans (hs.id hg)
  isReadOnly := hs.isReadOnly

theorem of_heap (hs : s.Sound n p) (h : q.heap = p.heap) : s.Sound n q :=
  hs.carry (congrArg Heap.size h) (fun a => congrArg (fun heap : Heap => (heap.read a).kind) h)
    fun a => congrArg (fun heap : Heap => (heap.read a).id) h

theorem register (hs : s.Sound n p) (hn : n ≤ h.index) (hv : p.heap.Valid h) :
    (s.register p h).1.Sound n (s.register p h).2 := by
  have he := extends_register hn s p
  have hid : (p.read h).SameIdentity ((s.register p h).2.read h) := he.identity h hv
  have hold := hs.extend he
  exact {
    size_le := hold.size_le
    fresh := fun hg => by
      rcases get?_register_cases hg with ⟨rfl, -⟩ | hg
      · exact hn
      · exact hs.fresh hg
    valid := fun hg => by
      rcases get?_register_cases hg with ⟨rfl, -⟩ | hg
      · exact he.valid hv
      · exact hold.valid hg
    kind := fun hg => by
      rcases get?_register_cases hg with ⟨rfl, hk, -⟩ | hg
      · exact hid.kind.trans hk
      · exact hold.kind hg
    id := fun hg => by
      rcases get?_register_cases hg with ⟨rfl, -, hi⟩ | hg
      · exact hid.id.trans hi
      · exact hold.id hg
    isReadOnly := fun k id => by
      rw [isReadOnly_register, allReadOnly_register, hs.isReadOnly, contains_eq_isSome, contains_eq_isSome,
        get?_register]
      by_cases hc : (p.read h).kind = k ∧ (p.read h).id = id
      · simp only [hc, and_self, decide_true, if_true, Option.isSome_some]
        cases s.allReadOnly <;> simp
      · simp only [hc, decide_false, if_false, Bool.and_false, Bool.or_false] }

theorem unregister (hs : s.Sound n p) (k : ObjectKind) (id : String) : (s.unregister k id).2.Sound n p where
  size_le := hs.size_le
  fresh hg := hs.fresh (get?_of_unregister hg)
  valid hg := hs.valid (get?_of_unregister hg)
  kind hg := hs.kind (get?_of_unregister hg)
  id hg := hs.id (get?_of_unregister hg)
  isReadOnly k' id' := by
    rw [isReadOnly_unregister, hs.isReadOnly, contains_eq_isSome, contains_eq_isSome, get?_unregister]
    show _ = (s.allReadOnly && _)
    by_cases hc : k = k' ∧ id = id'
    · simp only [hc, and_self, decide_true, Bool.not_true, Bool.and_false, if_true, Option.isSome_none]
    · simp only [hc, decide_false, Bool.not_false, Bool.and_true, if_false]

/-! ## Shells by their ids -/

/-- Shells of one kind with one id are the same. -/
theorem shell_ext (hs : s.Sound n p) {a b : Handle} {i j : String} (ha : s.get? k i = some a)
    (hb : s.get? k j = some b) (hid : (p.read a).id = (p.read b).id) : a = b := by
  rw [hs.id ha, hs.id hb] at hid
  subst hid
  exact Option.some.inj (ha.symm.trans hb)

theorem mem_shells_iff (hs : s.Sound n p) : h ∈ s.shells k ↔ s.get? k (p.read h).id = some h := by
  unfold shells
  rw [OrderedMap.mem_values_iff]
  constructor
  · rintro ⟨id, hg⟩
    rw [hs.id hg]
    exact hg
  · exact fun hg => ⟨_, hg⟩

theorem exists_shell_iff (hs : s.Sound n p) :
    s.contains k id = true ↔ ∃ a ∈ s.shells k, (p.read a).id = id := by
  rw [contains_eq_isSome, Option.isSome_iff_exists]
  constructor
  · rintro ⟨a, ha⟩
    refine ⟨a, ?_, hs.id ha⟩
    rw [hs.mem_shells_iff, hs.id ha]
    exact ha
  · rintro ⟨a, ha, rfl⟩
    exact ⟨a, hs.mem_shells_iff.1 ha⟩

/-- The ids of the shells of a kind are the keys of their table. -/
theorem ids_shells (hs : s.Sound n p) (k : ObjectKind) :
    (s.shells k).map (fun h => (p.read h).id) = (s.objects.get k).keys := by
  unfold shells OrderedMap.values OrderedMap.keys
  rw [List.map_map]
  refine List.map_congr_left fun e he => ?_
  exact hs.id (k := k) (OrderedMap.get?_eq_some_iff.2 he)

theorem ids_shells_nodup (hs : s.Sound n p) (k : ObjectKind) :
    ((s.shells k).map fun h => (p.read h).id).Nodup := by
  rw [hs.ids_shells]
  exact OrderedMap.keys_nodup _

theorem shells_nodup (hs : s.Sound n p) (k : ObjectKind) : (s.shells k).Nodup :=
  List.Nodup.of_map _ (hs.ids_shells_nodup k)

end Sound

end ManagementPlane.Scratch
