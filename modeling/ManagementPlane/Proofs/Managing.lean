import ManagementPlane.Pass.Management
import ManagementPlane.Proofs.Extension
import ManagementPlane.Proofs.Tables
import Mathlib.Logic.Relation

/-!
# Managing and dropping objects in order

* `Object.managedWith` : an object once it has been managed; only the last time counts;
* `Object.Restamped` : what managing and dropping leave of an object;
* `Plane.callsIn` : the calls by which objects are managed in order;
* `Plane.Managed k order p q` : `q` is `p` after the objects in `order` were managed with the transitions noted for
  them. A noted transition is used up, so an object that comes up again is managed with the fallback;
* `Managed.append` : how two such runs make one;
* `Plane.managed_manageAll` : `manageAll` is such a run;
* `Plane.Dropped k ids p q` : `q` is `p` after the ids were dropped from management;
* `Plane.Handling p q` : one object is managed or dropped, and `Plane.handlings_manageTree`, `Plane.handlings_dropAll` : this
  is all that is done when trees are managed and ids are dropped.
-/

namespace ManagementPlane

/-! ## Objects once they are managed -/

namespace Object

/-- The object once it has been managed with a transition. -/
def managedWith (t : Transition) (o : Object) : Object :=
  (o.setReadOnly t.isReadOnly).noteManaged (some t)

@[simp] theorem id_managedWith (t : Transition) (o : Object) : (o.managedWith t).id = o.id := rfl

@[simp] theorem readOnly_managedWith (t : Transition) (o : Object) :
    (o.managedWith t).readOnly = t.isReadOnly := rfl

@[simp] theorem kind_managedWith (t : Transition) (o : Object) : (o.managedWith t).kind = o.kind :=
  (sameIdentity_noteManaged (some t) (o.setReadOnly t.isReadOnly)).kind

@[simp] theorem parent_noteManaged (t : Option Transition) (o : Object) :
    (o.noteManaged t).parent = o.parent := by
  unfold noteManaged parent
  cases o.body <;> rfl

@[simp] theorem children_noteManaged (t : Option Transition) (o : Object) :
    (o.noteManaged t).children = o.children := by
  unfold noteManaged children
  cases o.body <;> rfl

@[simp] theorem parent_managedWith (t : Transition) (o : Object) :
    (o.managedWith t).parent = o.parent := parent_noteManaged _ _

@[simp] theorem children_managedWith (t : Transition) (o : Object) :
    (o.managedWith t).children = o.children := children_noteManaged _ _

@[simp] theorem noteManaged_noteManaged (t t' : Option Transition) (o : Object) :
    (o.noteManaged t).noteManaged t' = o.noteManaged t' := by
  obtain ⟨id, type, item, readOnly, behaviour, body⟩ := o
  cases body <;> rfl

/-- Only the last time an object was managed counts. -/
@[simp] theorem managedWith_managedWith (t t' : Transition) (o : Object) :
    (o.managedWith t).managedWith t' = o.managedWith t' := by
  obtain ⟨id, type, item, readOnly, behaviour, body⟩ := o
  cases body <;> rfl

/-- The last phase has done no more to an object than to manage it or to drop it from management. -/
def Restamped (o o' : Object) : Prop :=
  o' = o ∨ (∃ t, o' = o.managedWith t) ∨ o' = o.noteManaged none

namespace Restamped

variable {o o' : Object} (h : Restamped o o')
include h

theorem id_eq : o'.id = o.id := by rcases h with rfl | ⟨t, rfl⟩ | rfl <;> rfl

theorem kind_eq : o'.kind = o.kind := by
  rcases h with rfl | ⟨t, rfl⟩ | rfl
  · rfl
  · exact kind_managedWith t o
  · exact (sameIdentity_noteManaged none o).kind

theorem parent_eq : o'.parent = o.parent := by rcases h with rfl | ⟨t, rfl⟩ | rfl <;> simp

theorem children_eq : o'.children = o.children := by rcases h with rfl | ⟨t, rfl⟩ | rfl <;> simp

end Restamped

end Object

namespace Plane

variable {k : ObjectKind} {p q r : Plane} {order l₁ l₂ : List Handle} {h : Handle}

/-! ## Registries by kind -/

theorem registry_setRegistry (p : Plane) (k j : ObjectKind) (r : Registry) :
    (p.setRegistry k r).registry j = if (j = .location ↔ k = .location) then r else p.registry j := by
  cases k <;> cases j <;> rfl

@[simp] theorem registry_setRegistry_self (p : Plane) (k : ObjectKind) (r : Registry) :
    (p.setRegistry k r).registry k = r := by
  rw [registry_setRegistry, if_pos Iff.rfl]

@[simp] theorem heap_setRegistry (p : Plane) (k : ObjectKind) (r : Registry) :
    (p.setRegistry k r).heap = p.heap := by
  cases k <;> rfl

@[simp] theorem read_setRegistry (p : Plane) (k : ObjectKind) (r : Registry) (h : Handle) :
    (p.setRegistry k r).read h = p.read h := by
  cases k <;> rfl

@[simp] theorem events_setRegistry (p : Plane) (k : ObjectKind) (r : Registry) :
    (p.setRegistry k r).events = p.events := by
  cases k <;> rfl

@[simp] theorem registry_modify (p : Plane) (h : Handle) (f : Object → Object) (k : ObjectKind) :
    (p.modify h f).registry k = p.registry k := by
  cases k <;> rfl

@[simp] theorem registry_recordHook (p : Plane) (h : Handle) (c : HookCall) (k : ObjectKind) :
    (p.recordHook h c).registry k = p.registry k := by
  cases k <;> rfl

@[simp] theorem events_modify (p : Plane) (h : Handle) (f : Object → Object) :
    (p.modify h f).events = p.events := rfl

/-- The transition noted for an object, or the one taken where none is noted. -/
def noted (p : Plane) (k : ObjectKind) (h : Handle) : Transition :=
  ((p.registry k).pending.get? (p.read h).id).getD .rebindingCreating

/-- The transition that an object is left with when the objects in `order` have been managed: what was noted
is used up by the first time. -/
def finalMode (p : Plane) (k : ObjectKind) (order : List Handle) (h : Handle) : Transition :=
  if order.count h = 1 then p.noted k h else .rebindingCreating

theorem finalMode_of_nodup (hnd : order.Nodup) (hh : h ∈ order) : p.finalMode k order h = p.noted k h := by
  rw [finalMode, if_pos (List.count_eq_one_of_mem hnd hh)]

/-! ## Calls -/

/-- The calls by which the objects in `order` are managed when those in `before` have been: `noted` is what was noted for
each, and it is used up by the first time. -/
def callsIn (noted : Handle → Transition) : List Handle → List Handle → List (Handle × Transition)
  | _, [] => []
  | before, h :: order =>
    (h, if h ∈ before then .rebindingCreating else noted h) :: callsIn noted (before ++ [h]) order

section Calls
variable {noted noted' : Handle → Transition} {before before' : List Handle}

@[simp] theorem fst_callsIn (noted : Handle → Transition) (before order : List Handle) :
    (callsIn noted before order).map Prod.fst = order := by
  induction order generalizing before with
  | nil => rfl
  | cons h order ih => rw [callsIn, List.map_cons, ih]

theorem callsIn_append (noted : Handle → Transition) (before l₁ l₂ : List Handle) :
    callsIn noted before (l₁ ++ l₂) = callsIn noted before l₁ ++ callsIn noted (before ++ l₁) l₂ := by
  induction l₁ generalizing before with
  | nil => rw [callsIn, List.append_nil, List.nil_append, List.nil_append]
  | cons h l₁ ih => rw [List.cons_append, callsIn, callsIn, ih, List.cons_append, List.append_assoc, List.singleton_append]

/-- It matters only what the objects are called with the first time. -/
theorem callsIn_congr (h : ∀ a ∈ order, (if a ∈ before then .rebindingCreating else noted a) =
      if a ∈ before' then .rebindingCreating else noted' a) :
    callsIn noted before order = callsIn noted' before' order := by
  induction order generalizing before before' with
  | nil => rfl
  | cons b order ih =>
    rw [List.forall_mem_cons] at h
    rw [callsIn, callsIn, h.1, ih fun a ha => ?_]
    simp only [List.mem_append, List.mem_singleton]
    by_cases hab : a = b
    · rw [if_pos (.inr hab), if_pos (.inr hab)]
    · simpa only [hab, or_false] using h.2 a ha

/-- Objects that come up once each. -/
theorem callsIn_of_nodup (noted : Handle → Transition) (before : List Handle) (hnd : order.Nodup) :
    callsIn noted before order = order.map fun a => (a, if a ∈ before then .rebindingCreating else noted a) := by
  induction order generalizing before with
  | nil => rfl
  | cons h order ih =>
    rw [List.nodup_cons] at hnd
    rw [callsIn, ih _ hnd.2, List.map_cons]
    refine congrArg (_ :: ·) (List.map_congr_left fun a ha => ?_)
    have hne : a ≠ h := ne_of_mem_of_not_mem ha hnd.1
    simp only [List.mem_append, List.mem_singleton, hne, or_false]

/-- An object that comes up once is called with what was noted for it. -/
theorem snd_of_mem_callsIn {c : Handle × Transition} (hc : c ∈ callsIn noted before order) (hout : c.1 ∉ before)
    (hone : order.count c.1 = 1) : c.2 = noted c.1 := by
  induction order generalizing before with
  | nil => cases hc
  | cons h order ih =>
    rw [List.count_cons] at hone
    rcases List.mem_cons.1 hc with rfl | hc
    · exact if_neg hout
    · have hmem : c.1 ∈ order := fst_callsIn noted (before ++ [h]) order ▸ List.mem_map_of_mem hc
      have hpos : 0 < order.count c.1 := List.count_pos_iff.2 hmem
      have hne : ¬ (h == c.1) = true := fun he => by
        rw [if_pos he] at hone
        omega
      rw [if_neg hne, Nat.add_zero] at hone
      refine ih hc (fun hin => ?_) hone
      rcases List.mem_append.1 hin with hin | hin
      · exact hout hin
      · exact hne (beq_iff_eq.2 (List.mem_singleton.1 hin).symm)

end Calls

/-! ## Managing objects in order -/

/-- The objects in `order` are in the heap, of kind `k`, and told apart by their ids. -/
structure Manageable (k : ObjectKind) (order : List Handle) (p : Plane) : Prop where
  valid : ∀ h ∈ order, p.heap.Valid h
  kind : ∀ h ∈ order, (p.read h).kind = k
  inj : ∀ a ∈ order, ∀ b ∈ order, (p.read a).id = (p.read b).id → a = b

theorem Manageable.mono (hp : Manageable k l₁ p) (hsub : ∀ h ∈ l₂, h ∈ l₁) : Manageable k l₂ p where
  valid h hh := hp.valid h (hsub h hh)
  kind h hh := hp.kind h (hsub h hh)
  inj a ha b hb := hp.inj a (hsub a ha) b (hsub b hb)

theorem Manageable.id_ne (hp : Manageable k order p) {a b : Handle} (ha : a ∈ order) (hb : b ∈ order) (hne : a ≠ b) :
    (p.read a).id ≠ (p.read b).id := fun he => hne (hp.inj a ha b hb he)

/-- What is left of `p` when the objects in `order`, all of kind `k`, have been managed. -/
structure Managed (k : ObjectKind) (order : List Handle) (p q : Plane) : Prop where
  size : q.heap.size = p.heap.size
  other : ∀ j, ¬(j = .location ↔ k = .location) → q.registry j = p.registry j
  read : ∀ h, q.read h = if h ∈ order then (p.read h).managedWith (p.finalMode k order h) else p.read h
  entered : ∀ h ∈ order,
    (q.registry k).objects.get? (p.read h).id = some ⟨h, p.finalMode k order h⟩
  untouched : ∀ id, (∀ h ∈ order, (p.read h).id ≠ id) →
    (q.registry k).objects.get? id = (p.registry k).objects.get? id
  used : ∀ h ∈ order, (q.registry k).pending.get? (p.read h).id = none
  unused : ∀ id, (∀ h ∈ order, (p.read h).id ≠ id) →
    (q.registry k).pending.get? id = (p.registry k).pending.get? id
  calls : q.managedCalls k = p.managedCalls k ++ callsIn (p.noted k) [] order
  otherCalls : ∀ j, j ≠ k → q.managedCalls j = p.managedCalls j
  unmanagedCalls : q.unmanagedCalls = p.unmanagedCalls

theorem Managed.nil (k : ObjectKind) (p : Plane) : Managed k [] p p where
  size := rfl
  other _ _ := rfl
  read h := by rw [if_neg List.not_mem_nil]
  entered _ h := absurd h List.not_mem_nil
  untouched _ _ := rfl
  used _ h := absurd h List.not_mem_nil
  unused _ _ := rfl
  calls := (List.append_nil _).symm
  otherCalls _ _ := rfl
  unmanagedCalls := rfl

namespace Managed

theorem id_read (hm : Managed k order p q) (h : Handle) : (q.read h).id = (p.read h).id := by
  rw [hm.read]
  split <;> simp

theorem kind_read (hm : Managed k order p q) (h : Handle) : (q.read h).kind = (p.read h).kind := by
  rw [hm.read]
  split <;> simp

theorem valid (hm : Managed k order p q) : q.heap.Valid h ↔ p.heap.Valid h := by
  unfold Heap.Valid
  rw [hm.size]

theorem manageable (hm : Managed k order p q) (hp : Manageable k l₁ p) : Manageable k l₁ q where
  valid h hh := hm.valid.2 (hp.valid h hh)
  kind h hh := (hm.kind_read h).trans (hp.kind h hh)
  inj a ha b hb he := hp.inj a ha b hb (by rwa [hm.id_read, hm.id_read] at he)

theorem noted_of_mem (hm : Managed k order p q) (hh : h ∈ order) : q.noted k h = .rebindingCreating := by
  unfold noted
  rw [hm.id_read, hm.used h hh, Option.getD_none]

theorem noted_of_forall_ne (hm : Managed k order p q) (hh : ∀ a ∈ order, (p.read a).id ≠ (p.read h).id) :
    q.noted k h = p.noted k h := by
  unfold noted
  rw [hm.id_read, hm.unused _ hh]

/-- What an object is left with after the second of two runs. -/
theorem finalMode_append (hm : Managed k l₁ p q) (hp : Manageable k (l₁ ++ l₂) p) (hh : h ∈ l₂) :
    q.finalMode k l₂ h = p.finalMode k (l₁ ++ l₂) h := by
  unfold finalMode
  have hpos : 0 < l₂.count h := List.count_pos_iff.2 hh
  by_cases h₁ : h ∈ l₁
  · have hpos₁ : 0 < l₁.count h := List.count_pos_iff.2 h₁
    rw [hm.noted_of_mem h₁, ite_self, List.count_append, if_neg (by omega)]
  · have hne : ∀ a ∈ l₁, (p.read a).id ≠ (p.read h).id := fun a ha =>
      hp.id_ne (List.mem_append_left _ ha) (List.mem_append_right _ hh) (ne_of_mem_of_not_mem ha h₁)
    rw [hm.noted_of_forall_ne hne, List.count_append, List.count_eq_zero_of_not_mem h₁, Nat.zero_add]

/-- An object that does not come up in the second run is left with what it had after the first. -/
theorem finalMode_append_of_not_mem (p : Plane) (k : ObjectKind) (l₁ : List Handle) (hh : h ∉ l₂) :
    p.finalMode k (l₁ ++ l₂) h = p.finalMode k l₁ h := by
  unfold finalMode
  rw [List.count_append, List.count_eq_zero_of_not_mem hh, Nat.add_zero]

/-- The second run does nothing under the id of an object that comes up in the first one only. -/
theorem id_ne_of_not_mem (hm : Managed k l₁ p q) (hp : Manageable k (l₁ ++ l₂) p) (hh : h ∈ l₁) (hh₂ : h ∉ l₂) :
    ∀ b ∈ l₂, (q.read b).id ≠ (p.read h).id := by
  intro b hb
  rw [hm.id_read]
  exact hp.id_ne (List.mem_append_right _ hb) (List.mem_append_left _ hh) (ne_of_mem_of_not_mem hb hh₂)

/-- The second of two runs finds used up what was noted for the objects of the first. -/
theorem calls_append (h₁ : Managed k l₁ p q) (h₂ : Managed k l₂ q r) (hp : Manageable k (l₁ ++ l₂) p) :
    r.managedCalls k = p.managedCalls k ++ callsIn (p.noted k) [] (l₁ ++ l₂) := by
  rw [h₂.calls, h₁.calls, callsIn_append, List.nil_append, List.append_assoc]
  refine congrArg (fun l => _ ++ (callsIn (p.noted k) [] l₁ ++ l)) (callsIn_congr fun a ha => ?_)
  rw [if_neg List.not_mem_nil]
  split
  · next ha₁ => exact h₁.noted_of_mem ha₁
  · next ha₁ =>
    exact h₁.noted_of_forall_ne fun b hb =>
      hp.id_ne (List.mem_append_left _ hb) (List.mem_append_right _ ha) (ne_of_mem_of_not_mem hb ha₁)

/-- Two runs make one. -/
theorem append (h₁ : Managed k l₁ p q) (h₂ : Managed k l₂ q r) (hp : Manageable k (l₁ ++ l₂) p) :
    Managed k (l₁ ++ l₂) p r where
  size := h₂.size.trans h₁.size
  other j hj := (h₂.other j hj).trans (h₁.other j hj)
  read h := by
    rw [h₂.read, h₁.read]
    by_cases hh₂ : h ∈ l₂
    · rw [if_pos hh₂, if_pos (List.mem_append_right _ hh₂), h₁.finalMode_append hp hh₂]
      split
      · rw [Object.managedWith_managedWith]
      · rfl
    · rw [if_neg hh₂, finalMode_append_of_not_mem p k l₁ hh₂]
      simp only [List.mem_append, hh₂, or_false]
  entered h hh := by
    by_cases hh₂ : h ∈ l₂
    · rw [← h₁.id_read, h₂.entered h hh₂, h₁.finalMode_append hp hh₂]
    · have hh₁ : h ∈ l₁ := (List.mem_append.1 hh).resolve_right hh₂
      rw [h₂.untouched _ (h₁.id_ne_of_not_mem hp hh₁ hh₂), h₁.entered h hh₁, finalMode_append_of_not_mem p k l₁ hh₂]
  untouched id hid := by
    rw [h₂.untouched _ fun b hb => by rw [h₁.id_read]; exact hid b (List.mem_append_right _ hb),
      h₁.untouched _ fun a ha => hid a (List.mem_append_left _ ha)]
  used h hh := by
    by_cases hh₂ : h ∈ l₂
    · rw [← h₁.id_read, h₂.used h hh₂]
    · have hh₁ : h ∈ l₁ := (List.mem_append.1 hh).resolve_right hh₂
      rw [h₂.unused _ (h₁.id_ne_of_not_mem hp hh₁ hh₂), h₁.used h hh₁]
  unused id hid := by
    rw [h₂.unused _ fun b hb => by rw [h₁.id_read]; exact hid b (List.mem_append_right _ hb),
      h₁.unused _ fun a ha => hid a (List.mem_append_left _ ha)]
  calls := h₁.calls_append h₂ hp
  otherCalls j hj := (h₂.otherCalls j hj).trans (h₁.otherCalls j hj)
  unmanagedCalls := h₂.unmanagedCalls.trans h₁.unmanagedCalls

/-- Each object is managed once, in order, with the transition noted for it. -/
theorem managedCalls_eq (hm : Managed k order p q) (hnd : order.Nodup) :
    q.managedCalls k = p.managedCalls k ++ order.map fun h => (h, p.noted k h) := by
  rw [hm.calls, callsIn_of_nodup _ _ hnd]
  rfl

end Managed

/-! ## Managing one object -/

section One
variable (p : Plane) (k : ObjectKind) (h : Handle) (t : Transition)

@[simp] theorem size_manageWith : (p.manageWith k h t).2.heap.size = p.heap.size := by
  cases k <;> rfl

theorem read_manageWith {h : Handle} (hv : p.heap.Valid h) (h' : Handle) :
    (p.manageWith k h t).2.read h' = if h' = h then (p.read h').managedWith t else p.read h' := by
  have hheap : (p.manageWith k h t).2.heap =
      (p.heap.modify h (Object.setReadOnly t.isReadOnly)).modify h (Object.noteManaged (some t)) := by
    cases k <;> rfl
  unfold Plane.read
  rw [hheap]
  by_cases he : h' = h
  · subst he
    rw [if_pos rfl, Heap.read_modify_self _ (Heap.valid_modify.2 hv), Heap.read_modify_self _ hv]
    rfl
  · rw [if_neg he, Heap.read_modify_of_ne _ (Ne.symm he), Heap.read_modify_of_ne _ (Ne.symm he)]

theorem registry_manageWith (j : ObjectKind) : (p.manageWith k h t).2.registry j =
    if (j = .location ↔ k = .location) then
      { p.registry k with objects := (p.registry k).objects.insert (p.read h).id ⟨h, t⟩ }
    else p.registry j := by
  unfold manageWith
  simp only [registry_modify, registry_recordHook, registry_setRegistry]

theorem events_manageWith {h : Handle} (hv : p.heap.Valid h) : (p.manageWith k h t).2.events =
    p.events ++ [.hook (p.read h).behaviour.audited h (p.read h).kind (p.read h).id (.managed t)] := by
  unfold manageWith recordHook
  simp only [events_modify, events_record, events_setRegistry, read_setRegistry, read_modify_self p hv]
  rfl

theorem manageNoted_eq : p.manageNoted k h = (p.setRegistry k
    { p.registry k with pending := (p.registry k).pending.erase (p.read h).id }).manageWith k h (p.noted k h) := rfl

@[simp] theorem size_manageNoted : (p.manageNoted k h).2.heap.size = p.heap.size := by
  rw [manageNoted_eq, size_manageWith, heap_setRegistry]

theorem read_manageNoted {h : Handle} (hv : p.heap.Valid h) (h' : Handle) : (p.manageNoted k h).2.read h' =
    if h' = h then (p.read h').managedWith (p.noted k h) else p.read h' := by
  rw [manageNoted_eq, read_manageWith _ _ _ (by rwa [heap_setRegistry]), read_setRegistry]

theorem registry_manageNoted (j : ObjectKind) : (p.manageNoted k h).2.registry j =
    if (j = .location ↔ k = .location) then
      { objects := (p.registry k).objects.insert (p.read h).id ⟨h, p.noted k h⟩
        pending := (p.registry k).pending.erase (p.read h).id }
    else p.registry j := by
  rw [manageNoted_eq, registry_manageWith, read_setRegistry, registry_setRegistry_self, registry_setRegistry]
  split <;> rfl

theorem events_manageNoted {h : Handle} (hv : p.heap.Valid h) : (p.manageNoted k h).2.events = p.events ++
    [.hook (p.read h).behaviour.audited h (p.read h).kind (p.read h).id (.managed (p.noted k h))] := by
  rw [manageNoted_eq, events_manageWith _ _ _ (by rwa [heap_setRegistry]), read_setRegistry, events_setRegistry]

end One

theorem finalMode_singleton (p : Plane) (k : ObjectKind) (h : Handle) : p.finalMode k [h] h = p.noted k h :=
  finalMode_of_nodup (List.nodup_singleton h) List.mem_cons_self

/-- Managing one object with the transition noted for it. -/
theorem managed_manageNoted (hv : p.heap.Valid h) (hk : (p.read h).kind = k) :
    Managed k [h] p (p.manageNoted k h).2 where
  size := size_manageNoted p k h
  other j hj := by rw [registry_manageNoted, if_neg hj]
  read a := by
    rw [read_manageNoted p k hv]
    by_cases he : a = h
    · rw [he, if_pos rfl, if_pos List.mem_cons_self, finalMode_singleton]
    · rw [if_neg he, if_neg (mt List.mem_singleton.1 he)]
  entered a ha := by
    obtain rfl := List.mem_singleton.1 ha
    rw [registry_manageNoted, if_pos Iff.rfl, OrderedMap.get?_insert, if_pos rfl, finalMode_singleton]
  untouched id hid := by
    rw [registry_manageNoted, if_pos Iff.rfl, OrderedMap.get?_insert, if_neg (hid h List.mem_cons_self)]
  used a ha := by
    obtain rfl := List.mem_singleton.1 ha
    rw [registry_manageNoted, if_pos Iff.rfl, OrderedMap.get?_erase, if_pos rfl]
  unused id hid := by
    rw [registry_manageNoted, if_pos Iff.rfl, OrderedMap.get?_erase, if_neg (hid h List.mem_cons_self)]
  calls := by
    unfold managedCalls
    rw [events_manageNoted p k hv, List.filterMap_append]
    simp [Event.managed?, hk, callsIn]
  otherCalls j hj := by
    unfold managedCalls
    rw [events_manageNoted p k hv, List.filterMap_append]
    simp [Event.managed?, hk, Ne.symm hj]
  unmanagedCalls := by
    unfold unmanagedCalls
    rw [events_manageNoted p k hv, List.filterMap_append]
    simp [Event.unmanaged?]

/-- Managing objects in order, each with the transition noted for it. -/
theorem managed_manageAll (hp : Manageable k order p) : Managed k order p (manageAll k order p).2 := by
  induction order generalizing p with
  | nil => exact .nil k p
  | cons h order ih =>
    have hone : Managed k [h] p (p.manageNoted k h).2 :=
      managed_manageNoted (hp.valid h List.mem_cons_self) (hp.kind h List.mem_cons_self)
    have hrest := hone.manageable (hp.mono fun _ => List.mem_cons_of_mem h)
    exact hone.append (ih hrest) hp

theorem snd_manageAll_append (k : ObjectKind) (l₁ l₂ : List Handle) (p : Plane) :
    (manageAll k (l₁ ++ l₂) p).2 = (manageAll k l₂ (manageAll k l₁ p).2).2 := by
  induction l₁ generalizing p with
  | nil => rfl
  | cons h l₁ ih => exact ih (p.manageNoted k h).2

theorem snd_manageTree (p : Plane) (k : ObjectKind) (children : OrderedMap String (List Handle))
    (root : Handle) :
    (p.manageTree k children root).2 = (manageAll k (p.treeOrder children root) p).2 := by
  unfold manageTree
  dsimp only
  split
  · next hm => rw [hm]
  · next hm => rw [hm]

theorem treeOrder_congr (h : ∀ a, (q.read a).id = (p.read a).id)
    (children : OrderedMap String (List Handle)) (root : Handle) :
    q.treeOrder children root = p.treeOrder children root := by
  unfold treeOrder
  simp only [h]

/-! ## Dropping objects -/

/-- The calls by which the objects under some ids are dropped. -/
def dropCalls (p : Plane) (k : ObjectKind) (ids : List String) : List (Handle × Transition) :=
  ids.filterMap fun id => ((p.registry k).get? id).map fun h => (h, .rebindingDestroyed)

/-- What is left of `p` when the ids have been dropped from management. -/
structure Dropped (k : ObjectKind) (ids : List String) (p q : Plane) : Prop where
  size : q.heap.size = p.heap.size
  other : ∀ j, ¬(j = .location ↔ k = .location) → q.registry j = p.registry j
  read : ∀ h, q.read h = p.read h ∨ (∃ id ∈ ids, (p.registry k).get? id = some h) ∧
    q.read h = (p.read h).noteManaged none
  lookup : ∀ id, (q.registry k).objects.get? id =
    if id ∈ ids then none else (p.registry k).objects.get? id
  managedCalls : ∀ j, q.managedCalls j = p.managedCalls j
  unmanagedCalls : q.unmanagedCalls = p.unmanagedCalls ++ p.dropCalls k ids

theorem Dropped.nil (k : ObjectKind) (p : Plane) : Dropped k [] p p where
  size := rfl
  other _ _ := rfl
  read _ := Or.inl rfl
  lookup id := by rw [if_neg List.not_mem_nil]
  managedCalls _ := rfl
  unmanagedCalls := by rw [dropCalls, List.filterMap_nil, List.append_nil]

/-- The registry of a kind has nothing under an id any more. -/
def without (p : Plane) (k : ObjectKind) (id : String) : Plane :=
  p.setRegistry k { objects := (p.registry k).objects.erase id, pending := (p.registry k).pending.erase id }

/-- The object is taken out of its registry, and then it is told, if there is one. -/
theorem snd_unmanage (p : Plane) (k : ObjectKind) (id : String) (t : Transition) : (p.unmanage k id t).2 =
    match (p.registry k).get? id with
    | none => p.without k id
    | some h => ((p.without k id).recordHook h (.unmanaged t)).modify h (Object.noteManaged none) := by
  unfold unmanage
  dsimp only
  cases (p.registry k).get? id <;> rfl

/-- Nothing is noted under an id any more. -/
theorem dropped_without {id : String} (hg : (p.registry k).get? id = none) : Dropped k [id] p (p.without k id) where
  size := congrArg Heap.size (heap_setRegistry p k _)
  other j hj := by rw [without, registry_setRegistry, if_neg hj]
  read a := .inl (read_setRegistry p k _ a)
  lookup id' := by
    rw [without, registry_setRegistry_self, OrderedMap.get?_erase]
    simp only [List.mem_singleton, eq_comm]
  managedCalls j := by rw [managedCalls, without, events_setRegistry, managedCalls]
  unmanagedCalls := by
    rw [unmanagedCalls, without, events_setRegistry, unmanagedCalls]
    simp [dropCalls, hg]

/-- The object under an id is taken out of its registry and told. -/
theorem dropped_without_told {id : String} (hg : (p.registry k).get? id = some h) :
    Dropped k [id] p (((p.without k id).recordHook h (.unmanaged .rebindingDestroyed)).modify h
      (Object.noteManaged none)) where
  size := by rw [heap_modify, Heap.size_modify, heap_recordHook, without, heap_setRegistry]
  other j hj := by rw [registry_modify, registry_recordHook, without, registry_setRegistry, if_neg hj]
  read a := by
    rcases read_modify_cases ((p.without k id).recordHook h (.unmanaged .rebindingDestroyed)) h (Object.noteManaged none) a
      with ha | ⟨rfl, ha⟩ <;> rw [ha, read_recordHook, without, read_setRegistry]
    · exact .inl rfl
    · exact .inr ⟨⟨id, List.mem_cons_self, hg⟩, rfl⟩
  lookup id' := by
    rw [registry_modify, registry_recordHook, without, registry_setRegistry_self, OrderedMap.get?_erase]
    simp only [List.mem_singleton, eq_comm]
  managedCalls j := by
    unfold managedCalls
    rw [events_modify, recordHook, events_record, List.filterMap_append, without, events_setRegistry]
    simp [Event.managed?]
  unmanagedCalls := by
    unfold unmanagedCalls
    rw [events_modify, recordHook, events_record, List.filterMap_append, without, events_setRegistry]
    simp [Event.unmanaged?, dropCalls, hg]

/-- Dropping one id. -/
theorem dropped_unmanage (p : Plane) (k : ObjectKind) (id : String) :
    Dropped k [id] p (p.unmanage k id .rebindingDestroyed).2 := by
  rw [snd_unmanage]
  split
  · next hg => exact dropped_without hg
  · next hg => exact dropped_without_told hg

/-- Every object under management is in the heap. -/
def Closed (p : Plane) : Prop := ∀ k id h, (p.registry k).get? id = some h → p.heap.Valid h

theorem registry_eq_of_iff (p : Plane) {j k : ObjectKind} (hjk : j = .location ↔ k = .location) :
    p.registry j = p.registry k := by
  cases j <;> cases k <;> simp_all [registry]

theorem Extends.closed {n : Nat} {p q : Plane} (h : Extends n p q) (hp : p.Closed) : q.Closed := by
  intro k id a ha
  rw [h.registry] at ha
  exact h.valid (hp k id a ha)

theorem Closed.adopt (hp : p.Closed) (o : Object) : (p.adopt o).2.Closed := by
  intro j id a ha
  refine Heap.valid_alloc.2 (Or.inl (hp j id a ?_))
  cases j <;> exact ha

theorem Closed.manage (hp : p.Closed) (hv : p.heap.Valid h) : (p.manage k h).2.Closed := by
  intro j id a ha
  have hsize : (p.manage k h).2.heap.size = p.heap.size := by cases k <;> rfl
  refine Nat.lt_of_lt_of_eq ?_ hsize.symm
  unfold Plane.manage at ha
  rw [registry_manageWith] at ha
  split at ha
  · rw [Registry.get?, OrderedMap.get?_insert] at ha
    split at ha
    · exact Option.some.inj ha ▸ hv
    · exact hp k id a ha
  · exact hp j id a ha

theorem Dropped.closed {ids : List String} (hp : p.Closed) (hd : Dropped k ids p q) : q.Closed := by
  intro j id h hg
  refine Nat.lt_of_lt_of_eq (hp j id h ?_) hd.size.symm
  by_cases hj : j = .location ↔ k = .location
  · rw [Registry.get?, q.registry_eq_of_iff hj, hd.lookup] at hg
    rw [Registry.get?, p.registry_eq_of_iff hj]
    split at hg
    · cases hg
    · exact hg
  · rwa [hd.other j hj] at hg

/-- One id is dropped, and then others. -/
theorem Dropped.cons {id : String} {ids : List String} (h₁ : Dropped k [id] p q) (h₂ : Dropped k ids q r)
    (hid : id ∉ ids) : Dropped k (id :: ids) p r := by
  have hget : ∀ i ∈ ids, (q.registry k).get? i = (p.registry k).get? i := by
    intro i hi
    unfold Registry.get?
    have hne : i ∉ [id] := fun he => hid (by rwa [← List.mem_singleton.1 he])
    rw [h₁.lookup, if_neg hne]
  refine ⟨h₂.size.trans h₁.size, fun j hj => (h₂.other j hj).trans (h₁.other j hj), fun a => ?_,
    fun i => ?_, fun j => (h₂.managedCalls j).trans (h₁.managedCalls j), ?_⟩
  · rcases h₂.read a with h₂ | ⟨⟨i, hi, hg⟩, h₂⟩
    · rw [h₂]
      rcases h₁.read a with h₁ | ⟨⟨i, hi, hg⟩, h₁⟩
      · exact Or.inl h₁
      · exact Or.inr ⟨⟨i, List.mem_singleton.1 hi ▸ List.mem_cons_self, hg⟩, h₁⟩
    · refine Or.inr ⟨⟨i, List.mem_cons_of_mem _ hi, hget i hi ▸ hg⟩, ?_⟩
      rw [h₂]
      rcases h₁.read a with h₁ | ⟨-, h₁⟩
      · rw [h₁]
      · rw [h₁, Object.noteManaged_noteManaged]
  · rw [h₂.lookup, h₁.lookup]
    by_cases hi : i = id
    · simp [hi]
    · simp [hi]
  · have hrest : q.dropCalls k ids = p.dropCalls k ids := by
      refine List.filterMap_congr fun i hi => ?_
      rw [hget i hi]
    rw [h₂.unmanagedCalls, h₁.unmanagedCalls, hrest, List.append_assoc]
    congr 1
    exact (List.filterMap_append (l := [id])).symm

/-- Dropping ids in order. -/
theorem dropped_dropAll {ids : List String} (hnd : ids.Nodup) : Dropped k ids p (Pass.dropAll k ids p) := by
  induction ids generalizing p with
  | nil => exact .nil k p
  | cons id ids ih =>
    rw [List.nodup_cons] at hnd
    exact (dropped_unmanage p k id).cons (ih hnd.2) hnd.1

/-! ## Whatever is managed or dropped -/

/-- One object is managed with the transition noted for it, or dropped from management. -/
inductive Handling : Plane → Plane → Prop
  | manage (p : Plane) (k : ObjectKind) (h : Handle) : Handling p (p.manageNoted k h).2
  | drop (p : Plane) (k : ObjectKind) (id : String) (t : Transition) : Handling p (p.unmanage k id t).2

/-- Any number of objects. -/
abbrev Handlings : Plane → Plane → Prop := Relation.ReflTransGen Handling

theorem handlings_manageAll (k : ObjectKind) (order : List Handle) (p : Plane) :
    Handlings p (manageAll k order p).2 := by
  induction order generalizing p with
  | nil => exact .refl
  | cons h order ih => exact .head (.manage p k h) (ih _)

theorem handlings_manageTree (p : Plane) (k : ObjectKind) (children : OrderedMap String (List Handle)) (root : Handle) :
    Handlings p (p.manageTree k children root).2 := by
  rw [snd_manageTree]
  exact handlings_manageAll k _ p

theorem handlings_dropAll (k : ObjectKind) (ids : List String) (p : Plane) : Handlings p (Pass.dropAll k ids p) := by
  induction ids generalizing p with
  | nil => exact .refl
  | cons id ids ih => exact .head (.drop p k id .rebindingDestroyed) (ih _)

/-- What is kept when a registry gives up an id and when an object is told so is kept when the id is dropped. -/
theorem unmanage_induction {C : Plane → Prop} {id : String} {t : Transition} (hforgotten : C (p.without k id))
    (htold : ∀ h, C (((p.without k id).recordHook h (.unmanaged t)).modify h (Object.noteManaged none))) :
    C (p.unmanage k id t).2 := by
  rw [snd_unmanage]
  split
  · exact hforgotten
  · exact htold _

end Plane

end ManagementPlane
