import ManagementPlane.Proofs.LastPhase

/-!
# What the last phase goes by

* `Object.SameFace` : what the last phase reads of an object: its id, its parent and children, and how its hooks behave;
* `Plane.faultIn` : the failure of a call depends on that and on the transition alone;
* `Plane.fst_manageTree` : managing a tree ends in the first failure among its calls;
* `Pass.Unheard p q` : a change that the handler does not hear of, and that shows in nothing of all this.
-/

namespace ManagementPlane

/-! ## Objects -/

/-- Two states of an object that the last phase takes for the same. -/
structure Object.SameFace (o o' : Object) : Prop where
  id : o'.id = o.id
  parent : o'.parent = o.parent
  children : o'.children = o.children
  behaviour : o'.behaviour = o.behaviour

namespace Object

theorem SameFace.refl (o : Object) : SameFace o o := ⟨rfl, rfl, rfl, rfl⟩

theorem SameFace.trans {a b c : Object} (h₁ : SameFace a b) (h₂ : SameFace b c) : SameFace a c where
  id := h₂.id.trans h₁.id
  parent := h₂.parent.trans h₁.parent
  children := h₂.children.trans h₁.children
  behaviour := h₂.behaviour.trans h₁.behaviour

theorem sameFace_setReadOnly (b : Bool) (o : Object) : SameFace o (o.setReadOnly b) := ⟨rfl, rfl, rfl, rfl⟩

theorem sameFace_noteManaged (t : Option Transition) (o : Object) : SameFace o (o.noteManaged t) :=
  ⟨rfl, parent_noteManaged t o, children_noteManaged t o, rfl⟩

end Object

/-- A change of an object that keeps its face, wherever the object is. -/
theorem Heap.sameFace_modify (heap : Heap) (h : Handle) {f : Object → Object} (hf : ∀ o : Object, o.SameFace (f o))
    (a : Handle) : (heap.read a).SameFace ((heap.modify h f).read a) := by
  unfold Heap.read Heap.modify
  rw [Std.TreeMap.getD_modify]
  split
  · next he =>
    rw [Nat.compare_eq_eq] at he
    rw [← he, Std.TreeMap.getD_eq_getD_getElem?]
    cases heap.cells[h.index]? with
    | none => exact .refl _
    | some o => exact hf o
  · exact .refl _

namespace Plane

variable {k : ObjectKind} {p q r : Plane}

/-- The last phase takes the objects of both live managers for the same. -/
def SameFaces (p q : Plane) : Prop := ∀ a, (p.read a).SameFace (q.read a)

theorem SameFaces.refl (p : Plane) : SameFaces p p := fun _ => .refl _

theorem SameFaces.trans (h₁ : SameFaces p q) (h₂ : SameFaces q r) : SameFaces p r :=
  fun a => (h₁ a).trans (h₂ a)

theorem SameFaces.of_heap (h : q.heap = p.heap) : SameFaces p q := fun a => by
  rw [Plane.read, Plane.read, h]
  exact .refl _

theorem SameFaces.modify (hq : SameFaces p q) (h : Handle) {f : Object → Object}
    (hf : ∀ o : Object, o.SameFace (f o)) : SameFaces p (q.modify h f) :=
  hq.trans (q.heap.sameFace_modify h hf)

theorem SameFaces.setRegistry (hq : SameFaces p q) (k : ObjectKind) (r : Registry) :
    SameFaces p (q.setRegistry k r) := hq.trans (.of_heap (heap_setRegistry q k r))

theorem SameFaces.recordHook (hq : SameFaces p q) (h : Handle) (c : HookCall) :
    SameFaces p (q.recordHook h c) := hq.trans (.of_heap rfl)

/-! ## Managing and dropping -/

theorem sameFaces_manageNoted (p : Plane) (k : ObjectKind) (h : Handle) :
    SameFaces p (p.manageNoted k h).2 := by
  unfold manageNoted manageWith
  dsimp only
  refine SameFaces.modify (.recordHook (.setRegistry ?_ k _) h _) h (Object.sameFace_noteManaged _)
  exact ((SameFaces.refl p).setRegistry k _).modify h (Object.sameFace_setReadOnly _)

theorem sameFaces_of_handling (h : Handling p q) : SameFaces p q := by
  cases h with
  | manage k a => exact sameFaces_manageNoted p k a
  | drop k id t =>
    have hforgotten : SameFaces p (p.without k id) := (SameFaces.refl p).setRegistry k _
    exact unmanage_induction hforgotten fun a => (hforgotten.recordHook a _).modify a (Object.sameFace_noteManaged _)

/-- Whatever is managed or dropped, the last phase takes all objects for the same. -/
theorem sameFaces_of_handlings (h : Handlings p q) : SameFaces p q := by
  induction h with
  | refl => exact .refl p
  | tail _ h ih => exact ih.trans (sameFaces_of_handling h)

theorem findSome?_congr {α β : Type} {f g : α → Option β} {l : List α} (h : ∀ a ∈ l, f a = g a) :
    l.findSome? f = l.findSome? g := by
  induction l with
  | nil => rfl
  | cons a l ih =>
    rw [List.forall_mem_cons] at h
    rw [List.findSome?_cons, List.findSome?_cons, h.1, ih h.2]

/-- The failure that a call ends in by which an object is managed. -/
def faultIn (p : Plane) (k : ObjectKind) (call : Handle × Transition) : Option ObjectError :=
  ((p.read call.1).behaviour.manageFaultBy call.2).map fun e =>
    .manage (k.label ++ " " ++ (p.read call.1).id ++ ": " ++ e.message)

theorem SameFaces.faultIn (h : SameFaces p q) (k : ObjectKind) : q.faultIn k = p.faultIn k := by
  funext call
  unfold Plane.faultIn
  rw [(h call.1).behaviour, (h call.1).id]

/-- The failure that managing an object with the transition noted for it ends in. -/
def faultOf (p : Plane) (k : ObjectKind) (h : Handle) : Option ObjectError := p.faultIn k (h, p.noted k h)

theorem fst_manageNoted (p : Plane) (k : ObjectKind) (h : Handle) :
    (p.manageNoted k h).1 = (p.read h).behaviour.manageFaultBy (p.noted k h) := by
  unfold manageNoted manageWith
  dsimp only
  rw [read_setRegistry]
  rfl

/-- What was noted for an object is used up when it is managed, and nothing else is. -/
theorem noted_manageNoted (p : Plane) (k : ObjectKind) (h a : Handle) : (p.manageNoted k h).2.noted k a =
    if (p.read a).id = (p.read h).id then .rebindingCreating else p.noted k a := by
  unfold noted
  rw [(sameFaces_manageNoted p k h a).id, registry_manageNoted, if_pos Iff.rfl]
  dsimp only
  rw [OrderedMap.get?_erase]
  by_cases he : (p.read a).id = (p.read h).id
  · rw [if_pos he, if_pos he.symm, Option.getD_none]
  · rw [if_neg he, if_neg (Ne.symm he)]

/-- What was noted for the objects in `order` is used up when they have been managed. -/
theorem noted_manageAll (k : ObjectKind) (order : List Handle) (p : Plane) (a : Handle) :
    (manageAll k order p).2.noted k a =
      if (p.read a).id ∈ order.map (fun h => (p.read h).id) then .rebindingCreating else p.noted k a := by
  induction order generalizing p with
  | nil => exact (if_neg List.not_mem_nil).symm
  | cons h order ih =>
    have hid : ∀ b, ((p.manageNoted k h).2.read b).id = (p.read b).id := fun b => (sameFaces_manageNoted p k h b).id
    show (manageAll k order (p.manageNoted k h).2).2.noted k a = _
    rw [ih, noted_manageNoted]
    simp only [hid, List.map_cons, List.mem_cons]
    grind

/-- An object whose id has not come up finds noted for it what was noted in the beginning. -/
theorem faultOf_manageAll {order : List Handle} {a : Handle}
    (hnew : (p.read a).id ∉ order.map fun h => (p.read h).id) : (manageAll k order p).2.faultOf k a = p.faultOf k a := by
  unfold faultOf
  rw [noted_manageAll, if_neg hnew, (sameFaces_of_handlings (handlings_manageAll k order p)).faultIn]

/-- Managing objects in order, each once, ends in the first of their failures. -/
theorem fst_manageAll {order : List Handle} (hnd : (order.map fun h => (p.read h).id).Nodup) :
    (manageAll k order p).1 = order.findSome? (p.faultOf k) := by
  induction order generalizing p with
  | nil => rfl
  | cons h r ih =>
    have hfaces := sameFaces_manageNoted p k h
    rw [List.map_cons, List.nodup_cons] at hnd
    have hlater := ih (p := (p.manageNoted k h).2) (by simpa only [(hfaces _).id] using hnd.2)
    have hsame : r.findSome? ((p.manageNoted k h).2.faultOf k) = r.findSome? (p.faultOf k) := by
      refine findSome?_congr fun a ha => ?_
      have hne : (p.read a).id ≠ (p.read h).id := fun he => hnd.1 (he ▸ List.mem_map_of_mem ha)
      unfold faultOf
      rw [noted_manageNoted, if_neg hne, hfaces.faultIn]
    show (Option.map _ (p.manageNoted k h).1).or (manageAll k r (p.manageNoted k h).2).1 = _
    rw [fst_manageNoted, hlater, hsame, List.findSome?_cons]
    show (p.faultOf k h).or _ = _
    cases p.faultOf k h <;> rfl

theorem fst_manageTree (p : Plane) (k : ObjectKind) (children : OrderedMap String (List Handle))
    (root : Handle) : (p.manageTree k children root).1 =
      match (p.treeOrder children root).findSome? (p.faultOf k) with
      | none => .ok (p.treeOrder children root).length
      | some e => .error e := by
  rw [← fst_manageAll (p.treeOrder_nodup_ids children root)]
  unfold manageTree
  dsimp only
  split <;> next he => rw [he]

end Plane

/-! ## Passes -/

namespace Pass

variable {σ : Type} {p q : Pass σ}

/-- A change that the handler does not hear of, and after which the last phase takes all objects for the same. -/
structure Unheard (p q : Pass σ) : Prop where
  iteration : q.toIteration = p.toIteration
  handler : q.handler = p.handler
  faces : p.plane.SameFaces q.plane

theorem Unheard.refl (p : Pass σ) : Unheard p p := ⟨rfl, rfl, .refl _⟩

theorem Unheard.of_plane {plane : Plane} (h : p.plane.SameFaces plane) : Unheard p { p with plane } :=
  ⟨rfl, rfl, h⟩

end Pass

end ManagementPlane
