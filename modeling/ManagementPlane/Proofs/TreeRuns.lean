import ManagementPlane.Proofs.Faces
import ManagementPlane.Proofs.Preorder

/-!
# Runs through a tree

* `TreeRun`, `TreeRun.turn` : a run through a tree as the live manager makes it. An object that comes off the stack is
  managed if its id is new, and only then asked for what is right below it;
* `Plane.SteadyTree` : a tree that managing does not alter; `Pass.steadyTree_family` : the trees of a pass are such trees;
* `Plane.ManagedTree` : what managing a tree comes to, in depth-first preorder;
* `TreeRun.after`, `TreeRun.ends_after` : where a run stands once some objects have been managed, and where it ends then;
* `Plane.manages_in_preorder` : so every run through such a tree ends, and ends in what managing the tree comes to.
-/

namespace ManagementPlane

open Relation (ReflTransGen)

variable {k : ObjectKind} {p q : Plane} {children : Plane → Handle → List Handle}
  {table : OrderedMap String (List Handle)} {root h : Handle} {order : List Handle}

namespace Plane

/-! ## The order of a registry -/

/-- What is under management keeps its place. What is new comes behind it, in order. -/
theorem ids_manageAll (hnd : (order.map fun h => (p.read h).id).Nodup) :
    ((manageAll k order p).2.registry k).ids = (p.registry k).ids ++
      (order.map fun h => (p.read h).id).filter fun id => id ∉ (p.registry k).ids := by
  induction order generalizing p with
  | nil => exact (List.append_nil _).symm
  | cons h order ih =>
    have hid : ∀ a, ((p.manageNoted k h).2.read a).id = (p.read a).id := fun a => (sameFaces_manageNoted p k h a).id
    have hone : ((p.manageNoted k h).2.registry k).ids =
        if (p.read h).id ∈ (p.registry k).ids then (p.registry k).ids else (p.registry k).ids ++ [(p.read h).id] := by
      rw [registry_manageNoted, if_pos Iff.rfl]
      exact OrderedMap.keys_insert _ _ _
    rw [List.map_cons, List.nodup_cons] at hnd
    have hrest := ih (p := (p.manageNoted k h).2) (by simpa only [hid] using hnd.2)
    simp only [hid] at hrest
    show ((manageAll k order (p.manageNoted k h).2).2.registry k).ids = _
    rw [hrest, hone, List.map_cons]
    by_cases hold : (p.read h).id ∈ (p.registry k).ids
    · rw [if_pos hold, List.filter_cons_of_neg (by simpa using hold)]
    · have hsame : ∀ id ∈ order.map fun h => (p.read h).id,
          decide (id ∉ (p.registry k).ids ++ [(p.read h).id]) = decide (id ∉ (p.registry k).ids) := by
        intro id hid
        have hne : id ≠ (p.read h).id := fun he => hnd.1 (he ▸ hid)
        simp [hne]
      rw [if_neg hold, List.filter_cons_of_pos (by simpa using hold), List.filter_congr hsame, List.append_assoc]
      rfl

end Plane

/-! ## Runs through a tree -/

/-- A run through a tree under way: the live manager, the ids that are done with, the objects that are still to be
looked at, the next one first, and the first failure. -/
structure TreeRun where
  plane : Plane
  visited : List String := []
  stack : List Handle
  failure : Option ObjectError := none

namespace TreeRun

variable {s s' last : TreeRun}

def start (p : Plane) (root : Handle) : TreeRun := { plane := p, stack := [root] }

/-- The next object comes off the stack. If its id is new it is managed, and then asked for what is right below it. -/
def turn (k : ObjectKind) (children : Plane → Handle → List Handle) (s : TreeRun) : Option TreeRun :=
  match s.stack with
  | [] => none
  | h :: stack =>
    let id := (s.plane.read h).id
    if id ∈ s.visited then some { s with stack }
    else
      let (fault, plane) := s.plane.manageNoted k h
      some {
        plane, visited := id :: s.visited, stack := children plane h ++ stack
        failure := s.failure.or (fault.map fun e => .manage (k.label ++ " " ++ id ++ ": " ++ e.message)) }

/-- What the run answers: how many objects it has managed, or the first failure. -/
def answer (s : TreeRun) : Except ObjectError Nat :=
  match s.failure with
  | none => .ok s.visited.length
  | some e => .error e

/-- Turn by turn the run comes to its end, and there is no turn after `last`. -/
def Ends (k : ObjectKind) (children : Plane → Handle → List Handle) (s last : TreeRun) : Prop :=
  ReflTransGen (fun s s' => s.turn k children = some s') s last ∧ last.turn k children = none

theorem turn_of_mem {stack : List Handle} (hstack : s.stack = h :: stack) (hseen : (s.plane.read h).id ∈ s.visited) :
    s.turn k children = some { s with stack } := by
  unfold turn
  rw [hstack]
  exact if_pos hseen

theorem turn_of_not_mem {stack : List Handle} (hstack : s.stack = h :: stack)
    (hnew : (s.plane.read h).id ∉ s.visited) :
    s.turn k children = some {
      plane := (s.plane.manageNoted k h).2, visited := (s.plane.read h).id :: s.visited
      stack := children (s.plane.manageNoted k h).2 h ++ stack
      failure := s.failure.or (s.plane.faultOf k h) } := by
  unfold turn Plane.faultOf Plane.faultIn
  rw [hstack]
  dsimp only
  rw [← Plane.fst_manageNoted s.plane k h]
  exact if_neg hnew

theorem Ends.head (hturn : s.turn k children = some s') (hends : Ends k children s' last) : Ends k children s last :=
  ⟨.head hturn hends.1, hends.2⟩

/-- A run has one end only. -/
theorem Ends.unique {other : TreeRun} (h₁ : Ends k children s last) (h₂ : Ends k children s other) : other = last := by
  have hone : Relator.RightUnique fun s s' : TreeRun => s.turn k children = some s' :=
    fun _ _ _ ha hb => Option.some.inj (ha.symm.trans hb)
  have hstop : ∀ {a b : TreeRun}, a.turn k children = none →
      ReflTransGen (fun s s' => s.turn k children = some s') a b → b = a := by
    intro a b hnone hreach
    rcases hreach.cases_head with he | ⟨c, hturn, -⟩
    · exact he.symm
    · rw [hnone] at hturn
      cases hturn
  rcases ReflTransGen.total_of_right_unique hone h₁.1 h₂.1 with hreach | hreach
  · exact hstop h₁.2 hreach
  · exact (hstop h₂.2 hreach).symm

end TreeRun

/-! ## Trees that managing does not alter -/

namespace Plane

/-- A tree as managing finds it: what can be reached from the root are objects of kind `k`, and whatever has been
managed by then, what is right below each of them is what the table has under its id. -/
structure SteadyTree (k : ObjectKind) (children : Plane → Handle → List Handle)
    (table : OrderedMap String (List Handle)) (root : Handle) (p : Plane) : Prop where
  valid : ∀ h, ReflTransGen (p.Child table) root h → p.heap.Valid h
  kind : ∀ h, ReflTransGen (p.Child table) root h → (p.read h).kind = k
  below : ∀ h, ReflTransGen (p.Child table) root h → ∀ managed,
    children (manageAll k managed p).2 h = childrenIn table (p.read h).id

/-- What managing the tree of a root comes to. What can be reached from the root, once for each id, is managed in
preorder, each object with the transition noted for it. It is registered whatever its hook ends in, and nothing else
changes in the registries. The answer is how many objects there are, or the first failure among them. -/
structure ManagedTree (k : ObjectKind) (table : OrderedMap String (List Handle)) (root : Handle) (p : Plane)
    (answer : Except ObjectError Nat) (q : Plane) : Prop where
  reachable : ∀ h ∈ p.treePreorder table root, ReflTransGen (p.Child table) root h
  complete : ∀ h, ReflTransGen (p.Child table) root h →
    (p.read h).id ∈ (p.treePreorder table root).map fun a => (p.read a).id
  once : ((p.treePreorder table root).map fun h => (p.read h).id).Nodup
  calls : q.managedCalls k = p.managedCalls k ++ (p.treePreorder table root).map fun h => (h, p.noted k h)
  otherCalls : ∀ j, j ≠ k → q.managedCalls j = p.managedCalls j
  read : ∀ h, q.read h =
    if h ∈ p.treePreorder table root then (p.read h).managedWith (p.noted k h) else p.read h
  registered : ∀ h ∈ p.treePreorder table root,
    (q.registry k).objects.get? (p.read h).id = some ⟨h, p.noted k h⟩
  used : ∀ h ∈ p.treePreorder table root, (q.registry k).pending.get? (p.read h).id = none
  untouched : ∀ id ∉ (p.treePreorder table root).map fun h => (p.read h).id,
    (q.registry k).objects.get? id = (p.registry k).objects.get? id ∧
      (q.registry k).pending.get? id = (p.registry k).pending.get? id
  ids : (q.registry k).ids = (p.registry k).ids ++
    ((p.treePreorder table root).map fun h => (p.read h).id).filter fun id => id ∉ (p.registry k).ids
  other : ∀ j, ¬(j = .location ↔ k = .location) → q.registry j = p.registry j
  answer : answer = match (p.treePreorder table root).findSome? (p.faultOf k) with
    | none => .ok (p.treePreorder table root).length
    | some e => .error e

theorem SteadyTree.manageable (ht : p.SteadyTree k children table root)
    (hreach : ∀ h ∈ order, ReflTransGen (p.Child table) root h) (hnd : (order.map fun h => (p.read h).id).Nodup) :
    Manageable k order p where
  valid h hh := ht.valid h (hreach h hh)
  kind h hh := ht.kind h (hreach h hh)
  inj _ ha _ hb he := List.inj_on_of_nodup_map hnd ha hb he

/-- A tree is managed in preorder. -/
theorem managedTree_manageTree (ht : p.SteadyTree k children table root) :
    p.ManagedTree k table root (p.manageTree k table root).1 (p.manageTree k table root).2 := by
  have hreach : ∀ h ∈ p.treeOrder table root, ReflTransGen (p.Child table) root h := fun h =>
    p.reaches_of_mem_treeOrder table
  have honce := p.treeOrder_nodup_ids table root
  have hcomplete := @id_mem_treeOrder p table root
  have hanswer := p.fst_manageTree k table root
  rw [snd_manageTree]
  rw [treeOrder_eq_treePreorder] at hreach honce hcomplete hanswer ⊢
  have hm := managed_manageAll (ht.manageable hreach honce)
  have hfinal : ∀ h ∈ p.treePreorder table root, p.finalMode k (p.treePreorder table root) h = p.noted k h :=
    fun h hh => finalMode_of_nodup honce.of_map hh
  refine ⟨hreach, fun h => hcomplete, honce, hm.managedCalls_eq honce.of_map, hm.otherCalls, fun h => ?_,
    fun h hh => ?_, hm.used, fun id hid => ?_, ids_manageAll honce, hm.other, hanswer⟩
  · rw [hm.read]
    split
    · next hh => rw [hfinal h hh]
    · rfl
  · rw [hm.entered h hh, hfinal h hh]
  · have hne : ∀ h ∈ p.treePreorder table root, (p.read h).id ≠ id := fun h hh he =>
      hid (he ▸ List.mem_map_of_mem hh)
    exact ⟨hm.untouched id hne, hm.unused id hne⟩

end Plane

namespace TreeRun

/-- Where a run through a tree of `p` stands once the objects in `managed` have been managed. -/
def after (k : ObjectKind) (p : Plane) (managed stack : List Handle) : TreeRun where
  plane := (Plane.manageAll k managed p).2
  visited := (managed.map fun h => (p.read h).id).reverse
  stack
  failure := managed.findSome? (p.faultOf k)

theorem turn_after_of_mem {managed stack : List Handle} (hseen : (p.read h).id ∈ managed.map fun a => (p.read a).id) :
    (after k p managed (h :: stack)).turn k children = some (after k p managed stack) := by
  have hid : ((Plane.manageAll k managed p).2.read h).id = (p.read h).id := (Plane.sameFaces_of_handlings (Plane.handlings_manageAll k managed p) h).id
  exact turn_of_mem rfl (List.mem_reverse.2 (hid.symm ▸ hseen))

theorem turn_after_of_not_mem (ht : p.SteadyTree k children table root) (hreach : ReflTransGen (p.Child table) root h)
    {managed stack : List Handle} (hnew : (p.read h).id ∉ managed.map fun a => (p.read a).id) :
    (after k p managed (h :: stack)).turn k children =
      some (after k p (managed ++ [h]) (Plane.childrenIn table (p.read h).id ++ stack)) := by
  have hfaces := Plane.sameFaces_of_handlings (Plane.handlings_manageAll k managed p)
  have hplane : (Plane.manageAll k (managed ++ [h]) p).2 = ((Plane.manageAll k managed p).2.manageNoted k h).2 :=
    Plane.snd_manageAll_append k managed [h] p
  have hchildren := ht.below h hreach (managed ++ [h])
  rw [hplane] at hchildren
  rw [turn_of_not_mem rfl fun hseen => hnew ((hfaces h).id ▸ List.mem_reverse.1 hseen)]
  unfold after
  dsimp only
  rw [hchildren, hplane, (hfaces h).id, Plane.faultOf_manageAll hnew, List.map_append, List.reverse_append,
    List.findSome?_append,
    List.findSome?_singleton]
  rfl

/-- With turns for all the work ahead, a run manages what comes up on its stack. -/
theorem ends_after (ht : p.SteadyTree k children table root) {n : Nat} (managed : List Handle) {stack : List Handle}
    (hn : stack.length + Plane.workAhead table.entries (managed.map fun h => (p.read h).id).reverse ≤ n)
    (hstack : ∀ h ∈ stack, ReflTransGen (p.Child table) root h) :
    Ends k children (after k p managed stack) (after k p (managed ++ Plane.visit (fun h => (p.read h).id)
      (Plane.childrenIn table) n (managed.map fun h => (p.read h).id).reverse stack) []) := by
  -- by turns: each takes an object off the stack, and what it pushes was part of the work ahead
  induction n generalizing managed stack with
  | zero =>
    obtain rfl : stack = [] := List.eq_nil_of_length_eq_zero (by omega)
    rw [Plane.visit, List.append_nil]
    exact ⟨.refl, rfl⟩
  | succ n ih =>
    cases stack with
    | nil =>
      rw [show Plane.visit _ _ (n + 1) _ [] = [] from rfl, List.append_nil]
      exact ⟨.refl, rfl⟩
    | cons h stack =>
      rw [List.length_cons] at hn
      rw [List.forall_mem_cons] at hstack
      by_cases hseen : (p.read h).id ∈ managed.map fun a => (p.read a).id
      · rw [Plane.visit, if_pos (List.mem_reverse.2 hseen)]
        exact .head (turn_after_of_mem hseen) (ih managed (by omega) hstack.2)
      · have hnew : (p.read h).id ∉ (managed.map fun a => (p.read a).id).reverse := fun hh =>
          hseen (List.mem_reverse.1 hh)
        have hwork := Plane.length_childrenIn_add_workAhead table hnew
        have hids : ((managed ++ [h]).map fun a => (p.read a).id).reverse =
            (p.read h).id :: (managed.map fun a => (p.read a).id).reverse := by
          rw [List.map_append, List.reverse_append]
          rfl
        have hbelow : ∀ b ∈ Plane.childrenIn table (p.read h).id ++ stack, ReflTransGen (p.Child table) root b := by
          intro b hb
          rcases List.mem_append.1 hb with hb | hb
          · exact hstack.1.tail hb
          · exact hstack.2 b hb
        have hrest := ih (managed ++ [h]) (by rw [hids, List.length_append]; omega) hbelow
        rw [hids, List.append_assoc] at hrest
        rw [Plane.visit, if_neg hnew]
        exact .head (turn_after_of_not_mem ht hstack.1 hseen) hrest

/-- A run through a tree comes to its end, and that is what managing the tree comes to. -/
theorem ends_start (ht : p.SteadyTree k children table root) :
    Ends k children (start p root) (after k p (p.treeOrder table root) []) :=
  ends_after ht [] (by simp [Plane.workAhead_nil, OrderedMap.values]) (by simpa using .refl)

theorem answer_after (p : Plane) (k : ObjectKind) (table : OrderedMap String (List Handle)) (root : Handle) :
    p.manageTree k table root =
      ((after k p (p.treeOrder table root) []).answer, (after k p (p.treeOrder table root) []).plane) := by
  have hlength : (after k p (p.treeOrder table root) []).visited.length = (p.treeOrder table root).length := by
    rw [after, List.length_reverse, List.length_map]
  refine Prod.ext ((p.fst_manageTree k table root).trans ?_) (p.snd_manageTree k table root)
  unfold answer
  rw [hlength]
  unfold after
  cases (p.treeOrder table root).findSome? (p.faultOf k) with
  | none => rfl
  | some e => rfl

end TreeRun

/-! ## Trees of a pass -/

namespace Pass

variable {σ : Type} {n : Nat} {r : Pass σ}

/-- What is right below an object as it is by now: the shells of the children it lists, and of those that name it as
their parent. -/
def liveFamily (r : Pass σ) (k : ObjectKind) (q : Plane) (h : Handle) : List Handle :=
  (r.childIds k (q.read h)).filterMap (r.scratch.get? k)

/-- Managing shells does not alter the trees of a pass. -/
theorem steadyTree_family (hs : r.scratch.Sound n r.plane) (hr : root ∈ r.scratch.shells k) :
    r.plane.SteadyTree k (r.liveFamily k) (r.family k) root := by
  have hshell : ∀ h, ReflTransGen (r.plane.Child (r.family k)) root h → h ∈ r.scratch.shells k := fun h hreach =>
    shell_of_reaches hr ((reaches_family_iff hs hr).1 hreach)
  refine ⟨fun h hreach => ?_, fun h hreach => ?_, fun h hreach managed => ?_⟩
  · exact hs.valid (hs.mem_shells_iff.1 (hshell h hreach))
  · exact hs.kind (hs.mem_shells_iff.1 (hshell h hreach))
  · have hface := Plane.sameFaces_of_handlings (Plane.handlings_manageAll k managed r.plane) h
    unfold liveFamily childIds Plane.childrenIn
    rw [get?_family hs (hshell h hreach), hface.id, hface.children]
    rfl

end Pass

/-! ## Managing in preorder -/

namespace Plane

/-- However the objects of a tree lead to each other, a run through it ends if managing does not alter what is below
them. Its end is what managing the tree comes to: what can be reached from the root is managed in depth-first preorder. -/
theorem manages_in_preorder (ht : p.SteadyTree k children table root) :
    (∃ last, TreeRun.Ends k children (.start p root) last) ∧
    ∀ last, TreeRun.Ends k children (.start p root) last →
      p.manageTree k table root = (last.answer, last.plane) ∧ p.ManagedTree k table root last.answer last.plane := by
  have hends := TreeRun.ends_start ht
  have heq := TreeRun.answer_after p k table root
  have hmanaged := managedTree_manageTree ht
  refine ⟨⟨_, hends⟩, fun last hlast => ?_⟩
  obtain rfl := hends.unique hlast
  rw [heq] at hmanaged
  exact ⟨heq, hmanaged⟩

/-! ### Entities in a circle -/

/-- Entities that lead to each other in circles. `d` is listed by `a` and names `c` as its parent, and the hooks of `b`
and `d` fail. -/
def ring : List Object := [
  { id := "a", type := "t", body := .entity { children := ["b", "d", "b", "gone"] } },
  { id := "b", type := "t", body := .entity { children := ["c", "a"] }
    behaviour := { manageFault := some (.manage "stuck") } },
  { id := "c", type := "t", body := .entity {} },
  { id := "d", type := "t", body := .entity { parent := some "c" }
    behaviour := { manageFault := some (.manage "late") } }]

/-- Two entities that are under management already. -/
def olders : List Object := [.blank .entity "c" "t", .blank .entity "e" "t"]

/-- The entities of the ring, and older ones of which one has the id of `c`. Transitions are noted for the ids of the
older ones. -/
def ringPlane : Plane :=
  let p : Plane := (ring ++ olders).foldl (fun p o => (p.adopt o).2) {}
  { p with entities := {
      objects := .ofList [("c", ⟨⟨4⟩, .creating⟩), ("e", ⟨⟨5⟩, .creating⟩)]
      pending := .ofList [("c", .rebindingReadOnly), ("e", .rebindingDestroyed)] } }

/-- A pass with the entities of the ring as its shells. -/
def ringPass : Pass Unit where
  mode := .master
  scratch := [⟨0⟩, ⟨1⟩, ⟨2⟩, ⟨3⟩].foldl (fun s h => (s.register ringPlane h).1) {}
  plane := ringPlane
  handler := ()

theorem ringPass_shows : (∀ k ∈ ObjectKind.all, ∀ e ∈ (ringPass.scratch.objects.get k).entries,
      e.2.index < ringPlane.heap.size ∧ (ringPlane.read e.2).kind = k ∧ (ringPlane.read e.2).id = e.1) ∧
    ⟨0⟩ ∈ ringPass.scratch.shells .entity ∧
    ringPlane.treeOrder (ringPass.family .entity) ⟨0⟩ = [⟨0⟩, ⟨1⟩, ⟨2⟩, ⟨3⟩] ∧
    [⟨0⟩, ⟨1⟩, ⟨2⟩, ⟨3⟩].map (fun h => ((ringPlane.read h).id, ringPlane.noted .entity h)) =
      [("a", .rebindingCreating), ("b", .rebindingCreating), ("c", .rebindingReadOnly), ("d", .rebindingCreating)] ∧
    [⟨0⟩, ⟨1⟩, ⟨2⟩, ⟨3⟩].findSome? (ringPlane.faultOf .entity) =
      some (.manage "entity b: management failed: stuck") := by
  decide +kernel

theorem sound_ringPass : ringPass.scratch.Sound 0 ringPlane := by
  have hall : ∀ {k id h}, ringPass.scratch.get? k id = some h →
      h.index < ringPlane.heap.size ∧ (ringPlane.read h).kind = k ∧ (ringPlane.read h).id = id := fun {k} _ _ hg =>
    ringPass_shows.1 k k.mem_all _ (OrderedMap.get?_eq_some_iff.1 hg)
  exact ⟨Nat.zero_le _, fun _ => Nat.zero_le _, fun hg => (hall hg).1, fun hg => (hall hg).2.1,
    fun hg => (hall hg).2.2, fun _ _ => rfl⟩

/-- Each of the four is managed once, also behind the failure of `b`, which is the answer. The new `c` takes the place
of the older one, and what is noted for `e` is left. -/
theorem manages_in_preorder_ring :
    ringPlane.SteadyTree .entity (ringPass.liveFamily .entity) (ringPass.family .entity) ⟨0⟩ ∧
    ∃ last, TreeRun.Ends .entity (ringPass.liveFamily .entity) (.start ringPlane ⟨0⟩) last ∧
      last.answer = .error (.manage "entity b: management failed: stuck") ∧
      last.plane.managedCalls .entity = [(⟨0⟩, .rebindingCreating), (⟨1⟩, .rebindingCreating),
        (⟨2⟩, .rebindingReadOnly), (⟨3⟩, .rebindingCreating)] ∧
      last.plane.entities.ids = ["c", "e", "a", "b", "d"] ∧
      last.plane.entities.objects.get? "c" = some ⟨⟨2⟩, .rebindingReadOnly⟩ ∧
      last.plane.entities.pending.get? "c" = none ∧
      last.plane.entities.pending.get? "e" = some .rebindingDestroyed := by
  obtain ⟨-, hr, horder, hshown, hfault⟩ := ringPass_shows
  have ht : ringPlane.SteadyTree .entity (ringPass.liveFamily .entity) (ringPass.family .entity) ⟨0⟩ :=
    Pass.steadyTree_family sound_ringPass hr
  obtain ⟨⟨last, hends⟩, hall⟩ := manages_in_preorder ht
  obtain ⟨-, hm⟩ := hall last hends
  rw [treeOrder_eq_treePreorder] at horder
  simp only [List.map_cons, List.map_nil, List.cons.injEq, Prod.mk.injEq, and_true] at hshown
  obtain ⟨⟨ha, hta⟩, ⟨hb, htb⟩, ⟨hc, htc⟩, hd, htd⟩ := hshown
  refine ⟨ht, last, hends, ?_, ?_, ?_, ?_, ?_, ?_⟩
  · rw [hm.answer, horder, hfault]
  · rw [hm.calls, horder]
    simp only [List.map_cons, List.map_nil, hta, htb, htc, htd]
    rfl
  · have hids := hm.ids
    rw [horder] at hids
    simp only [List.map_cons, List.map_nil, ha, hb, hc, hd] at hids
    exact hids
  · have hentry := hm.registered ⟨2⟩ (by rw [horder]; decide)
    rwa [hc, htc] at hentry
  · have hused := hm.used ⟨2⟩ (by rw [horder]; decide)
    rwa [hc] at hused
  · have hout : "e" ∉ (ringPlane.treePreorder (ringPass.family .entity) ⟨0⟩).map fun h => (ringPlane.read h).id := by
      rw [horder]
      simp only [List.map_cons, List.map_nil, ha, hb, hc, hd]
      decide
    exact (hm.untouched "e" hout).2

end Plane

end ManagementPlane
