import ManagementPlane.Proofs.Faces
import ManagementPlane.Proofs.Settling

/-!
# The calls by which trees are managed

An object may lie in the trees of several roots, and is managed with each of them. The transition that was noted for it
is at hand the first time only, and its hook may fail with one transition and not with another.

* `Pass.before`, `Pass.traversal` : what has been managed when the tree of a root comes up, and the calls by which this tree
  is managed;
* `Pass.firstFailure` : the first failure among these calls;
* `Pass.callsIn_visits` : the traversals one behind the other are all calls of the last phase;
* `Pass.Spent t k done p q` : in `q` what was noted for the shells in `done` is used up, and the rest is as chosen in `p`;
* `Pass.Spent.manageTree`, `Pass.Spent.fst_manageTree` : how the next tree is managed then, and what that ends in.
-/

namespace ManagementPlane

variable {σ : Type}

namespace Pass

variable {t : Task} {n : Nat} {p q r : Pass σ} {k : ObjectKind} {snapshot : Snapshot} {a root : Handle}
  {mode mode' : Handle → Transition} {done : List Handle}

/-! ## Traversals -/

/-- What has been managed when the tree of a root comes up. -/
def before (p : Pass σ) (snapshot : Snapshot) (k : ObjectKind) (root : Handle) : List Handle :=
  ((p.roots snapshot k).takeWhile fun r => r ≠ root).flatMap (p.tree k)

/-- The calls by which a tree is managed when the objects in `done` have been: `mode` is what was noted for each. -/
def callsAfter (p : Pass σ) (mode : Handle → Transition) (done : List Handle) (k : ObjectKind) (root : Handle) :
    List (Handle × Transition) :=
  (p.tree k root).map fun a => (a, if a ∈ done then .rebindingCreating else mode a)

/-- The calls by which the tree of a root is managed. -/
def traversal (p : Pass σ) (mode : Handle → Transition) (snapshot : Snapshot) (k : ObjectKind) (root : Handle) :
    List (Handle × Transition) := p.callsAfter mode (p.before snapshot k root) k root

@[simp] theorem fst_traversal (p : Pass σ) (mode : Handle → Transition) (snapshot : Snapshot) (k : ObjectKind)
    (root : Handle) : (p.traversal mode snapshot k root).map Prod.fst = p.tree k root := by
  rw [traversal, callsAfter, List.map_map]
  exact List.map_id _

theorem callsAfter_congr (h : ∀ a ∈ p.tree k root, mode a = mode' a) :
    p.callsAfter mode done k root = p.callsAfter mode' done k root :=
  List.map_congr_left fun a ha => by rw [h a ha]

/-- Before a root come the trees of the roots before it. -/
theorem before_eq (hnd : (p.roots snapshot k).Nodup) {roots later : List Handle}
    (hsplit : p.roots snapshot k = roots ++ root :: later) : p.before snapshot k root = roots.flatMap (p.tree k) := by
  have hout : root ∉ roots := fun hin =>
    (List.nodup_append.1 (hsplit ▸ hnd)).2.2 root hin root List.mem_cons_self rfl
  have hne : ∀ r ∈ roots, decide (r ≠ root) = true := fun r hr => decide_eq_true (ne_of_mem_of_not_mem hr hout)
  rw [before, hsplit, List.takeWhile_append_of_pos hne, List.takeWhile_cons_of_neg (by simp), List.append_nil]

/-- One behind the other the trees of the roots are managed by their traversals. -/
theorem callsIn_flatMap (hnd : (p.roots snapshot k).Nodup) (mode : Handle → Transition) {roots later : List Handle}
    (hsplit : p.roots snapshot k = roots ++ later) :
    Plane.callsIn mode (roots.flatMap (p.tree k)) (later.flatMap (p.tree k)) =
      later.flatMap (p.traversal mode snapshot k) := by
  induction later generalizing roots with
  | nil => rfl
  | cons root later ih =>
    have hnext : p.roots snapshot k = (roots ++ [root]) ++ later := by
      rw [hsplit, List.append_assoc, List.singleton_append]
    have hrest := ih hnext
    rw [List.flatMap_append, List.flatMap_singleton] at hrest
    rw [List.flatMap_cons, List.flatMap_cons, Plane.callsIn_append, hrest, Plane.callsIn_of_nodup _ _ (p.tree_nodup k root),
      traversal, callsAfter, before_eq hnd hsplit]

/-- All calls of the last phase are those of the traversals, one behind the other. -/
theorem callsIn_visits (hnd : (p.roots snapshot k).Nodup) (mode : Handle → Transition) :
    Plane.callsIn mode [] (p.visits snapshot k) = (p.roots snapshot k).flatMap (p.traversal mode snapshot k) :=
  callsIn_flatMap hnd mode (List.nil_append _).symm

/-- The first failure while the tree of a root is managed. -/
def firstFailure (t : Task) (p : Pass σ) (snapshot : Snapshot) (k : ObjectKind) (root : Handle) : Option ObjectError :=
  (p.traversal (chosenFor t p k) snapshot k root).findSome? (p.plane.faultIn k)

namespace SameShape

theorem before (h : SameShape p q) (snapshot : Snapshot) (k : ObjectKind) (root : Handle) :
    q.before snapshot k root = p.before snapshot k root := by
  unfold Pass.before
  rw [h.roots, funext (h.tree k)]

theorem traversal (h : SameShape p q) (mode : Handle → Transition) (snapshot : Snapshot) (k : ObjectKind)
    (root : Handle) : q.traversal mode snapshot k root = p.traversal mode snapshot k root := by
  unfold Pass.traversal Pass.callsAfter
  rw [h.before, h.tree]

end SameShape

/-! ## What is noted while trees are managed -/

/-- In `q` what was noted for the shells in `done` is used up, and for the others what was chosen in `p` is noted. -/
def Spent (t : Task) (k : ObjectKind) (done : List Handle) (p q : Pass σ) : Prop :=
  ∀ a ∈ p.scratch.shells k, q.plane.noted k a = if a ∈ done then .rebindingCreating else chosenFor t p k a

namespace Spent

/-- Once the transitions are noted, none is used up. -/
theorem of_noted (h : Noted t k (p.shellIds k) p q) : Spent t k [] p q := fun a ha => by
  rw [if_neg List.not_mem_nil, h.noted (List.mem_map_of_mem ha), chosenFor]

/-- Where a kind begins as the pass did, what is noted for it is what was chosen in the beginning. -/
theorem rebase (h : Spent t k done q r) (hpq : SameShape p q) (hk : q.plane.registry k = p.plane.registry k) :
    Spent t k done p r := fun a ha => by
  rw [h a (by rwa [hpq.scratch]), chosenFor, chosenFor, chosen, chosen, hk, hpq.scratch, hpq.id]

theorem echo (h : Spent t k done p q) (hqr : Echo q r) : Spent t k done p r := fun a ha => by
  rw [← h a ha, Plane.noted, Plane.noted, hqr.2.registry, hqr.2.read]

variable (hq : Spent t k done p q) (hs : p.scratch.Sound n p.plane) (hfaces : p.plane.SameFaces q.plane)
  (hr : root ∈ p.scratch.shells k)
include hq hs hfaces hr

/-- When one more tree has been managed, what was noted for the shells in it is used up. -/
theorem manageTree :
    Spent t k (done ++ p.tree k root) p { q with plane := (q.plane.manageTree k (p.family k) root).2 } := by
  intro a ha
  have hmem : (p.plane.read a).id ∈ (p.tree k root).map (fun h => (p.plane.read h).id) ↔ a ∈ p.tree k root := by
    refine ⟨fun hid => ?_, fun hin => List.mem_map_of_mem hin⟩
    obtain ⟨b, hb, hid⟩ := List.mem_map.1 hid
    have hshell := shell_of_reaches hr ((mem_tree_iff hs hr).1 hb)
    exact hs.shell_ext (hs.mem_shells_iff.1 hshell) (hs.mem_shells_iff.1 ha) hid ▸ hb
  dsimp only
  rw [Plane.snd_manageTree, Plane.noted_manageAll, Plane.treeOrder_congr (fun a => (hfaces a).id)]
  simp only [(hfaces _).id, List.mem_append]
  rw [hq a ha]
  show (if (p.plane.read a).id ∈ (p.tree k root).map (fun h => (p.plane.read h).id) then _ else _) = _
  simp only [hmem]
  grind

/-- Managing it ends in the first failure among its calls. -/
theorem fst_manageTree : (q.plane.manageTree k (p.family k) root).1 =
    match (p.callsAfter (chosenFor t p k) done k root).findSome? (p.plane.faultIn k) with
    | none => .ok (p.tree k root).length
    | some e => .error e := by
  have hfaults : (p.tree k root).findSome? (q.plane.faultOf k) =
      (p.callsAfter (chosenFor t p k) done k root).findSome? (p.plane.faultIn k) := by
    rw [callsAfter, List.findSome?_map]
    refine Plane.findSome?_congr fun a ha => ?_
    rw [Plane.faultOf, hq a (shell_of_reaches hr ((mem_tree_iff hs hr).1 ha)), hfaces.faultIn, Function.comp_apply]
  have horder : q.plane.treeOrder (p.family k) root = p.tree k root := Plane.treeOrder_congr (fun a => (hfaces a).id) _ _
  rw [← hfaults, ← horder]
  exact q.plane.fst_manageTree k (p.family k) root

end Spent

/-- When the trees of the roots before it have been managed, the tree of a root is managed by its traversal. -/
theorem fst_manageTree_of_spent (hs : p.scratch.Sound n p.plane) (hk : k.Registered)
    (happs : snapshot.applicationIds.Nodup) {roots later : List Handle}
    (hsplit : p.roots snapshot k = roots ++ root :: later) (hq : Spent t k (roots.flatMap (p.tree k)) p q)
    (hfaces : p.plane.SameFaces q.plane) : (q.plane.manageTree k (p.family k) root).1 =
      match p.firstFailure t snapshot k root with
      | none => .ok (p.tree k root).length
      | some e => .error e := by
  have hr : root ∈ p.scratch.shells k := shell_of_mem_roots hs hk (hsplit ▸ List.mem_append_right _ List.mem_cons_self)
  rw [hq.fst_manageTree hs hfaces hr, firstFailure, traversal, before_eq (roots_nodup hs hk happs) hsplit]

end Pass

end ManagementPlane
