import ManagementPlane.Proofs.LastNotes
import ManagementPlane.Proofs.TwinPasses

/-!
# The last phase side by side

Two passes enter the last phase with the same shells.

* `Pass.Twin.tree`, `Pass.Twin.roots`, `Pass.Twin.visits` : they have the same trees, and manage them in the same order;
* `Pass.TreatsAlike t t' n m p q` : the transitions chosen on the two sides come to the same;
* `Pass.Twin.firstFailure` : then each tree ends in the same failure or in none;
* `Pass.Twin.lastNotes`, `Pass.Twin.thriving` : so both handlers hear the same, and the same applications come back.
-/

namespace ManagementPlane

open Plane (New)

namespace Pass

variable {σ : Type} {n m : Nat} {need : List (ObjectKind × String)} {p q : Pass σ} {k : ObjectKind} {a root : Handle}
  {snapshot : Snapshot} {t t' : Task}

/-! ## Trees -/

section Trees
variable (hpq : p.Twin n m need q)
include hpq

theorem Twin.new_of_mem_shells (ha : a ∈ p.scratch.shells k) : New n p.plane a :=
  hpq.new (hpq.sound.mem_shells_iff.1 ha)

theorem Twin.isRoot (k : ObjectKind) (ha : New n p.plane a) : q.isRoot k (a.moved n m) = p.isRoot k a := by
  unfold Pass.isRoot
  rw [hpq.plane.read a ha, Object.parent_moved]
  cases (p.plane.read a).parent with
  | none => rfl
  | some id =>
    rw [Option.bind_some, Option.bind_some, hpq.get?]
    exact Option.isNone_map

theorem Twin.childIds (k : ObjectKind) (o : Object) (f : Handle → Handle) :
    q.childIds k (o.moved f) = p.childIds k o := by
  have hdeclared : ∀ id, q.declaredChildren k id = p.declaredChildren k id := by
    intro id
    unfold declaredChildren
    rw [hpq.scratch.shells, List.map_map, List.filterMap_map, List.filterMap_map]
    refine List.filterMap_congr fun a ha => ?_
    simp only [Function.comp_apply, hpq.plane.read a (hpq.new_of_mem_shells ha), Object.parent_moved,
      Object.id_moved]
  unfold Pass.childIds
  rw [Object.children_moved, Object.id_moved, hdeclared]

/-- The shells below each shell correspond. -/
theorem Twin.pairs_family (k : ObjectKind) :
    OrderedMap.Pairs (fun l l' => l' = l.map (Handle.moved n m)) (p.family k) (q.family k) := by
  refine .ofList ?_
  rw [hpq.scratch.shells, List.map_map, List.forall₂_map_left_iff, List.forall₂_map_right_iff,
    List.forall₂_same]
  intro a ha
  have hread := hpq.plane.read a (hpq.new_of_mem_shells ha)
  simp only [Function.comp_apply, hread, Object.id_moved, hpq.childIds, true_and]
  rw [List.map_filterMap]
  exact List.filterMap_congr fun id _ => hpq.get? k id

theorem Twin.new_of_family {id : String} {l : List Handle} (hl : (p.family k).get? id = some l)
    (ha : a ∈ l) : New n p.plane a := by
  rw [OrderedMap.get?_eq_some_iff, entries_family hpq.sound] at hl
  obtain ⟨s, -, he⟩ := List.mem_map.1 hl
  obtain ⟨-, rfl⟩ := Prod.mk.inj he
  obtain ⟨id', -, hg⟩ := List.mem_filterMap.1 ha
  exact hpq.new hg

/-- The trees correspond. -/
theorem Twin.tree (k : ObjectKind) (hroot : New n p.plane root) :
    q.tree k (root.moved n m) = (p.tree k root).map (Handle.moved n m) := by
  have hpairs := hpq.pairs_family k
  have hlength : (q.family k).values.flatten.length = (p.family k).values.flatten.length := by
    have hrel : List.Forall₂ (fun x y => x = y) ((p.family k).values.map (List.map (Handle.moved n m)))
        (q.family k).values := by
      rw [List.forall₂_map_left_iff]
      exact hpairs.values.imp fun l l' he => he.symm
    rw [List.forall₂_eq_eq_eq] at hrel
    rw [← hrel, ← List.map_flatten, List.length_map]
  unfold Pass.tree Plane.treeOrder
  rw [hlength]
  refine Plane.visit_map (New n p.plane) (fun a ha => hpq.id_read ha)
    (fun id a ha => ?_) (fun id => ?_) _ _ [root] fun a ha => List.mem_singleton.1 ha ▸ hroot
  · rcases hg : (p.family k).get? id with _ | l
    · rw [hg] at ha
      cases ha
    · rw [hg] at ha
      exact hpq.new_of_family hg ha
  · have hrel := hpairs.get? id
    generalize (p.family k).get? id = x at hrel
    generalize (q.family k).get? id = y at hrel
    cases hrel with
    | none => rfl
    | some he => exact he

theorem Twin.filter_shells (k : ObjectKind) {f g : Handle → Bool}
    (hfg : ∀ a, New n p.plane a → g (a.moved n m) = f a) :
    (q.scratch.shells k).filter g = ((p.scratch.shells k).filter f).map (Handle.moved n m) := by
  rw [hpq.scratch.shells, List.filter_map]
  exact congrArg _ (List.filter_congr fun a ha => hfg a (hpq.new_of_mem_shells ha))

theorem Twin.orphans (snapshot : Snapshot) :
    q.orphans snapshot = (p.orphans snapshot).map (Handle.moved n m) :=
  hpq.filter_shells .entity fun a ha => by rw [hpq.id_read ha, hpq.isRoot .entity ha]

theorem Twin.filterMap_get? (ids : List String) (k : ObjectKind) :
    ids.filterMap (q.scratch.get? k) = (ids.filterMap (p.scratch.get? k)).map (Handle.moved n m) := by
  rw [List.map_filterMap]
  exact List.filterMap_congr fun id _ => hpq.get? k id

theorem Twin.roots (snapshot : Snapshot) (k : ObjectKind) :
    q.roots snapshot k = (p.roots snapshot k).map (Handle.moved n m) := by
  cases k with
  | location => exact hpq.filter_shells .location fun a ha => hpq.isRoot .location ha
  | _ =>
    unfold Pass.roots
    rw [List.map_append, ← hpq.filterMap_get?]
    exact congrArg _ (hpq.orphans snapshot)

theorem Twin.visits (snapshot : Snapshot) (hk : k.Registered) :
    q.visits snapshot k = (p.visits snapshot k).map (Handle.moved n m) := by
  unfold Pass.visits
  rw [hpq.roots, List.flatMap_map, List.map_flatMap]
  refine List.flatMap_congr fun root hr => ?_
  exact hpq.tree k (hpq.new_of_mem_shells (shell_of_mem_roots hpq.sound hk hr))

/-- Both sides manage an object equally often. -/
theorem Twin.count_visits (snapshot : Snapshot) (hk : k.Registered) (ha : New n p.plane a) :
    (q.visits snapshot k).count (a.moved n m) = (p.visits snapshot k).count a := by
  rw [hpq.visits snapshot hk]
  have hnew : ∀ b ∈ p.visits snapshot k, New n p.plane b := fun b hb =>
    hpq.new_of_mem_shells (shell_of_mem_visits hpq.sound hk hb)
  generalize p.visits snapshot k = l at hnew
  induction l with
  | nil => rfl
  | cons b l ih =>
    have hb := hnew b List.mem_cons_self
    rw [List.map_cons, List.count_cons, List.count_cons, ih fun c hc => hnew c (List.mem_cons_of_mem _ hc)]
    simp only [beq_iff_eq, Handle.moved_inj hb.1 ha.1]

theorem Twin.mem_visits_iff (snapshot : Snapshot) (hk : k.Registered) (ha : New n p.plane a) :
    a.moved n m ∈ q.visits snapshot k ↔ a ∈ p.visits snapshot k := by
  rw [← List.count_pos_iff, ← List.count_pos_iff, hpq.count_visits snapshot hk ha]

/-- Before a root come trees that correspond. -/
theorem Twin.before (hk : k.Registered) (happs : snapshot.applicationIds.Nodup) (hr : root ∈ p.roots snapshot k) :
    q.before snapshot k (root.moved n m) = (p.before snapshot k root).map (Handle.moved n m) := by
  obtain ⟨earlier, later, hsplit⟩ := List.append_of_mem hr
  have hnew : ∀ r ∈ p.roots snapshot k, New n p.plane r := fun r hr =>
    hpq.new_of_mem_shells (shell_of_mem_roots hpq.sound hk hr)
  have hnd := roots_nodup hpq.sound hk happs
  have hnd' : (q.roots snapshot k).Nodup := by
    rw [hpq.roots]
    exact hnd.map_on fun a ha b hb => (Handle.moved_inj (hnew a ha).1 (hnew b hb).1).1
  have hsplit' : q.roots snapshot k = earlier.map (Handle.moved n m) ++ root.moved n m :: later.map (Handle.moved n m) := by
    rw [hpq.roots, hsplit, List.map_append, List.map_cons]
  rw [before_eq hnd hsplit, before_eq hnd' hsplit', List.flatMap_map, List.map_flatMap]
  exact List.flatMap_congr fun r hr => hpq.tree k (hnew r (hsplit ▸ List.mem_append_left _ hr))

/-! ## Failures -/

/-- A hook does with a transition what the same hook does on the other side. -/
theorem Twin.faultIn (k : ObjectKind) (ha : New n p.plane a) (mode : Transition) :
    q.plane.faultIn k (a.moved n m, mode) = p.plane.faultIn k (a, mode) := by
  unfold Plane.faultIn
  rw [hpq.plane.read a ha]
  rfl

end Trees

/-- The transitions that are chosen on the two sides for each shell are both read-only or neither is, and its hook does the
same with both. -/
def TreatsAlike (t t' : Task) (n m : Nat) (p q : Pass σ) : Prop :=
  ∀ k, k.Registered → ∀ a ∈ p.scratch.shells k,
    (chosenFor t' q k (a.moved n m)).isReadOnly = (chosenFor t p k a).isReadOnly ∧
      p.plane.faultIn k (a, chosenFor t' q k (a.moved n m)) = p.plane.faultIn k (a, chosenFor t p k a)

section Alike
variable (hpq : p.Twin n m need q) (halike : TreatsAlike t t' n m p q)
include hpq halike

/-- What a shell that was managed is left with makes it read-only on both sides or on neither. -/
theorem Twin.isReadOnly_settledMode (hk : k.Registered) (ha : a ∈ p.visits snapshot k) :
    (settledMode t' q k (q.visits snapshot k) (a.moved n m)).isReadOnly =
      (settledMode t p k (p.visits snapshot k) a).isReadOnly := by
  have hshell := shell_of_mem_visits hpq.sound hk ha
  unfold settledMode
  rw [hpq.count_visits snapshot hk (hpq.new_of_mem_shells hshell)]
  split
  · exact (halike k hk a hshell).1
  · rfl

variable (happs : snapshot.applicationIds.Nodup)
include happs

/-- The trees of roots that correspond end in the same failure, or in none. -/
theorem Twin.firstFailure (hk : k.Registered) (hr : root ∈ p.roots snapshot k) :
    q.firstFailure t' snapshot k (root.moved n m) = p.firstFailure t snapshot k root := by
  have hroot := shell_of_mem_roots hpq.sound hk hr
  have hbefore : ∀ b ∈ p.before snapshot k root, New n p.plane b := fun b hb => by
    obtain ⟨r, hr', hb⟩ := List.mem_flatMap.1 hb
    have hr' := shell_of_mem_roots hpq.sound hk (List.takeWhile_sublist _ |>.subset hr')
    exact hpq.new_of_mem_shells (shell_of_reaches hr' ((mem_tree_iff hpq.sound hr').1 hb))
  unfold Pass.firstFailure traversal callsAfter
  rw [hpq.tree k (hpq.new_of_mem_shells hroot), hpq.before hk happs hr, List.map_map, List.findSome?_map,
    List.findSome?_map]
  refine Plane.findSome?_congr fun a ha => ?_
  have hshell := shell_of_reaches hroot ((mem_tree_iff hpq.sound hroot).1 ha)
  have hnew := hpq.new_of_mem_shells hshell
  have hmem : a.moved n m ∈ (p.before snapshot k root).map (Handle.moved n m) ↔ a ∈ p.before snapshot k root := by
    refine ⟨fun hin => ?_, List.mem_map_of_mem⟩
    obtain ⟨b, hb, he⟩ := List.mem_map.1 hin
    exact (Handle.moved_inj (hbefore b hb).1 hnew.1).1 he ▸ hb
  simp only [Function.comp_apply, hmem, hpq.faultIn k hnew]
  split
  · rfl
  · exact (halike k hk a hshell).2

theorem Twin.reportOf (hk : k.Registered) (hr : root ∈ p.roots snapshot k) :
    q.reportOf t' snapshot k (root.moved n m) = p.reportOf t snapshot k root := by
  unfold Pass.reportOf
  rw [hpq.firstFailure halike happs hk hr, hpq.id_read (hpq.new_of_mem_shells (shell_of_mem_roots hpq.sound hk hr))]

theorem Twin.filterMap_failureNote (hk : k.Registered) {roots : List Handle}
    (hsub : ∀ root ∈ roots, root ∈ p.roots snapshot k) :
    (roots.map (Handle.moved n m)).filterMap (q.failureNote t' snapshot k) =
      roots.filterMap (p.failureNote t snapshot k) := by
  rw [List.filterMap_map]
  exact List.filterMap_congr fun root hr => congrArg (Option.map failureOf) (hpq.reportOf halike happs hk (hsub root hr))

/-- Both handlers hear the same in the last phase. -/
theorem Twin.lastNotes : q.lastNotes t' snapshot = p.lastNotes t snapshot := by
  have happlications : ∀ id ∈ snapshot.applicationIds,
      q.applicationNote t' snapshot id = p.applicationNote t snapshot id := by
    intro id hid
    unfold applicationNote
    rw [hpq.get?]
    rcases hg : p.scratch.get? .entity id with _ | root
    · rfl
    · have hroot : root ∈ p.roots snapshot .entity :=
        List.mem_append_left _ (List.mem_filterMap.2 ⟨id, hid, hg⟩)
      exact congrArg (Option.map failureOf) (hpq.reportOf halike happs (.inr rfl) hroot)
  have horphans : ∀ root ∈ p.orphans snapshot, root ∈ p.roots snapshot .entity := fun _ => List.mem_append_right _
  unfold Pass.lastNotes
  rw [hpq.roots, hpq.orphans, hpq.filterMap_failureNote halike happs (.inl rfl) fun _ hr => hr,
    hpq.filterMap_failureNote halike happs (.inr rfl) horphans, List.filterMap_congr happlications]

/-- The applications in whose trees nothing fails correspond. -/
theorem Twin.thriving : q.thriving t' snapshot = (p.thriving t snapshot).map (Handle.moved n m) := by
  unfold Pass.thriving
  rw [hpq.filterMap_get?, List.filter_map]
  refine congrArg _ (List.filter_congr fun root hr => ?_)
  have hroot : root ∈ p.roots snapshot .entity := List.mem_append_left _ hr
  exact congrArg Option.isNone (hpq.reportOf halike happs (.inr rfl) hroot)

end Alike

end Pass

end ManagementPlane
