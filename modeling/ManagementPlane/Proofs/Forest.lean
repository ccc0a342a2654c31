import ManagementPlane.Pass.Management
import ManagementPlane.Proofs.Shells
import ManagementPlane.Proofs.Traversal
import Mathlib.Data.Fintype.Card
import Mathlib.Data.Set.Finite.Basic

/-!
# The trees of the last phase

* `Scratch.Below`, `Scratch.Names` : a shell lies right below those that list it and the one it names as its parent;
* `Pass.roots`, `Pass.tree`, `Pass.visits` : the roots of a kind in the order in which their trees are managed, the tree of
  a root, and the trees one behind the other;
* `Pass.mem_tree_iff` : a tree holds what can be reached from its root;
* `Pass.exists_root` : where parents form no cycles every shell is reached from a root;
* `Pass.SameShape` : what the roots and the trees depend on.
-/

namespace ManagementPlane

open Relation (ReflTransGen TransGen)

/-! ## Parents and children among shells -/

/-- The shell `b` lies right below `a`: it is listed by `a`, or it names `a` as its parent. -/
def Scratch.Below (s : Scratch) (p : Plane) (k : ObjectKind) (a b : Handle) : Prop :=
  b ∈ s.shells k ∧ ((p.read b).id ∈ (p.read a).children ∨ (p.read b).parent = some (p.read a).id)

/-- The shell `a` is the one that `b` names as its parent. -/
def Scratch.Names (s : Scratch) (p : Plane) (k : ObjectKind) (b a : Handle) : Prop :=
  a ∈ s.shells k ∧ (p.read b).parent = some (p.read a).id

/-- Following parents through the shells of a kind never leads back. -/
def Scratch.Acyclic (s : Scratch) (p : Plane) (k : ObjectKind) : Prop :=
  ∀ h ∈ s.shells k, ¬TransGen (s.Names p k) h h

/-- The kinds of objects that the live manager has registries for. -/
def ObjectKind.Registered (k : ObjectKind) : Prop := k = .location ∨ k = .entity

theorem ObjectKind.Registered.mem {k : ObjectKind} (h : k.Registered) : k ∈ [ObjectKind.location, .entity] := by
  rcases h with rfl | rfl <;> decide

theorem ObjectKind.Registered.isAdjunct {k : ObjectKind} (h : k.Registered) : k.isAdjunct = false := by
  rcases h with rfl | rfl <;> rfl

/-- Where parents rank below those that name them, following parents never leads back. -/
theorem Scratch.acyclic_of_rank {s : Scratch} {p : Plane} {k : ObjectKind} (rank : Handle → Nat)
    (h : ∀ b ∈ s.shells k, ∀ a ∈ s.shells k, (p.read b).parent = some (p.read a).id → rank a < rank b) :
    s.Acyclic p k := by
  have hlt : ∀ b ∈ s.shells k, ∀ a, TransGen (s.Names p k) b a → a ∈ s.shells k ∧ rank a < rank b := by
    intro b hb a hba
    induction hba with
    | single hstep => exact ⟨hstep.1, h b hb _ hstep.1 hstep.2⟩
    | tail _ hstep ih => exact ⟨hstep.1, (h _ ih.1 _ hstep.1 hstep.2).trans ih.2⟩
  exact fun b hb hbb => Nat.lt_irrefl _ (hlt b hb b hbb).2

/-- No shell that another one names as its parent names a parent itself. -/
def Scratch.Shallow (s : Scratch) (p : Plane) (k : ObjectKind) : Prop :=
  ∀ b ∈ s.shells k, ∀ a ∈ s.shells k, (p.read b).parent = some (p.read a).id → (p.read a).parent = none

instance (s : Scratch) (p : Plane) (k : ObjectKind) : Decidable (s.Shallow p k) :=
  inferInstanceAs (Decidable (∀ b ∈ _, ∀ a ∈ _, _ → _))

theorem Scratch.Shallow.acyclic {s : Scratch} {p : Plane} {k : ObjectKind} (h : s.Shallow p k) :
    s.Acyclic p k := by
  refine acyclic_of_rank (fun a => (p.read a).parent.toList.length) fun b hb a ha hp => ?_
  rw [h b hb a ha hp, hp]
  exact Nat.zero_lt_one

namespace Pass

variable {σ : Type} {n : Nat} {p q : Pass σ} {k : ObjectKind} {snapshot : Snapshot} {a b root : Handle}

/-! ## Roots and trees -/

/-- The roots of a kind in the order in which their trees are managed: the locations whose parent has no shell;
the applications and then the other entities whose parent has no shell. -/
def roots (p : Pass σ) (snapshot : Snapshot) : ObjectKind → List Handle
  | .location => (p.scratch.shells .location).filter (p.isRoot .location)
  | _ => snapshot.applicationIds.filterMap (p.scratch.get? .entity) ++
      (p.scratch.shells .entity).filter fun s =>
        !snapshot.applicationIds.contains (p.plane.read s).id && p.isRoot .entity s

/-- The tree of a root, in the order in which it is managed. -/
def tree (p : Pass σ) (k : ObjectKind) (root : Handle) : List Handle :=
  p.plane.treeOrder (p.family k) root

/-- The trees of all roots, one behind the other. -/
def visits (p : Pass σ) (snapshot : Snapshot) (k : ObjectKind) : List Handle :=
  (p.roots snapshot k).flatMap (p.tree k)

theorem mem_declaredChildren_iff (hs : p.scratch.Sound n p.plane) (id : String) :
    (p.plane.read b).id ∈ p.declaredChildren k id ∧ b ∈ p.scratch.shells k ↔
      b ∈ p.scratch.shells k ∧ (p.plane.read b).parent = some id := by
  unfold declaredChildren
  simp only [List.mem_filterMap, List.mem_map, Option.ite_none_right_eq_some, Option.some.injEq]
  constructor
  · rintro ⟨⟨_, ⟨c, hc, rfl⟩, hp, hid⟩, hb⟩
    obtain rfl := hs.shell_ext (hs.mem_shells_iff.1 hc) (hs.mem_shells_iff.1 hb) hid
    exact ⟨hb, hp⟩
  · rintro ⟨hb, hp⟩
    exact ⟨⟨_, ⟨b, hb, rfl⟩, hp, rfl⟩, hb⟩

theorem entries_family (hs : p.scratch.Sound n p.plane) (k : ObjectKind) :
    (p.family k).entries = (p.scratch.shells k).map fun s =>
      ((p.plane.read s).id, (p.childIds k (p.plane.read s)).filterMap (p.scratch.get? k)) := by
  unfold family
  rw [OrderedMap.entries_ofList]
  rw [List.map_map]
  exact hs.ids_shells_nodup k

theorem get?_family (hs : p.scratch.Sound n p.plane) (ha : a ∈ p.scratch.shells k) :
    (p.family k).get? (p.plane.read a).id =
      some ((p.childIds k (p.plane.read a)).filterMap (p.scratch.get? k)) := by
  rw [OrderedMap.get?_eq_some_iff, entries_family hs]
  exact List.mem_map.2 ⟨a, ha, rfl⟩

/-- What the table of families has below a shell is what lies right below it. -/
theorem child_family_iff (hs : p.scratch.Sound n p.plane) (ha : a ∈ p.scratch.shells k) :
    p.plane.Child (p.family k) a b ↔ p.scratch.Below p.plane k a b := by
  have hshell : b ∈ (p.childIds k (p.plane.read a)).filterMap (p.scratch.get? k) ↔
      b ∈ p.scratch.shells k ∧ (p.plane.read b).id ∈ p.childIds k (p.plane.read a) := by
    rw [List.mem_filterMap]
    constructor
    · rintro ⟨id, hid, hg⟩
      obtain rfl := hs.id hg
      exact ⟨hs.mem_shells_iff.2 hg, hid⟩
    · rintro ⟨hb, hid⟩
      exact ⟨_, hid, hs.mem_shells_iff.1 hb⟩
  have hdeclared := mem_declaredChildren_iff hs (k := k) (b := b) (p.plane.read a).id
  unfold Plane.Child Plane.Under Plane.childrenIn Scratch.Below
  rw [get?_family hs ha, Option.getD_some, hshell]
  unfold childIds
  simp only [List.mem_append, List.mem_filter, Bool.not_eq_true', List.contains_eq_mem,
    decide_eq_false_iff_not]
  by_cases hc : (p.plane.read b).id ∈ (p.plane.read a).children
  · simp only [hc, true_or]
  · simp only [hc, not_false_eq_true, and_true, false_or]
    rw [and_comm, hdeclared]

theorem shell_of_reaches (hr : root ∈ p.scratch.shells k)
    (h : ReflTransGen (p.scratch.Below p.plane k) root a) : a ∈ p.scratch.shells k := by
  cases h with
  | refl => exact hr
  | tail _ hb => exact hb.1

/-- In the table of families, what can be reached from a shell is what lies below it. -/
theorem reaches_family_iff (hs : p.scratch.Sound n p.plane) (hr : root ∈ p.scratch.shells k) :
    ReflTransGen (p.plane.Child (p.family k)) root a ↔
      ReflTransGen (p.scratch.Below p.plane k) root a := by
  constructor
  · intro h
    induction h with
    | refl => exact .refl
    | tail _ hchild ih => exact ih.tail ((child_family_iff hs (shell_of_reaches hr ih)).1 hchild)
  · intro h
    induction h with
    | refl => exact .refl
    | tail hreach hbelow ih => exact ih.tail ((child_family_iff hs (shell_of_reaches hr hreach)).2 hbelow)

/-- A tree holds what can be reached from its root. -/
theorem mem_tree_iff (hs : p.scratch.Sound n p.plane) (hr : root ∈ p.scratch.shells k) :
    a ∈ p.tree k root ↔ ReflTransGen (p.scratch.Below p.plane k) root a := by
  unfold tree
  rw [Plane.mem_treeOrder_iff, reaches_family_iff hs hr]
  intro x y hx hy hid
  rw [reaches_family_iff hs hr] at hx hy
  exact hs.shell_ext (hs.mem_shells_iff.1 (shell_of_reaches hr hx))
    (hs.mem_shells_iff.1 (shell_of_reaches hr hy)) hid

theorem mem_roots_location_iff :
    root ∈ p.roots snapshot .location ↔ root ∈ p.scratch.shells .location ∧ p.isRoot .location root := by
  rw [roots, List.mem_filter]

theorem mem_roots_entity_iff (hs : p.scratch.Sound n p.plane) :
    root ∈ p.roots snapshot .entity ↔ root ∈ p.scratch.shells .entity ∧
      ((p.plane.read root).id ∈ snapshot.applicationIds ∨ p.isRoot .entity root) := by
  unfold roots
  simp only [List.mem_append, List.mem_filterMap, List.mem_filter, Bool.and_eq_true, Bool.not_eq_true',
    List.contains_eq_mem, decide_eq_false_iff_not]
  constructor
  · rintro (⟨id, hid, hg⟩ | ⟨hr, -, hroot⟩)
    · obtain rfl := hs.id hg
      exact ⟨hs.mem_shells_iff.2 hg, Or.inl hid⟩
    · exact ⟨hr, Or.inr hroot⟩
  · rintro ⟨hr, happ⟩
    by_cases hid : (p.plane.read root).id ∈ snapshot.applicationIds
    · exact Or.inl ⟨_, hid, hs.mem_shells_iff.1 hr⟩
    · exact Or.inr ⟨hr, hid, happ.resolve_left hid⟩

theorem shell_of_mem_roots (hs : p.scratch.Sound n p.plane) (hk : k.Registered)
    (hr : root ∈ p.roots snapshot k) : root ∈ p.scratch.shells k := by
  rcases hk with rfl | rfl
  · exact (mem_roots_location_iff.1 hr).1
  · exact ((mem_roots_entity_iff hs).1 hr).1

/-- A shell whose parent has no shell is a root. -/
theorem mem_roots_of_isRoot (hs : p.scratch.Sound n p.plane) (hk : k.Registered)
    (hr : root ∈ p.scratch.shells k) (hroot : p.isRoot k root) : root ∈ p.roots snapshot k := by
  rcases hk with rfl | rfl
  · exact mem_roots_location_iff.2 ⟨hr, hroot⟩
  · exact (mem_roots_entity_iff hs).2 ⟨hr, Or.inr hroot⟩

theorem mem_visits_iff (hs : p.scratch.Sound n p.plane) (hk : k.Registered) :
    a ∈ p.visits snapshot k ↔
      ∃ root ∈ p.roots snapshot k, ReflTransGen (p.scratch.Below p.plane k) root a := by
  rw [visits, List.mem_flatMap]
  constructor
  · rintro ⟨root, hr, ha⟩
    exact ⟨root, hr, (mem_tree_iff hs (shell_of_mem_roots hs hk hr)).1 ha⟩
  · rintro ⟨root, hr, ha⟩
    exact ⟨root, hr, (mem_tree_iff hs (shell_of_mem_roots hs hk hr)).2 ha⟩

theorem shell_of_mem_visits (hs : p.scratch.Sound n p.plane) (hk : k.Registered)
    (ha : a ∈ p.visits snapshot k) : a ∈ p.scratch.shells k := by
  obtain ⟨root, hr, hreach⟩ := (mem_visits_iff hs hk).1 ha
  exact shell_of_reaches (shell_of_mem_roots hs hk hr) hreach

/-! ## Every shell has a root above it -/

theorem isRoot_iff (hs : p.scratch.Sound n p.plane) :
    p.isRoot k a = true ↔ ∀ b, ¬p.scratch.Names p.plane k a b := by
  unfold isRoot Scratch.Names
  rw [Option.isNone_iff_eq_none, Option.bind_eq_none_iff]
  constructor
  · rintro h b ⟨hb, hp⟩
    have hnone := h _ hp
    rw [hs.mem_shells_iff.1 hb] at hnone
    cases hnone
  · intro h id hp
    rcases hg : p.scratch.get? k id with _ | b
    · rfl
    · obtain rfl := hs.id hg
      exact absurd ⟨hs.mem_shells_iff.2 hg, hp⟩ (h b)

/-- Where parents form no cycles every shell is reached from a root. -/
theorem exists_root (hs : p.scratch.Sound n p.plane) (hk : k.Registered)
    (hac : p.scratch.Acyclic p.plane k) (ha : a ∈ p.scratch.shells k) :
    ∃ root ∈ p.roots snapshot k, ReflTransGen (p.scratch.Below p.plane k) root a := by
  -- climbing goes through finitely many shells and never comes back, so it ends
  let Above (x y : { x // x ∈ p.scratch.shells k }) : Prop := TransGen (p.scratch.Names p.plane k) y.1 x.1
  have : IsTrans _ Above := ⟨fun _ _ _ hxy hyz => hyz.trans hxy⟩
  have : Std.Irrefl Above := ⟨fun x => hac x.1 x.2⟩
  have : Finite { x // x ∈ p.scratch.shells k } := (List.finite_toSet (p.scratch.shells k)).to_subtype
  have hwf : WellFounded Above := Finite.wellFounded_of_trans_of_irrefl Above
  suffices h : ∀ x : { x // x ∈ p.scratch.shells k }, ∃ root ∈ p.roots snapshot k,
      ReflTransGen (p.scratch.Below p.plane k) root x.1 from h ⟨a, ha⟩
  intro x
  induction x using hwf.induction with
  | _ x ih =>
    by_cases hroot : p.isRoot k x.1 = true
    · exact ⟨x.1, mem_roots_of_isRoot hs hk x.2 hroot, .refl⟩
    · rw [isRoot_iff hs] at hroot
      push Not at hroot
      obtain ⟨y, hy⟩ := hroot
      obtain ⟨root, hr, hreach⟩ := ih ⟨y, hy.1⟩ (.single hy)
      exact ⟨root, hr, hreach.tail ⟨x.2, Or.inr hy.2⟩⟩

theorem mem_visits_of_acyclic (hs : p.scratch.Sound n p.plane) (hk : k.Registered)
    (hac : p.scratch.Acyclic p.plane k) : a ∈ p.visits snapshot k ↔ a ∈ p.scratch.shells k :=
  ⟨shell_of_mem_visits hs hk, fun ha => (mem_visits_iff hs hk).2 (exists_root hs hk hac ha)⟩

/-! ## How often a shell comes up -/

theorem roots_nodup (hs : p.scratch.Sound n p.plane) (hk : k.Registered)
    (happs : snapshot.applicationIds.Nodup) : (p.roots snapshot k).Nodup := by
  rcases hk with rfl | rfl
  · exact (hs.shells_nodup .location).filter _
  · refine List.nodup_append.2 ⟨?_, (hs.shells_nodup .entity).filter _, ?_⟩
    · refine happs.filterMap fun i j a hi hj => ?_
      exact (hs.id hi).symm.trans (hs.id hj)
    · rintro a ha b hb rfl
      obtain ⟨id, hid, hg⟩ := List.mem_filterMap.1 ha
      have hnot := (List.mem_filter.1 hb).2
      simp only [hs.id hg, Bool.and_eq_true, Bool.not_eq_true', List.contains_eq_mem,
        decide_eq_false_iff_not] at hnot
      exact hnot.1 hid

/-- Lists without repetition make one in which something comes up once if it is in one of them only. -/
theorem count_flatMap_eq_one_iff {roots : List Handle} {f : Handle → List Handle} (hnd : roots.Nodup)
    (hf : ∀ r, (f r).Nodup) (ha : a ∈ roots.flatMap f) :
    (roots.flatMap f).count a = 1 ↔ ∀ r ∈ roots, ∀ s ∈ roots, a ∈ f r → a ∈ f s → r = s := by
  induction roots with
  | nil => cases ha
  | cons r roots ih =>
    rw [List.nodup_cons] at hnd
    rw [List.flatMap_cons, List.count_append]
    by_cases har : a ∈ f r
    · rw [List.count_eq_one_of_mem (hf r) har]
      constructor
      · intro hc
        have hrest : ∀ s ∈ roots, a ∉ f s := fun s hs has => by
          have : 0 < (roots.flatMap f).count a := List.count_pos_iff.2 (List.mem_flatMap.2 ⟨s, hs, has⟩)
          omega
        intro x hx y hy hax hay
        rw [(List.mem_cons.1 hx).resolve_right fun hx => hrest x hx hax,
          (List.mem_cons.1 hy).resolve_right fun hy => hrest y hy hay]
      · intro hone
        rw [List.count_eq_zero_of_not_mem]
        intro hm
        obtain ⟨s, hs, has⟩ := List.mem_flatMap.1 hm
        obtain rfl := hone r List.mem_cons_self s (List.mem_cons_of_mem _ hs) har has
        exact hnd.1 hs
    · have hm : a ∈ roots.flatMap f := by
        rw [List.flatMap_cons, List.mem_append] at ha
        exact ha.resolve_left har
      rw [List.count_eq_zero_of_not_mem har, Nat.zero_add, ih hnd.2 hm]
      constructor
      · intro hone x hx y hy hax hay
        exact hone x ((List.mem_cons.1 hx).resolve_left fun he => har (he ▸ hax)) y
          ((List.mem_cons.1 hy).resolve_left fun he => har (he ▸ hay)) hax hay
      · exact fun hone x hx y hy => hone x (List.mem_cons_of_mem _ hx) y (List.mem_cons_of_mem _ hy)

theorem tree_nodup (p : Pass σ) (k : ObjectKind) (root : Handle) : (p.tree k root).Nodup :=
  Plane.treeOrder_nodup _ _ _

/-- A shell is managed once if one root only leads to it. -/
theorem count_visits_eq_one_iff (hs : p.scratch.Sound n p.plane) (hk : k.Registered)
    (happs : snapshot.applicationIds.Nodup) (ha : a ∈ p.visits snapshot k) :
    (p.visits snapshot k).count a = 1 ↔ ∀ r ∈ p.roots snapshot k, ∀ s ∈ p.roots snapshot k,
      ReflTransGen (p.scratch.Below p.plane k) r a → ReflTransGen (p.scratch.Below p.plane k) s a →
      r = s := by
  unfold visits
  rw [count_flatMap_eq_one_iff (roots_nodup hs hk happs) (p.tree_nodup k) ha]
  refine forall₂_congr fun r hr => forall₂_congr fun s hs' => ?_
  rw [mem_tree_iff hs (shell_of_mem_roots hs hk hr), mem_tree_iff hs (shell_of_mem_roots hs hk hs')]

/-! ## What trees depend on -/

/-- Two passes with the same shells, which have the same ids, parents and children. -/
structure SameShape (p q : Pass σ) : Prop where
  scratch : q.scratch = p.scratch
  id : ∀ h, (q.plane.read h).id = (p.plane.read h).id
  parent : ∀ h, (q.plane.read h).parent = (p.plane.read h).parent
  children : ∀ h, (q.plane.read h).children = (p.plane.read h).children

namespace SameShape

theorem family (h : SameShape p q) (k : ObjectKind) : q.family k = p.family k := by
  unfold Pass.family childIds declaredChildren
  simp only [h.scratch, h.id, h.children, List.filterMap_map, Function.comp_def, h.parent]

theorem isRoot (h : SameShape p q) (k : ObjectKind) (a : Handle) : q.isRoot k a = p.isRoot k a := by
  unfold Pass.isRoot
  rw [h.parent, h.scratch]

theorem roots (h : SameShape p q) (snapshot : Snapshot) (k : ObjectKind) :
    q.roots snapshot k = p.roots snapshot k := by
  unfold Pass.roots
  simp only [h.scratch, h.id, funext (h.isRoot _)]

theorem tree (h : SameShape p q) (k : ObjectKind) (root : Handle) : q.tree k root = p.tree k root := by
  unfold Pass.tree Plane.treeOrder
  simp only [h.family, h.id]

theorem names (h : SameShape p q) (k : ObjectKind) :
    q.scratch.Names q.plane k = p.scratch.Names p.plane k := by
  funext b a
  unfold Scratch.Names
  rw [h.scratch, h.parent, h.id]

theorem below (h : SameShape p q) (k : ObjectKind) :
    q.scratch.Below q.plane k = p.scratch.Below p.plane k := by
  funext a b
  unfold Scratch.Below
  rw [h.scratch, h.id, h.id, h.parent, h.children]

theorem acyclic (h : SameShape p q) (k : ObjectKind) :
    q.scratch.Acyclic q.plane k ↔ p.scratch.Acyclic p.plane k := by
  unfold Scratch.Acyclic
  rw [h.names, h.scratch]

theorem visits (h : SameShape p q) (snapshot : Snapshot) (k : ObjectKind) :
    q.visits snapshot k = p.visits snapshot k := by
  unfold Pass.visits
  rw [h.roots, funext (h.tree k)]

end SameShape

end Pass

end ManagementPlane
