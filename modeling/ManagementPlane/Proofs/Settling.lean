import ManagementPlane.Proofs.LastPhase

/-!
# The last phase as a whole

* `Pass.Settled t n k order p q` : `q` is `p` after the shells of kind `k` in `order` were managed and what has no shell was
  dropped; `Pass.Parts.settled` puts it together from the three parts;
* `Pass.ends_manageLocations`, `Pass.ends_manageEntities` : each half of the last phase settles its kind;
* `Pass.Closing t n snapshot p q` : `q` is `p` after the last phase, and `Pass.ends_manageAll`.
-/

namespace ManagementPlane

variable {σ : Type}

open Plane (Manageable Managed Dropped)

namespace Pass

variable {t : Task} {h : Handler σ} {n : Nat} {p q r s : Pass σ} {k : ObjectKind} {order : List Handle}

/-- The shells of a kind can be managed. -/
theorem manageable_of_shells (hs : p.scratch.Sound n p.plane) (hsub : ∀ a ∈ order, a ∈ p.scratch.shells k) :
    Manageable k order p.plane where
  valid a ha := hs.valid (hs.mem_shells_iff.1 (hsub a ha))
  kind a ha := hs.kind (hs.mem_shells_iff.1 (hsub a ha))
  inj a ha b hb := hs.shell_ext (hs.mem_shells_iff.1 (hsub a ha)) (hs.mem_shells_iff.1 (hsub b hb))

/-- The ids of the shells of a kind. -/
def shellIds (p : Pass σ) (k : ObjectKind) : List String :=
  (p.scratch.shells k).map fun s => (p.plane.read s).id

theorem mem_shellIds_iff (hs : p.scratch.Sound n p.plane) {id : String} :
    id ∈ p.shellIds k ↔ p.scratch.contains k id = true := by
  rw [shellIds, hs.ids_shells, ← OrderedMap.contains_iff]
  rfl

theorem mem_unused_iff (hs : p.scratch.Sound n p.plane) {id : String} :
    id ∈ p.unused k ↔ id ∈ (p.plane.registry k).ids ∧ p.scratch.get? k id = none := by
  rw [unused, List.mem_filter]
  show _ ∧ (!(p.shellIds k).contains id) = true ↔ _
  rw [Bool.not_eq_true', List.contains_eq_mem, decide_eq_false_iff_not, mem_shellIds_iff hs,
    Scratch.contains_eq_isSome, Bool.not_eq_true, Option.isSome_eq_false_iff, Option.isNone_iff_eq_none]

theorem unused_nodup (p : Pass σ) (k : ObjectKind) : (p.unused k).Nodup :=
  (OrderedMap.keys_nodup _).filter _

/-! ## One kind -/

/-- The transition that is noted for a shell. -/
def chosenFor (t : Task) (p : Pass σ) (k : ObjectKind) (a : Handle) : Transition := chosen t p k (p.plane.read a).id

/-- The transition that a shell is left with when the objects in `order` have been managed. -/
def settledMode (t : Task) (p : Pass σ) (k : ObjectKind) (order : List Handle) (a : Handle) : Transition :=
  if order.count a = 1 then chosen t p k (p.plane.read a).id else .rebindingCreating

/-- What is left of `p`, which found `n` objects, when the shells of kind `k` in `order` have been managed and what has no
shell has been dropped. -/
structure Settled (t : Task) (n : Nat) (k : ObjectKind) (order : List Handle) (p q : Pass σ) : Prop where
  iteration : q.toIteration = p.toIteration
  size : q.plane.heap.size = p.plane.heap.size
  closed : q.plane.Closed
  other : ∀ j, ¬(j = .location ↔ k = .location) → q.plane.registry j = p.plane.registry j
  readManaged : ∀ a ∈ order,
    q.plane.read a = (p.plane.read a).managedWith (settledMode t p k order a)
  readShell : ∀ a, a ∉ order → n ≤ a.index → q.plane.read a = p.plane.read a
  readOld : ∀ a, a.index < n →
    q.plane.read a = p.plane.read a ∨ q.plane.read a = (p.plane.read a).noteManaged none
  entered : ∀ a ∈ order, (q.plane.registry k).objects.get? (p.plane.read a).id =
    some ⟨a, settledMode t p k order a⟩
  passed : ∀ a ∈ p.scratch.shells k, a ∉ order →
    (q.plane.registry k).objects.get? (p.plane.read a).id =
      (p.plane.registry k).objects.get? (p.plane.read a).id
  absent : ∀ id, p.scratch.get? k id = none → (q.plane.registry k).objects.get? id = none
  managedCalls : q.plane.managedCalls k = p.plane.managedCalls k ++ Plane.callsIn (chosenFor t p k) [] order
  otherCalls : ∀ j, j ≠ k → q.plane.managedCalls j = p.plane.managedCalls j
  unmanagedCalls : q.plane.unmanagedCalls = p.plane.unmanagedCalls ++ p.plane.dropCalls k (p.unused k)

/-- The three parts of a half of the last phase: in `q` the transitions are noted, in `r` the shells in `order` have been
managed, and in `s` what has no shell has been dropped. -/
structure Parts (t : Task) (n : Nat) (k : ObjectKind) (order : List Handle) (p q r s : Pass σ) : Prop where
  sound : p.scratch.Sound n p.plane
  closed : p.plane.Closed
  old : ∀ id a, (p.plane.registry k).get? id = some a → a.index < n
  shells : ∀ a ∈ order, a ∈ p.scratch.shells k
  noted : Noted t k (p.shellIds k) p q
  managed : Managed k order q.plane r.plane
  dropped : Dropped k (p.unused k) r.plane s.plane
  iteration : s.toIteration = p.toIteration

namespace Parts

variable {a : Handle} {id : String} (hp : Parts t n k order p q r s)
include hp

theorem get?_id (ha : a ∈ order) : p.scratch.get? k (p.plane.read a).id = some a :=
  hp.sound.mem_shells_iff.1 (hp.shells a ha)

theorem mem_shellIds (ha : a ∈ order) : (p.plane.read a).id ∈ p.shellIds k := List.mem_map_of_mem (hp.shells a ha)

theorem finalMode_eq (ha : a ∈ order) : q.plane.finalMode k order a = settledMode t p k order a := by
  rw [Plane.finalMode, settledMode, hp.noted.noted (hp.mem_shellIds ha)]

theorem get?_of_mem_unused (hid : id ∈ p.unused k) : p.scratch.get? k id = none := ((mem_unused_iff hp.sound).1 hid).2

/-- An id without a shell is out of reach for what has been managed. -/
theorem objects_of_get?_eq_none (hid : p.scratch.get? k id = none) :
    (r.plane.registry k).objects.get? id = (p.plane.registry k).objects.get? id := by
  rw [hp.managed.untouched, hp.noted.objects]
  intro a ha he
  rw [hp.noted.read] at he
  rw [← he, hp.get?_id ha] at hid
  cases hid

/-- What is dropped was there before the pass. -/
theorem read_of_le (ha : n ≤ a.index) : s.plane.read a = r.plane.read a := by
  rcases hp.dropped.read a with hread | ⟨⟨id, hid, hg⟩, -⟩
  · exact hread
  · rw [Registry.get?, hp.objects_of_get?_eq_none (hp.get?_of_mem_unused hid)] at hg
    exact absurd (hp.old id a hg) (by omega)

/-- What has a shell is not dropped. -/
theorem objects_of_shell (ha : a ∈ p.scratch.shells k) : (s.plane.registry k).objects.get? (p.plane.read a).id =
    (r.plane.registry k).objects.get? (p.plane.read a).id := by
  rw [hp.dropped.lookup, if_neg]
  intro hu
  have hnone := hp.get?_of_mem_unused hu
  rw [hp.sound.mem_shells_iff.1 ha] at hnone
  cases hnone

/-- Different shells have different ids. -/
theorem id_ne_of_not_mem (ha : a ∈ p.scratch.shells k) (hna : a ∉ order) :
    ∀ b ∈ order, (q.plane.read b).id ≠ (p.plane.read a).id := by
  intro b hb he
  rw [hp.noted.read] at he
  exact hna (hp.sound.shell_ext (hp.get?_id hb) (hp.sound.mem_shells_iff.1 ha) he ▸ hb)

/-- Noting transitions, managing shells and dropping what has no shell settles a kind. -/
theorem settled : Settled t n k order p s where
  iteration := hp.iteration
  size := (hp.dropped.size.trans hp.managed.size).trans (congrArg Heap.size hp.noted.heap)
  closed := by
    refine hp.dropped.closed (hp.managed.closed (hp.noted.closed hp.closed) fun a ha => ?_)
    exact (hp.noted.manageable (manageable_of_shells hp.sound hp.shells)).valid a ha
  other j hj := by rw [hp.dropped.other j hj, hp.managed.other j hj, hp.noted.other j hj]
  readManaged a ha := by
    rw [hp.read_of_le (hp.sound.fresh (hp.get?_id ha)), hp.managed.read, if_pos ha, hp.noted.read, hp.finalMode_eq ha]
  readShell a hna hn := by rw [hp.read_of_le hn, hp.managed.read, if_neg hna, hp.noted.read]
  readOld a hn := by
    have hna : a ∉ order := fun ha => absurd (hp.sound.fresh (hp.get?_id ha)) (by omega)
    have hread : r.plane.read a = p.plane.read a := by rw [hp.managed.read, if_neg hna, hp.noted.read]
    rw [← hread]
    exact (hp.dropped.read a).imp_right And.right
  entered a ha := by rw [hp.objects_of_shell (hp.shells a ha), ← hp.noted.read, hp.managed.entered a ha, hp.finalMode_eq ha]
  passed a ha hna := by
    rw [hp.objects_of_shell ha, hp.managed.untouched _ (hp.id_ne_of_not_mem ha hna), hp.noted.objects]
  absent id hid := by
    rw [hp.dropped.lookup]
    split
    · rfl
    · next hu =>
      rw [hp.objects_of_get?_eq_none hid, OrderedMap.get?_eq_none_iff]
      exact fun hm => hu ((mem_unused_iff hp.sound).2 ⟨hm, hid⟩)
  managedCalls := by
    rw [hp.dropped.managedCalls, hp.managed.calls, hp.noted.managedCalls]
    refine congrArg (_ ++ ·) (Plane.callsIn_congr fun a ha => ?_)
    rw [if_neg List.not_mem_nil, if_neg List.not_mem_nil, hp.noted.noted (hp.mem_shellIds ha), chosenFor]
  otherCalls j hj := by rw [hp.dropped.managedCalls, hp.managed.otherCalls j hj, hp.noted.managedCalls]
  unmanagedCalls := by
    rw [hp.dropped.unmanagedCalls, hp.managed.unmanagedCalls, hp.noted.unmanagedCalls]
    congr 1
    refine List.filterMap_congr fun id hid => ?_
    rw [Registry.get?, hp.objects_of_get?_eq_none (hp.get?_of_mem_unused hid)]
    rfl

end Parts

/-! ## The halves of the last phase -/

theorem ends_destroyUnused {ids : List String} (hnd : ids.Nodup) (p : Pass σ) :
    Step.Ends (fun _ q => q.toIteration = p.toIteration ∧
        ∃ r : Pass σ, Echo p r ∧ Dropped k ids r.plane q.plane) (destroyUnused t k ids) p := by
  unfold destroyUnused
  split
  · refine .read_bind (Step.Ends.bind (ends_log _ _ p) fun _ r hr => .update ⟨hr.1, r, hr, ?_⟩)
    exact Plane.dropped_dropAll hnd
  · next hids =>
    have : ids = [] := by simpa using hids
    subst this
    exact .pure ⟨rfl, p, ⟨rfl, .refl _⟩, .nil k p.plane⟩

/-- What both halves end with, once the transitions have been noted and the trees managed. -/
theorem ends_half (hs : p.scratch.Sound n p.plane) (hclosed : p.plane.Closed)
    (hold : ∀ id a, (p.plane.registry k).get? id = some a → a.index < n)
    (hsub : ∀ a ∈ order, a ∈ p.scratch.shells k) (h₁ : Noted t k (p.shellIds k) p q)
    (h₂ : ManagedIn k order q r) :
    Step.Ends (fun _ s => Settled t n k order p s) (destroyUnused t k (p.unused k)) r := by
  refine (ends_destroyUnused (unused_nodup p k) r).imp fun _ s ⟨hi, r', he, hd⟩ => ?_
  have hparts : Parts t n k order p q r' s :=
    ⟨hs, hclosed, hold, hsub, h₁, h₂.2.echo he.2, hd, hi.trans (h₂.1.trans h₁.iteration)⟩
  exact hparts.settled

theorem Echo.sameShape (he : Echo p q) : SameShape p q where
  scratch := congrArg Iteration.scratch he.1
  id a := by rw [he.2.read]
  parent a := by rw [he.2.read]
  children a := by rw [he.2.read]

theorem SameShape.shellIds (hq : SameShape p q) (k : ObjectKind) : q.shellIds k = p.shellIds k := by
  unfold Pass.shellIds
  simp only [hq.scratch, hq.id]

theorem Echo.unused (he : Echo p q) (k : ObjectKind) : q.unused k = p.unused k := by
  show (q.plane.registry k).ids.filter (fun id => !(q.shellIds k).contains id) = _
  rw [he.2.registry, he.sameShape.shellIds]
  rfl

theorem ends_noteTransitions (he : Echo p q) (k : ObjectKind) :
    Step.Ends (fun old r => old = p.unused k ∧ Noted t k (p.shellIds k) p r)
      (noteTransitions t k) q := by
  refine .total ⟨he.unused k, ?_⟩
  rw [← he.sameShape.shellIds k]
  exact .of_echo he (noted_foldl _ q)

/-- Managing locations settles them. -/
theorem ends_manageLocations (ha : h.Accepting) (hs : p.scratch.Sound n p.plane)
    (hclosed : p.plane.Closed)
    (hold : ∀ id a, (p.plane.registry .location).get? id = some a → a.index < n)
    (snapshot : Snapshot) :
    Step.Ends (fun _ q => Settled t n .location (p.visits snapshot .location) p q)
      (manageLocations t h) p := by
  have hsub : ∀ a ∈ p.visits snapshot .location, a ∈ p.scratch.shells .location :=
    fun a ha => shell_of_mem_visits hs (Or.inl rfl) ha
  refine (ends_logCourse _ p).bind fun _ p' he => ?_
  refine (ends_noteTransitions he .location).bind fun old q ⟨hold', h₁⟩ => ?_
  subst hold'
  have hshape := h₁.sameShape
  have hroots : (q.scratch.shells .location).filter (q.isRoot .location) =
      p.roots snapshot .location := by
    rw [← hshape.roots snapshot, roots]
  have htrees : (p.roots snapshot .location).flatMap (q.plane.treeOrder (p.family .location)) =
      p.visits snapshot .location := by
    rw [funext (Plane.treeOrder_congr hshape.id _)]
    rfl
  refine .read_bind (.read_bind ?_)
  rw [hroots, hshape.family]
  have hmanage := ends_manageRoots (k := .location) (p := q) ha (p.family .location)
    (p.roots snapshot .location)
    (htrees ▸ h₁.manageable (manageable_of_shells hs hsub))
  rw [htrees] at hmanage
  exact hmanage.bind fun _ r h₂ => ends_half hs hclosed hold hsub h₁ h₂

/-- Managing entities settles them. -/
theorem ends_manageEntities (ha : h.Accepting) (hs : p.scratch.Sound n p.plane)
    (hclosed : p.plane.Closed) (hold : ∀ id a, (p.plane.registry .entity).get? id = some a → a.index < n)
    (snapshot : Snapshot) :
    Step.Ends (fun _ q => Settled t n .entity (p.visits snapshot .entity) p q)
      (manageEntities t h snapshot) p := by
  have hsub : ∀ a ∈ p.visits snapshot .entity, a ∈ p.scratch.shells .entity :=
    fun a ha => shell_of_mem_visits hs (Or.inr rfl) ha
  refine (ends_logCourse _ p).bind fun _ p' he => ?_
  refine (ends_noteTransitions he .entity).bind fun old q ⟨hold', h₁⟩ => ?_
  subst hold'
  have hshape := h₁.sameShape
  obtain ⟨apps, happs⟩ : ∃ apps, apps = snapshot.applicationIds.filterMap (p.scratch.get? .entity) :=
    ⟨_, rfl⟩
  obtain ⟨orphans, horphans⟩ : ∃ orphans, orphans = (p.scratch.shells .entity).filter fun s =>
      !snapshot.applicationIds.contains (p.plane.read s).id && p.isRoot .entity s := ⟨_, rfl⟩
  have htrees : apps.flatMap (q.plane.treeOrder (p.family .entity)) ++
      orphans.flatMap (q.plane.treeOrder (p.family .entity)) = p.visits snapshot .entity := by
    rw [← List.flatMap_append, funext (Plane.treeOrder_congr hshape.id _), happs, horphans]
    rfl
  have hfit : Manageable .entity (p.visits snapshot .entity) q.plane :=
    h₁.manageable (manageable_of_shells hs hsub)
  refine .read_bind (.read_bind ?_)
  rw [hshape.family, hshape.scratch]
  simp only [hshape.id, hshape.isRoot]
  rw [← horphans]
  have hscratch : q.scratch = p.scratch := hshape.scratch
  have happlications := ends_manageApplications (p := q) ha (p.family .entity) snapshot.applicationIds
    (by rw [hscratch, ← happs]; exact hfit.mono fun a ha => htrees ▸ List.mem_append_left _ ha)
  rw [hscratch, ← happs] at happlications
  refine happlications.bind fun applications r h₂ => ?_
  have hroots := ends_manageRoots (k := .entity) (p := r) ha (p.family .entity) orphans (by
      rw [h₂.flatMap_treeOrder]
      exact h₂.2.manageable (hfit.mono fun a ha => htrees ▸ List.mem_append_right _ ha))
  rw [h₂.flatMap_treeOrder] at hroots
  refine hroots.bind fun _ s h₃ => ?_
  have hall := h₂.append h₃ (htrees ▸ hfit)
  rw [htrees] at hall
  exact (ends_half hs hclosed hold hsub h₁ hall).bind fun _ _ hsettled => .pure hsettled

/-! ## Both halves -/

theorem SameShape.of_restamped (hscratch : q.scratch = p.scratch)
    (h : ∀ a, (p.plane.read a).Restamped (q.plane.read a)) : SameShape p q :=
  ⟨hscratch, fun a => (h a).id_eq, fun a => (h a).parent_eq, fun a => (h a).children_eq⟩

namespace Settled

theorem restamped (hq : Settled t n k order p q) (a : Handle) :
    (p.plane.read a).Restamped (q.plane.read a) := by
  by_cases ha : a ∈ order
  · exact Or.inr (Or.inl ⟨_, hq.readManaged a ha⟩)
  · by_cases hn : n ≤ a.index
    · exact Or.inl (hq.readShell a ha hn)
    · exact (hq.readOld a (by omega)).imp_right Or.inr

theorem sameShape (hq : Settled t n k order p q) : SameShape p q :=
  .of_restamped (congrArg Iteration.scratch hq.iteration) hq.restamped

theorem sound (hq : Settled t n k order p q) (hs : p.scratch.Sound n p.plane) :
    q.scratch.Sound n q.plane := by
  rw [hq.sameShape.scratch]
  exact hs.carry hq.size (fun a => (hq.restamped a).kind_eq) hq.sameShape.id

end Settled

/-- What is left of `p`, which found `n` objects, when the last phase is over. -/
structure Closing (t : Task) (n : Nat) (snapshot : Snapshot) (p q : Pass σ) : Prop where
  iteration : q.toIteration = { p.toIteration with phase := 8 }
  size : q.plane.heap.size = p.plane.heap.size
  closed : q.plane.Closed
  readManaged : ∀ k, k.Registered → ∀ a ∈ p.visits snapshot k, q.plane.read a =
    (p.plane.read a).managedWith (settledMode t p k (p.visits snapshot k) a)
  readShell : ∀ a, n ≤ a.index → (∀ k, k.Registered → a ∉ p.visits snapshot k) →
    q.plane.read a = p.plane.read a
  readOld : ∀ a, a.index < n →
    q.plane.read a = p.plane.read a ∨ q.plane.read a = (p.plane.read a).noteManaged none
  entered : ∀ k, k.Registered → ∀ a ∈ p.visits snapshot k,
    (q.plane.registry k).objects.get? (p.plane.read a).id =
      some ⟨a, settledMode t p k (p.visits snapshot k) a⟩
  passed : ∀ k, k.Registered → ∀ a ∈ p.scratch.shells k, a ∉ p.visits snapshot k →
    (q.plane.registry k).objects.get? (p.plane.read a).id =
      (p.plane.registry k).objects.get? (p.plane.read a).id
  absent : ∀ k, k.Registered → ∀ id, p.scratch.get? k id = none →
    (q.plane.registry k).objects.get? id = none
  managedCalls : ∀ k, k.Registered → q.plane.managedCalls k =
    p.plane.managedCalls k ++ Plane.callsIn (chosenFor t p k) [] (p.visits snapshot k)
  unmanagedCalls : q.plane.unmanagedCalls = p.plane.unmanagedCalls ++
    p.plane.dropCalls .location (p.unused .location) ++ p.plane.dropCalls .entity (p.unused .entity)

namespace Closing

variable {snapshot : Snapshot}

theorem restamped (hq : Closing t n snapshot p q) (a : Handle) :
    (p.plane.read a).Restamped (q.plane.read a) := by
  by_cases hv : ∃ k, k.Registered ∧ a ∈ p.visits snapshot k
  · obtain ⟨k, hk, ha⟩ := hv
    exact Or.inr (Or.inl ⟨_, hq.readManaged k hk a ha⟩)
  · push Not at hv
    by_cases hn : n ≤ a.index
    · exact Or.inl (hq.readShell a hn hv)
    · exact (hq.readOld a (by omega)).imp_right Or.inr

theorem sameShape (hq : Closing t n snapshot p q) : SameShape p q :=
  .of_restamped (by rw [hq.iteration]) hq.restamped

end Closing

/-- Locations and entities are different objects. -/
theorem not_mem_visits_of_mem (hs : p.scratch.Sound n p.plane) {j : ObjectKind} (hj : j.Registered)
    (hk : k.Registered) (hjk : j ≠ k) {snapshot : Snapshot} {a : Handle} (ha : a ∈ p.visits snapshot j) :
    a ∉ p.visits snapshot k := by
  intro ha'
  have h₁ := hs.kind (hs.mem_shells_iff.1 (shell_of_mem_visits hs hj ha))
  have h₂ := hs.kind (hs.mem_shells_iff.1 (shell_of_mem_visits hs hk ha'))
  exact hjk (h₁.symm.trans h₂)

@[simp] theorem objects_release (p : Plane) (k : ObjectKind) :
    ((release p).registry k).objects = (p.registry k).objects := by cases k <;> rfl

/-- The two halves of the last phase, one after the other. -/
structure Halves (t : Task) (n : Nat) (snapshot : Snapshot) (p q r : Pass σ) : Prop where
  sound : p.scratch.Sound n p.plane
  locations : Settled t n .location (p.visits snapshot .location) p q
  entities : Settled t n .entity (p.visits snapshot .entity) q r

namespace Halves

variable {snapshot : Snapshot} {a : Handle} (hp : Halves t n snapshot p q r)
include hp

theorem registry_entity : q.plane.registry .entity = p.plane.registry .entity := hp.locations.other _ (by decide)

theorem registry_location : r.plane.registry .location = q.plane.registry .location := hp.entities.other _ (by decide)

theorem le_index (hk : k.Registered) (ha : a ∈ p.visits snapshot k) : n ≤ a.index :=
  hp.sound.fresh (hp.sound.mem_shells_iff.1 (shell_of_mem_visits hp.sound hk ha))

theorem not_mem_locations (ha : a ∈ p.visits snapshot .entity) : a ∉ p.visits snapshot .location :=
  not_mem_visits_of_mem hp.sound (.inr rfl) (.inl rfl) (by decide) ha

/-- The entities are as they were when their half begins. -/
theorem read_entity (ha : a ∈ p.visits snapshot .entity) : q.plane.read a = p.plane.read a :=
  hp.locations.readShell a (hp.not_mem_locations ha) (hp.le_index (.inr rfl) ha)

theorem chosen_entity (id : String) : chosen t q .entity id = chosen t p .entity id := by
  rw [chosen, chosen, hp.registry_entity, hp.locations.sameShape.scratch]

theorem settledMode_entity (a : Handle) : settledMode t q .entity (p.visits snapshot .entity) a =
    settledMode t p .entity (p.visits snapshot .entity) a := by
  rw [settledMode, settledMode, hp.chosen_entity, hp.locations.sameShape.id]

theorem unused_entity : q.unused .entity = p.unused .entity := by
  show (q.plane.registry .entity).ids.filter (fun id => !(q.shellIds .entity).contains id) = _
  rw [hp.registry_entity, hp.locations.sameShape.shellIds]
  rfl

theorem managedCalls (hk : k.Registered) : r.plane.managedCalls k =
    p.plane.managedCalls k ++ Plane.callsIn (chosenFor t p k) [] (p.visits snapshot k) := by
  rcases hk with rfl | rfl
  · exact (hp.entities.otherCalls _ (by decide)).trans hp.locations.managedCalls
  · have hchosen : chosenFor t q .entity = chosenFor t p .entity := funext fun a => by
      rw [chosenFor, hp.chosen_entity, hp.locations.sameShape.id, chosenFor]
    rw [hp.entities.managedCalls, hp.locations.otherCalls _ (by decide), hchosen]

/-- Both halves make the last phase. -/
theorem closing : Closing t n snapshot p { r with
    phase := 8
    plane := release r.plane } where
  iteration := by rw [hp.entities.iteration, hp.locations.iteration]
  size := hp.entities.size.trans hp.locations.size
  closed k id a ha := hp.entities.closed k id a (by rwa [Registry.get?, objects_release] at ha)
  readManaged := by
    rintro k (rfl | rfl) a ha
    · have hna : a ∉ p.visits snapshot .entity := fun ha' => hp.not_mem_locations ha' ha
      exact (hp.entities.readShell a hna (hp.le_index (.inl rfl) ha)).trans (hp.locations.readManaged a ha)
    · show r.plane.read a = _
      rw [hp.entities.readManaged a ha, hp.read_entity ha, hp.settledMode_entity]
  readShell a hn hna :=
    (hp.entities.readShell a (hna _ (.inr rfl)) hn).trans (hp.locations.readShell a (hna _ (.inl rfl)) hn)
  readOld a hn := by
    show r.plane.read a = _ ∨ r.plane.read a = _
    rcases hp.locations.readOld a hn with h₁ | h₁ <;> rcases hp.entities.readOld a hn with h₂ | h₂ <;> rw [h₂, h₁]
    · exact Or.inl rfl
    · exact Or.inr rfl
    · exact Or.inr rfl
    · exact Or.inr (Object.noteManaged_noteManaged _ _ _)
  entered := by
    rintro k (rfl | rfl) a ha
    · rw [objects_release, hp.registry_location, hp.locations.entered a ha]
    · rw [objects_release, ← hp.locations.sameShape.id, hp.entities.entered a ha, hp.settledMode_entity]
  passed := by
    rintro k (rfl | rfl) a ha hna
    · rw [objects_release, hp.registry_location, hp.locations.passed a ha hna]
    · have ha' : a ∈ q.scratch.shells .entity := by rwa [hp.locations.sameShape.scratch]
      rw [objects_release, ← hp.locations.sameShape.id, hp.entities.passed a ha' hna, hp.registry_entity]
  absent := by
    rintro k (rfl | rfl) id hid
    · rw [objects_release, hp.registry_location, hp.locations.absent id hid]
    · rw [objects_release, hp.entities.absent id (by rwa [hp.locations.sameShape.scratch])]
  managedCalls k hk := hp.managedCalls hk
  unmanagedCalls := by
    show r.plane.unmanagedCalls = _
    rw [hp.entities.unmanagedCalls, hp.locations.unmanagedCalls, hp.unused_entity]
    congr 1
    unfold Plane.dropCalls
    rw [hp.registry_entity]

end Halves

/-- In what phase the pass was does not matter. -/
theorem Closing.of_enter {snapshot : Snapshot} {phase : Nat}
    (hq : Closing t n snapshot { p with phase } q) : Closing t n snapshot p q :=
  ⟨hq.iteration, hq.size, hq.closed, hq.readManaged, hq.readShell, hq.readOld, hq.entered, hq.passed,
    hq.absent, hq.managedCalls, hq.unmanagedCalls⟩

theorem ends_both (ha : h.Accepting) (hs : p.scratch.Sound n p.plane) (hclosed : p.plane.Closed)
    (hold : ∀ k id a, (p.plane.registry k).get? id = some a → a.index < n) (hphase : p.phase = 8)
    (snapshot : Snapshot) :
    Step.Ends (fun _ q => Closing t n snapshot p q) (do
      manageLocations t h
      let applications ← manageEntities t h snapshot
      Step.update fun p => { p with plane := release p.plane }
      pure applications) p := by
  refine (ends_manageLocations ha hs hclosed (hold .location) snapshot).bind fun _ q h₁ => ?_
  have hregistry : q.plane.registry .entity = p.plane.registry .entity := h₁.other _ (by decide)
  have hsecond := ends_manageEntities (t := t) (h := h) ha (h₁.sound hs) h₁.closed
    (fun id a hg => hold .entity id a (by rwa [hregistry] at hg)) snapshot
  rw [h₁.sameShape.visits] at hsecond
  refine hsecond.bind fun _ r h₂ => ?_
  have hr : r.phase = 8 := by rw [h₂.iteration, h₁.iteration, hphase]
  have hclosing := Halves.closing ⟨hs, h₁, h₂⟩
  rw [← hr] at hclosing
  exact Step.Ends.bind (Q := fun _ q => Closing t n snapshot p q) (.update hclosing)
    fun _ _ hq => .pure hq

/-- With a handler that stops nothing the last phase goes through, and leaves this behind. -/
theorem ends_manageAll (ha : h.Accepting) (hs : p.scratch.Sound n p.plane) (hclosed : p.plane.Closed)
    (hold : ∀ k id a, (p.plane.registry k).get? id = some a → a.index < n) (snapshot : Snapshot) :
    Step.Ends (fun _ q => Closing t n snapshot p q) (manageAll t h snapshot) p := by
  unfold manageAll enter
  refine Step.Ends.bind (Q := fun _ q => q = { p with phase := 8 }) (.update rfl) fun _ q hq => ?_
  subst hq
  have hboth := ends_both (t := t) (p := { p with phase := 8 }) ha hs hclosed hold rfl snapshot
  exact hboth.imp fun _ _ hq => hq.of_enter

end Pass

end ManagementPlane
