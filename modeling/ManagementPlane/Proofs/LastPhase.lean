import ManagementPlane.Proofs.Acceptance
import ManagementPlane.Proofs.Forest
import ManagementPlane.Proofs.Managing
import ManagementPlane.Proofs.Turns

/-!
# The parts of the last phase

* `Plane.Echo`, `Pass.Echo` : nothing but records that concern no hook, and the handler, has changed;
* `Plane.Told p q` : nothing but records has changed, and none of them says that an object came or went;
* `Pass.Noted t k ids p q` : `q` is `p` after the transitions of some ids have been noted;
* `Pass.ManagedIn k order p q` : `q` is `p` after objects were managed in order;
* `Pass.ends_manageRoots`, `Pass.ends_manageApplications` : trees are managed one behind the other.
-/

namespace ManagementPlane

variable {σ : Type}

/-! ## Records -/

namespace Plane

/-- From `p` to `q` nothing has changed but records that concern no hook. -/
structure Echo (p q : Plane) : Prop where
  heap : q.heap = p.heap
  registry : ∀ k, q.registry k = p.registry k
  managedCalls : ∀ k, q.managedCalls k = p.managedCalls k
  unmanagedCalls : q.unmanagedCalls = p.unmanagedCalls

namespace Echo

variable {p q r : Plane}

theorem refl (p : Plane) : Echo p p := ⟨rfl, fun _ => rfl, fun _ => rfl, rfl⟩

theorem trans (h₁ : Echo p q) (h₂ : Echo q r) : Echo p r where
  heap := h₂.heap.trans h₁.heap
  registry k := (h₂.registry k).trans (h₁.registry k)
  managedCalls k := (h₂.managedCalls k).trans (h₁.managedCalls k)
  unmanagedCalls := h₂.unmanagedCalls.trans h₁.unmanagedCalls

theorem record {e : Event} (he : e.Quiet) (p : Plane) : Echo p (p.record e) := by
  refine ⟨rfl, fun k => by cases k <;> rfl, fun k => ?_, ?_⟩
  · rw [managedCalls_record, he.1 k, Option.toList_none, List.append_nil]
  · rw [unmanagedCalls_record, he.2, Option.toList_none, List.append_nil]

theorem read (h : Echo p q) (a : Handle) : q.read a = p.read a := by
  unfold Plane.read
  rw [h.heap]

theorem closed (h : Echo p q) (hp : p.Closed) : q.Closed := by
  intro k id a ha
  rw [h.registry] at ha
  rw [h.heap]
  exact hp k id a ha

end Echo

/-- From `p` to `q` only events were recorded, and by none of them an object came or went. -/
structure Told (p q : Plane) : Prop where
  rest : { q with trace := p.trace } = p
  events : ∃ told, q.events = p.events ++ told ∧ ∀ e ∈ told, e.Quiet

namespace Told

variable {p q : Plane} {k : ObjectKind}

theorem refl (p : Plane) : Told p p := ⟨rfl, [], by simp⟩

theorem record (hp : Told p q) {e : Event} (he : e.Quiet) : Told p (q.record e) := by
  obtain ⟨told, hq, hquiet⟩ := hp.events
  refine ⟨hp.rest, told ++ [e], by rw [events_record, hq, List.append_assoc], fun e' he' => ?_⟩
  rcases List.mem_append.1 he' with he' | he'
  · exact hquiet e' he'
  · exact List.mem_singleton.1 he' ▸ he

theorem heap (hp : Told p q) : q.heap = p.heap := by
  have h := congrArg Plane.heap hp.rest
  exact h

theorem catalog (hp : Told p q) : q.catalog = p.catalog := by
  have h := congrArg Plane.catalog hp.rest
  exact h

theorem registry (hp : Told p q) (k : ObjectKind) : q.registry k = p.registry k := by
  have he : q.entities = p.entities := by
    have h := congrArg Plane.entities hp.rest
    exact h
  have hl : q.locations = p.locations := by
    have h := congrArg Plane.locations hp.rest
    exact h
  cases k <;> simp only [Plane.registry, he, hl]

theorem read (hp : Told p q) (a : Handle) : q.read a = p.read a := by
  rw [Plane.read, hp.heap, Plane.read]

theorem managedCalls (hp : Told p q) (k : ObjectKind) : q.managedCalls k = p.managedCalls k := by
  obtain ⟨told, hq, hquiet⟩ := hp.events
  have hnone : told.filterMap (Event.managed? k) = [] :=
    List.filterMap_eq_nil_iff.2 fun e he => (hquiet e he).1 k
  rw [Plane.managedCalls, hq, List.filterMap_append, hnone, List.append_nil, Plane.managedCalls]

theorem unmanagedCalls (hp : Told p q) : q.unmanagedCalls = p.unmanagedCalls := by
  obtain ⟨told, hq, hquiet⟩ := hp.events
  have hnone : told.filterMap Event.unmanaged? = [] :=
    List.filterMap_eq_nil_iff.2 fun e he => (hquiet e he).2
  rw [Plane.unmanagedCalls, hq, List.filterMap_append, hnone, List.append_nil, Plane.unmanagedCalls]

theorem echo (hp : Told p q) : Echo p q :=
  ⟨hp.heap, hp.registry, hp.managedCalls, hp.unmanagedCalls⟩

theorem grows (hp : Told p q) : p.events <+: q.events := by
  obtain ⟨told, hq, -⟩ := hp.events
  rw [hq]
  exact List.prefix_append _ _

end Told

/-- Records that concern no hook may follow a run. -/
theorem Managed.echo {k : ObjectKind} {order : List Handle} {p q r : Plane} (hm : Managed k order p q)
    (he : Echo q r) : Managed k order p r where
  size := by rw [he.heap, hm.size]
  other j hj := (he.registry j).trans (hm.other j hj)
  read a := (he.read a).trans (hm.read a)
  entered a ha := by rw [he.registry, hm.entered a ha]
  untouched id hid := by rw [he.registry, hm.untouched id hid]
  used a ha := by rw [he.registry, hm.used a ha]
  unused id hid := by rw [he.registry, hm.unused id hid]
  calls := (he.managedCalls k).trans hm.calls
  otherCalls j hj := (he.managedCalls j).trans (hm.otherCalls j hj)
  unmanagedCalls := he.unmanagedCalls.trans hm.unmanagedCalls

/-- Managing objects of the heap keeps the objects under management in the heap. -/
theorem Managed.closed {k : ObjectKind} {order : List Handle} {p q : Plane} (hm : Managed k order p q)
    (hp : p.Closed) (hv : ∀ h ∈ order, p.heap.Valid h) : q.Closed := by
  intro j id a ha
  refine Nat.lt_of_lt_of_eq ?_ hm.size.symm
  by_cases hj : j = .location ↔ k = .location
  · rw [Registry.get?, q.registry_eq_of_iff hj] at ha
    by_cases hid : ∃ h ∈ order, (p.read h).id = id
    · obtain ⟨h, hh, rfl⟩ := hid
      rw [hm.entered h hh] at ha
      exact Option.some.inj ha ▸ hv h hh
    · push Not at hid
      rw [hm.untouched id hid] at ha
      exact hp k id a ha
  · rw [hm.other j hj] at ha
    exact hp j id a ha

end Plane

namespace Pass

variable {t : Task} {h : Handler σ} {n : Nat} {p q : Pass σ} {k : ObjectKind}

/-! ## Notes and notifications -/

/-- From `p` to `q` nothing has changed but the handler and records that concern no hook. -/
def Echo (p q : Pass σ) : Prop := q.toIteration = p.toIteration ∧ p.plane.Echo q.plane

theorem Echo.refl (p : Pass σ) : Echo p p := ⟨rfl, .refl _⟩

theorem Echo.trans {r : Pass σ} (h₁ : Echo p q) (h₂ : Echo q r) : Echo p r :=
  ⟨h₂.1.trans h₁.1, h₁.2.trans h₂.2⟩

theorem ends_log (level : LogLevel) (message : Pass σ → String) (p : Pass σ) :
    Step.Ends (fun _ q => Echo p q) (log t level message) p :=
  .update ⟨rfl, .record ⟨fun _ => rfl, rfl⟩ _⟩

theorem ends_logCourse (message : String) (p : Pass σ) :
    Step.Ends (fun _ q => Echo p q) (logCourse t message) p := .read_bind (ends_log _ _ p)

theorem ends_tell {ε : Type} {answer : Step σ ε Unit} (ha : answer.GoesOn) (e : Notification)
    (p : Pass σ) : Step.Ends (fun _ q => Echo p q) (tell e answer) p := by
  obtain ⟨u, s, hs⟩ := ha p.handler
  refine ⟨u, { p.record (.notified e) with handler := s }, ?_, rfl, .record ⟨fun _ => rfl, rfl⟩ _⟩
  rw [on_tell, hs]

/-! ## Noting transitions -/

/-- The transition that is noted for the shell of an id. -/
def chosen (t : Task) (p : Pass σ) (k : ObjectKind) (id : String) : Transition :=
  t.transitions k id ((p.plane.registry k).lastTransition? id) (p.scratch.isReadOnly k id)

/-- What is left of `p` when the transitions of some ids of kind `k` have been noted. -/
structure Noted (t : Task) (k : ObjectKind) (ids : List String) (p q : Pass σ) : Prop where
  iteration : q.toIteration = p.toIteration
  heap : q.plane.heap = p.plane.heap
  other : ∀ j, ¬(j = .location ↔ k = .location) → q.plane.registry j = p.plane.registry j
  objects : (q.plane.registry k).objects = (p.plane.registry k).objects
  pending : ∀ id, (q.plane.registry k).pending.get? id =
    if id ∈ ids then some (chosen t p k id) else (p.plane.registry k).pending.get? id
  managedCalls : ∀ j, q.plane.managedCalls j = p.plane.managedCalls j
  unmanagedCalls : q.plane.unmanagedCalls = p.plane.unmanagedCalls

theorem noted_noteTransition (s : Handle) (p : Pass σ) :
    Noted t k [(p.plane.read s).id] p (noteTransition t k s p) where
  iteration := rfl
  heap := Plane.heap_setRegistry _ _ _
  other j hj := by
    show (p.plane.setRegistry k _).registry j = _
    rw [Plane.registry_setRegistry, if_neg hj]
  objects := by
    show ((p.plane.setRegistry k _).registry k).objects = _
    rw [Plane.registry_setRegistry_self]
    rfl
  pending id := by
    show ((p.plane.setRegistry k _).registry k).pending.get? id = _
    rw [Plane.registry_setRegistry_self, Registry.setTransition, OrderedMap.get?_insert]
    simp only [List.mem_singleton, eq_comm (a := id)]
    split
    · next he => rw [← he, chosen]
    · rfl
  managedCalls j := congrArg (List.filterMap _) (Plane.events_setRegistry _ _ _)
  unmanagedCalls := congrArg (List.filterMap _) (Plane.events_setRegistry _ _ _)

theorem noted_foldl (shells : List Handle) (p : Pass σ) :
    Noted t k (shells.map fun s => (p.plane.read s).id) p
      (shells.foldl (fun p s => noteTransition t k s p) p) := by
  induction shells generalizing p with
  | nil =>
    exact ⟨rfl, rfl, fun _ _ => rfl, rfl, fun _ => (if_neg List.not_mem_nil).symm, fun _ => rfl, rfl⟩
  | cons s shells ih =>
    have hone : Noted t k [(p.plane.read s).id] p (noteTransition t k s p) := noted_noteTransition s p
    have hrest := ih (noteTransition t k s p)
    have hread : ∀ a, (noteTransition t k s p).plane.read a = p.plane.read a := fun a => by
      unfold Plane.read
      rw [hone.heap]
    have hchosen : ∀ id, chosen t (noteTransition t k s p) k id = chosen t p k id := fun id => by
      unfold chosen Registry.lastTransition?
      rw [hone.objects, hone.iteration]
    refine ⟨hrest.iteration.trans hone.iteration, hrest.heap.trans hone.heap,
      fun j hj => (hrest.other j hj).trans (hone.other j hj), hrest.objects.trans hone.objects,
      fun id => ?_, fun j => (hrest.managedCalls j).trans (hone.managedCalls j),
      hrest.unmanagedCalls.trans hone.unmanagedCalls⟩
    rw [List.foldl_cons, hrest.pending, hone.pending, hchosen]
    simp only [hread, List.map_cons, List.mem_cons, List.not_mem_nil, or_false]
    by_cases hid : id ∈ shells.map fun s => (p.plane.read s).id
    · rw [if_pos hid, if_pos (Or.inr hid)]
    · rw [if_neg hid]
      simp only [hid, or_false]

namespace Noted

variable {ids : List String}

theorem read (hn : Noted t k ids p q) (a : Handle) : q.plane.read a = p.plane.read a := by
  unfold Plane.read
  rw [hn.heap]

theorem noted (hn : Noted t k ids p q) {a : Handle} (ha : (p.plane.read a).id ∈ ids) :
    q.plane.noted k a = chosen t p k (p.plane.read a).id := by
  unfold Plane.noted
  rw [hn.read, hn.pending, if_pos ha, Option.getD_some]

theorem get? (hn : Noted t k ids p q) (j : ObjectKind) (id : String) :
    (q.plane.registry j).get? id = (p.plane.registry j).get? id := by
  unfold Registry.get?
  by_cases hj : j = .location ↔ k = .location
  · rw [q.plane.registry_eq_of_iff hj, p.plane.registry_eq_of_iff hj, hn.objects]
  · rw [hn.other j hj]

theorem manageable (hn : Noted t k ids p q) {order : List Handle}
    (hp : Plane.Manageable k order p.plane) : Plane.Manageable k order q.plane where
  valid a ha := by rw [hn.heap]; exact hp.valid a ha
  kind a ha := by rw [hn.read]; exact hp.kind a ha
  inj a ha b hb he := hp.inj a ha b hb (by rwa [hn.read, hn.read] at he)

theorem sameShape (hn : Noted t k ids p q) : SameShape p q where
  scratch := congrArg Iteration.scratch hn.iteration
  id a := by rw [hn.read]
  parent a := by rw [hn.read]
  children a := by rw [hn.read]

/-- Records that concern no hook may precede. -/
theorem of_echo {r : Pass σ} (he : Echo p q) (hn : Noted t k ids q r) : Noted t k ids p r where
  iteration := hn.iteration.trans he.1
  heap := hn.heap.trans he.2.heap
  other j hj := (hn.other j hj).trans (he.2.registry j)
  objects := by rw [hn.objects, he.2.registry]
  pending id := by rw [hn.pending, he.2.registry, chosen, chosen, he.2.registry, he.1]
  managedCalls j := (hn.managedCalls j).trans (he.2.managedCalls j)
  unmanagedCalls := hn.unmanagedCalls.trans he.2.unmanagedCalls

theorem closed (hn : Noted t k ids p q) (hp : p.plane.Closed) : q.plane.Closed := by
  intro j id a ha
  rw [hn.get?] at ha
  rw [hn.heap]
  exact hp j id a ha

end Noted

/-! ## Managing trees -/

section Trees
variable {children : OrderedMap String (List Handle)}

/-- A pass of which only the live manager and the handler have changed, by managing objects in order. -/
def ManagedIn (k : ObjectKind) (order : List Handle) (p q : Pass σ) : Prop :=
  q.toIteration = p.toIteration ∧ Plane.Managed k order p.plane q.plane

theorem ends_manageRoot (ha : h.Accepting) {root : Handle}
    (hp : Plane.Manageable k (p.plane.treeOrder children root) p.plane) :
    Step.Ends (fun _ q => ManagedIn k (p.plane.treeOrder children root) p q)
      (manageRoot h k children root) p := by
  have hm := Plane.managed_manageAll hp
  rw [← Plane.snd_manageTree] at hm
  refine Step.Ends.bind (Q := fun _ q => ManagedIn k (p.plane.treeOrder children root) p q)
    (.total ⟨rfl, hm⟩) fun r q hq => ?_
  cases r with
  | ok count => exact .pure hq
  | error e =>
    refine Step.Ends.bind (.read_bind (ends_tell (ha.manageFailed k _ e) _ q)) fun _ r hr => ?_
    exact .pure ⟨hr.1.trans hq.1, hq.2.echo hr.2⟩

/-- One tree is managed and then others. -/
theorem ManagedIn.append {r : Pass σ} {l₁ l₂ : List Handle} (h₁ : ManagedIn k l₁ p q)
    (h₂ : ManagedIn k l₂ q r) (hp : Plane.Manageable k (l₁ ++ l₂) p.plane) :
    ManagedIn k (l₁ ++ l₂) p r := ⟨h₂.1.trans h₁.1, h₁.2.append h₂.2 hp⟩

theorem ManagedIn.flatMap_treeOrder {order : List Handle} (hq : ManagedIn k order p q)
    (children : OrderedMap String (List Handle)) (roots : List Handle) :
    roots.flatMap (q.plane.treeOrder children) = roots.flatMap (p.plane.treeOrder children) := by
  rw [funext (Plane.treeOrder_congr hq.2.id_read children)]

theorem ends_manageRoots (ha : h.Accepting) (children : OrderedMap String (List Handle))
    (roots : List Handle)
    (hp : Plane.Manageable k (roots.flatMap (p.plane.treeOrder children)) p.plane) :
    Step.Ends (fun _ q => ManagedIn k (roots.flatMap (p.plane.treeOrder children)) p q)
      (manageRoots h k children roots) p := by
  unfold manageRoots
  induction roots generalizing p with
  | nil => exact .pure ⟨rfl, .nil k p.plane⟩
  | cons root roots ih =>
    rw [List.flatMap_cons] at hp ⊢
    have hone := ends_manageRoot ha (hp.mono fun _ => List.mem_append_left _)
    rw [Step.forEach_cons]
    refine Step.Ends.bind (Q := fun _ q => ManagedIn k (p.plane.treeOrder children root) p q)
      (hone.bind fun _ _ hq => .pure hq) fun _ q hq => ?_
    have hsame := hq.flatMap_treeOrder children roots
    have hrest := ih (p := q) (hsame ▸ hq.2.manageable (hp.mono fun _ => List.mem_append_right _))
    exact hrest.imp fun _ _ hr => hq.append (hsame ▸ hr) hp

theorem ends_manageApplications (ha : h.Accepting) (children : OrderedMap String (List Handle))
    (ids : List String)
    (hp : Plane.Manageable .entity
      ((ids.filterMap (p.scratch.get? .entity)).flatMap (p.plane.treeOrder children)) p.plane) :
    Step.Ends (fun _ q => ManagedIn .entity
        ((ids.filterMap (p.scratch.get? .entity)).flatMap (p.plane.treeOrder children)) p q)
      (manageApplications h children ids) p := by
  induction ids generalizing p with
  | nil => exact .pure ⟨rfl, .nil .entity p.plane⟩
  | cons id ids ih =>
    -- what is left to do once the objects in `order` have been managed
    have hrest : ∀ order q, ManagedIn .entity order p q →
        Plane.Manageable .entity (order ++
          (ids.filterMap (p.scratch.get? .entity)).flatMap (p.plane.treeOrder children)) p.plane →
        Step.Ends (fun _ r => ManagedIn .entity (order ++
            (ids.filterMap (p.scratch.get? .entity)).flatMap (p.plane.treeOrder children)) p r)
          (manageApplications h children ids) q := by
      intro order q hq hp
      have hscratch : q.scratch = p.scratch := congrArg Iteration.scratch hq.1
      have hsame := hq.flatMap_treeOrder children (ids.filterMap (p.scratch.get? .entity))
      have hq' := ih (p := q) (by
        rw [hscratch, hsame]
        exact hq.2.manageable (hp.mono fun _ => List.mem_append_right _))
      rw [hscratch, hsame] at hq'
      exact hq'.imp fun _ _ hr => hq.append hr hp
    refine .read_bind ?_
    rcases hg : p.scratch.get? .entity id with _ | entity
    · rw [List.filterMap_cons_none hg] at hp ⊢
      refine (ends_tell (ha.notFound .entity id) _ p).bind fun _ q hq => ?_
      exact hrest [] q ⟨hq.1, (Plane.Managed.nil _ _).echo hq.2⟩ hp
    · rw [List.filterMap_cons_some hg, List.flatMap_cons] at hp ⊢
      refine (ends_manageRoot ha (hp.mono fun _ => List.mem_append_left _)).bind fun managed q hq => ?_
      exact (hrest _ q hq hp).bind fun _ _ hr => .pure hr

end Trees

end Pass

end ManagementPlane
