import ManagementPlane.Proofs.Outcome

/-!
# What a node that follows a master holds read-only

* `Plane.HeldReadOnly` : every object under management is read-only and was managed so;
* `Pass.Reaches` : a root of the last phase leads to a shell;
* `Manager.heldReadOnly_iff` : after a pass in a read-only mode everything is held read-only exactly when no shell is
  reached from two roots and what was managed before under the id of a shell that no root leads to was read-only already;
* `Manager.shared_child_is_writable` : a child that two applications list is left writable.
-/

namespace ManagementPlane

variable {σ : Type}

namespace Plane

/-- What is managed under an id, if anything, is read-only and was managed so. -/
def ReadOnlyAt (p : Plane) (k : ObjectKind) (id : String) : Prop :=
  ∀ e, (p.registry k).objects.get? id = some e →
    (p.read e.object).readOnly = true ∧ e.mode.isReadOnly = true

/-- Every object under management is read-only and was managed so; neither registry has an object that is not. -/
structure HeldReadOnly (p : Plane) : Prop where
  entity : ∀ id, p.ReadOnlyAt .entity id
  location : ∀ id, p.ReadOnlyAt .location id
  noEntity : p.entities.hasPrimary p.heap = false
  noLocation : p.locations.hasPrimary p.heap = false

theorem hasPrimary_eq_false {p : Plane} {k : ObjectKind} (h : ∀ id, p.ReadOnlyAt k id) :
    (p.registry k).hasPrimary p.heap = false := by
  unfold Registry.hasPrimary
  rw [List.any_eq_false]
  intro e he
  obtain ⟨id, hg⟩ := OrderedMap.mem_values_iff.1 he
  have hread : (p.heap.read e.object).readOnly = true := (h id e hg).1
  rw [hread]
  decide

/-- That neither registry has a writable object follows from the rest. -/
theorem heldReadOnly_iff_forall {p : Plane} :
    p.HeldReadOnly ↔ ∀ k, k.Registered → ∀ id, p.ReadOnlyAt k id := by
  constructor
  · rintro h k (rfl | rfl)
    · exact h.location
    · exact h.entity
  · intro h
    have he := h .entity (Or.inr rfl)
    have hl := h .location (Or.inl rfl)
    exact ⟨he, hl, hasPrimary_eq_false he, hasPrimary_eq_false hl⟩

end Plane

/-- A root of the last phase leads to a shell. -/
def Pass.Reaches (p : Pass σ) (snapshot : Snapshot) (k : ObjectKind) (root a : Handle) : Prop :=
  root ∈ p.roots snapshot k ∧ Relation.ReflTransGen (p.scratch.Below p.plane k) root a

namespace Pass

variable {t : Task} {n : Nat} {snapshot : Snapshot} {p q : Pass σ} {k : ObjectKind}

theorem SameShape.reaches (hq : SameShape p q) (snapshot : Snapshot) (k : ObjectKind) :
    q.Reaches snapshot k = p.Reaches snapshot k := by
  funext root a
  unfold Reaches
  rw [hq.roots, hq.below]

end Pass

namespace Manager

open Pass (Reaches)

variable {m : Manager} {setup : Setup} {source : Source} {time : Nat} {h : Handler σ} {s : σ}
  {mode : ManagementMode} {o : Outcome σ} {p : Pass σ} {k : ObjectKind}

/-- Under the id of a shell that roots lead to, what is managed in the end is read-only if only one does. -/
theorem readOnlyAt_iff_of_mem_visits (hp : Completed m setup source h s mode o p) (hk : k.Registered)
    (hmode : mode.isReadOnly = true) (hchoice : setup.transitions.Faithful) {a : Handle}
    (ha : a ∈ p.visits source.snapshot k) :
    o.manager.plane.ReadOnlyAt k (p.plane.read a).id ↔
      (p.visits source.snapshot k).count a = 1 := by
  have hentry := hp.closing.entered k hk a ha
  have hread := hp.closing.readManaged k hk a ha
  have hmodeOf : (Pass.settledMode (m.task setup source mode) p k (p.visits source.snapshot k) a).isReadOnly
      = true ↔ (p.visits source.snapshot k).count a = 1 := by
    rw [hp.isReadOnly_settledMode hchoice hk ha, hmode, Bool.and_true, decide_eq_true_iff]
  constructor
  · exact fun h => hmodeOf.1 (h _ hentry).2
  · intro hone e he
    obtain rfl := Option.some.inj (hentry.symm.trans he)
    refine ⟨?_, hmodeOf.2 hone⟩
    show (o.pass.plane.read a).readOnly = true
    rw [hread, Object.readOnly_managedWith]
    exact hmodeOf.2 hone

/-- Under the id of a shell that no root leads to, what was managed before is still managed, as it was. -/
theorem readOnlyAt_iff_of_not_mem_visits (hp : Completed m setup source h s mode o p) (hk : k.Registered)
    (hclosed : m.plane.Closed) {a : Handle} (ha : a ∈ p.scratch.shells k)
    (hna : a ∉ p.visits source.snapshot k) :
    o.manager.plane.ReadOnlyAt k (p.plane.read a).id ↔ m.plane.ReadOnlyAt k (p.plane.read a).id := by
  have hentry := hp.closing.passed k hk a ha hna
  rw [hp.registry] at hentry
  refine forall_congr' fun e => ?_
  show (o.pass.plane.registry k).objects.get? _ = _ → _ ↔ _
  rw [hentry]
  refine imp_congr_right fun he => and_congr_left fun _ => ?_
  have hv : m.plane.heap.Valid e.object := hclosed k _ _ (by rw [Registry.get?, he]; rfl)
  have hold : (o.pass.plane.read e.object).readOnly = (m.plane.read e.object).readOnly := by
    rw [← hp.read_old hv]
    rcases hp.closing.readOld e.object hv with h | h <;> rw [h]
    rfl
  exact hold ▸ Iff.rfl

/-- After a pass in a read-only mode everything under management is held read-only exactly when, among the shells
of locations and of entities, no shell is reached from two roots, and what was managed before under the id of a shell that
no root leads to was read-only and managed so already. -/
theorem heldReadOnly_iff (ho : m.runPass setup source time h (.new mode) s = o) (ha : h.Accepting)
    (hclosed : m.plane.Closed) (hmode : mode.isReadOnly = true) (hchoice : setup.transitions.Faithful)
    (hlast : o.ReachedLastPhase) :
    o.manager.plane.HeldReadOnly ↔ ∀ k, k.Registered → ∀ a ∈ o.iteration.scratch.shells k,
      (∀ r₁ r₂, o.pass.Reaches source.snapshot k r₁ a → o.pass.Reaches source.snapshot k r₂ a → r₁ = r₂) ∧
      ((∀ r, ¬o.pass.Reaches source.snapshot k r a) →
        m.plane.ReadOnlyAt k (o.manager.plane.read a).id) := by
  obtain ⟨p, hp⟩ := exists_completed ho ha hclosed hlast
  have hshape := hp.closing.sameShape
  rw [Plane.heldReadOnly_iff_forall]
  refine forall₂_congr fun k hk => ?_
  rw [hshape.reaches, hp.scratch]
  have hreach : ∀ a, a ∈ p.visits source.snapshot k ↔ ∃ r, p.Reaches source.snapshot k r a := fun a =>
    Pass.mem_visits_iff hp.sound hk
  have hid : ∀ a, (o.manager.plane.read a).id = (p.plane.read a).id := hshape.id
  simp only [hid]
  constructor
  · intro hall a hshell
    have hat := hall (p.plane.read a).id
    refine ⟨fun r₁ r₂ h₁ h₂ => ?_, fun hnone => ?_⟩
    · have hv := (hreach a).2 ⟨r₁, h₁⟩
      have hone := (readOnlyAt_iff_of_mem_visits hp hk hmode hchoice hv).1 hat
      exact (Pass.count_visits_eq_one_iff hp.sound hk source.applicationIds_nodup hv).1 hone
        r₁ h₁.1 r₂ h₂.1 h₁.2 h₂.2
    · have hv : a ∉ p.visits source.snapshot k := fun hv => by
        obtain ⟨r, hr⟩ := (hreach a).1 hv
        exact hnone r hr
      exact (readOnlyAt_iff_of_not_mem_visits hp hk hclosed hshell hv).1 hat
  · intro hall id
    rcases hg : p.scratch.get? k id with _ | a
    · intro e he
      have hnone := hp.closing.absent k hk id hg
      exact absurd (hnone.symm.trans he) (by simp)
    · obtain rfl := hp.sound.id hg
      have hshell : a ∈ p.scratch.shells k := hp.sound.mem_shells_iff.2 hg
      obtain ⟨hone, hold⟩ := hall a hshell
      by_cases hv : a ∈ p.visits source.snapshot k
      · apply (readOnlyAt_iff_of_mem_visits hp hk hmode hchoice hv).2
        rw [Pass.count_visits_eq_one_iff hp.sound hk source.applicationIds_nodup hv]
        exact fun r₁ hr₁ r₂ hr₂ h₁ h₂ => hone r₁ r₂ ⟨hr₁, h₁⟩ ⟨hr₂, h₂⟩
      · refine (readOnlyAt_iff_of_not_mem_visits hp hk hclosed hshell hv).2 (hold fun r hr => hv ?_)
        exact (hreach a).2 ⟨r, hr⟩

/-! ## A child of two applications -/

/-- Two applications that both list one entity, which names the first of them as its parent. -/
def sharedChild : MemoryStore := .holding [
  (.entity, { id := "a", type := "trellis.entity.BasicApplication", children := ["c"] }),
  (.entity, { id := "b", type := "trellis.entity.BasicApplication", children := ["c"] }),
  (.entity, { id := "c", type := "trellis.entity.BasicEntity", parent := some "a" })]

/-- The first pass of a standby node over this store. -/
def sharedChildPass : Outcome Unit :=
  ({} : Manager).runPass .stock sharedChild.source 0 (.refusing []) (.new .hotStandby) ()

set_option maxRecDepth 2000 in
theorem sharedChildPass_writable : sharedChildPass.ReachedLastPhase ∧
    sharedChildPass.manager.plane.entities.hasPrimary sharedChildPass.manager.plane.heap = true := by
  decide +kernel

theorem not_heldReadOnly_sharedChildPass : ¬sharedChildPass.manager.plane.HeldReadOnly := by
  intro h
  have hwritable := sharedChildPass_writable.2
  rw [h.noEntity] at hwritable
  cases hwritable

/-- Neither side holds of this pass. -/
theorem heldReadOnly_iff_sharedChild :
    (Handler.refusing []).Accepting ∧ ({} : Plane).Closed ∧ Setup.stock.transitions.Faithful ∧
      sharedChildPass.ReachedLastPhase ∧ ¬sharedChildPass.manager.plane.HeldReadOnly ∧
      (sharedChildPass.manager.plane.HeldReadOnly ↔
        ∀ k, k.Registered → ∀ a ∈ sharedChildPass.iteration.scratch.shells k,
          (∀ r₁ r₂, sharedChildPass.pass.Reaches sharedChild.source.snapshot k r₁ a →
            sharedChildPass.pass.Reaches sharedChild.source.snapshot k r₂ a → r₁ = r₂) ∧
          ((∀ r, ¬sharedChildPass.pass.Reaches sharedChild.source.snapshot k r a) →
            ({} : Plane).ReadOnlyAt k (sharedChildPass.manager.plane.read a).id)) :=
  have ha : (Handler.refusing []).Accepting := Handler.accepting_refusing (by decide)
  have hlast := sharedChildPass_writable.1
  ⟨ha, closed_empty, TransitionChoice.faithful_standard, hlast, not_heldReadOnly_sharedChildPass,
    heldReadOnly_iff (o := sharedChildPass) rfl ha closed_empty rfl TransitionChoice.faithful_standard hlast⟩

/-- A child that two applications list comes up in both trees. The first uses up the transition noted for it, and
the second leaves it writable on a node that holds everything else read-only. -/
theorem shared_child_is_writable :
    (Handler.refusing []).Accepting ∧ sharedChildPass.ReachedLastPhase ∧
      ¬sharedChildPass.manager.plane.HeldReadOnly :=
  ⟨Handler.accepting_refusing (by decide), sharedChildPass_writable.1, not_heldReadOnly_sharedChildPass⟩

end Manager

end ManagementPlane
