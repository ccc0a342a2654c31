import ManagementPlane.Proofs.Recording
import ManagementPlane.Proofs.Standby

/-!
# What is left of earlier passes

* `Pass.Reached` : some root of the last phase leads to a shell;
* `Completed.entry_of_reached`, `entry_of_not_reached`, `entry_of_absent` : what is managed under an id in the end;
* `Outcome.Own` : what is managed is a shell of the pass and was given its transition by it;
* `Manager.renewed_iff` : so it is with everything under management exactly when nothing was managed before under the id
  of a shell that no root leads to;
* `Manager.cycle_keeps_former` : parents in a cycle keep an object of an earlier pass under management.
-/

namespace ManagementPlane

variable {σ : Type}

namespace Pass

variable {n : Nat} {snapshot : Snapshot} {p q : Pass σ} {k : ObjectKind} {a : Handle}

/-- Some root of the last phase leads to the shell. -/
def Reached (p : Pass σ) (snapshot : Snapshot) (k : ObjectKind) (a : Handle) : Prop :=
  ∃ root, p.Reaches snapshot k root a

theorem SameShape.reached (hq : SameShape p q) (snapshot : Snapshot) (k : ObjectKind) :
    q.Reached snapshot k = p.Reached snapshot k := by
  funext a
  unfold Reached
  rw [hq.reaches]

/-- The shells that roots lead to are those that come up in their trees. -/
theorem reached_iff_mem_visits (hs : p.scratch.Sound n p.plane) (hk : k.Registered) :
    p.Reached snapshot k a ↔ a ∈ p.visits snapshot k := (mem_visits_iff hs hk).symm

end Pass

namespace Manager

variable {m : Manager} {setup : Setup} {source : Source} {time : Nat} {h : Handler σ} {s : σ}
  {mode : ManagementMode} {o : Outcome σ} {p : Pass σ} {k : ObjectKind} {id : String} {a : Handle}

namespace Completed

variable (hp : Completed m setup source h s mode o p)
include hp

theorem id_read (a : Handle) : (o.manager.plane.read a).id = (p.plane.read a).id := hp.closing.sameShape.id a

theorem reached_iff (hk : k.Registered) :
    o.pass.Reached source.snapshot k a ↔ a ∈ p.visits source.snapshot k := by
  rw [hp.closing.sameShape.reached, Pass.reached_iff_mem_visits hp.sound hk]

/-- Under the id of a shell that roots lead to, the shell is managed. -/
theorem entry_of_reached (hk : k.Registered) (ha : o.iteration.scratch.get? k id = some a)
    (hr : o.pass.Reached source.snapshot k a) :
    ∃ t, (o.manager.plane.registry k).objects.get? id = some ⟨a, t⟩ := by
  rw [hp.scratch] at ha
  obtain rfl := hp.sound.id ha
  exact ⟨_, hp.closing.entered k hk a ((hp.reached_iff hk).1 hr)⟩

/-- Under the id of a shell that no root leads to, what was managed before is still managed. -/
theorem entry_of_not_reached (hk : k.Registered) (ha : o.iteration.scratch.get? k id = some a)
    (hr : ¬o.pass.Reached source.snapshot k a) :
    (o.manager.plane.registry k).objects.get? id = (m.plane.registry k).objects.get? id := by
  rw [hp.scratch] at ha
  obtain rfl := hp.sound.id ha
  rw [hp.reached_iff hk] at hr
  exact (hp.closing.passed k hk a (hp.sound.mem_shells_iff.2 ha) hr).trans (by rw [hp.registry])

/-- Nothing is managed under an id without a shell. -/
theorem entry_of_absent (hk : k.Registered) (hid : o.iteration.scratch.get? k id = none) :
    (o.manager.plane.registry k).objects.get? id = none := by
  rw [hp.scratch] at hid
  exact hp.closing.absent k hk id hid

end Completed

/-! ## Objects of the pass -/

/-- What is managed under an id is the shell that the pass made for it. It was not managed before, and a call on record
of the pass has brought it under management with just this transition. -/
structure Outcome.Own (o : Outcome σ) (m : Manager) (k : ObjectKind) (id : String) (e : Registered) : Prop where
  shell : o.iteration.scratch.get? k id = some e.object
  new : ∀ j id', (m.plane.registry j).get? id' ≠ some e.object
  assigned : ∃ audited, .hook audited e.object k id (.managed e.mode) ∈ o.manager.plane.since m.plane

/-- Everything under management belongs to the pass. -/
def Outcome.Renewed (o : Outcome σ) (m : Manager) : Prop :=
  ∀ k, k.Registered → ∀ id e, (o.manager.plane.registry k).objects.get? id = some e → o.Own m k id e

/-- The events that the last phase adds come behind those of the phases before it. -/
theorem Completed.accounted (hp : Completed m setup source h s mode o p)
    (ho : m.runPass setup source time h (.new mode) s = o) : p.plane.Accounted o.manager.plane :=
  (accounted_of_built ho hp.built).2

theorem Completed.events_built (hp : Completed m setup source h s mode o p) :
    m.plane.events <+: p.plane.events := (events_opening m h s mode).trans (Pass.events_turns hp.turns)

theorem Completed.since_eq (hp : Completed m setup source h s mode o p)
    (ho : m.runPass setup source time h (.new mode) s = o) :
    o.manager.plane.since m.plane = p.plane.since m.plane ++ o.manager.plane.since p.plane :=
  Plane.since_trans hp.events_built (hp.accounted ho).events

/-- A shell that is managed belongs to the pass. -/
theorem Completed.own (hp : Completed m setup source h s mode o p)
    (ho : m.runPass setup source time h (.new mode) s = o) (hclosed : m.plane.Closed)
    {e : Registered} (hshell : o.iteration.scratch.get? k id = some e.object)
    (he : (o.manager.plane.registry k).objects.get? id = some e) : o.Own m k id e := by
  have hshell' := hshell
  rw [hp.scratch] at hshell'
  have hnew : ∀ j id', (m.plane.registry j).get? id' ≠ some e.object := fun j id' hg =>
    hp.not_valid hshell' (hclosed j id' _ hg)
  refine ⟨hshell, hnew, ?_⟩
  rcases (hp.accounted ho).entry k id e he with hold | ⟨audited, hcall⟩
  · rw [hp.registry] at hold
    exact absurd (congrArg (Option.map Registered.object) hold) (hnew k id)
  · rw [hp.sound.kind hshell'] at hcall
    refine ⟨audited, ?_⟩
    rw [hp.since_eq ho]
    exact List.mem_append_right _ hcall

/-- When a pass with a handler that stops nothing has got through its last phase, everything under management is a shell
of this pass, managed by it for the first time and left with a transition that it gave, exactly when nothing was managed
before under the id of a shell that no root leads to. -/
theorem renewed_iff (ho : m.runPass setup source time h (.new mode) s = o) (ha : h.Accepting)
    (hclosed : m.plane.Closed) (hlast : o.ReachedLastPhase) :
    o.Renewed m ↔ ∀ k, k.Registered → ∀ a ∈ o.iteration.scratch.shells k,
      ¬o.pass.Reached source.snapshot k a →
        (m.plane.registry k).get? (o.manager.plane.read a).id = none := by
  obtain ⟨p, hp⟩ := exists_completed ho ha hclosed hlast
  refine forall₂_congr fun k hk => ?_
  constructor
  · intro hall a hshell hr
    have hget := hp.sound_last.mem_shells_iff.1 hshell
    have hentry := hp.entry_of_not_reached hk hget hr
    rcases hold : (m.plane.registry k).objects.get? (o.manager.plane.read a).id with _ | e
    · exact congrArg (Option.map Registered.object) hold
    · have hown := hall _ e (hentry.trans hold)
      exact absurd (congrArg (Option.map Registered.object) hold) (hown.new k _)
  · intro hall id e he
    rcases hget : o.iteration.scratch.get? k id with _ | a
    · rw [hp.entry_of_absent hk hget] at he
      cases he
    · by_cases hr : o.pass.Reached source.snapshot k a
      · obtain ⟨t, hentry⟩ := hp.entry_of_reached hk hget hr
        obtain rfl := Option.some.inj (hentry.symm.trans he)
        exact hp.own ho hclosed hget he
      · rw [hp.entry_of_not_reached hk hget hr] at he
        have hid := hp.sound_last.id hget
        have hnone := hall a (hp.sound_last.mem_shells_iff.2 (hid ▸ hget)) hr
        rw [hid, Registry.get?, he] at hnone
        cases hnone

/-! ## Parents in a cycle -/

/-- A master with one entity. -/
def formerPass : Outcome Unit :=
  ({} : Manager).runPass .stock
    (MemoryStore.holding [(.entity, { id := "x", type := "trellis.entity.BasicEntity" })]).source
    0 (.refusing []) (.new .master) ()

/-- The entity and another one, each of which names the other as its parent. -/
def cycleStore : MemoryStore := .holding [
  (.entity, { id := "x", type := "trellis.entity.BasicEntity", parent := some "y" }),
  (.entity, { id := "y", type := "trellis.entity.BasicEntity", parent := some "x" })]

/-- The next pass of this master. -/
def cyclePass : Outcome Unit :=
  formerPass.manager.runPass .stock cycleStore.source 0 (.refusing []) (.new .master) ()

set_option maxRecDepth 2000 in
theorem cyclePass_shows : formerPass.ReachedLastPhase ∧ cyclePass.ReachedLastPhase ∧
    (formerPass.manager.plane.registry .entity).get? "x" = some ⟨0⟩ ∧
    (cyclePass.manager.plane.registry .entity).objects.get? "x" = some ⟨⟨0⟩, .rebindingCreating⟩ := by
  decide +kernel

theorem not_renewed_cyclePass : ¬cyclePass.Renewed formerPass.manager := by
  obtain ⟨-, -, hold, hentry⟩ := cyclePass_shows
  exact fun hall => (hall .entity (Or.inr rfl) "x" _ hentry).new .entity "x" hold

/-- Neither side holds of this pass. -/
theorem renewed_iff_cyclePass :
    (Handler.refusing []).Accepting ∧ formerPass.manager.plane.Closed ∧ cyclePass.ReachedLastPhase ∧
      ¬cyclePass.Renewed formerPass.manager ∧
      (cyclePass.Renewed formerPass.manager ↔
        ∀ k, k.Registered → ∀ a ∈ cyclePass.iteration.scratch.shells k,
          ¬cyclePass.pass.Reached cycleStore.source.snapshot k a →
            (formerPass.manager.plane.registry k).get? (cyclePass.manager.plane.read a).id = none) := by
  obtain ⟨hformer, hlast, -⟩ := cyclePass_shows
  have ha : (Handler.refusing []).Accepting := Handler.accepting_refusing (by decide)
  have hclosed : formerPass.manager.plane.Closed := closed_of_runPass rfl ha closed_empty hformer
  exact ⟨ha, hclosed, hlast, not_renewed_cyclePass, renewed_iff (o := cyclePass) rfl ha hclosed hlast⟩

/-- No root leads to entities that name each other as their parents. The one of them that a former pass has left under
management stays there, although a shell was made for its id. -/
theorem cycle_keeps_former :
    (Handler.refusing []).Accepting ∧ formerPass.manager.plane.Closed ∧ cyclePass.ReachedLastPhase ∧
      ¬cyclePass.Renewed formerPass.manager := by
  obtain ⟨hformer, hlast, -⟩ := cyclePass_shows
  have ha : (Handler.refusing []).Accepting := Handler.accepting_refusing (by decide)
  exact ⟨ha, closed_of_runPass rfl ha closed_empty hformer, hlast, not_renewed_cyclePass⟩

end Manager

end ManagementPlane
