import ManagementPlane.Proofs.LastNotes
import ManagementPlane.Proofs.Populating

/-!
# Failures to manage an object that nobody hears of

* `Outcome.traversal`, `Completed.called` : the calls by which the tree of a root is managed, and these are all calls;
* `Completed.mem_since_iff` : a pass reports the first failure in the tree of each root, and no other;
* `Outcome.NamesFailures`, `Outcome.FailuresComeFirst` : all objects that could not be managed are named in some report; their
  failures come first in the trees of roots;
* `Manager.namesFailures_iff` : one is so exactly when the other is;
* `Manager.second_failure_is_silent` : of two failures in one tree the second is not reported.
-/

namespace ManagementPlane

variable {σ : Type}

namespace Pass

variable {t : Task} {p : Pass σ} {snapshot : Snapshot} {k : ObjectKind} {id : String} {e : ObjectError} {root : Handle}

theorem reportOf_eq_some_iff {j : ObjectKind} : p.reportOf t snapshot j root = some (k, id, e) ↔
    j = k ∧ (p.plane.read root).id = id ∧ p.firstFailure t snapshot j root = some e := by
  unfold reportOf
  rw [Option.map_eq_some_iff]
  constructor
  · rintro ⟨e', he, heq⟩
    obtain ⟨hk, heq⟩ := Prod.mk.inj heq
    obtain ⟨hid, rfl⟩ := Prod.mk.inj heq
    exact ⟨hk, hid, he⟩
  · rintro ⟨rfl, rfl, he⟩
    exact ⟨e, he, rfl⟩

/-- What is reported is the first failure in the tree of each root. -/
theorem mem_reports_iff : (k, id, e) ∈ p.reports t snapshot ↔
    k.Registered ∧ ∃ root ∈ p.roots snapshot k, (p.plane.read root).id = id ∧
      p.firstFailure t snapshot k root = some e := by
  unfold reports ObjectKind.Registered
  rw [List.mem_append, List.mem_filterMap, List.mem_filterMap]
  simp only [reportOf_eq_some_iff]
  constructor
  · rintro (⟨root, hr, rfl, hid, he⟩ | ⟨root, hr, rfl, hid, he⟩)
    · exact ⟨Or.inl rfl, root, hr, hid, he⟩
    · exact ⟨Or.inr rfl, root, hr, hid, he⟩
  · rintro ⟨rfl | rfl, root, hr, hid, he⟩
    · exact Or.inl ⟨root, hr, rfl, hid, he⟩
    · exact Or.inr ⟨root, hr, rfl, hid, he⟩

end Pass

theorem Event.manageFailed?_eq_some_iff {e : Event} {k : ObjectKind} {id : String} {error : ObjectError} :
    e.manageFailed? = some (k, id, error) ↔ e = .notified (.manageFailed k id error) := by
  unfold manageFailed?
  split
  · rw [Option.some.injEq, Prod.mk.injEq, Prod.mk.injEq, Event.notified.injEq, Notification.manageFailed.injEq]
  · next hne => exact ⟨nofun, fun he => absurd he (hne k id error)⟩

namespace Manager

variable {m : Manager} {setup : Setup} {source : Source} {time : Nat} {h : Handler σ} {s : σ}
  {mode : ManagementMode} {o : Outcome σ} {p : Pass σ} {k : ObjectKind} {id : String} {root : Handle} {e : ObjectError}

/-- The calls by which the tree of a root was managed, in order: each object with the transition that was chosen by the
last one of its id before the pass and by the mode, or, if it had been managed with an earlier root, as a new one. -/
def Outcome.traversal (o : Outcome σ) (m : Manager) (setup : Setup) (source : Source) (mode : ManagementMode)
    (k : ObjectKind) (root : Handle) : List (Handle × Transition) :=
  o.pass.traversal (fun a => setup.transitions k (o.manager.plane.read a).id
    ((m.plane.registry k).lastTransition? (o.manager.plane.read a).id) mode.isReadOnly) source.snapshot k root

/-- Every object that a pass could not manage is named in some report: as the object that failed, or by the failure that
is given as the reason. -/
def Outcome.NamesFailures (o : Outcome σ) (m : Manager) : Prop :=
  ∀ k, k.Registered → ∀ call ∈ o.manager.plane.since m.plane, ∀ a t, call.managed? k = some (a, t) →
    ∀ e, o.manager.plane.faultIn k (a, t) = some e →
      ∃ id e', .notified (.manageFailed k id e') ∈ o.manager.plane.since m.plane ∧
        (id = (o.manager.plane.read a).id ∨ e' = e)

namespace Completed

variable (hp : Completed m setup source h s mode o p)
include hp

/-- The last phase leaves alone how the hooks of objects behave. -/
theorem faultIn_eq (k : ObjectKind) : o.manager.plane.faultIn k = p.plane.faultIn k := by
  funext c
  unfold Plane.faultIn
  rw [hp.id_read, show (o.manager.plane.read c.1).behaviour = (p.plane.read c.1).behaviour from
    congrArg Content.behaviour (hp.content_read c.1)]

/-- The trees of the roots are managed with the transitions chosen in the beginning. -/
theorem traversal_eq (hk : k.Registered) (hr : root ∈ p.roots source.snapshot k) :
    o.traversal m setup source mode k root =
      p.traversal (Pass.chosenFor (m.task setup source mode) p k) source.snapshot k root := by
  have hshell := Pass.shell_of_mem_roots hp.sound hk hr
  unfold Outcome.traversal
  rw [hp.closing.sameShape.traversal]
  refine Pass.callsAfter_congr fun a ha => ?_
  have ha' := Pass.shell_of_reaches hshell ((Pass.mem_tree_iff hp.sound hshell).1 ha)
  rw [Pass.chosenFor, hp.chosen_eq (hp.sound.exists_shell_iff.2 ⟨a, ha', rfl⟩), hp.id_read]

/-- The first failure in the tree of a root, as the outcome shows it. -/
theorem firstFailure_eq (hk : k.Registered) (hr : root ∈ p.roots source.snapshot k) :
    (o.traversal m setup source mode k root).findSome? (o.manager.plane.faultIn k) =
      p.firstFailure (m.task setup source mode) source.snapshot k root := by
  rw [hp.traversal_eq hk hr, hp.faultIn_eq, Pass.firstFailure]

/-- What a pass manages are the trees of its roots, one behind the other. -/
theorem called (ho : m.runPass setup source time h (.new mode) s = o) (hk : k.Registered) :
    (o.manager.plane.since m.plane).filterMap (Event.managed? k) =
      (o.pass.roots source.snapshot k).flatMap (o.traversal m setup source mode k) := by
  have hnone : (p.plane.since m.plane).filterMap (Event.managed? k) = [] :=
    List.filterMap_eq_nil_iff.2 fun call hcall => hp.managed?_eq_none hcall
  have hnodup := Pass.roots_nodup hp.sound hk source.applicationIds_nodup
  rw [hp.since_eq ho, List.filterMap_append, hnone, List.nil_append, hp.called_since ho hk, Pass.callsIn_visits hnodup,
    hp.closing.sameShape.roots]
  exact List.flatMap_congr fun root hr => (hp.traversal_eq hk hr).symm

/-- What is on record of the phases before the last. -/
theorem course : Pass.Course m.plane.heap.size setup.types (Pass.attempts source) (m.opening h s mode) p :=
  Pass.course_build (t := m.task setup source mode) (sound_opening m h s mode) hp.built

/-- On record of the phases before the last is what is on record since the pass has begun, and that it has. -/
theorem since_built : p.plane.since m.plane =
    .notified (.start mode.isReadOnly) :: p.plane.since (m.opening h s mode).plane := by
  rw [Plane.since_trans (events_opening m h s mode) hp.course.events]
  exact congrArg (· ++ _) (Plane.since_record m.plane _)

/-- A pass reports the first failure in the tree of each root, and no other. -/
theorem mem_since_iff (ho : m.runPass setup source time h (.new mode) s = o) (ha : h.Accepting) (hk : k.Registered) :
    .notified (.manageFailed k id e) ∈ o.manager.plane.since m.plane ↔
      ∃ root ∈ o.pass.roots source.snapshot k, (o.manager.plane.read root).id = id ∧
        (o.traversal m setup source mode k root).findSome? (o.manager.plane.faultIn k) = some e := by
  have hbefore : .notified (.manageFailed k id e) ∉ p.plane.since m.plane := by
    rw [hp.since_built, List.mem_cons]
    rintro (hstart | hmem)
    · cases hstart
    · cases hp.course.unmanaged _ hmem
  have hreported := (hp.reported ho ha).1.reported
  have hmem : (k, id, e) ∈ p.reports (m.task setup source mode) source.snapshot ↔ _ := Pass.mem_reports_iff
  rw [and_iff_right hk, ← hreported, List.mem_filterMap] at hmem
  simp only [Event.manageFailed?_eq_some_iff, exists_eq_right] at hmem
  rw [hp.since_eq ho, List.mem_append, or_iff_right hbefore, hmem, hp.closing.sameShape.roots]
  refine exists_congr fun root => and_congr_right fun hr => ?_
  rw [hp.id_read, hp.firstFailure_eq hk hr]

end Completed

/-- Each failure in the tree of a root is the first one in the tree of some root, or something fails in the tree of which
the object is the root itself. -/
def Outcome.FailuresComeFirst (o : Outcome σ) (m : Manager) (setup : Setup) (source : Source) (mode : ManagementMode) :
    Prop :=
  ∀ k, k.Registered → ∀ root ∈ o.pass.roots source.snapshot k, ∀ call ∈ o.traversal m setup source mode k root,
    ∀ e, o.manager.plane.faultIn k call = some e → ∃ root' ∈ o.pass.roots source.snapshot k, ∃ e',
      (o.traversal m setup source mode k root').findSome? (o.manager.plane.faultIn k) = some e' ∧
        (root' = call.1 ∨ e' = e)

/-- When a pass with a handler that stops nothing has got through its last phase, all objects that it could not manage
are named in its reports exactly when their failures come first in the trees of roots. -/
theorem namesFailures_iff (ho : m.runPass setup source time h (.new mode) s = o) (ha : h.Accepting)
    (hclosed : m.plane.Closed) (hlast : o.ReachedLastPhase) :
    o.NamesFailures m ↔ o.FailuresComeFirst m setup source mode := by
  obtain ⟨p, hp⟩ := exists_completed ho ha hclosed hlast
  constructor
  · intro hall k hk root hr call hcall e he
    have hmem : call ∈ (o.manager.plane.since m.plane).filterMap (Event.managed? k) :=
      hp.called ho hk ▸ List.mem_flatMap.2 ⟨root, hr, hcall⟩
    obtain ⟨event, hevent, hmanaged⟩ := List.mem_filterMap.1 hmem
    obtain ⟨id, e', hnote, hnames⟩ := hall k hk event hevent call.1 call.2 hmanaged e he
    obtain ⟨root', hr', hid, hfirst⟩ := (hp.mem_since_iff ho ha hk).1 hnote
    refine ⟨root', hr', e', hfirst, hnames.imp_left fun hsame => ?_⟩
    -- both are shells, which their ids tell apart
    rw [hp.closing.sameShape.roots] at hr hr'
    have hshell := Pass.shell_of_mem_roots hp.sound hk hr
    rw [hp.traversal_eq hk hr] at hcall
    have hin : call.1 ∈ p.tree k root := by
      rw [← Pass.fst_traversal]
      exact List.mem_map_of_mem hcall
    have hcalled := Pass.shell_of_reaches hshell ((Pass.mem_tree_iff hp.sound hshell).1 hin)
    refine hp.sound.shell_ext (hp.sound.mem_shells_iff.1 (Pass.shell_of_mem_roots hp.sound hk hr'))
      (hp.sound.mem_shells_iff.1 hcalled) ?_
    rw [← hp.id_read, ← hp.id_read, hid, hsame]
  · intro hall k hk event hevent a t hmanaged e he
    have hmem : (a, t) ∈ (o.manager.plane.since m.plane).filterMap (Event.managed? k) :=
      List.mem_filterMap.2 ⟨event, hevent, hmanaged⟩
    rw [hp.called ho hk] at hmem
    obtain ⟨root, hr, hcall⟩ := List.mem_flatMap.1 hmem
    obtain ⟨root', hr', e', hfirst, hsame⟩ := hall k hk root hr (a, t) hcall e he
    refine ⟨_, e', (hp.mem_since_iff ho ha hk).2 ⟨root', hr', rfl, hfirst⟩, hsame.imp_left fun hroot => ?_⟩
    rw [hroot]

/-! ## Two failures in one tree -/

/-- A node that knows a type of entities that cannot be managed. -/
def fragile : Setup := { Setup.stock with
  types := TypeRegistry.stock.register (.watched "w.E" .entity .entity { manageFault := some (.manage "stuck") }
    none none) }

/-- An application with two such entities. -/
def fragileStore : MemoryStore := .holding [
  (.entity, { id := "app", type := "trellis.entity.BasicApplication", children := ["a", "b"] }),
  (.entity, { id := "a", type := "w.E", parent := some "app" }),
  (.entity, { id := "b", type := "w.E", parent := some "app" })]

/-- A pass over this store that goes on after failures. -/
def fragilePass : Outcome Ledger :=
  ({} : Manager).runPass fragile fragileStore.source 0 (.byMode .carryOn .carryOn) (.new .master) {}

set_option maxRecDepth 2000 in
theorem fragilePass_shows : fragilePass.ReachedLastPhase ∧
    (fragilePass.manager.plane.read ⟨2⟩).id = "b" ∧
    fragilePass.pass.roots fragileStore.source.snapshot .entity = [⟨0⟩] ∧
    fragilePass.traversal {} fragile fragileStore.source .master .entity ⟨0⟩ =
      [(⟨0⟩, .rebindingCreating), (⟨1⟩, .rebindingCreating), (⟨2⟩, .rebindingCreating)] ∧
    fragilePass.manager.plane.faultIn .entity (⟨2⟩, .rebindingCreating) =
      some (.manage "entity b: management failed: stuck") ∧
    [(⟨0⟩, .rebindingCreating), (⟨1⟩, .rebindingCreating), (⟨2⟩, .rebindingCreating)].findSome?
      (fragilePass.manager.plane.faultIn .entity) = some (.manage "entity a: management failed: stuck") ∧
    (⟨2⟩, .rebindingCreating) ∈ (fragilePass.manager.plane.since {}).filterMap (Event.managed? .entity) ∧
    (fragilePass.manager.plane.since {}).filterMap Event.manageFailed? =
      [(.entity, "app", .manage "entity a: management failed: stuck")] := by
  decide +kernel

/-- The failure of the second entity is not the first one in the only tree there is, and is not named. -/
theorem namesFailures_iff_fragilePass :
    (Handler.byMode .carryOn .carryOn).Accepting ∧ ({} : Plane).Closed ∧ fragilePass.ReachedLastPhase ∧
      ¬ fragilePass.FailuresComeFirst {} fragile fragileStore.source .master ∧ ¬ fragilePass.NamesFailures {} := by
  have ha : (Handler.byMode .carryOn .carryOn).Accepting := Handler.accepting_byMode (by decide) (by decide)
  obtain ⟨hlast, -, hroots, htraversal, hfault, hfirst, -⟩ := fragilePass_shows
  have hnot : ¬ fragilePass.FailuresComeFirst {} fragile fragileStore.source .master := by
    intro hall
    obtain ⟨root, hr, e, he, hcomes⟩ := hall .entity (Or.inr rfl) ⟨0⟩ (by rw [hroots]; decide)
      (⟨2⟩, .rebindingCreating) (by rw [htraversal]; decide) _ hfault
    rw [hroots, List.mem_singleton] at hr
    subst hr
    rw [htraversal, hfirst, Option.some.injEq] at he
    subst he
    revert hcomes
    decide
  exact ⟨ha, closed_empty, hlast, hnot, mt (namesFailures_iff (o := fragilePass) rfl ha closed_empty hlast).1 hnot⟩

/-- Two entities of one application cannot be managed. The failure of the first is reported for the application, that of
the second is not reported at all. -/
theorem second_failure_is_silent :
    (Handler.byMode .carryOn .carryOn).Accepting ∧ ({} : Plane).Closed ∧ fragilePass.ReachedLastPhase ∧
      ¬fragilePass.NamesFailures {} := by
  obtain ⟨hlast, hid, -, -, hfault, -, hmanaged, hreports⟩ := fragilePass_shows
  refine ⟨Handler.accepting_byMode (by decide) (by decide), closed_empty, hlast, fun hall => ?_⟩
  obtain ⟨call, hcall, hmanaged⟩ := List.mem_filterMap.1 hmanaged
  obtain ⟨id, e, hnote, hnames⟩ := hall .entity (Or.inr rfl) call hcall ⟨2⟩ _ hmanaged _ hfault
  have hmem : (ObjectKind.entity, id, e) ∈ (fragilePass.manager.plane.since {}).filterMap Event.manageFailed? :=
    List.mem_filterMap.2 ⟨_, hnote, rfl⟩
  rw [hreports, List.mem_singleton] at hmem
  obtain ⟨rfl, rfl⟩ := Prod.mk.inj (Prod.mk.inj hmem).2
  rw [hid] at hnames
  revert hnames
  decide

end Manager

end ManagementPlane
