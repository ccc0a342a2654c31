import ManagementPlane.Proofs.Decoded
import ManagementPlane.Proofs.LastNotes
import ManagementPlane.Proofs.Silence

/-!
# The applications that a pass returns

A pass that goes through returns applications: entities whose memento names no parent. One in whose tree a hook fails is
left out of the result, but it is under management with all that lies below it. Trees may overlap, and the hook of a shared
object may fail with the transition it is given in one tree and not with that in another: what counts is how it went when
the tree of the application itself was managed.

* `Source.HasApplication` : an entity whose memento names no parent;
* `Pass.mem_thriving_iff`, `Pass.thriving_sublist` : the applications in whose trees nothing fails;
* `Manager.exists_completed_of_ok` : these are what a pass returns that goes through;
* `Outcome.Returns` : what is returned, in what order, and what is under management with it;
* `Manager.returns_applications` : so it is with every pass that goes through.
-/

namespace ManagementPlane

open Relation (ReflTransGen)

variable {σ : Type}

/-- The store has an entity under this id whose memento names no parent. -/
def Source.HasApplication (source : Source) (id : String) : Prop :=
  ∃ m, (source.snapshot.ofKind .entity).get? id = some m ∧ m.parent = none

theorem Source.mem_applicationIds_iff {source : Source} {id : String} :
    id ∈ source.snapshot.applicationIds ↔ source.HasApplication id := by
  have hid : ∀ {id m}, (source.snapshot.ofKind .entity).get? id = some m → m.id = id :=
    source.payloads.id_of_get?_snapshot
  simp only [Snapshot.applicationIds, List.mem_map, List.mem_filter, Option.isNone_iff_eq_none, HasApplication]
  constructor
  · rintro ⟨m, ⟨hm, hparent⟩, rfl⟩
    obtain ⟨id, hget⟩ := OrderedMap.mem_values_iff.1 hm
    obtain rfl := hid hget
    exact ⟨m, hget, hparent⟩
  · rintro ⟨m, hget, hparent⟩
    exact ⟨m, ⟨OrderedMap.mem_values_iff.2 ⟨id, hget⟩, hparent⟩, hid hget⟩

/-- Applications are listed in the order of the store. -/
theorem Source.applicationIds_sublist (source : Source) :
    source.snapshot.applicationIds.Sublist source.payloads.entity.keys := by
  have hids := source.payloads.ids_snapshot .entity
  have hfilter : source.snapshot.applicationIds.Sublist (source.snapshot.ofKind .entity).keys := by
    rw [snapshot, ← hids]
    exact List.filter_sublist.map _
  exact hfilter.trans (keys_decodeTable_sublist _)

namespace Pass

variable {t : Task} {n : Nat} {p : Pass σ} {snapshot : Snapshot} {a b : Handle}

/-- An application thrives if it has a shell and nothing fails while its tree is managed. -/
theorem mem_thriving_iff (hs : p.scratch.Sound n p.plane) : a ∈ p.thriving t snapshot ↔
    ((p.plane.read a).id ∈ snapshot.applicationIds ∧ a ∈ p.scratch.shells .entity) ∧
      p.firstFailure t snapshot .entity a = none := by
  have hshell : a ∈ snapshot.applicationIds.filterMap (p.scratch.get? .entity) ↔
      (p.plane.read a).id ∈ snapshot.applicationIds ∧ a ∈ p.scratch.shells .entity := by
    rw [List.mem_filterMap, hs.mem_shells_iff]
    constructor
    · rintro ⟨id, hid, hget⟩
      obtain rfl := hs.id hget
      exact ⟨hid, hget⟩
    · rintro ⟨hid, hget⟩
      exact ⟨_, hid, hget⟩
  rw [thriving, List.mem_filter, hshell, Option.isNone_iff_eq_none, reportOf, Option.map_eq_none_iff]

/-- They are in the order in which the applications are listed. -/
theorem thriving_sublist (hs : p.scratch.Sound n p.plane) :
    ((p.thriving t snapshot).map fun a => (p.plane.read a).id).Sublist snapshot.applicationIds := by
  have hids : ∀ ids : List String,
      ((ids.filterMap (p.scratch.get? .entity)).map fun a => (p.plane.read a).id).Sublist ids := by
    intro ids
    induction ids with
    | nil => exact .slnil
    | cons id ids ih =>
      rw [List.filterMap_cons]
      rcases hget : p.scratch.get? .entity id with _ | a
      · exact ih.cons _
      · rw [List.map_cons, hs.id hget]
        exact ih.cons_cons _
  exact (List.filter_sublist.map _).trans (hids _)

end Pass

namespace Manager

variable {m : Manager} {setup : Setup} {source : Source} {time : Nat} {h : Handler σ} {s : σ}
  {mode : ManagementMode} {o : Outcome σ} {p : Pass σ} {apps : List Handle}

/-- A pass that returns applications has got through all its phases, and returns those in whose trees nothing fails. -/
theorem exists_completed_of_ok (ho : m.runPass setup source time h (.new mode) s = o) (hclosed : m.plane.Closed)
    (hok : o.result = .ok apps) :
    ∃ p, Completed m setup source h s mode o p ∧
      apps = p.thriving (m.task setup source mode) source.snapshot := by
  obtain ⟨result, r, hv, -, -, hresult⟩ := exists_told ho
  rw [hok] at hresult
  rcases result with e | applications
  · cases hresult
  obtain rfl := Except.ok.inj hresult
  obtain ⟨applications, q, hphases, hdone⟩ := Step.on_bind_eq_ok_iff.1 hv
  obtain ⟨_, _, -, hdone⟩ := Step.on_bind_eq_ok_iff.1 hdone
  obtain rfl := Except.ok.inj (Prod.mk.inj hdone).1
  have hall : m.Completes setup source h s mode := by
    unfold Completes
    rw [hphases]
    rfl
  obtain ⟨p, hp⟩ := exists_completed_of_completes ho hclosed hall
  refine ⟨p, hp, ?_⟩
  rw [Pass.phases_eq] at hphases
  obtain ⟨snapshot, p', hb, hphases⟩ := Step.on_bind_eq_ok_iff.1 hphases
  obtain ⟨hsnapshot, rfl⟩ := Prod.mk.inj (hp.built.symm.trans hb)
  obtain rfl := Except.ok.inj hsnapshot
  obtain ⟨_, u, hm, hphases⟩ := Step.on_bind_eq_ok_iff.1 hphases
  obtain ⟨_, _, -, hphases⟩ := Step.on_bind_eq_ok_iff.1 hphases
  obtain rfl := Except.ok.inj (Prod.mk.inj hphases).1
  -- the lenient handler gets to the same end
  have hsame := Pass.follows_manageAll _ h source.snapshot p _ u hm
  obtain ⟨apps', u', hm', happs, -⟩ := Pass.ends_sayAll (t := m.task setup source mode) h.accepting_lenient hp.sound
    source.applicationIds_nodup hp.old.1 hp.old.2
  obtain rfl := Except.ok.inj (Prod.mk.inj (hm'.symm.trans hsame)).1
  exact happs

/-- The entity `b` is `a`, or can be reached from it through listed or declared children that have shells. -/
def Outcome.Leads (o : Outcome σ) : Handle → Handle → Prop :=
  ReflTransGen (o.iteration.scratch.Below o.manager.plane .entity)

/-- The shell of an entity whose memento names no parent. -/
def Outcome.Application (o : Outcome σ) (source : Source) (a : Handle) : Prop :=
  ∃ id, source.HasApplication id ∧ o.iteration.scratch.get? .entity id = some a

/-- What a pass returns: the applications in whose trees no hook failed, in the order of the store. The entities were
managed tree by tree, and the tree of an application is what it leads to. Applications are shells that the pass has made,
and all of them, returned or not, are under management with their whole trees. -/
structure Outcome.Returns (o : Outcome σ) (m : Manager) (setup : Setup) (source : Source) (mode : ManagementMode)
    (apps : List Handle) : Prop where
  ordered : (apps.map fun a => (o.manager.plane.read a).id).Sublist source.payloads.entity.keys
  nodup : apps.Nodup
  called : (o.manager.plane.since m.plane).filterMap (Event.managed? .entity) =
    (o.pass.roots source.snapshot .entity).flatMap (o.traversal m setup source mode .entity)
  traversed : ∀ a, o.Application source a → a ∈ o.pass.roots source.snapshot .entity ∧
    ((o.traversal m setup source mode .entity a).map Prod.fst).Nodup ∧
    ∀ b, b ∈ (o.traversal m setup source mode .entity a).map Prod.fst ↔ o.Leads a b
  mem_iff : ∀ a, a ∈ apps ↔ o.Application source a ∧
    ∀ call ∈ o.traversal m setup source mode .entity a, o.manager.plane.faultIn .entity call = none
  made : ∀ a, o.Application source a → ¬ m.plane.heap.Valid a
  registered : ∀ a, o.Application source a → ∀ b, o.Leads a b →
    (o.manager.plane.registry .entity).get? (o.manager.plane.read b).id = some b

namespace Completed

variable (hp : Completed m setup source h s mode o p) {a b : Handle}
include hp

theorem application_iff : o.Application source a ↔
    (p.plane.read a).id ∈ source.snapshot.applicationIds ∧ a ∈ p.scratch.shells .entity := by
  simp only [Outcome.Application, hp.scratch, hp.sound.mem_shells_iff, Source.mem_applicationIds_iff]
  constructor
  · rintro ⟨id, hid, hget⟩
    obtain rfl := hp.sound.id hget
    exact ⟨hid, hget⟩
  · rintro ⟨hid, hget⟩
    exact ⟨_, hid, hget⟩

theorem leads_eq : o.Leads = ReflTransGen (p.scratch.Below p.plane .entity) :=
  congrArg ReflTransGen (hp.closing.sameShape.below .entity)

/-- Applications are roots. -/
theorem mem_roots_of_application (ha : o.Application source a) : a ∈ p.roots source.snapshot .entity := by
  obtain ⟨hid, hshell⟩ := hp.application_iff.1 ha
  exact (Pass.mem_roots_entity_iff hp.sound).2 ⟨hshell, .inl hid⟩

/-- The last phase gets to the whole tree of every application. -/
theorem mem_visits_of_leads (ha : o.Application source a) (hab : o.Leads a b) :
    b ∈ p.visits source.snapshot .entity := by
  rw [hp.leads_eq] at hab
  exact (Pass.mem_visits_iff hp.sound (.inr rfl)).2 ⟨a, hp.mem_roots_of_application ha, hab⟩

/-- With an application all that it leads to is managed, each object once. -/
theorem fst_traversal (ha : o.Application source a) :
    ((o.traversal m setup source mode .entity a).map Prod.fst).Nodup ∧
      ∀ b, b ∈ (o.traversal m setup source mode .entity a).map Prod.fst ↔ o.Leads a b := by
  rw [hp.traversal_eq (.inr rfl) (hp.mem_roots_of_application ha), Pass.fst_traversal, hp.leads_eq]
  exact ⟨p.tree_nodup .entity a, fun b => Pass.mem_tree_iff hp.sound (hp.application_iff.1 ha).2⟩

/-- Whether an application thrives is seen in the calls by which its tree was managed. -/
theorem mem_thriving_iff : a ∈ p.thriving (m.task setup source mode) source.snapshot ↔ o.Application source a ∧
    ∀ call ∈ o.traversal m setup source mode .entity a, o.manager.plane.faultIn .entity call = none := by
  rw [Pass.mem_thriving_iff hp.sound, ← hp.application_iff]
  refine and_congr_right fun ha => ?_
  rw [← hp.firstFailure_eq (.inr rfl) (hp.mem_roots_of_application ha), List.findSome?_eq_none_iff]

end Completed

/-- A pass that goes through returns just the applications in whose trees no hook failed. All applications are under
management with their whole trees, those that are left out like the others. -/
theorem returns_applications (ho : m.runPass setup source time h (.new mode) s = o) (hclosed : m.plane.Closed)
    (hok : o.result = .ok apps) : o.Returns m setup source mode apps := by
  obtain ⟨p, hp, rfl⟩ := exists_completed_of_ok ho hclosed hok
  have hids : (fun a => (o.manager.plane.read a).id) = fun a => (p.plane.read a).id := funext hp.id_read
  have hsorted : ((p.thriving (m.task setup source mode) source.snapshot).map fun a => (p.plane.read a).id).Sublist
      source.snapshot.applicationIds := Pass.thriving_sublist hp.sound
  refine ⟨?_, ?_, hp.called ho (.inr rfl), fun a ha => ?_, fun a => hp.mem_thriving_iff, fun a ha => ?_,
    fun a ha b hab => ?_⟩
  · rw [hids]
    exact hsorted.trans source.applicationIds_sublist
  · exact (source.applicationIds_nodup.sublist hsorted).of_map _
  · rw [hp.closing.sameShape.roots]
    exact ⟨hp.mem_roots_of_application ha, hp.fst_traversal ha⟩
  · exact hp.not_valid (hp.sound.mem_shells_iff.1 (hp.application_iff.1 ha).2)
  · have hentry := hp.closing.entered .entity (.inr rfl) b (hp.mem_visits_of_leads ha hab)
    rw [hp.id_read]
    exact congrArg (Option.map Registered.object) hentry

/-! ## Applications that share an entity -/

/-- A node that knows a type of entities that refuse to be held read-only. -/
def unwilling : Setup := { Setup.stock with
  types := TypeRegistry.stock.register (.watched "w.E" .entity .entity
    { manageFaults := [(.rebindingReadOnly, some (.manage "held"))] } none none) }

/-- Two applications that list the same entity of this type, and one without any. -/
def mixedStore : MemoryStore := .holding [
  (.entity, { id := "first", type := "trellis.entity.BasicApplication", children := ["a"] }),
  (.entity, { id := "a", type := "w.E", parent := some "first" }),
  (.entity, { id := "second", type := "trellis.entity.BasicApplication", children := ["a"] }),
  (.entity, { id := "solid", type := "trellis.entity.BasicApplication" })]

/-- The pass of a node that follows a master. -/
def mixedPass : Outcome Ledger :=
  ({} : Manager).runPass unwilling mixedStore.source 0 (.byMode .carryOn .carryOn) (.new .hotStandby) {}

set_option maxRecDepth 2000 in
theorem mixedPass_shows : mixedPass.result = .ok [⟨2⟩, ⟨3⟩] ∧
    mixedPass.pass.roots mixedStore.source.snapshot .entity = [⟨0⟩, ⟨2⟩, ⟨3⟩] ∧
    mixedPass.traversal {} unwilling mixedStore.source .hotStandby .entity ⟨0⟩ =
      [(⟨0⟩, .rebindingReadOnly), (⟨1⟩, .rebindingReadOnly)] ∧
    mixedPass.traversal {} unwilling mixedStore.source .hotStandby .entity ⟨2⟩ =
      [(⟨2⟩, .rebindingReadOnly), (⟨1⟩, .rebindingCreating)] ∧
    (mixedPass.manager.plane.registry .entity).ids = ["first", "a", "second", "solid"] := by
  decide +kernel

/-- The entity fails when the tree of the first application is managed. With the second one it comes up again, is managed as
a new one and does not fail: that application is returned. -/
theorem returns_applications_mixedPass :
    ({} : Plane).Closed ∧ mixedPass.result = .ok [⟨2⟩, ⟨3⟩] ∧
      mixedPass.traversal {} unwilling mixedStore.source .hotStandby .entity ⟨0⟩ =
        [(⟨0⟩, .rebindingReadOnly), (⟨1⟩, .rebindingReadOnly)] ∧
      mixedPass.traversal {} unwilling mixedStore.source .hotStandby .entity ⟨2⟩ =
        [(⟨2⟩, .rebindingReadOnly), (⟨1⟩, .rebindingCreating)] ∧
      (mixedPass.manager.plane.registry .entity).ids = ["first", "a", "second", "solid"] ∧
      mixedPass.Returns {} unwilling mixedStore.source .hotStandby [⟨2⟩, ⟨3⟩] := by
  obtain ⟨hok, -, hfirst, hsecond, hids⟩ := mixedPass_shows
  exact ⟨closed_empty, hok, hfirst, hsecond, hids, returns_applications (o := mixedPass) rfl closed_empty hok⟩

end Manager

end ManagementPlane
