import ManagementPlane.Proofs.Renewal
import ManagementPlane.Proofs.Silence

/-!
# Objects that could not be made

* `Outcome.Forgets` : nothing came of an object but the report that it could not be made;
* `Outcome.Attached` : one of its kind and id is attached to a shell or to something under management;
* `Outcome.Remains` : what stays under management although a shell was made for its id;
* `Manager.forgets_failed` : nothing came of any object that could not be made, and one of its kind and id is attached
  only to what remains, or to a shell that it came with;
* `Manager.cycle_keeps_policy` : where parents form a cycle, that happens.
-/

namespace ManagementPlane

variable {σ : Type}

/-- A handle that names no object has no adjuncts. -/
theorem Plane.not_holds_of_not_valid {p : Plane} {a b : Handle} (ha : ¬p.heap.Valid a) : ¬(p.read a).Holds b := by
  have hblank : p.read a = .blank .entity "" "" :=
    Std.TreeMap.getD_eq_fallback fun hmem => ha ((p.heap.mem_cells_iff _).1 hmem)
  rintro ⟨k, hk⟩
  rw [hblank] at hk
  cases k <;> cases hk

/-- The last phase leaves alone which adjuncts an object has. -/
theorem Object.Restamped.adjuncts_eq {o o' : Object} (h : o.Restamped o') (k : ObjectKind) :
    o'.adjuncts k = o.adjuncts k := by
  have hnote : ∀ t, (o.noteManaged t).adjuncts k = o.adjuncts k := by
    intro t
    unfold adjuncts noteManaged
    cases o.body <;> cases k <;> rfl
  rcases h with rfl | ⟨t, rfl⟩ | rfl
  · rfl
  · exact hnote (some t)
  · exact hnote none

namespace Manager

variable {m : Manager} {setup : Setup} {source : Source} {time : Nat} {h : Handler σ} {s : σ}
  {mode : ManagementMode} {o : Outcome σ} {p : Pass σ} {x : ObjectKind × String}

/-- A shell of the pass, or an object under management in the end. -/
def Outcome.Present (o : Outcome σ) (a : Handle) : Prop :=
  (∃ k id, o.iteration.scratch.get? k id = some a) ∨
    ∃ k id, k.Registered ∧ (o.manager.plane.registry k).get? id = some a

/-- An object of this kind and id is attached to one that is present. -/
def Outcome.Attached (o : Outcome σ) (x : ObjectKind × String) : Prop :=
  ∃ a, o.Present a ∧ ∃ b, (o.manager.plane.read a).Holds b ∧ o.manager.plane.face b = x

/-- The object was under management before the pass, under the id of a shell that no root leads to. -/
def Outcome.Remains (o : Outcome σ) (m : Manager) (snapshot : Snapshot) (a : Handle) : Prop :=
  ∃ k, k.Registered ∧ ∃ shell ∈ o.iteration.scratch.shells k, ¬o.pass.Reached snapshot k shell ∧
    (m.plane.registry k).get? (o.manager.plane.read shell).id = some a

/-- Nothing came of an object of this kind and id. No report says that it could not be populated or managed, and no hook
was called to join it with an entity. It has no shell. None is returned, and none is under management. -/
structure Outcome.Forgets (o : Outcome σ) (m : Manager) (x : ObjectKind × String) : Prop where
  untreated : x ∉ o.manager.plane.treatedSince m.plane
  shell : o.iteration.scratch.get? x.1 x.2 = none
  unreturned : ∀ apps, o.result = .ok apps → ∀ a ∈ apps, o.manager.plane.face a ≠ x
  unmanaged : x.1.Registered → (o.manager.plane.registry x.1).get? x.2 = none

/-- A pass begins without shells, so what came since then could be made. -/
theorem not_mem_failures_of_came {tried : List (ObjectKind × String)}
    (hcame : Pass.Came tried (m.opening h s mode) p x) :
    x ∉ p.plane.failuresSince (m.opening h s mode).plane := by
  rcases hcame with hold | ⟨-, hnot⟩
  · obtain ⟨k, id⟩ := x
    cases k <;> cases hold
  · exact hnot

namespace Completed

variable (hp : Completed m setup source h s mode o p)
include hp

/-- The last phase leaves kinds and ids alone. -/
theorem face_eq (a : Handle) : o.manager.plane.face a = p.plane.face a := by
  have hsame := hp.closing.restamped a
  exact Prod.ext hsame.kind_eq hsame.id_eq

theorem holds_iff (a b : Handle) : (o.manager.plane.read a).Holds b ↔ (p.plane.read a).Holds b := by
  unfold Object.Holds
  simp only [show ∀ k, (o.manager.plane.read a).adjuncts k = (p.plane.read a).adjuncts k from
    (hp.closing.restamped a).adjuncts_eq]

/-- That shells could not be made is on record of the phases before the last. -/
theorem failuresSince_eq (ho : m.runPass setup source time h (.new mode) s = o) (ha : h.Accepting) :
    o.manager.plane.failuresSince m.plane = p.plane.failuresSince (m.opening h s mode).plane := by
  have hlater : o.manager.plane.failuresSince p.plane = [] :=
    List.filterMap_eq_nil_iff.2 (hp.reported ho ha).1.created
  rw [Plane.failuresSince_trans hp.events_built (hp.reported ho ha).1.events, hlater, List.append_nil,
    Plane.failuresSince, hp.since_built]
  rfl

theorem not_mem_failures_of_shell (htypes : setup.types.KeepsKinds) {k : ObjectKind} {id : String} {a : Handle}
    (hshell : p.scratch.get? k id = some a) : (k, id) ∉ p.plane.failuresSince (m.opening h s mode).plane := by
  refine not_mem_failures_of_came (hp.course.shells htypes k id ?_)
  rw [Scratch.contains_eq_isSome, hshell]
  rfl

/-- Only shells are taken for made. -/
theorem not_mem_failures_of_treated (ho : m.runPass setup source time h (.new mode) s = o) (ha : h.Accepting)
    (htypes : setup.types.KeepsKinds) (hx : x ∈ o.manager.plane.treatedSince m.plane) :
    x ∉ p.plane.failuresSince (m.opening h s mode).plane := by
  obtain ⟨hreports, -⟩ := hp.reported ho ha
  rw [Plane.treatedSince_trans hp.events_built hreports.events, List.mem_append] at hx
  rcases hx with hx | hx
  · rw [Plane.treatedSince, hp.since_built] at hx
    exact not_mem_failures_of_came (hp.course.treated htypes x hx)
  · -- in the last phase, that is the root of a tree
    obtain ⟨e, he, hx⟩ := List.mem_filterMap.1 hx
    rw [hreports.treated e he, Option.map_eq_some_iff] at hx
    obtain ⟨⟨k, id, error⟩, hfailed, rfl⟩ := hx
    have hmem : (k, id, error) ∈ p.reports (m.task setup source mode) source.snapshot := by
      rw [← hreports.reported]
      exact List.mem_filterMap.2 ⟨e, he, hfailed⟩
    obtain ⟨hk, root, hr, rfl, -⟩ := Pass.mem_reports_iff.1 hmem
    exact hp.not_mem_failures_of_shell htypes (hp.sound.mem_shells_iff.1 (Pass.shell_of_mem_roots hp.sound hk hr))

/-- Nothing comes of an object that could not be made. -/
theorem forgets (ho : m.runPass setup source time h (.new mode) s = o) (ha : h.Accepting)
    (htypes : setup.types.KeepsKinds) (hx : x ∈ p.plane.failuresSince (m.opening h s mode).plane) :
    o.Forgets m x := by
  have hshell : p.scratch.get? x.1 x.2 = none := by
    rcases hg : p.scratch.get? x.1 x.2 with _ | a
    · rfl
    · exact absurd hx (hp.not_mem_failures_of_shell htypes hg)
  refine ⟨fun htreated => hp.not_mem_failures_of_treated ho ha htypes htreated hx, hp.scratch ▸ hshell,
    fun apps hok a hmem hface => ?_, fun hk => ?_⟩
  · obtain ⟨id, hget⟩ := Pass.shell_of_mem_thriving ((hp.reported ho ha).2 apps hok ▸ hmem)
    rw [hp.face_eq, Plane.face, hp.sound.kind hget, hp.sound.id hget] at hface
    rw [← hface, hget] at hshell
    cases hshell
  · have hnone := hp.entry_of_absent hk (hp.scratch ▸ hshell)
    rw [Registry.get?, hnone]
    rfl

/-! ### What it is attached to -/

/-- It is attached to a shell only if it came with it. -/
theorem gives_of_holds (htypes : setup.types.KeepsKinds) (hx : x ∈ p.plane.failuresSince (m.opening h s mode).plane)
    {k : ObjectKind} {id : String} {a b : Handle} (hget : o.iteration.scratch.get? k id = some a)
    (hab : (o.manager.plane.read a).Holds b) (hface : o.manager.plane.face b = x) : setup.types.Gives b := by
  rw [hp.scratch] at hget
  rw [hp.holds_iff] at hab
  rw [hp.face_eq] at hface
  rcases hp.course.holds htypes a b hab with hold | hgives | ⟨-, hcame⟩
  · exact absurd hold (Plane.not_holds_of_not_valid (hp.not_valid hget))
  · exact hgives
  · exact absurd hx (not_mem_failures_of_came (hface ▸ hcame))

/-- What is present is a shell or remains from before. -/
theorem shell_or_remains {a : Handle} (hpresent : o.Present a) :
    (∃ k id, o.iteration.scratch.get? k id = some a) ∨ o.Remains m source.snapshot a := by
  rcases hpresent with hshell | ⟨k, id, hk, hget⟩
  · exact Or.inl hshell
  · rcases hg : o.iteration.scratch.get? k id with _ | shell
    · rw [Registry.get?, hp.entry_of_absent hk hg] at hget
      cases hget
    · have hid := hp.sound_last.id hg
      by_cases hr : o.pass.Reached source.snapshot k shell
      · obtain ⟨t, hentry⟩ := hp.entry_of_reached hk hg hr
        rw [Registry.get?, hentry] at hget
        exact Or.inl ⟨k, id, hg.trans hget⟩
      · refine Or.inr ⟨k, hk, shell, hp.sound_last.mem_shells_iff.2 (hid ▸ hg), hr, ?_⟩
        rw [hid, Registry.get?, ← hp.entry_of_not_reached hk hg hr]
        exact hget

/-- What remains from before is under management. -/
theorem present_of_remains {a : Handle} (hold : o.Remains m source.snapshot a) : o.Present a := by
  obtain ⟨k, hk, shell, hshell, hr, hget⟩ := hold
  have hg := hp.sound_last.mem_shells_iff.1 hshell
  refine Or.inr ⟨k, (o.manager.plane.read shell).id, hk, ?_⟩
  rw [Registry.get?, hp.entry_of_not_reached hk hg hr]
  exact hget

/-- It has the adjuncts that it had before. -/
theorem holds_of_remains {a b : Handle} (hold : o.Remains m source.snapshot a) :
    (o.manager.plane.read a).Holds b ↔ (m.plane.read a).Holds b := by
  obtain ⟨k, -, shell, -, -, hget⟩ := hold
  rw [hp.holds_iff, hp.read_old (hp.closed k _ a hget)]

end Completed

/-- Let the types make objects of the kind they declare. When a pass with a handler that stops nothing has got through
its last phase, each object that could not be made was reported once as such, and nothing came of it. One of its kind and
id is attached to something in the end exactly when it was attached before to an object that remains under management
because no root leads to the shell of its id, or when it came with a shell from its type. -/
theorem forgets_failed (ho : m.runPass setup source time h (.new mode) s = o) (ha : h.Accepting)
    (htypes : setup.types.KeepsKinds) (hclosed : m.plane.Closed) (hlast : o.ReachedLastPhase) :
    (o.manager.plane.failuresSince m.plane).Nodup ∧
      ∀ x ∈ o.manager.plane.failuresSince m.plane, o.Forgets m x ∧
        (o.Attached x ↔
          (∃ a, o.Remains m source.snapshot a ∧ ∃ b, (m.plane.read a).Holds b ∧ o.manager.plane.face b = x) ∨
          ∃ k id a b, o.iteration.scratch.get? k id = some a ∧ setup.types.Gives b ∧
            (o.manager.plane.read a).Holds b ∧ o.manager.plane.face b = x) := by
  obtain ⟨p, hp⟩ := exists_completed ho ha hclosed hlast
  rw [hp.failuresSince_eq ho ha]
  refine ⟨hp.course.failures.nodup (Pass.nodup_attempts source), fun x hx => ⟨hp.forgets ho ha htypes hx, ?_⟩⟩
  constructor
  · rintro ⟨a, hpresent, b, hab, hface⟩
    rcases hp.shell_or_remains hpresent with ⟨k, id, hget⟩ | hold
    · exact Or.inr ⟨k, id, a, b, hget, hp.gives_of_holds htypes hx hget hab hface, hab, hface⟩
    · exact Or.inl ⟨a, hold, b, (hp.holds_of_remains hold).1 hab, hface⟩
  · rintro (⟨a, hold, b, hab, hface⟩ | ⟨k, id, a, b, hget, -, hab, hface⟩)
    · exact ⟨a, hp.present_of_remains hold, b, (hp.holds_of_remains hold).2 hab, hface⟩
    · exact ⟨a, Or.inl ⟨k, id, hget⟩, b, hab, hface⟩

/-! ## Adjuncts of what remains -/

/-- A master with an entity that has a policy, and with another one. -/
def securedPass : Outcome Unit :=
  ({} : Manager).runPass .stock (MemoryStore.holding [
    (.entity, { id := "x", type := "trellis.entity.BasicEntity", policies := ["p"] }),
    (.entity, { id := "z", type := "trellis.entity.BasicEntity" }),
    (.policy, { id := "p", type := "trellis.policy.BasicPolicy" })]).source
    0 (.refusing []) (.new .master) ()

/-- The policy and the other entity are of types that nobody knows, and no root leads to the first entity any more. -/
def unknownStore : MemoryStore := .holding [
  (.entity, { id := "x", type := "trellis.entity.BasicEntity", parent := some "y", policies := ["p"] }),
  (.entity, { id := "y", type := "trellis.entity.BasicEntity", parent := some "x" }),
  (.entity, { id := "z", type := "w.E" }),
  (.policy, { id := "p", type := "w.P" })]

/-- The next pass of this master. -/
def unknownPass : Outcome Unit :=
  securedPass.manager.runPass .stock unknownStore.source 0 (.refusing []) (.new .master) ()

set_option maxRecDepth 2000 in
theorem unknownPass_shows : securedPass.ReachedLastPhase ∧ unknownPass.ReachedLastPhase ∧
    unknownPass.manager.plane.failuresSince securedPass.manager.plane = [(.entity, "z"), (.policy, "p")] ∧
    ((securedPass.manager.plane.registry .entity).get? "z").isSome = true ∧
    (unknownPass.manager.plane.registry .entity).get? "x" = some ⟨0⟩ ∧
    (unknownPass.manager.plane.read ⟨0⟩).adjuncts .policy = [⟨2⟩] ∧
    unknownPass.manager.plane.face ⟨2⟩ = (.policy, "p") := by
  decide +kernel

theorem attached_unknownPass : unknownPass.Attached (.policy, "p") := by
  obtain ⟨-, -, -, -, hmanaged, hheld, hface⟩ := unknownPass_shows
  exact ⟨⟨0⟩, Or.inr ⟨.entity, "x", Or.inr rfl, hmanaged⟩, ⟨2⟩, ⟨.policy, hheld ▸ List.mem_singleton.2 rfl⟩, hface⟩

/-- Of the two objects that could not be made, the policy is still attached to the entity that remains. -/
theorem forgets_failed_unknownPass :
    (Handler.refusing []).Accepting ∧ TypeRegistry.stock.KeepsKinds ∧ securedPass.manager.plane.Closed ∧
      unknownPass.ReachedLastPhase ∧ ((securedPass.manager.plane.registry .entity).get? "z").isSome = true ∧
      unknownPass.manager.plane.failuresSince securedPass.manager.plane = [(.entity, "z"), (.policy, "p")] ∧
      unknownPass.Attached (.policy, "p") ∧
      (unknownPass.manager.plane.failuresSince securedPass.manager.plane).Nodup ∧
      ∀ x ∈ unknownPass.manager.plane.failuresSince securedPass.manager.plane, unknownPass.Forgets securedPass.manager x ∧
        (unknownPass.Attached x ↔
          (∃ a, unknownPass.Remains securedPass.manager unknownStore.source.snapshot a ∧
            ∃ b, (securedPass.manager.plane.read a).Holds b ∧ unknownPass.manager.plane.face b = x) ∨
          ∃ k id a b, unknownPass.iteration.scratch.get? k id = some a ∧ TypeRegistry.stock.Gives b ∧
            (unknownPass.manager.plane.read a).Holds b ∧ unknownPass.manager.plane.face b = x) := by
  obtain ⟨hsecured, hlast, hfailed, hbefore, -⟩ := unknownPass_shows
  have ha : (Handler.refusing []).Accepting := Handler.accepting_refusing (by decide)
  have hclosed : securedPass.manager.plane.Closed := closed_of_runPass rfl ha closed_empty hsecured
  exact ⟨ha, TypeRegistry.keepsKinds_stock, hclosed, hlast, hbefore, hfailed, attached_unknownPass,
    forgets_failed (o := unknownPass) rfl ha TypeRegistry.keepsKinds_stock hclosed hlast⟩

/-- A policy that could not be made stays attached to an entity of an earlier pass, which no root of this one leads to. -/
theorem cycle_keeps_policy :
    (Handler.refusing []).Accepting ∧ TypeRegistry.stock.KeepsKinds ∧ securedPass.manager.plane.Closed ∧
      unknownPass.ReachedLastPhase ∧
      ∃ x ∈ unknownPass.manager.plane.failuresSince securedPass.manager.plane, unknownPass.Attached x := by
  obtain ⟨hsecured, hlast, hfailed, -⟩ := unknownPass_shows
  have ha : (Handler.refusing []).Accepting := Handler.accepting_refusing (by decide)
  refine ⟨ha, TypeRegistry.keepsKinds_stock, closed_of_runPass rfl ha closed_empty hsecured, hlast, ?_⟩
  exact ⟨(.policy, "p"), by simp [hfailed], attached_unknownPass⟩

end Manager

end ManagementPlane
