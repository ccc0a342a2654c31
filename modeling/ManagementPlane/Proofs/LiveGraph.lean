import ManagementPlane.Proofs.Outcome

/-!
# The live objects become the persisted graph

* `Plane.goneCalls` : the calls by which what was under management and has no shell is dropped;
* `Manager.registries_eq_shells` : where parents form no cycles, a pass leaves exactly its own shells under management,
  and drops what has none, each object once.
-/

namespace ManagementPlane

variable {σ : Type}

/-- The calls by which the objects of a registry are dropped whose ids have no shell, in the order of the registry. -/
def Plane.goneCalls (p : Plane) (s : Scratch) (k : ObjectKind) : List (Handle × Transition) :=
  ((p.registry k).objects.entries.filter fun e => (s.get? k e.1).isNone).map fun e =>
    (e.2.object, .rebindingDestroyed)

namespace Pass

variable {n : Nat} {p : Pass σ}

/-- What the last phase drops is what has no shell. -/
theorem dropCalls_unused (hs : p.scratch.Sound n p.plane) (k : ObjectKind) :
    p.plane.dropCalls k (p.unused k) = p.plane.goneCalls p.scratch k := by
  have hunused : p.unused k = ((p.plane.registry k).objects.entries.filter fun e =>
      (p.scratch.get? k e.1).isNone).map Prod.fst := by
    show (p.plane.registry k).objects.keys.filter (fun id => !(p.shellIds k).contains id) = _
    rw [OrderedMap.keys, List.filter_map]
    refine congrArg _ (List.filter_congr fun e _ => ?_)
    show (!(p.shellIds k).contains e.1) = _
    rw [Bool.eq_iff_iff, Bool.not_eq_true', List.contains_eq_mem, decide_eq_false_iff_not,
      mem_shellIds_iff hs, Scratch.contains_eq_isSome, Bool.not_eq_true, Option.isSome_eq_false_iff]
  unfold Plane.dropCalls Plane.goneCalls
  rw [hunused, List.filterMap_map]
  refine List.filterMap_eq_map_iff_forall_eq_some.2 fun e he => ?_
  have hg : (p.plane.registry k).objects.get? e.1 = some e.2 :=
    OrderedMap.get?_eq_some_iff.2 (List.mem_filter.1 he).1
  simp only [Function.comp_apply, Registry.get?, hg, Option.map_some]

end Pass

namespace Manager

variable {m : Manager} {setup : Setup} {source : Source} {time : Nat} {h : Handler σ} {s : σ}
  {mode : ManagementMode} {o : Outcome σ} {p : Pass σ} {k : ObjectKind}

/-- If no parents form a cycle among the shells of locations or of entities, a pass that gets through its last phase
leaves under management just its own shells, each under its id. What was under management before and has no shell is
dropped, each object once, locations first; nothing else is. -/
theorem registries_eq_shells (ho : m.runPass setup source time h (.new mode) s = o) (ha : h.Accepting)
    (hclosed : m.plane.Closed) (hlast : o.ReachedLastPhase)
    (hac : ∀ k, k.Registered → o.iteration.scratch.Acyclic o.manager.plane k) :
    (∀ k, k.Registered → ∀ id,
      (o.manager.plane.registry k).get? id = o.iteration.scratch.get? k id ∧
        ∀ a, o.iteration.scratch.get? k id = some a → ¬m.plane.heap.Valid a) ∧
    o.manager.plane.unmanagedCalls = m.plane.unmanagedCalls ++
      m.plane.goneCalls o.iteration.scratch .location ++ m.plane.goneCalls o.iteration.scratch .entity := by
  obtain ⟨p, hp⟩ := exists_completed ho ha hclosed hlast
  have hshape := hp.closing.sameShape
  refine ⟨fun k hk id => ?_, ?_⟩
  · rw [hp.scratch]
    have hall : ∀ a ∈ p.scratch.shells k, a ∈ p.visits source.snapshot k := fun a =>
      (Pass.mem_visits_of_acyclic hp.sound hk ((hshape.acyclic k).1 (hac k hk))).2
    exact ⟨hp.get?_registry hk hall id, fun a => hp.not_valid⟩
  · have hgone : ∀ k, p.plane.goneCalls p.scratch k = m.plane.goneCalls p.scratch k := fun k => by
      rw [Plane.goneCalls, hp.registry, Plane.goneCalls]
    have hcalls := hp.closing.unmanagedCalls
    rw [Pass.dropCalls_unused hp.sound, Pass.dropCalls_unused hp.sound, hp.unmanagedCalls, hgone,
      hgone] at hcalls
    rw [hp.scratch]
    exact hcalls

/-! ## A store that has changed -/

/-- A pass of a master over a store with one application. -/
def earlierPass : Outcome Unit :=
  ({} : Manager).runPass .stock
    (MemoryStore.holding [(.entity, { id := "old", type := "trellis.entity.BasicApplication" })]).source
    0 (.refusing []) (.new .master) ()

/-- What the store holds later: another application, which lists an entity that names it. -/
def laterStore : MemoryStore := .holding [
  (.entity, { id := "a", type := "trellis.entity.BasicApplication", children := ["c"] }),
  (.entity, { id := "c", type := "trellis.entity.BasicEntity", parent := some "a" })]

/-- A pass over the later store, with the application of the earlier one still under management. -/
def laterPass : Outcome Unit :=
  earlierPass.manager.runPass .stock laterStore.source 0 (.refusing []) (.new .master) ()

set_option maxRecDepth 2000 in
theorem laterPass_shows : earlierPass.ReachedLastPhase ∧ laterPass.ReachedLastPhase ∧
    (∀ k ∈ [ObjectKind.location, .entity],
      laterPass.iteration.scratch.Shallow laterPass.manager.plane k) ∧
    earlierPass.manager.plane.goneCalls laterPass.iteration.scratch .entity =
      [(⟨0⟩, .rebindingDestroyed)] := by
  decide +kernel

theorem registries_eq_shells_laterPass :
    (Handler.refusing []).Accepting ∧ earlierPass.manager.plane.Closed ∧ laterPass.ReachedLastPhase ∧
      (∀ k, k.Registered → laterPass.iteration.scratch.Acyclic laterPass.manager.plane k) ∧
      (∀ k, k.Registered → ∀ id,
        (laterPass.manager.plane.registry k).get? id = laterPass.iteration.scratch.get? k id ∧
          ∀ a, laterPass.iteration.scratch.get? k id = some a →
            ¬earlierPass.manager.plane.heap.Valid a) ∧
      laterPass.manager.plane.unmanagedCalls = earlierPass.manager.plane.unmanagedCalls ++
        earlierPass.manager.plane.goneCalls laterPass.iteration.scratch .location ++
        [(⟨0⟩, .rebindingDestroyed)] := by
  obtain ⟨hearlier, hlast, hshallow, hgone⟩ := laterPass_shows
  have ha : (Handler.refusing []).Accepting := Handler.accepting_refusing (by decide)
  have hclosed : earlierPass.manager.plane.Closed := closed_of_runPass rfl ha closed_empty hearlier
  have hac : ∀ k, k.Registered →
      laterPass.iteration.scratch.Acyclic laterPass.manager.plane k :=
    fun k hk => (hshallow k hk.mem).acyclic
  have hall := registries_eq_shells (o := laterPass) rfl ha hclosed hlast hac
  rw [hgone] at hall
  exact ⟨ha, hclosed, hlast, hac, hall⟩

end Manager

end ManagementPlane
