import ManagementPlane.Manager
import ManagementPlane.Proofs.Courses
import ManagementPlane.Proofs.Replay

/-!
# The handler decides the verdict, not the state

* `Handler.judge` : how a handler ends a pass whose phases are over;
* `Outcome.doings` : what a pass does and tells, but for the report of its failure;
* `Outcome.SameButVerdict` : two passes that have done the same and leave the same state behind;
* `Manager.handlers_decide_the_verdict` : so it is with any two handlers that stop nothing before the end.
-/

namespace ManagementPlane

variable {σ τ α : Type}

/-- How the handler ends a pass whose phases have come to `result`: what the pass returns, and what the handler holds
then. -/
def Handler.judge (h : Handler σ) (result : Except RebindError α) (s : σ) : Except RebindError α × σ :=
  match result with
  | .error e => (.error (h.failed e s).1, (h.failed e s).2)
  | .ok a =>
    match h.done.on s with
    | (.ok (), s) => (.ok a, s)
    | (.error e, s) => (.error (h.failed e s).1, (h.failed e s).2)

/-- What a handler gives back of a value depends on nothing but the notifications. -/
theorem Handler.map_judge {β : Type} (h : Handler σ) (a : α) (s : σ) (f : α → β) :
    (h.judge (.ok a) s).1.map f = (h.judge (.ok (f a)) s).1 := by
  unfold judge
  rcases h.done.on s with ⟨e | _, u⟩ <;> rfl

/-- Whether something was done or told; log entries and the report of a failure are not counted. -/
def Event.isDoing : Event → Bool
  | .logged _ => false
  | .notified (.failed _) => false
  | _ => true

/-- That the handler is told of the end of the phases, unless they were stopped. -/
def Event.ofEnd (result : Except RebindError α) : List Event :=
  match result with
  | .ok _ => [.notified .done]
  | .error _ => []

theorem Plane.since_onTop (r p : Plane) : (r.onTop p.trace).since p = r.events := by
  refine Plane.since_of_events_eq ?_
  unfold events onTop
  rw [List.reverse_append]

namespace Manager

variable {m : Manager} {setup : Setup} {source : Source} {time time' : Nat} {h : Handler σ} {h' : Handler τ}
  {s : σ} {s' : τ} {mode : ManagementMode} {o : Outcome σ} {o' : Outcome τ}

/-- What the pass tells its handler, and the constructions and hook calls it makes, in order; the report of its failure,
which comes last, is left out. -/
def Outcome.doings (o : Outcome σ) (m : Manager) : List Event :=
  (o.manager.plane.since m.plane).filter Event.isDoing

/-- The passes show the same shells from outside and have done and told the same, and they leave behind the same objects,
registries, catalog and pre-managed shells: the same live manager but for its record. The phases have come to the same
and have told both handlers the same; what differs is what each of them makes of it. -/
structure Outcome.SameButVerdict (m : Manager) (h : Handler σ) (s : σ) (h' : Handler τ) (s' : τ) (o : Outcome σ)
    (o' : Outcome τ) : Prop where
  iteration : o'.iteration = o.iteration
  plane : o'.manager.plane.forgetTrace = o.manager.plane.forgetTrace
  hotPasses : o'.manager.hotPasses = o.manager.hotPasses
  doings : o'.doings m = o.doings m
  verdicts : ∃ result notes, (o.result, o.handler) = h.judge result (h.heard notes s) ∧
    (o'.result, o'.handler) = h'.judge result (h'.heard notes s')

/-- A pass before it begins. -/
def unopened (m : Manager) (s : σ) (mode : ManagementMode) : Pass σ :=
  { Iteration.new mode with started := true, plane := m.plane, handler := s }

/-- Passes that begin from live managers which differ in their record only. -/
theorem abreast_opening {m m' : Manager} (hm : m'.plane.forgetTrace = m.plane.forgetTrace) (h : Handler σ)
    (h' : Handler τ) (s : σ) (s' : τ) (mode : ManagementMode) : Pass.Abreast h h' (m.unopened s mode)
      (m'.unopened s' mode) (m.opening h s mode) (m'.opening h' s' mode) := by
  refine ⟨{ Iteration.new mode with started := true },
    m.plane.forgetTrace.record (.notified (.start mode.isReadOnly)), rfl, ?_⟩
  rw [← hm]
  rfl

/-- Where the phases end does not depend on what was on record before, nor on a handler that stops nothing. -/
theorem exists_replay {m m' : Manager} (hm : m'.plane.forgetTrace = m.plane.forgetTrace)
    (hhot : m'.hotPasses = m.hotPasses) (setup : Setup) (source : Source) (mode : ManagementMode) (s : σ) (s' : τ)
    (ha : h.Accepting) (ha' : h'.Accepting) : ∃ result i r,
      (Pass.phases (m.task setup source mode) h).on (m.opening h s mode) =
        (result, Pass.replay h (m.unopened s mode) i r) ∧
      (Pass.phases (m'.task setup source mode) h').on (m'.opening h' s' mode) =
        (result, Pass.replay h' (m'.unopened s' mode) i r) := by
  have htask : m'.task setup source mode = m.task setup source mode := by
    unfold task
    rw [hhot]
  have hagree := Pass.inStep_phases (t := m.task setup source mode) ha ha' _ _ (abreast_opening hm h h' s s' mode)
  rw [htask]
  unfold Step.Agree at hagree
  generalize (Pass.phases (m.task setup source mode) h).on (m.opening h s mode) = x at hagree ⊢
  generalize (Pass.phases (m.task setup source mode) h').on (m'.opening h' s' mode) = y at hagree ⊢
  cases hagree with
  | ok he hpq =>
    obtain ⟨i, r, rfl, rfl⟩ := hpq
    exact ⟨.ok _, i, r, rfl, by rw [he]⟩
  | error hpq =>
    obtain ⟨i, r, rfl, rfl⟩ := hpq
    exact ⟨.error _, i, r, rfl, rfl⟩

theorem runPass_new (m : Manager) (setup : Setup) (source : Source) (time : Nat) (h : Handler σ) (s : σ)
    (mode : ManagementMode) : m.runPass setup source time h (.new mode) s =
      match (Pass.verdict (m.task setup source mode) h).on (m.opening h s mode) with
      | (.ok applications, p) =>
        { result := .ok applications
          manager := { plane := p.plane, metrics := account m.metrics time none (Pass.report h none p.handler),
                       hotPasses := (m.task setup source mode).hotPasses }
          iteration := p.toIteration, handler := p.handler }
      | (.error e, p) =>
        let q := (Pass.raise h e (Pass.logFailure (m.task setup source mode) e p)).2
        { result := .error (h.failed e p.handler).1
          manager := { plane := q.plane, metrics := account m.metrics time (some e) (Pass.report h (some e) p.handler),
                       hotPasses := (m.task setup source mode).hotPasses }
          iteration := p.toIteration, handler := q.handler } :=
  m.runPass_eq setup source time h rfl s

/-- What a pass shows from outside and leaves behind when its phases have come to `result` and to the live manager `r`. -/
structure Outcome.Closes (m : Manager) (h : Handler σ) (s : σ) (o : Outcome σ)
    (result : Except RebindError (List Handle)) (i : Iteration) (r : Plane) : Prop where
  judged : (o.result, o.handler) = h.judge result (h.heard r.notes s)
  heard : o.handler = h.heard (o.notices m).reverse s
  notices : ∃ ending, o.notices m = r.notes.reverse ++ ending ∧ ∀ n ∈ ending, n = .done ∨ ∃ e, n = .failed e
  iteration : o.iteration = i
  plane : o.manager.plane.forgetTrace = r.forgetTrace
  doings : o.doings m = r.events.filter Event.isDoing ++ Event.ofEnd result

/-- It is enough to know what is put on record behind the phases. -/
theorem Outcome.Closes.of_closing {result : Except RebindError (List Handle)} {i : Iteration} {r : Plane}
    (closing : List Event) (hplane : o.manager.plane = { r with trace := closing ++ r.trace }.onTop m.plane.trace)
    (hjudged : (o.result, o.handler) = h.judge result (h.heard r.notes s)) (hiteration : o.iteration = i)
    (hheard : o.handler = h.heard (closing.filterMap Event.notification?) (h.heard r.notes s))
    (hending : ∀ n ∈ closing.filterMap Event.notification?, n = .done ∨ ∃ e, n = .failed e)
    (hclosing : closing.reverse.filter Event.isDoing = Event.ofEnd result) : Outcome.Closes m h s o result i r where
  judged := hjudged
  iteration := hiteration
  notices := by
    refine ⟨(closing.filterMap Event.notification?).reverse, ?_, fun n hn => hending n (List.mem_reverse.1 hn)⟩
    unfold Outcome.notices
    rw [hplane, Plane.since_onTop, Plane.events, List.filterMap_reverse, List.filterMap_append, List.reverse_append]
    rfl
  plane := by rw [hplane]; rfl
  heard := by
    unfold Outcome.notices
    rw [hheard, hplane, Plane.since_onTop, Plane.events, List.filterMap_reverse, List.reverse_reverse,
      List.filterMap_append]
    exact (h.heard_append _ _ _).symm
  doings := by
    unfold Outcome.doings
    rw [hplane, Plane.since_onTop, Plane.events, List.reverse_append, List.filter_append, hclosing]
    rfl

theorem closes_of_phases (ho : m.runPass setup source time h (.new mode) s = o)
    {result : Except RebindError (List Handle)} {i : Iteration} {r : Plane}
    (hp : (Pass.phases (m.task setup source mode) h).on (m.opening h s mode) =
      (result, Pass.replay h (m.unopened s mode) i r)) : o.Closes m h s result i r := by
  rw [runPass_new] at ho
  unfold Pass.verdict at ho
  rw [Step.on_bind, hp] at ho
  cases result with
  | error e =>
    exact ho ▸ .of_closing [.notified (.failed e), .logged _] rfl rfl rfl rfl
      (fun n hn => Or.inr ⟨e, List.mem_singleton.1 hn⟩) rfl
  | ok applications =>
    have hhandler : (Pass.replay h (m.unopened s mode) i r).handler = h.heard r.notes s := rfl
    have hdone : h.hear .done (h.heard r.notes s) = (h.done.on (h.heard r.notes s)).2 := rfl
    dsimp only at ho
    rw [Step.on_bind, Pass.on_tell, hhandler] at ho
    rcases hd : h.done.on (h.heard r.notes s) with ⟨e | _, u⟩ <;> rw [hd] at ho hdone
    · refine ho ▸ .of_closing [.notified (.failed e), .logged _, .notified .done] rfl ?_ rfl ?_
        (fun n hn => ?_) rfl
      · unfold Handler.judge
        dsimp only
        rw [hd]
        rfl
      · exact congrArg (h.hear (.failed e)) hdone.symm
      · rcases List.mem_cons.1 hn with rfl | hn
        · exact Or.inr ⟨e, rfl⟩
        · exact Or.inl (List.mem_singleton.1 hn)
    · refine ho ▸ .of_closing [.notified .done] rfl ?_ rfl hdone.symm
        (fun n hn => Or.inl (List.mem_singleton.1 hn)) rfl
      unfold Handler.judge
      dsimp only
      rw [hd]
      rfl

theorem hotPasses_runPass (ho : m.runPass setup source time h (.new mode) s = o) :
    o.manager.hotPasses = (m.task setup source mode).hotPasses := by
  rw [runPass_new] at ho
  subst ho
  split <;> rfl

/-- A handler that stops nothing holds in the end what it makes of the notifications, one after the other. -/
theorem handler_runPass (ho : m.runPass setup source time h (.new mode) s = o) (ha : h.Accepting) :
    o.handler = h.heard (o.notices m).reverse s := by
  obtain ⟨result, i, r, hp, -⟩ := exists_replay (m := m) rfl rfl setup source mode s s ha ha
  exact (closes_of_phases ho hp).heard

theorem sameButVerdict_runPass (ho : m.runPass setup source time h (.new mode) s = o)
    (ho' : m.runPass setup source time' h' (.new mode) s' = o') (ha : h.Accepting) (ha' : h'.Accepting) :
    Outcome.SameButVerdict m h s h' s' o o' := by
  obtain ⟨result, i, r, hp, hp'⟩ := exists_replay (m := m) rfl rfl setup source mode s s' ha ha'
  have hc := closes_of_phases ho hp
  have hc' := closes_of_phases ho' hp'
  exact {
    iteration := hc'.iteration.trans hc.iteration.symm
    plane := hc'.plane.trans hc.plane.symm
    hotPasses := (hotPasses_runPass ho').trans (hotPasses_runPass ho).symm
    doings := hc'.doings.trans hc.doings.symm
    verdicts := ⟨result, r.notes, hc.judged, hc'.judged⟩ }

theorem plane_announce (m : Manager) (mode : ManagementMode) : (m.announce mode).plane = m.plane := by
  unfold announce
  split <;> rfl

/-- The handler decides the verdict on a pass, and not the state that the pass leaves behind. Passes over the same store,
from the same live manager, with the same settings and in the same mode, but with different handlers that stop nothing
before the end, do and tell the same and leave the same state behind. So do, in particular, passes with default handlers
of whatever modes other than to fail fast. -/
theorem handlers_decide_the_verdict (m : Manager) (setup : Setup) (source : Source) (mode : ManagementMode) :
    (∀ {σ τ : Type} (h : Handler σ) (h' : Handler τ) (s : σ) (s' : τ) (time time' : Nat),
      h.Accepting → h'.Accepting → Outcome.SameButVerdict m h s h' s' (m.runPass setup source time h (.new mode) s)
        (m.runPass setup source time' h' (.new mode) s')) ∧
    ∀ (failure dangling failure' dangling' : FailureMode) (time time' : Nat),
      failure ≠ .failFast → dangling ≠ .failFast → failure' ≠ .failFast → dangling' ≠ .failFast →
        Outcome.SameButVerdict m (.byMode failure dangling) {} (.byMode failure' dangling') {}
          (m.rebind setup source time (.byMode failure dangling) {} mode).1
          (m.rebind setup source time' (.byMode failure' dangling') {} mode).1 := by
  refine ⟨fun h h' s s' time time' ha ha' => sameButVerdict_runPass rfl rfl ha ha', ?_⟩
  intro failure dangling failure' dangling' time time' hf hd hf' hd'
  have ho : (m.announce mode).runPass setup source time (.byMode failure dangling) (.new mode) {} = _ := rfl
  have ho' : (m.announce mode).runPass setup source time' (.byMode failure' dangling') (.new mode) {} = _ := rfl
  have hsame := sameButVerdict_runPass ho ho' (Handler.accepting_byMode hf hd) (Handler.accepting_byMode hf' hd')
  refine ⟨hsame.iteration, hsame.plane, hsame.hotPasses, ?_, hsame.verdicts⟩
  have hdoings := hsame.doings
  unfold Outcome.doings at hdoings ⊢
  rwa [plane_announce] at hdoings

/-! ## A strict and a lenient handler -/

/-- An application that lists a child which there is none of, beside an entity of an unknown type. -/
def contestedStore : MemoryStore := .holding [
  (.entity, { id := "app", type := "trellis.entity.BasicApplication", children := ["ghost"] }),
  (.entity, { id := "x", type := "w.E" })]

/-- A pass over this store with the default handler in the same mode for all problems. -/
def contestedPass (mode : FailureMode) : Outcome Ledger × Bool :=
  ({} : Manager).rebind .stock contestedStore.source 0 (.byMode mode mode) {} .master

set_option maxRecDepth 2000 in
theorem contestedPass_shows : (contestedPass .failAtEnd).1.result.isOk = false ∧
    (contestedPass .carryOn).1.result.isOk = true ∧ (contestedPass .failAtEnd).2 = false ∧
    (contestedPass .carryOn).2 = true ∧ (contestedPass .carryOn).1.handler.warnings ≠ [] ∧
    (contestedPass .failAtEnd).1.handler.warnings = [] := by
  decide +kernel

/-- One handler fails the pass and the other does not, and the state is the same. -/
theorem handlers_decide_the_verdict_contestedStore :
    (Handler.byMode .failAtEnd .failAtEnd).Accepting ∧ (Handler.refusing []).Accepting ∧
      (contestedPass .failAtEnd).1.result.isOk = false ∧ (contestedPass .carryOn).1.result.isOk = true ∧
      (contestedPass .failAtEnd).2 = false ∧ (contestedPass .carryOn).2 = true ∧
      Outcome.SameButVerdict {} (.byMode .failAtEnd .failAtEnd) {} (.byMode .carryOn .carryOn) {}
        (contestedPass .failAtEnd).1 (contestedPass .carryOn).1 ∧
      Outcome.SameButVerdict {} (.byMode .failAtEnd .failAtEnd) {} (.refusing []) ()
        (({} : Manager).runPass .stock contestedStore.source 0 (.byMode .failAtEnd .failAtEnd) (.new .master) {})
        (({} : Manager).runPass .stock contestedStore.source 0 (.refusing []) (.new .master) ()) := by
  have hstrict : (Handler.byMode .failAtEnd .failAtEnd).Accepting := Handler.accepting_byMode (by decide) (by decide)
  have hlenient : (Handler.refusing []).Accepting := Handler.accepting_refusing (by decide)
  obtain ⟨hfail, hok, hclosed, hopen, -, -⟩ := contestedPass_shows
  obtain ⟨hany, hmodes⟩ := handlers_decide_the_verdict {} .stock contestedStore.source .master
  exact ⟨hstrict, hlenient, hfail, hok, hclosed, hopen,
    hmodes .failAtEnd .failAtEnd .carryOn .carryOn 0 0 (by decide) (by decide) (by decide) (by decide),
    hany _ _ _ _ 0 0 hstrict hlenient⟩

end Manager

end ManagementPlane
