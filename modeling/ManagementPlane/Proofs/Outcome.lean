import ManagementPlane.Proofs.Building
import ManagementPlane.Proofs.Leniency
import ManagementPlane.Proofs.Settling
import ManagementPlane.Store.Any

/-!
# Passes that get through their last phase

* `Manager.ending`, `Manager.runPass_eq` : how a pass ends that has not been run before, and what it comes to;
* `Manager.Outcome.pass` : the pass as its outcome shows it;
* `Manager.Outcome.ReachedLastPhase` : the pass has entered its last phase;
* `Manager.Completed` : what the outcome of a pass owes to the pass as it was before the last phase;
* `Manager.Completes` : a pass gets through all its phases;
* `Manager.exists_completed_of_completes` : the outcome of such a pass owes just this, whatever the handler;
* `Manager.exists_completed` : and so does every outcome that shows the last phase, if the handler stops nothing.
-/

namespace ManagementPlane

variable {σ : Type}

/-- A choice of transitions that makes those objects read-only that the pass holds read-only. -/
def TransitionChoice.Faithful (choose : TransitionChoice) : Prop :=
  ∀ kind id last readOnly, (choose kind id last readOnly).isReadOnly = readOnly

theorem TransitionChoice.faithful_standard : TransitionChoice.standard.Faithful :=
  fun _ _ last readOnly => Transition.isReadOnly_standard last readOnly

namespace Pass

variable {t : Task} {h : Handler σ} {n : Nat} {p q r : Pass σ}

instance : Std.Refl (Echo (σ := σ)) := ⟨Echo.refl⟩

instance : IsTrans (Pass σ) Echo := ⟨fun _ _ _ => Echo.trans⟩

/-- Records that concern no hook may follow. -/
theorem Closing.echo {snapshot : Snapshot} (hq : Closing t n snapshot p q) (he : Echo q r) :
    Closing t n snapshot p r where
  iteration := he.1.trans hq.iteration
  size := by rw [he.2.heap, hq.size]
  closed := he.2.closed hq.closed
  readManaged k hk a ha := (he.2.read a).trans (hq.readManaged k hk a ha)
  readShell a hn ha := (he.2.read a).trans (hq.readShell a hn ha)
  readOld a hn := by rw [he.2.read]; exact hq.readOld a hn
  entered k hk a ha := by rw [he.2.registry, hq.entered k hk a ha]
  passed k hk a ha hna := by rw [he.2.registry, hq.passed k hk a ha hna]
  absent k hk id hid := by rw [he.2.registry, hq.absent k hk id hid]
  managedCalls k hk := (he.2.managedCalls k).trans (hq.managedCalls k hk)
  unmanagedCalls := he.2.unmanagedCalls.trans hq.unmanagedCalls

theorem echo_tell {ε : Type} (n : Notification) (answer : Step σ ε Unit) (p : Pass σ) :
    Step.Moves Echo (tell n answer) p := by
  unfold Step.Moves
  rw [on_tell]
  exact ⟨rfl, .record ⟨fun _ => rfl, rfl⟩ _⟩

theorem ends_finish (snapshot : Snapshot) (applications : List Handle) (p : Pass σ) :
    Step.Ends (fun _ q => Echo p q) (finish t snapshot applications) p := by
  refine .read_bind ?_
  split
  · exact Step.Ends.bind (.read_bind (ends_log _ _ p)) fun _ q hq =>
      (ends_logCourse _ q).imp fun _ _ hr => hq.trans hr
  · exact ends_logCourse _ p

/-- The last phase, what is said of it, and the handler's verdict. -/
def conclude (t : Task) (h : Handler σ) (snapshot : Snapshot) : PassStep σ (List Handle) := do
  let applications ← manageAll t h snapshot
  finish t snapshot applications
  tell .done h.done
  pure applications

/-- The whole pass: everything before the last phase, and how it is concluded. -/
theorem verdict_eq : verdict t h = build t h >>= conclude t h := by
  unfold verdict conclude
  rw [phases_eq]
  simp only [bind_assoc, pure_bind]

/-- What comes behind the last phase adds nothing but records and what the handler makes of them. -/
theorem echo_conclude {snapshot : Snapshot} {applications : List Handle}
    (hm : (manageAll t h snapshot).on p = (.ok applications, q)) {result : Except RebindError (List Handle)}
    (hr : (conclude t h snapshot).on p = (result, r)) : Echo q r := by
  have hmoves : Step.Moves Echo (do
      finish t snapshot applications
      tell .done h.done
      pure applications : PassStep σ (List Handle)) q :=
    (ends_finish _ _ q).moves.bind fun _ u _ => (echo_tell _ _ u).bind fun _ u _ => .pure _ u
  unfold conclude at hr
  rw [Step.on_bind, hm] at hr
  exact hmoves.to hr

end Pass

namespace Manager

open Pass (Echo Turns Building Closing)

variable {m : Manager} {setup : Setup} {source : Source} {time : Nat} {h : Handler σ} {s : σ}
  {mode : ManagementMode} {o : Outcome σ} {p : Pass σ}

/-- The pass as its outcome shows it. -/
def Outcome.pass (o : Outcome σ) : Pass σ :=
  { o.iteration with plane := o.manager.plane, handler := o.handler }

/-- The pass has entered its last phase. -/
def Outcome.ReachedLastPhase (o : Outcome σ) : Prop := o.iteration.phase = 8

instance (o : Outcome σ) : Decidable o.ReachedLastPhase := inferInstanceAs (Decidable (_ = _))

/-- What a pass is given. -/
def task (m : Manager) (setup : Setup) (source : Source) (mode : ManagementMode) : Task :=
  { setup with source, hotPasses := if mode.isHotProxy then m.hotPasses + 1 else m.hotPasses }

/-- A new pass that begins. -/
def opening (m : Manager) (h : Handler σ) (s : σ) (mode : ManagementMode) : Pass σ :=
  Pass.begin h { Iteration.new mode with started := true, plane := m.plane, handler := s }

/-- A pass that begins; it may have been made in any way. -/
def begun (m : Manager) (h : Handler σ) (iteration : Iteration) (s : σ) : Pass σ :=
  Pass.begin h { iteration with started := true, plane := m.plane, handler := s }

/-- How the phases end, and what the handler says when they are done. -/
def ending (m : Manager) (setup : Setup) (source : Source) (h : Handler σ) (iteration : Iteration) (s : σ) :
    Except RebindError (List Handle) × Pass σ :=
  (Pass.verdict (m.task setup source iteration.mode) h).on (m.begun h iteration s)

/-- What a pass comes to that has not been run before. -/
theorem runPass_eq (m : Manager) (setup : Setup) (source : Source) (time : Nat) (h : Handler σ) {iteration : Iteration}
    (hnew : iteration.started = false) (s : σ) :
    m.runPass setup source time h iteration s =
      match m.ending setup source h iteration s with
      | (.ok applications, p) =>
        { result := .ok applications
          manager := { plane := p.plane, metrics := account m.metrics time none (Pass.report h none p.handler),
                       hotPasses := (m.task setup source iteration.mode).hotPasses }
          iteration := p.toIteration, handler := p.handler }
      | (.error e, p) =>
        let q := (Pass.raise h e (Pass.logFailure (m.task setup source iteration.mode) e p)).2
        { result := .error (h.failed e p.handler).1
          manager := { plane := q.plane, metrics := account m.metrics time (some e) (Pass.report h (some e) p.handler),
                       hotPasses := (m.task setup source iteration.mode).hotPasses }
          iteration := p.toIteration, handler := q.handler } := by
  unfold runPass
  rw [if_neg (by rw [hnew]; exact Bool.false_ne_true)]
  rfl

/-- The outcome of a pass shows where it ended. A failure is logged, and the handler is told of it. -/
theorem exists_ending (ho : m.runPass setup source time h (.new mode) s = o) : ∃ result r,
    (Pass.verdict (m.task setup source mode) h).on (m.opening h s mode) = (result, r) ∧
      o.iteration = r.toIteration ∧ (o.result = result.mapError fun e => (h.failed e r.handler).1) ∧
      match result with
      | .ok _ => o.manager.plane = r.plane
      | .error e => ∃ entry, o.manager.plane = (r.plane.record (.logged entry)).record (.notified (.failed e)) := by
  rw [m.runPass_eq setup source time h rfl s] at ho
  split at ho
  case h_1 applications r hv => exact ho ▸ ⟨.ok applications, r, hv, rfl, rfl, rfl⟩
  case h_2 e r hv => exact ho ▸ ⟨.error e, r, hv, rfl, rfl, _, rfl⟩

/-- The outcome of a pass shows the live manager as the pass left it, but for what is said of a failure. -/
theorem exists_told (ho : m.runPass setup source time h (.new mode) s = o) : ∃ result r,
    (Pass.verdict (m.task setup source mode) h).on (m.opening h s mode) = (result, r) ∧
      r.plane.Told o.manager.plane ∧ o.iteration = r.toIteration ∧
      o.result = result.mapError fun e => (h.failed e r.handler).1 := by
  obtain ⟨result, r, hv, hiteration, hresult, hplane⟩ := exists_ending ho
  refine ⟨result, r, hv, ?_, hiteration, hresult⟩
  cases result with
  | ok => exact hplane ▸ .refl r.plane
  | error e =>
    obtain ⟨entry, hplane⟩ := hplane
    have hlog : r.plane.Told (r.plane.record (.logged entry)) := (Plane.Told.refl r.plane).record ⟨fun _ => rfl, rfl⟩
    exact hplane ▸ hlog.record ⟨fun _ => rfl, rfl⟩

/-- The outcome of a pass shows where it ended, but for what is said of a failure. -/
theorem exists_verdict (m : Manager) (setup : Setup) (source : Source) (time : Nat) (h : Handler σ) (s : σ)
    (mode : ManagementMode) : ∃ result r,
      (Pass.verdict (m.task setup source mode) h).on (m.opening h s mode) = (result, r) ∧
        Echo r (m.runPass setup source time h (.new mode) s).pass ∧
        (m.runPass setup source time h (.new mode) s).result =
          result.mapError fun e => (h.failed e r.handler).1 := by
  have ho : m.runPass setup source time h (.new mode) s = _ := rfl
  obtain ⟨result, r, hv, htold, hiteration, hresult⟩ := exists_told ho
  exact ⟨result, r, hv, ⟨hiteration, htold.echo⟩, hresult⟩

/-! ## Passes that complete -/

/-- What the outcome `o` of a pass owes to the pass `p` as it was before its last phase. -/
structure Completed (m : Manager) (setup : Setup) (source : Source) (h : Handler σ) (s : σ)
    (mode : ManagementMode) (o : Outcome σ) (p : Pass σ) : Prop where
  built : (Pass.build (m.task setup source mode) h).on (m.opening h s mode) = (.ok source.snapshot, p)
  turns : Turns (m.task setup source mode) (m.opening h s mode) p
  building : Building m.plane.heap.size (m.opening h s mode) p
  closed : m.plane.Closed
  closing : Closing (m.task setup source mode) m.plane.heap.size source.snapshot p o.pass

/-- The pass gets through all its phases. -/
def Completes (m : Manager) (setup : Setup) (source : Source) (h : Handler σ) (s : σ) (mode : ManagementMode) :
    Prop := ((Pass.phases (m.task setup source mode) h).on (m.opening h s mode)).1.isOk = true

instance (m : Manager) (setup : Setup) (source : Source) (h : Handler σ) (s : σ) (mode : ManagementMode) :
    Decidable (m.Completes setup source h s mode) := inferInstanceAs (Decidable (_ = _))

theorem sound_opening (m : Manager) (h : Handler σ) (s : σ) (mode : ManagementMode) :
    (m.opening h s mode).scratch.Sound m.plane.heap.size (m.opening h s mode).plane :=
  Scratch.Sound.empty (m.opening h s mode).plane mode.isReadOnly

theorem told_opening (m : Manager) (h : Handler σ) (s : σ) (mode : ManagementMode) :
    m.plane.Told (m.opening h s mode).plane := (Plane.Told.refl m.plane).record ⟨fun _ => rfl, rfl⟩

/-- What is under management before the last phase was there before the pass. -/
theorem closed_of_building (hclosed : m.plane.Closed)
    (hp : Building m.plane.heap.size (m.opening h s mode) p) :
    p.plane.Closed ∧ ∀ k id a, (p.plane.registry k).get? id = some a → a.index < m.plane.heap.size := by
  have hstart := (told_opening m h s mode).echo
  refine ⟨hp.extend.closed (hstart.closed hclosed), fun k id a hg => hclosed k id a ?_⟩
  rwa [hp.extend.registry, hstart.registry] at hg

theorem building_of_build {result : Except RebindError Snapshot}
    (hb : (Pass.build (m.task setup source mode) h).on (m.opening h s mode) = (result, p)) :
    Building m.plane.heap.size (m.opening h s mode) p :=
  Pass.building_of_turns (sound_opening m h s mode) ((Pass.turns_build _ h _).to hb)

/-- The outcome of a pass that gets through all its phases owes to the pass before its last phase what it does with a
handler that stops nothing. -/
theorem exists_completed_of_completes (ho : m.runPass setup source time h (.new mode) s = o)
    (hclosed : m.plane.Closed) (hall : m.Completes setup source h s mode) :
    ∃ p, Completed m setup source h s mode o p := by
  subst ho
  obtain ⟨result, r, hv, he, -⟩ := exists_verdict m setup source time h s mode
  unfold Completes at hall
  rcases hphases : (Pass.phases (m.task setup source mode) h).on (m.opening h s mode) with ⟨e | applications, v⟩
  · rw [hphases] at hall
    cases hall
  rw [Pass.phases_eq] at hphases
  obtain ⟨snapshot, p, hb, hphases⟩ := Step.on_bind_eq_ok_iff.1 hphases
  obtain ⟨applications, u, hm, -⟩ := Step.on_bind_eq_ok_iff.1 hphases
  obtain rfl : snapshot = source.snapshot := Pass.eq_snapshot_of_build _ h hb
  have hbuilding := building_of_build hb
  obtain ⟨hclosed', hold⟩ := closed_of_building hclosed hbuilding
  -- the lenient handler gets to the same end
  have hsame := Pass.follows_manageAll _ h source.snapshot p applications u hm
  obtain ⟨applications', u', hm', hclosing⟩ := Pass.ends_manageAll (t := m.task setup source mode)
    h.accepting_lenient hbuilding.sound hclosed' hold source.snapshot
  obtain rfl : u' = u := (Prod.mk.inj (hm'.symm.trans hsame)).2
  rw [Pass.verdict_eq, Step.on_bind, hb] at hv
  have hecho : Echo u' r := Pass.echo_conclude hm hv
  exact ⟨p, hb, (Pass.turns_build _ h _).to hb, hbuilding, hclosed, (hclosing.echo hecho).echo he⟩

/-- With a handler that stops nothing, a pass gets through its last phase once it has got there. -/
theorem completes_of_build (ha : h.Accepting) (hclosed : m.plane.Closed) {snapshot : Snapshot}
    (hb : (Pass.build (m.task setup source mode) h).on (m.opening h s mode) = (.ok snapshot, p)) :
    m.Completes setup source h s mode := by
  have hbuilding := building_of_build hb
  obtain ⟨hclosed', hold⟩ := closed_of_building hclosed hbuilding
  obtain ⟨applications, u, hm, -⟩ := Pass.ends_manageAll (t := m.task setup source mode) ha hbuilding.sound
    hclosed' hold snapshot
  obtain ⟨_, v, hf, -⟩ := Pass.ends_finish (t := m.task setup source mode) snapshot applications u
  have hphases : (Pass.phases (m.task setup source mode) h).on (m.opening h s mode) = (.ok applications, v) := by
    rw [Pass.phases_eq]
    refine Step.on_bind_eq_ok_iff.2 ⟨snapshot, p, hb, ?_⟩
    refine Step.on_bind_eq_ok_iff.2 ⟨applications, u, hm, ?_⟩
    exact Step.on_bind_eq_ok_iff.2 ⟨(), v, hf, rfl⟩
  unfold Completes
  rw [hphases]
  rfl

/-- With a handler that stops nothing, a pass gets through all its phases once it has entered the last one. -/
theorem completes_of_reachedLastPhase (ho : m.runPass setup source time h (.new mode) s = o) (ha : h.Accepting)
    (hclosed : m.plane.Closed) (hlast : o.ReachedLastPhase) : m.Completes setup source h s mode := by
  subst ho
  obtain ⟨result, r, hv, he, -⟩ := exists_verdict m setup source time h s mode
  have hr : r.phase = 8 := by
    rw [← hlast, ← he.1]
    rfl
  rw [Pass.verdict_eq, Step.on_bind] at hv
  rcases hb : (Pass.build (m.task setup source mode) h).on (m.opening h s mode) with ⟨e | snapshot, p⟩
  · -- a pass that is stopped before the last phase does not show it
    have hphase : p.phase < 8 := (building_of_build hb).phase_lt (Nat.zero_lt_succ 7)
    rw [hb] at hv
    obtain ⟨-, rfl⟩ := Prod.mk.inj hv
    exact absurd hr (Nat.ne_of_lt hphase)
  · exact completes_of_build ha hclosed hb

/-- With a handler that stops nothing, an outcome that shows the last phase is that of a pass that got through it. -/
theorem exists_completed (ho : m.runPass setup source time h (.new mode) s = o) (ha : h.Accepting)
    (hclosed : m.plane.Closed) (hlast : o.ReachedLastPhase) : ∃ p, Completed m setup source h s mode o p :=
  exists_completed_of_completes ho hclosed (completes_of_reachedLastPhase ho ha hclosed hlast)

/-! ## What is left of the pass before its last phase -/

namespace Completed

variable (hp : Completed m setup source h s mode o p)
include hp

theorem scratch : o.iteration.scratch = p.scratch := by
  show o.pass.scratch = _
  rw [hp.closing.iteration]

theorem reachedLastPhase : o.ReachedLastPhase := by
  show o.pass.phase = 8
  rw [hp.closing.iteration]

theorem sound : p.scratch.Sound m.plane.heap.size p.plane := hp.building.sound

/-- The last phase leaves the shells sound. -/
theorem sound_last : o.iteration.scratch.Sound m.plane.heap.size o.manager.plane := by
  rw [hp.scratch]
  exact hp.sound.carry hp.closing.size (fun a => (hp.closing.restamped a).kind_eq) hp.closing.sameShape.id

theorem allReadOnly : p.scratch.allReadOnly = mode.isReadOnly := hp.building.allReadOnly

/-- Nothing has entered or left management before the last phase. -/
theorem registry (k : ObjectKind) : p.plane.registry k = m.plane.registry k := by
  rw [hp.building.extend.registry]
  exact (told_opening m h s mode).registry k

theorem managedCalls (k : ObjectKind) : p.plane.managedCalls k = m.plane.managedCalls k := by
  rw [hp.building.extend.managedCalls]
  exact (told_opening m h s mode).managedCalls k

theorem unmanagedCalls : p.plane.unmanagedCalls = m.plane.unmanagedCalls := by
  rw [hp.building.extend.unmanagedCalls]
  exact (told_opening m h s mode).unmanagedCalls

/-- Objects that were there before are as they were. -/
theorem read_old {a : Handle} (ha : m.plane.heap.Valid a) : p.plane.read a = m.plane.read a :=
  hp.building.extend.read_old a ha

/-- The transition noted for a shell is chosen by the last one of its id before the pass, and by the mode. -/
theorem chosen_eq {k : ObjectKind} {id : String} (hid : p.scratch.contains k id = true) :
    Pass.chosen (m.task setup source mode) p k id =
      setup.transitions k id ((m.plane.registry k).lastTransition? id) mode.isReadOnly := by
  rw [Pass.chosen, hp.registry, hp.sound.isReadOnly, hid, Bool.and_true, hp.allReadOnly]
  rfl

/-- The shells were made by the pass. -/
theorem not_valid {k : ObjectKind} {id : String} {a : Handle} (ha : p.scratch.get? k id = some a) :
    ¬m.plane.heap.Valid a := Nat.not_lt_of_le (hp.sound.fresh ha)

/-- The transition that a managed shell is left with makes it read-only if the pass does, and if the shell has come up
once. -/
theorem isReadOnly_settledMode (hchoice : setup.transitions.Faithful) {k : ObjectKind} (hk : k.Registered)
    {a : Handle} (ha : a ∈ p.visits source.snapshot k) :
    (Pass.settledMode (m.task setup source mode) p k (p.visits source.snapshot k) a).isReadOnly =
      (decide ((p.visits source.snapshot k).count a = 1) && mode.isReadOnly) := by
  unfold Pass.settledMode
  split
  · next hone =>
    have hshell : p.scratch.contains k (p.plane.read a).id = true :=
      hp.sound.exists_shell_iff.2 ⟨a, Pass.shell_of_mem_visits hp.sound hk ha, rfl⟩
    rw [hp.chosen_eq hshell, hchoice, decide_eq_true hone, Bool.true_and]
  · next hone =>
    rw [decide_eq_false hone]
    rfl

/-- Where all shells of a kind are managed, its registry binds in the end just the ids of the shells to these. -/
theorem get?_registry {k : ObjectKind} (hk : k.Registered)
    (hall : ∀ a ∈ p.scratch.shells k, a ∈ p.visits source.snapshot k) (id : String) :
    (o.manager.plane.registry k).get? id = p.scratch.get? k id := by
  rcases hg : p.scratch.get? k id with _ | a
  · have hnone := hp.closing.absent k hk id hg
    exact congrArg (Option.map _) hnone
  · obtain rfl := hp.sound.id hg
    exact congrArg (Option.map _) (hp.closing.entered k hk a (hall a (hp.sound.mem_shells_iff.2 hg)))

end Completed

/-- A pass that gets through its last phase leaves the objects under management in the heap. -/
theorem closed_of_runPass {o : Outcome σ} (ho : m.runPass setup source time h (.new mode) s = o)
    (ha : h.Accepting) (hclosed : m.plane.Closed) (hlast : o.ReachedLastPhase) :
    o.manager.plane.Closed := by
  obtain ⟨p, hp⟩ := exists_completed ho ha hclosed hlast
  exact hp.closing.closed

theorem closed_empty : ({} : Plane).Closed := by
  intro k id a ha
  cases k <;> cases ha

end Manager

/-! ## Particular passes -/

/-- A node with the stock types and nothing else that is special. -/
def Setup.stock : Setup := { node := "node", types := .stock }

/-- A store in memory that holds mementos, each of its kind. -/
def MemoryStore.holding (mementos : List (ObjectKind × Memento)) : MemoryStore :=
  mementos.foldl (fun s e => s.seed e.1 e.2.id (Persistable.memento e.2).text) { name := "store" }

end ManagementPlane
