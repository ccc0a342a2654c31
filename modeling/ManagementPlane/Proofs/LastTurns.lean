import ManagementPlane.Proofs.Outcome

/-!
# What a pass can do in its last phase

* `Pass.LastTurn t p q` : one change that the last phase makes to a pass, and what follows it: a notification, a transition
  that is noted, an object that is managed or dropped, the release of what was noted;
* `Pass.moves_conclude` : from the beginning of the last phase on a pass gets from pass to pass by such changes only,
  wherever it ends.

An invariant of the last phase has only to be kept by each `LastTurn`.
-/

namespace ManagementPlane

variable {σ : Type}

namespace Pass

/-- One change that the last phase makes to a pass, once it has been entered. -/
inductive LastTurn (t : Task) : Pass σ → Pass σ → Prop
  | hear (p) {e : Event} (he : e.Quiet) (s : σ) : LastTurn t p { p.record e with handler := s }
  | note (p) (k : ObjectKind) (shell : Handle) : LastTurn t p (noteTransition t k shell p)
  | handle (p) {plane : Plane} (h : Plane.Handling p.plane plane) : LastTurn t p { p with plane }
  | release (p) : LastTurn t p { p with plane := release p.plane }

/-- Any number of changes. -/
abbrev LastTurns (t : Task) : Pass σ → Pass σ → Prop := Relation.ReflTransGen (LastTurn t)

instance (t : Task) : Std.Refl (LastTurns (σ := σ) t) := ⟨fun _ => .refl⟩

instance (t : Task) : IsTrans (Pass σ) (LastTurns t) := ⟨fun _ _ _ => Relation.ReflTransGen.trans⟩

variable {t : Task} {h : Handler σ} {p : Pass σ}

theorem lastTurns_of_handlings {plane : Plane} (hp : Plane.Handlings p.plane plane) :
    LastTurns t p { p with plane } := by
  induction hp with
  | refl => exact .refl
  | tail _ hone ih => exact ih.tail (.handle _ hone)

/-! ## Notes and notifications -/

theorem lastMoves_tell {ε : Type} (n : Notification) (answer : Step σ ε Unit) (p : Pass σ) :
    Step.Moves (LastTurns t) (tell n answer) p := by
  unfold Step.Moves
  rw [on_tell]
  exact .single (.hear p ⟨fun _ => rfl, rfl⟩ _)

theorem lastMoves_log (level : LogLevel) (message : Pass σ → String) (p : Pass σ) :
    Step.Moves (LastTurns t) (log t level message) p := .of_update (.single (.hear p ⟨fun _ => rfl, rfl⟩ p.handler))

theorem lastMoves_logCourse (message : String) (p : Pass σ) : Step.Moves (LastTurns t) (logCourse t message) p :=
  .read_bind (lastMoves_log _ _ p)

theorem lastMoves_noteTransitions (k : ObjectKind) (p : Pass σ) :
    Step.Moves (LastTurns t) (noteTransitions t k) p :=
  .of_total (List.foldlRecOn (p.scratch.shells k) _ .refl fun q hq s _ => hq.tail (.note q k s))

/-! ## Managing and dropping -/

theorem lastMoves_manageRoot (k : ObjectKind) (children : OrderedMap String (List Handle)) (root : Handle)
    (p : Pass σ) : Step.Moves (LastTurns t) (manageRoot h k children root) p := by
  have htree : Step.Moves (LastTurns t) (onPlane fun p => p.plane.manageTree k children root) p :=
    .of_total (lastTurns_of_handlings (p.plane.handlings_manageTree k children root))
  refine htree.bind fun result q _ => ?_
  cases result with
  | ok count => exact .pure _ q
  | error e => exact Step.Moves.bind (.read_bind (lastMoves_tell _ _ q)) fun _ q _ => .pure _ q

theorem lastMoves_manageRoots (k : ObjectKind) (children : OrderedMap String (List Handle)) (roots : List Handle)
    (p : Pass σ) : Step.Moves (LastTurns t) (manageRoots h k children roots) p :=
  Step.Moves.forEach (fun root _ p => (lastMoves_manageRoot k children root p).bind fun _ q _ => .pure _ q) p

theorem lastMoves_manageApplications (children : OrderedMap String (List Handle)) (ids : List String)
    (p : Pass σ) : Step.Moves (LastTurns t) (manageApplications h children ids) p := by
  induction ids generalizing p with
  | nil => exact .pure _ p
  | cons id ids ih =>
    refine .read_bind ?_
    rcases p.scratch.get? .entity id with _ | entity
    · exact (lastMoves_tell _ _ p).bind fun _ q _ => ih q
    · exact (lastMoves_manageRoot _ _ _ p).bind fun _ q _ => (ih q).bind fun _ q _ => .pure _ q

theorem lastMoves_destroyUnused (k : ObjectKind) (ids : List String) (p : Pass σ) :
    Step.Moves (LastTurns t) (destroyUnused t k ids) p := by
  unfold destroyUnused
  split
  · refine .read_bind ((lastMoves_log _ _ p).bind fun _ q _ => .of_update ?_)
    exact lastTurns_of_handlings (Plane.handlings_dropAll k ids q.plane)
  · exact .pure _ p

theorem lastMoves_manageLocations (p : Pass σ) : Step.Moves (LastTurns t) (manageLocations t h) p := by
  refine (lastMoves_logCourse _ p).bind fun _ p _ => ?_
  refine (lastMoves_noteTransitions _ p).bind fun old p _ => .read_bind (.read_bind ?_)
  exact (lastMoves_manageRoots _ _ _ p).bind fun _ p _ => lastMoves_destroyUnused _ _ p

theorem lastMoves_manageEntities (snapshot : Snapshot) (p : Pass σ) :
    Step.Moves (LastTurns t) (manageEntities t h snapshot) p := by
  refine (lastMoves_logCourse _ p).bind fun _ p _ => ?_
  refine (lastMoves_noteTransitions _ p).bind fun old p _ => .read_bind (.read_bind ?_)
  refine (lastMoves_manageApplications _ _ p).bind fun applications p _ => ?_
  refine (lastMoves_manageRoots _ _ _ p).bind fun _ p _ => ?_
  exact (lastMoves_destroyUnused _ _ p).bind fun _ p _ => .pure _ p

/-! ## The phase and what follows it -/

theorem lastMoves_finish (snapshot : Snapshot) (applications : List Handle) (p : Pass σ) :
    Step.Moves (LastTurns t) (finish t snapshot applications) p := by
  refine .read_bind ?_
  split
  · exact Step.Moves.bind (.read_bind (lastMoves_log _ _ p)) fun _ q _ => lastMoves_logCourse _ q
  · exact lastMoves_logCourse _ p

/-- Wherever a pass ends that has entered its last phase, it got there by such changes. -/
theorem moves_conclude (snapshot : Snapshot) (p : Pass σ) :
    Step.Moves (fun p q => LastTurns t { p with phase := 8 } q) (conclude t h snapshot) p := by
  have henter : ∀ x : PassStep σ (List Handle), Step.Moves (LastTurns t) x { p with phase := 8 } →
      Step.Moves (fun p q => LastTurns t { p with phase := 8 } q)
        (Step.update (fun p => { p with phase := 8 }) >>= fun _ => x) p := fun _ hx => hx
  unfold conclude manageAll enter
  rw [bind_assoc]
  refine henter _ (Step.Moves.bind ?_ fun applications p _ => ?_)
  · refine (lastMoves_manageLocations _).bind fun _ p _ => (lastMoves_manageEntities _ p).bind fun _ p _ => ?_
    exact Step.Moves.bind (.of_update (.single (.release p))) fun _ p _ => .pure _ p
  · refine (lastMoves_finish _ _ p).bind fun _ p _ => ?_
    exact (lastMoves_tell _ _ p).bind fun _ p _ => .pure _ p

end Pass

end ManagementPlane
