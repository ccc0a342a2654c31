import ManagementPlane.Proofs.Abort

/-!
# The catalog in the last phases

* `Plane.Continues.of_handling` : managing and dropping objects leave the catalog alone;
* `Pass.continues_of_lastTurn` : so does all that is done in the last phase;
* `Pass.catalog_attachAdjuncts`, `Pass.catalog_conclude` : and so do the last two phases;
* `Manager.catalog_of_build` : so a pass ends with the catalog that it has before the last one.
-/

namespace ManagementPlane

variable {σ : Type}

namespace Plane.Continues

variable {p q : Plane} {k : ObjectKind}

theorem setRegistry (r : Registry) : Continues p (p.setRegistry k r) :=
  ⟨by cases k <;> rfl, by rw [events_setRegistry]⟩

theorem manageWith (a : Handle) (t : Transition) : Continues p (p.manageWith k a t).2 :=
  ((Continues.modify p a _).trans (.setRegistry _)).trans ((Continues.record _ _).trans (.modify _ a _))

theorem unmanage (id : String) (t : Transition) : Continues p (p.unmanage k id t).2 :=
  unmanage_induction (.setRegistry _) fun a => (Continues.setRegistry _).trans ((Continues.record _ _).trans (.modify _ a _))

theorem of_handling (h : Handling p q) : Continues p q := by
  cases h with
  | manage k a => exact (Continues.setRegistry _).trans (.manageWith a _)
  | drop k id t => exact .unmanage id t

theorem of_handlings (h : Handlings p q) : Continues p q := by
  induction h with
  | refl => exact .refl p
  | tail _ h ih => exact ih.trans (.of_handling h)

end Plane.Continues

namespace Pass

variable {t : Task} {h : Handler σ} {p q : Pass σ} {k : ObjectKind}

/-! ## The last phases -/

theorem catalog_attachAdjuncts (snapshot : Snapshot) (p : Pass σ) :
    Step.Moves (fun p q => q.plane.catalog = p.plane.catalog) (attachAdjuncts t h snapshot) p := by
  have hcalm : Step.Moves Calm (logCourse t "associating adjuncts with entities" >>= fun _ =>
      Step.forEach (sortParentFirst snapshot.entities) (attachAllOf t h)) { p with phase := 7 } :=
    (calm_logCourse _ _).bind fun _ p _ => Step.Moves.forEach (fun m _ => calm_attachAllOf m) p
  exact hcalm.plane.catalog

theorem continues_of_lastTurn (hturn : LastTurn t p q) : p.plane.Continues q.plane := by
  cases hturn with
  | hear => exact .record _ _
  | note => exact .setRegistry _
  | handle hone => exact .of_handling hone
  | release => exact ⟨rfl, List.prefix_rfl⟩

theorem continues_of_lastTurns (hturns : LastTurns t p q) : p.plane.Continues q.plane := by
  induction hturns with
  | refl => exact .refl p.plane
  | tail _ hturn ih => exact ih.trans (continues_of_lastTurn hturn)

/-- The catalog is left alone from when the last phase begins. -/
theorem catalog_conclude (snapshot : Snapshot) (p : Pass σ) :
    Step.Moves (fun p q => q.plane.catalog = p.plane.catalog) (conclude t h snapshot) p := by
  refine (moves_conclude snapshot p).imp fun q hturns => ?_
  exact (continues_of_lastTurns hturns).catalog

end Pass

/-- A pass ends with the catalog that it has when the phases before the last are over, or when it is stopped in them. -/
theorem Manager.catalog_of_build {m : Manager} {setup : Setup} {source : Source} {h : Handler σ} {s : σ}
    {mode : ManagementMode} {result : Except RebindError Snapshot} {p : Pass σ}
    (hb : (Pass.build (m.task setup source mode) h).on (m.opening h s mode) = (result, p)) (time : Nat) :
    (m.runPass setup source time h (.new mode) s).manager.plane.catalog = p.plane.catalog := by
  obtain ⟨_, r, hv, htold, -⟩ := exists_told (rfl : m.runPass setup source time h (.new mode) s = _)
  rw [Pass.verdict_eq, Step.on_bind, hb] at hv
  cases result with
  | error e =>
    obtain ⟨-, rfl⟩ := Prod.mk.inj hv
    exact htold.catalog
  | ok snapshot => exact htold.catalog.trans ((Pass.catalog_conclude snapshot p).to hv)

end ManagementPlane
