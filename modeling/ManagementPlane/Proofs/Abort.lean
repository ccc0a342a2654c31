import ManagementPlane.Proofs.Recording

/-!
# Passes that are stopped before their last phase

* `Setup.DefaultFails` : the default catalog is called for and cannot be had;
* `Pass.Calm p q` : from `p` to `q` the phase, the catalog and what is known of the store are the same, and so it is with
  everything but entering a phase, looking at the manifest and replacing the catalog;
* `Pass.leads_rebuildCatalog` : a pass that is stopped while it rebuilds the catalog leaves it as it was;
* `Manager.graph_eq_of_aborted` : a pass that is stopped before its last phase leaves everything under management alone.
-/

namespace ManagementPlane

variable {σ : Type}

/-- The catalog is to be loaded from its default source, which cannot be read. -/
def Setup.DefaultFails (s : Setup) (storeIsEmpty : Bool) : Prop :=
  s.settings.features.enabled .catalogItem = true ∧
    s.settings.catalogLoadMode.loadsDefault storeIsEmpty = true ∧
    ∃ reason, CatalogSource.load s.defaultCatalog = .error reason

namespace Pass

variable {t : Task} {h : Handler σ} {p q r : Pass σ}

/-! ## What keeps the catalog -/

/-- From `p` to `q` the phase, the catalog and what is known of the store are the same. -/
structure Calm (p q : Pass σ) : Prop where
  phase : q.phase = p.phase
  isEmpty : q.isEmpty = p.isEmpty
  plane : p.plane.Continues q.plane

instance : Std.Refl (Calm (σ := σ)) := ⟨fun p => ⟨rfl, rfl, .refl p.plane⟩⟩

instance : IsTrans (Pass σ) Calm :=
  ⟨fun _ _ _ h₁ h₂ => ⟨h₂.phase.trans h₁.phase, h₂.isEmpty.trans h₁.isEmpty, h₁.plane.trans h₂.plane⟩⟩

theorem calm_tell {ε : Type} (n : Notification) (answer : Step σ ε Unit) (p : Pass σ) :
    Step.Moves Calm (tell n answer) p := by
  unfold Step.Moves
  rw [on_tell]
  exact ⟨rfl, rfl, .record _ _⟩

theorem calm_log (level : LogLevel) (message : Pass σ → String) (p : Pass σ) :
    Step.Moves Calm (log t level message) p := .of_update ⟨rfl, rfl, .record _ _⟩

theorem calm_logCourse (message : String) (p : Pass σ) : Step.Moves Calm (logCourse t message) p :=
  .read_bind (calm_log _ _ p)

theorem calm_rebindFailed (k : ObjectKind) (shell : Handle) (e : ObjectError) (p : Pass σ) :
    Step.Moves Calm (rebindFailed h k shell e) p := .read_bind (calm_tell _ _ p)

/-- A change of the live manager that keeps its catalog. -/
theorem calm_onPlane {α : Type} {f : Pass σ → α × Plane} (hf : ∀ p : Pass σ, p.plane.Continues (f p).2) (p : Pass σ) :
    Step.Moves Calm (onPlane f) p := .of_total ⟨rfl, rfl, hf p⟩

theorem calm_makeShell {k : ObjectKind} {id type : String}
    {make : Pass σ → Plane → Except ObjectError Handle × Plane}
    (hmake : ∀ p : Pass σ, p.plane.Continues (make p p.plane).2) (p : Pass σ) :
    Step.Moves Calm (makeShell h k id type make) p := by
  refine (calm_onPlane hmake p).bind fun made q _ => ?_
  cases made with
  | ok shell => exact .of_update ⟨rfl, rfl, .register _ _ _⟩
  | error e => exact calm_tell _ _ q

theorem calm_makeCatalogItem (item : CatalogItem) (p : Pass σ) :
    Step.Moves Calm (makeCatalogItem t h item) p :=
  calm_makeShell (fun p => Plane.continues_makeLoaded _ _ _ _ _ p.plane) p

theorem calm_makeLocation (e : String × String) (p : Pass σ) : Step.Moves Calm (makeLocation t h e) p :=
  calm_makeShell (fun p => Plane.continues_makeLoaded _ _ _ _ _ p.plane) p

theorem calm_makeEntity (m : Manifest) (e : EntitySummary) (p : Pass σ) :
    Step.Moves Calm (makeEntity t h m e) p :=
  calm_makeShell (fun p => Plane.continues_makeLoaded _ _ _ _ _ p.plane) p

theorem calm_makeAdjunct (k : ObjectKind) (m : Memento) (p : Pass σ) :
    Step.Moves Calm (makeAdjunct t h k m) p :=
  calm_makeShell (fun p => Plane.continues_makeLoaded _ _ _ _ _ p.plane) p

theorem calm_makeAdjunctsOf (snapshot : Snapshot) (k : ObjectKind) (p : Pass σ) :
    Step.Moves Calm (makeAdjunctsOf t h snapshot k) p := by
  unfold makeAdjunctsOf
  dsimp only
  split
  · exact calm_logCourse _ p
  · exact (calm_logCourse _ p).bind fun _ p _ => Step.Moves.forEach (fun m _ => calm_makeAdjunct k m) p

theorem calm_populateCatalogItem (item : CatalogItem) (p : Pass σ) :
    Step.Moves Calm (populateCatalogItem h item) p := by
  refine .read_bind ?_
  rcases p.scratch.get? .catalogItem item.id with _ | shell
  · exact calm_tell _ _ p
  · refine (calm_onPlane (fun p => .reconstructItem p.plane shell item) p).bind fun populated q _ => ?_
    cases populated with
    | ok => exact .pure _ q
    | error e => exact calm_rebindFailed _ _ _ q

theorem calm_reconstructOne (k : ObjectKind) (m : Memento) (p : Pass σ) :
    Step.Moves Calm (reconstructOne h k m) p := by
  refine .read_bind ?_
  rcases p.scratch.get? k m.id with _ | shell
  · exact calm_tell _ _ p
  · refine (calm_onPlane (fun p => .reconstruct p.plane _ _ shell m) p).bind fun populated q _ => ?_
    cases populated with
    | ok => exact .pure _ q
    | error e =>
      refine (calm_rebindFailed _ _ _ q).bind fun _ q _ => ?_
      split
      · exact .of_update ⟨rfl, rfl, .refl q.plane⟩
      · exact .pure _ q

theorem calm_reconstructAdjuncts (snapshot : Snapshot) (k : ObjectKind) (p : Pass σ) :
    Step.Moves Calm (reconstructAdjuncts t h snapshot k) p := by
  unfold reconstructAdjuncts
  split
  · exact (calm_logCourse _ p).bind fun _ p _ => Step.Moves.forEach (fun m _ => calm_reconstructOne k m) p
  · exact .pure _ p

theorem calm_attachOne (entity : Handle) (k : ObjectKind) (id : String) (p : Pass σ) :
    Step.Moves Calm (attachOne h entity k id) p := by
  refine .read_bind ?_
  rcases p.scratch.get? k id with _ | adjunct
  · exact (calm_tell _ _ p).mapStop _
  · refine (calm_onPlane (fun p => .addAdjunct p.plane entity k adjunct) p).bind fun attached q _ => ?_
    cases attached with
    | ok => exact .pure _ q
    | error e => exact calm_rebindFailed _ _ _ q

theorem calm_attachAllOf (m : Memento) (p : Pass σ) : Step.Moves Calm (attachAllOf t h m) p := by
  refine .read_bind ?_
  rcases p.scratch.get? .entity m.id with _ | entity
  · exact calm_tell _ _ p
  · refine Step.Moves.forEach (fun k _ p => ?_) p
    unfold attachKind
    split
    · exact Step.Moves.forEach (fun id _ => calm_attachOne entity k id) p
    · exact .pure _ p

/-! ## Behind the catalog -/

/-- From `p` to `q` the pass has got beyond the catalog, and what is known of the store is the same. -/
def Beyond (p q : Pass σ) : Prop := 2 < q.phase ∧ q.isEmpty = p.isEmpty

instance : IsTrans (Pass σ) Beyond := ⟨fun _ _ _ h₁ h₂ => ⟨h₂.1, h₂.2.trans h₁.2⟩⟩

/-- A later phase in which nothing of the catalog is changed. -/
theorem beyond_enter {α : Type} {n : Nat} (hn : 2 < n) {f : Unit → PassStep σ α} {p : Pass σ}
    (hf : Step.Moves Calm (f ()) { p with phase := n }) : Step.Moves Beyond (enter n >>= f) p :=
  ⟨Nat.lt_of_lt_of_eq hn hf.phase.symm, hf.isEmpty⟩

theorem beyond_makeLocationsAndEntities (m : Manifest) (p : Pass σ) :
    Step.Moves Beyond (makeLocationsAndEntities t h m) p := by
  refine beyond_enter (by decide) ((calm_logCourse _ _).bind fun _ p _ => ?_)
  refine (Step.Moves.forEach (fun e _ => calm_makeLocation e) p).bind fun _ p _ => ?_
  refine (calm_logCourse _ p).bind fun _ p _ => ?_
  exact Step.Moves.forEach (fun e _ => calm_makeEntity m e) p

theorem beyond_loadSnapshot (raw : RawData) (p : Pass σ) : Step.Moves Beyond (loadSnapshot h raw) p := by
  refine beyond_enter (by decide) (.read_bind ?_)
  exact (Snapshot.moves_decode (fun _ _ _ p => calm_tell _ _ p) (fun _ _ p => calm_tell _ _ p)
    raw _ _).mapStop _

theorem beyond_makeAdjuncts (snapshot : Snapshot) (p : Pass σ) :
    Step.Moves Beyond (makeAdjuncts t h snapshot) p :=
  beyond_enter (by decide) (Step.Moves.forEach (fun k _ => calm_makeAdjunctsOf snapshot k) _)

theorem beyond_reconstructAll (snapshot : Snapshot) (p : Pass σ) :
    Step.Moves Beyond (reconstructAll t h snapshot) p := by
  refine beyond_enter (by decide) ((calm_logCourse _ _).bind fun _ p _ => ?_)
  refine (Step.Moves.forEach (fun m _ => calm_reconstructOne _ m) p).bind fun _ p _ => ?_
  refine (Step.Moves.forEach (fun k _ => calm_reconstructAdjuncts snapshot k) p).bind fun _ p _ => ?_
  refine (calm_logCourse _ p).bind fun _ p _ => ?_
  exact Step.Moves.forEach (fun m _ => calm_reconstructOne _ m) p

theorem beyond_attachAdjuncts (snapshot : Snapshot) (p : Pass σ) :
    Step.Moves Beyond (attachAdjuncts t h snapshot) p := by
  refine beyond_enter (by decide) ((calm_logCourse _ _).bind fun _ p _ => ?_)
  exact Step.Moves.forEach (fun m _ => calm_attachAllOf m) p

/-- All phases from the third to the seventh. -/
theorem beyond_shells (raw : RawData) (m : Manifest) (p : Pass σ) :
    Step.Moves Beyond (do
      makeLocationsAndEntities t h m
      let snapshot ← loadSnapshot h raw
      makeAdjuncts t h snapshot
      reconstructAll t h snapshot
      attachAdjuncts t h snapshot
      pure snapshot) p := by
  refine (beyond_makeLocationsAndEntities m p).bind fun _ p _ => ?_
  refine (beyond_loadSnapshot raw p).bind fun snapshot p _ => ?_
  refine (beyond_makeAdjuncts snapshot p).bind fun _ p _ => ?_
  refine (beyond_reconstructAll snapshot p).bind fun _ p _ => ?_
  exact (beyond_attachAdjuncts snapshot p).bind_pure

/-! ## The catalog -/

/-- Something calm, followed by what settles the matter. -/
theorem leads_bind_of_calm {ε α β : Type} {Q : Except ε β → Pass σ → Prop} {x : Step (Pass σ) ε α}
    {f : α → Step (Pass σ) ε β} (hq : Calm p q) (hx : Step.Moves Calm x q)
    (hstop : ∀ e r, Calm p r → Q (.error e) r) (hf : ∀ a r, Calm p r → Step.Leads Q (f a) r) :
    Step.Leads Q (x >>= f) q :=
  Step.Leads.bind hx (fun e r hr => hstop e r (IsTrans.trans _ _ _ hq hr))
    fun a r _ hr => hf a r (IsTrans.trans _ _ _ hq hr)

/-- Reading the manifest. -/
theorem leads_loadManifest (p : Pass σ) :
    Step.Leads (fun _ q => q.phase = 1 ∧ q.plane.catalog = p.plane.catalog) (loadManifest t h) p := by
  have hstop : ∀ (e : RebindError) (r : Pass σ), Calm { p with phase := 1 } r →
      r.phase = 1 ∧ r.plane.catalog = p.plane.catalog := fun _ _ hr => ⟨hr.phase, hr.plane.catalog⟩
  have hl : ∀ kind message e (p : Pass σ), Step.Moves Calm ((listener h).loadFailed kind message e) p :=
    fun _ _ _ p => calm_tell _ _ p
  refine .update_bind ?_
  refine leads_bind_of_calm (Std.Refl.refl (r := Calm) _) (calm_logCourse _ _) hstop fun _ q hq => ?_
  refine leads_bind_of_calm hq ((Source.moves_load hl _ q).mapStop _) hstop fun raw q hq => ?_
  refine leads_bind_of_calm hq ((Manifest.moves_decode hl _ q).mapStop _) hstop fun m q hq => ?_
  exact .update_bind ⟨hq.phase, hq.plane.catalog⟩

/-- What becomes of the catalog: a pass that is stopped leaves it as it was, and one that goes on has not asked in vain
for the default catalog. -/
structure Rebuilt (t : Task) (p : Pass σ) (result : Except RebindError Unit) (q : Pass σ) : Prop where
  phase : q.phase = 2
  isEmpty : q.isEmpty = p.isEmpty
  stopped : ∀ e, result = .error e → q.plane.catalog = p.plane.catalog
  found : result = .ok () → ¬t.DefaultFails p.isEmpty

theorem Rebuilt.of_calm {e : RebindError} (hq : Calm { p with phase := 2 } q) : Rebuilt t p (.error e) q :=
  ⟨hq.phase, hq.isEmpty, fun _ _ => hq.plane.catalog, nofun⟩

theorem Rebuilt.of_found (hphase : q.phase = 2) (hempty : q.isEmpty = p.isEmpty)
    (hfound : ¬t.DefaultFails p.isEmpty) : Rebuilt t p (.ok ()) q := ⟨hphase, hempty, nofun, fun _ => hfound⟩

theorem leads_loadDefaultCatalog (hq : Calm { p with phase := 2 } q) :
    Step.Leads (Rebuilt t p) (loadDefaultCatalog t) q := by
  unfold loadDefaultCatalog
  split
  · exact .of_calm hq
  · next items hload =>
    refine .of_found hq.phase hq.isEmpty fun ⟨_, _, reason, hreason⟩ => ?_
    rw [hload] at hreason
    cases hreason

/-- Rebuilding the catalog. -/
theorem leads_rebuildCatalog (m : Manifest) (p : Pass σ) :
    Step.Leads (Rebuilt t p) (rebuildCatalog t h m) p := by
  have hstart : Calm { p with phase := 2 } { p with phase := 2 } := Std.Refl.refl (r := Calm) _
  have hstop : ∀ (e : RebindError) (r : Pass σ), Calm { p with phase := 2 } r → Rebuilt t p (.error e) r :=
    fun _ _ hr => .of_calm hr
  refine .update_bind ?_
  split
  · next hoff =>
    have hcalm := calm_logCourse (t := t)
      ("not rebinding catalog; feature disabled: " ++ listed m.catalogItemIds) { p with phase := 2 }
    refine .of_found hcalm.phase hcalm.isEmpty fun hfails => ?_
    rw [hfails.1] at hoff
    cases hoff
  · refine leads_bind_of_calm hstart (calm_logCourse _ _) hstop fun _ q hq => ?_
    refine leads_bind_of_calm hq (Step.Moves.forEach (fun i _ => calm_makeCatalogItem i) q) hstop
      fun _ q hq => ?_
    refine leads_bind_of_calm hq (calm_logCourse _ q) hstop fun _ q hq => ?_
    refine leads_bind_of_calm hq (Step.Moves.forEach (fun i _ => calm_populateCatalogItem i) q) hstop
      fun _ q hq => ?_
    have hempty : q.isEmpty = p.isEmpty := hq.isEmpty
    refine .read_bind ?_
    split
    · next hreset =>
      refine leads_bind_of_calm hq (calm_logCourse _ q) hstop fun _ q hq => ?_
      refine .of_found hq.phase hq.isEmpty fun hfails => ?_
      have hloads := hfails.2.1
      rw [CatalogLoadMode.loadsDefault_eq_not, ← hempty, hreset] at hloads
      cases hloads
    · exact leads_bind_of_calm hq (calm_logCourse _ q) hstop fun _ q hq => leads_loadDefaultCatalog hq

/-- A pass that ends before its last phase without having got beyond the catalog leaves it as it was, and one that gets
beyond has not asked in vain for the default catalog. -/
theorem catalog_build {result : Except RebindError Snapshot} (hb : (build t h).on p = (result, q)) :
    (q.phase ≤ 2 → q.plane.catalog = p.plane.catalog) ∧ (t.DefaultFails q.isEmpty → q.phase ≤ 2) := by
  unfold build at hb
  rw [Step.on_bind] at hb
  have hfirst := leads_loadManifest (t := t) (h := h) p
  unfold Step.Leads at hfirst
  rcases hl : (loadManifest t h).on p with ⟨e | ⟨raw, m⟩, u⟩ <;> rw [hl] at hb hfirst
  · obtain ⟨-, rfl⟩ := Prod.mk.inj hb
    exact ⟨fun _ => hfirst.2, fun _ => hfirst.1.le.trans (by decide)⟩
  dsimp only at hb
  rw [Step.on_bind] at hb
  have hsecond := leads_rebuildCatalog (t := t) (h := h) m u
  unfold Step.Leads at hsecond
  rcases hc : (rebuildCatalog t h m).on u with ⟨e | _, v⟩ <;> rw [hc] at hb hsecond
  · obtain ⟨-, rfl⟩ := Prod.mk.inj hb
    exact ⟨fun _ => (hsecond.stopped e rfl).trans hfirst.2, fun _ => hsecond.phase.le⟩
  · have hrest : Beyond v q := (beyond_shells raw m v).to hb
    refine ⟨fun hq => absurd hrest.1 (Nat.not_lt_of_le hq), fun hfails => ?_⟩
    rw [hrest.2, hsecond.isEmpty] at hfails
    exact absurd hfails (hsecond.found rfl)

end Pass

namespace Manager

variable {m : Manager} {setup : Setup} {source : Source} {time : Nat} {h : Handler σ} {s : σ}
  {mode : ManagementMode} {o : Outcome σ}

/-- A pass that ends before its last phase was stopped there. What it did until then was to make objects of its own and
to change these. -/
theorem exists_stopped (ho : m.runPass setup source time h (.new mode) s = o) (habort : o.iteration.phase < 8) :
    ∃ e r, (Pass.build (m.task setup source mode) h).on (m.opening h s mode) = (.error e, r) ∧
      r.plane.Told o.manager.plane ∧ o.iteration = r.toIteration ∧ o.result = .error (h.failed e r.handler).1 ∧
      Pass.Building m.plane.heap.size (m.opening h s mode) r := by
  obtain ⟨result, r, hv, htold, hiteration, hresult⟩ := exists_told ho
  rcases hb : (Pass.build (m.task setup source mode) h).on (m.opening h s mode) with ⟨e | snapshot, q⟩
  · rw [Pass.verdict_eq, Step.on_bind, hb] at hv
    obtain ⟨rfl, rfl⟩ := Prod.mk.inj hv
    exact ⟨e, q, rfl, htold, hiteration, hresult, building_of_build hb⟩
  · rw [(accounted_of_built ho hb).1] at habort
    exact absurd habort (Nat.lt_irrefl 8)

/-- A pass that is stopped before its last phase returns an error. Both registries are as they were, with the transitions
noted in them, and so is every object that was there before; no object has come under management or left it. The catalog
is as it was if the pass was stopped before it got beyond it, and that it was if the default catalog could not be had. -/
theorem graph_eq_of_aborted (ho : m.runPass setup source time h (.new mode) s = o)
    (habort : o.iteration.phase < 8) :
    (∃ e, o.result = .error e) ∧
      (∀ k, o.manager.plane.registry k = m.plane.registry k) ∧
      (∀ a, m.plane.heap.Valid a → o.manager.plane.read a = m.plane.read a) ∧
      (∀ k, o.manager.plane.managedCalls k = m.plane.managedCalls k) ∧
      o.manager.plane.unmanagedCalls = m.plane.unmanagedCalls ∧
      (o.iteration.phase ≤ 2 → o.manager.plane.catalog = m.plane.catalog) ∧
      (setup.DefaultFails o.iteration.isEmpty → o.iteration.phase ≤ 2) := by
  obtain ⟨e, r, hb, htold, hiteration, hresult, hbuilding⟩ := exists_stopped ho habort
  have hopening := told_opening m h s mode
  have hextend := hbuilding.extend
  have hcatalog := Pass.catalog_build hb
  rw [hiteration]
  refine ⟨⟨_, hresult⟩, fun k => ?_, fun a ha => ?_, fun k => ?_, ?_, fun hphase => ?_, hcatalog.2⟩
  · rw [htold.registry, hextend.registry, hopening.registry]
  · rw [htold.read, hextend.read_old a ha, hopening.read]
  · rw [htold.managedCalls, hextend.managedCalls, hopening.managedCalls]
  · rw [htold.unmanagedCalls, hextend.unmanagedCalls, hopening.unmanagedCalls]
  · rw [htold.catalog, hcatalog.1 hphase, hopening.catalog]

/-! ## A refusal late in a pass -/

/-- An application that refers to a policy, which the store does not hold. -/
def unpoliced : MemoryStore := .holding [
  (.entity, { id := "app", type := "trellis.entity.BasicApplication", policies := ["absent"] })]

/-- A pass of a master that lets the missing policy pass. -/
def lenientPass : Outcome Unit :=
  ({} : Manager).runPass .stock unpoliced.source 0 (.refusing []) (.new .master) ()

/-- A later pass over the same store, whose handler does not. -/
def refusedPass : Outcome Unit :=
  lenientPass.manager.runPass .stock unpoliced.source 0 (.refusing ["dangling"]) (.new .hotStandby) ()

set_option maxRecDepth 2000 in
theorem refusedPass_shows : refusedPass.iteration.phase = 7 ∧
    (refusedPass.manager.plane.registry .entity).ids = ["app"] := by
  decide +kernel

theorem graph_eq_of_aborted_refusedPass :
    refusedPass.iteration.phase < 8 ∧ (refusedPass.manager.plane.registry .entity).ids = ["app"] ∧
      (∃ e, refusedPass.result = .error e) ∧
      (∀ k, refusedPass.manager.plane.registry k = lenientPass.manager.plane.registry k) ∧
      (∀ a, lenientPass.manager.plane.heap.Valid a →
        refusedPass.manager.plane.read a = lenientPass.manager.plane.read a) ∧
      (∀ k, refusedPass.manager.plane.managedCalls k = lenientPass.manager.plane.managedCalls k) ∧
      refusedPass.manager.plane.unmanagedCalls = lenientPass.manager.plane.unmanagedCalls ∧
      (refusedPass.iteration.phase ≤ 2 →
        refusedPass.manager.plane.catalog = lenientPass.manager.plane.catalog) ∧
      (Setup.stock.DefaultFails refusedPass.iteration.isEmpty → refusedPass.iteration.phase ≤ 2) := by
  obtain ⟨hphase, hids⟩ := refusedPass_shows
  have habort : refusedPass.iteration.phase < 8 := by
    rw [hphase]
    decide
  exact ⟨habort, hids, graph_eq_of_aborted (o := refusedPass) rfl habort⟩

end Manager

end ManagementPlane
