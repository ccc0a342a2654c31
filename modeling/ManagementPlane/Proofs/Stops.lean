import ManagementPlane.Handler.Ledger
import ManagementPlane.Pass.Run
import ManagementPlane.Proofs.Turns

/-!
# What stops a pass

The phases stop a pass for something in the store, for an object or for the default catalog. That a pass is out of
sequence, or has failed as a whole, is nothing that they find out.

* `RebindError.IsCause` : the errors that phases may stop with;
* `Step.StopsWith` : the errors that a step stops with, wherever it begins;
* `Handler.StopsForCause` : a handler stops a pass over an object for causes only;
* `Pass.Proper x` : so does the step `x`, and it leaves the pass begun;
* `Pass.proper_loadManifest`, … , `Pass.proper_phases` : so do the phases, all of them.
-/

namespace ManagementPlane

variable {σ ε α β : Type}

/-- The error is about the store, an object or the default catalog. -/
def RebindError.IsCause : RebindError → Prop
  | store _ | object .. | defaultCatalog _ => True
  | _ => False

/-- Wherever the step begins, it stops with such errors only. -/
def Step.StopsWith (P : ε → Prop) (x : Step σ ε α) : Prop := ∀ s e t, x.on s = (.error e, t) → P e

theorem Step.GoesOn.stopsWith {P : ε → Prop} {x : Step σ ε α} (hx : x.GoesOn) : x.StopsWith P := by
  intro s e t h
  obtain ⟨a, u, hx⟩ := hx s
  rw [hx] at h
  cases h

/-- What the handler stops a pass with when it is told of a problem with an object. -/
structure Handler.StopsForCause (h : Handler σ) : Prop where
  createFailed : ∀ kind id type e, (h.createFailed kind id type e).StopsWith RebindError.IsCause
  notFound : ∀ kind id, (h.notFound kind id).StopsWith RebindError.IsCause
  rebindFailed : ∀ kind id e, (h.rebindFailed kind id e).StopsWith RebindError.IsCause
  manageFailed : ∀ kind id e, (h.manageFailed kind id e).StopsWith RebindError.IsCause

namespace Pass

/-- Neither pass has begun, or both have. -/
def SameBegin (p q : Pass σ) : Prop := q.started = p.started

instance : Std.Refl (SameBegin (σ := σ)) := ⟨fun _ => rfl⟩

instance : IsTrans (Pass σ) SameBegin := ⟨fun _ _ _ hpq hqr => hqr.trans hpq⟩

/-- From any pass, the step leaves it begun as it is, and stops for causes only. -/
structure Proper (x : PassStep σ α) : Prop where
  sameBegin : ∀ p, Step.Moves SameBegin x p
  stops : x.StopsWith RebindError.IsCause

namespace Proper

theorem pure (a : α) : Proper (Pure.pure a : PassStep σ α) := ⟨fun p => .pure a p, (Step.GoesOn.pure a).stopsWith⟩

theorem stop {e : RebindError} (he : e.IsCause) : Proper (Step.stop e : PassStep σ α) where
  sameBegin p := .stop e p
  stops p e' q hq := by
    cases hq
    exact he

theorem read (g : Pass σ → α) : Proper (Step.read g : PassStep σ α) :=
  ⟨fun _ => rfl, (Step.GoesOn.read g).stopsWith⟩

theorem update {f : Pass σ → Pass σ} (hf : ∀ p, SameBegin p (f p)) : Proper (Step.update f : PassStep σ Unit) :=
  ⟨fun p => .of_update (hf p), (Step.GoesOn.update f).stopsWith⟩

theorem total {f : Pass σ → α × Pass σ} (hf : ∀ p, SameBegin p (f p).2) : Proper (Step.total f : PassStep σ α) where
  sameBegin p := .of_total (hf p)
  stops := Step.GoesOn.stopsWith fun p => ⟨(f p).1, (f p).2, rfl⟩

theorem bind {x : PassStep σ α} {f : α → PassStep σ β} (hx : Proper x) (hf : ∀ a, Proper (f a)) :
    Proper (x >>= f) where
  sameBegin p := (hx.sameBegin p).bind fun a q _ => (hf a).sameBegin q
  stops p e q hq := by
    rw [Step.on_bind] at hq
    rcases h : x.on p with ⟨e' | a, r⟩ <;> rw [h] at hq
    · cases hq
      exact hx.stops p e _ h
    · exact (hf a).stops r e q hq

theorem forEach {items : List α} {f : α → PassStep σ Unit} (hf : ∀ a, Proper (f a)) :
    Proper (Step.forEach items f) := by
  induction items with
  | nil => exact .pure ()
  | cons a items ih => exact (hf a).bind fun _ => ih

end Proper

/-! ## Notifications, notes and readings -/

variable {t : Task} {h : Handler σ}

theorem proper_tell (n : Notification) {answer : Step σ RebindError Unit}
    (ha : answer.StopsWith RebindError.IsCause) : Proper (tell n answer) where
  sameBegin _ := rfl
  stops p e q hq := by
    rw [on_tell] at hq
    exact ha _ e _ (Prod.ext (Prod.mk.inj hq).1 rfl)

theorem proper_log (level : LogLevel) (message : Pass σ → String) : Proper (log t level message) :=
  .update fun _ => rfl

theorem proper_logCourse (message : String) : Proper (logCourse t message : PassStep σ Unit) :=
  (Proper.read _).bind fun _ => proper_log _ _

theorem proper_enter (n : Nat) : Proper (enter n : PassStep σ Unit) := .update fun _ => rfl

theorem proper_onPlane (f : Pass σ → α × Plane) : Proper (onPlane f) := .total fun _ => rfl

theorem proper_onStore {x : Step (Pass σ) StoreError α} (hx : ∀ p, Step.Moves SameBegin x p) :
    Proper (onStore x) where
  sameBegin p := (hx p).mapStop _
  stops p e q hq := by
    unfold onStore at hq
    rw [Step.on_mapStop] at hq
    rcases h : x.on p with ⟨_ | _, _⟩ <;> rw [h] at hq <;> cases hq
    trivial

section Told
variable (hh : h.StopsForCause)
include hh

theorem proper_createFailed (k : ObjectKind) (id type : String) (e : ObjectError) :
    Proper (createFailed h k id type e) := proper_tell _ (hh.createFailed k id type e)

theorem proper_notFound (k : ObjectKind) (id : String) : Proper (notFound h k id) := proper_tell _ (hh.notFound k id)

theorem proper_rebindFailed (k : ObjectKind) (shell : Handle) (e : ObjectError) : Proper (rebindFailed h k shell e) :=
  (Proper.read _).bind fun id => proper_tell _ (hh.rebindFailed k id e)

theorem proper_manageFailed (k : ObjectKind) (shell : Handle) (e : ObjectError) : Proper (manageFailed h k shell e) :=
  (Proper.read _).bind fun id => proper_tell _ (hh.manageFailed k id e)

/-! ## Making shells -/

theorem proper_makeShell (k : ObjectKind) (id type : String)
    (make : Pass σ → Plane → Except ObjectError Handle × Plane) : Proper (makeShell h k id type make) := by
  refine (proper_onPlane _).bind fun made => ?_
  cases made with
  | ok shell => exact .update fun _ => rfl
  | error e => exact proper_createFailed hh k id type e

theorem proper_populateCatalogItem (item : CatalogItem) : Proper (populateCatalogItem h item) := by
  refine (Proper.read _).bind fun shell => ?_
  cases shell with
  | none => exact proper_notFound hh _ _
  | some shell =>
    refine (proper_onPlane _).bind fun populated => ?_
    cases populated with
    | ok => exact .pure ()
    | error e => exact proper_rebindFailed hh _ _ e

omit hh in
theorem proper_loadManifest : Proper (loadManifest t h) := by
  have hl : ∀ kind message e p, Step.Moves SameBegin ((listener h).loadFailed kind message e) p := fun _ _ _ _ => rfl
  refine (proper_enter 1).bind fun _ => (proper_logCourse _).bind fun _ => ?_
  refine (proper_onStore fun p => Source.moves_load hl _ p).bind fun raw => ?_
  refine (proper_onStore fun p => Manifest.moves_decode hl raw p).bind fun manifest => ?_
  exact Proper.bind (.update fun _ => rfl) fun _ => .pure _

omit hh in
theorem proper_loadDefaultCatalog : Proper (loadDefaultCatalog t : PassStep σ Unit) := by
  unfold loadDefaultCatalog
  split
  · exact .stop trivial
  · exact .update fun _ => rfl

theorem proper_rebuildCatalog (m : Manifest) : Proper (rebuildCatalog t h m) := by
  refine (proper_enter 2).bind fun _ => ?_
  split
  · exact proper_logCourse _
  · refine (proper_logCourse _).bind fun _ => (Proper.forEach fun item => ?_).bind fun _ => ?_
    · exact proper_makeShell hh _ _ _ _
    · refine (proper_logCourse _).bind fun _ => (Proper.forEach fun item => ?_).bind fun _ => ?_
      · exact proper_populateCatalogItem hh item
      · refine (Proper.read _).bind fun _ => ?_
        split
        · exact (proper_logCourse _).bind fun _ => .update fun _ => rfl
        · exact (proper_logCourse _).bind fun _ => proper_loadDefaultCatalog

theorem proper_makeLocationsAndEntities (m : Manifest) : Proper (makeLocationsAndEntities t h m) := by
  refine (proper_enter 3).bind fun _ => (proper_logCourse _).bind fun _ => ?_
  refine (Proper.forEach fun e => proper_makeShell hh _ _ _ _).bind fun _ => ?_
  exact (proper_logCourse _).bind fun _ => .forEach fun e => proper_makeShell hh _ _ _ _

omit hh in
theorem proper_loadSnapshot (raw : RawData) : Proper (loadSnapshot h raw) := by
  have hl : ∀ kind message e p, Step.Moves SameBegin ((listener h).loadFailed kind message e) p := fun _ _ _ _ => rfl
  have hd : ∀ kind id p, Step.Moves SameBegin ((listener h).dangling kind id) p := fun _ _ _ => rfl
  refine (proper_enter 4).bind fun _ => (Proper.read _).bind fun known => ?_
  exact proper_onStore fun p => Snapshot.moves_decode hl hd raw known p

theorem proper_makeAdjuncts (snapshot : Snapshot) : Proper (makeAdjuncts t h snapshot) := by
  refine (proper_enter 5).bind fun _ => .forEach fun k => ?_
  unfold makeAdjunctsOf
  dsimp only
  split
  · exact proper_logCourse _
  · exact (proper_logCourse _).bind fun _ => .forEach fun m => proper_makeShell hh _ _ _ _

/-! ## Populating and joining shells -/

theorem proper_reconstructOne (k : ObjectKind) (m : Memento) : Proper (reconstructOne h k m) := by
  refine (Proper.read _).bind fun shell => ?_
  cases shell with
  | none => exact proper_notFound hh k m.id
  | some shell =>
    refine (proper_onPlane _).bind fun populated => ?_
    cases populated with
    | ok => exact .pure ()
    | error e =>
      refine (proper_rebindFailed hh k shell e).bind fun _ => ?_
      split
      · exact .update fun _ => rfl
      · exact .pure ()

theorem proper_reconstructAll (snapshot : Snapshot) : Proper (reconstructAll t h snapshot) := by
  refine (proper_enter 6).bind fun _ => (proper_logCourse _).bind fun _ => ?_
  refine (Proper.forEach fun m => proper_reconstructOne hh _ m).bind fun _ => ?_
  refine (Proper.forEach fun k => ?_).bind fun _ => ?_
  · unfold reconstructAdjuncts
    split
    · exact (proper_logCourse _).bind fun _ => .forEach fun m => proper_reconstructOne hh k m
    · exact .pure ()
  · exact (proper_logCourse _).bind fun _ => .forEach fun m => proper_reconstructOne hh _ m

theorem proper_attachOne (entity : Handle) (k : ObjectKind) (id : String) : Proper (attachOne h entity k id) := by
  refine (Proper.read _).bind fun adjunct => ?_
  cases adjunct with
  | none => exact proper_onStore fun _ => rfl
  | some adjunct =>
    refine (proper_onPlane _).bind fun joined => ?_
    cases joined with
    | ok => exact .pure ()
    | error e => exact proper_rebindFailed hh _ entity e

theorem proper_attachAdjuncts (snapshot : Snapshot) : Proper (attachAdjuncts t h snapshot) := by
  refine (proper_enter 7).bind fun _ => (proper_logCourse _).bind fun _ => .forEach fun m => ?_
  refine (Proper.read _).bind fun entity => ?_
  cases entity with
  | none => exact proper_notFound hh _ m.id
  | some entity =>
    refine .forEach fun k => ?_
    unfold attachKind
    split
    · exact .forEach fun id => proper_attachOne hh entity k id
    · exact .pure ()

/-! ## The last phase -/

theorem proper_manageRoot (k : ObjectKind) (children : OrderedMap String (List Handle)) (root : Handle) :
    Proper (manageRoot h k children root) := by
  refine (proper_onPlane _).bind fun managed => ?_
  cases managed with
  | ok => exact .pure true
  | error e => exact (proper_manageFailed hh k root e).bind fun _ => .pure false

theorem proper_manageRoots (k : ObjectKind) (children : OrderedMap String (List Handle)) (roots : List Handle) :
    Proper (manageRoots h k children roots) :=
  .forEach fun root => (proper_manageRoot hh k children root).bind fun _ => .pure ()

theorem proper_manageApplications (children : OrderedMap String (List Handle)) (ids : List String) :
    Proper (manageApplications h children ids) := by
  induction ids with
  | nil => exact .pure []
  | cons id ids ih =>
    refine (Proper.read _).bind fun entity => ?_
    cases entity with
    | none => exact (proper_notFound hh _ id).bind fun _ => ih
    | some entity => exact (proper_manageRoot hh _ children entity).bind fun _ => ih.bind fun _ => .pure _

omit hh in
theorem proper_noteTransitions (k : ObjectKind) : Proper (noteTransitions t k : PassStep σ (List String)) :=
  .total fun p => List.foldlRecOn (p.scratch.shells k) _ (Std.Refl.refl (r := SameBegin) p) fun _ hq _ _ => hq

omit hh in
theorem proper_destroyUnused (k : ObjectKind) (ids : List String) :
    Proper (destroyUnused t k ids : PassStep σ Unit) := by
  unfold destroyUnused
  split
  · exact (Proper.read _).bind fun _ => (proper_log _ _).bind fun _ => .update fun _ => rfl
  · exact .pure ()

theorem proper_manageAll (snapshot : Snapshot) : Proper (manageAll t h snapshot) := by
  refine (proper_enter 8).bind fun _ => Proper.bind ?_ fun _ => Proper.bind ?_ fun _ => ?_
  · refine (proper_logCourse _).bind fun _ => (proper_noteTransitions _).bind fun _ => ?_
    refine (Proper.read _).bind fun _ => (Proper.read _).bind fun _ => ?_
    exact (proper_manageRoots hh _ _ _).bind fun _ => proper_destroyUnused _ _
  · refine (proper_logCourse _).bind fun _ => (proper_noteTransitions _).bind fun _ => ?_
    refine (Proper.read _).bind fun _ => (Proper.read _).bind fun _ => ?_
    refine (proper_manageApplications hh _ _).bind fun _ => (proper_manageRoots hh _ _ _).bind fun _ => ?_
    exact (proper_destroyUnused _ _).bind fun _ => .pure _
  · exact Proper.bind (.update fun _ => rfl) fun _ => .pure _

omit hh in
theorem proper_finish (snapshot : Snapshot) (applications : List Handle) :
    Proper (finish t snapshot applications : PassStep σ Unit) := by
  refine (Proper.read _).bind fun _ => ?_
  split
  · refine Proper.bind ?_ fun _ => proper_logCourse _
    exact (Proper.read _).bind fun _ => proper_log _ _
  · exact proper_logCourse _

/-- The phases stop for causes only. -/
theorem proper_phases : Proper (phases t h) := by
  refine proper_loadManifest.bind fun (raw, manifest) => (proper_rebuildCatalog hh manifest).bind fun _ => ?_
  refine (proper_makeLocationsAndEntities hh manifest).bind fun _ => (proper_loadSnapshot raw).bind fun snapshot => ?_
  refine (proper_makeAdjuncts hh snapshot).bind fun _ => (proper_reconstructAll hh snapshot).bind fun _ => ?_
  refine (proper_attachAdjuncts hh snapshot).bind fun _ => (proper_manageAll hh snapshot).bind fun applications => ?_
  exact (proper_finish snapshot applications).bind fun _ => .pure applications

end Told

end Pass

/-! ## The handler that acts by modes -/

namespace Ledger

theorem stopsWith_problem (mode : FailureMode) (k : ObjectKind) (id : String) (e : ObjectError) :
    (problem mode k id e).StopsWith RebindError.IsCause := by
  intro l e' l' h
  cases mode <;> cases h
  trivial

theorem stopsWith_noteCreateFailed (mode : FailureMode) (k : ObjectKind) (id type : String) (e : ObjectError) :
    (noteCreateFailed mode k id type e).StopsWith RebindError.IsCause :=
  fun _ => stopsWith_problem mode k id _ _

theorem stopsWith_notFound (mode : FailureMode) (k : ObjectKind) (id : String) :
    (notFound mode k id).StopsWith RebindError.IsCause := by
  intro l e' l' h
  unfold notFound at h
  rw [Step.on_read_bind] at h
  split at h
  · cases h
  · exact stopsWith_problem mode k id _ l e' l' h

end Ledger

theorem Handler.stopsForCause_byMode (failure danglingMode : FailureMode) :
    (Handler.byMode failure danglingMode).StopsForCause where
  createFailed := Ledger.stopsWith_noteCreateFailed failure
  notFound := Ledger.stopsWith_notFound failure
  rebindFailed := Ledger.stopsWith_problem failure
  manageFailed := Ledger.stopsWith_problem failure

end ManagementPlane
