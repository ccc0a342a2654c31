import ManagementPlane.Proofs.Muteness

/-!
# The same pass with another handler

* `Handler.hear`, `Handler.heard` : what a handler makes of a notification, and of all that it has been told;
* `Pass.replay` : a pass that has come to some point, with what was on record and what its handler held when it began;
* `Pass.Abreast` : two passes, each with a handler of its own, that have come to the same point;
* `Pass.InStep x y` : from passes that are abreast, the steps `x` and `y` end alike, and in such passes;
* `Pass.inStep_loadManifest`, … , `Pass.inStep_finish` : so it is with every phase, if no handler stops anything.
-/

namespace ManagementPlane

variable {σ τ ε δ α β : Type}

/-! ## Handlers -/

namespace Handler

/-- What the handler holds once it has been told of a notification. -/
def hear (h : Handler σ) (n : Notification) (s : σ) : σ :=
  match n with
  | .start readOnly => h.start readOnly s
  | .loadFailed kind message e => ((h.loadFailed kind message e).on s).2
  | .dangling kind id => ((h.dangling kind id).on s).2
  | .createFailed kind id type e => ((h.createFailed kind id type e).on s).2
  | .notFound kind id => ((h.notFound kind id).on s).2
  | .rebindFailed kind id e => ((h.rebindFailed kind id e).on s).2
  | .manageFailed kind id e => ((h.manageFailed kind id e).on s).2
  | .done => (h.done.on s).2
  | .failed e => (h.failed e s).2

/-- What the handler holds once it has been told of everything in the list, of the last first. -/
def heard (h : Handler σ) (notes : List Notification) (s : σ) : σ := notes.foldr h.hear s

theorem heard_append (h : Handler σ) (later earlier : List Notification) (s : σ) :
    h.heard (later ++ earlier) s = h.heard later (h.heard earlier s) := List.foldr_append

end Handler

/-- A step that goes on leaves the state that its run says. -/
theorem Step.GoesOn.on_eq {x : Step σ ε Unit} (hx : x.GoesOn) (s : σ) : x.on s = (.ok (), (x.on s).2) := by
  obtain ⟨_, t, hx⟩ := hx s
  rw [hx]

/-- The instantiator of a pass does not depend on its handler. -/
def Iteration.instantiator (t : Task) (i : Iteration) : Instantiator where
  types := t.types
  infer := t.settings.inferCatalogItem
  scratch := i.scratch

namespace Pass

variable {h : Handler σ} {h' : Handler τ} {p₀ p : Pass σ} {q₀ q : Pass τ} {t : Task}

/-! ## Two passes abreast -/

/-- The pass `p₀` as it is at some later point: `i` is what can be seen of it from outside, and `r` the live manager with
what has been put on record since. -/
def replay (h : Handler σ) (p₀ : Pass σ) (i : Iteration) (r : Plane) : Pass σ :=
  { i with plane := r.onTop p₀.plane.trace, handler := h.heard r.notes p₀.handler }

/-- The passes have come to the same point since they were `p₀` and `q₀`, with handlers of their own. -/
def Abreast (h : Handler σ) (h' : Handler τ) (p₀ : Pass σ) (q₀ : Pass τ) (p : Pass σ) (q : Pass τ) : Prop :=
  ∃ i r, p = replay h p₀ i r ∧ q = replay h' q₀ i r

/-- From passes that are abreast, the steps end alike, and in such passes. -/
def InStep (h : Handler σ) (h' : Handler τ) (p₀ : Pass σ) (q₀ : Pass τ) (x : Step (Pass σ) ε α)
    (y : Step (Pass τ) ε α) : Prop :=
  ∀ p q, Abreast h h' p₀ q₀ p q → Step.Agree (Abreast h h' p₀ q₀) Eq x y p q

namespace InStep

theorem pure (a : α) : InStep h h' p₀ q₀ (Pure.pure a : Step (Pass σ) ε α) (Pure.pure a) :=
  fun _ _ hpq => .pure rfl hpq

theorem stop (e : ε) : InStep h h' p₀ q₀ (Step.stop e : Step (Pass σ) ε α) (Step.stop e) :=
  fun _ _ hpq => .stop e hpq

theorem bind {x : Step (Pass σ) ε α} {y : Step (Pass τ) ε α} {f : α → Step (Pass σ) ε β} {g : α → Step (Pass τ) ε β}
    (hx : InStep h h' p₀ q₀ x y) (hf : ∀ a, InStep h h' p₀ q₀ (f a) (g a)) :
    InStep h h' p₀ q₀ (x >>= f) (y >>= g) := by
  intro p q hpq
  refine (hx p q hpq).bind fun a b p q he hpq => ?_
  subst he
  exact hf a p q hpq

theorem mapStop {x : Step (Pass σ) ε α} {y : Step (Pass τ) ε α} (f : ε → δ) (hx : InStep h h' p₀ q₀ x y) :
    InStep h h' p₀ q₀ (x.mapStop f) (y.mapStop f) := fun p q hpq => (hx p q hpq).mapStop f

theorem forEach {items : List α} {f : α → Step (Pass σ) ε Unit} {g : α → Step (Pass τ) ε Unit}
    (hf : ∀ a, InStep h h' p₀ q₀ (f a) (g a)) : InStep h h' p₀ q₀ (Step.forEach items f) (Step.forEach items g) :=
  fun _ _ hpq => .forEach (fun a _ p q hpq => hf a p q hpq) hpq

theorem read_bind {f : Pass σ → α} {f' : Pass τ → α} {g : α → Step (Pass σ) ε β} {g' : α → Step (Pass τ) ε β}
    (hf : ∀ i r, f (replay h p₀ i r) = f' (replay h' q₀ i r)) (hg : ∀ a, InStep h h' p₀ q₀ (g a) (g' a)) :
    InStep h h' p₀ q₀ (Step.read f >>= g) (Step.read f' >>= g') := by
  rintro _ _ ⟨i, r, rfl, rfl⟩
  refine .read_bind ?_
  rw [hf i r]
  exact hg _ _ _ ⟨i, r, rfl, rfl⟩

theorem total {f : Pass σ → α × Pass σ} {g : Pass τ → α × Pass τ}
    (hf : ∀ i r, ∃ a i' r', f (replay h p₀ i r) = (a, replay h p₀ i' r') ∧ g (replay h' q₀ i r) = (a, replay h' q₀ i' r')) :
    InStep h h' p₀ q₀ (Step.total f : Step (Pass σ) ε α) (Step.total g) := by
  rintro _ _ ⟨i, r, rfl, rfl⟩
  obtain ⟨a, i', r', hp, hq⟩ := hf i r
  unfold Step.Agree
  rw [Step.on_total, Step.on_total, hp, hq]
  exact .ok rfl ⟨i', r', rfl, rfl⟩

theorem update {f : Pass σ → Pass σ} {g : Pass τ → Pass τ}
    (hf : ∀ i r, ∃ i' r', f (replay h p₀ i r) = replay h p₀ i' r' ∧ g (replay h' q₀ i r) = replay h' q₀ i' r') :
    InStep h h' p₀ q₀ (Step.update f : Step (Pass σ) ε Unit) (Step.update g) := by
  rintro _ _ ⟨i, r, rfl, rfl⟩
  exact .update rfl (hf i r)

end InStep

/-- A mute change of the live manager. -/
theorem replay_of_mute {f : Plane → α × Plane} (hf : Plane.Mute f) (h : Handler σ) (p₀ : Pass σ) (i : Iteration)
    (r : Plane) : ((f (replay h p₀ i r).plane).1, { replay h p₀ i r with plane := (f (replay h p₀ i r).plane).2 }) =
      ((f r).1, replay h p₀ i (f r).2) := by
  show ((f (r.onTop p₀.plane.trace)).1, { replay h p₀ i r with plane := (f (r.onTop p₀.plane.trace)).2 }) = _
  unfold replay
  rw [hf.onTop, hf.notes]

theorem InStep.onPlane {f : Iteration → Plane → α × Plane} (hf : ∀ i, Plane.Mute (f i)) :
    InStep h h' p₀ q₀ (onPlane fun p => f p.toIteration p.plane) (onPlane fun q => f q.toIteration q.plane) :=
  .total fun i r =>
    ⟨(f i r).1, i, (f i r).2, replay_of_mute (hf i) h p₀ i r, replay_of_mute (hf i) h' q₀ i r⟩

/-! ### Notes and notifications -/

/-- A notification that neither handler takes for a reason to stop. -/
theorem inStep_tell {n : Notification} {x : Step σ ε Unit} {y : Step τ ε Unit} (hx : x.GoesOn) (hy : y.GoesOn)
    (hxn : ∀ s, (x.on s).2 = h.hear n s) (hyn : ∀ s, (y.on s).2 = h'.hear n s) :
    InStep h h' p₀ q₀ (tell n x) (tell n y) := by
  rintro _ _ ⟨i, r, rfl, rfl⟩
  unfold Step.Agree
  rw [on_tell, on_tell, hx.on_eq, hy.on_eq, hxn, hyn]
  exact .ok rfl ⟨i, r.record (.notified n), rfl, rfl⟩

theorem inStep_log {level : LogLevel} {message : Pass σ → String} {message' : Pass τ → String}
    (hmessage : ∀ i r, message (replay h p₀ i r) = message' (replay h' q₀ i r)) :
    InStep h h' p₀ q₀ (log t level message) (log t level message') := by
  refine .update fun i r => ⟨i, r.record (.logged {
    level, node := t.node, mode := i.mode
    iteration := if i.mode.isHotProxy then some t.hotPasses else none
    phase := i.phase, message := message (replay h p₀ i r) }), rfl, ?_⟩
  rw [hmessage i r]
  rfl

theorem inStep_logCourse (message : String) : InStep h h' p₀ q₀ (logCourse t message) (logCourse t message) :=
  .read_bind (fun _ _ => rfl) fun _ => inStep_log fun _ _ => rfl

theorem inStep_enter (phase : Nat) : InStep h h' p₀ q₀ (enter phase) (enter phase) :=
  .update fun i r => ⟨{ i with phase }, r, rfl, rfl⟩

/-- What the type of a new shell and its catalog item depend on does not show in what is on record. -/
theorem mute_load (t : Task) (i : Iteration) (k : ObjectKind) (id type : String) (item : Plane → Option String)
    (hitem : ∀ r older, item (r.onTop older) = item r) (candidates : List ConstructorArgs) : Plane.Mute fun r =>
      Instantiator.makeLoaded k ((i.instantiator t).load r k type (item r)) id (item r) candidates r := by
  refine ⟨fun r older => ?_, fun r => (Instantiator.mute_makeLoaded _ _ _ _ _).notes r⟩
  rw [hitem]
  exact (Instantiator.mute_makeLoaded _ _ _ _ _).onTop r older

section Accepting
variable (ha : h.Accepting) (ha' : h'.Accepting)
include ha ha'

theorem inStep_loadFailed (kind : ObjectKind) (message : String) (e : StoreError) :
    InStep h h' p₀ q₀ ((listener h).loadFailed kind message e) ((listener h').loadFailed kind message e) :=
  inStep_tell (ha.loadFailed kind message e) (ha'.loadFailed kind message e) (fun _ => rfl) fun _ => rfl

theorem inStep_dangling (kind : ObjectKind) (id : String) :
    InStep h h' p₀ q₀ ((listener h).dangling kind id) ((listener h').dangling kind id) :=
  inStep_tell (ha.dangling kind id) (ha'.dangling kind id) (fun _ => rfl) fun _ => rfl

theorem inStep_createFailed (kind : ObjectKind) (id type : String) (e : ObjectError) :
    InStep h h' p₀ q₀ (createFailed h kind id type e) (createFailed h' kind id type e) :=
  inStep_tell (ha.createFailed kind id type e) (ha'.createFailed kind id type e) (fun _ => rfl) fun _ => rfl

theorem inStep_notFound (kind : ObjectKind) (id : String) :
    InStep h h' p₀ q₀ (notFound h kind id) (notFound h' kind id) :=
  inStep_tell (ha.notFound kind id) (ha'.notFound kind id) (fun _ => rfl) fun _ => rfl

theorem inStep_rebindFailed (kind : ObjectKind) (shell : Handle) (e : ObjectError) :
    InStep h h' p₀ q₀ (rebindFailed h kind shell e) (rebindFailed h' kind shell e) :=
  .read_bind (fun _ _ => rfl) fun id =>
    inStep_tell (ha.rebindFailed kind id e) (ha'.rebindFailed kind id e) (fun _ => rfl) fun _ => rfl

theorem inStep_manageFailed (kind : ObjectKind) (shell : Handle) (e : ObjectError) :
    InStep h h' p₀ q₀ (manageFailed h kind shell e) (manageFailed h' kind shell e) :=
  .read_bind (fun _ _ => rfl) fun id =>
    inStep_tell (ha.manageFailed kind id e) (ha'.manageFailed kind id e) (fun _ => rfl) fun _ => rfl

/-! ### Reading the store -/

theorem inStep_loadManifest : InStep h h' p₀ q₀ (loadManifest t h) (loadManifest t h') := by
  have hfailed : ∀ kind message e p q, Abreast h h' p₀ q₀ p q → Step.Agree (Abreast h h' p₀ q₀) Eq
      ((listener h).loadFailed kind message e) ((listener h').loadFailed kind message e) p q :=
    inStep_loadFailed ha ha'
  refine (inStep_enter 1).bind fun _ => (inStep_logCourse _).bind fun _ => ?_
  refine (InStep.mapStop _ fun p q hpq => agree_load hfailed t.source hpq).bind fun raw => ?_
  refine (InStep.mapStop _ fun p q hpq => agree_decode_manifest hfailed raw hpq).bind fun manifest => ?_
  refine (InStep.update fun i r => ?_).bind fun _ => .pure _
  exact ⟨(noteManifest manifest (replay h p₀ i r)).toIteration, r, rfl, rfl⟩

theorem inStep_loadSnapshot (raw : RawData) : InStep h h' p₀ q₀ (loadSnapshot h raw) (loadSnapshot h' raw) := by
  have hfailed : ∀ kind message e p q, Abreast h h' p₀ q₀ p q → Step.Agree (Abreast h h' p₀ q₀) Eq
      ((listener h).loadFailed kind message e) ((listener h').loadFailed kind message e) p q :=
    inStep_loadFailed ha ha'
  refine (inStep_enter 4).bind fun _ => .read_bind (fun i r => ?_) fun known => .mapStop _ fun p q hpq => ?_
  · funext k id
    cases k <;> rfl
  · exact agree_decode_snapshot hfailed (inStep_dangling ha ha') raw (fun _ _ => rfl) hpq

/-! ### Making shells -/

theorem inStep_makeShell {k : ObjectKind} {id type : String} {make : Pass σ → Plane → Except ObjectError Handle × Plane}
    {make' : Pass τ → Plane → Except ObjectError Handle × Plane}
    (f : Iteration → Plane → Except ObjectError Handle × Plane) (hf : ∀ i, Plane.Mute (f i))
    (hmake : ∀ p : Pass σ, make p p.plane = f p.toIteration p.plane)
    (hmake' : ∀ q : Pass τ, make' q q.plane = f q.toIteration q.plane) :
    InStep h h' p₀ q₀ (makeShell h k id type make) (makeShell h' k id type make') := by
  unfold makeShell
  simp only [hmake, hmake']
  refine (InStep.onPlane hf).bind fun made => ?_
  cases made with
  | error e => exact inStep_createFailed ha ha' k id type e
  | ok shell =>
    refine .update fun i r => ⟨{ i with scratch := (i.scratch.register r shell).1 }, (i.scratch.register r shell).2, ?_, ?_⟩
    all_goals
      unfold join replay
      dsimp only
      rw [Scratch.register_onTop, Scratch.notes_register]

theorem inStep_makeCatalogItem (item : CatalogItem) :
    InStep h h' p₀ q₀ (makeCatalogItem t h item) (makeCatalogItem t h' item) :=
  inStep_makeShell ha ha' (fun i => (i.instantiator t).newCatalogItem item)
    (fun _ => Instantiator.mute_makeLoaded _ _ _ _ _) (fun _ => rfl) fun _ => rfl

theorem inStep_populateCatalogItem (item : CatalogItem) :
    InStep h h' p₀ q₀ (populateCatalogItem h item) (populateCatalogItem h' item) := by
  refine .read_bind (fun _ _ => rfl) fun shell => ?_
  cases shell with
  | none => exact inStep_notFound ha ha' _ _
  | some shell =>
    refine (InStep.onPlane fun _ => Plane.mute_reconstructItem shell item).bind fun populated => ?_
    cases populated with
    | ok => exact .pure ()
    | error e => exact inStep_rebindFailed ha ha' _ _ _

omit ha ha' in
theorem inStep_loadDefaultCatalog : InStep h h' p₀ q₀ (loadDefaultCatalog t) (loadDefaultCatalog t) := by
  unfold loadDefaultCatalog
  split
  · exact .stop _
  · next items _ =>
    refine .update fun i r => ⟨i, fillCatalog items r, ?_, ?_⟩
    · exact congrArg Prod.snd (replay_of_mute (mute_fillCatalog items) h p₀ i r)
    · exact congrArg Prod.snd (replay_of_mute (mute_fillCatalog items) h' q₀ i r)

theorem inStep_rebuildCatalog (manifest : Manifest) :
    InStep h h' p₀ q₀ (rebuildCatalog t h manifest) (rebuildCatalog t h' manifest) := by
  refine (inStep_enter 2).bind fun _ => ?_
  split
  · exact inStep_logCourse _
  · refine (inStep_logCourse _).bind fun _ => ?_
    refine (InStep.forEach fun item => inStep_makeCatalogItem ha ha' item).bind fun _ => ?_
    refine (inStep_logCourse _).bind fun _ => ?_
    refine (InStep.forEach fun item => inStep_populateCatalogItem ha ha' item).bind fun _ => ?_
    refine .read_bind (fun _ _ => rfl) fun isEmpty => ?_
    split
    · refine (inStep_logCourse _).bind fun _ => .update fun i r => ?_
      exact ⟨i, { r with catalog := .ofItems r.heap (i.scratch.shells .catalogItem) }, rfl, rfl⟩
    · exact (inStep_logCourse _).bind fun _ => inStep_loadDefaultCatalog

theorem inStep_makeLocationsAndEntities (manifest : Manifest) :
    InStep h h' p₀ q₀ (makeLocationsAndEntities t h manifest) (makeLocationsAndEntities t h' manifest) := by
  refine (inStep_enter 3).bind fun _ => (inStep_logCourse _).bind fun _ => ?_
  refine (InStep.forEach fun e => ?_).bind fun _ => (inStep_logCourse _).bind fun _ => .forEach fun e => ?_
  · exact inStep_makeShell ha ha' _ (fun i => mute_load t i .location e.1 e.2 (fun _ => none) (fun _ _ => rfl) _)
      (fun _ => rfl) fun _ => rfl
  · let item (r : Plane) := r.provenance? t.types t.settings.inferCatalogItem manifest.entities e
    exact inStep_makeShell ha ha' _ (fun i => mute_load t i .entity e.id e.type item (fun _ _ => rfl) _)
      (fun _ => rfl) fun _ => rfl

theorem inStep_makeAdjuncts (snapshot : Snapshot) :
    InStep h h' p₀ q₀ (makeAdjuncts t h snapshot) (makeAdjuncts t h' snapshot) := by
  refine (inStep_enter 5).bind fun _ => .forEach fun k => ?_
  unfold makeAdjunctsOf
  dsimp only
  split
  · exact inStep_logCourse _
  · refine (inStep_logCourse _).bind fun _ => .forEach fun m => ?_
    exact inStep_makeShell ha ha' _ (fun i => mute_load t i k m.id m.type (fun _ => m.catalogItemId) (fun _ _ => rfl) _)
      (fun _ => rfl) fun _ => rfl

/-! ### Populating and joining them -/

theorem inStep_reconstructOne (k : ObjectKind) (m : Memento) :
    InStep h h' p₀ q₀ (reconstructOne h k m) (reconstructOne h' k m) := by
  refine .read_bind (fun _ _ => rfl) fun shell => ?_
  cases shell with
  | none => exact inStep_notFound ha ha' _ _
  | some shell =>
    have hmute : ∀ i : Iteration, Plane.Mute fun r =>
        r.reconstruct (i.scratch.known r) i.scratch.allReadOnly shell m := by
      refine fun i => ⟨fun r older => ?_, fun r => (Plane.mute_reconstruct shell _ _ m).notes r⟩
      have hknown : i.scratch.known (r.onTop older) = i.scratch.known r := by
        funext k id
        cases k <;> rfl
      rw [hknown]
      exact (Plane.mute_reconstruct shell _ _ m).onTop r older
    refine (InStep.onPlane hmute).bind fun populated => ?_
    cases populated with
    | ok => exact .pure ()
    | error e =>
      refine (inStep_rebindFailed ha ha' _ _ _).bind fun _ => ?_
      split
      · exact .update fun i r => ⟨{ i with scratch := (i.scratch.unregister k m.id).2 }, r, rfl, rfl⟩
      · exact .pure ()

theorem inStep_reconstructAll (snapshot : Snapshot) :
    InStep h h' p₀ q₀ (reconstructAll t h snapshot) (reconstructAll t h' snapshot) := by
  refine (inStep_enter 6).bind fun _ => (inStep_logCourse _).bind fun _ => ?_
  refine (InStep.forEach fun m => inStep_reconstructOne ha ha' _ m).bind fun _ => ?_
  refine (InStep.forEach fun k => ?_).bind fun _ => ?_
  · unfold reconstructAdjuncts
    split
    · exact (inStep_logCourse _).bind fun _ => .forEach fun m => inStep_reconstructOne ha ha' k m
    · exact .pure ()
  · exact (inStep_logCourse _).bind fun _ => .forEach fun m => inStep_reconstructOne ha ha' _ m

theorem inStep_attachOne (entity : Handle) (k : ObjectKind) (id : String) :
    InStep h h' p₀ q₀ (attachOne h entity k id) (attachOne h' entity k id) := by
  refine .read_bind (fun _ _ => rfl) fun adjunct => ?_
  cases adjunct with
  | none => exact .mapStop _ (inStep_dangling ha ha' _ _)
  | some adjunct =>
    refine (InStep.onPlane fun _ => Plane.mute_addAdjunct k adjunct entity).bind fun attached => ?_
    cases attached with
    | ok => exact .pure ()
    | error e => exact inStep_rebindFailed ha ha' _ _ _

theorem inStep_attachAdjuncts (snapshot : Snapshot) :
    InStep h h' p₀ q₀ (attachAdjuncts t h snapshot) (attachAdjuncts t h' snapshot) := by
  refine (inStep_enter 7).bind fun _ => (inStep_logCourse _).bind fun _ => .forEach fun m => ?_
  refine .read_bind (fun _ _ => rfl) fun entity => ?_
  cases entity with
  | none => exact inStep_notFound ha ha' _ _
  | some entity =>
    refine .forEach fun k => ?_
    unfold attachKind
    split
    · exact .forEach fun id => inStep_attachOne ha ha' entity k id
    · exact .pure ()

/-! ### Managing them -/

omit ha ha' in
theorem inStep_noteTransitions (k : ObjectKind) :
    InStep h h' p₀ q₀ (noteTransitions t k) (noteTransitions t k) := by
  have hfold : ∀ (shells : List Handle) i r, ∃ r',
      shells.foldl (fun p s => noteTransition t k s p) (replay h p₀ i r) = replay h p₀ i r' ∧
        shells.foldl (fun p s => noteTransition t k s p) (replay h' q₀ i r) = replay h' q₀ i r' := by
    intro shells
    induction shells with
    | nil => exact fun i r => ⟨r, rfl, rfl⟩
    | cons shell shells ih =>
      intro i r
      have hone : ∃ r', noteTransition t k shell (replay h p₀ i r) = replay h p₀ i r' ∧
          noteTransition t k shell (replay h' q₀ i r) = replay h' q₀ i r' := by
        refine ⟨r.setRegistry k ((r.registry k).setTransition (r.read shell).id (t.transitions k (r.read shell).id
          ((r.registry k).lastTransition? (r.read shell).id) (i.scratch.isReadOnly k (r.read shell).id))), ?_, ?_⟩
        · cases k <;> rfl
        · cases k <;> rfl
      obtain ⟨r', hp, hq⟩ := hone
      rw [List.foldl_cons, List.foldl_cons, hp, hq]
      exact ih i r'
  refine .total fun i r => ?_
  obtain ⟨r', hp, hq⟩ := hfold (i.scratch.shells k) i r
  refine ⟨(replay h p₀ i r).unused k, i, r', ?_, ?_⟩
  · exact congrArg _ hp
  · refine Prod.ext ?_ hq
    cases k <;> rfl

theorem inStep_manageRoot (k : ObjectKind) (children : OrderedMap String (List Handle)) (root : Handle) :
    InStep h h' p₀ q₀ (manageRoot h k children root) (manageRoot h' k children root) := by
  refine (InStep.onPlane fun _ => Plane.mute_manageTree k root children).bind fun managed => ?_
  cases managed with
  | ok => exact .pure _
  | error e => exact (inStep_manageFailed ha ha' _ _ _).bind fun _ => .pure _

theorem inStep_manageRoots (k : ObjectKind) (children : OrderedMap String (List Handle)) (roots : List Handle) :
    InStep h h' p₀ q₀ (manageRoots h k children roots) (manageRoots h' k children roots) :=
  .forEach fun root => (inStep_manageRoot ha ha' k children root).bind fun _ => .pure ()

theorem inStep_manageApplications (children : OrderedMap String (List Handle)) (ids : List String) :
    InStep h h' p₀ q₀ (manageApplications h children ids) (manageApplications h' children ids) := by
  induction ids with
  | nil => exact .pure _
  | cons id ids ih =>
    refine .read_bind (fun _ _ => rfl) fun entity => ?_
    cases entity with
    | none => exact (inStep_notFound ha ha' _ _).bind fun _ => ih
    | some entity => exact (inStep_manageRoot ha ha' _ _ _).bind fun _ => ih.bind fun _ => .pure _

omit ha ha' in
theorem inStep_destroyUnused (k : ObjectKind) (ids : List String) :
    InStep h h' p₀ q₀ (destroyUnused t k ids) (destroyUnused t k ids) := by
  unfold destroyUnused
  split
  · refine .read_bind (fun _ _ => rfl) fun overwriting => InStep.bind (inStep_log fun _ _ => rfl) fun _ => ?_
    refine .update fun i r => ⟨i, dropAll k ids r, ?_, ?_⟩
    · exact congrArg Prod.snd (replay_of_mute (mute_dropAll k ids) h p₀ i r)
    · exact congrArg Prod.snd (replay_of_mute (mute_dropAll k ids) h' q₀ i r)
  · exact .pure ()

theorem inStep_manageAll (snapshot : Snapshot) :
    InStep h h' p₀ q₀ (manageAll t h snapshot) (manageAll t h' snapshot) := by
  refine (inStep_enter 8).bind fun _ => InStep.bind ?_ fun _ => InStep.bind ?_ fun applications => ?_
  · refine (inStep_logCourse _).bind fun _ => (inStep_noteTransitions _).bind fun old => ?_
    refine .read_bind (fun _ _ => rfl) fun children => .read_bind (fun _ _ => rfl) fun roots => ?_
    exact (inStep_manageRoots ha ha' _ _ _).bind fun _ => inStep_destroyUnused _ _
  · refine (inStep_logCourse _).bind fun _ => (inStep_noteTransitions _).bind fun old => ?_
    refine .read_bind (fun _ _ => rfl) fun children => .read_bind (fun _ _ => rfl) fun orphans => ?_
    refine (inStep_manageApplications ha ha' _ _).bind fun applications => ?_
    exact (inStep_manageRoots ha ha' _ _ _).bind fun _ => (inStep_destroyUnused _ _).bind fun _ => .pure _
  · exact (InStep.update fun i r => ⟨i, release r, rfl, rfl⟩).bind fun _ => .pure _

omit ha ha' in
theorem inStep_finish (snapshot : Snapshot) (applications : List Handle) :
    InStep h h' p₀ q₀ (finish t snapshot applications) (finish t snapshot applications) := by
  refine .read_bind (fun _ _ => rfl) fun isEmpty => ?_
  split
  · refine InStep.bind ?_ fun _ => inStep_logCourse _
    exact .read_bind (fun _ _ => rfl) fun _ => inStep_log fun _ _ => rfl
  · exact inStep_logCourse _

/-- The phases end alike, and what they leave behind differs only in what the handlers make of what they are told. -/
theorem inStep_phases : InStep h h' p₀ q₀ (phases t h) (phases t h') := by
  refine (inStep_loadManifest ha ha').bind fun (raw, manifest) => ?_
  refine (inStep_rebuildCatalog ha ha' manifest).bind fun _ => ?_
  refine (inStep_makeLocationsAndEntities ha ha' manifest).bind fun _ => ?_
  refine (inStep_loadSnapshot ha ha' raw).bind fun snapshot => ?_
  refine (inStep_makeAdjuncts ha ha' snapshot).bind fun _ => ?_
  refine (inStep_reconstructAll ha ha' snapshot).bind fun _ => ?_
  refine (inStep_attachAdjuncts ha ha' snapshot).bind fun _ => ?_
  refine (inStep_manageAll ha ha' snapshot).bind fun applications => ?_
  exact (inStep_finish snapshot applications).bind fun _ => .pure _

end Accepting

end Pass

end ManagementPlane
