import ManagementPlane.Proofs.Frankness
import ManagementPlane.Proofs.Shelf

/-!
# Passes are frank

* `Pass.answered_of_makeLocationsAndEntities`, `Pass.answered_of_makeAdjuncts` : what the phases that make shells have
  answered when they are over;
* `Pass.frank_reconstructAll`, … , `Pass.frank_manageAll` : the later phases are frank if all is answered that they need;
* `Pass.frank_verdict` : a pass over a store of JSON objects, with types that make what they declare, is frank.
-/

namespace ManagementPlane

variable {σ : Type}

namespace Pass

variable {t : Task} {h : Handler σ} {p q r : Pass σ} {k : ObjectKind}

/-! ## Making shells -/

theorem frank_loadManifest (p : Pass σ) : Step.Moves (Frank h ∅) (loadManifest t h) p :=
  movesAlong_loadManifest t h (frank_enter 1) frank_logCourse frank_loadFailed
    (fun _ _ => .of_notes rfl rfl fun _ _ hx => hx) p

theorem frank_makeCatalogItem (item : CatalogItem) (p : Pass σ) :
    Step.Moves (Frank h ∅) (makeCatalogItem t h item) p := frank_makeShell (asks_newCatalogItem t item) p

theorem answered_of_makeCatalogItem (htypes : t.types.KeepsKinds) {item : CatalogItem}
    (hq : (makeCatalogItem t h item).on p = (.ok (), q)) : q.Answered (.catalogItem, item.id) :=
  answered_of_makeShell (asks_newCatalogItem t item) htypes hq

theorem frank_populateCatalogItem {item : CatalogItem} (ha : p.Answered (.catalogItem, item.id)) :
    Step.Moves (Frank h ∅) (populateCatalogItem h item) p := by
  refine .read_bind ?_
  rcases hg : p.scratch.get? .catalogItem item.id with _ | shell
  · exact frank_notFound ha hg
  · refine (frank_onPlane ((Plane.mute_reconstructItem shell item).notes p.plane)).bind fun populated q _ => ?_
    cases populated with
    | ok => exact .pure _ q
    | error e => exact frank_rebindFailed _ _ _ q

theorem frank_loadDefaultCatalog (p : Pass σ) : Step.Moves (Frank h ∅) (loadDefaultCatalog t) p := by
  unfold loadDefaultCatalog
  split
  · exact .stop _ p
  · exact frank_update ((mute_fillCatalog _).notes p.plane) rfl rfl

theorem frank_rebuildCatalog (htypes : t.types.KeepsKinds) (manifest : Manifest) (p : Pass σ) :
    Step.Moves (Frank h ∅) (rebuildCatalog t h manifest) p := by
  refine (frank_enter 2 p).bind fun _ p _ => ?_
  split
  · exact frank_logCourse _ p
  · refine (frank_logCourse _ p).bind fun _ p _ => ?_
    refine (Step.Moves.forEach (fun item _ => frank_makeCatalogItem item) p).bind fun _ q hq => ?_
    have hmade := answered_of_forEach frank_makeCatalogItem (fun _ _ _ => answered_of_makeCatalogItem htypes) hq
    refine (frank_logCourse _ q).bind fun _ r hr => ?_
    have hkept := (frank_logCourse (h := h) (G := ∅) _ q).to hr
    refine (frank_forEach (x := fun item => (.catalogItem, item.id)) (fun _ _ => Set.notMem_empty _)
      (fun item _ p ha => frank_populateCatalogItem ha)
      fun item hi => hkept.answered _ (Set.notMem_empty _) (hmade item hi)).bind fun _ p _ => .read_bind ?_
    split
    · exact (frank_logCourse _ p).bind fun _ p _ => frank_update rfl rfl rfl
    · exact (frank_logCourse _ p).bind fun _ p _ => frank_loadDefaultCatalog p

theorem frank_makeLocation (e : String × String) (p : Pass σ) : Step.Moves (Frank h ∅) (makeLocation t h e) p :=
  frank_makeShell (asks_newLocation t e) p

theorem answered_of_makeLocation (htypes : t.types.KeepsKinds) {e : String × String}
    (hq : (makeLocation t h e).on p = (.ok (), q)) : q.Answered (.location, e.1) :=
  answered_of_makeShell (asks_newLocation t e) htypes hq

theorem frank_makeEntity (manifest : Manifest) (e : EntitySummary) (p : Pass σ) :
    Step.Moves (Frank h ∅) (makeEntity t h manifest e) p :=
  frank_makeShell (asks_newEntity t e fun p =>
    p.plane.provenance? t.types t.settings.inferCatalogItem manifest.entities e) p

theorem answered_of_makeEntity (htypes : t.types.KeepsKinds) {manifest : Manifest} {e : EntitySummary}
    (hq : (makeEntity t h manifest e).on p = (.ok (), q)) : q.Answered (.entity, e.id) :=
  answered_of_makeShell (asks_newEntity t e fun p =>
    p.plane.provenance? t.types t.settings.inferCatalogItem manifest.entities e) htypes hq

theorem frank_makeAdjunct (k : ObjectKind) (m : Memento) (p : Pass σ) :
    Step.Moves (Frank h ∅) (makeAdjunct t h k m) p := frank_makeShell (asks_newAdjunct t k m) p

theorem answered_of_makeAdjunct (htypes : t.types.KeepsKinds) {m : Memento}
    (hq : (makeAdjunct t h k m).on p = (.ok (), q)) : q.Answered (k, m.id) :=
  answered_of_makeShell (asks_newAdjunct t k m) htypes hq

theorem frank_makeLocationsAndEntities (manifest : Manifest) (p : Pass σ) :
    Step.Moves (Frank h ∅) (makeLocationsAndEntities t h manifest) p := by
  refine (frank_enter 3 p).bind fun _ p _ => (frank_logCourse _ p).bind fun _ p _ => ?_
  refine (Step.Moves.forEach (fun e _ => frank_makeLocation e) p).bind fun _ p _ => ?_
  exact (frank_logCourse _ p).bind fun _ p _ => Step.Moves.forEach (fun e _ => frank_makeEntity manifest e) p

/-- The locations and entities of the manifest have been tried. -/
theorem answered_of_makeLocationsAndEntities (htypes : t.types.KeepsKinds) {manifest : Manifest}
    (hq : (makeLocationsAndEntities t h manifest).on p = (.ok (), q)) :
    (∀ e ∈ manifest.locationTypes.entries, q.Answered (.location, e.1)) ∧
      ∀ e ∈ manifest.entities.values, q.Answered (.entity, e.id) := by
  obtain ⟨_, _, -, hq⟩ := Step.on_bind_eq_ok_iff.1 hq
  obtain ⟨_, _, -, hq⟩ := Step.on_bind_eq_ok_iff.1 hq
  obtain ⟨_, u, hlocations, hq⟩ := Step.on_bind_eq_ok_iff.1 hq
  obtain ⟨_, v, hlog, hentities⟩ := Step.on_bind_eq_ok_iff.1 hq
  have hrest := (Step.Moves.forEach (fun e _ => frank_makeEntity manifest e) v).to hentities
  refine ⟨fun e he => hrest.answered _ (Set.notMem_empty _) ?_, answered_of_forEach (frank_makeEntity manifest)
    (fun _ _ _ => answered_of_makeEntity htypes) hentities⟩
  refine ((frank_logCourse (h := h) _ u).to hlog).answered _ (Set.notMem_empty _) ?_
  exact answered_of_forEach frank_makeLocation (fun _ _ _ => answered_of_makeLocation htypes) hlocations e he

theorem frank_makeAdjunctsOf (snapshot : Snapshot) (k : ObjectKind) (p : Pass σ) :
    Step.Moves (Frank h ∅) (makeAdjunctsOf t h snapshot k) p := by
  unfold makeAdjunctsOf
  dsimp only
  split
  · exact frank_logCourse _ p
  · exact (frank_logCourse _ p).bind fun _ p _ => Step.Moves.forEach (fun m _ => frank_makeAdjunct k m) p

theorem frank_makeAdjuncts (snapshot : Snapshot) (p : Pass σ) :
    Step.Moves (Frank h ∅) (makeAdjuncts t h snapshot) p :=
  (frank_enter 5 p).bind fun _ p _ => Step.Moves.forEach (fun k _ => frank_makeAdjunctsOf snapshot k) p

/-- Those adjuncts have been tried that take part in persistence. -/
theorem answered_of_makeAdjuncts (htypes : t.types.KeepsKinds) {snapshot : Snapshot}
    (hq : (makeAdjuncts t h snapshot).on p = (.ok (), q)) (hk : k ∈ ObjectKind.adjuncts)
    (hon : t.settings.features.enabled k = true) : ∀ m ∈ (snapshot.ofKind k).values, q.Answered (k, m.id) := by
  obtain ⟨_, _, -, hq⟩ := Step.on_bind_eq_ok_iff.1 hq
  obtain ⟨_, after, u, v, -, -, hone, hrest⟩ := Step.exists_of_on_forEach hk hq
  unfold makeAdjunctsOf at hone
  simp only [hon] at hone
  obtain ⟨_, _, -, hone⟩ := Step.on_bind_eq_ok_iff.1 hone
  have hmoves : Step.Moves (Frank h ∅) (Step.forEach after (makeAdjunctsOf t h snapshot)) v :=
    Step.Moves.forEach (fun k _ => frank_makeAdjunctsOf snapshot k) v
  have hkept := hmoves.to hrest
  intro m hm
  refine hkept.answered _ (Set.notMem_empty _) ?_
  exact answered_of_forEach (frank_makeAdjunct k) (fun _ _ _ => answered_of_makeAdjunct htypes) hone m hm

/-! ## Populating and joining them -/

theorem frank_loadSnapshot (raw : RawData) (p : Pass σ) : Step.Moves (Frank h ∅) (loadSnapshot h raw) p :=
  (frank_enter 4 p).bind fun _ p _ => .read_bind
    ((Snapshot.moves_decode frank_loadFailed frank_dangling raw _ p).mapStop _)

/-- Populating takes away an adjunct at most, and its own. -/
theorem frank_reconstructOne {m : Memento} (ha : p.Answered (k, m.id)) :
    Step.Moves (Frank h {x | k.isAdjunct ∧ x = (k, m.id)}) (reconstructOne h k m) p := by
  refine .read_bind ?_
  rcases hg : p.scratch.get? k m.id with _ | shell
  · exact frank_notFound ha hg
  · refine (frank_onPlane ((Plane.mute_reconstruct shell _ _ m).notes p.plane)).bind fun populated q _ => ?_
    cases populated with
    | ok => exact .pure _ q
    | error e =>
      refine (frank_rebindFailed _ _ _ q).bind fun _ r _ => ?_
      split
      · next hk =>
        refine .of_update (.of_notes rfl rfl fun x hx hshell => ?_)
        have hget : (leave k m.id r).scratch.get? x.1 x.2 = _ := Scratch.get?_unregister r.scratch k m.id x.1 x.2
        rw [Scratch.contains_eq_isSome, hget, if_neg fun he => hx ⟨hk, Prod.ext he.1.symm he.2.symm⟩]
        exact hshell
      · exact .pure _ r

/-- Locations and entities stay even if they cannot be populated. -/
theorem frank_reconstructs (hk : k.isAdjunct = false) {mementos : List Memento}
    (hp : ∀ m ∈ mementos, p.Answered (k, m.id)) :
    Step.Moves (Frank h ∅) (Step.forEach mementos (reconstructOne h k)) p := by
  refine frank_forEach (x := fun m => (k, m.id)) (fun _ _ => Set.notMem_empty _) (fun m _ p ha => ?_) hp
  refine (frank_reconstructOne ha).imp fun _ hq => hq.mono fun x hx => ?_
  rw [hk] at hx
  exact absurd hx.1 Bool.false_ne_true

theorem frank_reconstructAdjuncts (hp : t.settings.features.enabled k = true →
      ∀ m ∈ (t.source.snapshot.ofKind k).values, p.Answered (k, m.id)) :
    Step.Moves (Frank h {x | x.1 = k}) (reconstructAdjuncts t h t.source.snapshot k) p := by
  unfold reconstructAdjuncts
  split
  · next hon =>
    refine (frank_logCourse _ p).bind fun _ q hq => ?_
    have hkept := (frank_logCourse (h := h) (G := ∅) _ p).to hq
    -- an adjunct that leaves takes no other with it, since ids differ
    have hids : ((t.source.snapshot.ofKind k).values.map Memento.id).Nodup := by
      rw [show t.source.snapshot = t.source.payloads.snapshot from rfl, RawData.ids_snapshot]
      exact OrderedMap.keys_nodup _
    refine frank_forEach_apart (f := fun m => {(k, m.id)}) (g := fun m => {x | k.isAdjunct ∧ x = (k, m.id)})
      ((List.pairwise_map.1 hids).imp fun hne => ?_) (fun m _ x hx => congrArg Prod.fst hx.2)
      (fun m _ p ha => frank_reconstructOne (ha _ rfl)) fun m hm x hx => ?_
    · refine Set.disjoint_singleton_right.2 fun hmem => hne ?_
      exact (Prod.mk.inj hmem.2).2.symm
    · rw [Set.mem_singleton_iff.1 hx]
      exact hkept.answered _ (Set.notMem_empty _) (hp hon m hm)
  · exact .pure _ p

/-- Everything is populated, as far as it has been answered. -/
theorem frank_reconstructAll (hlocations : ∀ m ∈ t.source.snapshot.locations.values, p.Answered (.location, m.id))
    (hentities : ∀ m ∈ t.source.snapshot.entities.values, p.Answered (.entity, m.id))
    (hadjuncts : ∀ k ∈ ObjectKind.adjuncts, t.settings.features.enabled k = true →
      ∀ m ∈ (t.source.snapshot.ofKind k).values, p.Answered (k, m.id)) :
    Step.Moves (Frank h {x | x.1.isAdjunct}) (reconstructAll t h t.source.snapshot) p := by
  have hnone : ∀ {x : PassStep σ Unit} {p : Pass σ}, Step.Moves (Frank h ∅) x p →
      Step.Moves (Frank h {x | x.1.isAdjunct}) x p := fun hx => hx.imp fun _ hq => hq.mono (Set.empty_subset _)
  have hkeep : ∀ {x : PassStep σ Unit} {p q : Pass σ}, Step.Moves (Frank h ∅) x p → x.on p = (.ok (), q) →
      ∀ {x}, p.Answered x → q.Answered x := fun hx hq => (hx.to hq).answered _ (Set.notMem_empty _)
  refine (frank_enter 6 p).bind fun _ p₁ h₁ => (frank_logCourse _ p₁).bind fun _ p₂ h₂ => ?_
  have hstart : ∀ {x}, p.Answered x → p₂.Answered x := fun hx =>
    hkeep (frank_logCourse _ p₁) h₂ (hkeep (frank_enter 6 p) h₁ hx)
  have hone : Step.Moves (Frank h ∅) (Step.forEach (sortParentFirst t.source.snapshot.locations)
      (reconstructOne h .location)) p₂ :=
    frank_reconstructs rfl fun m hm => hstart (hlocations m (mem_of_mem_sortParentFirst hm))
  refine (hnone hone).bind fun _ p₃ h₃ => ?_
  have htwo : Step.Moves (Frank h {x | x.1.isAdjunct})
      (Step.forEach ObjectKind.adjuncts (reconstructAdjuncts t h t.source.snapshot)) p₃ := by
    refine frank_forEach_apart (g := fun k => {x | x.1 = k})
      (f := fun k => {x | t.settings.features.enabled k = true ∧
        ∃ m ∈ (t.source.snapshot.ofKind k).values, x = (k, m.id)})
      ((show ObjectKind.adjuncts.Nodup by decide).imp fun hne => Set.disjoint_left.2 ?_)
      (fun k hk x hx => ?_) (fun k _ p hp => frank_reconstructAdjuncts fun hon m hm => hp _ ⟨hon, m, hm, rfl⟩) ?_
    · rintro x rfl ⟨-, m, -, he⟩
      exact hne (congrArg Prod.fst he)
    · obtain rfl : x.1 = k := hx
      exact (ObjectKind.mem_adjuncts_iff _).1 hk
    · rintro k hk x ⟨hon, m, hm, rfl⟩
      exact hkeep hone h₃ (hstart (hadjuncts k hk hon m hm))
  refine htwo.bind fun _ p₄ h₄ => (frank_logCourse _ p₄).bind fun _ p₅ h₅ => ?_
  refine hnone (frank_reconstructs rfl fun m hm => ?_)
  refine hkeep (frank_logCourse _ p₄) h₅ ((htwo.to h₄).answered _ Bool.false_ne_true ?_)
  exact hkeep hone h₃ (hstart (hentities m (mem_of_mem_sortParentFirst hm)))

theorem frank_attachOne (entity : Handle) (k : ObjectKind) (id : String) (p : Pass σ) :
    Step.Moves (Frank h ∅) (attachOne h entity k id) p := by
  refine .read_bind ?_
  rcases p.scratch.get? k id with _ | adjunct
  · exact .mapStop _ (frank_dangling k id p)
  · refine (frank_onPlane ((Plane.mute_addAdjunct k adjunct entity).notes p.plane)).bind fun attached q _ => ?_
    cases attached with
    | ok => exact .pure _ q
    | error e => exact frank_rebindFailed _ _ _ q

theorem frank_attachAllOf {m : Memento} (ha : p.Answered (.entity, m.id)) :
    Step.Moves (Frank h ∅) (attachAllOf t h m) p := by
  refine .read_bind ?_
  rcases hg : p.scratch.get? .entity m.id with _ | entity
  · exact frank_notFound ha hg
  · refine Step.Moves.forEach (fun k _ p => ?_) p
    unfold attachKind
    split
    · exact Step.Moves.forEach (fun id _ => frank_attachOne entity k id) p
    · exact .pure _ p

theorem frank_attachAdjuncts {snapshot : Snapshot} (hp : ∀ m ∈ snapshot.entities.values, p.Answered (.entity, m.id)) :
    Step.Moves (Frank h ∅) (attachAdjuncts t h snapshot) p := by
  refine (frank_enter 7 p).bind fun _ p₁ h₁ => (frank_logCourse _ p₁).bind fun _ p₂ h₂ => ?_
  refine frank_forEach (x := fun m => (.entity, m.id)) (fun _ _ => Set.notMem_empty _)
    (fun m _ p ha => frank_attachAllOf ha) fun m hm => ?_
  refine ((frank_logCourse (h := h) _ p₁).to h₂).answered _ (Set.notMem_empty _) ?_
  exact ((frank_enter (h := h) 7 p).to h₁).answered _ (Set.notMem_empty _) (hp m (mem_of_mem_sortParentFirst hm))

/-! ## Managing them -/

theorem notes_noteTransitions (shells : List Handle) (p : Pass σ) :
    (shells.foldl (fun p s => noteTransition t k s p) p).plane.notes = p.plane.notes ∧
      (shells.foldl (fun p s => noteTransition t k s p) p).handler = p.handler ∧
      (shells.foldl (fun p s => noteTransition t k s p) p).scratch = p.scratch := by
  refine List.foldlRecOn (motive := fun q : Pass σ =>
    q.plane.notes = p.plane.notes ∧ q.handler = p.handler ∧ q.scratch = p.scratch) shells _ ⟨rfl, rfl, rfl⟩ ?_
  exact fun q hq s _ => ⟨(Plane.notes_setRegistry _ _ _).trans hq.1, hq.2⟩

theorem frank_noteTransitions (k : ObjectKind) (p : Pass σ) : Step.Moves (Frank h ∅) (noteTransitions t k) p := by
  obtain ⟨hnotes, hhandler, hscratch⟩ := notes_noteTransitions (t := t) (k := k) (p.scratch.shells k) p
  exact .of_total (.of_notes hnotes hhandler fun x _ hx =>
    (congrArg (fun s : Scratch => s.contains x.1 x.2) hscratch).trans hx)

theorem frank_manageRoot (k : ObjectKind) (children : OrderedMap String (List Handle)) (root : Handle) (p : Pass σ) :
    Step.Moves (Frank h ∅) (manageRoot h k children root) p := by
  refine (frank_onPlane ((Plane.mute_manageTree k root children).notes p.plane)).bind fun managed q _ => ?_
  cases managed with
  | ok => exact .pure _ q
  | error e => exact (frank_manageFailed _ _ _ q).bind fun _ q _ => .pure _ q

theorem frank_manageRoots (k : ObjectKind) (children : OrderedMap String (List Handle)) (roots : List Handle)
    (p : Pass σ) : Step.Moves (Frank h ∅) (manageRoots h k children roots) p :=
  Step.Moves.forEach (fun root _ p => (frank_manageRoot k children root p).bind fun _ q _ => .pure _ q) p

theorem frank_manageApplications (children : OrderedMap String (List Handle)) {ids : List String}
    (hp : ∀ id ∈ ids, p.Answered (.entity, id)) :
    Step.Moves (Frank h ∅) (manageApplications h children ids) p := by
  induction ids generalizing p with
  | nil => exact .pure _ p
  | cons id ids ih =>
    have hlater : ∀ {q}, Frank h ∅ p q → ∀ id ∈ ids, q.Answered (.entity, id) := fun hpq id hid =>
      hpq.answered _ (Set.notMem_empty _) (hp id (List.mem_cons_of_mem _ hid))
    refine .read_bind ?_
    rcases hg : p.scratch.get? .entity id with _ | entity
    · have hone := frank_notFound (h := h) (G := ∅) (hp id List.mem_cons_self) hg
      exact hone.bind fun _ q hq => ih (hlater (hone.to hq))
    · have hone := frank_manageRoot (h := h) .entity children entity p
      exact hone.bind fun _ q hq => (ih (hlater (hone.to hq))).bind fun _ q _ => .pure _ q

theorem frank_destroyUnused (k : ObjectKind) (ids : List String) (p : Pass σ) :
    Step.Moves (Frank h ∅) (destroyUnused t k ids) p := by
  unfold destroyUnused
  split
  · refine .read_bind ((frank_log _ _ p).bind fun _ q _ => frank_update ?_ rfl rfl)
    exact (mute_dropAll k ids).notes q.plane
  · exact .pure _ p

theorem frank_manageLocations (p : Pass σ) : Step.Moves (Frank h ∅) (manageLocations t h) p := by
  refine (frank_logCourse _ p).bind fun _ p _ => (frank_noteTransitions _ p).bind fun old p _ => ?_
  refine .read_bind (.read_bind ?_)
  exact (frank_manageRoots _ _ _ p).bind fun _ p _ => frank_destroyUnused _ _ p

theorem frank_manageAll {snapshot : Snapshot} (hp : ∀ id ∈ snapshot.applicationIds, p.Answered (.entity, id)) :
    Step.Moves (Frank h ∅) (manageAll t h snapshot) p := by
  have hkeep : ∀ {x : PassStep σ Unit} {p q : Pass σ}, Step.Moves (Frank h ∅) x p → x.on p = (.ok (), q) →
      ∀ {x}, p.Answered x → q.Answered x := fun hx hq => (hx.to hq).answered _ (Set.notMem_empty _)
  refine (frank_enter 8 p).bind fun _ p₁ h₁ => (frank_manageLocations p₁).bind fun _ p₂ h₂ => ?_
  refine Step.Moves.bind ?_ fun applications q _ => (frank_update rfl rfl rfl).bind fun _ q _ => .pure _ q
  refine (frank_logCourse _ p₂).bind fun _ p₃ h₃ => (frank_noteTransitions _ p₃).bind fun old p₄ h₄ => ?_
  refine .read_bind (.read_bind ((frank_manageApplications _ fun id hid => ?_).bind fun applications p _ => ?_))
  · have hthere := hkeep (frank_manageLocations p₁) h₂ (hkeep (frank_enter 8 p) h₁ (hp id hid))
    refine ((frank_noteTransitions (h := h) _ p₃).to h₄).answered _ (Set.notMem_empty _) ?_
    exact hkeep (frank_logCourse _ p₂) h₃ hthere
  · refine (frank_manageRoots _ _ _ p).bind fun _ p _ => ?_
    exact (frank_destroyUnused _ _ p).bind fun _ p _ => .pure _ p

theorem frank_finish (snapshot : Snapshot) (applications : List Handle) (p : Pass σ) :
    Step.Moves (Frank h ∅) (finish t snapshot applications) p := by
  refine .read_bind ?_
  split
  · exact Step.Moves.bind (.read_bind (frank_log _ _ p)) fun _ q _ => frank_logCourse _ q
  · exact frank_logCourse _ p

/-! ## The whole pass -/

/-- Once the locations and entities of the manifest have been tried, those of the snapshot are answered. -/
theorem answered_snapshot (htypes : t.types.KeepsKinds) (hs : t.source.HoldsObjects)
    (hq : (makeLocationsAndEntities t h t.source.payloads.manifest).on p = (.ok (), q)) :
    (∀ m ∈ t.source.snapshot.locations.values, q.Answered (.location, m.id)) ∧
      ∀ m ∈ t.source.snapshot.entities.values, q.Answered (.entity, m.id) := by
  obtain ⟨hlocations, hentities⟩ := answered_of_makeLocationsAndEntities htypes hq
  refine ⟨fun m hm => ?_, fun m hm => ?_⟩ <;> obtain ⟨id, hget⟩ := OrderedMap.mem_values_iff.1 hm
  · rw [t.source.payloads.id_of_get?_snapshot (k := .location) hget]
    exact hlocations _ (OrderedMap.get?_eq_some_iff.1 (hs.get?_locationTypes hget))
  · exact hentities _ (OrderedMap.mem_values_iff.2 ⟨id, hs.get?_entities hget⟩)

/-- A pass over a store of JSON objects, with types that make objects of the kind they declare, is frank throughout. -/
theorem frank_phases (htypes : t.types.KeepsKinds) (hs : t.source.HoldsObjects) (p : Pass σ) :
    Step.Moves (Frank h {x | x.1.isAdjunct}) (phases t h) p := by
  have hnone : ∀ {α : Type} {x : PassStep σ α} {p : Pass σ}, Step.Moves (Frank h ∅) x p →
      Step.Moves (Frank h {x | x.1.isAdjunct}) x p := fun hx => hx.imp fun _ hq => hq.mono (Set.empty_subset _)
  have hkeep : ∀ {α : Type} {x : PassStep σ α} {p q : Pass σ} {a}, Step.Moves (Frank h ∅) x p → x.on p = (.ok a, q) →
      ∀ {x}, p.Answered x → q.Answered x := fun hx hq => (hx.to hq).answered _ (Set.notMem_empty _)
  refine (hnone (frank_loadManifest p)).bind fun (raw, manifest) p₁ h₁ => ?_
  obtain rfl := eq_payloads_of_loadManifest t h h₁
  obtain rfl := eq_manifest_of_loadManifest h₁
  refine (hnone (frank_rebuildCatalog htypes _ p₁)).bind fun _ p₂ _ => ?_
  refine (hnone (frank_makeLocationsAndEntities _ p₂)).bind fun _ p₃ h₃ => ?_
  obtain ⟨hlocations, hentities⟩ := answered_snapshot htypes hs h₃
  refine (hnone (frank_loadSnapshot _ p₃)).bind fun snapshot p₄ h₄ => ?_
  obtain rfl := eq_snapshot_of_loadSnapshot h h₄
  refine (hnone (frank_makeAdjuncts _ p₄)).bind fun _ p₅ h₅ => ?_
  have hmade : ∀ {x}, p₃.Answered x → p₅.Answered x := fun hx =>
    hkeep (frank_makeAdjuncts _ p₄) h₅ (hkeep (frank_loadSnapshot _ p₃) h₄ hx)
  have hpopulate := frank_reconstructAll (h := h) (fun m hm => hmade (hlocations m hm))
    (fun m hm => hmade (hentities m hm)) fun k hk hon => answered_of_makeAdjuncts htypes h₅ hk hon
  refine hpopulate.bind fun _ p₆ h₆ => ?_
  have hthere : ∀ m ∈ t.source.snapshot.entities.values, p₆.Answered (.entity, m.id) := fun m hm =>
    (hpopulate.to h₆).answered _ Bool.false_ne_true (hmade (hentities m hm))
  have hattach := frank_attachAdjuncts (t := t) (h := h) hthere
  refine (hnone hattach).bind fun _ p₇ h₇ => ?_
  have hmanage : Step.Moves (Frank h ∅) (manageAll t h t.source.payloads.snapshot) p₇ := by
    refine frank_manageAll fun id hid => ?_
    obtain ⟨m, hm, rfl⟩ := List.mem_map.1 hid
    exact hkeep hattach h₇ (hthere m (List.mem_filter.1 hm).1)
  refine (hnone hmanage).bind fun applications p₈ _ => ?_
  exact (hnone (frank_finish _ applications p₈)).bind fun _ p _ => .pure _ p

theorem frank_verdict (htypes : t.types.KeepsKinds) (hs : t.source.HoldsObjects) (p : Pass σ) :
    Step.Moves (Frank h {x | x.1.isAdjunct}) (verdict t h) p :=
  (frank_phases htypes hs p).bind fun _ _ _ => (frank_problem rfl rfl fun _ => rfl).bind fun _ p _ => .pure _ p

end Pass

end ManagementPlane
