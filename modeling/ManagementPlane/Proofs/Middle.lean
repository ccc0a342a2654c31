import ManagementPlane.Proofs.Reordering
import ManagementPlane.Proofs.Treatments

/-!
# The order of the store in the middle phases

* `Treatment.Apart` : treatments of different shells;
* `Pass.makings_perm`, `Pass.adjunctMakings_perm`, `Pass.populatings_perm` : over stores that list the same payloads in
  another order the same shells are treated, in another order;
* `Pass.middle`, `Pass.middle_eq` : so what a pass shows behind phase 6 does not depend on the order.
-/

namespace ManagementPlane

variable {σ : Type}

/-! ## Treatments of different shells -/

namespace Treatment

variable {l l' : List Treatment}

/-- No two of the treatments concern the same shell. -/
def Apart (l : List Treatment) : Prop := (l.map key).Nodup

theorem Apart.append (h : Apart l) (h' : Apart l') (hk : ∀ x ∈ l, ∀ y ∈ l', x.key.1 ≠ y.key.1) : Apart (l ++ l') := by
  unfold Apart
  rw [List.map_append]
  refine List.nodup_append.2 ⟨h, h', ?_⟩
  rintro z hz _ hz' rfl
  obtain ⟨x, hx, hxz⟩ := List.mem_map.1 hz
  obtain ⟨y, hy, hyz⟩ := List.mem_map.1 hz'
  exact hk x hx y hy (congrArg Prod.fst (hxz.trans hyz.symm))

/-- Treatments of shells that are told apart by kind, and by id among those of one kind. -/
theorem apart_flatMap {f : ObjectKind → List Treatment} (hf : ∀ k, Apart (f k)) (hk : ∀ k, ∀ x ∈ f k, x.key.1 = k)
    {kinds : List ObjectKind} (hnd : kinds.Nodup) : Apart (kinds.flatMap f) := by
  induction kinds with
  | nil => exact List.nodup_nil
  | cons k kinds ih =>
    obtain ⟨hnot, hnd⟩ := List.nodup_cons.1 hnd
    rw [List.flatMap_cons]
    refine (hf k).append (ih hnd) fun x hx y hy he => ?_
    obtain ⟨j, hj, hy⟩ := List.mem_flatMap.1 hy
    rw [hk k x hx, hk j y hy] at he
    exact hnot (he ▸ hj)

/-- Treatments of one kind of the objects in a list, which have different ids. -/
theorem apart_map {α : Type} {items : List α} {k : ObjectKind} {id : α → String} {f : α → Treatment}
    (hf : ∀ a, (f a).key = (k, id a)) (hnd : (items.map id).Nodup) : Apart (items.map f) := by
  unfold Apart
  have hkeys : (items.map f).map key = (items.map id).map (k, ·) := by
    rw [List.map_map, List.map_map]
    exact List.map_congr_left fun a _ => hf a
  rw [hkeys]
  exact hnd.map fun _ _ he => (Prod.mk.inj he).2

end Treatment

/-- The task with another store. -/
abbrev Task.reading (t : Task) (source : Source) : Task := { t with source }

namespace Pass

variable {t : Task} {b b' : Pass σ} {raw raw' : RawData} {k : ObjectKind} {id type : String}

/-! ## The same ground -/

/-- The same shells in live managers that differ only in what is on record. -/
structure SameGround (b b' : Pass σ) : Prop where
  scratch : b'.scratch = b.scratch
  plane : b'.plane.forgetTrace = b.plane.forgetTrace

theorem SameGround.resolves (hb : SameGround b b') : b'.resolves = b.resolves := by
  have hitem : ∀ id, b'.scratch.item? b'.plane.forgetTrace id = b.scratch.item? b.plane.forgetTrace id := fun id => by
    rw [hb.scratch, hb.plane]
  have hregistry : ∀ k, b'.plane.forgetTrace.registry k = b.plane.forgetTrace.registry k := fun k => by rw [hb.plane]
  funext v k id
  cases k with
  | entity => exact congrArg (fun r : Registry => (v.shelf (.entity, id)).isSome || (r.get? id).isSome) (hregistry .entity)
  | location =>
    exact congrArg (fun r : Registry => (v.shelf (.location, id)).isSome || (r.get? id).isSome) (hregistry .location)
  | catalogItem => exact congrArg Option.isSome (hitem id)
  | policy | enricher | feed => rfl

theorem SameGround.making (hb : SameGround b b') (source : Source) (k : ObjectKind) (id type : String)
    (item : Option String) : making (t.reading source) b' k id type item = making t b k id type item := by
  have hload : (instantiator t b').load b'.plane.forgetTrace k type item =
      (instantiator t b).load b.plane.forgetTrace k type item := by
    unfold instantiator
    rw [hb.scratch, hb.plane]
  have hreadOnly : b'.scratch.allReadOnly = b.scratch.allReadOnly := by rw [hb.scratch]
  unfold Pass.making
  rw [hreadOnly]
  exact congrArg (Treatment.making k id type item _) hload

theorem SameGround.makingEntity (hb : SameGround b b') (h : raw.Reordered raw') (source : Source) (e : EntitySummary) :
    makingEntity (t.reading source) b' raw'.manifest e = makingEntity t b raw.manifest e := by
  have hitem : b'.plane.forgetTrace.provenance? t.types t.settings.inferCatalogItem raw'.manifest.entities e =
      b.plane.forgetTrace.provenance? t.types t.settings.inferCatalogItem raw.manifest.entities e := by
    unfold Plane.provenance?
    rw [hb.plane, ancestry_congr h.entities]
  exact (hb.making source _ _ _ _).trans (congrArg (Pass.making t b .entity e.id e.type) hitem)

/-! ## The same shells are treated -/

theorem makings_perm (hb : SameGround b b') (h : raw.Reordered raw') (source : Source) :
    (makings t b raw.manifest).Perm (makings (t.reading source) b' raw'.manifest) := by
  have hlocation : makingLocation (t.reading source) b' = makingLocation t b := funext fun e => hb.making source _ _ _ _
  have hentity : makingEntity (t.reading source) b' raw'.manifest = makingEntity t b raw.manifest :=
    funext (hb.makingEntity h source)
  unfold makings
  rw [hlocation, hentity]
  exact (h.locationTypes.map _).append ((h.entities.map Prod.snd).map _)

theorem adjunctMakings_perm (hb : SameGround b b') (h : raw.Reordered raw') (source : Source) :
    (adjunctMakings t b raw.snapshot).Perm (adjunctMakings (t.reading source) b' raw'.snapshot) := by
  refine .flatMap (.refl _) fun k _ => ?_
  have hadjunct : makingAdjunct (t.reading source) b' k = makingAdjunct t b k := funext fun m => hb.making source _ _ _ _
  rw [hadjunct]
  split
  · exact (h.values k).map _
  · exact .refl _

theorem populatings_perm (h : raw.Reordered raw') (source : Source) (known : ObjectKind → String → Bool) :
    (populatings t raw.snapshot known).Perm (populatings (t.reading source) raw'.snapshot known) := by
  refine .append (.append ((h.sortParentFirst .location).map _) (.flatMap (.refl _) fun k _ => ?_))
    ((h.sortParentFirst .entity).map _)
  split
  · exact (h.values k).map _
  · exact .refl _

theorem apart_makings (raw : RawData) : Treatment.Apart (makings t b raw.manifest) := by
  have hlocations : (raw.manifest.locationTypes.entries.map Prod.fst).Nodup := raw.manifest.locationTypes.nodup
  have hentities : (raw.manifest.entities.values.map EntitySummary.id).Nodup := by
    rw [RawData.manifest, map_declared_decodeTable]
    exact OrderedMap.keys_nodup _
  have hlocation : ∀ e, (makingLocation t b e).key = (.location, e.1) := fun _ => rfl
  have hentity : ∀ e, (makingEntity t b raw.manifest e).key = (.entity, e.id) := fun _ => rfl
  refine (Treatment.apart_map hlocation hlocations).append (Treatment.apart_map hentity hentities) ?_
  intro x hx y hy
  obtain ⟨_, -, rfl⟩ := List.mem_map.1 hx
  obtain ⟨_, -, rfl⟩ := List.mem_map.1 hy
  exact nofun

theorem nodup_ids (raw : RawData) (k : ObjectKind) : ((raw.snapshot.ofKind k).values.map Memento.id).Nodup := by
  rw [raw.ids_snapshot]
  exact OrderedMap.keys_nodup _

/-- Adjuncts of all kinds, each of them treated once. -/
theorem apart_adjuncts (raw : RawData) {f : ObjectKind → Memento → Treatment} (hf : ∀ k m, (f k m).key = (k, m.id)) :
    Treatment.Apart (ObjectKind.adjuncts.flatMap fun k =>
      if t.settings.features.enabled k then (raw.snapshot.ofKind k).values.map (f k) else []) := by
  refine Treatment.apart_flatMap (fun k => ?_) (fun k x hx => ?_) (by decide)
  · split
    · exact Treatment.apart_map (hf k) (nodup_ids raw k)
    · exact List.nodup_nil
  · split at hx
    · obtain ⟨m, -, rfl⟩ := List.mem_map.1 hx
      rw [hf]
    · cases hx

theorem apart_populatings (raw : RawData) (known : ObjectKind → String → Bool) :
    Treatment.Apart (populatings t raw.snapshot known) := by
  have hsorted : ∀ k, Treatment.Apart ((sortParentFirst (raw.snapshot.ofKind k)).map (.populating known k)) := fun k =>
    Treatment.apart_map (fun _ => rfl) (nodup_sortParentFirst _)
  have hkind : ∀ k, ∀ x ∈ (sortParentFirst (raw.snapshot.ofKind k)).map (Treatment.populating known k), x.key.1 = k := by
    intro k x hx
    obtain ⟨m, -, rfl⟩ := List.mem_map.1 hx
    rfl
  have hadjunct : ∀ x ∈ ObjectKind.adjuncts.flatMap (fun k => if t.settings.features.enabled k then
      (raw.snapshot.ofKind k).values.map (Treatment.populating known k) else []), x.key.1.isAdjunct = true := by
    intro x hx
    obtain ⟨k, hk, hx⟩ := List.mem_flatMap.1 hx
    split at hx
    · obtain ⟨m, -, rfl⟩ := List.mem_map.1 hx
      exact (ObjectKind.mem_adjuncts_iff k).1 hk
    · cases hx
  refine ((hsorted .location).append (apart_adjuncts raw fun _ _ => rfl) ?_).append (hsorted .entity) ?_
  · intro x hx y hy he
    have hy := hadjunct y hy
    rw [← he, hkind .location x hx] at hy
    cases hy
  · intro x hx y hy he
    rw [hkind .entity y hy] at he
    rcases List.mem_append.1 hx with hx | hx
    · rw [hkind .location x hx] at he
      cases he
    · have hx := hadjunct x hx
      rw [he] at hx
      cases hx

/-! ## The middle phases -/

/-- What a pass shows behind phase 6 if it shows `v` when its catalog is rebuilt. -/
def middle (t : Task) (b : Pass σ) (raw : RawData) (v : Showing) : Showing :=
  let v₃ := v.treatAll (makings t b raw.manifest)
  let v₄ := v₃.hear (raw.snapshotNotes ++ raw.snapshot.danglingNotes (b.resolves v₃))
  let v₅ := v₄.treatAll (adjunctMakings t b raw.snapshot)
  v₅.treatAll (populatings t raw.snapshot (b.resolves v₅))

/-- It does not depend on the order of the store. -/
theorem middle_eq (hb : SameGround b b') (h : raw.Reordered raw') (source : Source) (v : Showing) :
    middle (t.reading source) b' raw' v = middle t b raw v := by
  unfold middle
  dsimp only
  rw [hb.resolves, ← Showing.treatAll_perm (makings_perm hb h source) (apart_makings raw),
    ← Showing.hear_perm (h.snapshotNotes.append (h.danglingNotes _)),
    ← Showing.treatAll_perm (adjunctMakings_perm hb h source) (apart_adjuncts raw fun _ _ => rfl),
    ← Showing.treatAll_perm (populatings_perm h source _) (apart_populatings raw _)]

end Pass

end ManagementPlane
