import ManagementPlane.Proofs.Middle
import ManagementPlane.Proofs.Ownership
import ManagementPlane.Proofs.Takeover

/-!
# The order of the store in the first phases

* `TypeRegistry.IsStock.keepsKinds`, … : what stock types make;
* `Pass.ends_loadManifest_hears` : the first phase tells of what cannot be read, and notes whether there is anything;
* `Pass.SameStart` : passes that have read stores which list the same payloads in another order;
* `Pass.SameStart.rebuildCatalog` : they rebuild the same catalog, and stand on the same ground;
* `Pass.grounded_of_rebuildCatalog` : which has shells of catalog items only.
-/

namespace ManagementPlane

variable {σ : Type}

/-! ## Stock types -/

namespace TypeRegistry.IsStock

variable {r : TypeRegistry}

theorem keepsKinds (hr : r.IsStock) : r.KeepsKinds := by
  intro d hd o hmakes
  obtain ⟨name, k, rfl⟩ := hr d hd
  obtain ⟨id, rfl⟩ := hmakes.exists_blank
  exact Object.kind_blank k _ _

theorem makesLoose (hr : r.IsStock) : r.MakesLoose := by
  intro d hd
  obtain ⟨name, k, rfl⟩ := hr d hd
  exact TypeDescriptor.makesLoose_stock name k

theorem makesIsolated (hr : r.IsStock) : r.MakesIsolated := by
  intro d hd
  obtain ⟨name, k, rfl⟩ := hr d hd
  exact TypeDescriptor.makesIsolated_stock name k

end TypeRegistry.IsStock

namespace Pass

variable {t : Task} {h : Handler σ} {n : Nat} {p q p' q' : Pass σ} {raw raw' : RawData}

/-! ## Reading the store -/

/-- The first phase tells of what cannot be read or decoded, and notes whether there is anything. -/
theorem ends_loadManifest_hears (ha : h.Accepting) {failures : List (ObjectKind × String × StoreError)}
    (hs : t.source.unreadable = .ok failures) (p : Pass σ) :
    Step.Ends (fun r q => r = (t.source.payloads, t.source.payloads.manifest) ∧
      ∃ q₀, Hears (Source.unreadableNotes failures ++ t.source.payloads.manifestNotes) { p with phase := 1 } q₀ ∧
        q = noteManifest t.source.payloads.manifest q₀) (loadManifest t h) p := by
  refine Step.Ends.bind (Q := fun _ q => Hears [] { p with phase := 1 } q) (.update (.refl _)) fun _ q hq => ?_
  refine (hears_logCourse _ hq).bind fun _ q hq => ?_
  refine ((hears_load ha hs hq).mapStop _).bind fun raw q ⟨hraw, hq⟩ => ?_
  subst hraw
  refine ((hears_decode_manifest ha _ hq).mapStop _).bind fun manifest q ⟨hmanifest, hq⟩ => ?_
  subst hmanifest
  exact Step.Ends.bind (Q := fun _ r => r = noteManifest t.source.payloads.manifest q) (.update rfl) fun _ _ hr =>
    .pure ⟨rfl, q, hq, hr⟩

/-- Passes that have read stores which list the same payloads in another order. -/
structure SameStart (p p' : Pass σ) : Prop where
  iteration : p'.toIteration = p.toIteration
  plane : p'.plane.forgetTrace = p.plane.forgetTrace
  notes : p.plane.notes.Perm p'.plane.notes

/-- What the first phase notes is the same. -/
theorem sameStart_of_loadManifest {source' : Source} (ha : h.Accepting) (hs : t.source.Reordered source')
    {raw raw' : RawData × Manifest} (hp : (loadManifest t h).on p = (.ok raw, q))
    (hp' : (loadManifest (t.reading source') h).on p = (.ok raw', q')) : SameStart q q' := by
  obtain ⟨failures, failures', hf, hf', hperm⟩ := hs.unreadable
  obtain ⟨_, _, hq, -, q₀, hheard, rfl⟩ := ends_loadManifest_hears (t := t) ha hf p
  obtain ⟨-, rfl⟩ := Prod.mk.inj (hp.symm.trans hq)
  obtain ⟨_, _, hq, -, q₀', hheard', rfl⟩ := ends_loadManifest_hears (t := t.reading source') ha hf' p
  obtain ⟨-, rfl⟩ := Prod.mk.inj (hp'.symm.trans hq)
  have hiteration : q₀'.toIteration = q₀.toIteration := hheard'.iteration.trans hheard.iteration.symm
  have hplane : q₀'.plane.forgetTrace = q₀.plane.forgetTrace := hheard'.plane.trans hheard.plane.symm
  refine ⟨?_, hplane, ?_⟩
  · have hnoted : ∀ (manifest : Manifest) (r : Pass σ), (noteManifest manifest r).toIteration =
        { r.toIteration with
          isEmpty := manifest.isEmpty
          overwritingMaster := !r.toIteration.mode.isHotProxy && (r.plane.forgetTrace.entities.hasPrimary
            r.plane.forgetTrace.heap || r.plane.forgetTrace.locations.hasPrimary r.plane.forgetTrace.heap) } :=
      fun _ _ => rfl
    rw [hnoted, hnoted, hiteration, hplane, hs.payloads.isEmpty]
  · show q₀.plane.notes.Perm q₀'.plane.notes
    rw [hheard.notes, hheard'.notes]
    refine .append_right _ ?_
    refine (List.reverse_perm _).trans (.trans ?_ (List.reverse_perm _).symm)
    exact (hperm.map _).append hs.payloads.manifestNotes

/-! ## The catalog -/

/-- They rebuild the same catalog, and come to stand on the same ground. -/
theorem SameStart.rebuildCatalog (hpp : SameStart p p') (ha : h.Accepting) (hraw : raw.Reordered raw') (source' : Source)
    (hp : (rebuildCatalog t h raw.manifest).on p = (.ok (), q))
    (hp' : (rebuildCatalog (t.reading source') h raw'.manifest).on p' = (.ok (), q')) :
    SameGround q q' ∧ q'.showing = q.showing := by
  have hmanifest : Pass.rebuildCatalog (t.reading source') h raw'.manifest = Pass.rebuildCatalog t h raw.manifest := by
    unfold Pass.rebuildCatalog Manifest.catalogItemIds
    rw [hraw.catalogItems]
    rfl
  have habreast : Abreast h h p p' p p' := by
    refine ⟨p.toIteration, p.plane.forgetTrace, rfl, ?_⟩
    rw [← hpp.iteration, ← hpp.plane]
    rfl
  have hagree := inStep_rebuildCatalog (t := t) ha ha raw.manifest p p' habreast
  rw [hmanifest] at hp'
  unfold Step.Agree at hagree
  rw [hp, hp'] at hagree
  obtain ⟨i, r, rfl, rfl⟩ := hagree.states
  refine ⟨⟨rfl, rfl⟩, Showing.ext rfl ?_⟩
  show ((r.onTop p'.plane.trace).notes : Multiset Notification) = (r.onTop p.plane.trace).notes
  unfold Plane.onTop Plane.notes
  rw [List.filterMap_append, List.filterMap_append]
  exact Multiset.coe_eq_coe.2 (hpp.notes.symm.append_left _)

/-- A pass has shells of catalog items only when its catalog is rebuilt, if it had none before. -/
theorem grounded_of_rebuildCatalog {m : Nat} (htypes : t.types.IsStock) (hnone : ∀ k id, p.scratch.contains k id = false)
    (htwin : p.Twin n m [] p') (hp : (Pass.rebuildCatalog t h raw.manifest).on p = (.ok (), q)) : q.Grounded n := by
  have hcourse := course_rebuildCatalog raw htwin.sound hp
  refine ⟨hcourse.sound, fun a ha => ?_, fun k id hk => ?_⟩
  · have hagree : Step.Agree (Twin n m []) Eq (Pass.rebuildCatalog t h raw.manifest)
        (Pass.rebuildCatalog (t.counting t.hotPasses) h raw.manifest) p p' :=
      htwin.rebuildCatalog htypes.makesIsolated.givesNone raw.manifest
    unfold Step.Agree at hagree
    rw [hp] at hagree
    refine ((List.forall₂_and_left (p := q.plane.heap.Valid) (R := fun _ _ => True) _ _).1
      (hagree.states.plane.catalog.values.imp fun a b hab => ⟨?_, trivial⟩)).1 a ha
    rcases hab with ⟨hold, -⟩ | ⟨hnew, -⟩
    · exact Nat.lt_of_lt_of_le hold hcourse.sound.size_le
    · exact hnew.2
  · refine Option.not_isSome_iff_eq_none.1 fun hc => ?_
    rcases hcourse.shells htypes.keepsKinds k id hc with hc | ⟨htried, -⟩
    · rw [hnone] at hc
      cases hc
    · obtain ⟨_, -, he⟩ := List.mem_map.1 htried
      exact hk (Prod.mk.inj he).1.symm

end Pass

end ManagementPlane
