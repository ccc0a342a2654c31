import ManagementPlane.Proofs.MinorCourses

/-!
# What becomes of the shells that a pass tries to make

* `Pass.course_makeShell` : a shell is made, or it is on record that it could not be;
* `Pass.course_rebuildCatalog`, `Pass.course_makeLocationsAndEntities`, `Pass.course_makeAdjuncts` : the phases that
  make shells;
* `Pass.attempts` : the shells that a pass tries to make, each once;
* `Pass.exists_phases_of_build` : the phases before the last, one after the other;
* `Pass.course_build` : the course of them all.
-/

namespace ManagementPlane

variable {σ : Type}

/-! ## Making shells -/

namespace Instantiator

theorem discreet_construct (k : ObjectKind) (d : TypeDescriptor) (id : String) (candidates : List ConstructorArgs)
    (p : Plane) : p.Discreet (construct k d id candidates p).2 := by
  unfold construct
  split
  · exact (Plane.Discreet.refl p).record ⟨rfl, rfl, rfl⟩
  · split
    · exact (Plane.Discreet.refl p).record ⟨rfl, rfl, rfl⟩
    · exact .refl p

theorem discreet_makeLoaded (k : ObjectKind) (d : Except ObjectError TypeDescriptor) (id : String)
    (item : Option String) (candidates : List ConstructorArgs) (p : Plane) :
    p.Discreet (makeLoaded k d id item candidates p).2 := by
  have hpre : ∀ (q : Plane) a, (q.preManage a).events = q.events := by
    intro q a
    unfold Plane.preManage
    dsimp only
    split <;> rfl
  cases d with
  | error e => exact .refl p
  | ok d =>
    have hc := discreet_construct k d id candidates p
    unfold makeLoaded
    dsimp only
    unfold make
    rcases hm : construct k d id candidates p with ⟨e | o, q⟩ <;> rw [hm] at hc
    · exact hc
    · exact hc.trans (.of_events_eq (hpre _ _))

end Instantiator

theorem Scratch.events_register (s : Scratch) (p : Plane) (h : Handle) : (s.register p h).2.events = p.events := by
  unfold Scratch.register
  split <;> rfl

theorem Scratch.adjuncts_register (s : Scratch) (p : Plane) (h a : Handle) (k : ObjectKind) :
    ((s.register p h).2.read a).adjuncts k = (p.read a).adjuncts k := by
  unfold Scratch.register
  split
  · exact p.adjuncts_modify h (fun _ => rfl) a k
  · rfl

namespace Pass

variable {t : Task} {h : Handler σ} {n : Nat} {p q r : Pass σ} {k : ObjectKind} {id type : String}
  {item : Option String} {candidates : List ConstructorArgs} {d : Except ObjectError TypeDescriptor}

/-- A shell that could not be made. -/
theorem course_fail (hs : p.scratch.Sound n p.plane) (hd : Instantiator.Asked t.types k id candidates d)
    {e e' : ObjectError} {plane : Plane}
    (hm : Instantiator.makeLoaded k d id item candidates p.plane = (.error e, plane)) (s : σ) :
    Course n t.types [(k, id)] p { ({ p with plane } : Pass σ).record (.notified (.createFailed k id type e')) with
      handler := s } := by
  have h₁ := building_of_turn (t := t) hs (.fail p hd hm)
  have h₂ := building_of_turn (t := t) h₁.sound
    (.hear { p with plane } (e := .notified (.createFailed k id type e')) ⟨fun _ => rfl, rfl⟩ s)
  have hmade := Instantiator.discreet_makeLoaded k d id item candidates p.plane
  rw [hm] at hmade
  obtain ⟨l, hevents, hl⟩ := hmade
  have hevents' : (plane.record (.notified (.createFailed k id type e'))).events =
      p.plane.events ++ (l ++ [.notified (.createFailed k id type e')]) := by
    rw [Plane.events_record, hevents, List.append_assoc]
  have hsince : (plane.record (.notified (.createFailed k id type e'))).since p.plane = _ :=
    Plane.since_of_events_eq hevents'
  refine ⟨h₁.trans h₂, hevents' ▸ List.prefix_append _ _, fun e he => ?_, ?_, fun _ x hx => ?_,
    fun _ _ _ hk => Or.inl hk, fun _ a b hab => Or.inl ?_⟩
  · change e ∈ (plane.record _).since p.plane at he
    rw [hsince] at he
    rcases List.mem_append.1 he with he | he
    · exact (hl e he).managed
    · exact List.mem_singleton.1 he ▸ rfl
  · show List.Sublist (((plane.record _).since p.plane).filterMap Event.createFailed?) [(k, id)]
    rw [hsince, List.filterMap_append, List.filterMap_eq_nil_iff.2 fun e he => (hl e he).created]
    exact List.Sublist.refl _
  · change x ∈ ((plane.record _).since p.plane).filterMap Event.treats? at hx
    rw [hsince, List.filterMap_append, List.filterMap_eq_nil_iff.2 fun e he => (hl e he).treated] at hx
    cases hx
  · change (plane.heap.read a).Holds b at hab
    rwa [Instantiator.read_of_makeLoaded_error hm] at hab

/-- A shell that has been made joins the pass. -/
theorem course_make (hs : p.scratch.Sound n p.plane) (hd : Instantiator.Asked t.types k id candidates d)
    {shell : Handle} {plane : Plane}
    (hm : Instantiator.makeLoaded k d id item candidates p.plane = (.ok shell, plane)) :
    Course n t.types [(k, id)] p (join shell { p with plane }) := by
  have hbuilding := building_of_turn (t := t) hs (.make p hd hm)
  have hmade := Instantiator.discreet_makeLoaded k d id item candidates p.plane
  rw [hm] at hmade
  have hjoined : p.plane.Discreet (join shell { p with plane }).plane :=
    hmade.trans (.of_events_eq (Scratch.events_register _ _ _))
  obtain ⟨d', o, hd', hmakes, rfl, hheap⟩ := Instantiator.heap_of_makeLoaded hd hm
  exact {
    building := hbuilding
    events := hjoined.grows
    unmanaged := fun e he => (hjoined.neutral e he).managed
    failures := by
      rw [hjoined.failuresSince]
      exact List.nil_sublist _
    treated := fun _ x hx => by
      rw [hjoined.treatedSince] at hx
      cases hx
    shells := fun htypes k' id' hk => by
      rw [Scratch.contains_eq_isSome, get?_join hheap] at hk
      split at hk
      · next he =>
        have hkind : o.kind = k := (htypes d' (hd.type d' hd').1 o hmakes).trans (hd.type d' hd').2
        refine Or.inr ⟨List.mem_singleton.2 ?_, hjoined.failuresSince ▸ List.not_mem_nil⟩
        rw [← he.1, ← he.2, hkind]
      · exact Or.inl hk
    holds := fun _ a b ⟨j, hj⟩ => by
      have hj' : b ∈ (plane.read a).adjuncts j := by
        rwa [← Scratch.adjuncts_register p.scratch plane p.plane.heap.next a j]
      rw [read_made hheap] at hj'
      split at hj'
      · exact Or.inr (Or.inl ⟨d', o, (hd.type d' hd').1, hmakes, j, hj'⟩)
      · exact Or.inl ⟨j, hj'⟩ }

/-- Trying to make a shell. -/
theorem course_makeShell {make : Pass σ → Plane → Except ObjectError Handle × Plane} (hmake : Asks t k id make)
    (hs : p.scratch.Sound n p.plane) {result : Except RebindError Unit}
    (hq : (makeShell h k id type make).on p = (result, q)) : Course n t.types [(k, id)] p q := by
  obtain ⟨item, candidates, d, hd, hmade⟩ := hmake p
  unfold makeShell onPlane at hq
  rw [Step.on_total_bind] at hq
  rcases hm : make p p.plane with ⟨e | shell, plane⟩ <;> rw [hm] at hmade <;> simp only [hm] at hq
  · obtain rfl := (Prod.mk.inj hq).2
    exact course_fail hs hd hmade.symm _
  · obtain rfl := (Prod.mk.inj hq).2
    exact course_make hs hd hmade.symm

end Pass

/-! ## The phases before the last -/

/-- The ids for which shells of a kind are tried. -/
def RawData.tried (raw : RawData) (k : ObjectKind) : List (ObjectKind × String) :=
  (match k with
    | .catalogItem => raw.manifest.catalogItems.keys
    | .location => raw.manifest.locationTypes.keys
    | .entity => raw.manifest.entities.keys
    | k => (raw.snapshot.ofKind k).keys).map fun id => (k, id)

theorem RawData.nodup_tried (raw : RawData) (k : ObjectKind) : (raw.tried k).Nodup := by
  refine List.Nodup.map (fun i j he => (Prod.mk.inj he).2) ?_
  split <;> exact OrderedMap.keys_nodup _

theorem RawData.nodup_flatMap_tried (raw : RawData) {kinds : List ObjectKind} (hnd : kinds.Nodup) :
    (kinds.flatMap raw.tried).Nodup := by
  refine List.nodup_flatMap.2 ⟨fun k _ => raw.nodup_tried k, hnd.imp fun {j k} hne x hj hk => ?_⟩
  obtain ⟨_, -, rfl⟩ := List.mem_map.1 hj
  obtain ⟨_, -, he⟩ := List.mem_map.1 hk
  exact hne (Prod.mk.inj he).1.symm

namespace Pass

variable {t : Task} {h : Handler σ} {n : Nat} {p q r : Pass σ} {k : ObjectKind}

theorem eq_manifest_of_loadManifest {raw : RawData} {m : Manifest}
    (hp : (loadManifest t h).on p = (.ok (raw, m), q)) : m = raw.manifest := by
  obtain ⟨rfl, rfl⟩ := Prod.mk.inj (exists_noted_of_loadManifest t h hp).1
  rfl

/-- The phases before the last get through one after the other, with what the store says. -/
theorem exists_phases_of_build {snapshot : Snapshot} (hq : (build t h).on p = (.ok snapshot, q)) :
    ∃ p₁ p₂ p₃ p₄ p₅ p₆, snapshot = t.source.snapshot ∧
      (loadManifest t h).on p = (.ok (t.source.payloads, t.source.payloads.manifest), p₁) ∧
      (rebuildCatalog t h t.source.payloads.manifest).on p₁ = (.ok (), p₂) ∧
      (makeLocationsAndEntities t h t.source.payloads.manifest).on p₂ = (.ok (), p₃) ∧
      (loadSnapshot h t.source.payloads).on p₃ = (.ok t.source.snapshot, p₄) ∧
      (makeAdjuncts t h t.source.snapshot).on p₄ = (.ok (), p₅) ∧
      (reconstructAll t h t.source.snapshot).on p₅ = (.ok (), p₆) ∧
      (attachAdjuncts t h t.source.snapshot).on p₆ = (.ok (), q) := by
  obtain ⟨⟨raw, manifest⟩, p₁, hload, hq⟩ := Step.on_bind_eq_ok_iff.1 hq
  obtain rfl := eq_payloads_of_loadManifest t h hload
  obtain rfl := eq_manifest_of_loadManifest hload
  obtain ⟨_, p₂, hcatalog, hq⟩ := Step.on_bind_eq_ok_iff.1 hq
  obtain ⟨_, p₃, hmake, hq⟩ := Step.on_bind_eq_ok_iff.1 hq
  obtain ⟨snapshot', p₄, hsnapshot, hq⟩ := Step.on_bind_eq_ok_iff.1 hq
  obtain rfl := eq_snapshot_of_loadSnapshot h hsnapshot
  obtain ⟨_, p₅, hadjuncts, hq⟩ := Step.on_bind_eq_ok_iff.1 hq
  obtain ⟨_, p₆, hpopulate, hq⟩ := Step.on_bind_eq_ok_iff.1 hq
  obtain ⟨_, p₇, hattach, hq⟩ := Step.on_bind_eq_ok_iff.1 hq
  obtain ⟨he, rfl⟩ := Prod.mk.inj hq
  exact ⟨p₁, p₂, p₃, p₄, p₅, p₆, (Except.ok.inj he).symm, hload, hcatalog, hmake, hsnapshot, hadjuncts, hpopulate, hattach⟩

/-- A loop that makes shells of one kind. -/
theorem course_makeShells {α : Type} {items : List α} {step : α → PassStep σ Unit} {id : α → String}
    (hnd : (items.map fun a => (k, id a)).Nodup)
    (hstep : ∀ a ∈ items, ∀ p q : Pass σ, p.scratch.Sound n p.plane → (step a).on p = (.ok (), q) →
      Course n t.types [(k, id a)] p q)
    (hs : p.scratch.Sound n p.plane) (hq : (Step.forEach items step).on p = (.ok (), q)) :
    Course n t.types (items.map fun a => (k, id a)) p q := by
  rw [List.map_eq_flatMap] at hnd ⊢
  exact course_forEach hnd hstep hs hq

theorem minor_loadManifest (p : Pass σ) : Step.Moves (Minor n t.types) (loadManifest t h) p :=
  movesAlong_loadManifest t h (minor_enter (by decide)) minor_logCourse minor_loadFailed
    (fun m p => .of_still (.note p m) rfl rfl fun _ => rfl) p

theorem minor_loadSnapshot (raw : RawData) (p : Pass σ) :
    Step.Moves (Minor n t.types) (loadSnapshot h raw) p := by
  refine (minor_enter (by decide) p).bind fun _ p _ => .read_bind ?_
  exact (Snapshot.moves_decode (fun k message e p => minor_loadFailed k message e p)
    (fun k id p => minor_dangling k id p) raw _ p).mapStop _

/-- Objects of the default catalog hold no adjuncts. -/
theorem holds_adoptAll {items : List CatalogItem} {p : Plane} {a b : Handle}
    (hb : ((adoptAll (items.map .ofItem) p).2.read a).Holds b) : (p.read a).Holds b := by
  induction items generalizing p with
  | nil => exact hb
  | cons item items ih =>
    obtain ⟨k, hk⟩ := ih (p := (p.adopt (.ofItem item)).2) hb
    have hread : (p.adopt (.ofItem item)).2.read a = _ := p.heap.read_alloc (.ofItem item) a
    rw [hread] at hk
    split at hk
    · cases k <;> cases hk
    · exact ⟨k, hk⟩

theorem minor_loadDefaultCatalog (p : Pass σ) : Step.Moves (Minor n t.types) (loadDefaultCatalog t) p := by
  unfold loadDefaultCatalog
  split
  · exact .stop _ p
  · next items _ =>
    exact .of_update (.of_turn (.fill p items) (.of_events_eq (events_adoptAll (items.map .ofItem) p.plane))
      (fun _ _ hk => hk) fun a b hab => holds_adoptAll hab)

theorem course_rebuildCatalog (raw : RawData) (hs : p.scratch.Sound n p.plane)
    (hq : (rebuildCatalog t h raw.manifest).on p = (.ok (), q)) :
    Course n t.types (raw.tried .catalogItem) p q := by
  have hids : raw.tried .catalogItem = raw.manifest.catalogItems.values.map fun i => (.catalogItem, i.id) := by
    have hkeys := map_declared_decodeTable CatalogItem.decode? CatalogItem.id .catalogItem raw.catalogItem
    exact (congrArg (List.map fun id => (ObjectKind.catalogItem, id)) hkeys.symm).trans List.map_map
  obtain ⟨_, u, henter, hq⟩ := Step.on_bind_eq_ok_iff.1 hq
  have h₁ := (minor_enter (t := t) (n := n) (by decide) p).to henter hs
  split at hq
  · have h₂ := (minor_logCourse _ u).to hq h₁.sound
    exact (h₁.minor h₂).mono (List.nil_sublist _)
  · obtain ⟨_, v, hlog, hq⟩ := Step.on_bind_eq_ok_iff.1 hq
    obtain ⟨_, w, hmake, hq⟩ := Step.on_bind_eq_ok_iff.1 hq
    have h₂ := h₁.minor ((minor_logCourse _ u).to hlog h₁.sound)
    have h₃ : Course n t.types (raw.tried .catalogItem) v w := by
      rw [hids]
      refine course_makeShells (hids ▸ raw.nodup_tried .catalogItem) (fun item _ p q hs hone => ?_) h₂.sound hmake
      exact course_makeShell (asks_newCatalogItem t item) hs hone
    have hrest : Step.Moves (Minor n t.types) (do
        logCourse t "reconstructing catalog items"
        Step.forEach raw.manifest.catalogItems.values (populateCatalogItem h)
        let isEmpty ← Step.read fun p => p.isEmpty
        if t.settings.catalogLoadMode.resetsToPersisted isEmpty then
          logCourse t "resetting catalog to persisted state"
          Step.update resetCatalog
        else
          logCourse t "loading default catalog"
          loadDefaultCatalog t) w := by
      refine (minor_logCourse _ w).bind fun _ p _ => ?_
      refine (Step.Moves.forEach (fun i _ => minor_populateCatalogItem i) p).bind fun _ p _ => .read_bind ?_
      split
      · exact (minor_logCourse _ p).bind fun _ p _ => .of_update (.of_still (.reset p) rfl rfl fun _ => rfl)
      · exact (minor_logCourse _ p).bind fun _ p _ => minor_loadDefaultCatalog p
    exact (h₂.of_minor h₃).minor (hrest.to hq h₃.sound)

theorem course_makeLocationsAndEntities (raw : RawData)
    (hs : p.scratch.Sound n p.plane) (hq : (makeLocationsAndEntities t h raw.manifest).on p = (.ok (), q)) :
    Course n t.types ([ObjectKind.location, .entity].flatMap raw.tried) p q := by
  have hlocations : raw.tried .location = raw.manifest.locationTypes.entries.map fun e => (.location, e.1) :=
    List.map_map
  have hentities : raw.tried .entity = raw.manifest.entities.values.map fun e => (.entity, e.id) := by
    have hkeys := map_declared_decodeTable EntitySummary.decode? EntitySummary.id .entity raw.entity
    exact (congrArg (List.map fun id => (ObjectKind.entity, id)) hkeys.symm).trans List.map_map
  have hkinds : [ObjectKind.location, .entity].Nodup := by decide
  have hnd := raw.nodup_flatMap_tried hkinds
  obtain ⟨_, u, henter, hq⟩ := Step.on_bind_eq_ok_iff.1 hq
  obtain ⟨_, v, hlog, hq⟩ := Step.on_bind_eq_ok_iff.1 hq
  obtain ⟨_, w, hmake, hq⟩ := Step.on_bind_eq_ok_iff.1 hq
  obtain ⟨_, x, hlog', hmake'⟩ := Step.on_bind_eq_ok_iff.1 hq
  have h₁ := (minor_enter (t := t) (n := n) (by decide) p).to henter hs
  have h₂ := h₁.minor ((minor_logCourse _ u).to hlog h₁.sound)
  have h₃ : Course n t.types (raw.tried .location) v w := by
    rw [hlocations]
    refine course_makeShells (hlocations ▸ raw.nodup_tried .location) (fun e _ p q hs hone => ?_) h₂.sound hmake
    exact course_makeShell (asks_newLocation t e) hs hone
  have h₄ := h₃.minor ((minor_logCourse _ w).to hlog' h₃.sound)
  have h₅ : Course n t.types (raw.tried .entity) x q := by
    rw [hentities]
    refine course_makeShells (hentities ▸ raw.nodup_tried .entity) (fun e _ p q hs hone => ?_) h₄.sound hmake'
    exact course_makeShell (asks_newEntity t e _) hs hone
  simp only [List.flatMap_cons, List.flatMap_nil, List.append_nil] at hnd ⊢
  exact (h₂.of_minor h₄).append h₅ (List.disjoint_of_nodup_append hnd)

theorem course_makeAdjuncts (raw : RawData) (hs : p.scratch.Sound n p.plane)
    (hq : (makeAdjuncts t h raw.snapshot).on p = (.ok (), q)) :
    Course n t.types (ObjectKind.adjuncts.flatMap raw.tried) p q := by
  obtain ⟨_, u, henter, hq⟩ := Step.on_bind_eq_ok_iff.1 hq
  have h₁ := (minor_enter (t := t) (n := n) (by decide) p).to henter hs
  refine h₁.of_minor (course_forEach (raw.nodup_flatMap_tried (by decide)) (fun k hk p q hs hone => ?_) h₁.sound hq)
  have hids : raw.tried k = (raw.snapshot.ofKind k).values.map fun m => (k, m.id) := by
    have hkeys : raw.tried k = (raw.snapshot.ofKind k).keys.map fun id => (k, id) := by
      cases k with
      | policy => rfl
      | enricher => rfl
      | feed => rfl
      | _ => exact absurd hk (by decide)
    rw [hkeys, ← RawData.ids_snapshot, List.map_map]
    rfl
  unfold makeAdjunctsOf at hone
  dsimp only at hone
  split at hone
  · exact ((minor_logCourse _ p).to hone hs).mono (List.nil_sublist _)
  · obtain ⟨_, v, hlog, hmake⟩ := Step.on_bind_eq_ok_iff.1 hone
    have h₂ := (minor_logCourse (n := n) _ p).to hlog hs
    refine h₂.of_minor ?_
    rw [hids]
    refine course_makeShells (hids ▸ raw.nodup_tried k) (fun m _ p q hs hone => ?_) h₂.sound hmake
    exact course_makeShell (asks_newAdjunct t k m) hs hone

/-- What can be tried in the phases before the last, in the order in which it is tried. -/
def attempts (source : Source) : List (ObjectKind × String) :=
  ([ObjectKind.catalogItem, .location, .entity] ++ ObjectKind.adjuncts).flatMap source.payloads.tried

theorem nodup_attempts (source : Source) : (attempts source).Nodup :=
  source.payloads.nodup_flatMap_tried (by decide)

/-- The phases before the last try to make every shell once. -/
theorem course_build (hs : p.scratch.Sound n p.plane) {snapshot : Snapshot}
    (hq : (build t h).on p = (.ok snapshot, q)) : Course n t.types (attempts t.source) p q := by
  obtain ⟨p₁, p₂, p₃, p₄, p₅, p₆, -, hload, hcatalog, hmake, hsnapshot, hadjuncts, hpopulate, hattach⟩ :=
    exists_phases_of_build hq
  have h₁ := (minor_loadManifest (n := n) p).to hload hs
  have h₂ := h₁.of_minor (course_rebuildCatalog _ h₁.sound hcatalog)
  have h₃ := course_makeLocationsAndEntities _ h₂.sound hmake
  have h₄ := h₃.minor ((minor_loadSnapshot _ p₃).to hsnapshot h₃.sound)
  have h₅ := course_makeAdjuncts _ h₄.sound hadjuncts
  have h₆ := h₅.minor ((minor_reconstructAll p₅).to hpopulate h₅.sound)
  have h₇ := h₆.minor ((minor_attachAdjuncts _ p₆).to hattach h₆.sound)
  have hnd := nodup_attempts t.source
  unfold attempts at hnd ⊢
  rw [List.flatMap_append, List.flatMap_cons] at hnd ⊢
  have hfirst := h₂.append h₄ (List.disjoint_of_nodup_append (List.nodup_append.1 hnd).1)
  exact hfirst.append h₇ (List.disjoint_of_nodup_append hnd)

end Pass

end ManagementPlane
