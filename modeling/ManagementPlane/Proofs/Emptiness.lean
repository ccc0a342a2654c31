import ManagementPlane.Proofs.Abort
import ManagementPlane.Proofs.Grounding
import ManagementPlane.Proofs.Overwriting

/-!
# Stores that count as empty

A pass notes whether the store holds anything, and may take the default catalog if it does not. What it goes by is what
could be decoded.

* `RawData.Bare` : there is no payload of an entity, a location or a catalog item;
* `RawData.Legible`, `RawData.isEmpty_manifest_iff` : one of them can be decoded, which is when a manifest is not empty;
* `Manager.isEmpty_runPass` : what a pass notes of the store;
* `Setup.restoring`, `Manager.runPass_restoring` : a pass that finds something in the store takes its catalog from it;
* `Manager.TellsEmptiness` : only stores that hold nothing count as empty, and only they get the default catalog;
* `Manager.tellsEmptiness_iff` : it is so exactly if there is nothing in the store, or something that can be decoded.
-/

namespace ManagementPlane

variable {σ : Type}

/-! ## What a manifest is made of -/

namespace RawData

/-- There is no payload of an entity, a location or a catalog item. -/
def Bare (raw : RawData) : Prop := ∀ k ∈ [ObjectKind.entity, .location, .catalogItem], (raw.get k).isEmpty = true

instance (raw : RawData) : Decidable raw.Bare := inferInstanceAs (Decidable (∀ k ∈ _, _))

/-- There is a payload of an entity, a location or a catalog item that can be decoded and declares its own id. -/
inductive Legible (raw : RawData) : Prop where
  | entity {text : String} {e : EntitySummary} (h : raw.entity.get? e.id = some text)
      (hread : EntitySummary.decode? text = some e) : Legible raw
  | location {text : String} {l : LocationProbe} (h : raw.location.get? l.id = some text)
      (hread : LocationProbe.decode? text = some l) : Legible raw
  | catalogItem {text : String} {i : CatalogItem} (h : raw.catalogItem.get? i.id = some text)
      (hread : CatalogItem.decode? text = some i) : Legible raw

variable {raw : RawData}

theorem isEmpty_decodeTable_iff {α : Type} {read : String → Option α} {declared : α → String} {kind : ObjectKind}
    {payloads : OrderedMap String String} : (decodeTable read declared kind payloads).isEmpty = true ↔
      ∀ text a, payloads.get? (declared a) = some text → read text ≠ some a := by
  rw [OrderedMap.isEmpty_iff]
  constructor
  · intro h text a htext hread
    have hget : (decodeTable read declared kind payloads).get? (declared a) = some a :=
      get?_decodeTable.2 ⟨text, htext, hread, rfl⟩
    rw [h] at hget
    cases hget
  · intro h id
    rw [Option.eq_none_iff_forall_ne_some]
    intro a ha
    obtain ⟨text, htext, hread, rfl⟩ := get?_decodeTable.1 ha
    exact h text a htext hread

/-- A manifest is empty if nothing that would belong into it can be decoded. -/
theorem isEmpty_manifest_iff : raw.manifest.isEmpty = true ↔ ¬ raw.Legible := by
  have hlocations : raw.manifest.locationTypes.isEmpty =
      (decodeTable LocationProbe.decode? LocationProbe.id .location raw.location).isEmpty := List.isEmpty_map
  rw [Manifest.isEmpty, hlocations, Bool.and_eq_true, Bool.and_eq_true, manifest, isEmpty_decodeTable_iff,
    isEmpty_decodeTable_iff, isEmpty_decodeTable_iff]
  constructor
  · rintro ⟨⟨hentity, hlocation⟩, hitem⟩ hlegible
    cases hlegible with
    | entity h hread => exact hentity _ _ h hread
    | location h hread => exact hlocation _ _ h hread
    | catalogItem h hread => exact hitem _ _ h hread
  · intro h
    exact ⟨⟨fun _ _ htext hread => h (.entity htext hread), fun _ _ htext hread => h (.location htext hread)⟩,
      fun _ _ htext hread => h (.catalogItem htext hread)⟩

theorem Legible.not_bare (h : raw.Legible) : ¬ raw.Bare := by
  intro hbare
  have hnone : ∀ k ∈ [ObjectKind.entity, .location, .catalogItem], ∀ id, (raw.get k).get? id = none :=
    fun k hk => OrderedMap.isEmpty_iff.1 (hbare k hk)
  cases h with
  | entity h => exact absurd (h.symm.trans (hnone .entity (by decide) _)) (by simp)
  | location h => exact absurd (h.symm.trans (hnone .location (by decide) _)) (by simp)
  | catalogItem h => exact absurd (h.symm.trans (hnone .catalogItem (by decide) _)) (by simp)

end RawData

/-! ## What a pass notes -/

namespace Pass

variable {t : Task} {h : Handler σ} {p q r : Pass σ}

theorem isEmpty_of_loadManifest {found : RawData × Manifest} (hp : (loadManifest t h).on p = (.ok found, q)) :
    q.isEmpty = t.source.payloads.manifest.isEmpty := by
  obtain ⟨rfl, u, rfl⟩ := exists_noted_of_loadManifest t h hp
  rfl

/-- Nothing that comes after the first phase changes what was noted there. -/
theorem isEmpty_of_build {found : RawData × Manifest} (hfound : (loadManifest t h).on p = (.ok found, q))
    {result : Except RebindError Snapshot} (hb : (build t h).on p = (result, r)) : r.isEmpty = q.isEmpty := by
  rw [build, Step.on_bind, hfound] at hb
  have hsecond := leads_rebuildCatalog (t := t) (h := h) found.2 q
  unfold Step.Leads at hsecond
  dsimp only at hb
  rw [Step.on_bind] at hb
  rcases hc : (rebuildCatalog t h found.2).on q with ⟨e | _, v⟩ <;> rw [hc] at hb hsecond
  · obtain ⟨-, rfl⟩ := Prod.mk.inj hb
    exact hsecond.isEmpty
  · have hrest : Beyond v r := (beyond_shells found.1 found.2 v).to hb
    exact hrest.2.trans hsecond.isEmpty

/-! ## Where the catalog comes from -/

/-- After something calm, it matters only what two steps do where they find the phase and what is known of the store
unchanged. -/
theorem on_bind_congr_of_calm {ε α β : Type} {x : Step (Pass σ) ε α} {f g : α → Step (Pass σ) ε β}
    (hq : Calm p q) (hx : Step.Moves Calm x q) (hfg : ∀ a r, Calm p r → (f a).on r = (g a).on r) :
    (x >>= f).on q = (x >>= g).on q := by
  rw [Step.on_bind, Step.on_bind]
  rcases hon : x.on q with ⟨e | a, r⟩
  · rfl
  · exact hfg a r (IsTrans.trans _ _ _ hq (hx.to hon))

end Pass

/-- The same, but the catalog is always made of what was persisted. -/
def Setup.restoring (s : Setup) : Setup :=
  { s with settings := { s.settings with catalogLoadMode := .persistedState } }

def Task.restoring (t : Task) : Task := { t with toSetup := t.toSetup.restoring }

namespace Pass

variable {t : Task} {h : Handler σ} {p q : Pass σ}

/-- Where something is known of the store, the catalog is made of what was persisted. -/
theorem on_rebuildCatalog_restoring (hmode : t.settings.catalogLoadMode = .defaultCatalogIfNoPersistedState)
    (manifest : Manifest) (hempty : p.isEmpty = false) :
    (rebuildCatalog t.restoring h manifest).on p = (rebuildCatalog t h manifest).on p := by
  have hstart : Calm { p with phase := 2 } { p with phase := 2 } := Std.Refl.refl (r := Calm) _
  unfold rebuildCatalog enter
  rw [Step.on_update_bind, Step.on_update_bind]
  by_cases hoff : (!t.settings.features.enabled .catalogItem) = true
  · rw [if_pos hoff, if_pos (show (!t.restoring.settings.features.enabled .catalogItem) = true from hoff)]
    rfl
  rw [if_neg hoff, if_neg (show ¬ (!t.restoring.settings.features.enabled .catalogItem) = true from hoff)]
  refine on_bind_congr_of_calm hstart (calm_logCourse _ _) fun _ q hq => ?_
  refine on_bind_congr_of_calm hq (Step.Moves.forEach (fun i _ => calm_makeCatalogItem i) q) fun _ q hq => ?_
  refine on_bind_congr_of_calm hq (calm_logCourse _ q) fun _ q hq => ?_
  refine on_bind_congr_of_calm hq (Step.Moves.forEach (fun i _ => calm_populateCatalogItem i) q) fun _ q hq => ?_
  have hfound : q.isEmpty = false := hq.isEmpty.trans hempty
  rw [Step.on_read_bind, Step.on_read_bind, hmode, hfound]
  rfl

/-- A whole pass over a store that shows something differs in nothing from one that makes its catalog of what was
persisted. -/
theorem on_verdict_restoring (hmode : t.settings.catalogLoadMode = .defaultCatalogIfNoPersistedState)
    (hempty : t.source.payloads.manifest.isEmpty = false) (p : Pass σ) :
    (verdict t.restoring h).on p = (verdict t h).on p := by
  unfold verdict phases
  simp only [bind_assoc]
  have hload : (loadManifest t.restoring h : PassStep σ (RawData × Manifest)) = loadManifest t h := rfl
  rw [hload, Step.on_bind, Step.on_bind]
  rcases hfound : (loadManifest t h).on p with ⟨e | found, q⟩
  · rfl
  · dsimp only
    rw [Step.on_bind, Step.on_bind, on_rebuildCatalog_restoring hmode _ ((isEmpty_of_loadManifest hfound).trans hempty)]
    rfl

end Pass

namespace Manager

variable {m : Manager} {setup : Setup} {source : Source} {time : Nat} {h : Handler σ} {s : σ} {mode : ManagementMode}

/-- A pass that gets through its first phase ends with the note whether there is anything in its manifest. -/
theorem isEmpty_runPass (hread : m.ReadsManifest setup source h s mode) :
    (m.runPass setup source time h (.new mode) s).iteration.isEmpty = source.payloads.manifest.isEmpty := by
  obtain ⟨result, p, hb, htidies⟩ := exists_tidies m setup source time h s mode
  unfold ReadsManifest at hread
  rcases hfound : (Pass.loadManifest (m.task setup source mode) h).on (m.opening h s mode) with ⟨e | found, q⟩
  · rw [hfound] at hread
    cases hread
  · exact htidies.isEmpty.trans ((Pass.isEmpty_of_build hfound hb).trans (Pass.isEmpty_of_loadManifest hfound))

/-- With a handler that stops nothing, a pass gets through its first phase if its store can be read at all. -/
theorem readsManifest_of_accepting (ha : h.Accepting) {failures : List (ObjectKind × String × StoreError)}
    (hs : source.unreadable = .ok failures) : m.ReadsManifest setup source h s mode := by
  obtain ⟨found, q, hfound, -⟩ :=
    Pass.ends_loadManifest_hears (t := m.task setup source mode) ha hs (m.opening h s mode)
  unfold ReadsManifest
  rw [hfound]
  rfl

/-- A pass over a store that shows something does as if the catalog were always made of what was persisted. -/
theorem runPass_restoring (hmode : setup.settings.catalogLoadMode = .defaultCatalogIfNoPersistedState)
    (hempty : source.payloads.manifest.isEmpty = false) :
    m.runPass setup.restoring source time h (.new mode) s = m.runPass setup source time h (.new mode) s := by
  have hending : m.ending setup.restoring source h (.new mode) s = m.ending setup source h (.new mode) s :=
    Pass.on_verdict_restoring (t := m.task setup source mode) hmode hempty _
  rw [m.runPass_eq setup.restoring source time h rfl s, m.runPass_eq setup source time h rfl s, hending]
  rfl

/-! ## What counts as empty -/

/-- A pass takes its store for empty only if there is nothing in it; where the default catalog stands in for persisted
state, no other store gets it. -/
structure TellsEmptiness (m : Manager) (setup : Setup) (source : Source) (time : Nat) (h : Handler σ) (s : σ)
    (mode : ManagementMode) : Prop where
  isEmpty : (m.runPass setup source time h (.new mode) s).iteration.isEmpty = true ↔ source.payloads.Bare
  catalog : setup.settings.catalogLoadMode = .defaultCatalogIfNoPersistedState → ¬ source.payloads.Bare →
    m.runPass setup.restoring source time h (.new mode) s = m.runPass setup source time h (.new mode) s

/-- With a handler that stops nothing, a pass tells stores that hold nothing from others exactly if there is nothing in
its store, or something that can be decoded. -/
theorem tellsEmptiness_iff (ha : h.Accepting) {failures : List (ObjectKind × String × StoreError)}
    (hs : source.unreadable = .ok failures) :
    TellsEmptiness m setup source time h s mode ↔ source.payloads.Bare ∨ source.payloads.Legible := by
  have hnoted : (m.runPass setup source time h (.new mode) s).iteration.isEmpty = true ↔
      ¬ source.payloads.Legible := by
    rw [isEmpty_runPass (readsManifest_of_accepting ha hs)]
    exact RawData.isEmpty_manifest_iff
  constructor
  · intro htells
    by_cases hlegible : source.payloads.Legible
    · exact .inr hlegible
    · exact .inl (htells.isEmpty.1 (hnoted.2 hlegible))
  · rintro (hbare | hlegible)
    · have hillegible : ¬ source.payloads.Legible := fun hlegible => hlegible.not_bare hbare
      exact ⟨iff_of_true (hnoted.2 hillegible) hbare, fun _ hfull => absurd hbare hfull⟩
    · refine ⟨iff_of_false (fun hempty => hnoted.1 hempty hlegible) hlegible.not_bare, fun hmode _ => ?_⟩
      refine runPass_restoring hmode (Bool.eq_false_iff.2 fun hempty => ?_)
      exact RawData.isEmpty_manifest_iff.1 hempty hlegible

/-! ## A store with nothing but a garbled entity -/

/-- What is held of the entity cannot be decoded. -/
def garbledStore : MemoryStore := ({ name := "store" } : MemoryStore).seed .entity "e" "garbled"

/-- The default catalog, which has an item, stands in for persisted state. -/
def standIn : Setup := { Setup.stock with
  settings := { catalogLoadMode := .defaultCatalogIfNoPersistedState }
  defaultCatalog := some (.builtIn [.new "db" "1.0" "trellis.catalog.BasicCatalogItem"]) }

def garbledPass : Outcome Unit :=
  ({} : Manager).runPass standIn garbledStore.source 0 (.refusing []) (.new .master) ()

set_option maxRecDepth 2000 in
theorem garbledPass_shows : garbledPass.iteration.isEmpty = true ∧
    garbledPass.manager.plane.catalog.items.keys = ["db:1.0"] := by
  decide +kernel

theorem not_bare_garbledStore : ¬ garbledStore.source.payloads.Bare := by decide +kernel

/-- There is something in this store, which cannot be decoded. -/
theorem tellsEmptiness_iff_garbledStore :
    (Handler.refusing []).Accepting ∧ garbledStore.source.unreadable = .ok [] ∧
      ¬ garbledStore.source.payloads.Bare ∧ ¬ garbledStore.source.payloads.Legible ∧
      (TellsEmptiness {} standIn garbledStore.source 0 (.refusing []) () .master ↔
        garbledStore.source.payloads.Bare ∨ garbledStore.source.payloads.Legible) := by
  have ha : (Handler.refusing []).Accepting := Handler.accepting_refusing (by decide)
  have hs : garbledStore.source.unreadable = .ok [] := by decide +kernel
  have hillegible : ¬ garbledStore.source.payloads.Legible :=
    RawData.isEmpty_manifest_iff.1 (by decide +kernel)
  exact ⟨ha, hs, not_bare_garbledStore, hillegible, tellsEmptiness_iff ha hs⟩

/-- The store counts as empty, and the default catalog is taken. -/
theorem garbled_store_counts_as_empty :
    ¬ TellsEmptiness {} standIn garbledStore.source 0 (.refusing []) () .master := by
  intro htells
  obtain ⟨hempty, -⟩ := garbledPass_shows
  unfold garbledPass at hempty
  exact not_bare_garbledStore (htells.isEmpty.1 hempty)

end Manager

end ManagementPlane
