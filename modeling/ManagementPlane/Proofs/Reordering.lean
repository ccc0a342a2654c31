import ManagementPlane.Proofs.Decoded
import ManagementPlane.Proofs.Hearing

/-!
# Stores that list the same payloads in another order

* `RawData.Reordered` : the same payloads, of which only those of catalog items are in the same order;
* `Source.Reordered` : stores that show such payloads, and the same places that cannot be read;
* `RawData.Reordered.entities`, … , `RawData.Reordered.snapshotNotes` : what is read of such payloads, and what is told of
  them, is the same up to order;
* `MemoryStore.reordered_source` : stores held in memory with such payloads are such stores.
-/

namespace ManagementPlane

variable {α : Type}

/-- The same payloads; those of catalog items are in the same order. -/
structure RawData.Reordered (raw raw' : RawData) : Prop where
  entries : ∀ k, (raw.get k).entries.Perm (raw'.get k).entries
  catalogItem : raw'.catalogItem = raw.catalogItem

/-- Stores with the same payloads and the same places that cannot be read. The payloads of catalog items are in the same
order. -/
structure Source.Reordered (source source' : Source) : Prop where
  payloads : source.payloads.Reordered source'.payloads
  unreadable : ∃ l l', source.unreadable = .ok l ∧ source'.unreadable = .ok l' ∧ l.Perm l'

instance (raw raw' : RawData) : Decidable (raw.Reordered raw') :=
  decidable_of_iff ((∀ k ∈ ObjectKind.all, (raw.get k).entries.Perm (raw'.get k).entries) ∧
      raw'.catalogItem = raw.catalogItem)
    ⟨fun h => ⟨fun k => h.1 k (ObjectKind.mem_all k), h.2⟩, fun h => ⟨fun k _ => h.entries k, h.catalogItem⟩⟩

/-! ## What is read -/

theorem decodeTable_perm {payloads payloads' : OrderedMap String String} (h : payloads.entries.Perm payloads'.entries)
    (read : String → Option α) (declared : α → String) (kind : ObjectKind) :
    (decodeTable read declared kind payloads).entries.Perm (decodeTable read declared kind payloads').entries := by
  rw [entries_decodeTable, entries_decodeTable]
  exact h.filterMap _

theorem undecodableNotes_perm {payloads payloads' : List (String × String)} (h : payloads.Perm payloads')
    (read : String → Option α) (declared : α → String) (kind : ObjectKind) :
    (undecodableNotes read declared kind payloads).Perm (undecodableNotes read declared kind payloads') :=
  (h.filterMap _).map _

namespace RawData.Reordered

variable {raw raw' : RawData} (h : raw.Reordered raw')
include h

theorem entities : raw.manifest.entities.entries.Perm raw'.manifest.entities.entries :=
  decodeTable_perm (h.entries .entity) _ _ _

theorem locationTypes : raw.manifest.locationTypes.entries.Perm raw'.manifest.locationTypes.entries :=
  (decodeTable_perm (h.entries .location) _ _ _).map _

theorem catalogItems : raw'.manifest.catalogItems = raw.manifest.catalogItems := by
  unfold manifest
  rw [h.catalogItem]

theorem isEmpty : raw'.manifest.isEmpty = raw.manifest.isEmpty := by
  unfold Manifest.isEmpty OrderedMap.isEmpty
  rw [h.catalogItems, h.entities.isEmpty_eq, h.locationTypes.isEmpty_eq]

theorem ofKind (k : ObjectKind) : (raw.snapshot.ofKind k).entries.Perm (raw'.snapshot.ofKind k).entries := by
  cases k with
  | catalogItem => exact .refl _
  | entity => exact decodeTable_perm (h.entries .entity) _ _ _
  | location => exact decodeTable_perm (h.entries .location) _ _ _
  | policy => exact decodeTable_perm (h.entries .policy) _ _ _
  | enricher => exact decodeTable_perm (h.entries .enricher) _ _ _
  | feed => exact decodeTable_perm (h.entries .feed) _ _ _

theorem values (k : ObjectKind) : (raw.snapshot.ofKind k).values.Perm (raw'.snapshot.ofKind k).values :=
  (h.ofKind k).map _

/-- Mementos with parents first are the same up to order. -/
theorem sortParentFirst (k : ObjectKind) :
    (sortParentFirst (raw.snapshot.ofKind k)).Perm (ManagementPlane.sortParentFirst (raw'.snapshot.ofKind k)) :=
  (sortParentFirst_perm fun _ _ => raw.id_of_get?_snapshot).trans
    ((h.values k).trans (sortParentFirst_perm fun _ _ => raw'.id_of_get?_snapshot).symm)

theorem applicationIds : raw.snapshot.applicationIds.Perm raw'.snapshot.applicationIds :=
  ((h.values .entity).filter _).map _

theorem references : raw.snapshot.references.Perm raw'.snapshot.references :=
  ((h.values .entity).flatMap_right _).append ((h.values .location).flatMap_right _)

/-! ## What is told -/

theorem manifestNotes : raw.manifestNotes.Perm raw'.manifestNotes := by
  unfold RawData.manifestNotes
  rw [h.catalogItem]
  exact ((undecodableNotes_perm (h.entries .entity) _ _ _).append
    (undecodableNotes_perm (h.entries .location) _ _ _)).append_right _

theorem mementoNotes (k : ObjectKind) : (raw.mementoNotes k).Perm (raw'.mementoNotes k) :=
  undecodableNotes_perm (h.entries k) _ _ _

theorem snapshotNotes : raw.snapshotNotes.Perm raw'.snapshotNotes := by
  unfold RawData.snapshotNotes
  rw [h.catalogItem]
  exact (((((h.mementoNotes .entity).append (h.mementoNotes .location)).append (h.mementoNotes .policy)).append
    (h.mementoNotes .enricher)).append (h.mementoNotes .feed)).append_right _

theorem danglingNotes (known : ObjectKind → String → Bool) :
    (raw.snapshot.danglingNotes known).Perm (raw'.snapshot.danglingNotes known) :=
  (h.references.filter _).map _

end RawData.Reordered

/-- Stores held in memory that list the same payloads, those of catalog items in the same order. -/
theorem MemoryStore.reordered_source {s s' : MemoryStore} (h : s.data.Reordered s'.data) :
    s.source.Reordered s'.source where
  payloads := by rwa [payloads_source, payloads_source]
  unreadable := ⟨[], [], Source.unreadable_ofPayloads rfl, Source.unreadable_ofPayloads rfl, .refl _⟩

end ManagementPlane
