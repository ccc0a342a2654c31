import ManagementPlane.Proofs.Decoded
import ManagementPlane.Proofs.Telling

/-!
# What is decoded and what is reported

Decoding loses nothing: a payload is in the table of its kind, or else it is reported, once.

* `Decodes` : the table of a kind and the notifications account for the payloads of the kind;
* `Manifest.Thorough`, `Snapshot.Thorough` : so it is for every kind that is read, and nothing else is told but the
  references that are not known, in order;
* `decode_thorough` : decoding is thorough, and ends with the first notification that is rejected.
-/

namespace ManagementPlane

variable {α : Type} {read : String → Option α} {declared : α → String} {kind : ObjectKind} {id : String}
  {payloads : OrderedMap String String} {table : OrderedMap String α} {notes : List Notification}

namespace Notification

/-- The payload of an object could not be read. -/
def reports (kind : ObjectKind) (id : String) : Notification → Bool
  | .loadFailed k message _ => k = kind && message = subject kind id
  | _ => false

/-- The reference that is not known. -/
def reference? : Notification → Option (ObjectKind × String)
  | .dangling kind id => some (kind, id)
  | _ => none

end Notification

/-- The table has just the payloads of the kind that can be read and declare the id they are stored under, in the order of
the payloads. Each of the others is reported once, and none of those in the table is. -/
structure Decodes (notes : List Notification) (read : String → Option α) (declared : α → String) (kind : ObjectKind)
    (payloads : OrderedMap String String) (table : OrderedMap String α) : Prop where
  declared_eq : ∀ e ∈ table.entries, declared e.2 = e.1
  ordered : table.keys.Sublist payloads.keys
  holds : ∀ id a, table.get? id = some a ↔ ∃ text, payloads.get? id = some text ∧ read text = some a ∧ declared a = id
  reported : ∀ id, notes.countP (·.reports kind id) = if id ∈ payloads.keys ∧ id ∉ table.keys then 1 else 0

/-! ## One kind -/

theorem subject_inj {id' : String} (h : subject kind id = subject kind id') : id = id' := by
  unfold subject at h
  exact String.append_right_inj _ |>.1 h

/-- If what is made of an item shows the key of the item, the keys are those of the items of which something is made. -/
theorem map_key_filterMap {β γ κ : Type} {f : β → Option γ} {key : β → κ} {shown : γ → κ}
    (hf : ∀ b c, f b = some c → shown c = key b) (l : List β) :
    (l.filterMap f).map shown = (l.filter fun b => (f b).isSome).map key := by
  induction l with
  | nil => rfl
  | cons b l ih =>
    cases hb : f b with
    | none => rw [List.filterMap_cons_none hb, List.filter_cons_of_neg (by simp [hb]), ih]
    | some c =>
      rw [List.filterMap_cons_some hb, List.filter_cons_of_pos (by simp [hb]), List.map_cons, List.map_cons, ih, hf b c hb]

theorem keys_decodeTable (read : String → Option α) (declared : α → String) (kind : ObjectKind)
    (payloads : OrderedMap String String) : (decodeTable read declared kind payloads).keys =
      (payloads.entries.filter fun e => (decoded? read declared kind e).isSome).map Prod.fst := by
  rw [OrderedMap.keys, entries_decodeTable]
  apply map_key_filterMap
  intro e r h
  exact (decoded?_eq_some_iff.1 h).2.2

/-- The ids that are reported are those of the payloads that are not taken in. -/
theorem map_fst_undecodable (read : String → Option α) (declared : α → String) (kind : ObjectKind)
    (payloads : List (String × String)) : (undecodable read declared kind payloads).map Prod.fst =
      (payloads.filter fun e => !(decoded? read declared kind e).isSome).map Prod.fst := by
  unfold undecodable
  refine (map_key_filterMap (fun e r h => ?_) payloads).trans (congrArg _ (List.filter_congr fun e _ => ?_))
  · split at h
    · cases h
    · cases h
      rfl
  · unfold decoded?
    cases decodeOne read declared kind e.1 e.2 with
    | error _ => rfl
    | ok _ => rfl

theorem mem_map_fst_undecodable_iff : id ∈ (undecodable read declared kind payloads.entries).map Prod.fst ↔
    id ∈ payloads.keys ∧ id ∉ (decodeTable read declared kind payloads).keys := by
  rw [map_fst_undecodable, keys_decodeTable]
  constructor
  · intro h
    obtain ⟨e, he, rfl⟩ := List.mem_map.1 h
    obtain ⟨he, hnone⟩ := List.mem_filter.1 he
    refine ⟨List.mem_map_of_mem he, fun h' => ?_⟩
    obtain ⟨e', he', heq⟩ := List.mem_map.1 h'
    obtain ⟨he', hsome⟩ := List.mem_filter.1 he'
    have : e' = e := List.inj_on_of_nodup_map payloads.nodup he' he heq
    subst this
    rw [hsome] at hnone
    cases hnone
  · rintro ⟨hkey, hnot⟩
    obtain ⟨e, he, rfl⟩ := List.mem_map.1 hkey
    refine List.mem_map_of_mem (List.mem_filter.2 ⟨he, ?_⟩)
    by_contra hsome
    rw [Bool.not_eq_true', Bool.not_eq_false] at hsome
    exact hnot (List.mem_map_of_mem (List.mem_filter.2 ⟨he, hsome⟩))

theorem countP_reports_undecodableNotes (id : String) :
    (undecodableNotes read declared kind payloads.entries).countP (·.reports kind id) =
      if id ∈ payloads.keys ∧ id ∉ (decodeTable read declared kind payloads).keys then 1 else 0 := by
  have hids : (undecodableNotes read declared kind payloads.entries).countP (·.reports kind id) =
      ((undecodable read declared kind payloads.entries).map Prod.fst).count id := by
    rw [undecodableNotes, List.countP_map, List.count, List.countP_map]
    apply List.countP_congr
    intro f _
    have hsubject : subject kind f.1 = subject kind id ↔ f.1 = id := ⟨subject_inj, congrArg _⟩
    simp [Notification.reports, hsubject]
  have hnodup : ((undecodable read declared kind payloads.entries).map Prod.fst).Nodup := by
    rw [map_fst_undecodable]
    exact payloads.nodup.sublist (List.filter_sublist.map Prod.fst)
  rw [hids, hnodup.count]
  simp only [mem_map_fst_undecodable_iff]

/-- Of other kinds nothing is reported. -/
theorem countP_reports_undecodableNotes_of_ne {k : ObjectKind} (hk : kind ≠ k) (id : String)
    (payloads : List (String × String)) :
    (undecodableNotes read declared kind payloads).countP (·.reports k id) = 0 := by
  rw [List.countP_eq_zero]
  intro note hnote hreports
  obtain ⟨f, -, rfl⟩ := List.mem_map.1 hnote
  simp [Notification.reports, hk] at hreports

/-- The table of a kind accounts for its payloads if nothing else is told of the kind. -/
theorem decodes_decodeTable (hnotes : ∀ id, notes.countP (·.reports kind id) =
      (undecodableNotes read declared kind payloads.entries).countP (·.reports kind id)) :
    Decodes notes read declared kind payloads (decodeTable read declared kind payloads) where
  declared_eq e he := by
    obtain ⟨_, -, -, hid⟩ := get?_decodeTable.1 (OrderedMap.get?_eq_some_iff.2 he)
    exact hid
  ordered := by
    rw [keys_decodeTable]
    exact List.filter_sublist.map Prod.fst
  holds _ _ := get?_decodeTable
  reported id := by rw [hnotes, countP_reports_undecodableNotes]

/-- Every note is about a payload of the kind. -/
theorem exists_reports_of_mem {note : Notification} (h : note ∈ undecodableNotes read declared kind payloads.entries) :
    ∃ id ∈ payloads.keys, note.reports kind id = true := by
  obtain ⟨f, hf, rfl⟩ := List.mem_map.1 h
  refine ⟨f.1, (mem_map_fst_undecodable_iff.1 (List.mem_map_of_mem hf)).1, ?_⟩
  simp [Notification.reports]

theorem reference?_of_mem {note : Notification} {payloads : List (String × String)}
    (h : note ∈ undecodableNotes read declared kind payloads) : note.reference? = none := by
  obtain ⟨f, -, rfl⟩ := List.mem_map.1 h
  rfl

/-! ## All kinds -/

/-- The manifest and the notifications account for the payloads of the three kinds that are read, and nothing else is
told. -/
structure Manifest.Thorough (raw : RawData) (m : Manifest) (notes : List Notification) : Prop where
  entities : Decodes notes EntitySummary.decode? EntitySummary.id .entity raw.entity m.entities
  locations : ∃ probes, m.locationTypes = probes.mapValues LocationProbe.type ∧
    Decodes notes LocationProbe.decode? LocationProbe.id .location raw.location probes
  catalogItems : Decodes notes CatalogItem.decode? CatalogItem.id .catalogItem raw.catalogItem m.catalogItems
  only : ∀ note ∈ notes, ∃ kind ∈ [ObjectKind.entity, .location, .catalogItem], ∃ id ∈ (raw.get kind).keys,
    note.reports kind id = true

/-- The snapshot and the notifications account for the payloads of all kinds. What is told of references are those of the
entities and then those of the locations that are not known, as often as they come up. Nothing else is told. -/
structure Snapshot.Thorough (raw : RawData) (known : ObjectKind → String → Bool) (s : Snapshot)
    (notes : List Notification) : Prop where
  mementos : ∀ kind, kind ≠ .catalogItem → Decodes notes Memento.decode? Memento.id kind (raw.get kind) (s.ofKind kind)
  catalogItems : Decodes notes CatalogItem.decode? CatalogItem.id .catalogItem raw.catalogItem s.catalogItems
  dangling : notes.filterMap Notification.reference? =
    ((s.entities.values.flatMap fun m : Memento =>
        m.parent.toList.map (ObjectKind.entity, ·) ++ m.children.map (ObjectKind.entity, ·) ++
          m.locations.map (ObjectKind.location, ·) ++ m.catalogItemId.toList.map (ObjectKind.catalogItem, ·)) ++
      s.locations.values.flatMap fun m : Memento =>
        m.parent.toList.map (ObjectKind.location, ·) ++ m.children.map (ObjectKind.location, ·)).filter
      fun r => !known r.1 r.2
  only : ∀ note ∈ notes, note.reference? = none → ∃ kind, ∃ id ∈ (raw.get kind).keys, note.reports kind id = true

theorem RawData.thorough_manifest (raw : RawData) : raw.manifest.Thorough raw raw.manifestNotes where
  entities := by
    apply decodes_decodeTable
    intro id
    simp [RawData.manifestNotes, List.countP_append, countP_reports_undecodableNotes_of_ne]
  locations := by
    refine ⟨_, rfl, decodes_decodeTable fun id => ?_⟩
    simp [RawData.manifestNotes, List.countP_append, countP_reports_undecodableNotes_of_ne]
  catalogItems := by
    apply decodes_decodeTable
    intro id
    simp [RawData.manifestNotes, List.countP_append, countP_reports_undecodableNotes_of_ne]
  only := by
    simp only [RawData.manifestNotes, List.forall_mem_append]
    refine ⟨⟨?_, ?_⟩, ?_⟩
    · intro note hnote
      exact ⟨.entity, by simp, exists_reports_of_mem hnote⟩
    · intro note hnote
      exact ⟨.location, by simp, exists_reports_of_mem hnote⟩
    · intro note hnote
      exact ⟨.catalogItem, by simp, exists_reports_of_mem hnote⟩

/-- Dangling references report no payload. -/
theorem countP_reports_danglingNotes (s : Snapshot) (known : ObjectKind → String → Bool) (kind : ObjectKind)
    (id : String) : (s.danglingNotes known).countP (·.reports kind id) = 0 := by
  rw [List.countP_eq_zero]
  intro note hnote
  obtain ⟨r, -, rfl⟩ := List.mem_map.1 hnote
  exact Bool.false_ne_true

theorem reference?_of_mem_snapshotNotes (raw : RawData) : ∀ note ∈ raw.snapshotNotes, note.reference? = none := by
  have hload {k : ObjectKind} : ∀ note ∈ raw.mementoNotes k, note.reference? = none := fun _ => reference?_of_mem
  simp only [RawData.snapshotNotes, List.forall_mem_append]
  exact ⟨⟨⟨⟨⟨hload, hload⟩, hload⟩, hload⟩, hload⟩, fun _ => reference?_of_mem⟩

theorem filterMap_reference?_danglingNotes (s : Snapshot) (known : ObjectKind → String → Bool) :
    (s.danglingNotes known).filterMap Notification.reference? = s.references.filter fun r => !known r.1 r.2 := by
  rw [Snapshot.danglingNotes, List.filterMap_map]
  exact List.filterMap_some

theorem RawData.thorough_snapshot (raw : RawData) (known : ObjectKind → String → Bool) :
    raw.snapshot.Thorough raw known (raw.snapshotNotes ++ raw.snapshot.danglingNotes known) where
  mementos kind hkind := by
    cases kind with
    | catalogItem => exact absurd rfl hkind
    | _ =>
      apply decodes_decodeTable
      intro id
      simp [RawData.snapshotNotes, RawData.mementoNotes, List.countP_append, countP_reports_undecodableNotes_of_ne,
        countP_reports_danglingNotes]
  catalogItems := by
    apply decodes_decodeTable
    intro id
    simp [RawData.snapshotNotes, RawData.mementoNotes, List.countP_append, countP_reports_undecodableNotes_of_ne,
      countP_reports_danglingNotes]
  dangling := by
    rw [List.filterMap_append, List.filterMap_eq_nil_iff.2 (reference?_of_mem_snapshotNotes raw), List.nil_append]
    exact filterMap_reference?_danglingNotes _ _
  only := by
    have hload {k : ObjectKind} : ∀ note ∈ raw.mementoNotes k, note.reference? = none →
        ∃ kind, ∃ id ∈ (raw.get kind).keys, note.reports kind id = true :=
      fun note hnote _ => ⟨k, exists_reports_of_mem hnote⟩
    simp only [RawData.snapshotNotes, List.forall_mem_append]
    refine ⟨⟨⟨⟨⟨⟨hload, hload⟩, hload⟩, hload⟩, hload⟩, ?_⟩, ?_⟩
    · intro note hnote _
      exact ⟨.catalogItem, exists_reports_of_mem hnote⟩
    · intro note hnote hnone
      obtain ⟨r, -, rfl⟩ := List.mem_map.1 hnote
      cases hnone

/-- For all raw data and whatever is known of the references: every payload is decoded or reported, every reference that is
not known is reported, and a listener that rejects something ends the reading there. -/
theorem decode_thorough (raw : RawData) (known : ObjectKind → String → Bool) :
    (∃ m notes, Manifest.Thorough raw m notes ∧ Tells notes m (Manifest.decode raw)) ∧
      ∃ s notes, Snapshot.Thorough raw known s notes ∧ Tells notes s (Snapshot.decode raw known) :=
  ⟨⟨_, _, raw.thorough_manifest, tells_manifest raw⟩, ⟨_, _, raw.thorough_snapshot known, tells_snapshot raw known⟩⟩

end ManagementPlane
