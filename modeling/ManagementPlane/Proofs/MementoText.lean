import ManagementPlane.Memento.Decoding
import ManagementPlane.Memento.Encoding
import ManagementPlane.Proofs.Records

/-!
# Mementos are read as they were written

The text of a memento or of a catalog item is read back as the same, with the free-form values in it sorted. All
readings take the same of the text and of the text of the sorted object.

* `Memento.sorted` : the memento with its free-form values sorted, as it is held once it has been read;
* `Memento.decode?_encode`, `CatalogItem.decode?_encode` : what is read of a text;
* `ReadAlike` : payloads of which every reading takes the same; `readAlike_sorted` : an object and its sorted form.
-/

namespace ManagementPlane

open Json (Value Tree Record depthLimit)
open Json.Value (field field_append field_cons field_nil)

/-! ## Parts of the encoding -/

@[simp] theorem field_optionalField_ne {name other : String} (hne : other ≠ name) (o : Option String) :
    field (optionalField other o) name = none := by
  cases o <;> simp [optionalField, field_cons, hne]

@[simp] theorem field_listField_ne {name other : String} (hne : other ≠ name) (xs : List String) :
    field (listField other xs) name = none := by
  cases xs <;> simp [listField, field_cons, hne]

@[simp] theorem field_tableField_ne {name other : String} (hne : other ≠ name) (m : Settings) :
    field (tableField other m) name = none := by
  rw [tableField]
  split <;> simp [field_cons, hne]

@[simp] theorem field_ite_ne {p : Prop} [Decidable p] {name other : String} (hne : other ≠ name) (v : Value) :
    field (if p then [] else [(other, v)]) name = none := by
  split <;> simp [hne]

theorem keys_optionalField (name : String) (o : Option String) :
    ((optionalField name o).map Prod.fst).Sublist [name] := by
  cases o with
  | none => exact List.nil_sublist _
  | some s => exact List.Sublist.refl _

theorem keys_listField (name : String) (xs : List String) :
    ((listField name xs).map Prod.fst).Sublist [name] := by
  cases xs with
  | nil => exact List.nil_sublist _
  | cons x xs => exact List.Sublist.refl _

theorem keys_tableField (name : String) (m : Settings) :
    ((tableField name m).map Prod.fst).Sublist [name] := by
  rw [tableField]
  split
  · exact List.nil_sublist _
  · exact List.Sublist.refl _

/-! ## Fields of a record -/

theorem texts?_strings (xs : List String) : (Value.array (xs.map .string)).tree.texts? = some xs := by
  rw [Value.tree, Tree.texts?, Tree.trees_eq_map]
  induction xs with
  | nil => rfl
  | cons x xs ih =>
    rw [List.map_cons, List.map_cons, List.mapM_cons, ih]
    rfl

theorem entries?_of_fits {fields : List (String × Value)} (h : (Value.object fields).Fits) :
    Tree.entries? (depthLimit - 1 - 1) (Value.fieldTrees fields) = some (Value.sortedFields fields) := by
  rw [Value.Fits, Value.isIntegral, Value.nesting] at h
  exact Value.entries?_fieldTrees h.1 (Nat.le_sub_of_add_le h.2)

theorem values?_of_fits {items : List Value} (h : (Value.array items).Fits) :
    Tree.values? (depthLimit - 1 - 1) (Value.trees items) = some (Value.sortedItems items) := by
  rw [Value.Fits, Value.isIntegral, Value.nesting] at h
  exact Value.values?_trees h.1 (Nat.le_sub_of_add_le h.2)

section Fields

variable {names : List String} {fields : List (String × Value)} {r : Record} {name : String}
  (h : r.Holds names fields) (hname : name ∈ names)

include h hname

theorem required?_of_field {s : String} (hfield : field fields name = some (.string s)) :
    r.required? name Tree.text? = some s := by
  rw [Record.required?, h name hname, hfield]
  rfl

theorem optional?_of_field {o : Option String} (hfield : field fields name = field (optionalField name o) name) :
    r.optional? name = some o := by
  rw [Record.optional?, Record.default?, h name hname, hfield]
  cases o with
  | none => rfl
  | some s => simp [optionalField, field_cons, Value.tree, Tree.optionalText?]

theorem texts?_of_field {xs : List String} (hfield : field fields name = field (listField name xs) name) :
    r.default? name [] Tree.texts? = some xs := by
  rw [Record.default?, h name hname, hfield]
  cases xs with
  | nil => rfl
  | cons x xs =>
    have hlist : field (listField name (x :: xs)) name = some (.array ((x :: xs).map .string)) := by
      simp [listField, field_cons]
    rw [hlist]
    exact texts?_strings (x :: xs)

variable (hfit : ∀ e ∈ fields, e.2.Fits)

include hfit

theorem settings?_of_field {m : Settings} (hfield : field fields name = field (tableField name m) name) :
    r.default? name ∅ (settings? 1) = some (Value.sortedFields m.entries) := by
  by_cases hempty : m.isEmpty = true
  · have hentries : m.entries = [] := List.isEmpty_iff.1 hempty
    have hnone : field fields name = none := by rw [hfield, tableField, if_pos hempty, field_nil]
    rw [Record.default?, h name hname, hnone, hentries, Value.sortedFields]
    rfl
  · have hsome : field fields name = some (.object m.entries) := by
      rw [hfield, tableField, if_neg hempty, field_cons, if_pos rfl]
    rw [Record.default?, h name hname, hsome]
    exact entries?_of_fits (hfit _ (Value.mem_of_field hsome))

theorem tags?_of_field {tags : List Value}
    (hfield : field fields name = field (if tags.isEmpty then [] else [(name, .array tags)]) name) :
    r.default? name [] Memento.tags? = some (Value.sortedItems tags) := by
  by_cases hempty : tags.isEmpty = true
  · have htags : tags = [] := List.isEmpty_iff.1 hempty
    have hnone : field fields name = none := by rw [hfield, if_pos hempty, field_nil]
    rw [Record.default?, h name hname, hnone, htags, Value.sortedItems]
    rfl
  · have hsome : field fields name = some (.array tags) := by
      rw [hfield, if_neg hempty, field_cons, if_pos rfl]
    rw [Record.default?, h name hname, hsome]
    exact values?_of_fits (hfit _ (Value.mem_of_field hsome))

end Fields

namespace Memento

/-- The fields that a memento is written with. -/
def fields (m : Memento) : List (String × Value) :=
  match m.toValue with
  | .object fields => fields
  | _ => []

theorem toValue_eq (m : Memento) : m.toValue = .object m.fields := rfl

theorem keys_fields (m : Memento) : (m.fields.map Prod.fst).Sublist fieldNames := by
  have htags : ((if m.tags.isEmpty then [] else [("tags", Value.array m.tags)]).map Prod.fst).Sublist ["tags"] := by
    split
    · exact List.nil_sublist _
    · exact List.Sublist.refl _
  simp only [fields, toValue, List.map_append, List.append_assoc]
  exact (List.Sublist.refl ["id", "type"]).append <| (keys_optionalField "catalogItemId" _).append <|
    (keys_optionalField "displayName" _).append <| (keys_optionalField "parent" _).append <|
    (keys_listField "children" _).append <| (keys_tableField "config" _).append <|
    (keys_tableField "attributes" _).append <| (keys_listField "locations" _).append <|
    (keys_listField "policies" _).append <| (keys_listField "enrichers" _).append <|
    (keys_listField "feeds" _).append htags

theorem keys_fields_nodup (m : Memento) : (m.fields.map Prod.fst).Nodup := m.keys_fields.nodup (by decide)

/-- The memento as it is held once it has been read: the free-form values in it are sorted. -/
def sorted (m : Memento) : Memento :=
  { m with
    config := Value.sortedFields m.config.entries
    attributes := Value.sortedFields m.attributes.entries
    tags := Value.sortedItems m.tags }

theorem ofRecord?_of_holds {m : Memento} (hfit : ∀ e ∈ m.fields, e.2.Fits) {r : Record}
    (h : r.Holds fieldNames m.fields) : ofRecord? r = some m.sorted := by
  have hid : r.required? "id" Tree.text? = some m.id :=
    required?_of_field h (by decide) (by simp [fields, toValue])
  have htype : r.required? "type" Tree.text? = some m.type :=
    required?_of_field h (by decide) (by simp [fields, toValue])
  have hitem : r.optional? "catalogItemId" = some m.catalogItemId :=
    optional?_of_field h (by decide) (by simp [fields, toValue])
  have hshown : r.optional? "displayName" = some m.displayName :=
    optional?_of_field h (by decide) (by simp [fields, toValue])
  have hparent : r.optional? "parent" = some m.parent :=
    optional?_of_field h (by decide) (by simp [fields, toValue])
  have hchildren : r.default? "children" [] Tree.texts? = some m.children :=
    texts?_of_field h (by decide) (by simp [fields, toValue])
  have hconfig : r.default? "config" ∅ (settings? 1) = some (Value.sortedFields m.config.entries) :=
    settings?_of_field h (by decide) hfit (by simp [fields, toValue])
  have hattributes : r.default? "attributes" ∅ (settings? 1) = some (Value.sortedFields m.attributes.entries) :=
    settings?_of_field h (by decide) hfit (by simp [fields, toValue])
  have hlocations : r.default? "locations" [] Tree.texts? = some m.locations :=
    texts?_of_field h (by decide) (by simp [fields, toValue])
  have hpolicies : r.default? "policies" [] Tree.texts? = some m.policies :=
    texts?_of_field h (by decide) (by simp [fields, toValue])
  have henrichers : r.default? "enrichers" [] Tree.texts? = some m.enrichers :=
    texts?_of_field h (by decide) (by simp [fields, toValue])
  have hfeeds : r.default? "feeds" [] Tree.texts? = some m.feeds :=
    texts?_of_field h (by decide) (by simp [fields, toValue])
  have htags : r.default? "tags" [] tags? = some (Value.sortedItems m.tags) :=
    tags?_of_field h (by decide) hfit (by simp [fields, toValue])
  simp only [ofRecord?, hid, htype, hitem, hshown, hparent, hchildren, hconfig, hattributes, hlocations, hpolicies,
    henrichers, hfeeds, htags, Option.bind_eq_bind, Option.bind_some, sorted]

end Memento

namespace CatalogItem

/-- The fields that a catalog item is written with. -/
def fields (i : CatalogItem) : List (String × Value) :=
  match i.toValue with
  | .object fields => fields
  | _ => []

theorem toValue_eq (i : CatalogItem) : i.toValue = .object i.fields := rfl

theorem keys_fields_nodup (i : CatalogItem) : (i.fields.map Prod.fst).Nodup := by
  have hkeys : (i.fields.map Prod.fst).Sublist fieldNames := by
    simp only [fields, toValue, List.map_append, List.append_assoc]
    exact (List.Sublist.refl ["id", "type", "symbolicName", "version"]).append <|
      (keys_optionalField "registeredType" _).append <| (keys_listField "libraries" _).append <|
      (keys_optionalField "plan" _).append <| (keys_optionalField "displayName" _).append <|
      (keys_optionalField "description" _).append <| List.Sublist.refl ["deprecated"]
  exact hkeys.nodup (by decide)

theorem ofRecord?_of_holds {i : CatalogItem} {r : Record} (h : r.Holds fieldNames i.fields) :
    ofRecord? r = some i := by
  have hid : r.required? "id" Tree.text? = some i.id :=
    required?_of_field h (by decide) (by simp [fields, toValue])
  have htype : r.required? "type" Tree.text? = some i.type :=
    required?_of_field h (by decide) (by simp [fields, toValue])
  have hname : r.required? "symbolicName" Tree.text? = some i.symbolicName :=
    required?_of_field h (by decide) (by simp [fields, toValue])
  have hversion : r.required? "version" Tree.text? = some i.version :=
    required?_of_field h (by decide) (by simp [fields, toValue])
  have hregistered : r.optional? "registeredType" = some i.registeredType :=
    optional?_of_field h (by decide) (by simp [fields, toValue])
  have hlibraries : r.default? "libraries" [] Tree.texts? = some i.libraries :=
    texts?_of_field h (by decide) (by simp [fields, toValue])
  have hplan : r.optional? "plan" = some i.plan :=
    optional?_of_field h (by decide) (by simp [fields, toValue])
  have hshown : r.optional? "displayName" = some i.displayName :=
    optional?_of_field h (by decide) (by simp [fields, toValue])
  have hdescription : r.optional? "description" = some i.description :=
    optional?_of_field h (by decide) (by simp [fields, toValue])
  have hdeprecated : r.default? "deprecated" false Tree.bool? = some i.deprecated := by
    have hfield : field i.fields "deprecated" = some (.bool i.deprecated) := by simp [fields, toValue]
    rw [Record.default?, h _ (by decide), hfield]
    rfl
  simp only [ofRecord?, hid, htype, hname, hversion, hregistered, hlibraries, hplan, hshown, hdescription,
    hdeprecated, Option.bind_eq_bind, Option.bind_some]

end CatalogItem

/-! ## Readings of sorted objects -/

/-- Payloads of which every reading takes the same. -/
structure ReadAlike (p q : String) : Prop where
  memento : Memento.decode? p = Memento.decode? q
  item : CatalogItem.decode? p = CatalogItem.decode? q
  summary : EntitySummary.decode? p = EntitySummary.decode? q
  probe : LocationProbe.decode? p = LocationProbe.decode? q

theorem settles_settings? : Tree.Settles (settings? 1) := fun v hv => by
  cases v with
  | object fields =>
    have hsorted := hv.sorted
    rw [Value.sorted] at hsorted ⊢
    show Tree.entries? (depthLimit - 1 - 1) (Value.fieldTrees (Value.sortedFields fields).entries)
      = Tree.entries? (depthLimit - 1 - 1) (Value.fieldTrees fields)
    rw [entries?_of_fits hsorted, entries?_of_fits hv, Value.sortedFields_sortedFields]
  | _ => simp [Value.sorted, Value.tree, settings?]

theorem settles_tags? : Tree.Settles Memento.tags? := fun v hv => by
  cases v with
  | array items =>
    have hsorted := hv.sorted
    rw [Value.sorted] at hsorted ⊢
    show Tree.values? (depthLimit - 1 - 1) (Value.trees (Value.sortedItems items))
      = Tree.values? (depthLimit - 1 - 1) (Value.trees items)
    rw [values?_of_fits hsorted, values?_of_fits hv, Value.sortedItems_sortedItems]
  | _ => simp [Value.sorted, Value.tree, Memento.tags?]

section Sorted

variable {fields : List (String × Value)} (hnd : (fields.map Prod.fst).Nodup) (hfit : ∀ e ∈ fields, e.2.Fits)

include hnd hfit

omit hfit in
/-- A reading of records that does not see whether an object is sorted takes the same of its two texts. -/
theorem decode_sorted {α : Type} (names : List String) (ofRecord? : Record → Option α)
    (hread : ∀ {r r' : Record}, r.Holds names fields → r'.Holds names (Value.sortedFields fields).entries →
      ofRecord? r' = ofRecord? r) :
    ((Tree.parse? (Value.object fields).sorted.compact).bind fun t => (t.record? names).bind ofRecord?)
      = (Tree.parse? (Value.object fields).compact).bind fun t => (t.record? names).bind ofRecord? := by
  obtain ⟨r, hr, h⟩ := Value.exists_record?_tree names hnd
  obtain ⟨r', hr', h'⟩ := Value.exists_record?_tree names (Value.sortedFields fields).keys_nodup
  rw [Value.parse?_compact, Value.parse?_compact, Value.sorted, Option.bind_some,
    Option.bind_some, hr, hr', Option.bind_some, Option.bind_some]
  exact hread h h'

theorem readAlike_sorted : ReadAlike (Value.object fields).sorted.compact (Value.object fields).compact where
  memento := decode_sorted hnd Memento.fieldNames Memento.ofRecord? fun h h' => by
    simp (disch := decide) only [Memento.ofRecord?, h.required?_eq h' hnd hfit Tree.settles_text?,
      h.optional?_eq h' hnd hfit, h.default?_eq h' hnd hfit _ Tree.settles_texts?,
      h.default?_eq h' hnd hfit _ settles_settings?, h.default?_eq h' hnd hfit _ settles_tags?]
  item := decode_sorted hnd CatalogItem.fieldNames CatalogItem.ofRecord? fun h h' => by
    simp (disch := decide) only [CatalogItem.ofRecord?, h.required?_eq h' hnd hfit Tree.settles_text?,
      h.optional?_eq h' hnd hfit, h.default?_eq h' hnd hfit _ Tree.settles_texts?,
      h.default?_eq h' hnd hfit _ Tree.settles_bool?]
  summary := decode_sorted hnd EntitySummary.fieldNames EntitySummary.ofRecord? fun h h' => by
    simp (disch := decide) only [EntitySummary.ofRecord?, h.required?_eq h' hnd hfit Tree.settles_text?,
      h.optional?_eq h' hnd hfit]
  probe := decode_sorted hnd LocationProbe.fieldNames LocationProbe.ofRecord? fun h h' => by
    simp (disch := decide) only [LocationProbe.ofRecord?, h.required?_eq h' hnd hfit Tree.settles_text?]

end Sorted

/-! ## Whole texts -/

/-- What an object that is read whole holds fits inside it. -/
theorem fits_of_mem {fields : List (String × Value)} (hint : (Value.object fields).isIntegral = true)
    (hnest : (Value.object fields).nesting ≤ depthLimit) : ∀ e ∈ fields, e.2.Fits := by
  rw [Value.isIntegral, Value.fieldsAreIntegral_iff] at hint
  rw [Value.nesting] at hnest
  exact fun e he => ⟨hint e he, Value.nestingFields_le_iff.1 (Nat.le_sub_of_add_le hnest) e he⟩

/-- A memento is read from its text as it is, with its free-form values sorted. -/
theorem Memento.decode?_encode {m : Memento} (hint : m.toValue.isIntegral = true)
    (hnest : m.toValue.nesting ≤ depthLimit) : decode? m.encode = some m.sorted := by
  obtain ⟨r, hr, hholds⟩ := Value.exists_record?_tree fieldNames m.keys_fields_nodup
  have hparse : Tree.parse? m.encode = some (Value.object m.fields).tree := Value.parse?_compact m.toValue
  simp only [decode?, hparse, ofTree?, Option.bind_eq_bind, Option.bind_some, hr]
  exact ofRecord?_of_holds (fits_of_mem hint hnest) hholds

theorem CatalogItem.decode?_encode (i : CatalogItem) : decode? i.encode = some i := by
  obtain ⟨r, hr, hholds⟩ := Value.exists_record?_tree fieldNames i.keys_fields_nodup
  have hparse : Tree.parse? i.encode = some (Value.object i.fields).tree := Value.parse?_compact i.toValue
  simp only [decode?, hparse, ofTree?, Option.bind_eq_bind, Option.bind_some, hr]
  exact ofRecord?_of_holds hholds

end ManagementPlane
