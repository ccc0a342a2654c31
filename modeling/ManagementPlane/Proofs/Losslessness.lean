import ManagementPlane.Proofs.MementoText

/-!
# Nothing is lost in writing

A memento whose free-form values hold integers alone comes back from its text as it was, and so it does from the text of
its sorted object, which is what stores on disk keep. The parts that are left out because they are empty come back empty.

* `Value.isOrdered` : every object in a value lists its fields in the order of their keys, as it does once it is held;
* `Value.sorted_of_isOrdered` : such a value is its sorted form;
* `Memento.freeForm`, `Memento.sorted_eq` : the free-form values, and what becomes of them when they are read;
* `Memento.optionalParts`, `CatalogItem.optionalParts` : the parts that may be left out;
* `encoding_isLossless` : mementos and catalog items come back from either text.
-/

namespace ManagementPlane

open Json (Value depthLimit)
open Json.Value (field)

namespace Json.Value

/-! ## Ordered values -/

mutual

/-- Every object in the value lists its fields in the order of their keys, each key once. -/
def isOrdered : Value → Bool
  | array items => areOrdered items
  | object fields => decide (fields.Pairwise fun a b => a.1 < b.1) && fieldsAreOrdered fields
  | _ => true

def areOrdered : List Value → Bool
  | [] => true
  | v :: r => isOrdered v && areOrdered r

def fieldsAreOrdered : List (String × Value) → Bool
  | [] => true
  | (_, v) :: r => isOrdered v && fieldsAreOrdered r

end

theorem areOrdered_iff {items : List Value} : areOrdered items = true ↔ ∀ v ∈ items, v.isOrdered = true := by
  induction items with
  | nil => simp [areOrdered]
  | cons v r ih => simp [areOrdered, ih]

theorem fieldsAreOrdered_iff {fields : List (String × Value)} :
    fieldsAreOrdered fields = true ↔ ∀ e ∈ fields, e.2.isOrdered = true := by
  induction fields with
  | nil => simp [fieldsAreOrdered]
  | cons e r ih => simp [fieldsAreOrdered, ih]

/-- An ordered value stays as it is when it is sorted. -/
theorem sorted_of_isOrdered {v : Value} (h : v.isOrdered = true) : v.sorted = v := by
  induction v using parts_induction with
  | scalar v harray hobject => exact sorted_of_scalar harray hobject
  | array items ih =>
    rw [isOrdered, areOrdered_iff] at h
    have hitems : items.map sorted = items.map id := List.map_congr_left fun v hv => ih v hv (h v hv)
    rw [sorted, sortedItems_eq_map, hitems, List.map_id]
  | object fields ih =>
    rw [isOrdered, Bool.and_eq_true, decide_eq_true_eq, fieldsAreOrdered_iff] at h
    rw [sorted, entries_sortedFields h.1 fun e he => ih e he (h.2 e he)]

end Json.Value

/-! ## Parts that may be left out -/

@[simp] theorem field_optionalField_eq_none_iff {name : String} {o : Option String} :
    field (optionalField name o) name = none ↔ o.isNone = true := by
  cases o <;> simp [optionalField]

@[simp] theorem field_listField_eq_none_iff {name : String} {xs : List String} :
    field (listField name xs) name = none ↔ xs.isEmpty = true := by
  cases xs <;> simp [listField]

@[simp] theorem field_tableField_eq_none_iff {name : String} {m : Settings} :
    field (tableField name m) name = none ↔ m.isEmpty = true := by
  rw [tableField]
  split <;> simp_all

/-- A part is empty exactly if it is left out of the fields. -/
def LeavesOutEmpty (fields : List (String × Value)) (parts : List (String × Bool)) : Prop :=
  ∀ part ∈ parts, field fields part.1 = none ↔ part.2 = true

namespace Memento

/-- The parts that may be left out, and whether they are empty. -/
def optionalParts (m : Memento) : List (String × Bool) :=
  [("catalogItemId", m.catalogItemId.isNone), ("displayName", m.displayName.isNone), ("parent", m.parent.isNone),
    ("children", m.children.isEmpty), ("config", m.config.isEmpty), ("attributes", m.attributes.isEmpty),
    ("locations", m.locations.isEmpty), ("policies", m.policies.isEmpty), ("enrichers", m.enrichers.isEmpty),
    ("feeds", m.feeds.isEmpty), ("tags", m.tags.isEmpty)]

theorem leavesOutEmpty (m : Memento) : LeavesOutEmpty m.fields m.optionalParts := by
  have htags : field (if m.tags.isEmpty then [] else [("tags", Value.array m.tags)]) "tags" = none ↔
      m.tags.isEmpty = true := by
    split <;> simp_all
  simpa [LeavesOutEmpty, optionalParts, fields, toValue] using htags

end Memento

namespace CatalogItem

/-- The parts that may be left out, and whether they are empty. Whether the item is deprecated is always written. -/
def optionalParts (i : CatalogItem) : List (String × Bool) :=
  [("registeredType", i.registeredType.isNone), ("libraries", i.libraries.isEmpty), ("plan", i.plan.isNone),
    ("displayName", i.displayName.isNone), ("description", i.description.isNone)]

theorem leavesOutEmpty (i : CatalogItem) : LeavesOutEmpty i.fields i.optionalParts := by
  simp [LeavesOutEmpty, optionalParts, fields, toValue]

end CatalogItem

/-! ## What the fields hold -/

@[simp] theorem Json.Value.fieldsAreIntegral_append (fields more : List (String × Value)) :
    fieldsAreIntegral (fields ++ more) = (fieldsAreIntegral fields && fieldsAreIntegral more) := by
  rw [Bool.eq_iff_iff, Bool.and_eq_true]
  simp only [fieldsAreIntegral_iff, List.forall_mem_append]

@[simp] theorem fieldsAreIntegral_optionalField (name : String) (o : Option String) :
    Value.fieldsAreIntegral (optionalField name o) = true := by
  cases o <;> simp [optionalField, Value.fieldsAreIntegral, Value.isIntegral]

@[simp] theorem fieldsAreIntegral_listField (name : String) (xs : List String) :
    Value.fieldsAreIntegral (listField name xs) = true := by
  have hitems : Value.areIntegral (xs.map .string) = true := by
    simp [Value.areIntegral_iff, Value.isIntegral]
  cases xs with
  | nil => rfl
  | cons x xs => simpa [listField, Value.fieldsAreIntegral, Value.isIntegral] using hitems

@[simp] theorem fieldsAreIntegral_tableField (name : String) (m : Settings) :
    Value.fieldsAreIntegral (tableField name m) = Value.fieldsAreIntegral m.entries := by
  rw [tableField]
  split
  · next hempty => rw [List.isEmpty_iff.1 hempty]
  · simp [Value.fieldsAreIntegral, Value.isIntegral]

@[simp] theorem Json.Value.nestingFields_append (fields more : List (String × Value)) :
    nestingFields (fields ++ more) = max (nestingFields fields) (nestingFields more) := by
  induction fields with
  | nil => rw [List.nil_append, nestingFields, Nat.zero_max]
  | cons e r ih => rw [List.cons_append, nestingFields, nestingFields, ih, Nat.max_assoc]

@[simp] theorem nestingFields_optionalField (name : String) (o : Option String) :
    Value.nestingFields (optionalField name o) = 0 := by
  cases o <;> simp [optionalField, Value.nestingFields, Value.nesting]

theorem nestingFields_listField_le (name : String) (xs : List String) :
    Value.nestingFields (listField name xs) ≤ 1 := by
  have hitems : Value.nestingItems (xs.map .string) ≤ 0 :=
    Value.nestingItems_le_iff.2 (by simp [Value.nesting])
  cases xs with
  | nil => exact Nat.zero_le 1
  | cons x xs => simpa [listField, Value.nestingFields, Value.nesting] using hitems

/-! ## Both texts -/

namespace Memento

variable {m : Memento}

/-- The free-form values of a memento: its configuration, its attributes and its tags. -/
def freeForm (m : Memento) : List Value :=
  m.config.entries.map Prod.snd ++ m.attributes.entries.map Prod.snd ++ m.tags

theorem forall_mem_freeForm_iff {P : Value → Prop} : (∀ v ∈ m.freeForm, P v) ↔
    (∀ e ∈ m.config.entries, P e.2) ∧ (∀ e ∈ m.attributes.entries, P e.2) ∧ ∀ v ∈ m.tags, P v := by
  simp only [freeForm, List.forall_mem_append, List.forall_mem_map, and_assoc]

/-- Where the free-form values hold integers alone, so does everything that is written. -/
theorem isIntegral_toValue (h : ∀ v ∈ m.freeForm, v.isIntegral = true) : m.toValue.isIntegral = true := by
  obtain ⟨hconfig, hattributes, htags⟩ := forall_mem_freeForm_iff.1 h
  have htags' : Value.fieldsAreIntegral (if m.tags.isEmpty then [] else [("tags", Value.array m.tags)]) = true := by
    split
    · rfl
    · simpa [Value.fieldsAreIntegral, Value.isIntegral, Value.areIntegral_iff] using htags
  rw [← Value.fieldsAreIntegral_iff] at hconfig hattributes
  simp only [toValue, Value.isIntegral, Value.fieldsAreIntegral_append, fieldsAreIntegral_optionalField,
    fieldsAreIntegral_listField, fieldsAreIntegral_tableField, Value.fieldsAreIntegral, hconfig, hattributes, htags',
    Bool.and_self]

/-- Ordered free-form values stay as they are when the memento is read. -/
theorem sorted_eq (h : ∀ v ∈ m.freeForm, v.isOrdered = true) : m.sorted = m := by
  obtain ⟨hconfig, hattributes, htags⟩ := forall_mem_freeForm_iff.1 h
  have hsorted : ∀ s : Settings, (∀ e ∈ s.entries, e.2.isOrdered = true) → Value.sortedFields s.entries = s :=
    fun s hs => SortedMap.ext (Value.entries_sortedFields s.sorted fun e he => Value.sorted_of_isOrdered (hs e he))
  have htags' : Value.sortedItems m.tags = m.tags := by
    rw [Value.sortedItems_eq_map]
    exact (List.map_congr_left fun v hv => Value.sorted_of_isOrdered (htags v hv)).trans (List.map_id _)
  rw [sorted, hsorted m.config hconfig, hsorted m.attributes hattributes, htags']

/-- The texts of a memento and of its sorted object are read alike. -/
theorem readAlike (hint : m.toValue.isIntegral = true) (hnest : m.toValue.nesting ≤ depthLimit) :
    ReadAlike m.toValue.sorted.compact m.encode :=
  readAlike_sorted m.keys_fields_nodup (fits_of_mem hint hnest)

end Memento

namespace CatalogItem

theorem isIntegral_toValue (i : CatalogItem) : i.toValue.isIntegral = true := by
  simp [toValue, Value.isIntegral, Value.fieldsAreIntegral]

/-- Nothing in a catalog item nests deeper than its libraries. -/
theorem nesting_toValue_le (i : CatalogItem) : i.toValue.nesting ≤ depthLimit := by
  have hlibraries : Value.nestingFields (listField "libraries" i.libraries) ≤ 1 := nestingFields_listField_le _ _
  have hfields : Value.nestingFields i.fields ≤ 1 := by
    simpa [fields, toValue, Value.nestingFields, Value.nesting] using hlibraries
  rw [toValue_eq, Value.nesting, depthLimit]
  omega

theorem readAlike (i : CatalogItem) : ReadAlike i.toValue.sorted.compact i.encode :=
  readAlike_sorted i.keys_fields_nodup (fits_of_mem i.isIntegral_toValue i.nesting_toValue_le)

end CatalogItem

/-- Writing loses nothing. A memento whose free-form values hold no other numbers than integers of 64 bits, and that nests
no deeper than texts are read, comes back as it was from its text, and from the text of its sorted object; and so does
every catalog item. A part is left out of the text exactly if it is empty, so that it comes back empty. -/
theorem encoding_isLossless (m : Memento) (i : CatalogItem)
    (hordered : ∀ v ∈ m.freeForm, v.isOrdered = true) (hint : ∀ v ∈ m.freeForm, v.isIntegral = true)
    (hnest : m.toValue.nesting ≤ depthLimit) :
    (Memento.decode? m.encode = some m ∧ Memento.decode? m.toValue.sorted.compact = some m ∧
        LeavesOutEmpty m.fields m.optionalParts) ∧
      CatalogItem.decode? i.encode = some i ∧ CatalogItem.decode? i.toValue.sorted.compact = some i ∧
        LeavesOutEmpty i.fields i.optionalParts := by
  have hm : m.toValue.isIntegral = true := m.isIntegral_toValue hint
  have hmemento : Memento.decode? m.encode = some m := by
    rw [Memento.decode?_encode hm hnest, Memento.sorted_eq hordered]
  have hitem : CatalogItem.decode? i.encode = some i := CatalogItem.decode?_encode i
  exact ⟨⟨hmemento, (Memento.readAlike hm hnest).memento.trans hmemento, m.leavesOutEmpty⟩,
    hitem, i.readAlike.item.trans hitem, i.leavesOutEmpty⟩

/-- An entity and a catalog item with characters that are escaped and such that take four bytes, with the least and the
greatest integers, and with empty containers within each other. -/
def thornyApp : Memento where
  id := "web\n\"\\\t"
  type := "🦀"
  parent := some ""
  children := ["", "\x00\x1f\x7f"]
  config := SortedMap.ofList [("a", .array [.number (.int (-2 ^ 63)), .number (.int (2 ^ 64 - 1)), .array []]),
    ("ü", .object [("", .null), ("x", .object []), ("🦀", .bool false)])]

def thornyItem : CatalogItem where
  id := "db:1.0"
  type := "\u2028"
  symbolicName := "db"
  version := "1.0"
  libraries := ["/"]
  deprecated := true

theorem encoding_isLossless_thornyApp :
    (∀ v ∈ thornyApp.freeForm, v.isOrdered = true) ∧ (∀ v ∈ thornyApp.freeForm, v.isIntegral = true) ∧
      thornyApp.toValue.nesting ≤ depthLimit ∧ Memento.decode? thornyApp.encode = some thornyApp ∧
      Memento.decode? thornyApp.toValue.sorted.compact = some thornyApp ∧
      CatalogItem.decode? thornyItem.encode = some thornyItem := by
  have hordered : ∀ v ∈ thornyApp.freeForm, v.isOrdered = true := by decide +kernel
  have hint : ∀ v ∈ thornyApp.freeForm, v.isIntegral = true := by decide +kernel
  have hnest : thornyApp.toValue.nesting ≤ depthLimit := by decide +kernel
  obtain ⟨⟨hread, hsorted, -⟩, hitem, -⟩ := encoding_isLossless thornyApp thornyItem hordered hint hnest
  exact ⟨hordered, hint, hnest, hread, hsorted, hitem⟩

end ManagementPlane
