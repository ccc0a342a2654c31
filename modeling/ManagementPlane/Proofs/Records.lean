import ManagementPlane.Json.Record
import ManagementPlane.Proofs.SortedValues

/-!
# Records in written objects

An object whose keys differ is read as the record of the fields that are declared, and a field of it as the tree of
what the object holds under its name. Sorting the object changes the order of the fields and sorts what they hold,
so readings of a field that do not see the difference take the same from either.

* `Value.field` : what a list of fields holds under a name;
* `Record.Holds` : a record in which the declared names stand for the fields of a list;
* `Value.exists_record?_tree` : the record that is read of an object;
* `Tree.Settles` : readings that take the same of a value and of its sorted form;
* `Record.Holds.required?_eq`, … : fields taken from the record of an object and of the sorted one.
-/

namespace ManagementPlane

theorem SortedMap.keys_nodup {α : Type} (m : SortedMap α) : (m.entries.map Prod.fst).Nodup :=
  List.pairwise_map.2 (m.sorted.imp fun {a b} (h : a.1 < b.1) (he : a.1 = b.1) => String.lt_irrefl _ (he ▸ h))

end ManagementPlane

namespace ManagementPlane.Json

variable {α : Type}

namespace Value

/-! ## Fields by name -/

/-- What the first field with a name holds. -/
def field (fields : List (String × Value)) (name : String) : Option Value :=
  (fields.find? fun e => e.1 = name).map Prod.snd

@[simp] theorem field_nil (name : String) : field [] name = none := rfl

@[simp] theorem field_cons (e : String × Value) (fields : List (String × Value)) (name : String) :
    field (e :: fields) name = if e.1 = name then some e.2 else field fields name := by
  by_cases h : e.1 = name <;> simp [field, h]

@[simp] theorem field_append (fields more : List (String × Value)) (name : String) :
    field (fields ++ more) name = (field fields name).or (field more name) := by
  rw [field, List.find?_append, Option.map_or, ← field, ← field]

theorem field_eq_none {fields : List (String × Value)} {name : String} (h : name ∉ fields.map Prod.fst) :
    field fields name = none := by
  rw [field, List.find?_eq_none.2, Option.map_none]
  intro e he hname
  exact h (List.mem_map.2 ⟨e, he, of_decide_eq_true hname⟩)

theorem mem_of_field {fields : List (String × Value)} {name : String} {v : Value} (h : field fields name = some v) :
    (name, v) ∈ fields := by
  obtain ⟨e, he, rfl⟩ := Option.map_eq_some_iff.1 h
  have hname := List.find?_some he
  rw [decide_eq_true_eq] at hname
  rw [← hname]
  exact List.mem_of_find?_eq_some he

/-- The sorted table of fields with different names holds the sorted form of what each of them holds. -/
theorem get?_sortedFields {fields : List (String × Value)} (hnd : (fields.map Prod.fst).Nodup) (name : String) :
    (sortedFields fields).get? name = (field fields name).map sorted := by
  induction fields generalizing name with
  | nil =>
    rw [sortedFields]
    rfl
  | cons e r ih =>
    obtain ⟨k, v⟩ := e
    rw [List.map_cons, List.nodup_cons] at hnd
    have hnew : (sortedFields r).get? k = none := by
      rw [ih hnd.2, field_eq_none hnd.1, Option.map_none]
    rw [sortedFields, hnew, field_cons]
    show ((sortedFields r).insert k v.sorted).get? name = _
    rw [SortedMap.get?_insert, ih hnd.2]
    split <;> rfl

theorem field_entries (m : SortedMap Value) (name : String) : field m.entries name = m.get? name := by
  obtain ⟨entries, hsorted⟩ := m
  show field entries name = SortedMap.lookup name entries
  clear hsorted
  induction entries with
  | nil => rfl
  | cons e r ih => rw [field_cons, SortedMap.lookup, ih]

end Value

/-! ## The record of an object -/

/-- A record in which the declared names stand for the fields of a list. -/
def Record.Holds (r : Record) (names : List String) (fields : List (String × Value)) : Prop :=
  ∀ name ∈ names, r.get? name = (Value.field fields name).map Value.tree

theorem Record.get?_cons (k : String) (t : Tree) (r : Record) (name : String) :
    get? ((k, t) :: r) name = if k = name then some t else r.get? name := by
  by_cases h : k = name <;> simp [get?, h]

theorem Record.exists_ofFields? (names : List String) {fields : List (String × Value)}
    (hnd : (fields.map Prod.fst).Nodup) :
    ∃ r : Record, ofFields? names (Value.fieldTrees fields) = some r ∧ r.map Prod.fst ⊆ fields.map Prod.fst
      ∧ r.Holds names fields := by
  induction fields with
  | nil => exact ⟨[], by rw [Value.fieldTrees, ofFields?], List.nil_subset _, fun _ _ => rfl⟩
  | cons e more ih =>
    obtain ⟨k, v⟩ := e
    rw [List.map_cons, List.nodup_cons] at hnd
    obtain ⟨r, hr, hkeys, hholds⟩ := ih hnd.2
    have hnew : k ∉ r.map Prod.fst := fun hk => hnd.1 (hkeys hk)
    simp only [Value.fieldTrees, ofFields?, hr, Option.bind_eq_bind, Option.bind_some]
    by_cases hk : k ∈ names
    · refine ⟨(k, v.tree) :: r, by rw [if_pos hk, if_neg hnew], ?_, fun name hname => ?_⟩
      · exact List.cons_subset_cons k hkeys
      · rw [get?_cons, Value.field_cons, hholds name hname]
        split <;> rfl
    · refine ⟨r, by rw [if_neg hk], List.subset_cons_of_subset k hkeys, fun name hname => ?_⟩
      have hne : k ≠ name := fun he => hk (he ▸ hname)
      rw [Value.field_cons, if_neg hne, hholds name hname]

/-- An object with different keys is read as a record of its declared fields. -/
theorem Value.exists_record?_tree (names : List String) {fields : List (String × Value)}
    (hnd : (fields.map Prod.fst).Nodup) :
    ∃ r : Record, (object fields).tree.record? names = some r ∧ r.Holds names fields := by
  obtain ⟨r, hr, -, hholds⟩ := Record.exists_ofFields? names hnd
  exact ⟨r, by rw [tree, Tree.record?, hr], hholds⟩

/-! ## Readings that do not see the order -/

/-- The value can be read inside a container that is read whole. -/
def Value.Fits (v : Value) : Prop := v.isIntegral = true ∧ v.nesting ≤ depthLimit - 1

theorem Value.Fits.sorted {v : Value} (h : v.Fits) : v.sorted.Fits :=
  ⟨isIntegral_sorted h.1, Nat.le_trans (nesting_sorted_le v) h.2⟩

/-- The reading takes the same of a value and of its sorted form. -/
def Tree.Settles (read : Tree → Option α) : Prop := ∀ v : Value, v.Fits → read v.sorted.tree = read v.tree

namespace Tree

theorem settles_text? : Settles text? := fun v _ => by
  cases v <;> simp [Value.sorted, Value.tree, text?]

theorem settles_bool? : Settles bool? := fun v _ => by
  cases v <;> simp [Value.sorted, Value.tree, bool?]

theorem settles_optionalText? : Settles optionalText? := fun v _ => by
  cases v <;> simp [Value.sorted, Value.tree, optionalText?]

theorem trees_eq_map (items : List Value) : Value.trees items = items.map Value.tree := by
  induction items with
  | nil => rfl
  | cons v r ih => rw [Value.trees, List.map_cons, ih]

theorem settles_texts? : Settles texts? := fun v _ => by
  cases v with
  | array items =>
    have hitem : ∀ v : Value, v.sorted.tree.text? = v.tree.text? := fun v => by
      cases v <;> simp [Value.sorted, Value.tree, text?]
    simp only [Value.sorted, Value.tree, texts?, trees_eq_map, Value.sortedItems_eq_map, List.mapM_map,
      Function.comp_def, hitem]
  | _ => simp [Value.sorted, Value.tree, texts?]

end Tree

namespace Record.Holds

variable {names : List String} {fields : List (String × Value)} {r r' : Record} {name : String}
  {read : Tree → Option α}

theorem get?_sorted (h' : r'.Holds names (Value.sortedFields fields).entries)
    (hnd : (fields.map Prod.fst).Nodup) (hname : name ∈ names) :
    r'.get? name = ((Value.field fields name).map Value.sorted).map Value.tree := by
  rw [h' name hname, Value.field_entries, Value.get?_sortedFields hnd]

variable (h : r.Holds names fields) (h' : r'.Holds names (Value.sortedFields fields).entries)
  (hnd : (fields.map Prod.fst).Nodup) (hfit : ∀ e ∈ fields, e.2.Fits)

include h h' hnd hfit

theorem default?_eq (missing : α) (hread : Tree.Settles read) (hname : name ∈ names) :
    r'.default? name missing read = r.default? name missing read := by
  rw [default?, default?, get?_sorted h' hnd hname, h name hname]
  cases hv : Value.field fields name with
  | none => rfl
  | some v => exact hread v (hfit _ (Value.mem_of_field hv))

theorem required?_eq (hread : Tree.Settles read) (hname : name ∈ names) :
    r'.required? name read = r.required? name read := by
  rw [required?, required?, get?_sorted h' hnd hname, h name hname]
  cases hv : Value.field fields name with
  | none => rfl
  | some v => exact hread v (hfit _ (Value.mem_of_field hv))

theorem optional?_eq (hname : name ∈ names) : r'.optional? name = r.optional? name :=
  default?_eq h h' hnd hfit none Tree.settles_optionalText? hname

end Record.Holds

end ManagementPlane.Json
