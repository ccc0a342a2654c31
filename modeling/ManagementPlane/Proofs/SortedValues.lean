import ManagementPlane.Proofs.Spelling

/-!
# The values that trees stand for

What is read of the tree of a value is that value with its fields in order, if it nests no deeper than the reader
goes. Sorted once, a value stays as it is.

* `Value.nesting` : how many containers lie within each other;
* `Value.value?_tree` : the value of its tree;
* `Value.sorted_sorted`, `Value.isIntegral_sorted`, `Value.nesting_sorted_le` : sorted values.
-/

namespace ManagementPlane.Json.Value

mutual

/-- How many containers lie within each other. -/
def nesting : Value → Nat
  | array items => nestingItems items + 1
  | object fields => nestingFields fields + 1
  | _ => 0

def nestingItems : List Value → Nat
  | [] => 0
  | v :: r => max (nesting v) (nestingItems r)

def nestingFields : List (String × Value) → Nat
  | [] => 0
  | (_, v) :: r => max (nesting v) (nestingFields r)

end

/-! ## Reading -/

mutual

/-- What is read of the tree of a value is the value with its fields in order. -/
theorem value?_tree : ∀ {v : Value} {d : Nat}, v.isIntegral = true → v.nesting ≤ d →
    v.tree.value? d = some v.sorted
  | null, _, _, _ | bool _, _, _, _ | string _, _, _, _ => by simp [tree, Tree.value?, sorted]
  | number n, _, hv, _ => by
    rw [isIntegral] at hv
    rw [tree, Tree.value?, Tree.number?_numeral hv, Option.map_some, sorted]
    all_goals nofun
  | array items, d + 1, hv, hd => by
    rw [isIntegral] at hv
    rw [nesting] at hd
    rw [tree, Tree.value?, values?_trees hv (Nat.le_of_succ_le_succ hd), Option.map_some, sorted]
  | object fields, d + 1, hv, hd => by
    rw [isIntegral] at hv
    rw [nesting] at hd
    rw [tree, Tree.value?, entries?_fieldTrees hv (Nat.le_of_succ_le_succ hd), Option.map_some, sorted]

theorem values?_trees : ∀ {items : List Value} {d : Nat}, areIntegral items = true → nestingItems items ≤ d →
    Tree.values? d (trees items) = some (sortedItems items)
  | [], _, _, _ => by rw [trees, Tree.values?, sortedItems]
  | v :: r, d, hv, hd => by
    rw [areIntegral, Bool.and_eq_true] at hv
    rw [nestingItems, Nat.max_le] at hd
    rw [trees, Tree.values?, value?_tree hv.1 hd.1, values?_trees hv.2 hd.2, sortedItems]
    rfl

theorem entries?_fieldTrees : ∀ {fields : List (String × Value)} {d : Nat}, fieldsAreIntegral fields = true →
    nestingFields fields ≤ d → Tree.entries? d (fieldTrees fields) = some (sortedFields fields)
  | [], _, _, _ => by rw [fieldTrees, Tree.entries?, sortedFields]
  | (k, v) :: r, d, hv, hd => by
    rw [fieldsAreIntegral, Bool.and_eq_true] at hv
    rw [nestingFields, Nat.max_le] at hd
    rw [fieldTrees, Tree.entries?, value?_tree hv.1 hd.1, entries?_fieldTrees hv.2 hd.2, sortedFields]
    simp only [Option.bind_eq_bind, Option.bind_some]
    cases (sortedFields r).get? k <;> rfl

end

/-! ## Parts of values -/

/-- What holds of a value if it holds of its items or fields holds of all values. -/
@[elab_as_elim]
theorem parts_induction {P : Value → Prop}
    (scalar : ∀ v, (∀ items, v ≠ array items) → (∀ fields, v ≠ object fields) → P v)
    (array : ∀ items, (∀ v ∈ items, P v) → P (array items))
    (object : ∀ fields : List (String × Value), (∀ e ∈ fields, P e.2) → P (object fields)) (v : Value) : P v :=
  match v with
  | null | bool _ | number _ | string _ => scalar _ nofun nofun
  | .array items => array items fun w _ => parts_induction scalar array object w
  | .object fields => object fields fun e _ => parts_induction scalar array object e.2
termination_by sizeOf v
decreasing_by
  · have := List.sizeOf_lt_of_mem ‹w ∈ items›
    simp only [Value.array.sizeOf_spec]
    omega
  · have := List.sizeOf_lt_of_mem ‹e ∈ fields›
    obtain ⟨k, w⟩ := e
    simp only [Prod.mk.sizeOf_spec] at this
    simp only [Value.object.sizeOf_spec]
    omega

theorem sorted_of_scalar {v : Value} (harray : ∀ items, v ≠ array items) (hobject : ∀ fields, v ≠ object fields) :
    v.sorted = v := by
  cases v with
  | array items => exact absurd rfl (harray items)
  | object fields => exact absurd rfl (hobject fields)
  | _ => rw [sorted] <;> nofun

theorem sortedItems_eq_map (items : List Value) : sortedItems items = items.map sorted := by
  induction items with
  | nil => rw [sortedItems, List.map_nil]
  | cons v r ih => rw [sortedItems, List.map_cons, ih]

theorem areIntegral_iff {items : List Value} : areIntegral items = true ↔ ∀ v ∈ items, v.isIntegral = true := by
  induction items with
  | nil => simp [areIntegral]
  | cons v r ih => simp [areIntegral, ih]

theorem nestingItems_le_iff {items : List Value} {d : Nat} :
    nestingItems items ≤ d ↔ ∀ v ∈ items, v.nesting ≤ d := by
  induction items with
  | nil => simp [nestingItems]
  | cons v r ih => rw [nestingItems, Nat.max_le, ih, List.forall_mem_cons]

theorem fieldsAreIntegral_iff {fields : List (String × Value)} :
    fieldsAreIntegral fields = true ↔ ∀ e ∈ fields, e.2.isIntegral = true := by
  induction fields with
  | nil => simp [fieldsAreIntegral]
  | cons e r ih => simp [fieldsAreIntegral, ih]

theorem nestingFields_le_iff {fields : List (String × Value)} {d : Nat} :
    nestingFields fields ≤ d ↔ ∀ e ∈ fields, e.2.nesting ≤ d := by
  induction fields with
  | nil => simp [nestingFields]
  | cons e r ih => rw [nestingFields, Nat.max_le, ih, List.forall_mem_cons]

/-! ## Sorted values -/

/-- Every field of the table is the sorted form of one that was listed. -/
theorem exists_of_mem_sortedFields {fields : List (String × Value)} {e : String × Value}
    (he : e ∈ (sortedFields fields).entries) : ∃ v, (e.1, v) ∈ fields ∧ e.2 = v.sorted := by
  induction fields with
  | nil =>
    rw [sortedFields] at he
    cases he
  | cons f r ih =>
    obtain ⟨k, v⟩ := f
    rw [sortedFields] at he
    have hrest : e ∈ (sortedFields r).entries → ∃ w, (e.1, w) ∈ (k, v) :: r ∧ e.2 = w.sorted := fun h => by
      obtain ⟨w, hw, hew⟩ := ih h
      exact ⟨w, List.mem_cons_of_mem _ hw, hew⟩
    split at he
    · exact hrest he
    · rcases SortedMap.mem_place he with rfl | he
      · exact ⟨v, List.mem_cons_self, rfl⟩
      · exact hrest he

/-- Fields in order stay as they are. -/
theorem entries_sortedFields {fields : List (String × Value)} (hfields : fields.Pairwise fun a b => a.1 < b.1)
    (hsorted : ∀ e ∈ fields, e.2.sorted = e.2) : (sortedFields fields).entries = fields := by
  induction fields with
  | nil =>
    rw [sortedFields]
    rfl
  | cons e r ih =>
    obtain ⟨k, v⟩ := e
    rw [List.pairwise_cons] at hfields
    have hrest := ih hfields.2 fun e he => hsorted e (List.mem_cons_of_mem _ he)
    have hnew : (sortedFields r).get? k = none := by
      rw [SortedMap.get?, hrest]
      exact SortedMap.lookup_eq_none_of_lt hfields.1
    have hv : v.sorted = v := hsorted (k, v) List.mem_cons_self
    rw [sortedFields, hnew, hv]
    show SortedMap.place k v (sortedFields r).entries = _
    rw [hrest]
    cases r with
    | nil => rfl
    | cons f r =>
      have hlt : k < f.1 := hfields.1 f List.mem_cons_self
      have hne : f.1 ≠ k := fun he => String.lt_irrefl _ (he ▸ hlt)
      rw [SortedMap.place, if_neg (String.lt_asymm hlt), if_neg hne]

theorem sorted_sorted (v : Value) : v.sorted.sorted = v.sorted := by
  induction v using parts_induction with
  | scalar v harray hobject => rw [sorted_of_scalar harray hobject, sorted_of_scalar harray hobject]
  | array items ih =>
    rw [sorted, sorted, sortedItems_eq_map, sortedItems_eq_map, List.map_map]
    exact congrArg array (List.map_congr_left ih)
  | object fields ih =>
    have hfields : (sortedFields (sortedFields fields).entries).entries = (sortedFields fields).entries := by
      refine entries_sortedFields (sortedFields fields).sorted fun e he => ?_
      obtain ⟨v, hv, hev⟩ := exists_of_mem_sortedFields he
      rw [hev]
      exact ih _ hv
    rw [sorted, sorted, hfields]

theorem sortedFields_sortedFields (fields : List (String × Value)) :
    sortedFields (sortedFields fields).entries = sortedFields fields := by
  have h := sorted_sorted (object fields)
  rw [sorted, sorted] at h
  exact SortedMap.ext (object.inj h)

theorem sortedItems_sortedItems (items : List Value) : sortedItems (sortedItems items) = sortedItems items := by
  have h := sorted_sorted (array items)
  rw [sorted, sorted] at h
  exact array.inj h

theorem isIntegral_sorted {v : Value} (h : v.isIntegral = true) : v.sorted.isIntegral = true := by
  induction v using parts_induction with
  | scalar v harray hobject => rwa [sorted_of_scalar harray hobject]
  | array items ih =>
    rw [isIntegral, areIntegral_iff] at h
    rw [sorted, isIntegral, areIntegral_iff, sortedItems_eq_map]
    intro w hw
    obtain ⟨v, hv, rfl⟩ := List.mem_map.1 hw
    exact ih v hv (h v hv)
  | object fields ih =>
    rw [isIntegral, fieldsAreIntegral_iff] at h
    rw [sorted, isIntegral, fieldsAreIntegral_iff]
    intro e he
    obtain ⟨v, hv, hev⟩ := exists_of_mem_sortedFields he
    rw [hev]
    exact ih _ hv (h _ hv)

theorem nesting_sorted_le (v : Value) : v.sorted.nesting ≤ v.nesting := by
  induction v using parts_induction with
  | scalar v harray hobject => exact Nat.le_of_eq (congrArg nesting (sorted_of_scalar harray hobject))
  | array items ih =>
    rw [sorted, nesting, nesting, sortedItems_eq_map]
    refine Nat.succ_le_succ (nestingItems_le_iff.2 fun w hw => ?_)
    obtain ⟨v, hv, rfl⟩ := List.mem_map.1 hw
    exact Nat.le_trans (ih v hv) (nestingItems_le_iff.1 (Nat.le_refl _) v hv)
  | object fields ih =>
    rw [sorted, nesting, nesting]
    refine Nat.succ_le_succ (nestingFields_le_iff.2 fun e he => ?_)
    obtain ⟨v, hv, hev⟩ := exists_of_mem_sortedFields he
    rw [hev]
    exact Nat.le_trans (ih _ hv) (nestingFields_le_iff.1 (Nat.le_refl _) _ hv)

end ManagementPlane.Json.Value
