/-!
# Tables in the order of their keys

`SortedMap α` pairs strings with values and lists them by key, so two tables with the same content
are equal. Keys compare by code point, which is also the order of their UTF-8 bytes.

* `get?`, `insert`, `filter`, `merge` : the operations;
* `get?_insert`, `get?_merge` : lookups after a change;
* `insert_of_get?` : what is there already may be inserted again.
-/

namespace ManagementPlane

/-- Values under distinct string keys, in the order of the keys. -/
structure SortedMap (α : Type) where
  entries : List (String × α) := []
  sorted : entries.Pairwise (fun a b => a.1 < b.1) := by exact List.Pairwise.nil

namespace SortedMap

variable {α : Type}

theorem ext {m n : SortedMap α} (h : m.entries = n.entries) : m = n := by
  cases m; cases n; cases h; rfl

instance : EmptyCollection (SortedMap α) := ⟨{ entries := [] }⟩

instance : Inhabited (SortedMap α) := ⟨∅⟩

instance [DecidableEq α] : DecidableEq (SortedMap α) := fun m n =>
  if h : m.entries = n.entries then isTrue (ext h) else isFalse fun e => h (congrArg entries e)

def isEmpty (m : SortedMap α) : Bool := m.entries.isEmpty

def lookup (k : String) : List (String × α) → Option α
  | [] => none
  | (k', v) :: r => if k' = k then some v else lookup k r

/-- The pairs with `v` under `k`, in front of the first greater key. -/
def place (k : String) (v : α) : List (String × α) → List (String × α)
  | [] => [(k, v)]
  | (k', v') :: r =>
    if k' < k then (k', v') :: place k v r
    else if k' = k then (k, v) :: r
    else (k, v) :: (k', v') :: r

theorem mem_place {k : String} {v : α} {l : List (String × α)} {e : String × α}
    (h : e ∈ place k v l) : e = (k, v) ∨ e ∈ l := by
  induction l with
  | nil => simpa [place] using h
  | cons e' r ih =>
    obtain ⟨k', v'⟩ := e'
    unfold place at h
    split at h
    · rcases List.mem_cons.1 h with h | h
      · simp [h]
      · rcases ih h with h | h <;> simp [h]
    · split at h
      · rcases List.mem_cons.1 h with h | h <;> simp [h]
      · rcases List.mem_cons.1 h with h | h
        · simp [h]
        · exact Or.inr h

theorem lt_of_not_lt_of_ne {a b : String} (h : ¬ a < b) (hne : a ≠ b) : b < a := by
  rw [← String.not_le]
  exact fun hle => hne (String.le_antisymm hle (String.not_lt.1 h))

theorem place_sorted (k : String) (v : α) {l : List (String × α)}
    (hl : l.Pairwise fun a b => a.1 < b.1) : (place k v l).Pairwise fun a b => a.1 < b.1 := by
  induction l with
  | nil => simp [place]
  | cons e r ih =>
    obtain ⟨k', v'⟩ := e
    rw [List.pairwise_cons] at hl
    unfold place
    split
    · next h =>
      refine List.pairwise_cons.2 ⟨fun e he => ?_, ih hl.2⟩
      rcases mem_place he with rfl | he
      · exact h
      · exact hl.1 e he
    · next h =>
      split
      · next h' =>
        subst h'
        exact List.pairwise_cons.2 ⟨hl.1, hl.2⟩
      · next h' =>
        have hk : k < k' := lt_of_not_lt_of_ne h h'
        refine List.pairwise_cons.2 ⟨fun e he => ?_, List.pairwise_cons.2 hl⟩
        rcases List.mem_cons.1 he with rfl | he
        · exact hk
        · exact String.lt_trans hk (hl.1 e he)

theorem lookup_place (k k' : String) (v : α) (l : List (String × α)) :
    lookup k' (place k v l) = if k = k' then some v else lookup k' l := by
  induction l with
  | nil => by_cases h : k = k' <;> simp [place, lookup, h]
  | cons e r ih =>
    obtain ⟨k₀, v₀⟩ := e
    unfold place
    split
    · next h =>
      by_cases h₀ : k₀ = k'
      · subst h₀
        have : ¬ k = k₀ := fun e => String.lt_irrefl _ (e ▸ h)
        simp [lookup, this]
      · simp [lookup, h₀, ih]
    · split
      · next h => subst h; by_cases h' : k₀ = k' <;> simp [lookup, h']
      · by_cases h' : k = k' <;> simp [lookup, h']

def get? (m : SortedMap α) (k : String) : Option α := lookup k m.entries

def insert (m : SortedMap α) (k : String) (v : α) : SortedMap α where
  entries := place k v m.entries
  sorted := place_sorted k v m.sorted

def filter (p : String → Bool) (m : SortedMap α) : SortedMap α where
  entries := m.entries.filter fun e => p e.1
  sorted := m.sorted.filter _

/-- The table that results from inserting the pairs of `l` in order: the last pair of a key wins. -/
def ofList (l : List (String × α)) : SortedMap α := l.foldl (fun m e => m.insert e.1 e.2) ∅

/-- All entries of `m` and `n`; where both have a key, `n` wins. -/
def merge (m n : SortedMap α) : SortedMap α := n.entries.foldl (fun m e => m.insert e.1 e.2) m

@[simp] theorem get?_empty (k : String) : (∅ : SortedMap α).get? k = none := rfl

theorem get?_insert (m : SortedMap α) (k k' : String) (v : α) :
    (m.insert k v).get? k' = if k = k' then some v else m.get? k' := lookup_place k k' v m.entries

theorem lookup_eq_none_of_lt {k : String} {l : List (String × α)} (h : ∀ e ∈ l, k < e.1) : lookup k l = none := by
  induction l with
  | nil => rfl
  | cons e r ih =>
    have hne : ¬ e.1 = k := fun he => String.lt_irrefl k (he ▸ h e List.mem_cons_self)
    simp only [lookup, if_neg hne]
    exact ih fun e he => h e (List.mem_cons_of_mem _ he)

theorem place_of_lookup {k : String} {v : α} {l : List (String × α)} (hl : l.Pairwise fun a b => a.1 < b.1)
    (h : lookup k l = some v) : place k v l = l := by
  induction l with
  | nil => cases h
  | cons e r ih =>
    obtain ⟨k', v'⟩ := e
    rw [List.pairwise_cons] at hl
    rw [lookup] at h
    split at h
    · next he =>
      cases he
      cases h
      rw [place, if_neg (String.lt_irrefl _), if_pos rfl]
    · next he =>
      -- the key is further on, where all keys are greater
      have hnlt : ¬k < k' := fun hlt => by
        rw [lookup_eq_none_of_lt fun e he => String.lt_trans hlt (hl.1 e he)] at h
        cases h
      rw [place, if_pos (lt_of_not_lt_of_ne hnlt (Ne.symm he)), ih hl.2 h]

/-- Inserting what is there already changes nothing. -/
theorem insert_of_get? {m : SortedMap α} {k : String} {v : α} (h : m.get? k = some v) : m.insert k v = m :=
  ext (place_of_lookup m.sorted h)

theorem get?_merge (m n : SortedMap α) (k : String) : (m.merge n).get? k = (n.get? k).or (m.get? k) := by
  have hall : ∀ (l : List (String × α)) (m : SortedMap α), l.Pairwise (fun a b => a.1 < b.1) →
      (l.foldl (fun m e => m.insert e.1 e.2) m).get? k = (lookup k l).or (m.get? k) := by
    intro l
    induction l with
    | nil => exact fun _ _ => rfl
    | cons e r ih =>
      obtain ⟨k', v⟩ := e
      intro m hl
      rw [List.pairwise_cons] at hl
      rw [List.foldl_cons, ih _ hl.2, get?_insert, lookup]
      split
      · next he =>
        subst he
        rw [lookup_eq_none_of_lt hl.1, Option.none_or, Option.some_or]
      · rfl
  exact hall n.entries m n.sorted

end SortedMap

end ManagementPlane
