/-!
# Tables that remember insertion order

`OrderedMap κ α` pairs distinct keys with values and lists them in the order in which the keys
were first inserted. Storing under a key that is present keeps its place; erasing closes the gap.

* `get?`, `insert`, `erase` : the operations, each with a lemma for `get?` and one for `keys`;
* `entries` : the view every other reading is taken from.
-/

namespace ManagementPlane

/-- Distinct keys with their values, in the order of first insertion. -/
structure OrderedMap (κ α : Type) where
  entries : List (κ × α) := []
  nodup : (entries.map Prod.fst).Nodup := by exact List.nodup_nil

namespace OrderedMap

variable {κ α β : Type}

theorem ext {m n : OrderedMap κ α} (h : m.entries = n.entries) : m = n := by
  cases m; cases n; cases h; rfl

instance : EmptyCollection (OrderedMap κ α) := ⟨{}⟩

instance : Inhabited (OrderedMap κ α) := ⟨∅⟩

instance [DecidableEq κ] [DecidableEq α] : DecidableEq (OrderedMap κ α) := fun m n =>
  if h : m.entries = n.entries then isTrue (ext h) else isFalse fun e => h (congrArg entries e)

def keys (m : OrderedMap κ α) : List κ := m.entries.map Prod.fst

def values (m : OrderedMap κ α) : List α := m.entries.map Prod.snd

def size (m : OrderedMap κ α) : Nat := m.entries.length

def isEmpty (m : OrderedMap κ α) : Bool := m.entries.isEmpty

def mapValues (f : α → β) (m : OrderedMap κ α) : OrderedMap κ β where
  entries := m.entries.map fun e => (e.1, f e.2)
  nodup := by simpa [Function.comp_def] using m.nodup

theorem keys_nodup (m : OrderedMap κ α) : m.keys.Nodup := m.nodup

@[simp] theorem keys_empty : (∅ : OrderedMap κ α).keys = [] := rfl

@[simp] theorem keys_mapValues (f : α → β) (m : OrderedMap κ α) : (m.mapValues f).keys = m.keys := by
  simp [keys, mapValues, Function.comp_def]

@[simp] theorem entries_empty : (∅ : OrderedMap κ α).entries = [] := rfl

variable [DecidableEq κ]

def lookup (k : κ) : List (κ × α) → Option α
  | [] => none
  | (k', v) :: r => if k' = k then some v else lookup k r

/-- The entries with `v` under `k`: in place of the old value, or else at the end. -/
def place (k : κ) (v : α) : List (κ × α) → List (κ × α)
  | [] => [(k, v)]
  | (k', v') :: r => if k' = k then (k, v) :: r else (k', v') :: place k v r

theorem map_fst_place (k : κ) (v : α) (l : List (κ × α)) :
    (place k v l).map Prod.fst =
      if k ∈ l.map Prod.fst then l.map Prod.fst else l.map Prod.fst ++ [k] := by
  induction l with
  | nil => simp [place]
  | cons e r ih =>
    obtain ⟨k', v'⟩ := e
    by_cases h : k' = k
    · simp [place, h]
    · by_cases h' : k ∈ r.map Prod.fst
      · simp only [place, if_neg h, List.map_cons, ih, List.mem_cons, h', or_true, if_true]
      · have : ¬ (k = k' ∨ k ∈ r.map Prod.fst) := by
          rintro (rfl | h'') <;> contradiction
        simp only [place, if_neg h, List.map_cons, ih, if_neg h', List.mem_cons, if_neg this,
          List.cons_append]

theorem lookup_place (k k' : κ) (v : α) (l : List (κ × α)) :
    lookup k' (place k v l) = if k = k' then some v else lookup k' l := by
  induction l with
  | nil => by_cases h : k = k' <;> simp [place, lookup, h]
  | cons e r ih =>
    obtain ⟨k₀, v₀⟩ := e
    by_cases h : k₀ = k
    · subst h; by_cases h' : k₀ = k' <;> simp [place, lookup, h']
    · by_cases h' : k = k'
      · subst h'; simp [place, lookup, h, ih]
      · by_cases h₀ : k₀ = k' <;> simp_all [place, lookup]

theorem lookup_eq_none_iff {k : κ} {l : List (κ × α)} :
    lookup k l = none ↔ k ∉ l.map Prod.fst := by
  induction l with
  | nil => simp [lookup]
  | cons e r ih =>
    obtain ⟨k', v'⟩ := e
    by_cases h : k' = k
    · simp [lookup, h]
    · have : k ≠ k' := fun e => h e.symm
      simp [lookup, h, ih, this]

theorem lookup_filter_ne (k k' : κ) (l : List (κ × α)) :
    lookup k' (l.filter fun e => e.1 ≠ k) = if k = k' then none else lookup k' l := by
  induction l with
  | nil => simp [lookup]
  | cons e r ih =>
    obtain ⟨k₀, v₀⟩ := e
    simp only [ne_eq, decide_not] at ih
    by_cases h : k₀ = k
    · subst h; by_cases h' : k₀ = k' <;> simp_all [lookup]
    · by_cases h₀ : k₀ = k'
      · subst h₀
        have : ¬ k = k₀ := fun e => h e.symm
        simp [lookup, h, this]
      · simp [lookup, h, h₀, ih]

theorem lookup_eq_some_iff {k : κ} {v : α} {l : List (κ × α)} (hl : (l.map Prod.fst).Nodup) :
    lookup k l = some v ↔ (k, v) ∈ l := by
  induction l with
  | nil => simp [lookup]
  | cons e r ih =>
    obtain ⟨k', v'⟩ := e
    simp only [List.map_cons, List.nodup_cons] at hl
    by_cases h : k' = k
    · subst h
      constructor
      · intro hv; simp [lookup] at hv; simp [hv]
      · intro hm
        rcases List.mem_cons.1 hm with hm | hm
        · simp [lookup, (Prod.mk.inj hm).2]
        · exact absurd (List.mem_map.2 ⟨_, hm, rfl⟩) hl.1
    · have : ¬ k = k' := fun e => h e.symm
      simp [lookup, h, ih hl.2, this]

def get? (m : OrderedMap κ α) (k : κ) : Option α := lookup k m.entries

def contains (m : OrderedMap κ α) (k : κ) : Bool := (m.get? k).isSome

/-- Put `v` under `k`; a key that is present keeps its place. -/
def insert (m : OrderedMap κ α) (k : κ) (v : α) : OrderedMap κ α where
  entries := place k v m.entries
  nodup := by
    rw [map_fst_place]
    split
    · exact m.nodup
    · next h =>
      rw [List.nodup_append]
      exact ⟨m.nodup, by simp, by rintro a ha b hb rfl; exact h (List.mem_singleton.1 hb ▸ ha)⟩

def erase (m : OrderedMap κ α) (k : κ) : OrderedMap κ α where
  entries := m.entries.filter fun e => e.1 ≠ k
  nodup := m.nodup.sublist (List.filter_sublist.map Prod.fst)

/-- The table that results from inserting the pairs of `l` in order. -/
def ofList (l : List (κ × α)) : OrderedMap κ α := l.foldl (fun m e => m.insert e.1 e.2) ∅

@[simp] theorem get?_empty (k : κ) : (∅ : OrderedMap κ α).get? k = none := rfl

theorem get?_insert (m : OrderedMap κ α) (k k' : κ) (v : α) :
    (m.insert k v).get? k' = if k = k' then some v else m.get? k' := lookup_place k k' v m.entries

theorem get?_erase (m : OrderedMap κ α) (k k' : κ) :
    (m.erase k).get? k' = if k = k' then none else m.get? k' := lookup_filter_ne k k' m.entries

theorem keys_insert (m : OrderedMap κ α) (k : κ) (v : α) :
    (m.insert k v).keys = if k ∈ m.keys then m.keys else m.keys ++ [k] :=
  map_fst_place k v m.entries

theorem get?_eq_none_iff {m : OrderedMap κ α} {k : κ} : m.get? k = none ↔ k ∉ m.keys :=
  lookup_eq_none_iff

theorem get?_eq_some_iff {m : OrderedMap κ α} {k : κ} {v : α} :
    m.get? k = some v ↔ (k, v) ∈ m.entries := lookup_eq_some_iff m.nodup

theorem contains_iff {m : OrderedMap κ α} {k : κ} : m.contains k = true ↔ k ∈ m.keys := by
  rw [contains, ← Decidable.not_iff_not, Bool.not_eq_true, Option.isSome_eq_false_iff,
    Option.isNone_iff_eq_none, get?_eq_none_iff]

end OrderedMap

end ManagementPlane
