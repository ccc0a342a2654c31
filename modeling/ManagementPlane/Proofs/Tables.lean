import ManagementPlane.Data.OrderedMap
import Mathlib.Data.List.Forall2
import Mathlib.Data.List.Induction
import Mathlib.Data.List.Nodup

/-!
# More about tables

* `mem_values_iff` : values as what lookups find;
* `entries_ofList` : pairs with distinct keys become a table as they stand;
* `mem_keys_ofList`, `mem_of_get?_ofList`, `keys_ofList_pairwise` : tables of any pairs, with their keys in the order in
  which they first come;
* `entries_insert_of_get?_none` : a new key goes to the end;
* `get?_eq_of_perm` : lookups do not depend on the order;
* `insert_of_get?` : what is there already may be put there again;
* `Pairs r m m'` : two tables with the same keys, in the same order and with related values;
* `rel_find?`, `findSome?_congr` : searches in lists of related items.
-/

namespace ManagementPlane.OrderedMap

variable {κ α : Type} [DecidableEq κ]

theorem mem_values_iff {m : OrderedMap κ α} {v : α} : v ∈ m.values ↔ ∃ k, m.get? k = some v := by
  simp only [values, List.mem_map, Prod.exists, exists_eq_right, get?_eq_some_iff]

theorem isEmpty_iff {m : OrderedMap κ α} : m.isEmpty = true ↔ ∀ k, m.get? k = none := by
  simp only [isEmpty, List.isEmpty_iff, get?_eq_none_iff, keys, ← List.eq_nil_iff_forall_not_mem, List.map_eq_nil_iff]

theorem contains_eq_isSome (m : OrderedMap κ α) (k : κ) : m.contains k = (m.get? k).isSome := rfl

/-- Lookups do not depend on the order of a table. -/
theorem get?_eq_of_perm {m m' : OrderedMap κ α} (h : m.entries.Perm m'.entries) (k : κ) : m.get? k = m'.get? k :=
  Option.ext fun v => by rw [get?_eq_some_iff, get?_eq_some_iff, h.mem_iff]

theorem place_of_not_mem {k : κ} {v : α} {l : List (κ × α)} (h : k ∉ l.map Prod.fst) :
    place k v l = l ++ [(k, v)] := by
  induction l with
  | nil => rfl
  | cons e r ih =>
    rw [List.map_cons, List.mem_cons, not_or] at h
    rw [place, if_neg fun he => h.1 he.symm, ih h.2, List.cons_append]

/-- A new key goes to the end. -/
theorem entries_insert_of_get?_none {m : OrderedMap κ α} {k : κ} (h : m.get? k = none) (v : α) :
    (m.insert k v).entries = m.entries ++ [(k, v)] :=
  place_of_not_mem (get?_eq_none_iff.1 h)

theorem place_of_lookup {k : κ} {v : α} {l : List (κ × α)} (h : lookup k l = some v) : place k v l = l := by
  induction l with
  | nil => cases h
  | cons e r ih =>
    obtain ⟨k', v'⟩ := e
    rw [lookup] at h
    rw [place]
    split at h
    · next he =>
      cases he
      cases h
      rw [if_pos rfl]
    · next he => rw [if_neg he, ih h]

/-- Putting what is there already changes nothing. -/
theorem insert_of_get? {m : OrderedMap κ α} {k : κ} {v : α} (h : m.get? k = some v) : m.insert k v = m :=
  ext (place_of_lookup h)

/-- Pairs with distinct keys that are new to a table go to its end as they stand. -/
theorem entries_foldl_insert {l : List (κ × α)} {m : OrderedMap κ α}
    (hnd : (m.entries ++ l).map Prod.fst |>.Nodup) :
    (l.foldl (fun m e => m.insert e.1 e.2) m).entries = m.entries ++ l := by
  induction l generalizing m with
  | nil => simp
  | cons e l ih =>
    have hnew : m.get? e.1 = none := by
      rw [get?_eq_none_iff]
      rw [List.map_append, List.map_cons, List.nodup_append] at hnd
      exact fun hm => hnd.2.2 _ hm _ List.mem_cons_self rfl
    have hins : (m.insert e.1 e.2).entries = m.entries ++ [e] := entries_insert_of_get?_none hnew e.2
    rw [List.foldl_cons, ih, hins, List.append_assoc, List.singleton_append]
    rwa [hins, List.append_assoc, List.singleton_append]

/-- Pairs with distinct keys become a table as they stand. -/
theorem entries_ofList {l : List (κ × α)} (hnd : (l.map Prod.fst).Nodup) :
    (ofList l).entries = l := by
  have h := entries_foldl_insert (l := l) (m := ∅) (by simpa using hnd)
  rw [ofList, h, entries_empty, List.nil_append]

/-! ## Tables of any pairs -/

section OfList

variable {l : List (κ × α)} {k : κ} {v : α}

theorem ofList_concat (l : List (κ × α)) (e : κ × α) : ofList (l ++ [e]) = (ofList l).insert e.1 e.2 := by
  rw [ofList, List.foldl_append, List.foldl_cons, List.foldl_nil, ofList]

theorem mem_keys_ofList : k ∈ (ofList l).keys ↔ k ∈ l.map Prod.fst := by
  induction l using List.reverseRecOn with
  | nil => exact Iff.rfl
  | append_singleton l e ih =>
    rw [ofList_concat, keys_insert, List.map_append, List.mem_append, ← ih]
    split
    · next he => exact ⟨.inl, fun h => h.elim id fun h => List.mem_singleton.1 h ▸ he⟩
    · exact List.mem_append

theorem mem_of_get?_ofList (h : (ofList l).get? k = some v) : (k, v) ∈ l := by
  induction l using List.reverseRecOn with
  | nil => cases h
  | append_singleton l e ih =>
    rw [ofList_concat, get?_insert] at h
    split at h
    · next hk =>
      cases h
      subst hk
      exact List.mem_append_right _ List.mem_cons_self
    · exact List.mem_append_left _ (ih h)

/-- The keys come in the order in which each came first among the pairs. -/
theorem keys_ofList_pairwise (l : List (κ × α)) :
    (ofList l).keys.Pairwise fun a b => (l.map Prod.fst).idxOf a < (l.map Prod.fst).idxOf b := by
  induction l using List.reverseRecOn with
  | nil => exact .nil
  | append_singleton l e ih =>
    have hold : ∀ a ∈ (ofList l).keys, ((l ++ [e]).map Prod.fst).idxOf a = (l.map Prod.fst).idxOf a := by
      intro a ha
      rw [List.map_append, List.idxOf_append_of_mem (mem_keys_ofList.1 ha)]
    have hkeep : (ofList l).keys.Pairwise fun a b =>
        ((l ++ [e]).map Prod.fst).idxOf a < ((l ++ [e]).map Prod.fst).idxOf b :=
      ih.imp_of_mem fun ha hb hab => by rwa [hold _ ha, hold _ hb]
    rw [ofList_concat, keys_insert]
    split
    · exact hkeep
    · next hnew =>
      -- the key that is new comes behind all the pairs before it
      refine List.pairwise_append.2 ⟨hkeep, List.pairwise_singleton _ _, fun a ha b hb => ?_⟩
      cases List.mem_singleton.1 hb
      have hlast : ((l ++ [e]).map Prod.fst).idxOf e.1 = (l.map Prod.fst).length := by
        rw [List.map_append, List.idxOf_append_of_notMem (mt mem_keys_ofList.2 hnew)]
        simp
      rw [hold a ha, hlast]
      exact List.idxOf_lt_length_of_mem (mem_keys_ofList.1 ha)

end OfList

/-! ## Tables side by side -/

section Pairs
variable {β : Type} {r : α → β → Prop} {m : OrderedMap κ α} {m' : OrderedMap κ β}

/-- The tables have the same keys in the same order, and under each of them values related by `r`. -/
def Pairs (r : α → β → Prop) (m : OrderedMap κ α) (m' : OrderedMap κ β) : Prop :=
  List.Forall₂ (fun e e' => e.1 = e'.1 ∧ r e.2 e'.2) m.entries m'.entries

namespace Pairs

omit [DecidableEq κ] in
theorem imp {r' : α → β → Prop} (hm : Pairs r m m') (h : ∀ a b, r a b → r' a b) : Pairs r' m m' :=
  List.Forall₂.imp (fun _ _ he => ⟨he.1, h _ _ he.2⟩) hm

omit [DecidableEq κ] in
theorem keys (hm : Pairs r m m') : m'.keys = m.keys := by
  have hkeys : List.Forall₂ (fun k k' => k = k') m.keys m'.keys := by
    rw [OrderedMap.keys, OrderedMap.keys, List.forall₂_map_left_iff, List.forall₂_map_right_iff]
    exact List.Forall₂.imp (fun _ _ he => he.1) hm
  rw [List.forall₂_eq_eq_eq] at hkeys
  exact hkeys.symm

omit [DecidableEq κ] in
theorem values (hm : Pairs r m m') : List.Forall₂ r m.values m'.values := by
  rw [OrderedMap.values, OrderedMap.values, List.forall₂_map_left_iff, List.forall₂_map_right_iff]
  exact List.Forall₂.imp (fun _ _ he => he.2) hm

theorem get? (hm : Pairs r m m') (k : κ) : Option.Rel r (m.get? k) (m'.get? k) := by
  unfold OrderedMap.get?
  unfold Pairs at hm
  generalize m.entries = l at hm
  generalize m'.entries = l' at hm
  induction hm with
  | nil => exact .none
  | @cons e e' l l' he _ ih =>
    obtain ⟨k₁, v⟩ := e
    obtain ⟨k₂, v'⟩ := e'
    obtain ⟨rfl, hv⟩ := he
    rw [lookup, lookup]
    split
    · exact .some hv
    · exact ih

theorem contains (hm : Pairs r m m') (k : κ) : m'.contains k = m.contains k := by
  rw [Bool.eq_iff_iff, contains_iff, contains_iff, hm.keys]

theorem insert (hm : Pairs r m m') (k : κ) {v : α} {v' : β} (hv : r v v') :
    Pairs r (m.insert k v) (m'.insert k v') := by
  unfold Pairs at hm ⊢
  show List.Forall₂ _ (place k v m.entries) (place k v' m'.entries)
  generalize m.entries = l at hm
  generalize m'.entries = l' at hm
  induction hm with
  | nil => exact .cons ⟨rfl, hv⟩ .nil
  | @cons e e' l l' he hl ih =>
    obtain ⟨k₁, u⟩ := e
    obtain ⟨k₂, u'⟩ := e'
    obtain ⟨rfl, hu⟩ := he
    rw [place, place]
    split
    · exact .cons ⟨rfl, hv⟩ hl
    · exact .cons ⟨rfl, hu⟩ ih

theorem erase (hm : Pairs r m m') (k : κ) : Pairs r (m.erase k) (m'.erase k) := by
  unfold Pairs at hm ⊢
  refine List.rel_filter (fun e e' he => ?_) hm
  simp only [he.1]

/-- Pairs with the same keys and related values become such tables. -/
theorem ofList {l : List (κ × α)} {l' : List (κ × β)}
    (hl : List.Forall₂ (fun e e' => e.1 = e'.1 ∧ r e.2 e'.2) l l') : Pairs r (ofList l) (ofList l') := by
  have hall : ∀ {m : OrderedMap κ α} {m' : OrderedMap κ β}, Pairs r m m' →
      Pairs r (l.foldl (fun m e => m.insert e.1 e.2) m) (l'.foldl (fun m e => m.insert e.1 e.2) m') := by
    induction hl with
    | nil => exact fun hm => hm
    | @cons e e' l l' he _ ih =>
      obtain ⟨k₁, v⟩ := e
      obtain ⟨k₂, v'⟩ := e'
      obtain ⟨rfl, hv⟩ := he
      exact fun hm => ih (hm.insert k₁ hv)
  exact hall .nil

end Pairs

omit [DecidableEq κ] in
/-- Searches with tests that related items pass or fail together find related items. -/
theorem rel_find? {l : List α} {l' : List β} (hl : List.Forall₂ r l l') {f : α → Bool} {g : β → Bool}
    (hfg : ∀ a b, r a b → f a = g b) : Option.Rel r (l.find? f) (l'.find? g) := by
  induction hl with
  | nil => exact .none
  | @cons a b l l' hab _ ih =>
    rw [List.find?_cons, List.find?_cons, ← hfg a b hab]
    cases f a with
    | true => exact .some hab
    | false => exact ih

omit [DecidableEq κ] in
theorem findSome?_congr {γ : Type} {l : List α} {l' : List β} (hl : List.Forall₂ r l l')
    {f : α → Option γ} {g : β → Option γ} (hfg : ∀ a b, r a b → f a = g b) :
    l.findSome? f = l'.findSome? g := by
  induction hl with
  | nil => rfl
  | @cons a b l l' hab _ ih => rw [List.findSome?_cons, List.findSome?_cons, ← hfg a b hab, ih]

end Pairs

end ManagementPlane.OrderedMap
