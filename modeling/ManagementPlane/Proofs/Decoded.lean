import ManagementPlane.Proofs.Reading

/-!
# Tables of decoded payloads

* `decoded?` : what a payload becomes in the table;
* `entries_decodeTable` : the table lists what the payloads become, in their order;
* `get?_decodeTable` : what lies under an id is what its payload becomes;
* `keys_decodeTable_sublist` : the ids of the table are in the order of the payloads.
-/

namespace ManagementPlane

variable {α : Type} (read : String → Option α) (declared : α → String) (kind : ObjectKind)

/-- What is put into the table for a payload: nothing if it cannot be decoded or declares another id. -/
def decoded? (e : String × String) : Option (String × α) :=
  match decodeOne read declared kind e.1 e.2 with
  | .ok a => some (e.1, a)
  | .error _ => none

variable {read declared kind}

theorem decoded?_eq_some_iff {id text : String} {e : String × α} :
    decoded? read declared kind (id, text) = some e ↔ read text = some e.2 ∧ declared e.2 = id ∧ e.1 = id := by
  obtain ⟨id', a⟩ := e
  unfold decoded? decodeOne
  dsimp only
  rcases read text with _ | b
  · simp
  · by_cases hb : declared b = id
    · simp only [if_pos hb, Option.some.injEq, Prod.mk.injEq]
      constructor
      · rintro ⟨rfl, rfl⟩
        exact ⟨rfl, hb, rfl⟩
      · rintro ⟨rfl, -, rfl⟩
        exact ⟨rfl, rfl⟩
    · simp only [if_neg hb, reduceCtorEq, Option.some.injEq, false_iff, not_and]
      rintro rfl hb'
      exact absurd hb' hb

/-- The table lists what the payloads become, in their order. -/
theorem entries_decodeTable (payloads : OrderedMap String String) :
    (decodeTable read declared kind payloads).entries = payloads.entries.filterMap (decoded? read declared kind) := by
  have hfold : ∀ (l : List (String × String)) (table : OrderedMap String α),
      (table.keys ++ l.map Prod.fst).Nodup → (l.foldl (decodeInto read declared kind) table).entries =
        table.entries ++ l.filterMap (decoded? read declared kind) := by
    intro l
    induction l with
    | nil => simp
    | cons e l ih =>
      intro table hnd
      rw [List.map_cons, List.nodup_append, List.nodup_cons] at hnd
      obtain ⟨htable, ⟨he, hl⟩, hdisj⟩ := hnd
      have hnew : table.get? e.1 = none :=
        OrderedMap.get?_eq_none_iff.2 fun hk => hdisj _ hk _ List.mem_cons_self rfl
      rw [List.foldl_cons, List.filterMap_cons, decodeInto, decoded?]
      cases decodeOne read declared kind e.1 e.2 with
      | error _ =>
        refine ih table (List.nodup_append.2 ⟨htable, hl, fun a ha b hb => ?_⟩)
        exact hdisj a ha b (List.mem_cons_of_mem _ hb)
      | ok a =>
        dsimp only
        have hentries := OrderedMap.entries_insert_of_get?_none hnew a
        rw [ih, hentries, List.append_assoc, List.singleton_append]
        have hkeys : (table.insert e.1 a).keys = table.keys ++ [e.1] := by
          rw [OrderedMap.keys, hentries, List.map_append]
          rfl
        rw [hkeys, List.append_assoc, List.singleton_append]
        exact List.nodup_append.2 ⟨htable, List.nodup_cons.2 ⟨he, hl⟩, hdisj⟩
  have h := hfold payloads.entries ∅ (by simpa using payloads.nodup)
  rwa [OrderedMap.entries_empty, List.nil_append] at h

/-- What lies under an id in the table is what its payload becomes. -/
theorem get?_decodeTable {payloads : OrderedMap String String} {id : String} {a : α} :
    (decodeTable read declared kind payloads).get? id = some a ↔
      ∃ text, payloads.get? id = some text ∧ read text = some a ∧ declared a = id := by
  rw [OrderedMap.get?_eq_some_iff, entries_decodeTable, List.mem_filterMap]
  constructor
  · rintro ⟨⟨id', text⟩, hmem, he⟩
    obtain ⟨hread, hid, rfl⟩ := decoded?_eq_some_iff.1 he
    exact ⟨text, OrderedMap.get?_eq_some_iff.2 hmem, hread, hid⟩
  · rintro ⟨text, hget, hread, hid⟩
    exact ⟨(id, text), OrderedMap.get?_eq_some_iff.1 hget, decoded?_eq_some_iff.2 ⟨hread, hid, rfl⟩⟩

/-- The ids of the table are in the order of the payloads. -/
theorem keys_decodeTable_sublist (payloads : OrderedMap String String) :
    (decodeTable read declared kind payloads).keys.Sublist payloads.keys := by
  rw [OrderedMap.keys, OrderedMap.keys, entries_decodeTable]
  induction payloads.entries with
  | nil => exact .slnil
  | cons e l ih =>
    rw [List.filterMap_cons, List.map_cons]
    rcases hd : decoded? read declared kind e with _ | d
    · exact ih.cons _
    · have hkey : d.1 = e.1 := (decoded?_eq_some_iff.1 hd).2.2
      rw [List.map_cons, hkey]
      exact ih.cons_cons _

end ManagementPlane
