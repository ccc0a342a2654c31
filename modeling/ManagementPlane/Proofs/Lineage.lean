import ManagementPlane.Memento.Lineage
import ManagementPlane.Proofs.Tables

/-!
# Nodes in order

* `mem_of_mem_ascent`, `mem_of_mem_sortParentFirst` : climbing and sorting show nodes of the table only;
* `mem_sortParentFirst_iff`, `sortParentFirst_perm` : sorting shows all of them, each once, if they lie under their ids;
* `ancestry_congr` : what lies above a node does not depend on the order of the table.
-/

namespace ManagementPlane

variable {α : Type} [Node α] {nodes : OrderedMap String α}

theorem mem_of_mem_ascent {stops : List String} {limit : Nat} {a b : α} (ha : a ∈ nodes.values)
    (hb : b ∈ ascent nodes stops limit a) : b ∈ nodes.values := by
  induction limit generalizing stops a with
  | zero => simp [ascent] at hb
  | succ n ih =>
    unfold ascent at hb
    split at hb
    · cases hb
    · rcases List.mem_cons.1 hb with rfl | hb
      · exact ha
      · split at hb
        · next p hp =>
          obtain ⟨id, -, hget⟩ := Option.bind_eq_some_iff.1 hp
          exact ih (OrderedMap.mem_values_iff.2 ⟨id, hget⟩) hb
        · cases hb

/-- Sorting shows nodes of the table only. -/
theorem mem_of_mem_sortParentFirst {a : α} (h : a ∈ sortParentFirst nodes) : a ∈ nodes.values := by
  have hall : ∀ (l placed : List α), (∀ b ∈ l, b ∈ nodes.values) → (∀ b ∈ placed, b ∈ nodes.values) →
      ∀ b ∈ l.foldl (place nodes) placed, b ∈ nodes.values := by
    intro l
    induction l with
    | nil => exact fun _ _ hp => hp
    | cons c r ih =>
      intro placed hl hp
      refine ih _ (fun b hb => hl b (List.mem_cons_of_mem _ hb)) fun b hb => ?_
      rcases List.mem_append.1 hb with hb | hb
      · exact hp b hb
      · exact mem_of_mem_ascent (hl c List.mem_cons_self) (List.mem_reverse.1 hb)
  exact hall nodes.values [] (fun _ hb => hb) (fun _ hb => by cases hb) a h

/-- A node that has been placed shows its id. -/
theorem id_mem_place {placed : List α} {a : α} (ha : a ∈ nodes.values) :
    Node.id a ∈ (place nodes placed a).map Node.id := by
  rw [place, List.map_append, List.mem_append]
  by_cases hplaced : Node.id a ∈ placed.map Node.id
  · exact Or.inl hplaced
  · refine Or.inr (List.mem_map_of_mem (List.mem_reverse.2 ?_))
    obtain ⟨n, hn⟩ : ∃ n, nodes.size = n + 1 := by
      have hpos : 0 < nodes.values.length := List.length_pos_of_mem ha
      rw [OrderedMap.values, List.length_map] at hpos
      exact ⟨nodes.size - 1, (Nat.succ_pred_eq_of_pos hpos).symm⟩
    rw [hn, ascent, if_neg hplaced]
    exact List.mem_cons_self

/-- Sorting shows the id of every node. -/
theorem id_mem_sortParentFirst {a : α} (h : a ∈ nodes.values) : Node.id a ∈ (sortParentFirst nodes).map Node.id := by
  have hkeep : ∀ (l placed : List α), ∀ id ∈ placed.map Node.id, id ∈ (l.foldl (place nodes) placed).map Node.id := by
    intro l
    induction l with
    | nil => exact fun _ _ hid => hid
    | cons c r ih =>
      refine fun placed id hid => ih _ id ?_
      rw [place, List.map_append]
      exact List.mem_append_left _ hid
  obtain ⟨before, after, hsplit⟩ := List.append_of_mem h
  have ha : Node.id a ∈ (place nodes (before.foldl (place nodes) []) a).map Node.id := id_mem_place h
  rw [sortParentFirst, hsplit, List.foldl_append, List.foldl_cons]
  exact hkeep after _ _ ha

/-- Where nodes lie under their ids, sorting shows just the nodes of the table. -/
theorem mem_sortParentFirst_iff (hids : ∀ id a, nodes.get? id = some a → Node.id a = id) {a : α} :
    a ∈ sortParentFirst nodes ↔ a ∈ nodes.values := by
  refine ⟨mem_of_mem_sortParentFirst, fun ha => ?_⟩
  obtain ⟨b, hb, hid⟩ := List.mem_map.1 (id_mem_sortParentFirst ha)
  obtain ⟨id, hget⟩ := OrderedMap.mem_values_iff.1 ha
  obtain ⟨id', hget'⟩ := OrderedMap.mem_values_iff.1 (mem_of_mem_sortParentFirst hb)
  -- two nodes of one id are one
  rw [hids id' b hget', hids id a hget] at hid
  rw [hid, hget] at hget'
  exact Option.some.inj hget' ▸ hb

/-! ## The order of the table -/

/-- Climbing shows no id twice, and none where it is to stop. -/
theorem nodup_ascent (nodes : OrderedMap String α) (stops : List String) (limit : Nat) (a : α) :
    ((ascent nodes stops limit a).map Node.id).Nodup ∧ ∀ id ∈ (ascent nodes stops limit a).map Node.id, id ∉ stops := by
  induction limit generalizing stops a with
  | zero => exact ⟨List.nodup_nil, nofun⟩
  | succ n ih =>
    unfold ascent
    split
    · exact ⟨List.nodup_nil, nofun⟩
    · next hstop =>
      split
      · next p _ =>
        obtain ⟨hnd, hnot⟩ := ih (Node.id a :: stops) p
        refine ⟨List.nodup_cons.2 ⟨fun hmem => hnot _ hmem List.mem_cons_self, hnd⟩, fun id hid => ?_⟩
        rcases List.mem_cons.1 hid with rfl | hid
        · exact hstop
        · exact fun hmem => hnot id hid (List.mem_cons_of_mem _ hmem)
      · refine ⟨List.nodup_singleton _, fun id hid => ?_⟩
        exact List.mem_singleton.1 hid ▸ hstop

/-- Sorting shows no id twice. -/
theorem nodup_sortParentFirst (nodes : OrderedMap String α) : ((sortParentFirst nodes).map Node.id).Nodup := by
  have hall : ∀ l placed : List α, (placed.map Node.id).Nodup → ((l.foldl (place nodes) placed).map Node.id).Nodup := by
    intro l
    induction l with
    | nil => exact fun _ hp => hp
    | cons c r ih =>
      refine fun placed hp => ih _ ?_
      obtain ⟨hnd, hnot⟩ := nodup_ascent nodes (placed.map Node.id) nodes.size c
      rw [place, List.map_append, List.map_reverse]
      refine List.nodup_append.2 ⟨hp, List.nodup_reverse.2 hnd, ?_⟩
      rintro id hid _ hid' rfl
      exact hnot id (List.mem_reverse.1 hid') hid
  exact hall nodes.values [] List.nodup_nil

section Ids
variable (hids : ∀ id a, nodes.get? id = some a → Node.id a = id)
include hids

theorem nodup_ids_values : (nodes.values.map Node.id).Nodup := by
  have hkeys : nodes.values.map Node.id = nodes.keys := by
    rw [OrderedMap.values, OrderedMap.keys, List.map_map]
    exact List.map_congr_left fun e he => hids e.1 e.2 (OrderedMap.get?_eq_some_iff.2 he)
  rw [hkeys]
  exact nodes.keys_nodup

/-- Where nodes lie under their ids, sorting shows each of them once. -/
theorem sortParentFirst_perm : (sortParentFirst nodes).Perm nodes.values :=
  (List.perm_ext_iff_of_nodup (nodup_sortParentFirst nodes).of_map (nodup_ids_values hids).of_map).2 fun _ =>
    mem_sortParentFirst_iff hids

end Ids

/-- What lies above a node does not depend on the order of the table. -/
theorem ancestry_congr {nodes' : OrderedMap String α} (h : nodes.entries.Perm nodes'.entries) (a : α) :
    ancestry nodes a = ancestry nodes' a := by
  have hget : nodes.get? = nodes'.get? := funext (OrderedMap.get?_eq_of_perm h)
  have hall : ∀ limit stops a, ascent nodes stops limit a = ascent nodes' stops limit a := by
    intro limit
    induction limit with
    | zero => exact fun _ _ => rfl
    | succ n ih =>
      intro stops a
      unfold ascent
      simp only [hget, ih]
  unfold ancestry OrderedMap.size
  rw [hall, h.length_eq]

end ManagementPlane
