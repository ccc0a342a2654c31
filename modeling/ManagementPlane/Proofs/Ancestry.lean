import ManagementPlane.Proofs.Lineage

/-!
# What lies above a node

The table of the nodes may name parents that it lacks, and parents may form cycles. Climbing from node to parent ends all
the same, since every node that comes up has an id of its own.

* `IsAncestry nodes a l` : `l` are the nodes from `a` upwards, up to one whose parent is missing or came up before;
* `IsAncestry.unique` : there is one such list at most;
* `isAncestry_iff` : `ancestry` is that list, so its bound never cuts it short.
-/

namespace ManagementPlane

variable {α : Type} [Node α] {nodes : OrderedMap String α} {stops : List String} {a b : α} {l : List α}

/-- The node that a node names as its parent, if the table has it. -/
def parentIn? (nodes : OrderedMap String α) (a : α) : Option α := (Node.parent? a).bind nodes.get?

/-- `l` are the nodes from `a` upwards: each is the parent of the one before it, no id comes up twice, and the parent of
the last one is missing or has an id that came up. -/
structure IsAncestry (nodes : OrderedMap String α) (a : α) (l : List α) : Prop where
  head : l.head? = some a
  parent : l.IsChain fun b c => parentIn? nodes b = some c
  nodup : (l.map Node.id).Nodup
  ended : ∀ b, l.getLast? = some b → ∀ c, parentIn? nodes b = some c → Node.id c ∈ l.map Node.id

/-! ## Climbing from some point on -/

/-- The same of the part of an ancestry that starts at `a`, where the ids of the nodes below it are `stops`. -/
structure Climbs (nodes : OrderedMap String α) (stops : List String) (a : α) (l : List α) : Prop where
  head : l.head? = some a
  parent : l.IsChain fun b c => parentIn? nodes b = some c
  nodup : (l.map Node.id).Nodup
  fresh : ∀ id ∈ l.map Node.id, id ∉ stops
  ended : ∀ b, l.getLast? = some b → ∀ c, parentIn? nodes b = some c → Node.id c ∈ l.map Node.id ∨ Node.id c ∈ stops

theorem isAncestry_iff_climbs : IsAncestry nodes a l ↔ Climbs nodes [] a l := by
  constructor
  · intro h
    exact ⟨h.head, h.parent, h.nodup, fun _ _ => List.not_mem_nil, fun b hb c hc => .inl (h.ended b hb c hc)⟩
  · intro h
    refine ⟨h.head, h.parent, h.nodup, fun b hb c hc => ?_⟩
    exact (h.ended b hb c hc).resolve_right List.not_mem_nil

namespace Climbs

/-- A climb that ends where it begins. -/
theorem single (hfresh : Node.id a ∉ stops)
    (hended : ∀ c, parentIn? nodes a = some c → Node.id c ∈ Node.id a :: stops) : Climbs nodes stops a [a] where
  head := rfl
  parent := .singleton a
  nodup := List.nodup_singleton _
  fresh id hid := by
    rw [List.map_singleton, List.mem_singleton] at hid
    rwa [hid]
  ended b hb c hc := by
    obtain rfl : a = b := by simpa using hb
    simpa using hended c hc

/-- A climb goes on from the parent. -/
theorem cons (hfresh : Node.id a ∉ stops) (hparent : parentIn? nodes a = some b)
    (h : Climbs nodes (Node.id a :: stops) b l) : Climbs nodes stops a (a :: l) where
  head := rfl
  parent := by
    cases l with
    | nil => exact .singleton a
    | cons c l =>
      obtain rfl : c = b := by simpa using h.head
      exact List.isChain_cons_cons.2 ⟨hparent, h.parent⟩
  nodup := by
    rw [List.map_cons, List.nodup_cons]
    exact ⟨fun hmem => h.fresh _ hmem List.mem_cons_self, h.nodup⟩
  fresh id hid := by
    rcases List.mem_cons.1 hid with rfl | hid
    · exact hfresh
    · exact fun hmem => h.fresh id hid (List.mem_cons_of_mem _ hmem)
  ended c hc d hd := by
    have hne : l ≠ [] := by
      rintro rfl
      cases h.head
    rw [List.getLast?_cons_of_ne_nil hne] at hc
    rw [List.map_cons]
    rcases h.ended c hc d hd with hup | hdown
    · exact .inl (List.mem_cons_of_mem _ hup)
    · rcases List.mem_cons.1 hdown with he | hdown
      · exact .inl (he ▸ List.mem_cons_self)
      · exact .inr hdown

/-- How a climb goes on is decided by the parent of the node that it begins with. -/
theorem tail_cases (h : Climbs nodes stops a (a :: l)) :
    (l = [] ∧ ∀ c, parentIn? nodes a = some c → Node.id c ∈ Node.id a :: stops) ∨
      ∃ c, parentIn? nodes a = some c ∧ Node.id c ∉ Node.id a :: stops ∧ Climbs nodes (Node.id a :: stops) c l := by
  cases l with
  | nil =>
    refine .inl ⟨rfl, fun c hc => ?_⟩
    simpa using h.ended a rfl c hc
  | cons c l =>
    obtain ⟨hparent, hchain⟩ := List.isChain_cons_cons.1 h.parent
    obtain ⟨hnew, hnodup⟩ := List.nodup_cons.1 h.nodup
    have hfresh : ∀ id ∈ (c :: l).map Node.id, id ∉ Node.id a :: stops := by
      intro id hid hmem
      rcases List.mem_cons.1 hmem with rfl | hmem
      · exact hnew hid
      · exact h.fresh id (List.mem_cons_of_mem _ hid) hmem
    refine .inr ⟨c, hparent, hfresh _ List.mem_cons_self, rfl, hchain, hnodup, hfresh, fun b hb d hd => ?_⟩
    rcases h.ended b (by simpa using hb) d hd with hup | hdown
    · rcases List.mem_cons.1 hup with he | hup
      · exact .inr (he ▸ List.mem_cons_self)
      · exact .inl hup
    · exact .inr (List.mem_cons_of_mem _ hdown)

/-- There is one way to climb. -/
theorem unique {l' : List α} (h : Climbs nodes stops a l) (h' : Climbs nodes stops a l') : l = l' := by
  induction l generalizing stops a l' with
  | nil => cases h.head
  | cons b l ih =>
    obtain rfl : b = a := by simpa using h.head
    cases l' with
    | nil => cases h'.head
    | cons b' l' =>
      obtain rfl : b' = b := by simpa using h'.head
      rcases h.tail_cases with ⟨rfl, hstop⟩ | ⟨c, hc, hgo, hl⟩
      · rcases h'.tail_cases with ⟨rfl, -⟩ | ⟨c', hc', hgo', -⟩
        · rfl
        · exact absurd (hstop c' hc') hgo'
      · rcases h'.tail_cases with ⟨-, hstop'⟩ | ⟨c', hc', -, hl'⟩
        · exact absurd (hstop' c hc) hgo
        · obtain rfl : c = c' := Option.some.inj (hc.symm.trans hc')
          rw [ih hl hl']

end Climbs

/-! ## The bound -/

/-- The ids of the table that have not come up. -/
def unclimbed (nodes : OrderedMap String α) (stops : List String) : List String :=
  (nodes.values.map Node.id).filter fun id => id ∉ stops

theorem length_unclimbed_le : (unclimbed nodes stops).length ≤ nodes.size := by
  have h : (unclimbed nodes stops).length ≤ (nodes.values.map Node.id).length := List.length_filter_le _ _
  rwa [List.length_map, OrderedMap.values, List.length_map] at h

theorem length_unclimbed_cons_lt (ha : a ∈ nodes.values) (hfresh : Node.id a ∉ stops) :
    (unclimbed nodes (Node.id a :: stops)).length < (unclimbed nodes stops).length := by
  have hin : Node.id a ∈ unclimbed nodes stops :=
    List.mem_filter.2 ⟨List.mem_map_of_mem ha, decide_eq_true hfresh⟩
  have hsub : unclimbed nodes (Node.id a :: stops) = (unclimbed nodes stops).filter fun id => id ≠ Node.id a := by
    rw [unclimbed, unclimbed, List.filter_filter]
    apply List.filter_congr
    intro id _
    simp [not_or]
  rw [hsub]
  exact List.length_filter_lt_length_iff_exists.2 ⟨_, hin, by simp⟩

theorem ascent_eq_nil {limit : Nat} (h : Node.id a ∈ stops) : ascent nodes stops limit a = [] := by
  cases limit with
  | zero => rfl
  | succ n => rw [ascent, if_pos h]

/-- Climbing from a node of the table comes to its end if the bound allows for every id that has not come up. -/
theorem climbs_ascent {limit : Nat} (ha : a ∈ nodes.values) (hfresh : Node.id a ∉ stops)
    (hlimit : (unclimbed nodes stops).length ≤ limit) : Climbs nodes stops a (ascent nodes stops limit a) := by
  induction limit generalizing stops a with
  | zero =>
    have hlt := length_unclimbed_cons_lt ha hfresh
    omega
  | succ n ih =>
    have hlt := length_unclimbed_cons_lt ha hfresh
    unfold ascent
    rw [if_neg hfresh]
    split
    · next c hc =>
      have hmem : c ∈ nodes.values := by
        obtain ⟨id, -, hget⟩ := Option.bind_eq_some_iff.1 hc
        exact OrderedMap.mem_values_iff.2 ⟨id, hget⟩
      by_cases hgo : Node.id c ∈ Node.id a :: stops
      · rw [ascent_eq_nil hgo]
        apply Climbs.single hfresh
        intro d hd
        obtain rfl : c = d := Option.some.inj (hc.symm.trans hd)
        exact hgo
      · exact .cons hfresh hc (ih hmem hgo (by omega))
    · next hnone =>
      apply Climbs.single hfresh
      intro c hc
      exact absurd (hnone.symm.trans hc) nofun

/-! ## The ancestry of a node -/

/-- A first climb from anywhere, also from a node that the table lacks. -/
theorem climbs_ancestry (nodes : OrderedMap String α) (a : α) : Climbs nodes [] a (ancestry nodes a) := by
  unfold ancestry
  unfold ascent
  rw [if_neg List.not_mem_nil]
  split
  · next b hb =>
    have hmem : b ∈ nodes.values := by
      obtain ⟨id, -, hget⟩ := Option.bind_eq_some_iff.1 hb
      exact OrderedMap.mem_values_iff.2 ⟨id, hget⟩
    by_cases hgo : Node.id b ∈ [Node.id a]
    · rw [ascent_eq_nil hgo]
      apply Climbs.single List.not_mem_nil
      intro d hd
      obtain rfl : b = d := Option.some.inj (hb.symm.trans hd)
      exact hgo
    · exact .cons List.not_mem_nil hb (climbs_ascent hmem hgo length_unclimbed_le)
  · next hnone =>
    apply Climbs.single List.not_mem_nil
    intro c hc
    exact absurd (hnone.symm.trans hc) nofun

/-- A node has one ancestry at most. -/
theorem IsAncestry.unique {l' : List α} (h : IsAncestry nodes a l) (h' : IsAncestry nodes a l') : l = l' :=
  (isAncestry_iff_climbs.1 h).unique (isAncestry_iff_climbs.1 h')

/-- For every table and every node, the walk upwards comes to the end of the ancestry. -/
theorem isAncestry_iff : IsAncestry nodes a l ↔ l = ancestry nodes a := by
  have h : IsAncestry nodes a (ancestry nodes a) := isAncestry_iff_climbs.2 (climbs_ancestry nodes a)
  constructor
  · intro h'
    exact h'.unique h
  · rintro rfl
    exact h

end ManagementPlane
