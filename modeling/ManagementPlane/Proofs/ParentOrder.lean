import ManagementPlane.Proofs.Ancestry
import Mathlib.Logic.Relation

/-!
# Parents before children

The nodes of a table are sorted by placing one after the other, each behind those above it that are not placed yet. Parents
may be missing, and they may form cycles, which no order agrees with.

* `Before l a b` : `a` comes before `b` in `l`;
* `HasParent`, `OnCycle` : parents that the table has, and nodes that climbing leads back to;
* `FollowsParent`, `LeadsParent` : a node comes behind its parent, or it comes in front of it or is its own;
* `ParentsFirst nodes l` : in `l` nodes follow their parents, except for one on each cycle;
* `ParentsFirst.place` : placing a node keeps it so, and `parentsFirst_sortParentFirst` : so it is in the end;
* `sortParentFirst_eq_values` : nodes that are in such an order already are left in it;
* `sorts_parents_first` : what sorting does to any table.
-/

namespace ManagementPlane

open Relation (ReflTransGen TransGen)

variable {α : Type}

/-! ## One before the other -/

/-- `a` comes before `b` in `l`. -/
def Before (l : List α) (a b : α) : Prop := [a, b].Sublist l

namespace Before

variable {l m : List α} {a b : α}

theorem append (h : Before l a b) (m : List α) : Before (l ++ m) a b := h.trans (List.sublist_append_left l m)

theorem of_append_right (l : List α) (h : Before m a b) : Before (l ++ m) a b :=
  h.trans (List.sublist_append_right l m)

theorem of_mem (ha : a ∈ l) (hb : b ∈ m) : Before (l ++ m) a b :=
  (List.singleton_sublist.2 ha).append (List.singleton_sublist.2 hb)

theorem reverse (h : Before l a b) : Before l.reverse b a := List.Sublist.reverse h

/-- Where nothing is listed twice, what comes before something else is not the same and does not come behind it. -/
theorem asymm (hl : l.Nodup) (h : Before l a b) : ¬(b = a ∨ Before l b a) := by
  obtain ⟨s, t, rfl, ha, hb⟩ := List.cons_sublist_iff.1 h
  have hb : b ∈ t := List.singleton_sublist.1 hb
  have hapart : ∀ x ∈ s, x ∉ t := fun x hs ht => (List.nodup_append.1 hl).2.2 x hs x ht rfl
  rintro (rfl | h')
  · exact hapart b ha hb
  · obtain ⟨u, v, he, hu, hv⟩ := List.sublist_append_iff.1 h'
    cases u with
    | nil =>
      obtain rfl : [b, a] = v := he
      exact hapart a ha (hv.subset (List.mem_cons_of_mem _ (List.mem_singleton_self a)))
    | cons x u =>
      obtain ⟨rfl, -⟩ := List.cons.inj he
      exact hapart b (hu.subset List.mem_cons_self) hb

/-- What comes before something is in front of it. -/
theorem mem_left {s t : List α} (hl : (s ++ b :: t).Nodup) (h : Before (s ++ b :: t) a b) : a ∈ s := by
  have hnot := h.asymm hl
  have ha : a ∈ s ++ b :: t := h.subset List.mem_cons_self
  rcases List.mem_append.1 ha with ha | ha
  · exact ha
  · rcases List.mem_cons.1 ha with rfl | ha
    · exact absurd (.inl rfl) hnot
    · exact absurd (.inr (of_append_right s (of_mem (List.mem_singleton_self b) ha))) hnot

/-- Whatever is listed is the last or comes before it. -/
theorem getLast {z : α} (hz : l.getLast? = some z) (ha : a ∈ l) : z = a ∨ Before l a z := by
  obtain ⟨init, rfl⟩ := List.getLast?_eq_some_iff.1 hz
  rcases List.mem_append.1 ha with ha | ha
  · exact .inr (of_mem ha (List.mem_singleton_self z))
  · exact .inl (List.mem_singleton.1 ha).symm

end Before

variable [Node α] {nodes : OrderedMap String α} {l c : List α} {a b p q z : α}

/-! ## Parents -/

/-- The table has `p`, which `a` names as its parent. -/
def HasParent (nodes : OrderedMap String α) (a p : α) : Prop := parentIn? nodes a = some p

/-- Climbing from `a` leads back to `a`. -/
def OnCycle (nodes : OrderedMap String α) (a : α) : Prop := TransGen (HasParent nodes) a a

/-- The node comes behind its parent, if the table has that. -/
def FollowsParent (nodes : OrderedMap String α) (l : List α) (a : α) : Prop := ∀ p, HasParent nodes a p → Before l p a

/-- The node comes in front of its parent, or is its own. -/
def LeadsParent (nodes : OrderedMap String α) (l : List α) (a : α) : Prop :=
  ∃ p, HasParent nodes a p ∧ (a = p ∨ Before l a p)

theorem HasParent.unique (h : HasParent nodes a p) (h' : HasParent nodes a q) : p = q :=
  Option.some.inj (h.symm.trans h')

theorem HasParent.mem (h : HasParent nodes a p) : p ∈ nodes.values := by
  obtain ⟨id, -, hget⟩ := Option.bind_eq_some_iff.1 h
  exact OrderedMap.mem_values_iff.2 ⟨id, hget⟩

/-- From whatever lies above a node on a cycle climbing leads back to it. -/
theorem OnCycle.back (h : OnCycle nodes a) (hab : ReflTransGen (HasParent nodes) a b) :
    ReflTransGen (HasParent nodes) b a := by
  induction hab with
  | refl => exact .refl
  | @tail b c _ hbc ih =>
    -- from `b` the way back begins with its only parent
    obtain ⟨d, hbd, hda⟩ := TransGen.head'_iff.1 (TransGen.trans_right ih h)
    rwa [hbc.unique hbd]

theorem FollowsParent.append (h : FollowsParent nodes l a) (m : List α) : FollowsParent nodes (l ++ m) a :=
  fun p hp => (h p hp).append m

theorem LeadsParent.append (h : LeadsParent nodes l a) (m : List α) : LeadsParent nodes (l ++ m) a := by
  obtain ⟨p, hp, hlead⟩ := h
  exact ⟨p, hp, hlead.imp_right fun hbefore => hbefore.append m⟩

/-- A node does not both come behind its parent and in front of it. -/
theorem FollowsParent.not_leads (hl : l.Nodup) (h : FollowsParent nodes l a) : ¬LeadsParent nodes l a := by
  rintro ⟨p, hp, hlead⟩
  exact (h p hp).asymm hl hlead

/-- What lies above listed nodes is listed if their parents are. -/
theorem mem_of_reflTransGen (hclosed : ∀ a ∈ l, ∀ p, HasParent nodes a p → p ∈ l) (ha : a ∈ l)
    (h : ReflTransGen (HasParent nodes) a b) : b ∈ l := by
  induction h with
  | refl => exact ha
  | tail _ hp ih => exact hclosed _ ih _ hp

/-! ## Chains of parents -/

/-- In a chain of parents a node comes before its parent, unless the chain ends with it. -/
theorem before_parent_or_last (hc : c.IsChain (HasParent nodes)) (ha : a ∈ c) :
    (∃ p, HasParent nodes a p ∧ p ∈ c ∧ Before c a p) ∨ c.getLast? = some a := by
  induction c with
  | nil => cases ha
  | cons x c ih =>
    cases c with
    | nil => exact .inr (congrArg some (List.mem_singleton.1 ha).symm)
    | cons y c =>
      obtain ⟨hxy, hrest⟩ := List.isChain_cons_cons.1 hc
      rcases List.mem_cons.1 ha with rfl | ha
      · exact .inl ⟨y, hxy, by simp, (List.singleton_sublist.2 List.mem_cons_self).cons_cons a⟩
      · rcases ih hrest ha with ⟨p, hp, hmem, hbefore⟩ | hlast
        · exact .inl ⟨p, hp, List.mem_cons_of_mem _ hmem, hbefore.cons x⟩
        · exact .inr (by rw [List.getLast?_cons_cons, hlast])

/-- Climbing from a node in a chain of parents leads to the end of the chain. -/
theorem climb_to_last (hc : c.IsChain (HasParent nodes)) (ha : a ∈ c) (hz : c.getLast? = some z) :
    ReflTransGen (HasParent nodes) a z := by
  induction c generalizing a with
  | nil => cases ha
  | cons x c ih =>
    cases c with
    | nil =>
      obtain rfl : a = x := List.mem_singleton.1 ha
      obtain rfl : a = z := Option.some.inj hz
      exact .refl
    | cons y c =>
      obtain ⟨hxy, hrest⟩ := List.isChain_cons_cons.1 hc
      rw [List.getLast?_cons_cons] at hz
      rcases List.mem_cons.1 ha with rfl | ha
      · exact .head hxy (ih hrest List.mem_cons_self hz)
      · exact ih hrest ha hz

section Placing
variable (hc : c.IsChain (HasParent nodes))
include hc

/-- Behind the nodes placed before, a chain of parents from the top down puts every node behind its parent, except perhaps
the topmost. -/
theorem follows_or_last (l : List α) (ha : a ∈ c) : FollowsParent nodes (l ++ c.reverse) a ∨ c.getLast? = some a := by
  refine (before_parent_or_last hc ha).imp_left ?_
  rintro ⟨p, hp, -, hbefore⟩ q hq
  exact hp.unique hq ▸ hbefore.reverse.of_append_right l

omit hc in
/-- The topmost leads if its parent is further down. -/
theorem leads_last (l : List α) (hz : c.getLast? = some z) (hp : HasParent nodes z p) (hpc : p ∈ c) :
    LeadsParent nodes (l ++ c.reverse) z :=
  ⟨p, hp, (Before.getLast hz hpc).imp_right fun hbefore => hbefore.reverse.of_append_right l⟩

/-- Then it is on a cycle. -/
theorem onCycle_last (hz : c.getLast? = some z) (hp : HasParent nodes z p) (hpc : p ∈ c) : OnCycle nodes z :=
  .head' hp (climb_to_last hc hpc hz)

end Placing

/-! ## Orders that cut every cycle once -/

/-- Nodes of the table, each once and together with all that lies above them, in an order that has parents come first:
every node follows its parent, except that on each cycle one node leads. -/
structure ParentsFirst (nodes : OrderedMap String α) (l : List α) : Prop where
  mem : ∀ a ∈ l, a ∈ nodes.values
  once : (l.map Node.id).Nodup
  closed : ∀ a ∈ l, ∀ p, HasParent nodes a p → p ∈ l
  follows_or_leads : ∀ a ∈ l, FollowsParent nodes l a ∨ OnCycle nodes a ∧ LeadsParent nodes l a
  cut_once : ∀ a ∈ l, OnCycle nodes a → ∃! b, TransGen (HasParent nodes) a b ∧ LeadsParent nodes l b

namespace ParentsFirst

theorem nil (nodes : OrderedMap String α) : ParentsFirst nodes [] := ⟨nofun, List.nodup_nil, nofun, nofun, nofun⟩

theorem nodup (h : ParentsFirst nodes l) : l.Nodup := h.once.of_map

/-- Nodes that are on no cycle follow their parents. -/
theorem follows (h : ParentsFirst nodes l) (ha : a ∈ l) (hcycle : ¬OnCycle nodes a) : FollowsParent nodes l a :=
  (h.follows_or_leads a ha).resolve_right fun hlead => hcycle hlead.1

end ParentsFirst

section Ids
variable (hids : ∀ id a, nodes.get? id = some a → Node.id a = id)
include hids

/-- Nodes that lie under their ids are told apart by them. -/
theorem eq_of_id_eq (ha : a ∈ nodes.values) (hb : b ∈ nodes.values) (h : Node.id a = Node.id b) : a = b := by
  obtain ⟨i, hi⟩ := OrderedMap.mem_values_iff.1 ha
  obtain ⟨j, hj⟩ := OrderedMap.mem_values_iff.1 hb
  rw [hids i a hi, hids j b hj] at h
  subst h
  exact Option.some.inj (hi.symm.trans hj)

theorem mem_of_id_mem (hl : ∀ b ∈ l, b ∈ nodes.values) (ha : a ∈ nodes.values) (h : Node.id a ∈ l.map Node.id) : a ∈ l := by
  obtain ⟨b, hb, hid⟩ := List.mem_map.1 h
  exact eq_of_id_eq hids (hl b hb) ha hid ▸ hb

namespace ParentsFirst

section Climb
variable (h : ParentsFirst nodes l) (hc : Climbs nodes (l.map Node.id) a c) (hmem : ∀ b ∈ c, b ∈ nodes.values)
include h hc

omit hids in
theorem once_append : ((l ++ c.reverse).map Node.id).Nodup := by
  rw [List.map_append, List.map_reverse, List.nodup_append]
  refine ⟨h.once, List.nodup_reverse.2 hc.nodup, ?_⟩
  rintro id hid _ hid' rfl
  exact hc.fresh id (List.mem_reverse.1 hid') hid

include hmem

/-- The topmost node of a climb has its parent further down or among those placed before, if the table has it. -/
theorem parent_last (hz : c.getLast? = some z) (hp : HasParent nodes z p) : p ∈ c ∨ p ∈ l := by
  rcases hc.ended z hz p hp with hid | hid
  · exact .inl (mem_of_id_mem hids hmem hp.mem hid)
  · exact .inr (mem_of_id_mem hids h.mem hp.mem hid)

theorem closed_append : ∀ b ∈ l ++ c.reverse, ∀ p, HasParent nodes b p → p ∈ l ++ c.reverse := by
  intro b hb p hp
  rw [List.mem_append, List.mem_reverse] at hb ⊢
  rcases hb with hb | hb
  · exact .inl (h.closed b hb p hp)
  · rcases before_parent_or_last hc.parent hb with ⟨q, hq, hqc, -⟩ | hlast
    · exact .inr (HasParent.unique hp hq ▸ hqc)
    · exact (parent_last hids h hc hmem hlast hp).symm

theorem follows_or_leads_append : ∀ b ∈ l ++ c.reverse, FollowsParent nodes (l ++ c.reverse) b ∨
    OnCycle nodes b ∧ LeadsParent nodes (l ++ c.reverse) b := by
  intro b hb
  rcases List.mem_append.1 hb with hb | hb
  · exact (h.follows_or_leads b hb).imp (·.append _) (And.imp_right (·.append _))
  · rw [List.mem_reverse] at hb
    rcases follows_or_last hc.parent l hb with hfollows | hlast
    · exact .inl hfollows
    · by_cases hup : ∃ p ∈ c, HasParent nodes b p
      · obtain ⟨p, hpc, hp⟩ := hup
        exact .inr ⟨onCycle_last hc.parent hlast hp hpc, leads_last l hlast hp hpc⟩
      · refine .inl fun p hp => ?_
        have hpl : p ∈ l := (parent_last hids h hc hmem hlast hp).resolve_left fun hpc => hup ⟨p, hpc, hp⟩
        exact Before.of_mem hpl (List.mem_reverse.2 hb)

omit hids hmem in
/-- A cycle that was placed before is cut where it was. -/
theorem cut_once_of_mem (hb : b ∈ l) (hcycle : OnCycle nodes b) :
    ∃! d, TransGen (HasParent nodes) b d ∧ LeadsParent nodes (l ++ c.reverse) d := by
  obtain ⟨d, ⟨hbd, hlead⟩, hunique⟩ := h.cut_once b hb hcycle
  refine ⟨d, ⟨hbd, hlead.append _⟩, fun e ⟨hbe, hlead'⟩ => hunique e ⟨hbe, ?_⟩⟩
  have he : e ∈ l := mem_of_reflTransGen h.closed hb hbe.to_reflTransGen
  have hnot : ¬FollowsParent nodes l e := fun hf => (hf.append _).not_leads (once_append h hc).of_map hlead'
  exact ((h.follows_or_leads e he).resolve_left hnot).2

/-- A cycle that a climb comes upon is cut at the topmost node. -/
theorem cut_once_of_climb (hb : b ∈ c) (hcycle : OnCycle nodes b) :
    ∃! d, TransGen (HasParent nodes) b d ∧ LeadsParent nodes (l ++ c.reverse) d := by
  have hnew : ∀ d, ReflTransGen (HasParent nodes) b d → d ∉ l := by
    intro d hbd hd
    have hbl : b ∈ l := mem_of_reflTransGen h.closed hd (hcycle.back hbd)
    exact hc.fresh _ (List.mem_map_of_mem hb) (List.mem_map_of_mem hbl)
  obtain ⟨z, hz⟩ : ∃ z, c.getLast? = some z := ⟨_, List.getLast?_eq_some_getLast (List.ne_nil_of_mem hb)⟩
  have hbz := climb_to_last hc.parent hb hz
  -- the topmost node is on the cycle, so it has a parent, and that was not placed before
  obtain ⟨p, hp, -⟩ := TransGen.head'_iff.1 (TransGen.trans_right (hcycle.back hbz) hcycle)
  have hpc : p ∈ c := (parent_last hids h hc hmem hz hp).resolve_right (hnew p (hbz.tail hp))
  refine ⟨z, ⟨TransGen.trans_left hcycle hbz, leads_last l hz hp hpc⟩, fun e ⟨hbe, hlead⟩ => ?_⟩
  have hb' : b ∈ l ++ c.reverse := List.mem_append_right _ (List.mem_reverse.2 hb)
  have he := mem_of_reflTransGen (closed_append hids h hc hmem) hb' hbe.to_reflTransGen
  have hec : e ∈ c := List.mem_reverse.1 ((List.mem_append.1 he).resolve_left (hnew e hbe.to_reflTransGen))
  have hnot : ¬FollowsParent nodes (l ++ c.reverse) e := fun hf => hf.not_leads (once_append h hc).of_map hlead
  have hlast := (follows_or_last hc.parent l hec).resolve_left hnot
  exact Option.some.inj (hlast.symm.trans hz)

/-- The nodes that a climb comes upon may be placed from the top down. -/
theorem append_climb : ParentsFirst nodes (l ++ c.reverse) where
  mem b hb := by
    rcases List.mem_append.1 hb with hb | hb
    · exact h.mem b hb
    · exact hmem b (List.mem_reverse.1 hb)
  once := once_append h hc
  closed := closed_append hids h hc hmem
  follows_or_leads := follows_or_leads_append hids h hc hmem
  cut_once b hb hcycle := by
    rcases List.mem_append.1 hb with hb | hb
    · exact cut_once_of_mem h hc hb hcycle
    · exact cut_once_of_climb hids h hc hmem (List.mem_reverse.1 hb) hcycle

end Climb

/-- Placing a node of the table keeps the order. -/
theorem place (h : ParentsFirst nodes l) (ha : a ∈ nodes.values) : ParentsFirst nodes (place nodes l a) := by
  unfold ManagementPlane.place
  by_cases hplaced : Node.id a ∈ l.map Node.id
  · rwa [ascent_eq_nil hplaced, List.reverse_nil, List.append_nil]
  · exact append_climb hids h (climbs_ascent ha hplaced length_unclimbed_le) fun b hb => mem_of_mem_ascent ha hb

end ParentsFirst

/-- Sorting cuts every cycle once and otherwise has parents come first. -/
theorem parentsFirst_sortParentFirst : ParentsFirst nodes (sortParentFirst nodes) := by
  have hall : ∀ rest l : List α, (∀ a ∈ rest, a ∈ nodes.values) → ParentsFirst nodes l →
      ParentsFirst nodes (rest.foldl (place nodes) l) := by
    intro rest
    induction rest with
    | nil => exact fun _ _ hl => hl
    | cons a rest ih =>
      intro l hrest hl
      exact ih _ (fun b hb => hrest b (List.mem_cons_of_mem _ hb)) (hl.place hids (hrest a List.mem_cons_self))
  exact hall nodes.values [] (fun _ ha => ha) (.nil nodes)

/-! ## Nodes in order -/

omit hids in
/-- A node whose parent is placed comes right behind what is placed. -/
theorem place_eq_append (ha : a ∈ nodes.values) (hnew : Node.id a ∉ l.map Node.id)
    (hparent : ∀ p, HasParent nodes a p → p ∈ l) : place nodes l a = l ++ [a] := by
  obtain ⟨n, hn⟩ : ∃ n, nodes.size = n + 1 := by
    have hpos : 0 < nodes.values.length := List.length_pos_of_mem ha
    rw [OrderedMap.values, List.length_map] at hpos
    exact ⟨nodes.size - 1, (Nat.succ_pred_eq_of_pos hpos).symm⟩
  unfold place
  rw [hn, ascent, if_neg hnew]
  cases hp : (Node.parent? a).bind nodes.get? with
  | none => rfl
  | some p =>
    have hid : Node.id p ∈ Node.id a :: l.map Node.id :=
      List.mem_cons_of_mem _ (List.mem_map_of_mem (hparent p hp))
    dsimp only
    rw [ascent_eq_nil hid]
    rfl

/-- Nodes of which each comes behind its parent already are left in their order. -/
theorem sortParentFirst_eq_values (h : ∀ a ∈ nodes.values, FollowsParent nodes nodes.values a) :
    sortParentFirst nodes = nodes.values := by
  have hids' : (nodes.values.map Node.id).Nodup := nodup_ids_values hids
  have hall : ∀ rest l, nodes.values = l ++ rest → rest.foldl (place nodes) l = nodes.values := by
    intro rest
    induction rest with
    | nil => exact fun l hl => (hl.trans (List.append_nil l)).symm
    | cons a rest ih =>
      intro l hl
      have ha : a ∈ nodes.values := hl ▸ List.mem_append_right l List.mem_cons_self
      have hnew : Node.id a ∉ l.map Node.id := by
        rw [hl, List.map_append, List.map_cons] at hids'
        exact fun hmem => (List.nodup_append.1 hids').2.2 _ hmem _ List.mem_cons_self rfl
      have hparent : ∀ p, HasParent nodes a p → p ∈ l := by
        intro p hp
        have hbefore := h a ha p hp
        rw [hl] at hbefore
        exact hbefore.mem_left (hl ▸ hids'.of_map)
      rw [List.foldl_cons, place_eq_append ha hnew hparent]
      exact ih (l ++ [a]) (by rw [hl, List.append_assoc]; rfl)
  exact hall nodes.values [] rfl

/-! ## Sorting twice -/

omit hids in
/-- The table that lists nodes in their order, each under its id. -/
def tableOf (l : List α) : OrderedMap String α := .ofList (l.map fun a => (Node.id a, a))

omit hids in
theorem entries_tableOf (hl : (l.map Node.id).Nodup) : (tableOf l).entries = l.map fun a => (Node.id a, a) := by
  refine OrderedMap.entries_ofList ?_
  rwa [List.map_map]

omit hids in
theorem values_tableOf (hl : (l.map Node.id).Nodup) : (tableOf l).values = l := by
  rw [OrderedMap.values, entries_tableOf hl, List.map_map]
  exact List.map_id l

theorem entries_eq_map : nodes.entries = nodes.values.map fun a => (Node.id a, a) := by
  rw [OrderedMap.values, List.map_map]
  symm
  refine (List.map_congr_left fun e he => ?_).trans (List.map_id nodes.entries)
  exact Prod.ext (hids e.1 e.2 (OrderedMap.get?_eq_some_iff.2 he)) rfl

/-- The nodes of a table have the same parents in whatever order they are listed. -/
theorem hasParent_tableOf (hl : l.Perm nodes.values) (honce : (l.map Node.id).Nodup) :
    HasParent (tableOf l) = HasParent nodes := by
  have hentries : (tableOf l).entries.Perm nodes.entries := by
    rw [entries_tableOf honce, entries_eq_map hids]
    exact hl.map _
  have hget : (tableOf l).get? = nodes.get? := funext (OrderedMap.get?_eq_of_perm hentries)
  unfold HasParent parentIn?
  rw [hget]

omit hids in
theorem id_of_get?_tableOf (l : List α) (id : String) (a : α) (h : (tableOf l).get? id = some a) : Node.id a = id := by
  obtain ⟨b, -, hb⟩ := List.mem_map.1 (OrderedMap.mem_of_get?_ofList h)
  cases hb
  rfl

/-- Without cycles there is nothing left to sort. -/
theorem sortParentFirst_sortParentFirst (hcycle : ∀ a ∈ nodes.values, ¬OnCycle nodes a) :
    sortParentFirst (tableOf (sortParentFirst nodes)) = sortParentFirst nodes := by
  have hsorted := parentsFirst_sortParentFirst hids
  have hvalues := values_tableOf hsorted.once
  refine (sortParentFirst_eq_values (id_of_get?_tableOf _) fun a ha => ?_).trans hvalues
  rw [hvalues] at ha ⊢
  unfold FollowsParent
  rw [hasParent_tableOf hids (sortParentFirst_perm hids) hsorted.once]
  exact hsorted.follows ha (hcycle a (hsorted.mem a ha))

/-! ## Sorting -/

omit hids in
/-- The climb from a node comes to its end by itself: with a higher bound it is the same. -/
theorem ascent_eq_of_size_le {stops : List String} {limit : Nat} (ha : a ∈ nodes.values) (hlimit : nodes.size ≤ limit) :
    ascent nodes stops limit a = ascent nodes stops nodes.size a := by
  by_cases hstop : Node.id a ∈ stops
  · rw [ascent_eq_nil hstop, ascent_eq_nil hstop]
  · exact (climbs_ascent ha hstop (Nat.le_trans length_unclimbed_le hlimit)).unique (climbs_ascent ha hstop length_unclimbed_le)

/-- Sorting a table of nodes under their ids, whatever their parents: every climb ends, every node is shown once, each
follows its parent except for one on each cycle, nodes of which each comes behind its parent stay as they are, and
without cycles sorting a second time changes nothing. -/
theorem sorts_parents_first :
    (∀ a ∈ nodes.values, ∀ stops limit, nodes.size ≤ limit →
      ascent nodes stops limit a = ascent nodes stops nodes.size a) ∧
    (sortParentFirst nodes).Perm nodes.values ∧ ParentsFirst nodes (sortParentFirst nodes) ∧
    ((∀ a ∈ nodes.values, FollowsParent nodes nodes.values a) → sortParentFirst nodes = nodes.values) ∧
    ((∀ a ∈ nodes.values, ¬OnCycle nodes a) →
      sortParentFirst (tableOf (sortParentFirst nodes)) = sortParentFirst nodes) :=
  ⟨fun _ ha _ _ hlimit => ascent_eq_of_size_le ha hlimit, sortParentFirst_perm hids, parentsFirst_sortParentFirst hids,
    sortParentFirst_eq_values hids, sortParentFirst_sortParentFirst hids⟩

end Ids

/-- A family that is listed from the bottom up, two nodes that are each other's parent with one below them, a node that is
its own parent, and one whose parent is missing. -/
def tangledNodes : List Memento := [
  { id := "grandchild", type := "t", parent := some "child" }, { id := "below", type := "t", parent := some "a" },
  { id := "a", type := "t", parent := some "b" }, { id := "b", type := "t", parent := some "a" },
  { id := "self", type := "t", parent := some "self" }, { id := "orphan", type := "t", parent := some "gone" },
  { id := "child", type := "t", parent := some "root" }, { id := "root", type := "t" }]

/-- Of the cycles one is cut in front of `b`, which leads `a`, and the other at `self`. -/
theorem sorts_parents_first_tangledNodes :
    (∀ id a, (tableOf tangledNodes).get? id = some a → Node.id a = id) ∧
      (sortParentFirst (tableOf tangledNodes)).map Memento.id =
        ["root", "child", "grandchild", "b", "a", "below", "self", "orphan"] ∧
      (sortParentFirst (tableOf tangledNodes)).Perm (tableOf tangledNodes).values ∧
      ParentsFirst (tableOf tangledNodes) (sortParentFirst (tableOf tangledNodes)) := by
  have hids := id_of_get?_tableOf tangledNodes
  obtain ⟨-, hperm, hsorted, -, -⟩ := sorts_parents_first hids
  exact ⟨hids, by decide +kernel, hperm, hsorted⟩

end ManagementPlane
