import ManagementPlane.Proofs.Ownership
import ManagementPlane.Proofs.Reordering
import ManagementPlane.Proofs.Showing
import ManagementPlane.Proofs.Takeover

/-!
# Joined shells in two passes

* `Snapshot.Exclusive` : no two entities refer to one adjunct;
* `Listing.owner?_of_perm` : then it does not matter in which order references are looked up;
* `RawData.Reordered.filter_listings` : and one entity looks up its own in the same order;
* `Pass.Mirrors p q` : the shells of two passes show the same, and their handlers were told the same in some order;
* `Pass.mirrors_of_joined` : so it is when shells that show the same have been joined, over stores that list the same
  payloads in another order.
-/

namespace ManagementPlane

variable {σ : Type}

/-- No two entities refer to one adjunct, where only what has a shell counts. -/
def Snapshot.Exclusive (snapshot : Snapshot) (s : Scratch) : Prop :=
  ∀ m ∈ snapshot.entities.values, s.contains .entity m.id = true →
    ∀ m' ∈ snapshot.entities.values, s.contains .entity m'.id = true →
      ∀ k ∈ ObjectKind.adjuncts, ∀ id ∈ m.adjunctIds k, id ∈ m'.adjunctIds k → s.contains k id = true → m.id = m'.id

instance (snapshot : Snapshot) (s : Scratch) : Decidable (snapshot.Exclusive s) :=
  inferInstanceAs (Decidable (∀ m ∈ _, _ → ∀ m' ∈ _, _ → ∀ k ∈ _, ∀ id ∈ _, _ → _ → _))

/-! ## Owners -/

namespace Listing

variable {s : Scratch} {ls ls' : List Listing} {k : ObjectKind} {id entity : String}

/-- All references to one adjunct with a shell are by one entity. -/
def Exclusive (s : Scratch) (ls : List Listing) : Prop :=
  ∀ l ∈ ls, ∀ l' ∈ ls, l.kind = l'.kind → l.id = l'.id → s.contains l.kind l.id = true → l.entity = l'.entity

/-- Then an adjunct belongs to whoever refers to it. -/
theorem owner?_eq_some_iff (h : Exclusive s ls) (hk : s.contains k id = true) :
    owner? ls k id = some entity ↔ ⟨entity, k, id⟩ ∈ ls := by
  refine ⟨mem_of_owner?, fun hmem => ?_⟩
  rcases ho : owner? ls k id with _ | other
  · exact absurd ⟨rfl, rfl⟩ (owner?_eq_none_iff.1 ho _ hmem)
  · exact congrArg some (h _ (mem_of_owner? ho) _ hmem rfl rfl hk)

/-- It does not matter in which order the references are looked up. -/
theorem owner?_of_perm (h : Exclusive s ls) (hperm : ls.Perm ls') (hk : s.contains k id = true) :
    owner? ls' k id = owner? ls k id := by
  have h' : Exclusive s ls' := fun l hl l' hl' => h l (hperm.mem_iff.2 hl) l' (hperm.mem_iff.2 hl')
  refine Option.ext fun entity => ?_
  rw [owner?_eq_some_iff h hk, owner?_eq_some_iff h' hk, hperm.mem_iff]

end Listing

theorem Snapshot.Exclusive.listings {snapshot : Snapshot} {s : Scratch} (h : snapshot.Exclusive s)
    (features : Features) : Listing.Exclusive s (snapshot.listings features s) := by
  intro l hl l' hl' hk hid hshell
  obtain ⟨m, hm, hl⟩ := List.mem_flatMap.1 hl
  obtain ⟨m', hm', hl'⟩ := List.mem_flatMap.1 hl'
  obtain ⟨he, hadjunct, -, hmem⟩ := Memento.mem_listings_iff.1 hl
  obtain ⟨he', -, -, hmem'⟩ := Memento.mem_listings_iff.1 hl'
  obtain ⟨hm, hshelled⟩ := List.mem_filter.1 hm
  obtain ⟨hm', hshelled'⟩ := List.mem_filter.1 hm'
  rw [he, he']
  rw [← hk, ← hid] at hmem'
  exact h m (mem_of_mem_sortParentFirst hm) hshelled m' (mem_of_mem_sortParentFirst hm') hshelled' l.kind
    ((ObjectKind.mem_adjuncts_iff _).2 hadjunct) l.id hmem hmem' hshell

/-! ## References in another order -/

/-- What an entity looks up. -/
theorem Memento.filter_listings (features : Features) (m : Memento) (entity : String) :
    (m.listings features).filter (fun l => l.entity = entity) = if m.id = entity then m.listings features else [] := by
  split
  · next he =>
    refine List.filter_eq_self.2 fun l hl => ?_
    rw [decide_eq_true_eq, (Memento.mem_listings_iff.1 hl).1, he]
  · next he =>
    refine List.filter_eq_nil_iff.2 fun l hl => ?_
    rwa [(Memento.mem_listings_iff.1 hl).1, decide_eq_true_eq]

theorem Snapshot.filter_listings (snapshot : Snapshot) (features : Features) (s : Scratch) (entity : String) :
    (snapshot.listings features s).filter (fun l => l.entity = entity) =
      ((sortParentFirst snapshot.entities).filter fun m => m.id = entity && s.contains .entity m.id).flatMap
        (Memento.listings features) := by
  unfold listings
  rw [List.filter_flatMap]
  simp only [Memento.filter_listings]
  induction sortParentFirst snapshot.entities with
  | nil => rfl
  | cons m ms ih =>
    rw [List.filter_cons, List.filter_cons]
    by_cases hc : s.contains .entity m.id = true
    · by_cases he : m.id = entity
      · rw [if_pos hc, if_pos (by rw [hc, decide_eq_true he]; rfl), List.flatMap_cons, List.flatMap_cons, if_pos he, ih]
      · rw [if_pos hc, if_neg (by rw [decide_eq_false he]; exact Bool.false_ne_true), List.flatMap_cons, if_neg he, ih]
        rfl
    · rw [if_neg hc, if_neg (by rw [Bool.and_eq_true]; exact fun h => hc h.2), ih]

section Reordered
variable {raw raw' : RawData} (h : raw.Reordered raw') {s s' : Scratch}
  (hs : ∀ id, s'.contains .entity id = s.contains .entity id)
include h hs

/-- The entities that refer to something are the same. -/
theorem RawData.Reordered.listings (features : Features) :
    (raw.snapshot.listings features s).Perm (raw'.snapshot.listings features s') := by
  unfold Snapshot.listings
  simp only [hs]
  exact ((h.sortParentFirst .entity).filter _).flatMap_right _

theorem RawData.Reordered.absentees : (raw.snapshot.absentees s).Perm (raw'.snapshot.absentees s') := by
  unfold Snapshot.absentees
  simp only [hs]
  exact ((h.sortParentFirst .entity).map _).filter _

/-- What one entity looks up comes in the same order. -/
theorem RawData.Reordered.filter_listings (features : Features) (entity : String) :
    (raw.snapshot.listings features s).filter (fun l => l.entity = entity) =
      (raw'.snapshot.listings features s').filter (fun l => l.entity = entity) := by
  rw [Snapshot.filter_listings, Snapshot.filter_listings]
  simp only [hs]
  refine congrArg (List.flatMap _) ?_
  have hapart : ∀ raw : RawData, ((ManagementPlane.sortParentFirst raw.snapshot.entities).filter fun m =>
      m.id = entity && s.contains .entity m.id).Pairwise fun m m' => m.id ≠ m'.id := fun raw =>
    (List.pairwise_map.1 (nodup_sortParentFirst raw.snapshot.entities)).filter _
  have hid : ∀ {ms : List Memento} {m : Memento},
      m ∈ ms.filter (fun m => m.id = entity && s.contains .entity m.id) → m.id = entity := fun hm =>
    of_decide_eq_true (Bool.and_eq_true_iff.1 (List.mem_filter.1 hm).2).1
  exact List.Perm.eq_of_pairwise (fun m m' hm hm' hne _ => absurd ((hid hm).trans (hid hm').symm) hne) (hapart raw)
    (hapart raw') ((h.sortParentFirst .entity).filter _)

end Reordered

/-! ## What joined shells show -/

namespace Object

theorem bare_having (f : ObjectKind → List Handle) (o : Object) : (o.having f).bare = o.bare := by
  unfold bare having
  cases o.body <;> rfl

theorem adjuncts_ownedBy_having (w : Option String) (f : ObjectKind → List Handle) (o : Object) (k : ObjectKind) :
    ((o.ownedBy w).having f).adjuncts k = if o.kind = .entity ∧ k.isAdjunct = true then f k else [] := by
  obtain ⟨id, type, item, readOnly, behaviour, body⟩ := o
  cases body <;> cases k <;> rfl

end Object

/-- The adjuncts of a kind that an entity comes to show, in the order in which it refers to them. -/
def Showing.held (v : Showing) (ls : List Listing) (entity : String) (k : ObjectKind) : List Object :=
  (ls.filter fun l => l.entity = entity).filterMap fun l =>
    if l.kind = k ∧ Listing.owner? ls k l.id = some entity then
      (v.shelf (k, l.id)).map fun o => (o.ownedBy (some entity)).bare
    else none

namespace Pass

variable {n : Nat} {p₀ q₀ p q : Pass σ} {ls ls' : List Listing} {lost lost' : List String} {k : ObjectKind}
  {id : String} {a : Handle}

/-- What a joined shell shows depends on what loose shells show. -/
theorem Joined.shown (hp : Joined p₀ ls lost p) (h₀ : p₀.Loose n) (k : ObjectKind) (id : String) :
    (p.scratch.get? k id).map p.plane.shown = (p₀.shelf k id).map fun o =>
      ((o.ownedBy (Listing.owner? ls k id)).bare,
        fun j => if k = .entity ∧ j.isAdjunct = true then p₀.showing.held ls id j else []) := by
  have hread : ∀ {k id a}, p₀.scratch.get? k id = some a → p.plane.read a =
      ((p₀.plane.read a).ownedBy (Listing.owner? ls k id)).having (p₀.scratch.held ls id) := fun ha => by
    rw [hp.read ha, Scratch.joined, h₀.sound.kind ha, h₀.sound.id ha]
  unfold shelf
  rw [hp.scratch, Option.map_map]
  refine Option.map_congr fun a ha => ?_
  have ha : p₀.scratch.get? k id = some a := ha
  refine Prod.ext ?_ (funext fun j => ?_)
  · exact (congrArg Object.bare (hread ha)).trans (Object.bare_having _ _)
  · show ((p.plane.read a).adjuncts j).map _ = if _ then _ else _
    rw [hread ha, Object.adjuncts_ownedBy_having, h₀.sound.kind ha]
    split
    · unfold Scratch.held Showing.held
      rw [List.map_filterMap, List.filterMap_filter]
      refine List.filterMap_congr fun l _ => ?_
      by_cases he : l.entity = id
      · rw [if_pos (decide_eq_true he)]
        by_cases hc : l.kind = j ∧ Listing.owner? ls j l.id = some id
        · rw [if_pos ⟨he, hc⟩, if_pos hc]
          show _ = ((p₀.scratch.get? j l.id).map _).map _
          rw [Option.map_map]
          refine Option.map_congr fun b hb => ?_
          rw [← hc.2]
          exact (congrArg Object.bare (hread hb)).trans (Object.bare_having _ _)
        · rw [if_neg fun h => hc h.2, if_neg hc]
          rfl
      · rw [if_neg fun h => he h.1, if_neg (by rwa [decide_eq_true_eq])]
        rfl
    · rfl

/-- Joining leaves alone what the hooks of a shell do. -/
theorem Joined.behaviour (hp : Joined p₀ ls lost p) (ha : p₀.scratch.get? k id = some a) :
    (p.plane.read a).behaviour = (p₀.plane.read a).behaviour := by
  rw [hp.read ha]
  rfl

/-- All adjuncts of a shell are shells. -/
theorem Joined.exists_of_mem_adjuncts (hp : Joined p₀ ls lost p) (ha : p₀.scratch.get? k id = some a)
    {j : ObjectKind} {b : Handle} (hb : b ∈ (p.plane.read a).adjuncts j) :
    j.isAdjunct = true ∧ ∃ i, p₀.scratch.get? j i = some b := by
  rw [hp.read ha, Scratch.joined, Object.adjuncts_ownedBy_having] at hb
  split at hb
  · next hc => exact ⟨hc.2, Scratch.exists_of_mem_held hb⟩
  · cases hb

/-- What was told up to now is what was told before, of the references, and of the entities that are missed. -/
theorem Joined.told (hp : Joined p₀ ls lost p) : p.plane.notes.Perm
    ((ls.filterMap (p₀.scratch.reply? ls) ++ lost.map (.notFound .entity)) ++ p₀.plane.notes) := by
  have hsplit : ∀ r : Pass σ, (r.plane.joiningNotes ++ r.plane.otherNotes).Perm r.plane.notes := fun r =>
    List.filter_append_perm _ _
  refine (hsplit p).symm.trans (.trans ?_ (.append_left _ (hsplit p₀)))
  rw [hp.joining, hp.others, ← Multiset.coe_eq_coe]
  simp only [← Multiset.coe_add, Multiset.coe_reverse]
  exact add_add_add_comm _ _ _ _

/-! ## Two passes -/

/-- The shells of two passes show the same, and their handlers were told the same in some order. -/
structure Mirrors (p q : Pass σ) : Prop where
  shown : ∀ k id, (q.scratch.get? k id).map q.plane.shown = (p.scratch.get? k id).map p.plane.shown
  told : p.plane.notes.Perm q.plane.notes

theorem shelf_of_showing (hv : q₀.showing = p₀.showing) (k : ObjectKind) (id : String) : q₀.shelf k id = p₀.shelf k id :=
  congrFun (congrArg Showing.shelf hv) (k, id)

theorem contains_of_showing (hv : q₀.showing = p₀.showing) (k : ObjectKind) (id : String) :
    q₀.scratch.contains k id = p₀.scratch.contains k id := by
  rw [← isSome_shelf, ← isSome_shelf, shelf_of_showing hv]

/-! ### Over a store in another order -/

section Reordered
variable {raw raw' : RawData} (hraw : raw.Reordered raw') (hx : raw.snapshot.Exclusive p₀.scratch) (features : Features)
  (hv : q₀.showing = p₀.showing)
include hraw hx hv

/-- A shell has the same owner. -/
theorem owner?_reordered (hk : (p₀.shelf k id).isSome = true) :
    Listing.owner? (raw'.snapshot.listings features q₀.scratch) k id =
      Listing.owner? (raw.snapshot.listings features p₀.scratch) k id :=
  Listing.owner?_of_perm (hx.listings features) (hraw.listings (contains_of_showing hv .entity) features)
    (by rwa [← isSome_shelf])

/-- An entity comes to hold the same, in the order in which it refers to it. -/
theorem held_reordered (id : String) : p₀.showing.held (raw'.snapshot.listings features q₀.scratch) id =
    p₀.showing.held (raw.snapshot.listings features p₀.scratch) id := by
  funext j
  unfold Showing.held
  rw [hraw.filter_listings (contains_of_showing hv .entity)]
  refine List.filterMap_congr fun l _ => ?_
  show (if _ then (p₀.shelf j l.id).map _ else none) = if _ then (p₀.shelf j l.id).map _ else none
  rcases ho : p₀.shelf j l.id with _ | _
  · exact (ite_self none).trans (ite_self none).symm
  · rw [owner?_reordered hraw hx features hv (by rw [ho]; rfl)]

/-- The handler is told the same of each reference. -/
theorem reply?_reordered : q₀.scratch.reply? (raw'.snapshot.listings features q₀.scratch) =
    p₀.scratch.reply? (raw.snapshot.listings features p₀.scratch) := by
  funext l
  have hsome := contains_of_showing hv l.kind l.id
  have howner : (p₀.shelf l.kind l.id).isSome = true →
      Listing.owner? (raw'.snapshot.listings features q₀.scratch) l.kind l.id =
        Listing.owner? (raw.snapshot.listings features p₀.scratch) l.kind l.id := owner?_reordered hraw hx features hv
  rw [isSome_shelf] at howner
  unfold Scratch.contains OrderedMap.contains at hsome howner
  unfold Scratch.reply? Scratch.get?
  generalize (q₀.scratch.objects.get l.kind).get? l.id = x at hsome
  generalize (p₀.scratch.objects.get l.kind).get? l.id = y at hsome howner
  rcases x with _ | a <;> rcases y with _ | b
  · rfl
  · cases hsome
  · cases hsome
  · dsimp only
    rw [howner rfl]

/-- If loose shells show the same and are joined over stores that list the same payloads in another order, then what they
show afterwards is the same. -/
theorem mirrors_of_joined (h₀ : p₀.Loose n) (h₀' : q₀.Loose n)
    (hp : Joined p₀ (raw.snapshot.listings features p₀.scratch) (raw.snapshot.absentees p₀.scratch) p)
    (hq : Joined q₀ (raw'.snapshot.listings features q₀.scratch) (raw'.snapshot.absentees q₀.scratch) q) :
    Mirrors p q where
  shown k id := by
    rw [hp.shown h₀, hq.shown h₀', shelf_of_showing hv, hv, held_reordered hraw hx features hv]
    rcases ho : p₀.shelf k id with _ | _
    · rfl
    · rw [owner?_reordered hraw hx features hv (by rw [ho]; rfl)]
  told := by
    have hbefore : p₀.plane.notes.Perm q₀.plane.notes := Multiset.coe_eq_coe.1 (congrArg Showing.told hv).symm
    have hlistings := hraw.listings (contains_of_showing hv .entity) features
    have habsentees := hraw.absentees (contains_of_showing hv .entity)
    refine hp.told.trans (.trans ?_ hq.told.symm)
    rw [reply?_reordered hraw hx features hv]
    exact ((hlistings.filterMap _).append (habsentees.map _)).append hbefore

end Reordered

end Pass

end ManagementPlane
