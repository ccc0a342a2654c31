import ManagementPlane.Proofs.Looseness

/-!
# Adjuncts that entities refer to

* `Listing` : an adjunct that an entity refers to, once for every reference;
* `Snapshot.listings` : the references that are looked up when shells are joined, in the order in which they are;
* `Listing.owner?` : the entity to which an adjunct comes to belong, which is the first that refers to it;
* `Scratch.held`, `Scratch.joined` : the adjuncts that an entity comes to have, and what becomes of a shell;
* `Scratch.reply?` : what the handler is told of a reference.
-/

namespace ManagementPlane

/-! ## References -/

/-- An adjunct that an entity refers to. -/
structure Listing where
  entity : String
  kind : ObjectKind
  id : String
  deriving DecidableEq

namespace Listing

/-- The entity that refers to an adjunct first. -/
def owner? (ls : List Listing) (k : ObjectKind) (id : String) : Option String :=
  (ls.find? fun l => l.kind = k ∧ l.id = id).map entity

theorem owner?_append (ls ls' : List Listing) (k : ObjectKind) (id : String) :
    owner? (ls ++ ls') k id = (owner? ls k id).or (owner? ls' k id) := by
  unfold owner?
  rw [List.find?_append, Option.map_or]

theorem owner?_singleton (l : Listing) (k : ObjectKind) (id : String) :
    owner? [l] k id = if l.kind = k ∧ l.id = id then some l.entity else none := by
  unfold owner?
  rw [List.find?_singleton]
  by_cases h : l.kind = k ∧ l.id = id <;> simp [h]

theorem owner?_eq_none_iff {ls : List Listing} {k : ObjectKind} {id : String} :
    owner? ls k id = none ↔ ∀ l ∈ ls, ¬(l.kind = k ∧ l.id = id) := by
  unfold owner?
  rw [Option.map_eq_none_iff, List.find?_eq_none]
  simp only [decide_eq_true_eq]

/-- Later references do not change to whom an adjunct belongs. -/
theorem owner?_append_of_mem {ls : List Listing} {l : Listing} (hl : l ∈ ls) (ls' : List Listing) :
    owner? (ls ++ ls') l.kind l.id = owner? ls l.kind l.id := by
  rw [owner?_append]
  rcases h : owner? ls l.kind l.id with _ | entity
  · exact absurd ⟨rfl, rfl⟩ (owner?_eq_none_iff.1 h l hl)
  · rfl

end Listing

/-- What an entity refers to. -/
def Memento.listings (features : Features) (m : Memento) : List Listing :=
  ObjectKind.adjuncts.flatMap fun k => if features.enabled k then (m.adjunctIds k).map (⟨m.id, k, ·⟩) else []

/-- The references of the entities that have shells, parents first. -/
def Snapshot.listings (snapshot : Snapshot) (features : Features) (s : Scratch) : List Listing :=
  ((sortParentFirst snapshot.entities).filter fun m => s.contains .entity m.id).flatMap (Memento.listings features)

/-- The entities that have none, parents first. -/
def Snapshot.absentees (snapshot : Snapshot) (s : Scratch) : List String :=
  ((sortParentFirst snapshot.entities).map Memento.id).filter fun id => !s.contains .entity id

/-! ## What becomes of shells -/

namespace Object

/-- The object as one that belongs to an entity, if it is an adjunct. -/
def ownedBy (owner : Option String) (o : Object) : Object :=
  { o with body := o.body.mapAdjunct fun s => { s with entity := owner } }

/-- The object with these adjuncts, if it is an entity. -/
def having (adjuncts : ObjectKind → List Handle) (o : Object) : Object :=
  { o with body := o.body.mapEntity fun s => { s with
      policies := adjuncts .policy
      enrichers := adjuncts .enricher
      feeds := adjuncts .feed } }

variable {o : Object} {w : Option String} {f : ObjectKind → List Handle} {k : ObjectKind}

theorem ownedBy_of_not_isAdjunct (hk : o.kind.isAdjunct = false) (w : Option String) : o.ownedBy w = o := by
  obtain ⟨id, type, item, readOnly, behaviour, body⟩ := o
  cases body with
  | policy s | enricher s | feed s => cases hk
  | entity s | location s | catalogItem i => rfl

theorem having_of_ne_entity (ho : o.kind ≠ .entity) (f : ObjectKind → List Handle) : o.having f = o := by
  obtain ⟨id, type, item, readOnly, behaviour, body⟩ := o
  cases body with
  | entity s => exact absurd rfl ho
  | location s | policy s | enricher s | feed s | catalogItem i => rfl

@[simp] theorem kind_ownedBy (w : Option String) (o : Object) : (o.ownedBy w).kind = o.kind := Body.kind_mapAdjunct _ _

theorem owner_ownedBy (hk : o.kind.isAdjunct = true) (w : Option String) : (o.ownedBy w).owner = w := by
  obtain ⟨id, type, item, readOnly, behaviour, body⟩ := o
  cases body with
  | policy s | enricher s | feed s => rfl
  | entity s | location s | catalogItem i => cases hk

theorem adjuncts_having (ho : o.kind = .entity) (hk : k.isAdjunct = true) (f : ObjectKind → List Handle) :
    (o.having f).adjuncts k = f k := by
  obtain ⟨id, type, item, readOnly, behaviour, body⟩ := o
  cases body with
  | entity s =>
    cases k with
    | policy | enricher | feed => rfl
    | entity | location | catalogItem => cases hk
  | location s | policy s | enricher s | feed s | catalogItem i => cases ho

theorem Loose.ownedBy_none (ho : o.Loose) : o.ownedBy none = o := by
  obtain ⟨id, type, item, readOnly, behaviour, body⟩ := o
  cases body with
  | policy s | enricher s | feed s =>
    obtain ⟨name, config, attributes, entity⟩ := s
    obtain rfl : entity = none := ho.owner
    rfl
  | entity s | location s | catalogItem i => rfl

theorem Loose.having_nil (ho : o.Loose) : o.having (fun _ => []) = o := by
  obtain ⟨id, type, item, readOnly, behaviour, body⟩ := o
  cases body with
  | entity s =>
    obtain ⟨name, parent, children, locations, config, attributes, policies, enrichers, feeds, managed⟩ := s
    obtain rfl : policies = [] := ho.adjuncts .policy
    obtain rfl : enrichers = [] := ho.adjuncts .enricher
    obtain rfl : feeds = [] := ho.adjuncts .feed
    rfl
  | location s | policy s | enricher s | feed s | catalogItem i => rfl

theorem attachTo_ownedBy (hk : o.kind.isAdjunct = true) (entity : String) : (o.ownedBy w).attachTo entity =
    match w with
    | none => .ok (o.ownedBy (some entity))
    | some other => if other = entity then .ok (o.ownedBy (some entity))
      else .error (.reconstruct (o.id ++ " is already attached to " ++ other)) := by
  unfold attachTo
  rw [owner_ownedBy hk]
  cases w with
  | none =>
    obtain ⟨id, type, item, readOnly, behaviour, body⟩ := o
    cases body <;> rfl
  | some other =>
    by_cases he : other = entity
    · subst he
      simp only [ne_eq, not_true, if_false, if_true]
    · simp only [ne_eq, he, not_false_iff, if_true, if_false]
      rfl

theorem pushAdjunct_having (hk : k.isAdjunct = true) (a : Handle) : (o.having f).pushAdjunct k a =
    .ok (o.having fun j => if j = k then f j ++ [a] else f j) := by
  obtain ⟨id, type, item, readOnly, behaviour, body⟩ := o
  cases k with
  | policy | enricher | feed => cases body <;> rfl
  | entity | location | catalogItem => cases hk

end Object

namespace Scratch

variable {s : Scratch} {ls : List Listing} {l : Listing} {k : ObjectKind} {id entity : String} {o : Object}

/-- The adjuncts of a kind that an entity comes to have, in the order in which it refers to them. -/
def held (s : Scratch) (ls : List Listing) (entity : String) (k : ObjectKind) : List Handle :=
  ls.filterMap fun l =>
    if l.entity = entity ∧ l.kind = k ∧ Listing.owner? ls k l.id = some entity then s.get? k l.id else none

/-- What becomes of a shell. -/
def joined (s : Scratch) (ls : List Listing) (o : Object) : Object :=
  (o.ownedBy (Listing.owner? ls o.kind o.id)).having (s.held ls o.id)

/-- What the handler is told of a reference: that there is no such adjunct, or that it belongs to another entity. -/
def reply? (s : Scratch) (ls : List Listing) (l : Listing) : Option Notification :=
  match s.get? l.kind l.id with
  | none => some (.dangling l.kind l.id)
  | some _ => ((Listing.owner? ls l.kind l.id).filter (· ≠ l.entity)).map fun owner =>
      .rebindFailed .entity l.entity (.reconstruct (l.id ++ " is already attached to " ++ owner))

theorem held_append_singleton (s : Scratch) (ls : List Listing) (l : Listing) (entity : String) (k : ObjectKind) :
    s.held (ls ++ [l]) entity k = s.held ls entity k ++
      if l.entity = entity ∧ l.kind = k ∧ Listing.owner? (ls ++ [l]) k l.id = some entity then (s.get? k l.id).toList
      else [] := by
  unfold held
  rw [List.filterMap_append]
  congr 1
  · refine List.filterMap_congr fun l' hl' => ?_
    by_cases hk : l'.kind = k
    · subst hk
      rw [Listing.owner?_append_of_mem hl']
    · rw [if_neg fun hc => hk hc.2.1, if_neg fun hc => hk hc.2.1]
  · split
    · next hc => cases hg : s.get? k l.id <;> simp [hc, hg]
    · next hc => simp [hc]

theorem reply?_append_of_mem (hl : l ∈ ls) (ls' : List Listing) : s.reply? (ls ++ ls') l = s.reply? ls l := by
  unfold reply?
  rw [Listing.owner?_append_of_mem hl]

theorem replies_append_singleton (s : Scratch) (ls : List Listing) (l : Listing) :
    (ls ++ [l]).filterMap (s.reply? (ls ++ [l])) = ls.filterMap (s.reply? ls) ++ (s.reply? (ls ++ [l]) l).toList := by
  rw [List.filterMap_append, List.filterMap_congr (l := ls) fun l' hl' => reply?_append_of_mem hl' [l]]
  cases h : s.reply? (ls ++ [l]) l <;> simp [h]

theorem isOfJoining_of_reply? (s : Scratch) (ls : List Listing) (hk : l.kind.isAdjunct = true) (n : Notification)
    (hn : s.reply? ls l = some n) : n.isOfJoining = true := by
  unfold reply? at hn
  split at hn
  · exact Option.some.inj hn ▸ hk
  · obtain ⟨owner, -, rfl⟩ := Option.map_eq_some_iff.1 hn
    rfl

theorem joined_entity (ho : o.kind = .entity) : s.joined ls o = o.having (s.held ls o.id) := by
  unfold joined
  rw [Object.ownedBy_of_not_isAdjunct (by rw [ho]; rfl)]

theorem joined_of_ne_entity (ho : o.kind ≠ .entity) : s.joined ls o = o.ownedBy (Listing.owner? ls o.kind o.id) :=
  Object.having_of_ne_entity (by rwa [Object.kind_ownedBy]) _

/-- A reference changes no shell if there is no such adjunct, or if the adjunct belongs to another entity. -/
theorem joined_append_of_passed {n : Nat} {p : Plane} (hs : s.Sound n p)
    (hl : s.get? l.kind l.id = none ∨ ∃ other, Listing.owner? ls l.kind l.id = some other ∧ other ≠ l.entity) {b : Handle}
    (hb : s.get? k id = some b) : s.joined (ls ++ [l]) (p.read b) = s.joined ls (p.read b) := by
  have howner : Listing.owner? (ls ++ [l]) k id = Listing.owner? ls k id := by
    rw [Listing.owner?_append, Listing.owner?_singleton]
    split
    · next he =>
      obtain ⟨rfl, rfl⟩ := he
      rcases hl with hl | ⟨other, hl, -⟩
      · rw [hl] at hb
        cases hb
      · rw [hl]
        rfl
    · exact Option.or_none
  have hheld : s.held (ls ++ [l]) id = s.held ls id := by
    funext j
    rw [held_append_singleton]
    split
    · next hc =>
      obtain ⟨he, rfl, hown⟩ := hc
      rcases hl with hl | ⟨other, hl, hne⟩
      · rw [hl]
        exact List.append_nil _
      · rw [Listing.owner?_append, hl] at hown
        exact absurd ((Option.some.inj hown).trans he.symm) hne
    · exact List.append_nil _
  unfold joined
  rw [hs.kind hb, hs.id hb, howner, hheld]

/-- If the adjunct belongs to the entity that refers to it, the entity has it once more. -/
theorem held_append_of_owned {a : Handle} (ha : s.get? l.kind l.id = some a)
    (hown : Listing.owner? (ls ++ [l]) l.kind l.id = some l.entity) :
    s.held (ls ++ [l]) l.entity = fun j => if j = l.kind then s.held ls l.entity j ++ [a] else s.held ls l.entity j := by
  funext j
  rw [held_append_singleton]
  by_cases hj : j = l.kind
  · subst hj
    rw [if_pos ⟨rfl, rfl, hown⟩, if_pos rfl, ha]
    rfl
  · rw [if_neg fun hc => hj hc.2.1.symm, if_neg hj, List.append_nil]

/-- A reference changes only the entity and the adjunct. -/
theorem joined_append_of_ne {n : Nat} {p : Plane} (hs : s.Sound n p) {a b e : Handle} (ha : s.get? l.kind l.id = some a)
    (he : s.get? .entity l.entity = some e) (hb : s.get? k id = some b) (hba : b ≠ a) (hbe : b ≠ e) :
    s.joined (ls ++ [l]) (p.read b) = s.joined ls (p.read b) := by
  have howner : Listing.owner? (ls ++ [l]) k id = Listing.owner? ls k id := by
    rw [Listing.owner?_append, Listing.owner?_singleton, if_neg, Option.or_none]
    rintro ⟨rfl, rfl⟩
    exact hba (Option.some.inj (hb.symm.trans ha))
  have hkind := hs.kind hb
  by_cases hk : k = .entity
  · subst hk
    rw [joined_entity hkind, joined_entity hkind, hs.id hb]
    congr 1
    funext j
    rw [held_append_singleton, if_neg, List.append_nil]
    rintro ⟨rfl, -⟩
    exact hbe (Option.some.inj (hb.symm.trans he))
  · rw [joined_of_ne_entity (by rwa [hkind]), joined_of_ne_entity (by rwa [hkind]), hkind, hs.id hb, howner]

end Scratch

end ManagementPlane
