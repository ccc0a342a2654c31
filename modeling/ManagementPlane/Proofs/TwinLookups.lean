import ManagementPlane.Proofs.Forest
import ManagementPlane.Proofs.Twins

/-!
# Lookups in live managers with the same new objects

* `Scratch.Twin.get?`, `Scratch.Twin.shells` : shells correspond;
* `Scratch.Twin.register`, `Scratch.Twin.unregister` : shells join and leave on both sides;
* `Plane.SameItems` : catalogs with the same items;
* `Plane.SameItems.find`, `Plane.SameItems.provenance?` : the same types and catalog items are found in them;
* `Plane.Twin.catalog_ofItems` : catalogs made of objects that correspond are the same;
* `Plane.Twin.known_eq` : both sides can refer to the same objects, but for those that have no shell.
-/

namespace ManagementPlane

open Plane (New SameItem ItemTwin)

variable {n m : Nat} {s s' : Scratch} {p q : Plane} {a b : Handle} {k : ObjectKind} {id : String}

/-! ## Shells -/

namespace Scratch.Twin

theorem get? (hs : s.Twin n m s') (k : ObjectKind) (id : String) :
    s'.get? k id = (s.get? k id).map (Handle.moved n m) := by
  have hrel := (hs.objects k).get? id
  unfold Scratch.get?
  generalize (s.objects.get k).get? id = x at hrel
  generalize (s'.objects.get k).get? id = y at hrel
  cases hrel with
  | none => rfl
  | some he => exact congrArg some he

theorem contains (hs : s.Twin n m s') (k : ObjectKind) (id : String) :
    s'.contains k id = s.contains k id := (hs.objects k).contains id

theorem shells (hs : s.Twin n m s') (k : ObjectKind) :
    s'.shells k = (s.shells k).map (Handle.moved n m) := by
  have hrel := (hs.objects k).values
  have heq : List.Forall₂ (fun a b => a = b) ((s.shells k).map (Handle.moved n m)) (s'.shells k) := by
    rw [List.forall₂_map_left_iff]
    exact hrel.imp fun _ _ he => he.symm
  rw [List.forall₂_eq_eq_eq] at heq
  exact heq.symm

/-- The same shell joins on both sides. -/
theorem register (hs : s.Twin n m s') (h : p.Twin n m q) (ha : New n p a) :
    (s.register p a).1.Twin n m (s'.register q (a.moved n m)).1 ∧
      (s.register p a).2.Twin n m (s'.register q (a.moved n m)).2 := by
  have hobjects : ∀ k, OrderedMap.Pairs (fun a b => b = a.moved n m)
      ((s.objects.modify (p.read a).kind fun t => t.insert (p.read a).id a).get k)
      ((s'.objects.modify (p.read a).kind fun t => t.insert (p.read a).id (a.moved n m)).get k) := by
    intro k
    rw [PerKind.get_modify, PerKind.get_modify]
    split
    · next hk => exact hk ▸ (hs.objects _).insert _ rfl
    · exact hs.objects k
  unfold Scratch.register
  rw [h.read a ha]
  simp only [Object.kind_moved, Object.id_moved, hs.allReadOnly]
  split
  · refine ⟨⟨hobjects, ?_, rfl⟩, h.modify ha (Object.setReadOnly_moved true _) fun k b hb => ?_⟩
    · simp only [hs.readOnly]
    · exact h.adjuncts a ha k b hb
  · exact ⟨⟨hobjects, hs.readOnly, rfl⟩, h⟩

theorem unregister (hs : s.Twin n m s') (k : ObjectKind) (id : String) :
    (s.unregister k id).2.Twin n m (s'.unregister k id).2 := by
  refine ⟨fun j => ?_, congrArg (List.filter _) hs.readOnly, hs.allReadOnly⟩
  unfold Scratch.unregister
  rw [PerKind.get_modify, PerKind.get_modify]
  split
  · next hk => exact hk ▸ (hs.objects _).erase id
  · exact hs.objects j

end Scratch.Twin

namespace Plane

/-- The catalogs have the same items under the same ids, in the same order. -/
def SameItems (p q : Plane) : Prop := OrderedMap.Pairs (SameItem p q) p.catalog.items q.catalog.items

/-! ## Catalogs with the same items -/

theorem libraryContext_eq (hab : SameItem p q a b) (label : String) :
    q.libraryContext b label = p.libraryContext a label := by
  unfold Plane.libraryContext
  rw [hab.2]

theorem itemId_eq (hab : SameItem p q a b) : q.itemId b = p.itemId a := hab.1

namespace SameItems

theorem rel_get? (h : p.SameItems q) (id : String) :
    Option.Rel (SameItem p q) (p.catalog.get? id) (q.catalog.get? id) := OrderedMap.Pairs.get? h id

theorem rel_versioned? (h : p.SameItems q) (name version : String) :
    Option.Rel (SameItem p q) (p.catalog.versioned? p.heap name version)
      (q.catalog.versioned? q.heap name version) := by
  have hlatest : Option.Rel (SameItem p q) (p.catalog.latest? p.heap name)
      (q.catalog.latest? q.heap name) := by
    refine OrderedMap.rel_find? (List.rel_reverse (OrderedMap.Pairs.values h)) fun a b hab => ?_
    have hitem : (q.heap.read b).item = (p.heap.read a).item := hab.2
    rw [hitem]
  have hget := h.rel_get? (CatalogItem.canonicalId name version)
  unfold Catalog.versioned?
  generalize p.catalog.get? _ = x at hget
  generalize q.catalog.get? _ = y at hget
  cases hget with
  | some hab => exact .some hab
  | none =>
    dsimp only
    split
    · exact hlatest
    · exact .none

theorem rel_resolve? (h : p.SameItems q) (id : String) :
    Option.Rel (SameItem p q) (p.catalog.resolve? p.heap id) (q.catalog.resolve? q.heap id) := by
  have hget := h.rel_get? id
  unfold Catalog.resolve?
  generalize p.catalog.get? id = x at hget
  generalize q.catalog.get? id = y at hget
  cases hget with
  | some hab => exact .some hab
  | none =>
    dsimp only
    split
    · exact h.rel_versioned? _ _
    · exact h.rel_versioned? _ _

/-- The same type is found. -/
theorem find (h : p.SameItems q) (hitem : ∀ id, Option.Rel (SameItem p q) (s.item? p id) (s'.item? q id))
    (types : TypeRegistry) (infer : Bool) (type : String) (item : Option String) :
    ({ types, infer, scratch := s' } : Instantiator).find q type item =
      ({ types, infer, scratch := s } : Instantiator).find p type item := by
  unfold Instantiator.find
  cases item with
  | some id =>
    have hrel := hitem id
    dsimp only
    generalize s.item? p id = x at hrel
    generalize s'.item? q id = y at hrel
    cases hrel with
    | none => rfl
    | some hab =>
      dsimp only
      rw [itemId_eq hab, libraryContext_eq hab]
  | none =>
    have hsome : q.catalog.items.values.findSome? (fun h =>
        (q.libraryContext h (q.itemId h)).load? types type) =
        p.catalog.items.values.findSome? fun h => (p.libraryContext h (p.itemId h)).load? types type := by
      refine (OrderedMap.findSome?_congr (OrderedMap.Pairs.values h) fun a b hab => ?_).symm
      rw [itemId_eq hab, libraryContext_eq hab]
    dsimp only
    rw [hsome]

/-- The same catalog item is found for an entity. -/
theorem provenance? (h : p.SameItems q) (types : TypeRegistry) (infer : Bool)
    (entities : OrderedMap String EntitySummary) (e : EntitySummary) :
    q.provenance? types infer entities e = p.provenance? types infer entities e := by
  have hid : ∀ {x y}, Option.Rel (SameItem p q) x y → y.map q.itemId = x.map p.itemId := by
    rintro x y (_ | hab)
    · exact congrArg some (itemId_eq ‹_›)
    · rfl
  have hprovider : (q.providerOf? types e.type).map q.itemId = (p.providerOf? types e.type).map p.itemId := by
    refine hid (OrderedMap.rel_find? (OrderedMap.Pairs.values h) fun a b hab => ?_)
    rw [itemId_eq hab, libraryContext_eq hab]
  have hnamed : ((ancestry entities e).findSome? fun n => q.catalog.versioned? q.heap n.type
      defaultVersion).map q.itemId = ((ancestry entities e).findSome? fun n =>
        p.catalog.versioned? p.heap n.type defaultVersion).map p.itemId := by
    rw [List.map_findSome?, List.map_findSome?]
    congr 1
    funext n
    exact hid (h.rel_versioned? _ _)
  unfold Plane.provenance?
  split
  · rfl
  · split
    · rfl
    · dsimp only
      split
      · next inherited _ => rw [hid (h.rel_resolve? inherited)]
      · rw [hprovider]
        generalize (ancestry entities e).findSome? (fun n =>
          p.catalog.versioned? p.heap n.type defaultVersion) = x at hnamed ⊢
        generalize (ancestry entities e).findSome? (fun n =>
          q.catalog.versioned? q.heap n.type defaultVersion) = y at hnamed ⊢
        cases x with
        | none => cases y with
          | none => rfl
          | some j => cases hnamed
        | some i => cases y with
          | none => cases hnamed
          | some j => exact hnamed

end SameItems

end Plane

namespace Plane.Twin

/-! ## Catalogs -/

theorem sameItems (h : p.Twin n m q) : p.SameItems q := h.catalog.imp fun _ _ => h.sameItem

/-- Catalogs of objects that correspond are the same. -/
theorem catalog_ofItems (h : p.Twin n m q) {l : List Handle} (hl : ∀ a ∈ l, New n p a) :
    Plane.Twin n m { p with catalog := .ofItems p.heap l }
      { q with catalog := .ofItems q.heap (l.map (Handle.moved n m)) } := by
  refine ⟨h.le, h.size, h.read, h.adjuncts, ?_⟩
  have hall : ∀ (c c' : Catalog), OrderedMap.Pairs (ItemTwin n m p q) c.items c'.items →
      OrderedMap.Pairs (ItemTwin n m p q)
        (l.foldl (fun c h => c.register p.heap h) c).items
        ((l.map (Handle.moved n m)).foldl (fun c h => c.register q.heap h) c').items := by
    induction l with
    | nil => exact fun _ _ hc => hc
    | cons a l ih =>
      intro c c' hc
      have ha := hl a List.mem_cons_self
      refine ih (fun b hb => hl b (List.mem_cons_of_mem _ hb)) (c.register p.heap a) _ ?_
      have hid : (q.heap.read (a.moved n m)).id = (p.heap.read a).id := (h.sameItem_of_new ha).1
      show OrderedMap.Pairs _ (c.items.insert (p.heap.read a).id a)
        (c'.items.insert (q.heap.read (a.moved n m)).id (a.moved n m))
      rw [hid]
      exact hc.insert _ (Or.inr ⟨ha, rfl⟩)
  exact hall {} {} .nil

theorem rel_item? (h : p.Twin n m q) (hs : s.Twin n m s')
    (hnew : ∀ a, s.get? .catalogItem id = some a → New n p a) :
    Option.Rel (SameItem p q) (s.item? p id) (s'.item? q id) := by
  unfold Scratch.item?
  rw [hs.get?]
  rcases hg : s.get? .catalogItem id with _ | a
  · exact h.sameItems.rel_resolve? id
  · exact .some (h.sameItem_of_new (hnew a hg))

/-! ## References -/

/-- Both sides can refer to the same objects, if of locations and entities only the shells are asked for. -/
theorem known_eq (h : p.Twin n m q) (hs : s.Twin n m s')
    (hnew : ∀ id a, s.get? .catalogItem id = some a → New n p a)
    (hk : k.Registered → s.contains k id = true) : s'.known q k id = s.known p k id := by
  have hshell : ∀ {k}, s.contains k id = true → (s'.find? q k id).isSome = (s.find? p k id).isSome := by
    intro k hc
    rw [Scratch.contains_eq_isSome, Option.isSome_iff_exists] at hc
    obtain ⟨a, ha⟩ := hc
    unfold Scratch.find?
    rw [hs.get?, ha]
    rfl
  cases k with
  | entity => exact hshell (hk (Or.inr rfl))
  | location => exact hshell (hk (Or.inl rfl))
  | catalogItem =>
    have hrel : Option.Rel (SameItem p q) (s.item? p id) (s'.item? q id) := h.rel_item? hs (hnew id)
    show (s'.item? q id).isSome = (s.item? p id).isSome
    generalize s.item? p id = x at hrel
    generalize s'.item? q id = y at hrel
    cases hrel <;> rfl
  | policy => exact hs.contains .policy id
  | enricher => exact hs.contains .enricher id
  | feed => exact hs.contains .feed id

end Plane.Twin

end ManagementPlane
