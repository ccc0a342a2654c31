import Mathlib.Data.List.TakeWhile
import ManagementPlane.Plane.Provenance
import ManagementPlane.Proofs.Ancestry

/-!
# The rules of provenance

Where an entity comes from is decided by rules in a fixed order. `Plane.Provenance` says what each of them needs: that it
applies, and that none before it does.

* `Catalog.AtVersion`, `Catalog.Resolves` : what the lookups of the catalog find;
* `Plane.Sees` : the types that load through the libraries of an item;
* `Plane.Inferred` : the rules on an entity that was persisted without an item, one constructor each.
-/

namespace ManagementPlane

/-- `b` is what `R` gives the first element that it gives anything. -/
def FirstOf {α β : Type} (R : α → β → Prop) (l : List α) (b : β) : Prop :=
  ∃ before a after, l = before ++ a :: after ∧ R a b ∧ ∀ a' ∈ before, ∀ b', ¬ R a' b'

theorem findSome?_eq_some_iff_firstOf {α β : Type} {f : α → Option β} {R : α → β → Prop} {l : List α} {b : β}
    (hf : ∀ a b, f a = some b ↔ R a b) : l.findSome? f = some b ↔ FirstOf R l b := by
  rw [List.findSome?_eq_some_iff]
  constructor
  · rintro ⟨before, a, after, hl, ha, hnone⟩
    refine ⟨before, a, after, hl, (hf a b).1 ha, fun a' ha' b' hb' => ?_⟩
    exact absurd ((hf a' b').2 hb') (by simp [hnone a' ha'])
  · rintro ⟨before, a, after, hl, ha, hnone⟩
    refine ⟨before, a, after, hl, (hf a b).2 ha, fun a' ha' => ?_⟩
    rw [Option.eq_none_iff_forall_ne_some]
    exact fun b' hb' => hnone a' ha' b' ((hf a' b').1 hb')

theorem findSome?_eq_none_iff_forall {α β : Type} {f : α → Option β} {R : α → β → Prop} {l : List α}
    (hf : ∀ a b, f a = some b ↔ R a b) : l.findSome? f = none ↔ ∀ a ∈ l, ∀ b, ¬ R a b := by
  rw [List.findSome?_eq_none_iff]
  apply forall₂_congr
  intro a _
  rw [Option.eq_none_iff_forall_ne_some]
  exact forall_congr' fun b => not_congr (hf a b)

/-! ## Lookups of the catalog -/

namespace Catalog

variable {c : Catalog} {heap : Heap} {name version id : String} {item : Handle}

/-- Of the items with a symbolic name, this one was registered last. -/
def IsLatest (c : Catalog) (heap : Heap) (name : String) (item : Handle) : Prop :=
  ∃ before after, c.items.values = before ++ item :: after ∧ (heap.read item).item.symbolicName = name ∧
    ∀ other ∈ after, (heap.read other).item.symbolicName ≠ name

/-- What the catalog has of a name at a version. -/
inductive AtVersion (c : Catalog) (heap : Heap) (name : String) : String → Handle → Prop where
  | exact {version : String} {item : Handle} (h : c.get? (name ++ ":" ++ version) = some item) :
      AtVersion c heap name version item
  | latest {item : Handle} (hexact : c.get? (name ++ ":" ++ defaultVersion) = none)
      (h : c.IsLatest heap name item) : AtVersion c heap name defaultVersion item

/-- The item that an id stands for. An id is split at its first colon; without one it is a name. -/
inductive Resolves (c : Catalog) (heap : Heap) (id : String) : Handle → Prop where
  | exact {item : Handle} (h : c.get? id = some item) : Resolves c heap id item
  | versioned {name version : String} {item : Handle} (hexact : c.get? id = none) (hid : id = name ++ ":" ++ version)
      (hname : ':' ∉ name.toList) (h : c.AtVersion heap name version item) : Resolves c heap id item
  | bare {item : Handle} (hexact : c.get? id = none) (hname : ':' ∉ id.toList)
      (h : c.AtVersion heap id defaultVersion item) : Resolves c heap id item

theorem latest?_eq_some_iff : c.latest? heap name = some item ↔ c.IsLatest heap name item := by
  rw [latest?, List.find?_eq_some_iff_append]
  simp only [decide_eq_true_eq, Bool.not_eq_eq_eq_not, Bool.not_true, decide_eq_false_iff_not]
  constructor
  · rintro ⟨hname, after, before, hitems, hafter⟩
    refine ⟨before.reverse, after.reverse, ?_, hname, fun other hother => hafter other (List.mem_reverse.1 hother)⟩
    rw [← List.reverse_inj, hitems]
    simp
  · rintro ⟨before, after, hitems, hname, hafter⟩
    refine ⟨hname, after.reverse, before.reverse, ?_, fun other hother => hafter other (List.mem_reverse.1 hother)⟩
    rw [hitems]
    simp

theorem versioned?_eq_some_iff : c.versioned? heap name version = some item ↔ c.AtVersion heap name version item := by
  unfold versioned? CatalogItem.canonicalId
  constructor
  · intro h
    split at h
    · next found hfound =>
      cases h
      exact .exact hfound
    · next hnone =>
      split at h
      · next hversion =>
        subst hversion
        exact .latest hnone (latest?_eq_some_iff.1 h)
      · cases h
  · intro h
    cases h with
    | exact h => rw [h]
    | latest hexact h =>
      rw [hexact]
      simpa using latest?_eq_some_iff.2 h

/-- An id with a colon is split at the first one. -/
theorem splitId_append (version : String) (hname : ':' ∉ name.toList) :
    splitId (name ++ ":" ++ version) = (name, some version) := by
  have hlist : (name ++ ":" ++ version).toList = name.toList ++ ':' :: version.toList := by simp
  have hall : ∀ ch ∈ name.toList, decide (ch ≠ ':') = true := by
    intro ch hch
    exact decide_eq_true fun heq => hname (heq ▸ hch)
  unfold splitId
  rw [hlist, List.takeWhile_append_of_pos hall, List.dropWhile_append_of_pos hall]
  simp

theorem splitId_bare (hname : ':' ∉ id.toList) : splitId id = (id, none) := by
  have hall : ∀ ch ∈ id.toList, decide (ch ≠ ':') = true := by
    intro ch hch
    exact decide_eq_true fun heq => hname (heq ▸ hch)
  unfold splitId
  rw [List.dropWhile_eq_nil_iff.2 hall]

/-- Either an id has no colon, or it has a first one. -/
theorem bare_or_versioned (id : String) :
    ':' ∉ id.toList ∨ ∃ name version, id = name ++ ":" ++ version ∧ ':' ∉ name.toList := by
  by_cases hcolon : ':' ∈ id.toList
  · obtain ⟨before, after, hid, hbefore⟩ := List.eq_append_cons_of_mem hcolon
    refine .inr ⟨String.ofList before, String.ofList after, ?_, by simpa using hbefore⟩
    rw [← String.toList_inj, hid]
    simp
  · exact .inl hcolon

theorem resolve?_eq_some_iff : c.resolve? heap id = some item ↔ c.Resolves heap id item := by
  unfold resolve?
  constructor
  · intro h
    split at h
    · next found hfound =>
      cases h
      exact .exact hfound
    · next hnone =>
      rcases bare_or_versioned id with hbare | ⟨name, version, hid, hname⟩
      · rw [splitId_bare hbare] at h
        exact .bare hnone hbare (versioned?_eq_some_iff.1 h)
      · rw [hid, splitId_append version hname] at h
        exact .versioned hnone hid hname (versioned?_eq_some_iff.1 h)
  · intro h
    cases h with
    | exact h => rw [h]
    | versioned hexact hid hname h =>
      rw [hexact, hid, splitId_append _ hname]
      exact versioned?_eq_some_iff.2 h
    | bare hexact hname h =>
      rw [hexact, splitId_bare hname]
      exact versioned?_eq_some_iff.2 h

end Catalog

/-! ## The rules -/

namespace Plane

variable {p : Plane} {types : TypeRegistry} {infer : Bool} {entities : OrderedMap String EntitySummary}
  {e : EntitySummary} {lineage : List EntitySummary} {type : String} {r : Option String}

/-- A library of the item has the type, or it loads from anywhere. -/
def Sees (p : Plane) (types : TypeRegistry) (type : String) (item : Handle) : Prop :=
  (∃ library ∈ (p.read item).item.libraries, ∃ bundle, types.bundles.get? library = some bundle ∧ type ∈ bundle.keys) ∨
    type ∈ types.classpath.keys

/-- The node of a table of entities was persisted with this item. -/
def HasItem (n : EntitySummary) (id : String) : Prop := n.catalogItemId = some id

/-- The catalog has this item under the type of the node. -/
def NamedAfter (p : Plane) (n : EntitySummary) (item : Handle) : Prop :=
  p.catalog.AtVersion p.heap n.type defaultVersion item

/-- The rules on an entity of a type that has no item of its own, where `lineage` is its ancestry. -/
inductive Inferred (p : Plane) (types : TypeRegistry) (type : String) (lineage : List EntitySummary) :
    Option String → Prop where
  | inherited {id : String} {item : Handle} (hid : FirstOf HasItem lineage id)
      (hitem : p.catalog.Resolves p.heap id item) : Inferred p types type lineage (some (p.itemId item))
  | kept {id : String} (hid : FirstOf HasItem lineage id)
      (hitem : ∀ item, ¬ p.catalog.Resolves p.heap id item) : Inferred p types type lineage (some id)
  | named {item : Handle} (hid : ∀ n ∈ lineage, ∀ id, ¬ HasItem n id)
      (hitem : FirstOf p.NamedAfter lineage item) : Inferred p types type lineage (some (p.itemId item))
  | loadable (hid : ∀ n ∈ lineage, ∀ id, ¬ HasItem n id) (hnamed : ∀ n ∈ lineage, ∀ item, ¬ p.NamedAfter n item)
      (hload : type ∈ types.classpath.keys) : Inferred p types type lineage none
  | provided {before after : List Handle} {item : Handle} (hid : ∀ n ∈ lineage, ∀ id, ¬ HasItem n id)
      (hnamed : ∀ n ∈ lineage, ∀ item, ¬ p.NamedAfter n item) (hload : type ∉ types.classpath.keys)
      (hitems : p.catalog.items.values = before ++ item :: after) (hitem : p.Sees types type item)
      (hbefore : ∀ other ∈ before, ¬ p.Sees types type other) : Inferred p types type lineage (some (p.itemId item))
  | unknown (hid : ∀ n ∈ lineage, ∀ id, ¬ HasItem n id) (hnamed : ∀ n ∈ lineage, ∀ item, ¬ p.NamedAfter n item)
      (hload : type ∉ types.classpath.keys) (hitems : ∀ item ∈ p.catalog.items.values, ¬ p.Sees types type item) :
      Inferred p types type lineage none

/-- The rules. An item of its own counts before all others, and without inference it is the only one that does. -/
inductive Provenance (p : Plane) (types : TypeRegistry) (infer : Bool) (entities : OrderedMap String EntitySummary)
    (e : EntitySummary) : Option String → Prop where
  | own {id : String} (hid : HasItem e id) : Provenance p types infer entities e (some id)
  | off (hid : ∀ id, ¬ HasItem e id) (hinfer : infer = false) : Provenance p types infer entities e none
  | above {lineage : List EntitySummary} {r : Option String} (hid : ∀ id, ¬ HasItem e id) (hinfer : infer = true)
      (hlineage : IsAncestry entities e lineage) (h : p.Inferred types e.type lineage r) :
      Provenance p types infer entities e r

theorem canLoad_classpath : LoadingContext.classpath.canLoad types type = true ↔ type ∈ types.classpath.keys := by
  rw [← OrderedMap.contains_iff]
  rfl

theorem canLoad_libraryContext {item : Handle} {label : String} :
    (p.libraryContext item label).canLoad types type = true ↔ p.Sees types type item := by
  have hlib : ((p.read item).item.libraries.filterMap types.bundles.get?).findSome? (fun b => b.get? type) ≠ none ↔
      ∃ library ∈ (p.read item).item.libraries, ∃ bundle, types.bundles.get? library = some bundle ∧ type ∈ bundle.keys := by
    simp only [ne_eq, List.findSome?_eq_none_iff, OrderedMap.get?_eq_none_iff, List.mem_filterMap]
    push Not
    constructor
    · rintro ⟨bundle, ⟨library, hmem, hget⟩, htype⟩
      exact ⟨library, hmem, bundle, hget, htype⟩
    · rintro ⟨library, hmem, bundle, hget, htype⟩
      exact ⟨bundle, ⟨library, hmem, hget⟩, htype⟩
  unfold Sees
  rw [← hlib, ← OrderedMap.contains_iff, LoadingContext.canLoad, LoadingContext.load?, Option.isSome_or, Bool.or_eq_true,
    Option.isSome_iff_ne_none]
  rfl

theorem providerOf?_eq_some_iff {item : Handle} : p.providerOf? types type = some item ↔
    ∃ before after, p.catalog.items.values = before ++ item :: after ∧ p.Sees types type item ∧
      ∀ other ∈ before, ¬ p.Sees types type other := by
  rw [providerOf?, List.find?_eq_some_iff_append]
  simp only [Bool.not_eq_true', ← Bool.not_eq_true, canLoad_libraryContext]
  constructor
  · rintro ⟨hitem, before, after, hitems, hbefore⟩
    exact ⟨before, after, hitems, hitem, hbefore⟩
  · rintro ⟨before, after, hitems, hitem, hbefore⟩
    exact ⟨hitem, before, after, hitems, hbefore⟩

theorem providerOf?_eq_none_iff : p.providerOf? types type = none ↔
    ∀ item ∈ p.catalog.items.values, ¬ p.Sees types type item := by
  simp only [providerOf?, List.find?_eq_none, canLoad_libraryContext]

theorem findSome?_catalogItemId_iff {id : String} :
    lineage.findSome? EntitySummary.catalogItemId = some id ↔ FirstOf HasItem lineage id :=
  findSome?_eq_some_iff_firstOf fun _ _ => Iff.rfl

theorem findSome?_catalogItemId_none_iff :
    lineage.findSome? EntitySummary.catalogItemId = none ↔ ∀ n ∈ lineage, ∀ id, ¬ HasItem n id :=
  findSome?_eq_none_iff_forall fun _ _ => Iff.rfl

theorem findSome?_versioned?_iff {item : Handle} :
    (lineage.findSome? fun n => p.catalog.versioned? p.heap n.type defaultVersion) = some item ↔
      FirstOf p.NamedAfter lineage item :=
  findSome?_eq_some_iff_firstOf fun _ _ => Catalog.versioned?_eq_some_iff

theorem findSome?_versioned?_none_iff :
    (lineage.findSome? fun n => p.catalog.versioned? p.heap n.type defaultVersion) = none ↔
      ∀ n ∈ lineage, ∀ item, ¬ p.NamedAfter n item :=
  findSome?_eq_none_iff_forall fun _ _ => Catalog.versioned?_eq_some_iff

theorem catalogItemId_eq_none_iff : e.catalogItemId = none ↔ ∀ id, ¬ HasItem e id :=
  Option.eq_none_iff_forall_ne_some

/-- What a rule says of an entity without an item of its own is what is found for it. -/
theorem provenance?_of_inferred (hid : ∀ id, ¬ HasItem e id) (h : p.Inferred types e.type (ancestry entities e) r) :
    p.provenance? types true entities e = r := by
  unfold provenance?
  rw [catalogItemId_eq_none_iff.2 hid]
  simp only [Bool.not_true, Bool.false_eq_true, if_false]
  cases h with
  | inherited hid hitem =>
    rw [findSome?_catalogItemId_iff.2 hid]
    dsimp only
    rw [Catalog.resolve?_eq_some_iff.2 hitem]
    rfl
  | kept hid hitem =>
    have hnone : p.catalog.resolve? p.heap _ = none :=
      Option.eq_none_iff_forall_ne_some.2 fun item h => hitem item (Catalog.resolve?_eq_some_iff.1 h)
    rw [findSome?_catalogItemId_iff.2 hid]
    dsimp only
    rw [hnone]
    rfl
  | named hid hitem =>
    rw [findSome?_catalogItemId_none_iff.2 hid, findSome?_versioned?_iff.2 hitem]
  | loadable hid hnamed hload =>
    rw [findSome?_catalogItemId_none_iff.2 hid, findSome?_versioned?_none_iff.2 hnamed]
    simp only [canLoad_classpath.2 hload, if_true]
  | provided hid hnamed hload hitems hitem hbefore =>
    rw [findSome?_catalogItemId_none_iff.2 hid, findSome?_versioned?_none_iff.2 hnamed,
      providerOf?_eq_some_iff.2 ⟨_, _, hitems, hitem, hbefore⟩]
    simp only [canLoad_classpath, if_neg hload]
    rfl
  | unknown hid hnamed hload hitems =>
    rw [findSome?_catalogItemId_none_iff.2 hid, findSome?_versioned?_none_iff.2 hnamed, providerOf?_eq_none_iff.2 hitems]
    simp only [canLoad_classpath, if_neg hload]
    rfl

/-- Some rule applies, whatever the ancestry. -/
theorem exists_inferred (p : Plane) (types : TypeRegistry) (type : String) (lineage : List EntitySummary) :
    ∃ r, p.Inferred types type lineage r := by
  cases hid : lineage.findSome? EntitySummary.catalogItemId with
  | some id =>
    have hid := findSome?_catalogItemId_iff.1 hid
    by_cases hitem : ∃ item, p.catalog.Resolves p.heap id item
    · obtain ⟨item, hitem⟩ := hitem
      exact ⟨_, .inherited hid hitem⟩
    · exact ⟨_, .kept hid (not_exists.1 hitem)⟩
  | none =>
    have hid := findSome?_catalogItemId_none_iff.1 hid
    cases hnamed : lineage.findSome? fun n => p.catalog.versioned? p.heap n.type defaultVersion with
    | some item => exact ⟨_, .named hid (findSome?_versioned?_iff.1 hnamed)⟩
    | none =>
      have hnamed := findSome?_versioned?_none_iff.1 hnamed
      by_cases hload : type ∈ types.classpath.keys
      · exact ⟨_, .loadable hid hnamed hload⟩
      · cases hitems : p.providerOf? types type with
        | some item =>
          obtain ⟨before, after, hitems, hitem, hbefore⟩ := providerOf?_eq_some_iff.1 hitems
          exact ⟨_, .provided hid hnamed hload hitems hitem hbefore⟩
        | none => exact ⟨_, .unknown hid hnamed hload (providerOf?_eq_none_iff.1 hitems)⟩

theorem provenance?_of_rules (h : p.Provenance types infer entities e r) :
    p.provenance? types infer entities e = r := by
  cases h with
  | own hid =>
    unfold provenance?
    rw [show e.catalogItemId = some _ from hid]
  | off hid hinfer =>
    unfold provenance?
    rw [catalogItemId_eq_none_iff.2 hid, hinfer]
    rfl
  | above hid hinfer hlineage h =>
    obtain rfl := isAncestry_iff.1 hlineage
    obtain rfl := hinfer
    exact provenance?_of_inferred hid h

theorem exists_rule (p : Plane) (types : TypeRegistry) (infer : Bool) (entities : OrderedMap String EntitySummary)
    (e : EntitySummary) : ∃ r, p.Provenance types infer entities e r := by
  cases hid : e.catalogItemId with
  | some id => exact ⟨_, .own hid⟩
  | none =>
    have hid := catalogItemId_eq_none_iff.1 hid
    cases hinfer : infer with
    | false => exact ⟨_, .off hid rfl⟩
    | true =>
      obtain ⟨r, h⟩ := exists_inferred p types e.type (ancestry entities e)
      exact ⟨r, .above hid rfl (isAncestry_iff.2 rfl) h⟩

/-- For every table, whatever parents it names, an entity has one ancestry, and the item that is found for the entity is the
one that the first of the rules that applies says. -/
theorem provenance?_iff_rules (p : Plane) (types : TypeRegistry) (infer : Bool)
    (entities : OrderedMap String EntitySummary) (e : EntitySummary) :
    (∃! lineage, IsAncestry entities e lineage) ∧
      ∀ r, p.provenance? types infer entities e = r ↔ p.Provenance types infer entities e r := by
  refine ⟨⟨ancestry entities e, isAncestry_iff.2 rfl, fun _ h => isAncestry_iff.1 h⟩, fun r => ⟨?_, provenance?_of_rules⟩⟩
  rintro rfl
  obtain ⟨r, h⟩ := exists_rule p types infer entities e
  rwa [provenance?_of_rules h]

end Plane

end ManagementPlane
