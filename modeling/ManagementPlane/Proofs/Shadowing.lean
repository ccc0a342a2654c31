import ManagementPlane.Proofs.Attempts
import ManagementPlane.Proofs.Emptiness
import ManagementPlane.Proofs.Provenance
import ManagementPlane.Proofs.Recency
import ManagementPlane.Proofs.Shelf
import ManagementPlane.Proofs.Stock

/-!
# Items that stand in front of others

An entity that was persisted without a catalog item may be given one, for its libraries have the type of the entity.
The item is searched for in the live catalog. Its id is then looked up among the shells of the pass first, and a shell
of that id may have other libraries than the item that was found.

* `Plane.Filed` : the items of the live catalog lie under their own ids;
* `Pass.filed_of_turns`, `Manager.filed_runPass`, `Manager.Reachable.filed` : so they do, whatever a pass does and
  whatever else is done to a manager;
* `Pass.reach`, `Manager.ComesTo` : a pass that makes the shell of an entity next;
* `Plane.Provides` : the first item in the catalog that has the type of an entity, and the type it has;
* `Pass.Agrees` : the id that is found for the entity stands for that type;
* `Pass.agrees_iff` : it does exactly if no shell of the id has another type, or none;
* `Pass.agrees_of_mirrored` : none does where the shells of items are the items of the catalog, as they are in every
  pass that takes the catalog from the store or leaves it alone;
* `Manager.id_stands_for_type` : both, of every pass that comes to the entity.
-/

namespace ManagementPlane

variable {σ : Type}

/-! ## Items under their ids -/

namespace Plane

variable {p q : Plane} {item : Handle}

/-- What lies in the catalog is an object, and lies under its own id. -/
def Filed (p : Plane) : Prop := ∀ id item, p.catalog.get? id = some item → p.heap.Valid item ∧ p.itemId item = id

theorem filed_empty : ({} : Plane).Filed := nofun

/-- Objects may come and change, if they keep their identity. -/
theorem Filed.carry (hp : p.Filed) (hcatalog : q.catalog = p.catalog)
    (hvalid : ∀ {a}, p.heap.Valid a → q.heap.Valid a)
    (hsame : ∀ a, p.heap.Valid a → (p.read a).SameIdentity (q.read a)) : q.Filed := by
  intro id item hitem
  rw [hcatalog] at hitem
  obtain ⟨hv, hid⟩ := hp id item hitem
  exact ⟨hvalid hv, (hsame item hv).id.trans hid⟩

theorem Filed.tidy (hp : p.Filed) (h : p.Tidy q) (hcatalog : q.catalog = p.catalog) : q.Filed :=
  hp.carry hcatalog h.valid h.identity

theorem Filed.extend {n : Nat} (hp : p.Filed) (he : Extends n p q) (hcatalog : q.catalog = p.catalog) : q.Filed :=
  hp.carry hcatalog he.valid he.identity

/-- The catalog is replaced by objects that are there. -/
theorem filed_ofItems {items : List Handle} (hitems : ∀ a ∈ items, p.heap.Valid a) :
    { p with catalog := .ofItems p.heap items }.Filed := by
  intro id item hitem
  rw [Catalog.get?, Catalog.items_ofItems] at hitem
  obtain ⟨a, ha, hentry⟩ := List.mem_map.1 (OrderedMap.mem_of_get?_ofList hitem)
  obtain ⟨rfl, rfl⟩ := Prod.mk.inj hentry
  exact ⟨hitems a ha, rfl⟩

theorem Filed.register (hp : p.Filed) (hv : p.heap.Valid item) : (p.register item).Filed := by
  intro id a ha
  have hget : (p.register item).catalog.get? id = if (p.read item).id = id then some item else p.catalog.get? id :=
    OrderedMap.get?_insert ..
  rw [hget] at ha
  split at ha
  · next hid =>
    cases ha
    exact ⟨hv, hid⟩
  · exact hp id a ha

theorem Filed.addItem (hp : p.Filed) (i : CatalogItem) : (p.addItem i).Filed := by
  have hadopted : (p.adopt (.ofItem i)).2.Filed := hp.extend (.adopt (Nat.le_refl _) _) rfl
  exact hadopted.register (Nat.lt_succ_self _)

/-- An item of the catalog is what its id stands for. -/
theorem Filed.resolve?_itemId (hp : p.Filed) (hitem : item ∈ p.catalog.items.values) :
    p.catalog.resolve? p.heap (p.itemId item) = some item := by
  obtain ⟨id, hid⟩ := OrderedMap.mem_values_iff.1 hitem
  obtain ⟨-, rfl⟩ := hp id item hid
  exact Catalog.resolve?_eq_some_iff.2 (.exact hid)

end Plane

namespace Pass

variable {t : Task} {h : Handler σ} {n : Nat} {p q r : Pass σ} {k : ObjectKind}

theorem valid_adoptAll (objects : List Object) (p : Plane) :
    ∀ a ∈ (adoptAll objects p).1, (adoptAll objects p).2.heap.Valid a := by
  induction objects generalizing p with
  | nil => exact fun _ ha => nomatch ha
  | cons o objects ih =>
    intro a ha
    rcases List.mem_cons.1 ha with rfl | ha
    · have hlater := extends_adoptAll (n := 0) objects (p := (p.adopt o).2) (Nat.zero_le _)
      exact hlater.valid (Nat.lt_succ_self p.heap.size)
    · exact ih _ a ha

/-- A turn files the items that it puts into the catalog. -/
theorem filed_of_turn (hs : p.scratch.Sound n p.plane) (hp : p.plane.Filed) (hturn : Turn t p q) : q.plane.Filed := by
  have hkept : q.plane.catalog = p.plane.catalog → q.plane.Filed := hp.extend (building_of_turn hs hturn).extend
  cases hturn with
  | enter => exact hkept rfl
  | note => exact hkept rfl
  | hear => exact hkept rfl
  | @fail k id item candidates d _ e plane hm =>
    have hmade := Plane.continues_makeLoaded k d id item candidates p.plane
    rw [hm] at hmade
    exact hkept hmade.catalog
  | @make k id item candidates d _ shell plane hm =>
    have hmade := Plane.continues_makeLoaded k d id item candidates p.plane
    rw [hm] at hmade
    exact hkept (hmade.trans (.register _ _ _)).catalog
  | populateItem => exact hkept (Plane.Continues.reconstructItem _ _ _).catalog
  | reset =>
    refine Plane.filed_ofItems fun a ha => ?_
    obtain ⟨id, hid⟩ := OrderedMap.mem_values_iff.1 ha
    exact hs.valid hid
  | fill items => exact Plane.filed_ofItems (valid_adoptAll _ _)
  | populate => exact hkept (Plane.Continues.reconstruct _ _ _ _ _).catalog
  | leave => exact hkept rfl
  | attach => exact hkept (Plane.Continues.addAdjunct _ _ _ _).catalog

theorem filed_of_turns (hs : p.scratch.Sound n p.plane) (hp : p.plane.Filed) (hturns : Turns t p q) :
    q.plane.Filed := by
  induction hturns with
  | refl => exact hp
  | tail hturns hturn ih => exact filed_of_turn (building_of_turns hs hturns).sound ih hturn

end Pass

namespace Manager

variable {m : Manager}

theorem filed_opening (hm : m.plane.Filed) (h : Handler σ) (s : σ) (mode : ManagementMode) :
    (m.opening h s mode).plane.Filed :=
  hm.tidy (.of_told (told_opening m h s mode)) (told_opening m h s mode).catalog

/-- A pass leaves items under their ids in the catalog. -/
theorem filed_runPass (hm : m.plane.Filed) (setup : Setup) (source : Source) (time : Nat) (h : Handler σ) (s : σ)
    (mode : ManagementMode) :
    (m.runPass setup source time h (.new mode) s).manager.plane.Filed := by
  obtain ⟨result, p, hb, htidies⟩ := exists_tidies m setup source time h s mode
  have hfiled : p.plane.Filed := Pass.filed_of_turns (sound_opening m h s mode) (filed_opening hm h s mode)
    ((Pass.turns_build _ h _).to hb)
  exact hfiled.tidy htidies.plane (catalog_of_build hb time)

/-- So does all else that is done to a manager. -/
theorem Reachable.filed (hm : Reachable m) : m.plane.Filed := by
  induction hm with
  | new => exact Plane.filed_empty
  | @adopt m _ o ih => exact ih.extend (.adopt (Nat.le_refl _) o) rfl
  | manage _ hk ha ih => exact ih.tidy (.manageWith hk ha .creating) (Plane.Continues.manageWith _ _).catalog
  | @setTransition m _ k _ id mode ih => exact ih.tidy (.setPending m.plane k _) (Plane.Continues.setRegistry _).catalog
  | manageTree _ hk hroot hchildren ih =>
    exact ih.tidy (.manageTree hk hroot hchildren) (Plane.Continues.of_handlings (Plane.handlings_manageTree _ _ _ _)).catalog
  | @clearPending m _ k _ ih => exact ih.tidy (.setPending m.plane k _) (Plane.Continues.setRegistry _).catalog
  | @unmanage m _ k _ id mode ih => exact ih.tidy (.unmanage m.plane k id mode) (Plane.Continues.unmanage _ _).catalog
  | pass _ setup source time h s mode ih => exact filed_runPass ih setup source time h s mode

end Manager

/-! ## The type of an entity -/

/-- What loads through an item depends on its libraries alone. -/
theorem Plane.load?_libraryContext_congr {p : Plane} {a b : Handle}
    (h : (p.read a).item.libraries = (p.read b).item.libraries) (label label' : String) (types : TypeRegistry)
    (type : String) : (p.libraryContext a label).load? types type = (p.libraryContext b label').load? types type := by
  unfold libraryContext LoadingContext.load?
  rw [h]

/-- Neither the entity nor an ancestor was persisted with an item or has a type that an item is named after, and the
type of the entity loads from nowhere but the libraries of items. Of the items in the catalog, `item` is the first whose
libraries have it, and `d` is what they have. -/
structure Plane.Provides (p : Plane) (types : TypeRegistry) (entities : OrderedMap String EntitySummary)
    (e : EntitySummary) (item : Handle) (d : TypeDescriptor) : Prop where
  own : ∀ id, ¬ HasItem e id
  inherited : ∀ n ∈ ancestry entities e, ∀ id, ¬ HasItem n id
  named : ∀ n ∈ ancestry entities e, ∀ other, ¬ p.NamedAfter n other
  classpath : e.type ∉ types.classpath.keys
  provider : p.providerOf? types e.type = some item
  found : (p.libraryContext item (p.itemId item)).load? types e.type = some d

/-- The id of the item is found for the entity. It stands for the type that the item has, which is also found without
any id, and nothing but the kind of the type is left to be checked. -/
structure Pass.Agrees (t : Task) (p : Pass σ) (entities : OrderedMap String EntitySummary) (e : EntitySummary)
    (item : Handle) (d : TypeDescriptor) : Prop where
  inferred : p.plane.provenance? t.types t.settings.inferCatalogItem entities e = some (p.plane.itemId item)
  resolved : ∀ k, (Pass.instantiator t p).load p.plane k e.type (p.plane.itemId item) = Instantiator.checkKind d k
  scanned : ∀ k, (Pass.instantiator t p).load p.plane k e.type none = Instantiator.checkKind d k

namespace Instantiator

variable {i : Instantiator} {p : Plane} {type : String} {item : Option String} {d : TypeDescriptor}

/-- What is found is told by what loads under each kind. -/
theorem load_eq_checkKind_iff : (∀ k, i.load p k type item = checkKind d k) ↔ i.find p type item = .ok d := by
  constructor
  · intro h
    have hload : i.load p d.kind type item = .ok d := (h d.kind).trans (if_pos rfl)
    unfold load at hload
    rcases hf : i.find p type item with e | d'
    · rw [hf] at hload
      cases hload
    · rw [hf] at hload
      change (if _ then _ else _) = _ at hload
      split at hload
      · exact hload
      · cases hload
  · intro h k
    unfold load
    rw [h]
    rfl

end Instantiator

namespace Plane.Provides

variable {p : Plane} {types : TypeRegistry} {entities : OrderedMap String EntitySummary} {e : EntitySummary}
  {item : Handle} {d : TypeDescriptor}

theorem mem (hd : p.Provides types entities e item d) : item ∈ p.catalog.items.values :=
  List.mem_of_find?_eq_some hd.provider

theorem provenance? (hd : p.Provides types entities e item d) :
    p.provenance? types true entities e = some (p.itemId item) := by
  obtain ⟨before, after, hitems, hitem, hbefore⟩ := providerOf?_eq_some_iff.1 hd.provider
  exact provenance?_of_inferred hd.own (.provided hd.inherited hd.named hd.classpath hitems hitem hbefore)

/-- An item that can load the type has something under its name. -/
theorem exists_of_provider (hown : ∀ id, ¬ HasItem e id) (hinherited : ∀ n ∈ ancestry entities e, ∀ id, ¬ HasItem n id)
    (hnamed : ∀ n ∈ ancestry entities e, ∀ other, ¬ p.NamedAfter n other) (hclasspath : e.type ∉ types.classpath.keys)
    (hprovider : p.providerOf? types e.type = some item) : ∃ d, p.Provides types entities e item d := by
  have hcan : (p.libraryContext item (p.itemId item)).canLoad types e.type = true :=
    List.find?_some (p := fun a => (p.libraryContext a (p.itemId a)).canLoad types e.type) hprovider
  obtain ⟨d, hd⟩ := Option.isSome_iff_exists.1 hcan
  exact ⟨d, hown, hinherited, hnamed, hclasspath, hprovider, hd⟩

/-- The search without an id ends with the same item. -/
theorem find_none {i : Instantiator} (hd : p.Provides i.types entities e item d) (hinfer : i.infer = true) :
    i.find p e.type none = .ok d := by
  have hclasspath : LoadingContext.classpath.load? i.types e.type = none :=
    Option.not_isSome_iff_eq_none.1 fun h => hd.classpath (canLoad_classpath.1 h)
  have hscan : (p.catalog.items.values.findSome? fun a => (p.libraryContext a (p.itemId a)).load? i.types e.type) =
      some d := by
    obtain ⟨hcan, before, after, hitems, hbefore⟩ := List.find?_eq_some_iff_append.1 hd.provider
    refine List.findSome?_eq_some_iff.2 ⟨before, item, after, hitems, hd.found, fun a ha => ?_⟩
    have hcannot : (p.libraryContext a (p.itemId a)).canLoad i.types e.type = false := by simpa using hbefore a ha
    exact Option.not_isSome_iff_eq_none.1 (Bool.eq_false_iff.1 hcannot)
  unfold Instantiator.find
  simp only [hclasspath, hinfer, Bool.not_true, Bool.false_eq_true, if_false, hscan]

end Plane.Provides

namespace Pass

variable {t : Task} {h : Handler σ} {n : Nat} {p q r : Pass σ} {k : ObjectKind}
  {entities : OrderedMap String EntitySummary} {e : EntitySummary} {item : Handle} {d : TypeDescriptor}

/-- What an id stands for, if it is that of an item in the catalog: the shell of that id, or else the item. -/
theorem find_itemId_iff (hp : p.plane.Filed) (hd : p.plane.Provides t.types entities e item d) :
    (instantiator t p).find p.plane e.type (p.plane.itemId item) = .ok d ↔
      ∀ shell, p.scratch.get? .catalogItem (p.plane.itemId item) = some shell →
        (p.plane.libraryContext shell (p.plane.itemId shell)).load? t.types e.type = some d := by
  have hfind : ∀ a, (instantiator t p).scratch.item? p.plane (p.plane.itemId item) = some a →
      ((instantiator t p).find p.plane e.type (p.plane.itemId item) = .ok d ↔
        (p.plane.libraryContext a (p.plane.itemId a)).load? t.types e.type = some d) := by
    intro a ha
    have hlabel : ∀ label, (p.plane.libraryContext a label).load? t.types e.type =
        (p.plane.libraryContext a (p.plane.itemId a)).load? t.types e.type :=
      fun _ => Plane.load?_libraryContext_congr rfl _ _ _ _
    unfold Instantiator.find
    simp only [ha]
    rw [show (instantiator t p).types = t.types from rfl, hlabel]
    rcases (p.plane.libraryContext a (p.plane.itemId a)).load? t.types e.type with _ | d' <;> simp
  have hitem? : (instantiator t p).scratch.item? p.plane (p.plane.itemId item) =
      (p.scratch.get? .catalogItem (p.plane.itemId item)).or
        (p.plane.catalog.resolve? p.plane.heap (p.plane.itemId item)) := rfl
  rcases hshell : p.scratch.get? .catalogItem (p.plane.itemId item) with _ | shell
  · rw [hshell, Option.none_or, hp.resolve?_itemId hd.mem] at hitem?
    rw [hfind item hitem?]
    exact iff_of_true hd.found nofun
  · rw [hshell, Option.some_or] at hitem?
    rw [hfind shell hitem?]
    exact ⟨fun h a ha => Option.some.inj ha ▸ h, fun h => h shell rfl⟩

/-- The id that is found for an entity stands for the type that was found exactly if no shell of that id stands for
another type, or for none. -/
theorem agrees_iff (hp : p.plane.Filed) (hinfer : t.settings.inferCatalogItem = true)
    (hd : p.plane.Provides t.types entities e item d) :
    p.Agrees t entities e item d ↔ ∀ shell, p.scratch.get? .catalogItem (p.plane.itemId item) = some shell →
      (p.plane.libraryContext shell (p.plane.itemId shell)).load? t.types e.type = some d := by
  rw [← find_itemId_iff hp hd, ← Instantiator.load_eq_checkKind_iff]
  refine ⟨Agrees.resolved, fun h => ⟨?_, h, ?_⟩⟩
  · rw [hinfer]
    exact hd.provenance?
  · exact Instantiator.load_eq_checkKind_iff.2 (hd.find_none hinfer)

/-! ## Passes whose shells are the items of the catalog -/

/-- Every shell of an item is what the catalog has under its id. -/
def Mirrored (p : Pass σ) : Prop :=
  ∀ id shell, p.scratch.get? .catalogItem id = some shell → p.plane.catalog.get? id = some shell

theorem agrees_of_mirrored (hm : p.Mirrored) (hp : p.plane.Filed) (hinfer : t.settings.inferCatalogItem = true)
    (hd : p.plane.Provides t.types entities e item d) : p.Agrees t entities e item d := by
  refine (agrees_iff hp hinfer hd).2 fun shell hshell => ?_
  obtain ⟨id, hid⟩ := OrderedMap.mem_values_iff.1 hd.mem
  obtain rfl : p.plane.itemId item = id := (hp id item hid).2
  obtain rfl : item = shell := Option.some.inj (hid.symm.trans (hm _ shell hshell))
  exact hd.found

/-- The catalog is reset to the shells. -/
theorem mirrored_resetCatalog (hs : p.scratch.Sound n p.plane) : (resetCatalog p).Mirrored := by
  have hentries : (p.scratch.shells .catalogItem).map (Catalog.entry p.plane.heap) =
      (p.scratch.objects.get .catalogItem).entries := by
    unfold Scratch.shells OrderedMap.values
    rw [List.map_map]
    refine (List.map_congr_left fun x hx => ?_).trans (List.map_id _)
    exact Prod.ext (hs.id (k := .catalogItem) (OrderedMap.get?_eq_some_iff.2 hx)) rfl
  intro id shell hshell
  show (Catalog.ofItems p.plane.heap (p.scratch.shells .catalogItem)).items.get? id = some shell
  rw [Catalog.items_ofItems, hentries, OrderedMap.get?_eq_some_iff,
    OrderedMap.entries_ofList (OrderedMap.keys_nodup (p.scratch.objects.get .catalogItem))]
  exact OrderedMap.get?_eq_some_iff.1 hshell

/-- From `p` to `q` the catalog and the shells of items are the same. -/
structure KeepsItems (p q : Pass σ) : Prop where
  catalog : q.plane.catalog = p.plane.catalog
  shell : ∀ id, q.scratch.get? .catalogItem id = p.scratch.get? .catalogItem id

instance : Std.Refl (KeepsItems (σ := σ)) := ⟨fun _ => ⟨rfl, fun _ => rfl⟩⟩

instance : IsTrans (Pass σ) KeepsItems :=
  ⟨fun _ _ _ h₁ h₂ => ⟨h₂.catalog.trans h₁.catalog, fun id => (h₂.shell id).trans (h₁.shell id)⟩⟩

theorem Mirrored.keep (hm : p.Mirrored) (h : KeepsItems p q) : q.Mirrored := by
  intro id shell hshell
  rw [h.catalog]
  exact hm id shell (h.shell id ▸ hshell)

theorem keepsItems_tell {ε : Type} (note : Notification) (answer : Step σ ε Unit) (p : Pass σ) :
    Step.Moves KeepsItems (tell note answer) p := by
  unfold Step.Moves
  rw [on_tell]
  exact ⟨rfl, fun _ => rfl⟩

theorem keepsItems_enter (phase : Nat) (p : Pass σ) : Step.Moves KeepsItems (enter phase) p :=
  .of_update ⟨rfl, fun _ => rfl⟩

theorem keepsItems_logCourse (message : String) (p : Pass σ) : Step.Moves KeepsItems (logCourse t message) p :=
  .read_bind (.of_update ⟨rfl, fun _ => rfl⟩)

theorem keepsItems_loadManifest (p : Pass σ) : Step.Moves KeepsItems (loadManifest t h) p :=
  movesAlong_loadManifest t h (keepsItems_enter 1) keepsItems_logCourse (fun _ _ _ p => keepsItems_tell _ _ p)
    (fun _ _ => ⟨rfl, fun _ => rfl⟩) p

/-- A shell of another kind. -/
theorem keepsItems_makeShell (htypes : t.types.KeepsKinds) (hk : k ≠ .catalogItem) {id type : String}
    {make : Pass σ → Plane → Except ObjectError Handle × Plane}
    (hmake : Asks t k id make) (p : Pass σ) :
    Step.Moves KeepsItems (makeShell h k id type make) p := by
  obtain ⟨item, candidates, d, hd, hmade⟩ := hmake p
  have hcontinues := Plane.continues_makeLoaded k d id item candidates p.plane
  unfold makeShell onPlane Step.Moves
  rw [Step.on_total_bind]
  rcases hm : make p p.plane with ⟨e | shell, plane⟩ <;> rw [hm] at hmade <;> rw [← hmade] at hcontinues <;>
    simp only [hm]
  · have hfail : KeepsItems p { p with plane } := ⟨hcontinues.catalog, fun _ => rfl⟩
    exact IsTrans.trans _ _ _ hfail (keepsItems_tell _ _ _)
  · obtain ⟨⟨d', o, hd', hmakes, hread⟩, -⟩ := Instantiator.shell_of_makeLoaded hd hmade.symm
    have hkind : (plane.read shell).kind = k := by
      rw [hread]
      exact (htypes d' (hd.type d' hd').1 o hmakes).trans (hd.type d' hd').2
    refine ⟨(hcontinues.trans (.register _ _ _)).catalog, fun id => ?_⟩
    refine (Scratch.get?_register p.scratch plane shell .catalogItem id).trans (if_neg fun hc => hk ?_)
    exact hkind.symm.trans hc.1

/-- The catalog is rebuilt from the store, or it is left alone and there are no shells of items. -/
theorem mirrored_of_rebuildCatalog (hs : p.scratch.Sound n p.plane)
    (hnone : ∀ id, p.scratch.get? .catalogItem id = none)
    (hkept : t.settings.features.enabled .catalogItem = true →
      t.settings.catalogLoadMode.resetsToPersisted p.isEmpty = true)
    {manifest : Manifest} (hq : (rebuildCatalog t h manifest).on p = (.ok (), q)) : q.Mirrored := by
  obtain ⟨_, p₁, henter, hq⟩ := Step.on_bind_eq_ok_iff.1 hq
  have hs₁ := (building_of_turns hs ((moves_enter t (by decide) p).to henter)).sound
  split at hq
  · have hsame : KeepsItems p q :=
      IsTrans.trans _ _ _ ((keepsItems_enter _ p).to henter) ((keepsItems_logCourse _ p₁).to hq)
    intro id shell hshell
    rw [hsame.shell, hnone] at hshell
    cases hshell
  · next hon =>
    obtain ⟨_, p₂, hlog, hq⟩ := Step.on_bind_eq_ok_iff.1 hq
    obtain ⟨_, p₃, hmake, hq⟩ := Step.on_bind_eq_ok_iff.1 hq
    obtain ⟨_, p₄, hlog', hq⟩ := Step.on_bind_eq_ok_iff.1 hq
    obtain ⟨_, p₅, hpopulate, hq⟩ := Step.on_bind_eq_ok_iff.1 hq
    have hturns : Turns t p₁ p₅ :=
      (((moves_logCourse t _ p₁).to hlog).trans
        ((Step.Moves.forEach (fun i _ => moves_makeCatalogItem t h i) p₂).to hmake)).trans
        (((moves_logCourse t _ p₃).to hlog').trans
          ((Step.Moves.forEach (fun i _ => moves_populateCatalogItem t h i) p₄).to hpopulate))
    have hcalm : Calm p₁ p₅ := by
      refine IsTrans.trans _ _ _ ((calm_logCourse _ p₁).to hlog) ?_
      refine IsTrans.trans _ _ _ ((Step.Moves.forEach (fun i _ => calm_makeCatalogItem i) p₂).to hmake) ?_
      refine IsTrans.trans _ _ _ ((calm_logCourse _ p₃).to hlog') ?_
      exact (Step.Moves.forEach (fun i _ => calm_populateCatalogItem i) p₄).to hpopulate
    have hempty : p₅.isEmpty = p.isEmpty := by
      rw [hcalm.isEmpty, ← (Prod.mk.inj henter).2]
    rw [Step.on_read_bind, hempty, hkept (by simpa using hon), if_pos rfl] at hq
    obtain ⟨_, p₆, hlog'', hq⟩ := Step.on_bind_eq_ok_iff.1 hq
    obtain ⟨-, rfl⟩ := Prod.mk.inj hq
    exact mirrored_resetCatalog (building_of_turns hs₁ (hturns.trans ((moves_logCourse t _ p₅).to hlog''))).sound

/-! ## Up to an entity -/

/-- The third phase up to the shell of an entity, when those of the entities `before` it have been tried. -/
def makeShellsBefore (t : Task) (h : Handler σ) (manifest : Manifest) (before : List EntitySummary) :
    PassStep σ Unit := do
  enter 3
  logCourse t ("instantiating locations: " ++ listed manifest.locationTypes.keys)
  Step.forEach manifest.locationTypes.entries (makeLocation t h)
  logCourse t ("instantiating entities: " ++ listed manifest.entities.keys)
  Step.forEach before (makeEntity t h manifest)

/-- A pass up to that shell. -/
def reach (t : Task) (h : Handler σ) (before : List EntitySummary) : PassStep σ Unit := do
  let (_, manifest) ← loadManifest t h
  rebuildCatalog t h manifest
  makeShellsBefore t h manifest before

theorem moves_makeShellsBefore (manifest : Manifest) (before : List EntitySummary) (p : Pass σ) :
    Step.Moves (Turns t) (makeShellsBefore t h manifest before) p := by
  refine (moves_enter t (by decide) p).bind fun _ p _ => (moves_logCourse t _ p).bind fun _ p _ => ?_
  refine (Step.Moves.forEach (fun e _ => moves_makeLocation t h e) p).bind fun _ p _ => ?_
  refine (moves_logCourse t _ p).bind fun _ p _ => ?_
  exact Step.Moves.forEach (fun e _ => moves_makeEntity t h manifest e) p

theorem moves_reach (before : List EntitySummary) (p : Pass σ) : Step.Moves (Turns t) (reach t h before) p :=
  (moves_loadManifest t h p).bind fun _ p _ => (moves_rebuildCatalog t h _ p).bind fun _ p _ =>
    moves_makeShellsBefore _ before p

theorem keepsItems_makeShellsBefore (htypes : t.types.KeepsKinds) (manifest : Manifest) (before : List EntitySummary)
    (p : Pass σ) : Step.Moves KeepsItems (makeShellsBefore t h manifest before) p := by
  refine (keepsItems_enter _ p).bind fun _ p _ => (keepsItems_logCourse _ p).bind fun _ p _ => ?_
  refine (Step.Moves.forEach (fun e _ => ?_) p).bind fun _ p _ => ?_
  · exact keepsItems_makeShell htypes (by decide) (asks_newLocation t e)
  refine (keepsItems_logCourse _ p).bind fun _ p _ => Step.Moves.forEach (fun e _ => ?_) p
  exact keepsItems_makeShell htypes (by decide) (asks_newEntity t e fun p =>
    p.plane.provenance? t.types t.settings.inferCatalogItem manifest.entities e)

/-- The shells of items are the items of the catalog when a pass comes to an entity, unless that is the default one. -/
theorem mirrored_of_reach (hs : p.scratch.Sound n p.plane) (hnone : ∀ id, p.scratch.get? .catalogItem id = none)
    (htypes : t.types.KeepsKinds)
    (hmode : t.settings.features.enabled .catalogItem = true → t.settings.catalogLoadMode ≠ .defaultCatalog)
    (he : e ∈ t.source.payloads.manifest.entities.values) {before : List EntitySummary}
    (hq : (reach t h before).on p = (.ok (), q)) : q.Mirrored := by
  obtain ⟨⟨raw, manifest⟩, p₁, hload, hq⟩ := Step.on_bind_eq_ok_iff.1 hq
  obtain ⟨_, b, hrebuild, hshells⟩ := Step.on_bind_eq_ok_iff.1 hq
  have hsame := (keepsItems_loadManifest p).to hload
  -- there is an entity, so the store is not empty
  have hempty : p₁.isEmpty = false := by
    rw [isEmpty_of_loadManifest hload, Bool.eq_false_iff]
    intro hnone
    rw [Manifest.isEmpty, Bool.and_eq_true, Bool.and_eq_true] at hnone
    obtain ⟨id, hid⟩ := OrderedMap.mem_values_iff.1 he
    cases hid.symm.trans (OrderedMap.isEmpty_iff.1 hnone.1.1 id)
  have hkept : t.settings.features.enabled .catalogItem = true →
      t.settings.catalogLoadMode.resetsToPersisted p₁.isEmpty = true := by
    intro hon
    have hne := hmode hon
    rw [hempty]
    revert hne
    cases t.settings.catalogLoadMode <;> decide
  have hb : b.Mirrored := mirrored_of_rebuildCatalog
    (building_of_turns hs ((moves_loadManifest t h p).to hload)).sound (fun id => (hsame.shell id).trans (hnone id))
    hkept hrebuild
  exact hb.keep ((keepsItems_makeShellsBefore htypes manifest before b).to hshells)

end Pass

namespace Manager

variable {m : Manager} {setup : Setup} {source : Source} {h : Handler σ} {s : σ} {mode : ManagementMode} {p : Pass σ}
  {e : EntitySummary} {item : Handle} {d : TypeDescriptor}

/-- The pass has come to `p` when it makes the shell of the entity. -/
def ComesTo (m : Manager) (setup : Setup) (source : Source) (h : Handler σ) (s : σ) (mode : ManagementMode)
    (e : EntitySummary) (p : Pass σ) : Prop :=
  ∃ before after, source.payloads.manifest.entities.values = before ++ e :: after ∧
    (Pass.reach (m.task setup source mode) h before).on (m.opening h s mode) = (.ok (), p)

/-- A pass that gets to its last phase has come to every entity, and has tried to make its shell then. -/
theorem exists_comesTo {snapshot : Snapshot} {q : Pass σ}
    (hb : (Pass.build (m.task setup source mode) h).on (m.opening h s mode) = (.ok snapshot, q))
    (he : e ∈ source.payloads.manifest.entities.values) :
    ∃ p p', m.ComesTo setup source h s mode e p ∧
      (Pass.makeEntity (m.task setup source mode) h source.payloads.manifest e).on p = (.ok (), p') := by
  obtain ⟨p₁, b, _, _, _, _, -, hload, hcatalog, hmake, -⟩ := Pass.exists_phases_of_build hb
  obtain ⟨_, u₁, henter, hmake⟩ := Step.on_bind_eq_ok_iff.1 hmake
  obtain ⟨_, u₂, hlog, hmake⟩ := Step.on_bind_eq_ok_iff.1 hmake
  obtain ⟨_, u₃, hlocations, hmake⟩ := Step.on_bind_eq_ok_iff.1 hmake
  obtain ⟨_, u₄, hlog', hmake⟩ := Step.on_bind_eq_ok_iff.1 hmake
  obtain ⟨before, after, p, p', hentities, hbefore, hone, -⟩ := Step.exists_of_on_forEach he hmake
  refine ⟨p, p', ⟨before, after, hentities, ?_⟩, hone⟩
  refine Step.on_bind_eq_ok_iff.2 ⟨_, p₁, hload, Step.on_bind_eq_ok_iff.2 ⟨_, b, hcatalog, ?_⟩⟩
  refine Step.on_bind_eq_ok_iff.2 ⟨_, u₁, henter, Step.on_bind_eq_ok_iff.2 ⟨_, u₂, hlog, ?_⟩⟩
  exact Step.on_bind_eq_ok_iff.2 ⟨_, u₃, hlocations, Step.on_bind_eq_ok_iff.2 ⟨_, u₄, hlog', hbefore⟩⟩

theorem ComesTo.filed (hp : m.ComesTo setup source h s mode e p) (hm : m.plane.Filed) : p.plane.Filed := by
  obtain ⟨before, after, -, hreach⟩ := hp
  exact Pass.filed_of_turns (sound_opening m h s mode) (filed_opening hm h s mode)
    ((Pass.moves_reach before _).to hreach)

theorem ComesTo.mirrored (hp : m.ComesTo setup source h s mode e p) (htypes : setup.types.KeepsKinds)
    (hmode : setup.settings.features.enabled .catalogItem = true →
      setup.settings.catalogLoadMode ≠ .defaultCatalog) : p.Mirrored := by
  obtain ⟨before, after, hentities, hreach⟩ := hp
  have he : e ∈ source.payloads.manifest.entities.values := by
    rw [hentities]
    exact List.mem_append_right before List.mem_cons_self
  exact Pass.mirrored_of_reach (t := m.task setup source mode) (sound_opening m h s mode) (fun _ => rfl) htypes hmode he
    hreach

/-- Let a pass with inference come to an entity that has its type from the libraries of an item in the catalog and from
nowhere else. The id of the item is found for the entity, and stands for the type that is found without any id, exactly
if no shell of that id has another type or none. So it is whenever the catalog is not the default one. -/
theorem id_stands_for_type (hm : m.plane.Filed) (hp : m.ComesTo setup source h s mode e p)
    (hinfer : setup.settings.inferCatalogItem = true)
    (hd : p.plane.Provides setup.types source.payloads.manifest.entities e item d) :
    (p.Agrees (m.task setup source mode) source.payloads.manifest.entities e item d ↔
        ∀ shell, p.scratch.get? .catalogItem (p.plane.itemId item) = some shell →
          (p.plane.libraryContext shell (p.plane.itemId shell)).load? setup.types e.type = some d) ∧
      (setup.types.KeepsKinds → (setup.settings.features.enabled .catalogItem = true →
          setup.settings.catalogLoadMode ≠ .defaultCatalog) →
        p.Agrees (m.task setup source mode) source.payloads.manifest.entities e item d) := by
  have hfiled := hp.filed hm
  refine ⟨Pass.agrees_iff hfiled hinfer hd, fun htypes hmode => ?_⟩
  exact Pass.agrees_of_mirrored (hp.mirrored htypes hmode) hfiled hinfer hd

/-! ## An item that was persisted without its libraries -/

/-- A type that loads through a bundle only, and a default catalog whose item has the bundle. -/
def bundled : Setup := { Setup.stock with
  types := TypeRegistry.stock.registerInBundle "acme-bundle" (.stock "acme.Db" .entity)
  settings := { catalogLoadMode := .defaultCatalog }
  defaultCatalog := some (.builtIn [
    { CatalogItem.new "db" "1.0" "trellis.catalog.BasicCatalogItem" with libraries := ["acme-bundle"] }]) }

/-- An entity of that type, and an item with the id of the other one and with these libraries. -/
def heldWith (libraries : List String) : MemoryStore :=
  let item := { CatalogItem.new "db" "1.0" "trellis.catalog.BasicCatalogItem" with libraries }
  (({ name := "store" } : MemoryStore).seed .catalogItem item.id (Persistable.item item).text).seed .entity "app"
    (Persistable.memento (.new "app" "acme.Db")).text

def bundledApp : EntitySummary := { id := "app", type := "acme.Db" }

/-- A pass over that store, when it has come to the entity. -/
def bundledPass (libraries : List String) : Except RebindError Unit × Pass Unit :=
  (Pass.reach (({} : Manager).task bundled (heldWith libraries).source .master) (.refusing []) []).on
    (({} : Manager).opening (.refusing []) () .master)

section Bundled

variable {libraries : List String} (hlibraries : libraries = [] ∨ libraries = ["acme-bundle"])
include hlibraries

set_option maxRecDepth 4000 in
/-- The item of the default catalog has the type, and the shell of the persisted one has its id. -/
theorem bundledPass_shows :
    let manifest := (heldWith libraries).source.payloads.manifest
    let p := (bundledPass libraries).2
    (manifest.entities.values = [bundledApp] ∧ (bundledPass libraries).1.isOk = true ∧
      (ancestry manifest.entities bundledApp).findSome? EntitySummary.catalogItemId = none ∧
      ((ancestry manifest.entities bundledApp).findSome? fun n =>
        p.plane.catalog.versioned? p.plane.heap n.type defaultVersion) = none ∧
      p.plane.providerOf? bundled.types "acme.Db" = some ⟨1⟩) ∧
    p.plane.itemId ⟨1⟩ = "db:1.0" ∧ p.scratch.get? .catalogItem "db:1.0" = some ⟨0⟩ ∧
      (p.plane.read ⟨0⟩).item.libraries = libraries ∧ (p.plane.read ⟨1⟩).item.libraries = ["acme-bundle"] := by
  rcases hlibraries with rfl | rfl <;> decide +kernel

theorem comesTo_bundledApp : ({} : Manager).ComesTo bundled (heldWith libraries).source (.refusing []) () .master
    bundledApp (bundledPass libraries).2 := by
  obtain ⟨⟨hentities, hok, -⟩, -⟩ := bundledPass_shows hlibraries
  refine ⟨[], [], hentities, ?_⟩
  unfold bundledPass at hok ⊢
  rcases hp : (Pass.reach (({} : Manager).task bundled (heldWith libraries).source .master) (.refusing []) []).on
    (({} : Manager).opening (.refusing []) () .master) with ⟨e | _, p⟩
  · rw [hp] at hok
    cases hok
  · rfl

theorem exists_provides_bundledApp : ∃ d, (bundledPass libraries).2.plane.Provides bundled.types
    (heldWith libraries).source.payloads.manifest.entities bundledApp ⟨1⟩ d := by
  obtain ⟨⟨-, -, hinherited, hnamed, hprovider⟩, -⟩ := bundledPass_shows hlibraries
  exact Plane.Provides.exists_of_provider (Plane.catalogItemId_eq_none_iff.1 rfl)
    (Plane.findSome?_catalogItemId_none_iff.1 hinherited) (Plane.findSome?_versioned?_none_iff.1 hnamed)
    (by decide +kernel) hprovider

end Bundled

/-- The persisted item has the same libraries as the other. -/
theorem id_stands_for_type_bundledApp :
    ({} : Manager).plane.Filed ∧ bundled.settings.inferCatalogItem = true ∧
      ({} : Manager).ComesTo bundled (heldWith ["acme-bundle"]).source (.refusing []) () .master bundledApp
        (bundledPass ["acme-bundle"]).2 ∧
      ∃ d, (bundledPass ["acme-bundle"]).2.plane.Provides bundled.types
          (heldWith ["acme-bundle"]).source.payloads.manifest.entities bundledApp ⟨1⟩ d ∧
        (bundledPass ["acme-bundle"]).2.Agrees (({} : Manager).task bundled (heldWith ["acme-bundle"]).source .master)
          (heldWith ["acme-bundle"]).source.payloads.manifest.entities bundledApp ⟨1⟩ d := by
  obtain ⟨-, hid, hget, hshell, hitem⟩ := bundledPass_shows (.inr rfl)
  obtain ⟨d, hd⟩ := exists_provides_bundledApp (.inr rfl)
  have hcomes := comesTo_bundledApp (.inr rfl)
  refine ⟨Plane.filed_empty, rfl, hcomes, d, hd, ?_⟩
  refine (id_stands_for_type Plane.filed_empty hcomes rfl hd).1.2 fun shell hs => ?_
  rw [hid, hget] at hs
  obtain rfl := Option.some.inj hs
  rw [Plane.load?_libraryContext_congr (hshell.trans hitem.symm)]
  exact hd.found

/-- The persisted item has no libraries, and the id stands for it. -/
theorem item_without_libraries_shadows : ∃ d,
    ({} : Manager).ComesTo bundled (heldWith []).source (.refusing []) () .master bundledApp (bundledPass []).2 ∧
      (bundledPass []).2.plane.Provides bundled.types (heldWith []).source.payloads.manifest.entities bundledApp ⟨1⟩ d ∧
      ¬ (bundledPass []).2.Agrees (({} : Manager).task bundled (heldWith []).source .master)
        (heldWith []).source.payloads.manifest.entities bundledApp ⟨1⟩ d := by
  obtain ⟨-, hid, hget, hshell, -⟩ := bundledPass_shows (.inl rfl)
  obtain ⟨d, hd⟩ := exists_provides_bundledApp (.inl rfl)
  have hcomes := comesTo_bundledApp (.inl rfl)
  refine ⟨d, hcomes, hd, fun hagrees => ?_⟩
  have hfiled := hcomes.filed Plane.filed_empty
  rw [Pass.agrees_iff (t := ({} : Manager).task bundled (heldWith []).source .master) hfiled rfl hd] at hagrees
  -- without libraries the type would have to load from anywhere
  have hsees := Plane.canLoad_libraryContext.1 (Option.isSome_of_eq_some (hagrees ⟨0⟩ (by rw [hid, hget])))
  unfold Plane.Sees at hsees
  rw [hshell] at hsees
  rcases hsees with ⟨library, hmem, -⟩ | hclasspath
  · cases hmem
  · exact hd.classpath hclasspath

end Manager

end ManagementPlane
