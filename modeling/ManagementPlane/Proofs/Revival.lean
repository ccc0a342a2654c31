import ManagementPlane.Proofs.FileTrees
import ManagementPlane.Proofs.Requests

/-!
# Objects revived from their mementos

A shell made by the factory of a stock type is blank. One made by an older constructor is not: the configuration of the
memento may have gone into the flags, less what has the name of a directive, and the id may be any. Populating it from
the memento gives the same object all the same.

* `SortedMap.ext_get?`, `SortedMap.merge_eq_right` : when tables are equal, and when one covers another;
* `TypeDescriptor.Older name k d` : the type makes stock objects of kind `k` with an older constructor;
* `Object.reconstruct_ofFlags` : what has been made from the flags of a memento is populated like a blank object;
* `Instantiator.revive` : make a shell for a memento and populate it;
* `Instantiator.revive_older` : it comes out as with the factory of the stock type, with the configuration of the memento.
-/

namespace ManagementPlane

/-! ## Tables -/

namespace SortedMap

variable {α : Type} {m n : SortedMap α}

/-- Tables with the same content are equal. -/
theorem ext_get? (h : ∀ key, m.get? key = n.get? key) : m = n := by
  have hmem : ∀ e, e ∈ m.entries ↔ e ∈ n.entries := by
    rintro ⟨key, v⟩
    rw [← get?_eq_some_iff, ← get?_eq_some_iff, h]
  have hnodup : ∀ m : SortedMap α, m.entries.Nodup := fun m =>
    m.sorted.imp fun {a b} (hlt : a.1 < b.1) (he : a = b) => String.lt_irrefl _ (he ▸ hlt)
  exact ext (List.Perm.eq_of_pairwise (fun a b _ _ hab hba => absurd (String.lt_trans hab hba) (String.lt_irrefl _))
    m.sorted n.sorted ((List.perm_ext_iff_of_nodup (hnodup m) (hnodup n)).2 hmem))

theorem get?_filter_eq_some {p : String → Bool} {key : String} {v : α} :
    (m.filter p).get? key = some v ↔ m.get? key = some v ∧ p key = true := by
  rw [get?_eq_some_iff, get?_eq_some_iff, filter, List.mem_filter]

/-- A table takes the place of what it covers. -/
theorem merge_eq_right (h : ∀ key v, m.get? key = some v → ∃ w, n.get? key = some w) : m.merge n = n := by
  refine ext_get? fun key => ?_
  rw [get?_merge]
  rcases hn : n.get? key with _ | w
  · rcases hm : m.get? key with _ | v
    · rfl
    · obtain ⟨w, hw⟩ := h key v hm
      rw [hn] at hw
      cases hw
  · rfl

theorem empty_merge (n : SortedMap α) : merge ∅ n = n := merge_eq_right fun _ _ h => nomatch h

end SortedMap

/-- The shell to ask for that a memento is to populate. -/
def ShellRequest.ofMemento (k : ObjectKind) (m : Memento) : ShellRequest :=
  match k with
  | .entity => .entity m.id m.type m.catalogItemId
  | .location => .location m.id m.type
  | k => .adjunct k m

/-! ## Objects made from flags -/

namespace Object

/-- Flags that are no directives add nothing to a configuration that has them. -/
theorem merge_flags {directives : List String} {flags config : Settings}
    (h : ∀ key ∉ directives, ∀ v, flags.get? key = some v → config.get? key = some v) :
    SortedMap.merge (flags.filter fun key => !directives.contains key) config = config := by
  refine SortedMap.merge_eq_right fun key v hv => ⟨v, ?_⟩
  obtain ⟨hv, hkey⟩ := SortedMap.get?_filter_eq_some.1 hv
  have hnot : key ∉ directives := by simpa using hkey
  exact h key hnot v hv

/-- The flags of a policy or an enricher are its configuration and directives. -/
theorem merge_adjunctFlags (id : String) (config : Settings) :
    SortedMap.merge (SortedMap.filter (fun key => !adjunctDirectives.contains key)
      (((config.insert "id" (.string id)).insert "deferConstructionChecks" (.bool true)).insert
        "noConstructionInit" (.bool true))) config = config := by
  refine merge_flags fun key hkey v hv => ?_
  simp only [adjunctDirectives, List.mem_cons, List.not_mem_nil, or_false, not_or] at hkey
  obtain ⟨hid, hdefer, hinit⟩ := hkey
  rwa [SortedMap.get?_insert, if_neg (Ne.symm hinit), SortedMap.get?_insert, if_neg (Ne.symm hdefer),
    SortedMap.get?_insert, if_neg (Ne.symm hid)] at hv

/-- The flags of a location are directives. -/
theorem merge_locationFlags (id : String) (config : Settings) :
    SortedMap.merge (SortedMap.filter (fun key => !locationDirectives.contains key)
      ((Instantiator.idFlags id).insert "deferConstructionChecks" (.bool true))) config = config := by
  refine merge_flags fun key hkey v hv => ?_
  simp only [locationDirectives, List.mem_cons, List.not_mem_nil, or_false, not_or] at hkey
  obtain ⟨hid, hdefer⟩ := hkey
  rw [SortedMap.get?_insert, if_neg (Ne.symm hdefer), Instantiator.idFlags, SortedMap.get?_insert,
    if_neg (Ne.symm hid)] at hv
  cases hv

/-- The shell of a stock type that a memento is to populate. -/
def shellFor (k : ObjectKind) (name : String) (m : Memento) : Object :=
  { blank k m.id name with catalogItemId := (ShellRequest.ofMemento k m).item? }

/-- What has been made from the flags of a memento is populated like a blank object. -/
theorem reconstruct_ofFlags {k : ObjectKind} {flags : Settings}
    (hk : k = .policy ∨ k = .enricher ∨ k = .location) {m : Memento}
    (hflags : .flags flags ∈ (ShellRequest.ofMemento k m).candidates) (known : ObjectKind → String → Bool)
    (name : String) : { ofFlags k name flags with
      id := m.id, catalogItemId := (ShellRequest.ofMemento k m).item? }.reconstruct known m =
        (shellFor k name m).reconstruct known m := by
  rcases hk with rfl | rfl | rfl
  all_goals
    obtain rfl := ConstructorArgs.flags.inj (List.mem_singleton.1 hflags)
    simp only [reconstruct, shellFor, ofFlags, blank, blankBody, Body.mapAdjunct, merge_adjunctFlags,
      merge_locationFlags, SortedMap.empty_merge]

/-- The object is what a memento says of an object of kind `k`. -/
structure Presents (k : ObjectKind) (name : String) (m : Memento) (o : Object) : Prop where
  id : o.id = m.id
  type : o.type = name
  item : o.catalogItemId = (ShellRequest.ofMemento k m).item?
  displayName : o.displayName = m.displayName
  config : o.config = m.config
  attributes : o.attributes = if k = .location then ∅ else m.attributes

theorem presents_of_shellFor {k : ObjectKind} (hk : k ≠ .catalogItem) (known : ObjectKind → String → Bool)
    (name : String) (m : Memento) :
    ∃ o, (shellFor k name m).reconstruct known m = .ok o ∧ o.Presents k name m := by
  cases k with
  | catalogItem => exact absurd rfl hk
  | entity => exact ⟨_, rfl, rfl, rfl, rfl, rfl, rfl, rfl⟩
  | location => exact ⟨_, rfl, rfl, rfl, rfl, rfl, SortedMap.empty_merge _, rfl⟩
  | policy | enricher | feed => exact ⟨_, rfl, rfl, rfl, rfl, rfl, SortedMap.empty_merge _, rfl⟩

end Object

/-! ## Populating -/

/-- Populating an object whose hook does not fail. -/
theorem Plane.reconstruct_eq_ok {p : Plane} {h : Handle} {known : ObjectKind → String → Bool} (readOnly : Bool)
    {m : Memento} {o : Object} (hv : p.heap.Valid h) (hkind : (p.read h).kind ≠ .catalogItem)
    (hfault : (p.read h).behaviour.reconstructFault = none) (ho : (p.read h).reconstruct known m = .ok o) :
    ∃ q, p.reconstruct known readOnly h m = (.ok (), q) ∧ q.read h = o := by
  unfold Plane.reconstruct
  dsimp only
  rw [if_neg hkind, hfault]
  dsimp only
  rw [ho]
  exact ⟨_, rfl, (p.recordHook h (.reconstruct m.id readOnly)).read_modify_self hv _⟩

/-! ## Older constructors -/

/-- A type of stock objects of kind `k` that are made by an older constructor: locations, policies and enrichers from
flags, or entities from arguments of whatever shapes and under whatever id. -/
inductive TypeDescriptor.Older (name : String) : ObjectKind → TypeDescriptor → Prop
  | fromFlags {k : ObjectKind} {d : TypeDescriptor} {shapes : List ConstructorShape}
      {make : ConstructorArgs → Except ObjectError Object} (hk : k = .policy ∨ k = .enricher ∨ k = .location)
      (hrecipe : d.recipe = .legacy shapes make) (hshapes : .flags ∈ shapes)
      (hmake : ∀ flags, make (.flags flags) = .ok (.ofFlags k name flags)) : Older name k d
  | anyEntity {d : TypeDescriptor} {shapes : List ConstructorShape}
      {make : ConstructorArgs → Except ObjectError Object} (hrecipe : d.recipe = .legacy shapes make)
      (hshapes : shapes ≠ []) (hmake : ∀ args, ∃ id, make args = .ok (.blank .entity id name)) : Older name .entity d

namespace Instantiator

variable {i i' : Instantiator} {p p' : Plane} {k : ObjectKind} {m : Memento} {d : TypeDescriptor} {name : String}
  {known : ObjectKind → String → Bool} {readOnly : Bool} {o o' : Object}

/-- Make a shell for a memento, and populate it. -/
def revive (i : Instantiator) (known : ObjectKind → String → Bool) (readOnly : Bool) (k : ObjectKind) (m : Memento)
    (p : Plane) : Except ObjectError Object :=
  match (ShellRequest.ofMemento k m).serve i p with
  | (.error e, _) => .error e
  | (.ok shell, p) =>
    match p.reconstruct known readOnly shell m with
    | (.error e, _) => .error e
    | (.ok (), p) => .ok (p.read shell)

theorem valid_finish (o : Object) (id : String) (item : Option String) (p : Plane) :
    (finish o id item p).2.heap.Valid (finish o id item p).1 := by
  rw [heap_finish]
  exact Heap.valid_alloc.2 (.inr rfl)

/-- The object that is made for a memento is populated under its id and catalog item. -/
theorem revive_of_construct (hd : (ShellRequest.ofMemento k m).descriptor i p = .ok d)
    (hmade : (construct (ShellRequest.ofMemento k m).kind d m.id (ShellRequest.ofMemento k m).candidates p).1 = .ok o)
    (hkind : o.kind ≠ .catalogItem) (hitem : o.catalogItemId = none) (hfault : o.behaviour.reconstructFault = none)
    (ho : { o with id := m.id, catalogItemId := (ShellRequest.ofMemento k m).item? }.reconstruct known m = .ok o') :
    i.revive known readOnly k m p = .ok o' := by
  have hid : (ShellRequest.ofMemento k m).id = m.id := by cases k <;> rfl
  unfold revive
  rw [ShellRequest.serve_eq, hd, hid]
  unfold makeLoaded make
  dsimp only
  rcases hc : construct (ShellRequest.ofMemento k m).kind d m.id (ShellRequest.ofMemento k m).candidates p with ⟨x, q⟩
  rw [hc] at hmade
  obtain rfl : x = .ok o := hmade
  dsimp only
  obtain ⟨hread, -⟩ := read_finish o m.id (ShellRequest.ofMemento k m).item? q
  rw [hitem, Option.or_none] at hread
  obtain ⟨q', hq', hread'⟩ := Plane.reconstruct_eq_ok readOnly (valid_finish _ _ _ _) (hread ▸ hkind) (hread ▸ hfault)
    (hread ▸ ho)
  rw [hq']
  exact congrArg _ hread'

/-- The factory of a stock type makes the shell that is populated. -/
theorem revive_of_stock (hk : k ≠ .catalogItem)
    (hd : (ShellRequest.ofMemento k m).descriptor i p = .ok (.stock name k))
    (ho : (Object.shellFor k name m).reconstruct known m = .ok o) : i.revive known readOnly k m p = .ok o := by
  have hkind : (Object.blank k m.id name).kind ≠ .catalogItem := by rwa [Object.kind_blank]
  exact revive_of_construct (o := .blank k m.id name) hd rfl hkind rfl rfl ho

/-- An older constructor is called with the first arguments of a shape that it takes. -/
theorem construct_older {shapes : List ConstructorShape} {make : ConstructorArgs → Except ObjectError Object}
    {candidates : List ConstructorArgs} {args : ConstructorArgs} (hrecipe : d.recipe = .legacy shapes make)
    (hargs : candidates.find? (fun args => shapes.contains args.shape) = some args) (id : String) :
    (construct k d id candidates p).1 = make args := by
  unfold construct
  rw [hrecipe]
  dsimp only
  rw [hargs]

/-- Entities can be made from arguments of every shape. -/
theorem exists_entityCandidate {shapes : List ConstructorShape} (hshapes : shapes ≠ []) (id : String) :
    ∃ args, (entityCandidates id).find? (fun args => shapes.contains args.shape) = some args := by
  obtain ⟨shape, hshape⟩ := List.exists_mem_of_ne_nil shapes hshapes
  obtain ⟨args, hargs, rfl⟩ : ∃ args ∈ entityCandidates id, args.shape = shape := by
    cases shape with
    | flags => exact ⟨_, List.mem_cons_self, rfl⟩
    | flagsAndParent => exact ⟨_, List.mem_cons_of_mem _ List.mem_cons_self, rfl⟩
    | parent => exact ⟨.parent none, by simp [entityCandidates], rfl⟩
    | noArgs => exact ⟨.noArgs, by simp [entityCandidates], rfl⟩
  exact Option.isSome_iff_exists.1 (List.find?_isSome.2 ⟨args, hargs, List.contains_iff_mem.2 hshape⟩)

/-- What an older constructor makes, from whatever it is called with, comes to the same. -/
theorem revive_of_older (hold : d.Older name k) (hd : (ShellRequest.ofMemento k m).descriptor i p = .ok d)
    (ho : (Object.shellFor k name m).reconstruct known m = .ok o) : i.revive known readOnly k m p = .ok o := by
  cases hold with
  | @fromFlags _ _ shapes _ hk hrecipe hshapes hmake =>
    obtain ⟨flags, hflags⟩ : ∃ flags, (ShellRequest.ofMemento k m).candidates = [.flags flags] := by
      rcases hk with rfl | rfl | rfl <;> exact ⟨_, rfl⟩
    have hargs : (ShellRequest.ofMemento k m).candidates.find? (fun args => shapes.contains args.shape) =
        some (.flags flags) := by
      rw [hflags]
      exact List.find?_cons_of_pos (p := fun args : ConstructorArgs => shapes.contains args.shape)
        (List.contains_iff_mem.2 hshapes)
    have hkind : (Object.ofFlags k name flags).kind ≠ .catalogItem := by
      rw [Object.kind_ofFlags]
      rcases hk with rfl | rfl | rfl <;> nofun
    rw [← Object.reconstruct_ofFlags hk (hflags ▸ List.mem_singleton.2 rfl)] at ho
    exact revive_of_construct hd ((construct_older hrecipe hargs _).trans (hmake flags)) hkind rfl rfl ho
  | anyEntity hrecipe hshapes hmake =>
    obtain ⟨args, hargs⟩ := exists_entityCandidate hshapes m.id
    obtain ⟨id, hid⟩ := hmake args
    exact revive_of_construct hd ((construct_older hrecipe hargs _).trans hid) nofun rfl rfl ho

/-- A memento whose type has an older constructor only comes out as one whose type has the factory of the stock types. -/
theorem revive_older (hold : d.Older name k) (hd : (ShellRequest.ofMemento k m).descriptor i p = .ok d)
    (hstock : (ShellRequest.ofMemento k m).descriptor i' p' = .ok (.stock name k))
    (known known' : ObjectKind → String → Bool) (readOnly readOnly' : Bool) :
    ∃ o o', i.revive known readOnly k m p = .ok o ∧ i'.revive known' readOnly' k m p' = .ok o' ∧
      o.id = o'.id ∧ o.type = o'.type ∧ o.catalogItemId = o'.catalogItemId ∧ o.displayName = o'.displayName ∧
      o.config = o'.config ∧ o.attributes = o'.attributes ∧ o.config = m.config ∧ (known = known' → o = o') := by
  have hk : k ≠ .catalogItem := by
    rintro rfl
    cases hold with
    | fromFlags hk => rcases hk with hk | hk | hk <;> cases hk
  obtain ⟨o, ho, hface⟩ := Object.presents_of_shellFor hk known name m
  obtain ⟨o', ho', hface'⟩ := Object.presents_of_shellFor hk known' name m
  refine ⟨o, o', revive_of_older hold hd ho, revive_of_stock hk hstock ho', hface.id.trans hface'.id.symm,
    hface.type.trans hface'.type.symm, hface.item.trans hface'.item.symm,
    hface.displayName.trans hface'.displayName.symm, hface.config.trans hface'.config.symm,
    hface.attributes.trans hface'.attributes.symm, hface.config, ?_⟩
  rintro rfl
  exact Except.ok.inj (ho.symm.trans ho')

/-- A type of policies with an older constructor. -/
def olderPolicy : TypeDescriptor where
  name := "t"
  kind := .policy
  recipe := .legacy [.flags] fun args => .ok (.ofFlags .policy "t" (args.flags?.getD ∅))

/-- A policy whose configuration has an entry of its own under the name of every directive. -/
def ambiguousPolicy : Memento where
  id := "p"
  type := "t"
  config := .ofList [("id", .string "other"), ("deferConstructionChecks", .bool false), ("noConstructionInit", .null),
    ("limit", .bool true)]

theorem revive_older_ambiguousPolicy :
    let older : Instantiator := ⟨.register {} olderPolicy, false, {}⟩
    let stock : Instantiator := ⟨.register {} (.stock "t" .policy), false, {}⟩
    let known : ObjectKind → String → Bool := fun _ _ => false
    ∃ o, older.revive known false .policy ambiguousPolicy {} = .ok o ∧
      stock.revive known false .policy ambiguousPolicy {} = .ok o ∧
      o.config = ambiguousPolicy.config ∧ o.config.get? "id" = some (.string "other") := by
  intro older stock known
  have hold : olderPolicy.Older "t" .policy := .fromFlags (.inl rfl) rfl List.mem_cons_self fun _ => rfl
  have hd : (ShellRequest.ofMemento .policy ambiguousPolicy).descriptor older {} = .ok olderPolicy := rfl
  have hstock : (ShellRequest.ofMemento .policy ambiguousPolicy).descriptor stock {} = .ok (.stock "t" .policy) := rfl
  obtain ⟨o, o', ho, ho', -, -, -, -, -, -, hconfig, hsame⟩ := revive_older hold hd hstock known known false false
  obtain rfl := hsame rfl
  exact ⟨o, ho, ho', hconfig, hconfig ▸ rfl⟩

end Instantiator

end ManagementPlane
