import ManagementPlane.Pass.Run
import ManagementPlane.Proofs.Shells

/-!
# What types make

* `TypeRegistry.Has` : the types that can be loaded;
* `ShellRequest` : what may be asked of an instantiator, and `Instantiator.Asked` : what it looks up then;
* `TypeDescriptor.Makes` : an object that a type makes on such a request;
* `TypeRegistry.KeepsKinds`, `TypeRegistry.Gives` : types make objects of the kind they declare; the adjuncts that come
  with what they make;
* `Object.Isolated` : an object that names no other;
* `TypeRegistry.MakesIsolated` : every type makes such objects, as a shell should be; the stock types do;
* `Instantiator.heap_of_makeLoaded`, `Instantiator.shell_of_makeLoaded` : what a new shell is made of, and that nothing
  else changes.
-/

namespace ManagementPlane

/-! ## Types that can be loaded -/

/-- A type that loads from anywhere or through some bundle. -/
inductive TypeRegistry.Has (r : TypeRegistry) (d : TypeDescriptor) : Prop
  | classpath {name : String} (h : r.classpath.get? name = some d)
  | bundle {bundle name : String} {table : OrderedMap String TypeDescriptor}
      (hb : r.bundles.get? bundle = some table) (h : table.get? name = some d)

theorem LoadingContext.has_of_load? {c : LoadingContext} {r : TypeRegistry} {type : String}
    {d : TypeDescriptor} (h : c.load? r type = some d) : r.Has d := by
  unfold LoadingContext.load? at h
  rcases Option.or_eq_some_iff.1 h with h | ⟨-, h⟩
  · obtain ⟨table, hmem, h⟩ := List.exists_of_findSome?_eq_some h
    obtain ⟨bundle, -, hb⟩ := List.mem_filterMap.1 hmem
    exact .bundle hb h
  · exact .classpath h

theorem Instantiator.has_of_find {i : Instantiator} {p : Plane} {type : String} {item : Option String}
    {d : TypeDescriptor} (h : i.find p type item = .ok d) : i.types.Has d := by
  unfold Instantiator.find at h
  cases item with
  | some id =>
    rcases hi : i.scratch.item? p id with _ | item
    · simp only [hi, reduceCtorEq] at h
    · simp only [hi] at h
      split at h
      · next hd => exact (Except.ok.inj h) ▸ LoadingContext.has_of_load? hd
      · cases h
  | none =>
    simp only at h
    split at h
    · next hd => exact (Except.ok.inj h) ▸ LoadingContext.has_of_load? hd
    · split at h
      · cases h
      · split at h
        · next hd =>
          obtain ⟨item, -, hd⟩ := List.exists_of_findSome?_eq_some hd
          exact (Except.ok.inj h) ▸ LoadingContext.has_of_load? hd
        · cases h

theorem Instantiator.has_of_checkKind {r : TypeRegistry} {d d' : TypeDescriptor} {k : ObjectKind}
    (h : checkKind d k = .ok d') (hd : r.Has d) : r.Has d' := by
  unfold checkKind at h
  split at h
  · exact (Except.ok.inj h) ▸ hd
  · cases h

theorem Instantiator.has_of_load {i : Instantiator} {p : Plane} {k : ObjectKind} {type : String}
    {item : Option String} {d : TypeDescriptor} (h : i.load p k type item = .ok d) : i.types.Has d := by
  unfold Instantiator.load at h
  rcases hf : i.find p type item with e | d₀
  · rw [hf] at h
    cases h
  · rw [hf] at h
    exact has_of_checkKind h (has_of_find hf)

theorem Instantiator.kind_of_checkKind {d d' : TypeDescriptor} {k : ObjectKind} (h : checkKind d k = .ok d') :
    d'.kind = k := by
  unfold checkKind at h
  split at h
  · next hk => exact (Except.ok.inj h) ▸ hk
  · cases h

theorem Instantiator.kind_of_load {i : Instantiator} {p : Plane} {k : ObjectKind} {type : String}
    {item : Option String} {d : TypeDescriptor} (h : i.load p k type item = .ok d) : d.kind = k := by
  unfold load at h
  rcases hf : i.find p type item with e | d₀ <;> rw [hf] at h
  · cases h
  · exact kind_of_checkKind h

/-! ## Requests -/

/-- What may be asked of an instantiator. -/
inductive ShellRequest where
  | entity (id type : String) (item : Option String)
  | location (id type : String)
  | adjunct (kind : ObjectKind) (m : Memento)
  | catalogItem (item : CatalogItem)

namespace ShellRequest

/-- The kind that is asked for. -/
def kind : ShellRequest → ObjectKind
  | entity .. => .entity
  | location .. => .location
  | adjunct k _ => k
  | catalogItem _ => .catalogItem

/-- The id that is asked for. -/
def id : ShellRequest → String
  | entity id _ _ | location id _ => id
  | adjunct _ m => m.id
  | catalogItem item => item.id

/-- The catalog item that the shell comes from, if it is given. -/
def item? : ShellRequest → Option String
  | entity _ _ item => item
  | adjunct _ m => m.catalogItemId
  | _ => none

/-- What an older constructor can be given. -/
def candidates : ShellRequest → List ConstructorArgs
  | entity id _ _ => Instantiator.entityCandidates id
  | location id _ => Instantiator.locationCandidates id
  | adjunct k m => Instantiator.adjunctCandidates k m
  | catalogItem _ => [.noArgs]

/-- The type of the shell. -/
def descriptor (i : Instantiator) (p : Plane) : ShellRequest → Except ObjectError TypeDescriptor
  | entity _ type item => i.load p .entity type item
  | location _ type => i.load p .location type none
  | adjunct k m => i.load p k m.type m.catalogItemId
  | catalogItem item =>
    match LoadingContext.classpath.load? i.types item.type with
    | some d => Instantiator.checkKind d .catalogItem
    | none => .error (.typeNotFound item.type none)

variable {i : Instantiator} {p : Plane} {r : ShellRequest} {d : TypeDescriptor}

/-- The type can be loaded, and declares the kind that is asked for. -/
theorem has_of_descriptor (h : r.descriptor i p = .ok d) : i.types.Has d ∧ d.kind = r.kind := by
  cases r with
  | entity id type item => exact ⟨Instantiator.has_of_load h, Instantiator.kind_of_load h⟩
  | location id type => exact ⟨Instantiator.has_of_load h, Instantiator.kind_of_load h⟩
  | adjunct k m => exact ⟨Instantiator.has_of_load h, Instantiator.kind_of_load h⟩
  | catalogItem item =>
    unfold descriptor at h
    dsimp only at h
    split at h
    · next hl =>
      exact ⟨Instantiator.has_of_checkKind h (LoadingContext.has_of_load? hl), Instantiator.kind_of_checkKind h⟩
    · cases h

end ShellRequest

/-- What an instantiator has looked up when a shell of kind `k` is asked for under an id: a type that can be loaded and
declares the kind, or why there is none, and what an older constructor can be given. -/
structure Instantiator.Asked (types : TypeRegistry) (k : ObjectKind) (id : String) (candidates : List ConstructorArgs)
    (d : Except ObjectError TypeDescriptor) : Prop where
  type : ∀ d', d = .ok d' → types.Has d' ∧ d'.kind = k
  request : ∃ r : ShellRequest, r.kind = k ∧ r.id = id ∧ r.candidates = candidates

theorem ShellRequest.asked (r : ShellRequest) (i : Instantiator) (p : Plane) :
    Instantiator.Asked i.types r.kind r.id r.candidates (r.descriptor i p) :=
  ⟨fun _ => has_of_descriptor, r, rfl, rfl, rfl⟩

/-! ## What a type makes -/

/-- An object that a type makes when a shell is asked for. -/
def TypeDescriptor.Makes (d : TypeDescriptor) (o : Object) : Prop :=
  ∃ (r : ShellRequest) (p : Plane),
    r.kind = d.kind ∧ (Instantiator.construct r.kind d r.id r.candidates p).1 = .ok o

/-- What a factory makes it makes of an id. -/
theorem TypeDescriptor.Makes.exists_id {name : String} {k : ObjectKind} {audited : Bool}
    {make : ShellSpec → Except ObjectError Object} {o : Object}
    (h : ({ name, kind := k, audited, recipe := .canonical make } : TypeDescriptor).Makes o) :
    ∃ id, make ⟨id, name⟩ = .ok o := by
  obtain ⟨r, p, -, hmake⟩ := h
  exact ⟨r.id, hmake⟩

/-- A stock type makes blank objects. -/
theorem TypeDescriptor.Makes.exists_blank {name : String} {k : ObjectKind} {o : Object}
    (h : (stock name k).Makes o) : ∃ id, o = .blank k id name := by
  obtain ⟨id, hmake⟩ := h.exists_id
  exact ⟨id, (Except.ok.inj hmake).symm⟩

/-! ## What a type should make -/

/-- Types make objects of the kind they declare. -/
def TypeRegistry.KeepsKinds (r : TypeRegistry) : Prop := ∀ d, r.Has d → ∀ o, d.Makes o → o.kind = d.kind

/-- The object has the adjunct among its own. -/
def Object.Holds (o : Object) (b : Handle) : Prop := ∃ k, b ∈ o.adjuncts k

/-- Some type makes objects that come with this adjunct. -/
def TypeRegistry.Gives (r : TypeRegistry) (b : Handle) : Prop := ∃ d o, r.Has d ∧ d.Makes o ∧ o.Holds b

/-- No type makes objects that come with adjuncts. -/
def TypeRegistry.GivesNone (r : TypeRegistry) : Prop := ∀ b, ¬r.Gives b

theorem TypeRegistry.GivesNone.adjuncts {r : TypeRegistry} (hr : r.GivesNone) {d : TypeDescriptor} (hd : r.Has d)
    {o : Object} (ho : d.Makes o) (k : ObjectKind) : o.adjuncts k = [] :=
  List.eq_nil_iff_forall_not_mem.2 fun b hb => hr b ⟨d, o, hd, ho, k, hb⟩

/-! ## Shells that name no other object -/

/-- An object that names no other. -/
structure Object.Isolated (o : Object) : Prop where
  parent : o.parent = none
  children : o.children = []
  locations : o.locations = []
  adjuncts : ∀ k, o.adjuncts k = []

/-- Everything that a type makes is isolated. -/
def TypeDescriptor.MakesIsolated (d : TypeDescriptor) : Prop := ∀ o, d.Makes o → o.Isolated

/-- Everything that the types make is isolated. -/
def TypeRegistry.MakesIsolated (r : TypeRegistry) : Prop := ∀ d, r.Has d → d.MakesIsolated

theorem Object.isolated_blank (k : ObjectKind) (id type : String) : (blank k id type).Isolated := by
  cases k <;> exact ⟨rfl, rfl, rfl, fun k => by cases k <;> rfl⟩

theorem TypeDescriptor.makesIsolated_stock (name : String) (k : ObjectKind) :
    (stock name k).MakesIsolated := by
  intro o ho
  obtain ⟨id, rfl⟩ := ho.exists_blank
  exact Object.isolated_blank k _ _

namespace TypeRegistry

/-- The types that can be loaded once a type has been registered. -/
theorem has_register {r : TypeRegistry} {d d' : TypeDescriptor} (h : (r.register d).Has d') :
    d' = d ∨ r.Has d' := by
  rcases h with h | ⟨hb, h⟩
  · unfold TypeRegistry.register at h
    rw [OrderedMap.get?_insert] at h
    split at h
    · exact Or.inl (Option.some.inj h).symm
    · exact Or.inr (.classpath h)
  · exact Or.inr (.bundle hb h)

/-- Only stock types can be loaded from the registry of the stock types. -/
theorem exists_eq_of_has_stock {d : TypeDescriptor} (h : TypeRegistry.stock.Has d) :
    ∃ name k, d = .stock name k := by
  have hall : ∀ (l : List (String × ObjectKind)) (r : TypeRegistry), (∀ d, r.Has d → ∃ name k, d = .stock name k) →
      ∀ d, (l.foldl (fun r t => r.register (.stock t.1 t.2)) r).Has d → ∃ name k, d = .stock name k := by
    intro l
    induction l with
    | nil => exact fun _ hr => hr
    | cons t l ih =>
      intro r hr
      refine ih _ fun d hd => ?_
      rcases has_register hd with rfl | hd
      · exact ⟨t.1, t.2, rfl⟩
      · exact hr d hd
  refine hall _ {} (fun d hd => ?_) d h
  rcases hd with h | ⟨hb, -⟩
  · cases h
  · cases hb

theorem makesIsolated_stock : TypeRegistry.stock.MakesIsolated := by
  intro d hd
  obtain ⟨name, k, rfl⟩ := exists_eq_of_has_stock hd
  exact TypeDescriptor.makesIsolated_stock name k

theorem KeepsKinds.register {r : TypeRegistry} {d : TypeDescriptor} (hr : r.KeepsKinds)
    (hd : ∀ o, d.Makes o → o.kind = d.kind) : (r.register d).KeepsKinds := by
  intro d' hd'
  rcases has_register hd' with rfl | hd'
  · exact hd
  · exact hr d' hd'

theorem MakesIsolated.givesNone {r : TypeRegistry} (hr : r.MakesIsolated) : r.GivesNone := by
  rintro b ⟨d, o, hd, ho, k, hb⟩
  rw [(hr d hd o ho).adjuncts k] at hb
  cases hb

theorem GivesNone.register {r : TypeRegistry} {d : TypeDescriptor} (hr : r.GivesNone)
    (hd : ∀ o, d.Makes o → ∀ k, o.adjuncts k = []) : (r.register d).GivesNone := by
  rintro b ⟨d', o, hd', ho, k, hb⟩
  rcases has_register hd' with rfl | hd'
  · rw [hd o ho k] at hb
    cases hb
  · exact hr b ⟨d', o, hd', ho, k, hb⟩

theorem keepsKinds_stock : TypeRegistry.stock.KeepsKinds := by
  intro d hd o ho
  obtain ⟨name, k, rfl⟩ := exists_eq_of_has_stock hd
  obtain ⟨id, rfl⟩ := ho.exists_blank
  cases k <;> rfl

end TypeRegistry

/-! ## New shells -/

namespace Instantiator

theorem makes_of_construct {types : TypeRegistry} {k : ObjectKind} {d : TypeDescriptor} {id : String}
    {candidates : List ConstructorArgs} {p q : Plane} {o : Object} (hask : Asked types k id candidates (.ok d))
    (h : construct k d id candidates p = (.ok o, q)) : d.Makes o := by
  obtain ⟨r, hkind, rfl, rfl⟩ := hask.request
  have hk : d.kind = k := (hask.type d rfl).2
  subst hkind
  exact ⟨r, p, hk.symm, congrArg Prod.fst h⟩

theorem heap_finish (o : Object) (id : String) (item : Option String) (p : Plane) : (finish o id item p).2.heap =
    p.heap.alloc { o with id, catalogItemId := item.or o.catalogItemId } := Plane.heap_preManage _ _

section Made
variable {types : TypeRegistry} {k : ObjectKind} {d : Except ObjectError TypeDescriptor} {id : String}
  {item : Option String} {candidates : List ConstructorArgs} {p q : Plane} {shell : Handle}

/-- A shell has been made by finishing what its type constructs. -/
theorem exists_of_makeLoaded (h : makeLoaded k d id item candidates p = (.ok shell, q)) :
    ∃ d' o r, d = .ok d' ∧ construct k d' id candidates p = (.ok o, r) ∧ finish o id item r = (shell, q) := by
  cases d with
  | error e => cases h
  | ok d =>
    unfold makeLoaded at h
    dsimp only at h
    unfold make at h
    rcases hc : construct k d id candidates p with ⟨e | o, r⟩ <;> rw [hc] at h
    · cases h
    · obtain ⟨he, rfl⟩ := Prod.mk.inj h
      obtain rfl := Except.ok.inj he
      exact ⟨d, o, r, rfl, hc, rfl⟩

/-- A new shell lies behind all objects there are, and is what its type makes. -/
theorem heap_of_makeLoaded (hask : Asked types k id candidates d)
    (h : makeLoaded k d id item candidates p = (.ok shell, q)) :
    ∃ d' o, d = .ok d' ∧ d'.Makes o ∧ shell = p.heap.next ∧
      q.heap = p.heap.alloc { o with id, catalogItemId := item.or o.catalogItemId } := by
  obtain ⟨d', o, r, hd, hc, hfinish⟩ := exists_of_makeLoaded h
  have hheap : r.heap = p.heap := (congrArg (Plane.heap ·.2) hc).symm.trans (extends_construct 0 k d' id candidates p).2
  obtain ⟨rfl, rfl⟩ := Prod.mk.inj hfinish
  refine ⟨d', o, hd, makes_of_construct (hd ▸ hask) hc, congrArg Heap.next hheap, ?_⟩
  exact (heap_finish o id item r).trans (congrArg (Heap.alloc · _) hheap)

/-- A shell is what its type makes, under its id, and making it changes no other object. -/
theorem shell_of_makeLoaded (hask : Asked types k id candidates d)
    (h : makeLoaded k d id item candidates p = (.ok shell, q)) :
    (∃ d' o, d = .ok d' ∧ d'.Makes o ∧
        q.read shell = { o with id, catalogItemId := item.or o.catalogItemId }) ∧
      ∀ a, p.heap.Valid a → q.read a = p.read a := by
  obtain ⟨d', o, hd, hmakes, rfl, hheap⟩ := heap_of_makeLoaded hask h
  refine ⟨⟨d', o, hd, hmakes, ?_⟩, fun a ha => ?_⟩
  · rw [Plane.read, hheap, Heap.read_alloc, if_pos rfl]
  · rw [Plane.read, hheap, Heap.read_alloc, if_neg ha.ne_next, Plane.read]

end Made

theorem read_of_makeLoaded_error {k : ObjectKind} {d : Except ObjectError TypeDescriptor} {id : String}
    {item : Option String} {candidates : List ConstructorArgs} {p q : Plane} {e : ObjectError}
    (h : makeLoaded k d id item candidates p = (.error e, q)) : q.heap = p.heap := by
  cases d with
  | error e =>
    obtain ⟨-, rfl⟩ := Prod.mk.inj h
    rfl
  | ok d =>
    unfold makeLoaded at h
    dsimp only at h
    unfold make at h
    have hheap := (extends_construct 0 k d id candidates p).2
    rcases hc : construct k d id candidates p with ⟨e | o, r⟩ <;> rw [hc] at h hheap
    · obtain ⟨-, rfl⟩ := Prod.mk.inj h
      exact hheap
    · cases (Prod.mk.inj h).1

end Instantiator

namespace Pass

/-- Making objects for the catalog changes no other object. -/
theorem read_adoptAll (objects : List Object) {p : Plane} {a : Handle} (ha : p.heap.Valid a) :
    (adoptAll objects p).2.read a = p.read a := by
  induction objects generalizing p with
  | nil => rfl
  | cons o r ih => exact (ih (p := (p.adopt o).2) (Nat.lt_succ_of_lt ha)).trans (Plane.read_adopt_of_valid ha o)

/-! ## Shells that join a pass -/

section Made
variable {σ : Type} {p : Pass σ} {made : Object} {id : String} {item : Option String} {plane : Plane}
  (hheap : plane.heap = p.plane.heap.alloc { made with id, catalogItemId := item.or made.catalogItemId })
include hheap

theorem valid_made : plane.heap.Valid p.plane.heap.next := by
  rw [hheap]
  exact Nat.lt_succ_self _

theorem read_made (b : Handle) : plane.read b =
    if b = p.plane.heap.next then { made with id, catalogItemId := item.or made.catalogItemId } else p.plane.read b := by
  rw [Plane.read, hheap, Heap.read_alloc]
  rfl

theorem get?_join (j : ObjectKind) (i : String) : (join p.plane.heap.next { p with plane }).scratch.get? j i =
    if made.kind = j ∧ id = i then some p.plane.heap.next else p.scratch.get? j i := by
  refine (Scratch.get?_register p.scratch plane p.plane.heap.next j i).trans ?_
  rw [read_made hheap, if_pos rfl]
  rfl

end Made

end Pass

end ManagementPlane
