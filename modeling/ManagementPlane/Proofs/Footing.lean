import ManagementPlane.Proofs.Showing
import ManagementPlane.Proofs.TwinLookups

/-!
# Passes with the same catalog to start from

Once the catalog is rebuilt, a pass makes shells and populates them. What it makes of a memento depends on the catalog and on
what the pass shows, and not on where its shells lie.

* `Plane.Stocked` : all items of the catalog lie in the heap;
* `Pass.Grounded n b` : the pass `b` has rebuilt its catalog and has made no shells but those of catalog items;
* `Pass.Upon n b p` : the pass has come from `b` to `p` since, and has made and changed shells of other kinds only;
* `Pass.resolves` : what can be referred to, by what is shown;
* `Upon.load`, `Upon.provenance?`, `Upon.known` : types, catalog items and references are looked up as in `b`;
* `Upon.of_heap`, `Upon.join`, `Upon.populate` : what passes do leaves them upon `b`.
-/

namespace ManagementPlane

open Plane (SameItem)

variable {σ : Type}

/-- All items of the catalog lie in the heap. -/
def Plane.Stocked (p : Plane) : Prop := ∀ a ∈ p.catalog.items.values, p.heap.Valid a

namespace Pass

variable {t : Task} {n : Nat} {b p q : Pass σ} {k : ObjectKind} {id : String} {a : Handle} {o : Object}

/-- The pass, which found `n` objects, has only the shells of catalog items, and its catalog lies in the heap. -/
structure Grounded (n : Nat) (b : Pass σ) : Prop where
  sound : b.scratch.Sound n b.plane
  catalog : b.plane.Stocked
  bare : ∀ k id, k ≠ .catalogItem → b.scratch.get? k id = none

/-- Since it was `b`, the pass has made shells of other kinds than catalog items, whose hooks do nothing special, and has
changed no other objects. -/
structure Upon (n : Nat) (b p : Pass σ) : Prop where
  sound : p.scratch.Sound n p.plane
  allReadOnly : p.scratch.allReadOnly = b.scratch.allReadOnly
  items : ∀ id, p.scratch.get? .catalogItem id = b.scratch.get? .catalogItem id
  catalog : p.plane.catalog = b.plane.catalog
  registry : ∀ k, p.plane.registry k = b.plane.registry k
  size_le : b.plane.heap.size ≤ p.plane.heap.size
  read : ∀ a, b.plane.heap.Valid a → p.plane.read a = b.plane.read a
  fresh : ∀ {k id a}, k ≠ .catalogItem → p.scratch.get? k id = some a → ¬b.plane.heap.Valid a
  plain : ∀ {k id o}, k ≠ .catalogItem → p.shelf k id = some o → o.behaviour = {}

/-- What can be referred to in a pass that has come from `b` and shows `v`. -/
def resolves (b : Pass σ) (v : Showing) (k : ObjectKind) (id : String) : Bool :=
  match k with
  | .entity | .location => (v.shelf (k, id)).isSome || ((b.plane.registry k).get? id).isSome
  | .catalogItem => (b.scratch.item? b.plane id).isSome
  | k => (v.shelf (k, id)).isSome

namespace Upon

theorem refl (hb : b.Grounded n) : Upon n b b where
  sound := hb.sound
  allReadOnly := rfl
  items _ := rfl
  catalog := rfl
  registry _ := rfl
  size_le := Nat.le_refl _
  read _ _ := rfl
  fresh hk ha := by
    rw [hb.bare _ _ hk] at ha
    cases ha
  plain hk ho := by
    obtain ⟨a, ha, -⟩ := shelf_eq_some_iff.1 ho
    rw [hb.bare _ _ hk] at ha
    cases ha

/-! ## What is looked up -/

theorem sameItem (hp : Upon n b p) (ha : b.plane.heap.Valid a) : SameItem b.plane p.plane a a :=
  .of_read (hp.read a ha)

section Lookups
variable (hb : b.Grounded n) (hp : Upon n b p)
include hb hp

theorem sameItems : b.plane.SameItems p.plane := by
  unfold Plane.SameItems OrderedMap.Pairs
  rw [hp.catalog, List.forall₂_same]
  exact fun e he => ⟨rfl, hp.sameItem (hb.catalog e.2 (List.mem_map_of_mem he))⟩

theorem rel_item? (id : String) :
    Option.Rel (SameItem b.plane p.plane) (b.scratch.item? b.plane id) (p.scratch.item? p.plane id) := by
  unfold Scratch.item?
  rw [hp.items]
  rcases hg : b.scratch.get? .catalogItem id with _ | a
  · exact (hp.sameItems hb).rel_resolve? id
  · exact .some (hp.sameItem (hb.sound.valid hg))

theorem load (k : ObjectKind) (type : String) (item : Option String) :
    (instantiator t p).load p.plane k type item = (instantiator t b).load b.plane k type item :=
  congrArg (· >>= fun d => Instantiator.checkKind d k)
    ((hp.sameItems hb).find (hp.rel_item? hb) t.types t.settings.inferCatalogItem type item)

theorem provenance? (types : TypeRegistry) (infer : Bool) (entities : OrderedMap String EntitySummary)
    (e : EntitySummary) : p.plane.provenance? types infer entities e = b.plane.provenance? types infer entities e :=
  (hp.sameItems hb).provenance? types infer entities e

theorem known : p.scratch.known p.plane = b.resolves p.showing := by
  have hshell : ∀ k id, (p.shelf k id).isSome = (p.scratch.get? k id).isSome := fun _ _ => Option.isSome_map
  have hfind : ∀ k id, (p.scratch.find? p.plane k id).isSome =
      ((p.shelf k id).isSome || ((b.plane.registry k).get? id).isSome) := fun k id => by
    unfold Scratch.find?
    rw [Option.isSome_or, hp.registry, hshell]
  funext k id
  cases k with
  | entity => exact hfind .entity id
  | location => exact hfind .location id
  | catalogItem =>
    have hrel := hp.rel_item? hb id
    show (p.scratch.item? p.plane id).isSome = (b.scratch.item? b.plane id).isSome
    generalize b.scratch.item? b.plane id = x at hrel
    generalize p.scratch.item? p.plane id = y at hrel
    cases hrel <;> rfl
  | policy => exact (hshell .policy id).symm
  | enricher => exact (hshell .enricher id).symm
  | feed => exact (hshell .feed id).symm

end Lookups

/-! ## What passes do -/

/-- What concerns neither shells nor objects may change. -/
theorem of_heap (hp : Upon n b p) (hscratch : q.scratch = p.scratch) (hheap : q.plane.heap = p.plane.heap)
    (hcatalog : q.plane.catalog = p.plane.catalog) (hregistry : ∀ k, q.plane.registry k = p.plane.registry k) :
    Upon n b q := by
  have hread : ∀ a, q.plane.read a = p.plane.read a := fun a => congrArg (Heap.read · a) hheap
  exact {
    sound := hscratch ▸ hp.sound.of_heap hheap
    allReadOnly := hscratch ▸ hp.allReadOnly
    items := hscratch ▸ hp.items
    catalog := hcatalog.trans hp.catalog
    registry := fun k => (hregistry k).trans (hp.registry k)
    size_le := hheap ▸ hp.size_le
    read := fun a ha => (hread a).trans (hp.read a ha)
    fresh := hscratch ▸ hp.fresh
    plain := fun hk ho => by
      unfold shelf at ho
      rw [hscratch, funext hread] at ho
      exact hp.plain hk ho }

/-- A new shell joins the pass. -/
theorem join (hp : Upon n b p) (hk : k ≠ .catalogItem) {name : String} {item : Option String} {plane : Plane}
    (hheap : plane.heap = p.plane.heap.alloc { Object.blank k id name with
      id, catalogItemId := item.or (Object.blank k id name).catalogItemId })
    (hcatalog : plane.catalog = p.plane.catalog) (hregistry : ∀ k, plane.registry k = p.plane.registry k)
    (hsound : (Pass.join p.plane.heap.next { p with plane }).scratch.Sound n
      (Pass.join p.plane.heap.next { p with plane }).plane) :
    Upon n b (Pass.join p.plane.heap.next { p with plane }) := by
  have hregister := Scratch.extends_register (n := 0) (h := p.plane.heap.next) (Nat.zero_le _) p.scratch plane
  have hkind := Object.kind_blank k id name
  exact {
    sound := hsound
    allReadOnly := (Scratch.allReadOnly_register p.scratch plane _).trans hp.allReadOnly
    items := fun i => by
      rw [get?_join hheap, hkind, if_neg fun hc => hk hc.1]
      exact hp.items i
    catalog := by
      have hcat : (p.scratch.register plane p.plane.heap.next).2.catalog = plane.catalog := by
        unfold Scratch.register
        split <;> rfl
      exact hcat.trans (hcatalog.trans hp.catalog)
    registry := fun j => (hregister.registry j).trans ((hregistry j).trans (hp.registry j))
    size_le := by
      refine Nat.le_trans (Nat.le_succ_of_le hp.size_le) (Nat.le_trans (Nat.le_of_eq ?_) hregister.size_le)
      rw [hheap]
      rfl
    read := fun a ha => by
      have hold : p.plane.heap.Valid a := Nat.lt_of_lt_of_le ha hp.size_le
      rw [read_join hheap, if_neg hold.ne_next]
      exact hp.read a ha
    fresh := fun hj ha => by
      rw [get?_join hheap] at ha
      split at ha
      · obtain rfl := Option.some.inj ha
        exact fun hv => Nat.lt_irrefl _ (Nat.lt_of_lt_of_le hv hp.size_le)
      · exact hp.fresh hj ha
    plain := fun hj ho => by
      rw [shelf_make hheap hp.sound] at ho
      split at ho
      · obtain rfl := Option.some.inj ho
        rfl
      · exact hp.plain hj ho }

/-- A shell is populated. -/
theorem populate (hp : Upon n b p) (hk : k ≠ .catalogItem) (ha : p.scratch.get? k id = some a) {m : Memento}
    {known : ObjectKind → String → Bool} (ho : (p.plane.read a).reconstruct known m = .ok o) (readOnly : Bool) :
    Upon n b { p with plane := (p.plane.recordHook a (.reconstruct m.id readOnly)).modify a fun _ => o } := by
  have hvalid : (p.plane.recordHook a (.reconstruct m.id readOnly)).heap.Valid a := hp.sound.valid ha
  have hcall : Plane.Extends n p.plane (p.plane.recordHook a (.reconstruct m.id readOnly)) :=
    .recordHook a (fun _ => nofun) fun _ => nofun
  have hchange := hcall.trans (.modify (hp.sound.fresh ha) (f := fun _ => o) (Object.sameIdentity_of_reconstruct ho))
  refine ⟨hp.sound.extend hchange, hp.allReadOnly, hp.items, hp.catalog, hp.registry, hp.size_le, fun d hd => ?_, hp.fresh,
    fun {j i d} hj hd => ?_⟩
  · have hne : a ≠ d := by
      rintro rfl
      exact hp.fresh hk ha hd
    exact (Plane.read_modify_of_ne _ hne _).trans (hp.read d hd)
  · obtain ⟨e, he, rfl⟩ := shelf_eq_some_iff.1 hd
    by_cases hea : a = e
    · subst hea
      show (Plane.read (Plane.modify _ a _) a).behaviour = _
      rw [Plane.read_modify_self _ hvalid, Object.behaviour_of_reconstruct ho]
      exact hp.plain hk (shelf_eq_some_iff.2 ⟨a, ha, rfl⟩)
    · show (Plane.read (Plane.modify _ a _) e).behaviour = _
      rw [Plane.read_modify_of_ne _ hea]
      exact hp.plain hj (shelf_eq_some_iff.2 ⟨e, he, rfl⟩)

end Upon

end Pass

end ManagementPlane
