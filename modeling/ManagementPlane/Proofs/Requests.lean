import ManagementPlane.Proofs.CreationFailures

/-!
# What an instantiator hands out

A shell that has been made is filed among the shells of its pass under the kind of the object itself, while it was asked
for as an object of the kind that its type declares.

* `ShellRequest.serve` : the answer of an instantiator to a request;
* `ShellRequest.HandsOut k shell q` : the shell is what was asked for, as an object of kind `k`;
* `ShellRequest.handsOut_iff` : it always is one of the kind that the type made, and of the kind that was asked for
  exactly if these are the same;
* `ShellRequest.handsOut_of_keepsKinds` : so it is if every type makes objects of the kind it declares.
-/

namespace ManagementPlane

/-! ## New shells -/

theorem Plane.isPreManaged_preManage (p : Plane) (h : Handle) :
    (p.preManage h).isPreManaged (p.read h).kind (p.read h).id = true := by
  unfold preManage
  dsimp only
  split
  · next hwaits => exact hwaits
  · exact List.contains_iff_mem.2 (List.mem_append_right _ List.mem_cons_self)

/-- A new object has been given its id and catalog item, and waits to be managed as what it is. -/
theorem Instantiator.read_finish (o : Object) (id : String) (item : Option String) (p : Plane) :
    (finish o id item p).2.read (finish o id item p).1 = { o with id, catalogItemId := item.or o.catalogItemId } ∧
      (finish o id item p).2.isPreManaged o.kind id = true := by
  let o' : Object := { o with id, catalogItemId := item.or o.catalogItemId }
  have hread : (p.adopt o').2.read (p.adopt o').1 = o' := p.read_adopt_self o'
  have hwaits := (p.adopt o').2.isPreManaged_preManage (p.adopt o').1
  rw [hread] at hwaits
  refine ⟨?_, hwaits⟩
  rw [Plane.read, heap_finish]
  exact hread

/-! ## Answers -/

namespace ShellRequest

/-- Answer a request. -/
def serve (i : Instantiator) (p : Plane) : ShellRequest → Except ObjectError Handle × Plane
  | entity id type item => i.newEntity id type item p
  | location id type => i.newLocation id type p
  | adjunct k m => i.newAdjunct k m p
  | catalogItem item => i.newCatalogItem item p

variable {i : Instantiator} {p q : Plane} {r : ShellRequest} {shell : Handle} {d : TypeDescriptor} {o : Object}

theorem serve_eq (i : Instantiator) (p : Plane) (r : ShellRequest) :
    r.serve i p = Instantiator.makeLoaded r.kind (r.descriptor i p) r.id r.item? r.candidates p := by
  cases r <;> rfl

/-- The shell is what was asked for, as an object of kind `k`: it has the id and the catalog item, waits to be managed, is
found among any shells that it joins, and takes the place of no other. -/
structure HandsOut (r : ShellRequest) (k : ObjectKind) (shell : Handle) (q : Plane) : Prop where
  kind : (q.read shell).kind = k
  id : (q.read shell).id = r.id
  item : ∀ item, r.item? = some item → (q.read shell).catalogItemId = some item
  preManaged : q.isPreManaged k r.id = true
  found : ∀ s : Scratch, (s.register q shell).1.get? k r.id = some shell
  others : ∀ (s : Scratch) k' id', (k', id') ≠ (k, r.id) → (s.register q shell).1.get? k' id' = s.get? k' id'

/-- What is handed out is what was asked for, as an object of its own kind. -/
theorem HandsOut.of_read (hread : q.read shell = { o with id := r.id, catalogItemId := r.item?.or o.catalogItemId })
    (hwaits : q.isPreManaged o.kind r.id = true) : r.HandsOut o.kind shell q := by
  have hkind : (q.read shell).kind = o.kind := by rw [hread]; rfl
  have hid : (q.read shell).id = r.id := by rw [hread]
  refine ⟨hkind, hid, fun item hitem => ?_, hwaits, fun s => ?_, fun s k' id' hne => ?_⟩
  · rw [hread, hitem]
    rfl
  · rw [Scratch.get?_register, if_pos ⟨hkind, hid⟩]
  · rw [Scratch.get?_register, if_neg]
    rintro ⟨rfl, rfl⟩
    exact hne (Prod.ext hkind hid)

/-- A shell is handed out once the constructor of its type has made it. -/
theorem made_of_serve (h : r.serve i p = (.ok shell, q)) : ∃ d o, r.descriptor i p = .ok d ∧
    (Instantiator.construct r.kind d r.id r.candidates p).1 = .ok o ∧ r.HandsOut o.kind shell q := by
  rw [serve_eq] at h
  obtain ⟨d, o, p', hd, hc, hfinish⟩ := Instantiator.exists_of_makeLoaded h
  obtain ⟨hread, hwaits⟩ := Instantiator.read_finish o r.id r.item? p'
  rw [hfinish] at hread hwaits
  exact ⟨d, o, hd, congrArg Prod.fst hc, .of_read hread hwaits⟩

/-- A shell that is handed out is what was asked for, as an object of the kind that its type made. It is of the kind that
was asked for exactly if the type made what it declares. -/
theorem handsOut_iff (h : r.serve i p = (.ok shell, q)) :
    ∃ d o, r.descriptor i p = .ok d ∧ d.kind = r.kind ∧
      (Instantiator.construct r.kind d r.id r.candidates p).1 = .ok o ∧ r.HandsOut o.kind shell q ∧
      (r.HandsOut r.kind shell q ↔ o.kind = d.kind) := by
  obtain ⟨d, o, hd, hmade, hout⟩ := made_of_serve h
  have hdeclared := (has_of_descriptor hd).2
  refine ⟨d, o, hd, hdeclared, hmade, hout, fun hasked => ?_, fun hkeeps => ?_⟩
  · rw [← hout.kind, hasked.kind, hdeclared]
  · rwa [← hdeclared, ← hkeeps]

/-- An application that comes from an item of the catalog. -/
def itemApp : ShellRequest := .entity "app" "t" (some "db:1.0")

theorem handsOut_iff_itemApp :
    let i : Instantiator := ⟨.register {} (.stock "t" .entity), false, {}⟩
    ∃ q, itemApp.serve i (.addItem {} (.new "db" "1.0" "t")) = (.ok ⟨1⟩, q) ∧ itemApp.HandsOut .entity ⟨1⟩ q := by
  intro i
  refine ⟨_, rfl, ?_⟩
  obtain ⟨d, o, hd, -, hmade, -, hasked⟩ :=
    handsOut_iff (i := i) (p := .addItem {} (.new "db" "1.0" "t")) (r := itemApp) rfl
  obtain rfl : .stock "t" .entity = d := Except.ok.inj hd
  obtain rfl : .blank .entity "app" "t" = o := Except.ok.inj hmade
  exact hasked.2 rfl

/-- A type of policies that makes entities. -/
def mislabeled : TypeDescriptor := .watched "m" .policy .entity {} none none

/-- A policy that is asked for is handed out as an entity, and takes the place of an entity of its id. -/
theorem policy_takes_place_of_entity :
    let types := TypeRegistry.register (.register {} (.stock "t" .entity)) mislabeled
    let policy : ShellRequest := .adjunct .policy { id := "x", type := "m" }
    ∃ a p b q, (entity "x" "t" none).serve ⟨types, false, {}⟩ {} = (.ok a, p) ∧
      let s := (Scratch.register {} p a).1
      policy.serve ⟨types, false, s⟩ p = (.ok b, q) ∧ ¬ policy.HandsOut .policy b q ∧
        s.get? .entity "x" = some a ∧ (s.register q b).1.get? .entity "x" = some b ∧ a ≠ b ∧
        (s.register q b).1.get? .policy "x" = none := by
  refine ⟨⟨0⟩, _, ⟨1⟩, _, rfl, rfl, fun h => ?_, by decide +kernel, by decide +kernel, by decide, by decide +kernel⟩
  exact absurd h.preManaged (by decide +kernel)

/-- Where types make what they declare, shells are of the kind that was asked for. -/
theorem handsOut_of_keepsKinds (hkeeps : i.types.KeepsKinds) (h : r.serve i p = (.ok shell, q)) :
    r.HandsOut r.kind shell q := by
  obtain ⟨d, o, hd, hmade, hout⟩ := made_of_serve h
  obtain ⟨hhas, hdeclared⟩ := has_of_descriptor hd
  rw [← hdeclared, ← hkeeps d hhas o ⟨r, p, hdeclared.symm, hmade⟩]
  exact hout

end ShellRequest

end ManagementPlane
