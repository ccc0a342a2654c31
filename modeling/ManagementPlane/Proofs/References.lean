import ManagementPlane.Proofs.Populating

/-!
# References among what is under management

* `Plane.ReferencesHold` : parents and locations of what is under management are under management;
* `TypeRegistry.MakesPlain` : every type makes objects that name no other and can be populated, as the stock types do;
* `Pass.MadeFrom` : a shell without a memento holds what its type makes;
* `Completed.references_of_memento` : a shell with a memento refers to what its memento refers to, as far as the pass
  knows it;
* `Manager.referencesHold_iff` : when references hold after a pass;
* `Manager.dropped_location_is_referred_to` : a pass may drop the location of an entity that it makes.
-/

namespace ManagementPlane

variable {σ : Type}

/-! ## References -/

/-- What an object of kind `k` refers to by its parent, an object of its own kind, and by the locations of an entity. -/
def ObjectKind.references (k : ObjectKind) (parent : Option String) (locations : List String) :
    List (ObjectKind × String) :=
  parent.toList.map (k, ·) ++ if k = .entity then locations.map (.location, ·) else []

def Object.references (k : ObjectKind) (o : Object) : List (ObjectKind × String) :=
  k.references o.parent o.locations

def Memento.references (k : ObjectKind) (m : Memento) : List (ObjectKind × String) :=
  k.references m.parent m.locations

theorem ObjectKind.references_filter (k : ObjectKind) (known : ObjectKind → String → Bool) (parent : Option String)
    (locations : List String) : k.references (parent.filter (known k)) (locations.filter (known .location)) =
      (k.references parent locations).filter fun r => known r.1 r.2 := by
  have hparent : (parent.filter (known k)).toList.map (k, ·) =
      (parent.toList.map (k, ·)).filter fun r => known r.1 r.2 := by
    cases parent with
    | none => rfl
    | some id => cases hid : known k id <;> simp [hid]
  unfold references
  rw [List.filter_append, hparent]
  congr 1
  split
  · rw [List.filter_map]
    rfl
  · rfl

/-- Objects refer to what locations and entities can be. -/
theorem ObjectKind.registered_of_mem_references {k : ObjectKind} (hk : k.Registered) {parent : Option String}
    {locations : List String} {r : ObjectKind × String} (hr : r ∈ k.references parent locations) :
    r.1.Registered := by
  rcases List.mem_append.1 hr with hparent | hlocation
  · obtain ⟨id, -, rfl⟩ := List.mem_map.1 hparent
    exact hk
  · split at hlocation
    · obtain ⟨id, -, rfl⟩ := List.mem_map.1 hlocation
      exact Or.inl rfl
    · cases hlocation

theorem Object.references_congr {k : ObjectKind} {o o' : Object} (h : o'.content = o.content) :
    o'.references k = o.references k := by
  have hparent : o'.parent = o.parent := congrArg Content.parent h
  have hlocations : o'.locations = o.locations := congrArg Content.locations h
  unfold references
  rw [hparent, hlocations]

theorem Object.Isolated.references {k : ObjectKind} {o : Object} (h : o.Isolated) : o.references k = [] := by
  unfold Object.references ObjectKind.references
  rw [h.parent, h.locations]
  simp

/-- An object that shows a memento refers to what is known of that which the memento refers to. -/
theorem Object.Shows.references {known : ObjectKind → String → Bool} {m : Memento} {o : Object} {k : ObjectKind}
    (h : o.Shows known m) (hk : o.kind = k) :
    o.references k = (m.references k).filter fun r => known r.1 r.2 := by
  subst hk
  unfold Object.references Memento.references
  rw [← ObjectKind.references_filter, h.parent]
  by_cases he : o.kind = .entity
  · rw [h.locations he]
  · unfold ObjectKind.references
    rw [if_neg he, if_neg he]

/-- The parents of entities are entities under management, those of locations are locations under management, and so are
the locations of entities. -/
structure Plane.ReferencesHold (p : Plane) : Prop where
  entityParent : ∀ id a, p.entities.get? id = some a → ∀ parent, (p.read a).parent = some parent →
    p.entities.contains parent = true
  locationParent : ∀ id a, p.locations.get? id = some a → ∀ parent, (p.read a).parent = some parent →
    p.locations.contains parent = true
  entityLocations : ∀ id a, p.entities.get? id = some a → ∀ location ∈ (p.read a).locations,
    p.locations.contains location = true

theorem Plane.referencesHold_iff_forall (p : Plane) : p.ReferencesHold ↔
    ∀ k, k.Registered → ∀ id a, (p.registry k).get? id = some a → ∀ r ∈ (p.read a).references k,
      (p.registry r.1).contains r.2 = true := by
  constructor
  · rintro h k hk id a ha r hr
    rcases List.mem_append.1 hr with hparent | hlocation
    · obtain ⟨parent, hmem, rfl⟩ := List.mem_map.1 hparent
      rw [Option.mem_toList] at hmem
      rcases hk with rfl | rfl
      · exact h.locationParent id a ha parent hmem
      · exact h.entityParent id a ha parent hmem
    · rcases hk with rfl | rfl
      · cases hlocation
      · obtain ⟨location, hmem, rfl⟩ := List.mem_map.1 hlocation
        exact h.entityLocations id a ha location hmem
  · intro h
    refine ⟨fun id a ha parent hparent => ?_, fun id a ha parent hparent => ?_, fun id a ha location hmem => ?_⟩
    · refine h .entity (Or.inr rfl) id a ha (.entity, parent) ?_
      simp [Object.references, ObjectKind.references, hparent]
    · refine h .location (Or.inl rfl) id a ha (.location, parent) ?_
      simp [Object.references, ObjectKind.references, hparent]
    · refine h .entity (Or.inr rfl) id a ha (.location, location) ?_
      simp [Object.references, ObjectKind.references, hmem]

/-! ## Shells without a memento -/

/-- Everything that the types make names no other object, and nothing keeps it from being populated. -/
structure TypeRegistry.MakesPlain (r : TypeRegistry) : Prop where
  isolated : r.MakesIsolated
  populates : ∀ d, r.Has d → ∀ o, d.Makes o → o.behaviour.reconstructFault = none

theorem TypeRegistry.makesPlain_stock : TypeRegistry.stock.MakesPlain := by
  refine ⟨makesIsolated_stock, fun d hd o hmakes => ?_⟩
  obtain ⟨name, k, rfl⟩ := exists_eq_of_has_stock hd
  obtain ⟨id, rfl⟩ := hmakes.exists_blank
  rfl

namespace Pass

variable {t : Task} {n : Nat} {p q : Pass σ}

/-- A shell behaves like what its type makes, and holds what this holds if the store shows no memento of its kind and
id. -/
def MadeFrom (t : Task) (p : Pass σ) : Prop :=
  ∀ k id a, p.scratch.get? k id = some a → ∃ d o, t.types.Has d ∧ d.Makes o ∧
    (p.plane.read a).behaviour = o.behaviour ∧
      ((t.source.snapshot.ofKind k).get? id = none → (p.plane.read a).content = o.content)

theorem madeFrom_of_turn (hs : p.scratch.Sound n p.plane) (hp : MadeFrom t p) (h : Turn t p q) :
    MadeFrom t q := by
  intro k id a ha
  rcases shell_of_turn h ha with ha | ⟨d, o, hd, hmakes, hcontent⟩
  · obtain ⟨d, o, hd, hmakes, hbehaviour, hcontent⟩ := hp k id a ha
    have hv : p.plane.heap.Valid a := hs.valid ha
    refine ⟨d, o, hd, hmakes, (behaviour_of_turn h hv).trans hbehaviour, fun hnone => ?_⟩
    rcases content_of_turn h hv with hsame | ⟨k', m, hm, hget, -⟩
    · exact hsame.trans (hcontent hnone)
    · -- the memento that it was populated with is of its kind and id
      obtain rfl : k' = k := (hs.kind hget).symm.trans (hs.kind ha)
      obtain ⟨id', hm⟩ := OrderedMap.mem_values_iff.1 hm
      have hid : m.id = id' := t.source.payloads.id_of_get?_snapshot hm
      have hid' : m.id = id := (hs.id hget).symm.trans (hs.id ha)
      rw [← hid, hid', hnone] at hm
      cases hm
  · exact ⟨d, o, hd, hmakes, congrArg Content.behaviour hcontent, fun _ => hcontent⟩

theorem madeFrom_of_turns (hs : p.scratch.Sound n p.plane) (hp : MadeFrom t p) (h : Turns t p q) :
    MadeFrom t q := by
  induction h with
  | refl => exact hp
  | tail hturns hturn ih => exact madeFrom_of_turn (building_of_turns hs hturns).sound ih hturn

end Pass

namespace Manager

variable {m : Manager} {setup : Setup} {source : Source} {time : Nat} {h : Handler σ} {s : σ}
  {mode : ManagementMode} {o : Outcome σ} {p : Pass σ} {k : ObjectKind} {id : String} {a : Handle}

/-! ## References when a pass is over -/

/-- Under this id something is under management when the pass is over: a shell that a root leads to, or what was managed
before under the id of another shell. -/
def Outcome.Keeps (o : Outcome σ) (m : Manager) (snapshot : Snapshot) (k : ObjectKind) (id : String) : Prop :=
  ∃ a, o.iteration.scratch.get? k id = some a ∧
    (o.pass.Reached snapshot k a ∨ (m.plane.registry k).contains id = true)

namespace Completed

variable (hp : Completed m setup source h s mode o p)
include hp

/-- The ids of both registries when the pass is over. -/
theorem contains_iff (hk : k.Registered) (id : String) :
    (o.manager.plane.registry k).contains id = true ↔ o.Keeps m source.snapshot k id := by
  have hcontains : ∀ r : Registry, r.contains id = true ↔ (r.objects.get? id).isSome = true := fun _ => Iff.rfl
  unfold Outcome.Keeps
  rw [hcontains, hcontains]
  rcases hget : o.iteration.scratch.get? k id with _ | a
  · rw [hp.entry_of_absent hk hget]
    simp
  · simp only [Option.some.injEq, exists_eq_left']
    by_cases hr : o.pass.Reached source.snapshot k a
    · obtain ⟨t, hentry⟩ := hp.entry_of_reached hk hget hr
      simp [hentry, hr]
    · rw [hp.entry_of_not_reached hk hget hr]
      simp [hr]

theorem madeFrom : Pass.MadeFrom (m.task setup source mode) p := by
  have hs := sound_opening m h s mode
  have hstart : Pass.MadeFrom (m.task setup source mode) (m.opening h s mode) := by
    intro k id a ha
    cases k <;> cases ha
  exact Pass.madeFrom_of_turns hs hstart hp.turns

/-- A shell with a memento refers to what its memento refers to, as far as the pass knows it. -/
theorem references_of_memento (htypes : setup.types.MakesPlain) (hk : k.Registered)
    (ha : o.iteration.scratch.get? k id = some a) {memento : Memento}
    (hm : (source.snapshot.ofKind k).get? id = some memento) :
    (o.manager.plane.read a).references k =
      (memento.references k).filter fun r => o.iteration.scratch.known m.plane r.1 r.2 := by
  obtain rfl : memento.id = id := source.payloads.id_of_get?_snapshot hm
  have hget := ha
  rw [hp.scratch] at hget
  have hcontent := hp.content_read a
  have hkind : (o.manager.plane.read a).kind = k := (congrArg Content.kind hcontent).trans (hp.sound.kind hget)
  obtain ⟨d, made, hd, hmakes, hbehaviour, -⟩ := hp.madeFrom k memento.id a hget
  have hfault : (o.manager.plane.read a).behaviour.reconstructFault = none := by
    have hsame : (o.manager.plane.read a).behaviour = made.behaviour :=
      (congrArg Content.behaviour hcontent).trans hbehaviour
    rw [hsame]
    exact htypes.populates d hd made hmakes
  have hshows := (hp.populated hk ha hm).2 hfault
  exact hshows.references hkind

/-- A shell without a memento refers to nothing. -/
theorem references_of_none (htypes : setup.types.MakesPlain) (ha : o.iteration.scratch.get? k id = some a)
    (hm : (source.snapshot.ofKind k).get? id = none) : (o.manager.plane.read a).references k = [] := by
  rw [hp.scratch] at ha
  obtain ⟨d, made, hd, hmakes, -, hcontent⟩ := hp.madeFrom k id a ha
  have hsame : (o.manager.plane.read a).content = made.content := (hp.content_read a).trans (hcontent hm)
  rw [Object.references_congr hsame]
  exact (htypes.isolated d hd made hmakes).references

/-- What an object refers to that was there before the pass stays the same. -/
theorem references_former (hv : m.plane.heap.Valid a) (k : ObjectKind) :
    (o.manager.plane.read a).references k = (m.plane.read a).references k := by
  rw [Object.references_congr (hp.content_read a), hp.read_old hv]

end Completed

/-- Where types make plain objects, references hold among what is under management after a pass that got through all its
phases exactly when two things stay under management: of what the memento of a shell that a root leads to refers to,
everything that the pass knew; and everything that an object refers to that was managed before under the id of a shell
that no root leads to. -/
theorem referencesHold_iff (ho : m.runPass setup source time h (.new mode) s = o)
    (htypes : setup.types.MakesPlain) (hclosed : m.plane.Closed) (hall : m.Completes setup source h s mode) :
    o.manager.plane.ReferencesHold ↔
      ∀ k, k.Registered → ∀ id a, o.iteration.scratch.get? k id = some a →
        (o.pass.Reached source.snapshot k a → ∀ memento, (source.snapshot.ofKind k).get? id = some memento →
          ∀ r ∈ memento.references k, o.iteration.scratch.known m.plane r.1 r.2 = true →
            o.Keeps m source.snapshot r.1 r.2) ∧
        (¬o.pass.Reached source.snapshot k a → ∀ former, (m.plane.registry k).get? id = some former →
          ∀ r ∈ (m.plane.read former).references k, o.Keeps m source.snapshot r.1 r.2) := by
  obtain ⟨p, hp⟩ := exists_completed_of_completes ho hclosed hall
  rw [Plane.referencesHold_iff_forall]
  refine forall₂_congr fun k hk => forall_congr' fun id => ?_
  constructor
  · intro hhold a ha
    refine ⟨fun hr memento hm r hmem hknown => ?_, fun hr former hformer r hmem => ?_⟩
    · obtain ⟨t, hentry⟩ := hp.entry_of_reached hk ha hr
      have hreferred : r ∈ (o.manager.plane.read a).references k := by
        rw [hp.references_of_memento htypes hk ha hm]
        exact List.mem_filter.2 ⟨hmem, hknown⟩
      have hcontains := hhold a (congrArg (Option.map Registered.object) hentry) r hreferred
      exact (hp.contains_iff (ObjectKind.registered_of_mem_references hk hmem) r.2).1 hcontains
    · have hentry := congrArg (Option.map Registered.object) (hp.entry_of_not_reached hk ha hr)
      have hreferred : r ∈ (o.manager.plane.read former).references k := by
        rwa [hp.references_former (hclosed k id former hformer)]
      have hcontains := hhold former (hentry.trans hformer) r hreferred
      exact (hp.contains_iff (ObjectKind.registered_of_mem_references hk hmem) r.2).1 hcontains
  · intro hkeeps b hb r hmem
    rw [hp.contains_iff (ObjectKind.registered_of_mem_references hk hmem)]
    rcases hget : o.iteration.scratch.get? k id with _ | a
    · rw [Registry.get?, hp.entry_of_absent hk hget] at hb
      cases hb
    · obtain ⟨hreached, hnot⟩ := hkeeps a hget
      by_cases hr : o.pass.Reached source.snapshot k a
      · obtain ⟨t, hentry⟩ := hp.entry_of_reached hk hget hr
        rw [Registry.get?, hentry] at hb
        obtain rfl : a = b := Option.some.inj hb
        rcases hm : (source.snapshot.ofKind k).get? id with _ | memento
        · rw [hp.references_of_none htypes hget hm] at hmem
          cases hmem
        · rw [hp.references_of_memento htypes hk hget hm] at hmem
          obtain ⟨hmem, hknown⟩ := List.mem_filter.1 hmem
          exact hreached hr memento hm r hmem hknown
      · rw [Registry.get?, hp.entry_of_not_reached hk hget hr] at hb
        rw [hp.references_former (hclosed k id b hb)] at hmem
        exact hnot hr b hb r hmem

/-! ## A location that is dropped -/

/-- A master with one location. -/
def locationPass : Outcome Unit :=
  ({} : Manager).runPass .stock
    (MemoryStore.holding [(.location, { id := "l", type := "trellis.location.BasicLocation" })]).source
    0 (.refusing []) (.new .master) ()

/-- A store with an entity at this location, but without the location. -/
def strandedStore : MemoryStore :=
  .holding [(.entity, { id := "e", type := "trellis.entity.BasicEntity", locations := ["l"] })]

/-- The next pass of this master. -/
def strandedPass : Outcome Unit :=
  locationPass.manager.runPass .stock strandedStore.source 0 (.refusing []) (.new .master) ()

set_option maxRecDepth 2000 in
theorem strandedPass_shows : locationPass.ReachedLastPhase ∧
    locationPass.manager.Completes .stock strandedStore.source (.refusing []) () .master ∧
    strandedPass.manager.plane.entities.get? "e" = some ⟨1⟩ ∧
    (strandedPass.manager.plane.read ⟨1⟩).locations = ["l"] ∧
    strandedPass.manager.plane.locations.contains "l" = false := by
  decide +kernel

theorem not_referencesHold_strandedPass : ¬strandedPass.manager.plane.ReferencesHold := by
  obtain ⟨-, -, hentry, hlocations, hdropped⟩ := strandedPass_shows
  intro hhold
  have hmem : "l" ∈ (strandedPass.manager.plane.read ⟨1⟩).locations := by
    rw [hlocations]
    exact List.mem_singleton_self "l"
  have hcontains := hhold.entityLocations "e" ⟨1⟩ hentry "l" hmem
  rw [hdropped] at hcontains
  cases hcontains

/-- Neither side holds of this pass. -/
theorem referencesHold_iff_strandedPass :
    Setup.stock.types.MakesPlain ∧ locationPass.manager.plane.Closed ∧
      locationPass.manager.Completes .stock strandedStore.source (.refusing []) () .master ∧
      ¬strandedPass.manager.plane.ReferencesHold ∧
      (strandedPass.manager.plane.ReferencesHold ↔
        ∀ k, k.Registered → ∀ id a, strandedPass.iteration.scratch.get? k id = some a →
          (strandedPass.pass.Reached strandedStore.source.snapshot k a →
            ∀ memento, (strandedStore.source.snapshot.ofKind k).get? id = some memento →
              ∀ r ∈ memento.references k, strandedPass.iteration.scratch.known locationPass.manager.plane r.1 r.2 = true →
                strandedPass.Keeps locationPass.manager strandedStore.source.snapshot r.1 r.2) ∧
          (¬strandedPass.pass.Reached strandedStore.source.snapshot k a →
            ∀ former, (locationPass.manager.plane.registry k).get? id = some former →
              ∀ r ∈ (locationPass.manager.plane.read former).references k,
                strandedPass.Keeps locationPass.manager strandedStore.source.snapshot r.1 r.2)) := by
  obtain ⟨hlast, hall, -⟩ := strandedPass_shows
  have ha : (Handler.refusing []).Accepting := Handler.accepting_refusing (by decide)
  have hclosed : locationPass.manager.plane.Closed := closed_of_runPass rfl ha closed_empty hlast
  have htypes : Setup.stock.types.MakesPlain := TypeRegistry.makesPlain_stock
  exact ⟨htypes, hclosed, hall, not_referencesHold_strandedPass,
    referencesHold_iff (o := strandedPass) rfl htypes hclosed hall⟩

/-- An entity keeps a location that is only known from before, and the same pass drops this location. -/
theorem dropped_location_is_referred_to :
    Setup.stock.types.MakesPlain ∧ locationPass.manager.plane.Closed ∧
      locationPass.manager.Completes .stock strandedStore.source (.refusing []) () .master ∧
      ¬strandedPass.manager.plane.ReferencesHold := by
  obtain ⟨hlast, hall, -⟩ := strandedPass_shows
  have ha : (Handler.refusing []).Accepting := Handler.accepting_refusing (by decide)
  have hclosed : locationPass.manager.plane.Closed := closed_of_runPass rfl ha closed_empty hlast
  exact ⟨TypeRegistry.makesPlain_stock, hclosed, hall, not_referencesHold_strandedPass⟩

end Manager

end ManagementPlane
