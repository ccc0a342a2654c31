import ManagementPlane.Proofs.Building
import ManagementPlane.Proofs.Forest
import ManagementPlane.Proofs.Making
import ManagementPlane.Proofs.Managing

/-!
# What shells hold

* `Object.content` : what populating gives an object, and how its hooks behave; joining, managing and dropping leave it
  alone;
* `Object.Shows known m o` : the object holds what the memento says, as far as its references are known;
* `Pass.content_of_turn` : a turn leaves the content of an object alone, unless it populates the object with the memento
  of its kind and id;
* `Pass.shell_of_turn` : a new shell holds what its type makes;
* `Pass.shows_of_steadyTurns` : while no shells are made, a shell goes on to show its memento.
-/

namespace ManagementPlane

/-! ## Content -/

/-- What populating gives an object, with its kind and how its hooks behave. -/
structure Content where
  kind : ObjectKind
  behaviour : Behaviour
  displayName : Option String
  parent : Option String
  children : List String
  locations : List String
  config : Settings
  attributes : Settings

namespace Object

variable {known : ObjectKind → String → Bool} {m : Memento} {o o' : Object}

def content (o : Object) : Content where
  kind := o.kind
  behaviour := o.behaviour
  displayName := o.displayName
  parent := o.parent
  children := o.children
  locations := o.locations
  config := o.config
  attributes := o.attributes

@[simp] theorem content_setReadOnly (b : Bool) (o : Object) : (o.setReadOnly b).content = o.content := rfl

@[simp] theorem content_noteManaged (t : Option Transition) (o : Object) :
    (o.noteManaged t).content = o.content := by
  obtain ⟨id, type, item, readOnly, behaviour, body⟩ := o
  cases body <;> rfl

@[simp] theorem content_managedWith (t : Transition) (o : Object) : (o.managedWith t).content = o.content :=
  content_noteManaged _ _

theorem Restamped.content_eq (h : Restamped o o') : o'.content = o.content := by
  rcases h with rfl | ⟨t, rfl⟩ | rfl <;> simp

theorem content_reconstructItem (i : CatalogItem) (o : Object) : (o.reconstructItem i).content = o.content := by
  obtain ⟨id, type, item, readOnly, behaviour, body⟩ := o
  cases body <;> rfl

theorem content_of_attachTo {entity : String} (h : o.attachTo entity = .ok o') : o'.content = o.content := by
  unfold attachTo at h
  split at h
  · split at h
    · cases h
    · cases h
      rfl
  · cases h
    obtain ⟨id, type, item, readOnly, behaviour, body⟩ := o
    cases body <;> rfl

theorem content_of_pushAdjunct {k : ObjectKind} {a : Handle} (h : o.pushAdjunct k a = .ok o') :
    o'.content = o.content := by
  obtain ⟨id, type, item, readOnly, behaviour, body⟩ := o
  cases k <;> cases h <;> cases body <;> rfl

/-- The object holds what the memento says, as far as `known` resolves its references. What it held before it was
populated may still be among its configuration. -/
structure Shows (known : ObjectKind → String → Bool) (m : Memento) (o : Object) : Prop where
  displayName : o.displayName = m.displayName
  parent : o.parent = m.parent.filter (known o.kind)
  children : o.children = m.children
  locations : o.kind = .entity → o.locations = m.locations.filter (known .location)
  config : ∀ key v, m.config.get? key = some v → o.config.get? key = some v
  attributes : o.kind = .entity → o.attributes = m.attributes

/-- A location or entity that has been populated shows the memento. -/
theorem shows_of_reconstruct (hk : o.kind.Registered) (h : o.reconstruct known m = .ok o') :
    o'.Shows known m := by
  obtain ⟨id, type, item, readOnly, behaviour, body⟩ := o
  cases body with
  | entity s =>
    cases h
    exact ⟨rfl, rfl, rfl, fun _ => rfl, fun _ _ hv => hv, fun _ => rfl⟩
  | location s =>
    cases h
    refine ⟨rfl, rfl, rfl, nofun, fun key v hv => ?_, nofun⟩
    show (s.config.merge m.config).get? key = some v
    rw [SortedMap.get?_merge, hv, Option.some_or]
  | policy s => rcases hk with hk | hk <;> cases hk
  | enricher s => rcases hk with hk | hk <;> cases hk
  | feed s => rcases hk with hk | hk <;> cases hk
  | catalogItem i => cases h

theorem behaviour_of_reconstruct (h : o.reconstruct known m = .ok o') : o'.behaviour = o.behaviour := by
  obtain ⟨id, type, item, readOnly, behaviour, body⟩ := o
  cases body <;> cases h <;> rfl

/-- A location or entity can be populated with any memento. -/
theorem exists_reconstruct (hk : o.kind.Registered) (known : ObjectKind → String → Bool) (m : Memento) :
    ∃ o', o.reconstruct known m = .ok o' := by
  obtain ⟨id, type, item, readOnly, behaviour, body⟩ := o
  cases body with
  | catalogItem i => rcases hk with hk | hk <;> cases hk
  | _ => exact ⟨_, rfl⟩

namespace Shows

theorem congr_content (h : o.Shows known m) (hc : o'.content = o.content) : o'.Shows known m := by
  have hkind : o'.kind = o.kind := congrArg Content.kind hc
  have hparent : o'.parent = o.parent := congrArg Content.parent hc
  have hlocations : o'.locations = o.locations := congrArg Content.locations hc
  have hconfig : o'.config = o.config := congrArg Content.config hc
  have hattributes : o'.attributes = o.attributes := congrArg Content.attributes hc
  refine ⟨(congrArg Content.displayName hc).trans h.displayName, ?_,
    (congrArg Content.children hc).trans h.children, fun hk => ?_, fun key v hv => ?_, fun hk => ?_⟩
  · rw [hparent, hkind, h.parent]
  · rw [hlocations, h.locations (hkind ▸ hk)]
  · rw [hconfig, h.config key v hv]
  · rw [hattributes, h.attributes (hkind ▸ hk)]

/-- Only whether locations and entities are known matters. -/
theorem congr_known {known' : ObjectKind → String → Bool} (h : o.Shows known m) (hk : o.kind.Registered)
    (hknown : ∀ k, k.Registered → known' k = known k) : o.Shows known' m where
  displayName := h.displayName
  parent := by rw [hknown _ hk, h.parent]
  children := h.children
  locations he := by rw [hknown _ (Or.inl rfl), h.locations he]
  config := h.config
  attributes := h.attributes

end Shows

end Object

/-! ## Live managers -/

namespace Plane

variable {p : Plane} {h : Handle}

/-- Changing an object in a way that keeps its content keeps that of every object. -/
theorem content_modify (p : Plane) (h : Handle) {f : Object → Object}
    (hf : (f (p.read h)).content = (p.read h).content) (a : Handle) :
    ((p.modify h f).read a).content = (p.read a).content := by
  rcases p.read_modify_cases h f a with hread | ⟨rfl, hread⟩ <;> rw [hread]
  exact hf

theorem content_reconstructItem (p : Plane) (h : Handle) (i : CatalogItem) (a : Handle) :
    ((p.reconstructItem h i).2.read a).content = (p.read a).content := by
  unfold reconstructItem
  dsimp only
  split
  · rfl
  · exact content_modify (p.recordHook h _) h (Object.content_reconstructItem i _) a

theorem content_attach (p : Plane) (h : Handle) (entity : String) (a : Handle) :
    ((p.attach h entity).2.read a).content = (p.read a).content := by
  unfold attach
  dsimp only
  split
  · rfl
  · split
    · next ho => exact content_modify (p.recordHook h _) h (Object.content_of_attachTo ho) a
    · rfl

theorem content_addAdjunct (p : Plane) (entity : Handle) (k : ObjectKind) (adjunct a : Handle) :
    ((p.addAdjunct entity k adjunct).2.read a).content = (p.read a).content := by
  have hatt := content_attach p adjunct (p.read entity).id
  unfold addAdjunct
  rcases hq : p.attach adjunct (p.read entity).id with ⟨_ | _, q⟩ <;> rw [hq] at hatt
  · exact hatt a
  · dsimp only at hatt ⊢
    split
    · next ho => exact (content_modify q entity (Object.content_of_pushAdjunct ho) a).trans (hatt a)
    · exact hatt a

theorem content_register (s : Scratch) (p : Plane) (h a : Handle) :
    ((s.register p h).2.read a).content = (p.read a).content := by
  unfold Scratch.register
  split
  · exact content_modify p h rfl a
  · rfl

/-- Populating an object leaves the others as they are. -/
theorem read_reconstruct (p : Plane) (known : ObjectKind → String → Bool) (readOnly : Bool) (h : Handle)
    (m : Memento) (a : Handle) : (p.reconstruct known readOnly h m).2.read a = p.read a ∨
      a = h ∧ (p.read a).reconstruct known m = .ok ((p.reconstruct known readOnly h m).2.read a) := by
  unfold reconstruct
  dsimp only
  split
  · exact Or.inl rfl
  · split
    · exact Or.inl rfl
    · split
      · next o ho =>
        rcases (p.recordHook h (.reconstruct m.id readOnly)).read_modify_cases h (fun _ => o) a with
          hread | ⟨rfl, hread⟩
        · exact Or.inl hread
        · refine Or.inr ⟨rfl, ?_⟩
          rw [hread, ho]
      · exact Or.inl rfl

/-- Populating a location or entity calls its hook, and if this does not fail the object shows the memento. -/
theorem reconstruct_of_registered (hv : p.heap.Valid h) (hk : (p.read h).kind.Registered)
    (known : ObjectKind → String → Bool) (readOnly : Bool) (m : Memento) :
    (p.reconstruct known readOnly h m).2.events = p.events ++ [.hook (p.read h).behaviour.audited h (p.read h).kind
        (p.read h).id (.reconstruct m.id readOnly)] ∧
      ((p.read h).behaviour.reconstructFault = none →
        ((p.reconstruct known readOnly h m).2.read h).Shows known m) := by
  obtain ⟨o, ho⟩ := Object.exists_reconstruct hk known m
  have hnot : (p.read h).kind ≠ .catalogItem := by
    intro hc
    rw [hc] at hk
    rcases hk with hk | hk <;> cases hk
  have hevents := (p.events_record (.hook (p.read h).behaviour.audited h (p.read h).kind (p.read h).id
    (.reconstruct m.id readOnly)))
  unfold reconstruct
  dsimp only
  rw [if_neg hnot]
  rcases hf : (p.read h).behaviour.reconstructFault with _ | e
  · dsimp only
    rw [ho]
    refine ⟨hevents, fun _ => ?_⟩
    dsimp only
    rw [read_modify_self (p.recordHook h (.reconstruct m.id readOnly)) hv]
    exact Object.shows_of_reconstruct hk ho
  · exact ⟨hevents, nofun⟩

end Plane

namespace Scratch

/-- Of locations and entities those are known that are shells or under management. -/
theorem known_eq (s : Scratch) (p : Plane) {k : ObjectKind} (hk : k.Registered) (id : String) :
    s.known p k id = (s.contains k id || (p.registry k).contains id) := by
  have hfind : (s.find? p k id).isSome = (s.contains k id || (p.registry k).contains id) := by
    rw [find?, Option.isSome_or, contains_eq_isSome]
    congr 1
    exact Option.isSome_map
  rcases hk with rfl | rfl <;> exact hfind

end Scratch

namespace Pass

variable {σ : Type} {t : Task} {n : Nat} {p q : Pass σ} {k : ObjectKind} {id : String} {m : Memento} {a : Handle}

/-! ## Turns -/

/-- A turn leaves the content of an object alone, unless it populates the object with a memento of its kind and id. -/
theorem content_of_turn (h : Turn t p q) (ha : p.plane.heap.Valid a) :
    (q.plane.read a).content = (p.plane.read a).content ∨
      ∃ k, ∃ m ∈ (t.source.snapshot.ofKind k).values, p.scratch.get? k m.id = some a ∧
        (p.plane.read a).reconstruct (p.scratch.known p.plane) m = .ok (q.plane.read a) := by
  cases h with
  | enter => exact Or.inl rfl
  | note => exact Or.inl rfl
  | hear => exact Or.inl rfl
  | fail hd hm =>
    refine Or.inl ?_
    exact congrArg (fun heap => (Heap.read heap a).content) (Instantiator.read_of_makeLoaded_error hm)
  | make hd hm =>
    refine Or.inl ?_
    rw [← (Instantiator.shell_of_makeLoaded hd hm).2 a ha]
    exact Plane.content_register p.scratch _ _ a
  | populateItem => exact Or.inl (Plane.content_reconstructItem _ _ _ a)
  | reset => exact Or.inl rfl
  | fill items => exact Or.inl (congrArg Object.content (read_adoptAll (items.map .ofItem) ha))
  | @populate k m shell hm hs =>
    rcases p.plane.read_reconstruct (p.scratch.known p.plane) p.scratch.allReadOnly shell m a with h | ⟨rfl, h⟩
    · exact Or.inl (congrArg Object.content h)
    · exact Or.inr ⟨k, m, hm, hs, h⟩
  | leave => exact Or.inl rfl
  | attach => exact Or.inl (Plane.content_addAdjunct _ _ _ _ a)

/-- No turn changes how the hooks of an object behave. -/
theorem behaviour_of_turn (h : Turn t p q) (ha : p.plane.heap.Valid a) :
    (q.plane.read a).behaviour = (p.plane.read a).behaviour := by
  rcases content_of_turn h ha with hcontent | ⟨_, _, _, _, hread⟩
  · exact congrArg Content.behaviour hcontent
  · exact Object.behaviour_of_reconstruct hread

theorem behaviour_of_turns (hs : p.scratch.Sound n p.plane) (h : Turns t p q) (ha : p.plane.heap.Valid a) :
    (q.plane.read a).behaviour = (p.plane.read a).behaviour := by
  induction h with
  | refl => rfl
  | tail hturns hturn ih =>
    exact (behaviour_of_turn hturn ((building_of_turns hs hturns).extend.valid ha)).trans ih

/-- A shell of a turn was there before, or it holds what its type makes. -/
theorem shell_of_turn (h : Turn t p q) (ha : q.scratch.get? k id = some a) :
    p.scratch.get? k id = some a ∨
      ∃ d o, t.types.Has d ∧ d.Makes o ∧ (q.plane.read a).content = o.content := by
  cases h with
  | @make _ _ item _ _ hd shell plane hm =>
    obtain ⟨⟨d, o, hd', hmakes, hread⟩, -⟩ := Instantiator.shell_of_makeLoaded hd hm
    have hget : ((join shell { p with plane }).scratch.get? k id) = _ :=
      Scratch.get?_register p.scratch plane shell k id
    rw [hget] at ha
    split at ha
    · obtain rfl := Option.some.inj ha
      refine Or.inr ⟨d, o, (hd.type d hd').1, hmakes, ?_⟩
      refine (Plane.content_register p.scratch plane shell shell).trans ?_
      rw [hread]
      rfl
    · exact Or.inl ha
  | @leave j hj id' =>
    have hget := Scratch.get?_unregister p.scratch j id' k id
    rw [show (leave j id' p).scratch.get? k id = _ from hget] at ha
    split at ha
    · cases ha
    · exact Or.inl ha
  | _ => exact Or.inl ha

/-- The mementos of a kind and id are one. -/
theorem memento_unique {source : Source} {m m' : Memento} (hm : (source.snapshot.ofKind k).get? id = some m)
    (hm' : m' ∈ (source.snapshot.ofKind k).values) (hid : m'.id = id) : m' = m := by
  obtain ⟨id', hg⟩ := OrderedMap.mem_values_iff.1 hm'
  obtain rfl : m'.id = id' := source.payloads.id_of_get?_snapshot hg
  rw [hid, hm] at hg
  exact (Option.some.inj hg).symm

/-- What is known of locations and entities changes only with their shells. -/
theorem known_of_steadyTurn (hs : p.scratch.Sound n p.plane) (h : SteadyTurn t p q) (hk : k.Registered) :
    q.scratch.known q.plane k = p.scratch.known p.plane k := by
  funext id
  rw [Scratch.known_eq _ _ hk, Scratch.known_eq _ _ hk, (building_of_turn hs h.1).extend.registry,
    Scratch.contains_eq_isSome, Scratch.contains_eq_isSome, h.2 k hk.isAdjunct]

/-- A turn that leaves the tables of shells alone leaves a shell to show its memento. -/
theorem shows_of_steadyTurn (hs : p.scratch.Sound n p.plane) (h : SteadyTurn t p q) (hk : k.Registered)
    (ha : p.scratch.get? k id = some a) (hm : (t.source.snapshot.ofKind k).get? id = some m)
    (hshows : (p.plane.read a).Shows (p.scratch.known p.plane) m) :
    (q.plane.read a).Shows (q.scratch.known q.plane) m := by
  have hext := (building_of_turn hs h.1).extend
  have hkind : (q.plane.read a).kind = k := (hext.identity a (hs.valid ha)).kind.trans (hs.kind ha)
  refine Object.Shows.congr_known ?_ (hkind ▸ hk) fun j hj => known_of_steadyTurn hs h hj
  rcases content_of_turn h.1 (hs.valid ha) with hcontent | ⟨k', m', hm', hg, hread⟩
  · exact hshows.congr_content hcontent
  · obtain rfl : k' = k := (hs.kind hg).symm.trans (hs.kind ha)
    obtain rfl := memento_unique hm hm' ((hs.id hg).symm.trans (hs.id ha))
    exact Object.shows_of_reconstruct (by rw [hs.kind ha]; exact hk) hread

/-- While no locations and entities are made, a shell goes on to show its memento. -/
theorem shows_of_steadyTurns (hs : p.scratch.Sound n p.plane) (h : SteadyTurns t p q) (hk : k.Registered)
    (ha : p.scratch.get? k id = some a) (hm : (t.source.snapshot.ofKind k).get? id = some m)
    (hshows : (p.plane.read a).Shows (p.scratch.known p.plane) m) :
    (q.plane.read a).Shows (q.scratch.known q.plane) m := by
  induction h with
  | refl => exact hshows
  | tail hturns hturn ih =>
    have hsound := (building_of_turns hs (SteadyTurns.turns hturns)).sound
    exact shows_of_steadyTurn hsound hturn hk ((SteadyTurns.get? hturns hk.isAdjunct id).trans ha) hm ih

end Pass

end ManagementPlane
