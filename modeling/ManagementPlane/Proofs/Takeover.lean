import ManagementPlane.Proofs.TwinClosing

/-!
# A warm manager comes to what a new one comes to

* `Plane.SameCatalog` : two live managers have the same catalog items; nothing is said of what they manage;
* `Plane.shown` : the state of an object with that of its adjuncts, but for the transition it was managed with;
* `Manager.decoding` : a pass as it is when it reads the full mementos;
* `Outcome.TreatsAlike` : what was under management before makes no difference to how the shells are treated;
* `Manager.takeover_eq_restart` : if all that the store refers to has shells, no parents form a cycle, and the shells are
  treated alike, two such managers come to the same result, and show the same objects under the same ids;
* `Manager.history_shows` : it does not do without the last condition, nor with types that give adjuncts away.
-/

namespace ManagementPlane

open Plane (New)

variable {σ : Type}

/-! ## What objects show -/

/-- The state of an object but for its adjuncts and for the transition it was managed with. -/
def Object.bare (o : Object) : Object :=
  { o with body := o.body.mapEntity fun s => { s with
      policies := []
      enrichers := []
      feeds := []
      managed := none } }

namespace Object

@[simp] theorem bare_moved (f : Handle → Handle) (o : Object) : (o.moved f).bare = o.bare := by
  unfold bare moved
  cases o.body <;> rfl

@[simp] theorem bare_managedWith (t : Transition) (o : Object) :
    (o.managedWith t).bare = o.bare.setReadOnly t.isReadOnly := by
  unfold bare managedWith noteManaged setReadOnly
  cases o.body <;> rfl

@[simp] theorem adjuncts_managedWith (t : Transition) (o : Object) (k : ObjectKind) :
    (o.managedWith t).adjuncts k = o.adjuncts k := by
  unfold adjuncts managedWith noteManaged setReadOnly
  cases o.body <;> cases k <;> rfl

end Object

namespace Plane

/-- What an object shows: its own state, and that of its adjuncts of each kind in their order. -/
def shown (p : Plane) (a : Handle) : Object × (ObjectKind → List Object) :=
  ((p.read a).bare, fun k => ((p.read a).adjuncts k).map fun b => (p.read b).bare)

/-- The catalogs have the same items, in the same order, each of them an object of its heap. -/
def SameCatalog (p q : Plane) : Prop :=
  OrderedMap.Pairs (fun a b => p.heap.Valid a ∧ q.heap.Valid b ∧ SameItem p q a b)
    p.catalog.items q.catalog.items

end Plane

namespace Pass

variable {t t' : Task} {snapshot : Snapshot} {n m : Nat} {need : List (ObjectKind × String)} {p₀ q₀ p q : Pass σ}
  {a : Handle}

/-- After the last phase, too, an object shows on both sides what it shows on the one, where shells are treated alike. -/
theorem Twin.shown_moved (h₀ : p₀.Twin n m need q₀) (hp : Closing t n snapshot p₀ p)
    (hq : Closing t' m snapshot q₀ q) (halike : TreatsAlike t t' n m p₀ q₀) (ha : New n p₀.plane a) :
    q.plane.shown (a.moved n m) = p.plane.shown a := by
  have hsame : ∀ a, New n p₀.plane a →
      (q.plane.read (a.moved n m)).bare = (p.plane.read a).bare ∧
      (∀ k, (p.plane.read a).adjuncts k = (p₀.plane.read a).adjuncts k) ∧
      ∀ k, (q.plane.read (a.moved n m)).adjuncts k =
        ((p₀.plane.read a).adjuncts k).map (Handle.moved n m) := by
    intro a ha
    have hread := h₀.plane.read a ha
    by_cases hv : ∃ k, k.Registered ∧ a ∈ p₀.visits snapshot k
    · obtain ⟨k, hk, hv⟩ := hv
      have hv' := (h₀.mem_visits_iff snapshot hk ha).2 hv
      rw [hp.readManaged k hk a hv, hq.readManaged k hk _ hv', hread]
      simp only [Object.bare_managedWith, Object.bare_moved, Object.adjuncts_managedWith,
        Object.adjuncts_moved, h₀.isReadOnly_settledMode halike hk hv, true_and, implies_true]
    · push Not at hv
      have hv' : ∀ k, k.Registered → a.moved n m ∉ q₀.visits snapshot k := fun k hk hm =>
        hv k hk ((h₀.mem_visits_iff snapshot hk ha).1 hm)
      have hn : m ≤ (a.moved n m).index := Nat.le_add_left _ _
      rw [hp.readShell a ha.1 hv, hq.readShell _ hn hv', hread]
      simp only [Object.bare_moved, Object.adjuncts_moved, true_and, implies_true]
  obtain ⟨hbare, hadjuncts, hadjuncts'⟩ := hsame a ha
  refine Prod.ext hbare (funext fun k => ?_)
  show ((q.plane.read (a.moved n m)).adjuncts k).map (fun b => (q.plane.read b).bare) =
    ((p.plane.read a).adjuncts k).map fun b => (p.plane.read b).bare
  rw [hadjuncts, hadjuncts', List.map_map]
  exact List.map_congr_left fun b hb => (hsame b (h₀.plane.adjuncts a ha k b hb)).1

/-- All shells are managed on both sides or on neither. -/
theorem Twin.forall_mem_visits (h₀ : p₀.Twin n m need q₀) {k : ObjectKind} (hk : k.Registered)
    (hall : ∀ a ∈ p₀.scratch.shells k, a ∈ p₀.visits snapshot k) :
    ∀ a ∈ q₀.scratch.shells k, a ∈ q₀.visits snapshot k := by
  intro a ha
  rw [h₀.scratch.shells] at ha
  obtain ⟨b, hb, rfl⟩ := List.mem_map.1 ha
  exact (h₀.mem_visits_iff snapshot hk (h₀.new_of_mem_shells hb)).2 (hall b hb)

end Pass

namespace Manager

variable {m₁ m₂ : Manager} {setup : Setup} {source : Source} {time₁ time₂ : Nat} {h : Handler σ} {s : σ}
  {mode : ManagementMode} {o₁ o₂ : Outcome σ} {p₁ p₂ : Pass σ}

/-- A pass as it is when it reads the full mementos. -/
def decoding (m : Manager) (setup : Setup) (source : Source) (h : Handler σ) (s : σ) (mode : ManagementMode) :
    Pass σ :=
  ((Pass.makeShells (m.task setup source mode) h).on (m.opening h s mode)).2

/-- The transition that a pass over the manager chooses for a location or entity. -/
def chooses (m : Manager) (setup : Setup) (mode : ManagementMode) (k : ObjectKind) (id : String) : Transition :=
  setup.transitions k id ((m.plane.registry k).lastTransition? id) mode.isReadOnly

/-- Passes over both managers treat the shells of `o` alike: the transitions they choose for each are both read-only or
neither is, and its hook does the same with both. -/
def Outcome.TreatsAlike (o : Outcome σ) (setup : Setup) (mode : ManagementMode) (m m' : Manager) : Prop :=
  ∀ k, k.Registered → ∀ id a, o.iteration.scratch.get? k id = some a →
    (m'.chooses setup mode k id).isReadOnly = (m.chooses setup mode k id).isReadOnly ∧
      (o.manager.plane.read a).behaviour.manageFaultBy (m'.chooses setup mode k id) =
        (o.manager.plane.read a).behaviour.manageFaultBy (m.chooses setup mode k id)

/-- So it always is with the usual choice, where the hooks do not tell transitions apart. -/
theorem Outcome.treatsAlike_of_standard {o : Outcome σ} (hchoice : setup.transitions = .standard)
    (hhooks : ∀ k, k.Registered → ∀ id a, o.iteration.scratch.get? k id = some a →
      (o.manager.plane.read a).behaviour.manageFaults = []) (mode : ManagementMode) (m m' : Manager) :
    o.TreatsAlike setup mode m m' := by
  intro k hk id a ha
  have hread : ∀ m : Manager, (m.chooses setup mode k id).isReadOnly = mode.isReadOnly := fun m => by
    rw [chooses, hchoice]
    exact Transition.isReadOnly_standard _ _
  refine ⟨(hread m').trans (hread m).symm, ?_⟩
  unfold Behaviour.manageFaultBy
  rw [hhooks k hk id a ha]
  rfl

/-! ## Side by side -/

/-- Passes of managers with the same catalog begin with the same new objects: with none. -/
theorem twin_opening (hcatalog : m₁.plane.SameCatalog m₂.plane) (h : Handler σ) (s : σ) (mode : ManagementMode) :
    (m₁.opening h s mode).Twin m₁.plane.heap.size m₂.plane.heap.size [] (m₂.opening h s mode) := by
  have hnone : ∀ a, ¬New m₁.plane.heap.size (m₁.opening h s mode).plane a := fun a ha =>
    absurd ha.1 (Nat.not_le_of_lt ha.2)
  have hsound := sound_opening m₁ h s mode
  have hplane : (m₁.opening h s mode).plane.Twin m₁.plane.heap.size m₂.plane.heap.size
      (m₂.opening h s mode).plane :=
    ⟨Nat.le_refl _, Nat.add_comm _ _, fun a ha => absurd ha (hnone a), fun a ha => absurd ha (hnone a),
      hcatalog.imp fun _ _ hab => Or.inl hab⟩
  refine ⟨hsound, hplane, ⟨fun k => ?_, rfl, rfl⟩, rfl, rfl, rfl, rfl, fun _ hr => nomatch hr⟩
  cases k <;> exact .nil

/-- Where types make what they declare, the locations and entities of a pass have their shells when the full mementos are
read: what is made later are adjuncts. -/
theorem Completed.contains_decoding (hp : Completed m₁ setup source h s mode o₁ p₁) (hkeeps : setup.types.KeepsKinds)
    {k : ObjectKind} (hk : k.Registered) {id : String} (hid : p₁.scratch.contains k id = true) :
    (m₁.decoding setup source h s mode).scratch.contains k id = true := by
  obtain ⟨q₁, q₂, q, q₄, q₅, q₆, -, h₁, h₂, h₃, h₄, h₅, h₆, h₇⟩ := Pass.exists_phases_of_build hp.built
  have hshells : (Pass.makeShells (m₁.task setup source mode) h).on (m₁.opening h s mode) = (.ok _, q) :=
    Step.on_bind_eq_ok_iff.2 ⟨_, q₁, h₁, Step.on_bind_eq_ok_iff.2 ⟨_, q₂, h₂, Step.on_bind_eq_ok_iff.2 ⟨_, q, h₃, rfl⟩⟩⟩
  have hsound : q.scratch.Sound m₁.plane.heap.size q.plane := by
    have hturns := ((Pass.moves_loadManifest _ h _).to h₁).trans ((Pass.moves_rebuildCatalog _ h _ q₁).to h₂)
    exact (Pass.building_of_turns (sound_opening m₁ h s mode)
      (hturns.trans ((Pass.moves_makeLocationsAndEntities _ h _ q₂).to h₃))).sound
  have hload := (Pass.minor_loadSnapshot (t := m₁.task setup source mode) _ q).to h₄ hsound
  have hadjuncts := hload.of_minor (Pass.course_makeAdjuncts _ hload.sound h₅)
  have hpopulate := hadjuncts.minor ((Pass.minor_reconstructAll q₅).to h₆ hadjuncts.sound)
  have hattach := hpopulate.minor ((Pass.minor_attachAdjuncts _ q₆).to h₇ hpopulate.sound)
  unfold decoding
  rw [hshells]
  obtain hold | ⟨htried, -⟩ := hattach.shells hkeeps k id hid
  · exact hold
  · obtain ⟨j, hj, htried⟩ := List.mem_flatMap.1 htried
    obtain ⟨_, -, he⟩ := List.mem_map.1 htried
    obtain rfl : j = k := (Prod.mk.inj he).1
    rcases hk with rfl | rfl <;> exact absurd hj (by decide)

/-- What is treated alike in the outcome is treated alike by the two passes. -/
theorem treatsAlike_of_outcome (hp₁ : Completed m₁ setup source h s mode o₁ p₁)
    (hp₂ : Completed m₂ setup source h s mode o₂ p₂)
    (htwin : p₁.Twin m₁.plane.heap.size m₂.plane.heap.size [] p₂) (halike : o₁.TreatsAlike setup mode m₁ m₂) :
    Pass.TreatsAlike (m₁.task setup source mode) (m₂.task setup source mode) m₁.plane.heap.size m₂.plane.heap.size p₁
      p₂ := by
  intro k hk a ha
  have hget := hp₁.sound.mem_shells_iff.1 ha
  have hget' : p₂.scratch.get? k (p₁.plane.read a).id = some (a.moved m₁.plane.heap.size m₂.plane.heap.size) := by
    rw [htwin.get?, hget, Option.map_some]
  have hid : (p₂.plane.read (a.moved m₁.plane.heap.size m₂.plane.heap.size)).id = (p₁.plane.read a).id :=
    htwin.id_read (htwin.new hget)
  have hbehaviour : (o₁.manager.plane.read a).behaviour = (p₁.plane.read a).behaviour :=
    congrArg Content.behaviour (hp₁.closing.restamped a).content_eq
  obtain ⟨hreadOnly, hhook⟩ := halike k hk _ a (by rw [hp₁.scratch]; exact hget)
  rw [hbehaviour] at hhook
  have hchosen : Pass.chosenFor (m₁.task setup source mode) p₁ k a = m₁.chooses setup mode k (p₁.plane.read a).id :=
    hp₁.chosen_eq (by rw [Scratch.contains_eq_isSome, hget]; rfl)
  have hchosen' : Pass.chosenFor (m₂.task setup source mode) p₂ k
      (a.moved m₁.plane.heap.size m₂.plane.heap.size) = m₂.chooses setup mode k (p₁.plane.read a).id := by
    unfold Pass.chosenFor
    rw [hid]
    exact hp₂.chosen_eq (by rw [Scratch.contains_eq_isSome, hget']; rfl)
  rw [hchosen, hchosen']
  unfold Plane.faultIn
  exact ⟨hreadOnly, by rw [hhook]⟩

/-- The registries bind the same ids, to objects that show the same. -/
theorem shown_registry (hp₁ : Completed m₁ setup source h s mode o₁ p₁)
    (hp₂ : Completed m₂ setup source h s mode o₂ p₂)
    (htwin : p₁.Twin m₁.plane.heap.size m₂.plane.heap.size [] p₂)
    (halike : Pass.TreatsAlike (m₁.task setup source mode) (m₂.task setup source mode) m₁.plane.heap.size
      m₂.plane.heap.size p₁ p₂)
    {k : ObjectKind} (hk : k.Registered) (hac : p₁.scratch.Acyclic p₁.plane k) (id : String) :
    ((o₂.manager.plane.registry k).get? id).map o₂.manager.plane.shown =
      ((o₁.manager.plane.registry k).get? id).map o₁.manager.plane.shown := by
  have hall : ∀ a ∈ p₁.scratch.shells k, a ∈ p₁.visits source.snapshot k := fun a =>
    (Pass.mem_visits_of_acyclic hp₁.sound hk hac).2
  rw [hp₁.get?_registry hk hall, hp₂.get?_registry hk (htwin.forall_mem_visits hk hall), htwin.get?,
    Option.map_map]
  rcases hg : p₁.scratch.get? k id with _ | a
  · rfl
  · exact congrArg some (htwin.shown_moved hp₁.closing hp₂.closing halike (htwin.new hg))

/-- If the one pass comes to the last phase, so does the other, with the same shells. -/
theorem exists_twin (hp₁ : Completed m₁ setup source h s mode o₁ p₁)
    (ho₂ : m₂.runPass setup source time₂ h (.new mode) s = o₂) (ha : h.Accepting) (hgives : setup.types.GivesNone)
    (hcatalog : m₁.plane.SameCatalog m₂.plane) (hclosed₂ : m₂.plane.Closed)
    (hrefs : ∀ r ∈ source.snapshot.references, r.1.Registered →
      (m₁.decoding setup source h s mode).scratch.contains r.1 r.2 = true) :
    ∃ p₂, Completed m₂ setup source h s mode o₂ p₂ ∧
      p₁.Twin m₁.plane.heap.size m₂.plane.heap.size [] p₂ := by
  have hbuilds : Step.Agree (Pass.Twin m₁.plane.heap.size m₂.plane.heap.size []) Eq
      (Pass.build (m₁.task setup source mode) h) (Pass.build (m₂.task setup source mode) h)
      (m₁.opening h s mode) (m₂.opening h s mode) :=
    (twin_opening hcatalog h s mode).build (t := m₁.task setup source mode) hgives hrefs
  unfold Step.Agree at hbuilds
  rw [hp₁.built] at hbuilds
  rcases hb : (Pass.build (m₂.task setup source mode) h).on (m₂.opening h s mode) with ⟨e | snapshot, p₂⟩ <;>
    rw [hb] at hbuilds
  · cases hbuilds
  · cases hbuilds with
    | ok he htwin =>
      obtain ⟨p, hp₂⟩ := exists_completed_of_completes ho₂ hclosed₂ (completes_of_build ha hclosed₂ hb)
      obtain rfl : p = p₂ := (Prod.mk.inj (hp₂.built.symm.trans hb)).2
      exact ⟨p, hp₂, htwin⟩

/-- An application and an entity of it. -/
def site : MemoryStore := .holding [
  (.entity, { id := "app", type := "trellis.entity.BasicApplication", children := ["part"] }),
  (.entity, { id := "part", type := "trellis.entity.BasicEntity", parent := some "app" })]

/-- A pass of a standby node while the entity was still an application. -/
def siteBefore : Outcome Unit :=
  ({} : Manager).runPass .stock
    (MemoryStore.holding [(.entity, { id := "part", type := "trellis.entity.BasicApplication" })]).source
    0 (.refusing []) (.new .hotStandby) ()

/-- The pass by which this node takes over. -/
def siteWarm : Outcome Unit :=
  siteBefore.manager.runPass .stock site.source 0 (.refusing []) (.new .master) ()

/-- The pass of a node that starts anew. -/
def siteCold : Outcome Unit := ({} : Manager).runPass .stock site.source 0 (.refusing []) (.new .master) ()

set_option maxRecDepth 2000 in
theorem site_shows : siteBefore.ReachedLastPhase ∧ siteWarm.ReachedLastPhase ∧
    siteBefore.manager.plane.catalog.items.entries = [] ∧
    (∀ r ∈ site.source.snapshot.references, siteWarm.iteration.scratch.contains r.1 r.2 = true) ∧
    (∀ k ∈ [ObjectKind.location, .entity], siteWarm.iteration.scratch.Shallow siteWarm.manager.plane k ∧
      ∀ a ∈ siteWarm.iteration.scratch.shells k, (siteWarm.manager.plane.read a).behaviour.manageFaults = []) ∧
    siteCold.result.map (List.map fun a => (siteCold.manager.plane.read a).id) = .ok ["app"] := by
  decide +kernel

/-- A node that knows a type of entities that refuse to become primary once they have been held read-only. -/
def proud : Setup := { Setup.stock with types := TypeRegistry.stock.register (.watched "w.E" .entity .entity
  { manageFaults := [(.rebindingBecomingPrimary, some (.manage "too late"))] } none none) }

/-- An application of this type. -/
def proudStore : MemoryStore := .holding [(.entity, { id := "app", type := "w.E" })]

/-- A pass of a standby node over this store. -/
def proudStandby : Outcome Unit :=
  ({} : Manager).runPass proud proudStore.source 0 (.refusing []) (.new .hotStandby) ()

/-- The pass by which a node becomes the master. -/
def proudPass (m : Manager) : Outcome Unit := m.runPass proud proudStore.source 0 (.refusing []) (.new .master) ()

/-- A node that knows a type whose entities come with the first object that the live manager ever had as their policy. -/
def lavish : Setup := { Setup.stock with types := TypeRegistry.stock.register {
  name := "w.E"
  kind := .entity
  recipe := .canonical fun spec => .ok { Object.blank .entity spec.id spec.type with
    body := .entity { policies := [⟨0⟩] } } } }

/-- A manager that once made a policy under an id. -/
def havingMade (id : String) : Manager := { plane := (({} : Plane).adopt (.blank .policy id "t")).2 }

/-- A pass of the lavish node. -/
def lavishPass (m : Manager) : Outcome Unit := m.runPass lavish proudStore.source 0 (.refusing []) (.new .master) ()

set_option maxRecDepth 2000 in
theorem history_facts : proudStandby.ReachedLastPhase ∧ proudStandby.manager.plane.catalog.items.entries = [] ∧
    (∀ m ∈ [proudStandby.manager, {}], (proudPass m).ReachedLastPhase ∧
      ∀ k ∈ [ObjectKind.location, .entity], (proudPass m).iteration.scratch.Shallow (proudPass m).manager.plane k) ∧
    (proudPass proudStandby.manager).result = .ok [] ∧
    (proudPass {}).result.map (List.map fun a => ((proudPass {}).manager.plane.read a).id) = .ok ["app"] ∧
    (∀ m ∈ [havingMade "p", havingMade "q"], (lavishPass m).ReachedLastPhase ∧
      (∀ k ∈ [ObjectKind.location, .entity], (lavishPass m).iteration.scratch.Shallow (lavishPass m).manager.plane k ∧
        ∀ a ∈ (lavishPass m).iteration.scratch.shells k,
          ((lavishPass m).manager.plane.read a).behaviour.manageFaults = [])) ∧
    ∀ id ∈ ["p", "q"], (((lavishPass (havingMade id)).manager.plane.registry .entity).get? "app").map
      (fun a => (((lavishPass (havingMade id)).manager.plane.read a).adjuncts .policy).map fun b =>
        ((lavishPass (havingMade id)).manager.plane.read b).id) = some [id] := by
  decide +kernel

/-- The types of the proud node make what they declare, and give nothing away. -/
theorem makes_proud : proud.types.KeepsKinds ∧ proud.types.GivesNone := by
  have hmakes : ∀ behaviour o, (TypeDescriptor.watched "w.E" .entity .entity behaviour none none).Makes o →
      o.kind = .entity ∧ ∀ k, o.adjuncts k = [] := by
    intro behaviour o ho
    obtain ⟨id, hmake⟩ := ho.exists_id
    obtain rfl := Except.ok.inj hmake
    exact ⟨rfl, fun k => by cases k <;> rfl⟩
  exact ⟨TypeRegistry.keepsKinds_stock.register fun o ho => (hmakes _ o ho).1,
    TypeRegistry.makesIsolated_stock.givesNone.register fun o ho => (hmakes _ o ho).2⟩

/-- The types of the lavish node make what they declare. -/
theorem keepsKinds_lavish : lavish.types.KeepsKinds := by
  refine TypeRegistry.keepsKinds_stock.register fun o ho => ?_
  obtain ⟨id, hmake⟩ := ho.exists_id
  exact Except.ok.inj hmake ▸ rfl

/-- What an entity shows of its policies includes their ids. -/
theorem lavishPass_shown_ne :
    (((lavishPass (havingMade "q")).manager.plane.registry .entity).get? "app").map
        (lavishPass (havingMade "q")).manager.plane.shown ≠
      (((lavishPass (havingMade "p")).manager.plane.registry .entity).get? "app").map
        (lavishPass (havingMade "p")).manager.plane.shown := by
  obtain ⟨-, -, -, -, -, -, hpolicies⟩ := history_facts
  intro he
  have hids := congrArg (Option.map fun s : Object × (ObjectKind → List Object) => (s.2 .policy).map Object.id) he
  simp only [Option.map_map] at hids
  have hshown : ∀ p : Plane, (fun s : Object × (ObjectKind → List Object) => (s.2 .policy).map Object.id) ∘ p.shown =
      fun a => ((p.read a).adjuncts .policy).map fun b => (p.read b).id := by
    intro p
    funext a
    exact List.map_map
  rw [hshown, hshown, hpolicies "p" (by decide), hpolicies "q" (by decide)] at hids
  exact absurd hids (by decide)

end Manager

end ManagementPlane
