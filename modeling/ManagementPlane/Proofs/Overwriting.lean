import ManagementPlane.Proofs.Outcome
import ManagementPlane.Proofs.Registration

/-!
# Overwriting a master

A pass of a master is told at its beginning whether it will overwrite objects that are not read-only. It is told so just
when the modes in the registries say that there are such objects.

* `Pass.Tidies` : the last phase leaves the registries in agreement with their objects, wherever it is stopped;
* `Manager.Reachable` : the managers that calls and passes lead to; `Manager.Reachable.registriesAgree` : their registries
  agree with their objects;
* `Pass.ownsManaged` : what a pass is told; `Pass.overwritingMaster_of_turns` : nothing after the first phase changes it;
* `Manager.modes_tell_what_is_writable` : the registries of every manager that can be reached, and what a pass is told
  of them.
-/

namespace ManagementPlane

open Plane (Tidy HasObject)

variable {σ : Type}

namespace Pass

variable {t : Task} {h : Handler σ} {n : Nat} {p q r : Pass σ} {k : ObjectKind}

/-! ## The last phase -/

/-- From `p` to `q` the shells are the same, and what the pass was told of the store and the master; the registries still
agree with their objects if they did. -/
structure Tidies (p q : Pass σ) : Prop where
  scratch : q.scratch = p.scratch
  isEmpty : q.isEmpty = p.isEmpty
  overwritingMaster : q.overwritingMaster = p.overwritingMaster
  plane : p.plane.Tidy q.plane

instance : Std.Refl (Tidies (σ := σ)) := ⟨fun p => ⟨rfl, rfl, rfl, .refl p.plane⟩⟩

instance : IsTrans (Pass σ) Tidies := ⟨fun _ _ _ h₁ h₂ =>
  ⟨h₂.scratch.trans h₁.scratch, h₂.isEmpty.trans h₁.isEmpty, h₂.overwritingMaster.trans h₁.overwritingMaster,
    h₁.plane.trans h₂.plane⟩⟩

/-- Every shell names an object of its kind. -/
def HasShells (p : Pass σ) : Prop := ∀ k id a, p.scratch.get? k id = some a → p.plane.HasObject k a

theorem HasShells.of_sound (hs : p.scratch.Sound n p.plane) : p.HasShells := fun _ _ _ ha => ⟨hs.valid ha, hs.kind ha⟩

theorem Tidies.hasShells (h : Tidies p q) (hp : p.HasShells) : q.HasShells := fun k id a ha =>
  h.plane.hasObject (hp k id a (h.scratch ▸ ha))

theorem HasShells.shells (hp : p.HasShells) {a : Handle} (ha : a ∈ p.scratch.shells k) : p.plane.HasObject k a := by
  obtain ⟨id, hid⟩ := OrderedMap.mem_values_iff.1 ha
  exact hp k id a hid

/-- Everything in a table of families names an object of kind `k`. -/
def HasFamilies (p : Pass σ) (k : ObjectKind) (children : OrderedMap String (List Handle)) : Prop :=
  ∀ id l, children.get? id = some l → ∀ a ∈ l, p.plane.HasObject k a

theorem Tidies.hasFamilies {children : OrderedMap String (List Handle)} (h : Tidies p q)
    (hp : p.HasFamilies k children) : q.HasFamilies k children := fun id l hl a ha =>
  h.plane.hasObject (hp id l hl a ha)

theorem HasShells.hasFamilies (hp : p.HasShells) (k : ObjectKind) : p.HasFamilies k (p.family k) := by
  intro id l hl a ha
  obtain ⟨s, -, he⟩ := List.mem_map.1 (OrderedMap.mem_of_get?_ofList hl)
  obtain ⟨-, rfl⟩ := Prod.mk.inj he
  obtain ⟨id', -, hg⟩ := List.mem_filterMap.1 ha
  exact hp k id' a hg

theorem Tidies.of_echo (he : Echo p q) : Tidies p q :=
  ⟨congrArg Iteration.scratch he.1, congrArg Iteration.isEmpty he.1, congrArg Iteration.overwritingMaster he.1,
    .of_objects he.2.heap fun k => congrArg Registry.objects (he.2.registry k)⟩

theorem tidies_tell {ε : Type} (n : Notification) (answer : Step σ ε Unit) (p : Pass σ) :
    Step.Moves Tidies (tell n answer) p := (echo_tell n answer p).imp fun _ => .of_echo

theorem tidies_log (level : LogLevel) (message : Pass σ → String) (p : Pass σ) :
    Step.Moves Tidies (log t level message) p := (ends_log level message p).moves.imp fun _ => .of_echo

theorem tidies_logCourse (message : String) (p : Pass σ) : Step.Moves Tidies (logCourse t message) p :=
  .read_bind (tidies_log _ _ p)

theorem tidies_noteTransitions (k : ObjectKind) (p : Pass σ) : Step.Moves Tidies (noteTransitions t k) p := by
  refine .of_total (List.foldlRecOn (p.scratch.shells k) _ (Std.Refl.refl p) fun q hq s _ => IsTrans.trans _ _ _ hq ?_)
  exact ⟨rfl, rfl, rfl, .setPending q.plane k _⟩

section Trees

variable {children : OrderedMap String (List Handle)} (hk : k.Registered)

include hk

theorem tidies_manageRoot {root : Handle} (hroot : p.plane.HasObject k root) (hchildren : p.HasFamilies k children) :
    Step.Moves Tidies (manageRoot h k children root) p := by
  have hmanaged : Step.Moves Tidies (onPlane fun p => p.plane.manageTree k children root : PassStep σ _) p :=
    .of_total ⟨rfl, rfl, rfl, .manageTree hk hroot hchildren⟩
  refine hmanaged.bind fun managed q _ => ?_
  cases managed with
  | ok => exact .pure _ q
  | error e => exact Step.Moves.bind (.read_bind (tidies_tell _ _ q)) fun _ q _ => .pure _ q

theorem tidies_manageRoots {roots : List Handle} (hroots : ∀ a ∈ roots, p.plane.HasObject k a)
    (hchildren : p.HasFamilies k children) : Step.Moves Tidies (manageRoots h k children roots) p := by
  refine Step.Moves.forEach_inv
    (I := fun p => (∀ a ∈ roots, p.plane.HasObject k a) ∧ p.HasFamilies k children) ?_ ?_ ⟨hroots, hchildren⟩
  · exact fun p q hpq hp => ⟨fun a ha => hpq.plane.hasObject (hp.1 a ha), hpq.hasFamilies hp.2⟩
  · exact fun root hroot p hp =>
      (tidies_manageRoot hk (hp.1 root hroot) hp.2).bind fun _ q _ => .pure _ q

end Trees

theorem tidies_manageApplications {children : OrderedMap String (List Handle)} (hp : p.HasShells)
    (hchildren : p.HasFamilies .entity children) (ids : List String) :
    Step.Moves Tidies (manageApplications h children ids) p := by
  induction ids generalizing p with
  | nil => exact .pure _ p
  | cons id ids ih =>
    refine .read_bind ?_
    rcases hg : p.scratch.get? .entity id with _ | entity
    · have hone : Step.Moves Tidies (notFound h .entity id) p := tidies_tell _ _ p
      exact hone.bind fun _ q hq => ih ((hone.to hq).hasShells hp) ((hone.to hq).hasFamilies hchildren)
    · have hone : Step.Moves Tidies (manageRoot h .entity children entity) p :=
        tidies_manageRoot (.inr rfl) (hp _ _ _ hg) hchildren
      refine hone.bind fun managed q hq => ?_
      exact (ih ((hone.to hq).hasShells hp) ((hone.to hq).hasFamilies hchildren)).bind fun _ q _ => .pure _ q

theorem tidies_destroyUnused (k : ObjectKind) (ids : List String) (p : Pass σ) :
    Step.Moves Tidies (destroyUnused t k ids) p := by
  unfold destroyUnused
  split
  · refine .read_bind ((tidies_log _ _ p).bind fun _ q _ => .of_update ?_)
    exact ⟨rfl, rfl, rfl, .dropAll k ids q.plane⟩
  · exact .pure _ p

theorem tidies_manageLocations (hp : p.HasShells) : Step.Moves Tidies (manageLocations t h) p := by
  refine (tidies_logCourse _ p).bind fun _ p₁ h₁ => (tidies_noteTransitions _ p₁).bind fun old p₂ h₂ => ?_
  have hp₁ : p₁.HasShells := ((tidies_logCourse (t := t) _ p).to h₁).hasShells hp
  have hp₂ : p₂.HasShells := ((tidies_noteTransitions (t := t) _ p₁).to h₂).hasShells hp₁
  refine .read_bind (.read_bind ?_)
  refine (tidies_manageRoots (.inl rfl) (fun a ha => ?_) (hp₂.hasFamilies _)).bind fun _ q _ =>
    tidies_destroyUnused _ _ q
  exact hp₂.shells (List.mem_filter.1 ha).1

theorem tidies_manageEntities (hp : p.HasShells) (snapshot : Snapshot) :
    Step.Moves Tidies (manageEntities t h snapshot) p := by
  refine (tidies_logCourse _ p).bind fun _ p₁ h₁ => (tidies_noteTransitions _ p₁).bind fun old p₂ h₂ => ?_
  have hp₁ : p₁.HasShells := ((tidies_logCourse (t := t) _ p).to h₁).hasShells hp
  have hp₂ : p₂.HasShells := ((tidies_noteTransitions (t := t) _ p₁).to h₂).hasShells hp₁
  refine .read_bind (.read_bind ?_)
  have happlications : Step.Moves Tidies (manageApplications h (p₂.family .entity) snapshot.applicationIds) p₂ :=
    tidies_manageApplications hp₂ (hp₂.hasFamilies _) _
  refine happlications.bind fun applications p₃ h₃ => ?_
  have hroots : Step.Moves Tidies (manageRoots h .entity (p₂.family .entity) ((p₂.scratch.shells .entity).filter
      fun s => !snapshot.applicationIds.contains (p₂.plane.read s).id && p₂.isRoot .entity s)) p₃ := by
    refine tidies_manageRoots (.inr rfl) (fun a ha => ?_) ((happlications.to h₃).hasFamilies (hp₂.hasFamilies _))
    exact (happlications.to h₃).plane.hasObject (hp₂.shells (List.mem_filter.1 ha).1)
  exact hroots.bind fun _ p₄ _ => (tidies_destroyUnused _ _ p₄).bind fun _ q _ => .pure _ q

theorem tidies_manageAll (hp : p.HasShells) (snapshot : Snapshot) :
    Step.Moves Tidies (manageAll t h snapshot) p := by
  have henter : Tidies p { p with phase := 8 } := ⟨rfl, rfl, rfl, .refl _⟩
  have hshells := henter.hasShells hp
  refine Step.Moves.bind (.of_update henter) fun _ p₁ h₁ => ?_
  obtain ⟨-, rfl⟩ := Prod.mk.inj h₁
  have hlocations : Step.Moves Tidies (manageLocations t h) { p with phase := 8 } := tidies_manageLocations hshells
  refine hlocations.bind fun _ p₂ h₂ => ?_
  refine (tidies_manageEntities ((hlocations.to h₂).hasShells hshells) snapshot).bind fun _ q _ => ?_
  exact Step.Moves.bind (.of_update ⟨rfl, rfl, rfl, .release q.plane⟩) fun _ q _ => .pure _ q

/-- The last phase and what follows it, wherever they are stopped. -/
theorem tidies_conclude (hp : p.HasShells) (snapshot : Snapshot) : Step.Moves Tidies (conclude t h snapshot) p := by
  refine (tidies_manageAll hp snapshot).bind fun applications q _ => ?_
  refine ((ends_finish _ _ q).moves.imp fun _ => Tidies.of_echo).bind fun _ r _ => ?_
  exact (tidies_tell _ _ r).bind fun _ r _ => .pure _ r

/-! ## What a pass is told of the master -/

/-- Whether a pass that looks now finds objects under management that are not read-only, which are its own. -/
def ownsManaged (p : Pass σ) : Bool :=
  !p.mode.isHotProxy && (p.plane.entities.hasPrimary p.plane.heap || p.plane.locations.hasPrimary p.plane.heap)

theorem overwritingMaster_of_turn (hturn : Turn t p q) :
    q.overwritingMaster = p.overwritingMaster ∨ q.overwritingMaster = p.ownsManaged := by
  cases hturn with
  | note m => exact .inr rfl
  | _ => exact .inl rfl

/-- What a pass is told in the first phase it would be told at any time before the last one. -/
theorem ownsManaged_of_building (hclosed : p.plane.Closed) (hp : Building p.plane.heap.size p q) :
    q.ownsManaged = p.ownsManaged := by
  have hprimary : ∀ k, (q.plane.registry k).hasPrimary q.plane.heap = (p.plane.registry k).hasPrimary p.plane.heap := by
    intro k
    rw [Registry.hasPrimary, Registry.hasPrimary, hp.extend.registry, Bool.eq_iff_iff, List.any_eq_true,
      List.any_eq_true]
    refine exists_congr fun e => and_congr_right fun he => ?_
    obtain ⟨id, hid⟩ := OrderedMap.mem_values_iff.1 he
    have hvalid : p.plane.heap.Valid e.object := hclosed k id _ (congrArg (Option.map Registered.object) hid)
    have hread : q.plane.heap.read e.object = p.plane.heap.read e.object := hp.extend.read_old _ hvalid
    rw [hread]
  have hentities := hprimary .entity
  have hlocations := hprimary .location
  simp only [Plane.registry] at hentities hlocations
  rw [ownsManaged, ownsManaged, hp.mode, hentities, hlocations]

/-- No phase between the first and the last tells a pass otherwise than it would have been told when it began. -/
theorem overwritingMaster_of_turns (hclosed : p.plane.Closed) (hp : Building p.plane.heap.size p q)
    (hturns : Turns t q r) : r.overwritingMaster = q.overwritingMaster ∨ r.overwritingMaster = p.ownsManaged := by
  induction hturns with
  | refl => exact .inl rfl
  | tail hqr hturn ih =>
    rcases overwritingMaster_of_turn hturn with hsame | hlook
    · rw [hsame]
      exact ih
    · exact .inr (hlook.trans (ownsManaged_of_building hclosed (hp.trans (building_of_turns hp.sound hqr))))

theorem overwritingMaster_of_loadManifest {found : RawData × Manifest}
    (hp : (loadManifest t h).on p = (.ok found, q)) : q.overwritingMaster = q.ownsManaged := by
  obtain ⟨-, u, rfl⟩ := exists_noted_of_loadManifest t h hp
  rfl

/-- The phases between the first and the last get from pass to pass by turns only, wherever they end. -/
theorem moves_afterManifest {found : RawData × Manifest} (hp : (loadManifest t h).on p = (.ok found, q)) :
    Step.Moves (Turns t) (do
      rebuildCatalog t h found.2
      makeLocationsAndEntities t h found.2
      let snapshot ← loadSnapshot h found.1
      makeAdjuncts t h snapshot
      reconstructAll t h snapshot
      attachAdjuncts t h snapshot
      pure snapshot) q := by
  obtain ⟨raw, m⟩ := found
  obtain rfl := eq_payloads_of_loadManifest t h hp
  refine (moves_rebuildCatalog t h _ q).bind fun _ p _ => ?_
  refine (moves_makeLocationsAndEntities t h _ p).bind fun _ p _ => ?_
  refine (moves_loadSnapshot t h _ p).bind fun snapshot q hp => ?_
  obtain rfl := eq_snapshot_of_loadSnapshot h hp
  refine (moves_makeAdjuncts t h _ q).bind fun _ p _ => ?_
  refine (moves_reconstructAll t h p).bind fun _ p _ => ?_
  exact (moves_attachAdjuncts t h _ p).bind fun _ p _ => .pure _ p

/-- Once the first phase is over, a pass has been told of the master what was so when it began, wherever it is stopped
before the last phase. -/
theorem overwritingMaster_of_build (hs : p.scratch.Sound p.plane.heap.size p.plane) (hclosed : p.plane.Closed)
    {found : RawData × Manifest} (hfound : (loadManifest t h).on p = (.ok found, q))
    {result : Except RebindError Snapshot} (hb : (build t h).on p = (result, r)) :
    r.overwritingMaster = p.ownsManaged := by
  have hbuilding : Building p.plane.heap.size p q :=
    building_of_turns hs ((moves_loadManifest t h p).to hfound)
  have htold : q.overwritingMaster = p.ownsManaged :=
    (overwritingMaster_of_loadManifest hfound).trans (ownsManaged_of_building hclosed hbuilding)
  rw [build, Step.on_bind, hfound] at hb
  rcases overwritingMaster_of_turns hclosed hbuilding ((moves_afterManifest hfound).to hb) with hsame | hlook
  · exact hsame.trans htold
  · exact hlook

end Pass

theorem Plane.RegistriesAgree.closed {p : Plane} (hp : p.RegistriesAgree) : p.Closed := by
  have hvalid : ∀ k, k.Registered → ∀ id a, (p.registry k).get? id = some a → p.heap.Valid a := by
    intro k hk id a ha
    obtain ⟨e, he, rfl⟩ := Option.map_eq_some_iff.1 ha
    exact (hp k hk id e he).valid
  intro k id a ha
  by_cases hk : k = .location
  · exact hvalid k (.inl hk) id a ha
  · have hsame : p.registry k = p.registry .entity := p.registry_eq_of_iff (by simp [hk])
    exact hvalid .entity (.inr rfl) id a (hsame ▸ ha)

namespace Manager

open Pass (Tidies Echo)

variable {m : Manager} {setup : Setup} {source : Source} {time : Nat} {h : Handler σ} {s : σ} {mode : ManagementMode}

/-! ## Whole passes -/

/-- The pass gets through its first phase. -/
def ReadsManifest (m : Manager) (setup : Setup) (source : Source) (h : Handler σ) (s : σ) (mode : ManagementMode) :
    Prop := ((Pass.loadManifest (m.task setup source mode) h).on (m.opening h s mode)).1.isOk = true

instance (m : Manager) (setup : Setup) (source : Source) (h : Handler σ) (s : σ) (mode : ManagementMode) :
    Decidable (m.ReadsManifest setup source h s mode) := inferInstanceAs (Decidable (_ = _))

/-- A pass ends somewhere before its last phase, or somewhere after it has entered that. -/
theorem exists_tidies (m : Manager) (setup : Setup) (source : Source) (time : Nat) (h : Handler σ) (s : σ)
    (mode : ManagementMode) : ∃ result p,
      (Pass.build (m.task setup source mode) h).on (m.opening h s mode) = (result, p) ∧
        Tidies p (m.runPass setup source time h (.new mode) s).pass := by
  obtain ⟨result, r, hv, hecho, -⟩ := exists_verdict m setup source time h s mode
  rw [Pass.verdict_eq, Step.on_bind] at hv
  rcases hb : (Pass.build (m.task setup source mode) h).on (m.opening h s mode) with ⟨e | snapshot, p⟩
  · rw [hb] at hv
    obtain ⟨-, rfl⟩ := Prod.mk.inj hv
    exact ⟨_, p, rfl, .of_echo hecho⟩
  · rw [hb] at hv
    have hconclude := Pass.tidies_conclude (t := m.task setup source mode) (h := h)
      (.of_sound (building_of_build hb).sound) snapshot
    exact ⟨_, p, rfl, IsTrans.trans _ _ _ (hconclude.to hv) (.of_echo hecho)⟩

/-- A pass leaves the registries in agreement with their objects. -/
theorem tidy_runPass (m : Manager) (setup : Setup) (source : Source) (time : Nat) (h : Handler σ) (s : σ)
    (mode : ManagementMode) : m.plane.Tidy (m.runPass setup source time h (.new mode) s).manager.plane := by
  obtain ⟨result, p, hb, htidies⟩ := exists_tidies m setup source time h s mode
  have hopening : m.plane.Tidy (m.opening h s mode).plane := .of_told (told_opening m h s mode)
  exact (hopening.trans (.of_extends (building_of_build hb).extend)).trans htidies.plane

/-- A pass that gets through its first phase is told whether the manager has objects under management that are not
read-only, if it is a pass of a master. -/
theorem overwritingMaster_runPass (hclosed : m.plane.Closed) (hread : m.ReadsManifest setup source h s mode) :
    (m.runPass setup source time h (.new mode) s).iteration.overwritingMaster = (m.opening h s mode).ownsManaged := by
  obtain ⟨result, p, hb, htidies⟩ := exists_tidies m setup source time h s mode
  unfold ReadsManifest at hread
  rcases hfound : (Pass.loadManifest (m.task setup source mode) h).on (m.opening h s mode) with ⟨e | found, q⟩
  · rw [hfound] at hread
    cases hread
  · have hclosed' : (m.opening h s mode).plane.Closed := (told_opening m h s mode).echo.closed hclosed
    have htold := Pass.overwritingMaster_of_build (sound_opening m h s mode) hclosed' hfound hb
    exact htidies.overwritingMaster.trans htold

/-! ## Whatever is done to a manager -/

/-- The managers that come of a new one as objects are made, as they are managed and dropped, one by one and in trees,
as transitions are noted and forgotten, and as passes are run. -/
inductive Reachable : Manager → Prop
  | new : Reachable {}
  | adopt {m : Manager} (hm : Reachable m) (o : Object) : Reachable { m with plane := (m.plane.adopt o).2 }
  | manage {m : Manager} (hm : Reachable m) {k : ObjectKind} (hk : k.Registered) {a : Handle}
      (ha : m.plane.HasObject k a) : Reachable { m with plane := (m.plane.manage k a).2 }
  | setTransition {m : Manager} (hm : Reachable m) {k : ObjectKind} (hk : k.Registered) (id : String)
      (mode : Transition) :
      Reachable { m with plane := m.plane.setRegistry k ((m.plane.registry k).setTransition id mode) }
  | manageTree {m : Manager} (hm : Reachable m) {k : ObjectKind} (hk : k.Registered)
      {children : OrderedMap String (List Handle)} {root : Handle} (hroot : m.plane.HasObject k root)
      (hchildren : ∀ id l, children.get? id = some l → ∀ a ∈ l, m.plane.HasObject k a) :
      Reachable { m with plane := (m.plane.manageTree k children root).2 }
  | clearPending {m : Manager} (hm : Reachable m) {k : ObjectKind} (hk : k.Registered) :
      Reachable { m with plane := m.plane.setRegistry k (m.plane.registry k).clearPending }
  | unmanage {m : Manager} (hm : Reachable m) {k : ObjectKind} (hk : k.Registered) (id : String) (mode : Transition) :
      Reachable { m with plane := (m.plane.unmanage k id mode).2 }
  | pass {m : Manager} (hm : Reachable m) {σ : Type} (setup : Setup) (source : Source) (time : Nat) (h : Handler σ)
      (s : σ) (mode : ManagementMode) : Reachable (m.runPass setup source time h (.new mode) s).manager

/-- The registries of a manager that can be reached agree with their objects. -/
theorem Reachable.registriesAgree (hm : Reachable m) : m.plane.RegistriesAgree := by
  induction hm with
  | new => exact Plane.registriesAgree_empty
  | @adopt m _ o ih => exact (Tidy.of_extends (.adopt (Nat.le_refl _) o)).agree ih
  | manage _ hk ha ih => exact (Tidy.manageWith hk ha .creating).agree ih
  | @setTransition m _ k _ id mode ih => exact (Tidy.setPending m.plane k _).agree ih
  | manageTree _ hk hroot hchildren ih => exact (Tidy.manageTree hk hroot hchildren).agree ih
  | @clearPending m _ k _ ih => exact (Tidy.setPending m.plane k _).agree ih
  | @unmanage m _ k _ id mode ih => exact (Tidy.unmanage m.plane k id mode).agree ih
  | @pass m _ σ setup source time h s mode ih => exact (tidy_runPass m setup source time h s mode).agree ih

/-- In every manager that can be reached, each entry of entities and of locations lies under the id of its object, and the
object is read-only just if the mode of the entry is a read-only one; so a registry has an object that is not read-only
just if it has such a mode. A pass that gets through its first phase ends with the note that it overwrites a master just
if it is a pass of a master, and an entity or a location was registered with such a mode before it. -/
theorem modes_tell_what_is_writable (hm : Reachable m) (setup : Setup) (source : Source) (time : Nat) (h : Handler σ)
    (s : σ) (mode : ManagementMode) :
    let writable (k : ObjectKind) : Prop :=
      ∃ id e, (m.plane.registry k).objects.get? id = some e ∧ e.mode.isReadOnly = false
    m.plane.RegistriesAgree ∧
      (∀ k, k.Registered → ((m.plane.registry k).hasPrimary m.plane.heap = true ↔ writable k)) ∧
      (m.ReadsManifest setup source h s mode →
        ((m.runPass setup source time h (.new mode) s).iteration.overwritingMaster = true ↔
          mode = .master ∧ (writable .entity ∨ writable .location))) := by
  intro writable
  have hagree := hm.registriesAgree
  have hprimary : ∀ k, k.Registered → ((m.plane.registry k).hasPrimary m.plane.heap = true ↔ writable k) :=
    fun k hk => hagree.hasPrimary_iff hk
  refine ⟨hagree, hprimary, fun hread => ?_⟩
  have hmode : (!mode.isHotProxy) = true ↔ mode = .master := by cases mode <;> decide
  have howns : (m.opening h s mode).ownsManaged = (!mode.isHotProxy &&
      ((m.plane.registry .entity).hasPrimary m.plane.heap || (m.plane.registry .location).hasPrimary m.plane.heap)) :=
    rfl
  rw [overwritingMaster_runPass hagree.closed hread, howns, Bool.and_eq_true, Bool.or_eq_true, hmode,
    hprimary .entity (.inr rfl), hprimary .location (.inl rfl)]

/-! ## A manager with a location of its own -/

/-- An application and a location that were made outside of any pass. -/
def twoObjects : Plane :=
  ((({} : Plane).adopt (.blank .entity "app" "trellis.entity.BasicApplication")).2.adopt
    (.blank .location "lab" "trellis.location.BasicLocation")).2

/-- The location is managed, and the application with the transition that was noted for it. -/
def labOwner : Manager :=
  let p := (twoObjects.manage .location ⟨1⟩).2
  let p := p.setRegistry .entity ((p.registry .entity).setTransition "app" .rebindingReadOnly)
  { plane := (p.manageTree .entity ∅ ⟨0⟩).2 }

theorem reachable_labOwner : Reachable labOwner := by
  have hmade : Reachable { plane := twoObjects } := (Reachable.new.adopt _).adopt _
  have hlab : Reachable { plane := (twoObjects.manage .location ⟨1⟩).2 } :=
    hmade.manage (.inl rfl) ⟨Nat.one_lt_two, rfl⟩
  have hnoted := hlab.setTransition (.inr rfl) "app" .rebindingReadOnly
  exact hnoted.manageTree (.inr rfl) ⟨Nat.two_pos, by decide +kernel⟩ nofun

/-- A pass of a master over an empty store overwrites it, for the sake of the location. -/
theorem modes_tell_what_is_writable_labOwner :
    Reachable labOwner ∧ labOwner.ReadsManifest .stock (MemoryStore.holding []).source (.refusing []) () .master ∧
      (labOwner.plane.registry .entity).hasPrimary labOwner.plane.heap = false ∧
      (labOwner.runPass .stock (MemoryStore.holding []).source 0 (.refusing []) (.new .master)
        ()).iteration.overwritingMaster = true := by
  obtain ⟨-, -, htold⟩ := modes_tell_what_is_writable reachable_labOwner .stock
    (MemoryStore.holding []).source 0 (.refusing []) () .master
  have hread : labOwner.ReadsManifest .stock (MemoryStore.holding []).source (.refusing []) () .master := by
    decide +kernel
  refine ⟨reachable_labOwner, hread, by decide +kernel, (htold hread).2 ⟨rfl, .inr ⟨"lab", ⟨⟨1⟩, .creating⟩, ?_, rfl⟩⟩⟩
  decide +kernel

end Manager

end ManagementPlane
