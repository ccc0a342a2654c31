import ManagementPlane.Proofs.TwinLookups

/-!
# Passes side by side, until the last phase

* `Pass.Twin n m need p q` : two passes with the same shells and the same handler, in live managers with the same new
  objects. The locations and entities that `need` lists have shells;
* `Task.counting` : the task of a manager with another count of passes;
* `Pass.makeShells` : the phases before the full mementos are read, which end alike on both sides;
* `Pass.Twin.build` : so do all the phases before the last, if what the store refers to has shells by then.
-/

namespace ManagementPlane

open Plane (New)
open Step (Agree)

/-! ## What mementos refer to -/

namespace Snapshot

variable {s : Snapshot} {k : ObjectKind} {mem : Memento} {id : String}

theorem parent_mem_references (hk : k = .entity ∨ k = .location) (hm : mem ∈ (s.ofKind k).values)
    (hp : mem.parent = some id) : (k, id) ∈ s.references := by
  unfold references
  rcases hk with rfl | rfl
  · refine List.mem_append_left _ (List.mem_flatMap.2 ⟨mem, hm, ?_⟩)
    simp [entityReferences, hp]
  · refine List.mem_append_right _ (List.mem_flatMap.2 ⟨mem, hm, ?_⟩)
    simp [locationReferences, hp]

theorem location_mem_references (hm : mem ∈ (s.ofKind .entity).values) (hl : id ∈ mem.locations) :
    (.location, id) ∈ s.references := by
  refine List.mem_append_left _ (List.mem_flatMap.2 ⟨mem, hm, ?_⟩)
  simp [entityReferences, hl]

end Snapshot

/-! ## The relation -/

/-- The same task of a manager that has counted other passes. -/
abbrev Task.counting (t : Task) (hotPasses : Int) : Task := { t with hotPasses }

namespace Pass

variable {σ : Type}

/-- Two passes with the same shells and the same handler, in live managers with the same new objects. The needed
locations and entities have shells. -/
structure Twin (n m : Nat) (need : List (ObjectKind × String)) (p q : Pass σ) : Prop where
  sound : p.scratch.Sound n p.plane
  plane : p.plane.Twin n m q.plane
  scratch : p.scratch.Twin n m q.scratch
  mode : q.mode = p.mode
  phase : q.phase = p.phase
  isEmpty : q.isEmpty = p.isEmpty
  handler : q.handler = p.handler
  needs : ∀ r ∈ need, r.1.Registered → p.scratch.contains r.1 r.2 = true

variable {n m : Nat} {need : List (ObjectKind × String)} {p q : Pass σ} {k : ObjectKind} {id : String}
  {a : Handle}

namespace Twin

theorem new (h : p.Twin n m need q) (ha : p.scratch.get? k id = some a) : New n p.plane a :=
  ⟨h.sound.fresh ha, h.sound.valid ha⟩

theorem get? (h : p.Twin n m need q) (k : ObjectKind) (id : String) :
    q.scratch.get? k id = (p.scratch.get? k id).map (Handle.moved n m) := h.scratch.get? k id

theorem id_read (h : p.Twin n m need q) (ha : New n p.plane a) :
    (q.plane.read (a.moved n m)).id = (p.plane.read a).id := (h.plane.sameItem_of_new ha).1

/-- The live managers change, each on its side. -/
theorem withPlane (h : p.Twin n m need q) {plane plane' : Plane} (hplane : plane.Twin n m plane')
    (he : Plane.Extends n p.plane plane) : ({ p with plane } : Pass σ).Twin n m need { q with plane := plane' } :=
  ⟨h.sound.extend he, hplane, h.scratch, h.mode, h.phase, h.isEmpty, h.handler, h.needs⟩

/-- Either side puts something on record. -/
theorem record (h : p.Twin n m need q) (e e' : Event) : (p.record e).Twin n m need (q.record e') := by
  have hplane : (p.plane.record e).Twin n m (q.plane.record e') := h.plane.of_heap rfl rfl rfl rfl
  exact ⟨h.sound.of_heap rfl, hplane, h.scratch, h.mode, h.phase, h.isEmpty, h.handler, h.needs⟩

/-- Both handlers come to the same state. -/
theorem withHandler (h : p.Twin n m need q) (s : σ) :
    ({ p with handler := s } : Pass σ).Twin n m need { q with handler := s } :=
  ⟨h.sound, h.plane, h.scratch, h.mode, h.phase, h.isEmpty, rfl, h.needs⟩

theorem enter (h : p.Twin n m need q) (phase : Nat) :
    ({ p with phase } : Pass σ).Twin n m need { q with phase } :=
  ⟨h.sound, h.plane, h.scratch, h.mode, rfl, h.isEmpty, h.handler, h.needs⟩

theorem note (h : p.Twin n m need q) (manifest : Manifest) :
    (noteManifest manifest p).Twin n m need (noteManifest manifest q) :=
  ⟨h.sound, h.plane, h.scratch, h.mode, h.phase, rfl, h.handler, h.needs⟩

/-- The same shell joins both passes. -/
theorem join (h : p.Twin n m need q) (ha : New n p.plane a) :
    (Pass.join a p).Twin n m need (Pass.join (a.moved n m) q) := by
  obtain ⟨hscratch, hplane⟩ := h.scratch.register h.plane ha
  refine ⟨h.sound.register ha.1 ha.2, hplane, hscratch, h.mode, h.phase, h.isEmpty, h.handler,
    fun r hr hk => ?_⟩
  have hold := h.needs r hr hk
  have hget := Scratch.get?_register p.scratch p.plane a r.1 r.2
  show ((p.scratch.register p.plane a).1.get? r.1 r.2).isSome = true
  rw [hget]
  split
  · rfl
  · exact hold

/-- The same adjunct leaves both passes. -/
theorem leave (h : p.Twin n m need q) (hk : k.isAdjunct) (id : String) :
    (Pass.leave k id p).Twin n m need (Pass.leave k id q) := by
  refine ⟨h.sound.unregister k id, h.plane, h.scratch.unregister k id, h.mode, h.phase, h.isEmpty,
    h.handler, fun r hr hr' => ?_⟩
  have hold := h.needs r hr hr'
  have hget := Scratch.get?_unregister p.scratch k id r.1 r.2
  show ((p.scratch.unregister k id).2.get? r.1 r.2).isSome = true
  rw [hget, if_neg]
  · exact hold
  · rintro ⟨rfl, -⟩
    rcases hr' with he | he <;> rw [he] at hk <;> cases hk

/-- Both sides can refer to the same objects, if of locations and entities only needed ones are asked for. -/
theorem known_eq (h : p.Twin n m need q) (hk : k.Registered → (k, id) ∈ need) :
    q.scratch.known q.plane k id = p.scratch.known p.plane k id :=
  h.plane.known_eq h.scratch (fun _ _ ha => h.new ha) fun hr => h.needs _ (hk hr) hr

end Twin

/-! ## Notes and notifications -/

section Agree
variable {t : Task} {h : Handler σ} {hot : Int} {R : Pass σ → Pass σ → Prop}

theorem agree_tell {ε : Type} (n : Notification) (answer : Step σ ε Unit) (hh : q.handler = p.handler)
    (hr : ∀ s, R { p.record (.notified n) with handler := s } { q.record (.notified n) with handler := s }) :
    Agree R Eq (tell n answer) (tell n answer) p q := by
  unfold Agree
  rw [on_tell, on_tell, hh]
  rcases answer.on p.handler with ⟨e | u, s⟩
  · exact .error (hr s)
  · exact .ok rfl (hr s)

theorem Twin.tell (hpq : p.Twin n m need q) {ε : Type} (note : Notification) (answer : Step σ ε Unit) :
    Agree (Twin n m need) Eq (Pass.tell note answer) (Pass.tell note answer) p q :=
  agree_tell note answer hpq.handler fun s => (hpq.record _ _).withHandler s

theorem Twin.rebindFailed (hpq : p.Twin n m need q) (k : ObjectKind) (ha : New n p.plane a)
    (e : ObjectError) : Agree (Twin n m need) Eq (Pass.rebindFailed h k a e)
      (Pass.rebindFailed h k (a.moved n m) e) p q := by
  refine .read_bind ?_
  rw [hpq.id_read ha]
  exact hpq.tell _ _

theorem Twin.log (hpq : p.Twin n m need q) (level level' : LogLevel) (message message' : Pass σ → String) :
    Agree (Twin n m need) Eq (Pass.log t level message) (Pass.log (t.counting hot) level' message') p q :=
  .update rfl (hpq.record _ _)

theorem Twin.logCourse (hpq : p.Twin n m need q) (message : String) :
    Agree (Twin n m need) Eq (Pass.logCourse t message) (Pass.logCourse (t.counting hot) message) p q :=
  .read_bind (hpq.log _ _ _ _)

theorem Twin.entering (hpq : p.Twin n m need q) (phase : Nat) :
    Agree (Twin n m need) Eq (Pass.enter phase) (Pass.enter phase) p q := .update rfl (hpq.enter phase)

/-! ## Making shells -/

/-- The same shell is made on both sides and joins, or both sides report that it could not be made. -/
theorem Twin.makeShell (hpq : p.Twin n m need q) {type : String} (htypes : t.types.GivesNone)
    {make make' : Pass σ → Plane → Except ObjectError Handle × Plane}
    (hmake : ∃ item candidates d, Instantiator.Asked t.types k id candidates d ∧
      make p p.plane = Instantiator.makeLoaded k d id item candidates p.plane ∧
      make' q q.plane = Instantiator.makeLoaded k d id item candidates q.plane) :
    Agree (Twin n m need) Eq (Pass.makeShell h k id type make) (Pass.makeShell h k id type make') p q := by
  obtain ⟨item, candidates, d, hd, hp, hq⟩ := hmake
  have hmade := Instantiator.made_makeLoaded hpq.sound.size_le k d id item candidates
  have halike := hpq.plane.makeLoaded htypes hd item
  refine .total_bind ?_
  dsimp only
  rw [hp, hq]
  generalize Instantiator.makeLoaded k d id item candidates p.plane = x at hmade halike
  generalize Instantiator.makeLoaded k d id item candidates q.plane = y at halike
  cases halike with
  | error hplane => exact (hpq.withPlane hplane hmade).tell _ _
  | @ok shell _ plane _ hb hplane =>
    subst hb
    obtain ⟨hext, rfl, hv, -⟩ := hmade
    exact .update rfl ((hpq.withPlane hplane hext).join ⟨hpq.sound.size_le, hv⟩)

theorem Twin.load (hpq : p.Twin n m need q) (k : ObjectKind) (type : String) (item : Option String) :
    (instantiator (t.counting hot) q).load q.plane k type item =
      (instantiator t p).load p.plane k type item := by
  unfold Instantiator.load
  have hfind := hpq.plane.sameItems.find (fun id => hpq.plane.rel_item? hpq.scratch fun _ ha => hpq.new ha) t.types
    t.settings.inferCatalogItem type item
  exact congrArg (· >>= fun d => Instantiator.checkKind d k) hfind

theorem Twin.makeLocation (hpq : p.Twin n m need q) (htypes : t.types.GivesNone) (e : String × String) :
    Agree (Twin n m need) Eq (Pass.makeLocation t h e) (Pass.makeLocation (t.counting hot) h e) p q :=
  hpq.makeShell htypes ⟨_, _, _, ShellRequest.asked (.location e.1 e.2) (instantiator t p) p.plane, rfl, by
    unfold Instantiator.newLocation
    rw [hpq.load]
    rfl⟩

theorem Twin.makeEntity (hpq : p.Twin n m need q) (htypes : t.types.GivesNone) (manifest : Manifest)
    (e : EntitySummary) : Agree (Twin n m need) Eq (Pass.makeEntity t h manifest e)
      (Pass.makeEntity (t.counting hot) h manifest e) p q :=
  hpq.makeShell htypes ⟨_, _, _, ShellRequest.asked (.entity e.id e.type _) (instantiator t p) p.plane, rfl, by
    unfold Instantiator.newEntity
    rw [hpq.load, hpq.plane.sameItems.provenance?]
    rfl⟩

theorem Twin.makeAdjunct (hpq : p.Twin n m need q) (htypes : t.types.GivesNone) (k : ObjectKind)
    (mem : Memento) : Agree (Twin n m need) Eq (Pass.makeAdjunct t h k mem)
      (Pass.makeAdjunct (t.counting hot) h k mem) p q :=
  hpq.makeShell htypes ⟨_, _, _, ShellRequest.asked (.adjunct k mem) (instantiator t p) p.plane, rfl, by
    unfold Instantiator.newAdjunct
    rw [hpq.load]
    rfl⟩

theorem Twin.makeCatalogItem (hpq : p.Twin n m need q) (htypes : t.types.GivesNone)
    (item : CatalogItem) : Agree (Twin n m need) Eq (Pass.makeCatalogItem t h item)
      (Pass.makeCatalogItem (t.counting hot) h item) p q :=
  hpq.makeShell htypes
    ⟨_, _, _, ShellRequest.asked (.catalogItem item) (instantiator t p) p.plane, rfl, rfl⟩

/-! ## The catalog -/

theorem Twin.populateCatalogItem (hpq : p.Twin n m need q) (item : CatalogItem) :
    Agree (Twin n m need) Eq (Pass.populateCatalogItem h item) (Pass.populateCatalogItem h item) p q := by
  refine .read_bind ?_
  rw [hpq.get?]
  rcases ha : p.scratch.get? .catalogItem item.id with _ | a
  · exact hpq.tell _ _
  · have hnew := hpq.new ha
    obtain ⟨hres, hplane⟩ := hpq.plane.reconstructItem hnew item
    have hext := Plane.Extends.reconstructItem (p := p.plane) hnew.1 item
    have hnext := hpq.withPlane hplane hext
    refine .total_bind ?_
    dsimp only
    rw [← hres]
    rcases (p.plane.reconstructItem a item).1 with e | u
    · exact hnext.rebindFailed .catalogItem (hnew.of_size_le hext.size_le) e
    · exact .pure rfl hnext

theorem Twin.resetCatalog (hpq : p.Twin n m need q) :
    (Pass.resetCatalog p).Twin n m need (Pass.resetCatalog q) := by
  have hplane := hpq.plane.catalog_ofItems (l := p.scratch.shells .catalogItem) fun a ha =>
    hpq.new (hpq.sound.mem_shells_iff.1 ha)
  rw [← hpq.scratch.shells] at hplane
  exact hpq.withPlane hplane (.setCatalog _)

/-- The same objects are made on both sides. -/
theorem twin_adoptAll {objects : List Object} (ho : ∀ o ∈ objects, ∀ k, o.adjuncts k = []) {p q : Plane}
    (hpq : p.Twin n m q) :
    (adoptAll objects p).2.Twin n m (adoptAll objects q).2 ∧
      (adoptAll objects q).1 = (adoptAll objects p).1.map (Handle.moved n m) ∧
      ∀ a ∈ (adoptAll objects p).1, New n (adoptAll objects p).2 a := by
  induction objects generalizing p q with
  | nil => exact ⟨hpq, rfl, fun _ ha => nomatch ha⟩
  | cons o r ih =>
    have hone := hpq.adopt (ho o List.mem_cons_self)
    obtain ⟨htwin, hhandles, hnew⟩ := ih (fun o' h' => ho o' (List.mem_cons_of_mem _ h')) hone
    refine ⟨htwin, ?_, fun a ha => ?_⟩
    · show q.heap.next :: (adoptAll r (q.adopt o).2).1 = _
      rw [hhandles, ← hpq.next_moved]
      rfl
    · rcases List.mem_cons.1 ha with rfl | ha
      · have hfirst : New n (p.adopt o).2 p.heap.next := ⟨hpq.le, Nat.lt_succ_self _⟩
        exact hfirst.of_size_le (extends_adoptAll (n := 0) r (Nat.zero_le _)).size_le
      · exact hnew a ha

theorem twin_fillCatalog (items : List CatalogItem) {p q : Plane} (hpq : p.Twin n m q) :
    (fillCatalog items p).Twin n m (fillCatalog items q) := by
  have ho : ∀ o ∈ items.map Object.ofItem, ∀ k, o.adjuncts k = [] := by
    intro o ho k
    obtain ⟨i, -, rfl⟩ := List.mem_map.1 ho
    cases k <;> rfl
  obtain ⟨htwin, hhandles, hnew⟩ := twin_adoptAll ho hpq
  have hfill := htwin.catalog_ofItems hnew
  rw [← hhandles] at hfill
  exact hfill

theorem Twin.loadDefaultCatalog (hpq : p.Twin n m need q) :
    Agree (Twin n m need) Eq (Pass.loadDefaultCatalog t) (Pass.loadDefaultCatalog (t.counting hot)) p q := by
  unfold Pass.loadDefaultCatalog
  dsimp only
  split
  · exact .stop _ hpq
  · exact .update rfl (hpq.withPlane (twin_fillCatalog _ hpq.plane)
      (extends_fillCatalog _ hpq.sound.size_le))

theorem Twin.rebuildCatalog (hpq : p.Twin n m need q) (htypes : t.types.GivesNone)
    (manifest : Manifest) : Agree (Twin n m need) Eq (Pass.rebuildCatalog t h manifest)
      (Pass.rebuildCatalog (t.counting hot) h manifest) p q := by
  refine (hpq.entering 2).bind fun _ _ p q _ hpq => ?_
  dsimp only
  split
  · exact hpq.logCourse _
  · refine (hpq.logCourse _).bind fun _ _ p q _ hpq => ?_
    refine (Agree.forEach (R := Twin n m need) (fun i _ p q hpq => Twin.makeCatalogItem hpq htypes i) hpq).bind
      fun _ _ p q _ hpq => ?_
    refine (hpq.logCourse _).bind fun _ _ p q _ hpq => ?_
    refine (Agree.forEach (R := Twin n m need) (fun i _ p q hpq => Twin.populateCatalogItem hpq i) hpq).bind
      fun _ _ p q _ hpq => ?_
    refine .read_bind ?_
    rw [hpq.isEmpty]
    split
    · exact (hpq.logCourse _).bind fun _ _ p q _ hpq => .update rfl hpq.resetCatalog
    · exact (hpq.logCourse _).bind fun _ _ p q _ hpq => hpq.loadDefaultCatalog

/-! ## The phases -/

theorem Twin.loadManifest (hpq : p.Twin n m need q) :
    Agree (Twin n m need) Eq (Pass.loadManifest t h) (Pass.loadManifest (t.counting hot) h) p q := by
  have hl : ∀ kind message e (p q : Pass σ), p.Twin n m need q → Agree (Twin n m need) Eq
      ((listener h).loadFailed kind message e) ((listener h).loadFailed kind message e) p q :=
    fun _ _ _ _ _ hpq => hpq.tell _ _
  refine (hpq.entering 1).bind fun _ _ p q _ hpq => ?_
  refine (hpq.logCourse _).bind fun _ _ p q _ hpq => ?_
  refine ((agree_load hl t.source hpq).mapStop _).bind fun raw _ p q he hpq => ?_
  subst he
  refine ((agree_decode_manifest hl raw hpq).mapStop _).bind fun manifest _ p q he hpq => ?_
  subst he
  exact (Agree.update (Q := Eq) rfl (hpq.note manifest)).bind fun _ _ p q _ hpq => .pure rfl hpq

theorem Twin.makeLocationsAndEntities (hpq : p.Twin n m need q) (htypes : t.types.GivesNone)
    (manifest : Manifest) : Agree (Twin n m need) Eq (Pass.makeLocationsAndEntities t h manifest)
      (Pass.makeLocationsAndEntities (t.counting hot) h manifest) p q := by
  refine (hpq.entering 3).bind fun _ _ p q _ hpq => ?_
  refine (hpq.logCourse _).bind fun _ _ p q _ hpq => ?_
  refine (Agree.forEach (R := Twin n m need) (fun e _ p q hpq => Twin.makeLocation hpq htypes e) hpq).bind
    fun _ _ p q _ hpq => ?_
  refine (hpq.logCourse _).bind fun _ _ p q _ hpq => ?_
  exact .forEach (fun e _ p q hpq => Twin.makeEntity hpq htypes manifest e) hpq

/-- The full mementos are read alike if what they refer to is needed. -/
theorem Twin.loadSnapshot (hpq : p.Twin n m need q) {raw : RawData}
    (hneed : ∀ r ∈ raw.snapshot.references, r.1.Registered → r ∈ need) :
    Agree (Twin n m need) Eq (Pass.loadSnapshot h raw) (Pass.loadSnapshot h raw) p q := by
  refine (hpq.entering 4).bind fun _ _ p q _ hpq => .read_bind (.mapStop _ ?_)
  refine agree_decode_snapshot (fun _ _ _ _ _ hpq => hpq.tell _ _) (fun _ _ _ _ hpq => hpq.tell _ _) raw
    (fun r hr => (hpq.known_eq (hneed r hr)).symm) hpq

theorem Twin.makeAdjuncts (hpq : p.Twin n m need q) (htypes : t.types.GivesNone) (snapshot : Snapshot) :
    Agree (Twin n m need) Eq (Pass.makeAdjuncts t h snapshot)
      (Pass.makeAdjuncts (t.counting hot) h snapshot) p q := by
  refine (hpq.entering 5).bind fun _ _ p q _ hpq => .forEach (fun k _ p q hpq => ?_) hpq
  unfold makeAdjunctsOf
  dsimp only
  split
  · exact hpq.logCourse _
  · exact (hpq.logCourse _).bind fun _ _ p q _ hpq =>
      .forEach (fun mem _ p q hpq => Twin.makeAdjunct hpq htypes k mem) hpq

/-- Populating needs what the mementos of entities and locations refer to. -/
theorem Twin.reconstructOne {snapshot : Snapshot} (hpq : p.Twin n m need q)
    (hneed : ∀ r ∈ snapshot.references, r.1.Registered → r ∈ need) {mem : Memento}
    (hm : mem ∈ (snapshot.ofKind k).values) :
    Agree (Twin n m need) Eq (Pass.reconstructOne h k mem) (Pass.reconstructOne h k mem) p q := by
  refine .read_bind ?_
  rw [hpq.get?]
  rcases ha : p.scratch.get? k mem.id with _ | a
  · exact hpq.tell _ _
  · have hnew := hpq.new ha
    have hkind : (p.plane.read a).kind = k := hpq.sound.kind ha
    have hknown : (p.plane.read a).reconstruct (p.scratch.known p.plane) mem =
        (p.plane.read a).reconstruct (q.scratch.known q.plane) mem := by
      refine Object.reconstruct_congr (fun id hp hk => ?_) fun hk id hl => ?_
      · rw [hkind] at hk ⊢
        exact (hpq.known_eq (hneed _ (Snapshot.parent_mem_references hk hm hp))).symm
      · obtain rfl : k = .entity := hkind.symm.trans hk
        exact (hpq.known_eq (hneed _ (Snapshot.location_mem_references hm hl))).symm
    obtain ⟨hres, hplane⟩ := hpq.plane.reconstruct hnew hknown p.scratch.allReadOnly
    have hext := Plane.Extends.reconstruct (p := p.plane) (p.scratch.known p.plane)
      p.scratch.allReadOnly hnew.1 mem
    have hnext := hpq.withPlane hplane hext
    refine .total_bind ?_
    dsimp only
    rw [hpq.scratch.allReadOnly, ← hres]
    rcases (p.plane.reconstruct (p.scratch.known p.plane) p.scratch.allReadOnly a mem).1 with e | u
    · refine (hnext.rebindFailed k (hnew.of_size_le hext.size_le) e).bind fun _ _ p q _ hpq => ?_
      split
      · next hk => exact .update rfl (hpq.leave hk mem.id)
      · exact .pure rfl hpq
    · exact .pure rfl hnext

theorem Twin.reconstructAll {snapshot : Snapshot} (hpq : p.Twin n m need q)
    (hneed : ∀ r ∈ snapshot.references, r.1.Registered → r ∈ need) :
    Agree (Twin n m need) Eq (Pass.reconstructAll t h snapshot)
      (Pass.reconstructAll (t.counting hot) h snapshot) p q := by
  have hsorted : ∀ k (nodes : OrderedMap String Memento), snapshot.ofKind k = nodes →
      ∀ {p q : Pass σ}, p.Twin n m need q → Agree (Twin n m need) Eq
        (Step.forEach (sortParentFirst nodes) (Pass.reconstructOne h k))
        (Step.forEach (sortParentFirst nodes) (Pass.reconstructOne h k)) p q := by
    rintro k _ rfl p q hpq
    exact Agree.forEach (R := Twin n m need)
      (fun mem hm p q hpq => Twin.reconstructOne hpq hneed (mem_of_mem_sortParentFirst hm)) hpq
  refine (hpq.entering 6).bind fun _ _ p q _ hpq => ?_
  refine (hpq.logCourse _).bind fun _ _ p q _ hpq => ?_
  refine (hsorted .location _ rfl hpq).bind fun _ _ p q _ hpq => ?_
  refine (Agree.forEach (R := Twin n m need) (fun k _ p q hpq => ?_) hpq).bind fun _ _ p q _ hpq => ?_
  · unfold reconstructAdjuncts
    dsimp only
    split
    · exact (hpq.logCourse _).bind fun _ _ p q _ hpq =>
        Agree.forEach (R := Twin n m need) (fun mem hm p q hpq => Twin.reconstructOne hpq hneed hm) hpq
    · exact .pure rfl hpq
  · exact (hpq.logCourse _).bind fun _ _ p q _ hpq => hsorted .entity _ rfl hpq

/-! ### Joining -/

/-- Two passes side by side in which a given object is one of the new ones. -/
def TwinWith (n m : Nat) (need : List (ObjectKind × String)) (a : Handle) (p q : Pass σ) : Prop :=
  p.Twin n m need q ∧ New n p.plane a

theorem TwinWith.tell (hpq : TwinWith n m need a p q) {ε : Type} (note : Notification)
    (answer : Step σ ε Unit) :
    Agree (TwinWith n m need a) Eq (Pass.tell note answer) (Pass.tell note answer) p q :=
  agree_tell note answer hpq.1.handler fun s => ⟨(hpq.1.record _ _).withHandler s, hpq.2⟩

theorem TwinWith.rebindFailed (hpq : TwinWith n m need a p q) (k : ObjectKind) (e : ObjectError) :
    Agree (TwinWith n m need a) Eq (Pass.rebindFailed h k a e)
      (Pass.rebindFailed h k (a.moved n m) e) p q := by
  refine .read_bind ?_
  rw [hpq.1.id_read hpq.2]
  exact hpq.tell _ _

theorem TwinWith.attachOne (hpq : TwinWith n m need a p q) (k : ObjectKind) (id : String) :
    Agree (TwinWith n m need a) Eq (Pass.attachOne h a k id) (Pass.attachOne h (a.moved n m) k id) p q := by
  obtain ⟨htwin, ha⟩ := hpq
  refine .read_bind ?_
  rw [htwin.get?]
  rcases hb : p.scratch.get? k id with _ | b
  · exact .mapStop _ (TwinWith.tell ⟨htwin, ha⟩ _ _)
  · have hnew := htwin.new hb
    obtain ⟨hres, hplane⟩ := htwin.plane.addAdjunct ha hnew k
    have hext := Plane.Extends.addAdjunct (p := p.plane) ha.1 hnew.1 k
    have hnext : TwinWith n m need a _ _ :=
      ⟨htwin.withPlane hplane hext, ha.of_size_le hext.size_le⟩
    refine .total_bind ?_
    dsimp only
    rw [← hres]
    rcases (p.plane.addAdjunct a k b).1 with e | u
    · exact hnext.rebindFailed .entity e
    · exact .pure rfl hnext

theorem Twin.attachAllOf (hpq : p.Twin n m need q) (mem : Memento) :
    Agree (Twin n m need) Eq (Pass.attachAllOf t h mem) (Pass.attachAllOf (t.counting hot) h mem) p q := by
  refine .read_bind ?_
  rw [hpq.get?]
  rcases ha : p.scratch.get? .entity mem.id with _ | a
  · exact hpq.tell _ _
  · refine Agree.imp (R := TwinWith n m need a) (Q := Eq) ?_ (fun _ _ h => h.1) fun _ _ he => he
    refine .forEach (fun k _ p q hpq => ?_) ⟨hpq, hpq.new ha⟩
    unfold attachKind
    dsimp only
    split
    · exact .forEach (fun id _ p q hpq => TwinWith.attachOne hpq k id) hpq
    · exact .pure rfl hpq

theorem Twin.attachAdjuncts (hpq : p.Twin n m need q) (snapshot : Snapshot) :
    Agree (Twin n m need) Eq (Pass.attachAdjuncts t h snapshot)
      (Pass.attachAdjuncts (t.counting hot) h snapshot) p q := by
  refine (hpq.entering 7).bind fun _ _ p q _ hpq => ?_
  refine (hpq.logCourse _).bind fun _ _ p q _ hpq => ?_
  exact Agree.forEach (R := Twin n m need) (fun mem _ p q hpq => Twin.attachAllOf hpq mem) hpq

/-! ## All phases before the last -/

/-- The phases before the full mementos are read; the payloads. -/
def makeShells (t : Task) (h : Handler σ) : PassStep σ RawData := do
  let (raw, manifest) ← loadManifest t h
  rebuildCatalog t h manifest
  makeLocationsAndEntities t h manifest
  pure raw

theorem build_eq (t : Task) (h : Handler σ) : build t h = (do
    let raw ← makeShells t h
    let snapshot ← loadSnapshot h raw
    makeAdjuncts t h snapshot
    reconstructAll t h snapshot
    attachAdjuncts t h snapshot
    pure snapshot : PassStep σ Snapshot) := by
  unfold build makeShells
  simp only [bind_assoc, pure_bind]

theorem eq_payloads_of_makeShells {raw : RawData} (hp : (makeShells t h).on p = (.ok raw, q)) :
    raw = t.source.payloads := by
  obtain ⟨⟨raw', m⟩, _, hraw, hp⟩ := Step.on_bind_eq_ok_iff.1 hp
  obtain ⟨_, _, -, hp⟩ := Step.on_bind_eq_ok_iff.1 hp
  obtain ⟨_, _, -, hp⟩ := Step.on_bind_eq_ok_iff.1 hp
  rw [Step.on_pure] at hp
  exact (Except.ok.inj (Prod.mk.inj hp).1).symm.trans (eq_payloads_of_loadManifest t h hraw)

theorem Twin.makeShells (hpq : p.Twin n m need q) (htypes : t.types.GivesNone) :
    Agree (Twin n m need) Eq (Pass.makeShells t h) (Pass.makeShells (t.counting hot) h) p q := by
  refine hpq.loadManifest.bind fun raw _ p q he hpq => ?_
  subst he
  refine (hpq.rebuildCatalog htypes _).bind fun _ _ p q _ hpq => ?_
  exact (hpq.makeLocationsAndEntities htypes _).bind fun _ _ p q _ hpq => .pure rfl hpq

theorem Twin.need_nothing (hpq : p.Twin n m need q) : p.Twin n m [] q :=
  ⟨hpq.sound, hpq.plane, hpq.scratch, hpq.mode, hpq.phase, hpq.isEmpty, hpq.handler, fun _ hr => nomatch hr⟩

/-- The phases before the last end alike on both sides, if all that the store refers to has shells by the time the full
mementos are read. -/
theorem Twin.build (hpq : p.Twin n m [] q) (htypes : t.types.GivesNone)
    (hrefs : ∀ r ∈ t.source.snapshot.references, r.1.Registered →
      ((Pass.makeShells t h).on p).2.scratch.contains r.1 r.2 = true) :
    Agree (Twin n m []) Eq (Pass.build t h) (Pass.build (t.counting hot) h) p q := by
  rw [build_eq, build_eq]
  refine (hpq.makeShells htypes).bind_of_on fun raw _ p q hon he hpq => ?_
  subst he
  obtain rfl := eq_payloads_of_makeShells hon
  rw [hon] at hrefs
  have hpq : p.Twin n m t.source.snapshot.references q :=
    ⟨hpq.sound, hpq.plane, hpq.scratch, hpq.mode, hpq.phase, hpq.isEmpty, hpq.handler, hrefs⟩
  refine Agree.imp (R := Twin n m t.source.snapshot.references) (Q := Eq) ?_
    (fun _ _ h => h.need_nothing) fun _ _ he => he
  refine (hpq.loadSnapshot fun r hr _ => hr).bind_of_on fun snapshot _ p q hon he hpq => ?_
  subst he
  obtain rfl := eq_snapshot_of_loadSnapshot h hon
  refine (hpq.makeAdjuncts htypes _).bind fun _ _ p q _ hpq => ?_
  refine (hpq.reconstructAll fun r hr _ => hr).bind fun _ _ p q _ hpq => ?_
  exact (hpq.attachAdjuncts _).bind fun _ _ p q _ hpq => .pure rfl hpq

end Agree

end Pass

end ManagementPlane
