import ManagementPlane.Pass.Run
import ManagementPlane.Proofs.Lineage
import ManagementPlane.Proofs.Making
import ManagementPlane.Proofs.Reading
import ManagementPlane.Proofs.Shells
import Mathlib.Logic.Relation

/-!
# What a pass can do before it manages anything

* `Pass.Turn t p q` : one change that the phases before the last make to a pass: a note or a notification, a new shell,
  a shell that is populated or joined with another, a new catalog;
* `Pass.Asks t k id make` : `make` asks for a shell, as the steps do that make shells;
* `Pass.SteadyTurn` : one that leaves the shells of catalog items, locations and entities where they are, as those of the
  phases do that populate and join shells;
* `Pass.movesAlong_loadManifest` : the first phase moves along a relation if its parts do;
* `Pass.build` : the phases before the last, which end with everything that the store says;
* `Pass.turns_build` : they get from pass to pass by such changes only, wherever they end.

An invariant of those phases has only to be kept by each `Turn`.
-/

namespace ManagementPlane

namespace Pass

variable {σ : Type}

/-! ## Changes -/

/-- One change that the phases before the last make to a pass. -/
inductive Turn (t : Task) : Pass σ → Pass σ → Prop
  | enter (p) {phase : Nat} (hphase : phase < 8) : Turn t p { p with phase }
  | note (p) (m : Manifest) : Turn t p (noteManifest m p)
  | hear (p) {e : Event} (he : e.Quiet) (s : σ) : Turn t p { p.record e with handler := s }
  | fail (p) {k : ObjectKind} {id : String} {item : Option String} {candidates : List ConstructorArgs}
      {d : Except ObjectError TypeDescriptor} (hd : Instantiator.Asked t.types k id candidates d) {e : ObjectError}
      {plane : Plane} (hm : Instantiator.makeLoaded k d id item candidates p.plane = (.error e, plane)) :
      Turn t p { p with plane }
  | make (p) {k : ObjectKind} {id : String} {item : Option String} {candidates : List ConstructorArgs}
      {d : Except ObjectError TypeDescriptor} (hd : Instantiator.Asked t.types k id candidates d) {shell : Handle}
      {plane : Plane} (hm : Instantiator.makeLoaded k d id item candidates p.plane = (.ok shell, plane)) :
      Turn t p (join shell { p with plane })
  | populateItem (p) {id : String} {shell : Handle} (hs : p.scratch.get? .catalogItem id = some shell)
      (item : CatalogItem) : Turn t p { p with plane := (p.plane.reconstructItem shell item).2 }
  | reset (p) : Turn t p (resetCatalog p)
  | fill (p) (items : List CatalogItem) : Turn t p { p with plane := fillCatalog items p.plane }
  | populate (p) {k : ObjectKind} {m : Memento} {shell : Handle}
      (hm : m ∈ (t.source.snapshot.ofKind k).values) (hs : p.scratch.get? k m.id = some shell) :
      Turn t p { p with plane :=
        (p.plane.reconstruct (p.scratch.known p.plane) p.scratch.allReadOnly shell m).2 }
  | leave (p) {k : ObjectKind} (hk : k.isAdjunct) (id : String) : Turn t p (leave k id p)
  | attach (p) {k : ObjectKind} {entityId adjunctId : String} {entity adjunct : Handle}
      (he : p.scratch.get? .entity entityId = some entity)
      (ha : p.scratch.get? k adjunctId = some adjunct) :
      Turn t p { p with plane := (p.plane.addAdjunct entity k adjunct).2 }

/-- Any number of changes. -/
abbrev Turns (t : Task) : Pass σ → Pass σ → Prop := Relation.ReflTransGen (Turn t)

instance (t : Task) : Std.Refl (Turns (σ := σ) t) := ⟨fun _ => .refl⟩

instance (t : Task) : IsTrans (Pass σ) (Turns t) := ⟨fun _ _ _ => Relation.ReflTransGen.trans⟩

theorem Turns.one {t : Task} {p q : Pass σ} (h : Turn t p q) : Turns t p q := .single h

/-! ## Notes and notifications -/

section Moves
variable (t : Task) (h : Handler σ)

theorem on_tell {ε : Type} (n : Notification) (answer : Step σ ε Unit) (p : Pass σ) :
    (tell n answer).on p = ((answer.on p.handler).1,
      { p.record (.notified n) with handler := (answer.on p.handler).2 }) := rfl

theorem moves_tell {ε : Type} (n : Notification) (answer : Step σ ε Unit) (p : Pass σ) :
    Step.Moves (Turns t) (tell n answer) p := by
  unfold Step.Moves
  rw [on_tell]
  exact .one (.hear p ⟨fun _ => rfl, rfl⟩ _)

theorem moves_rebindFailed (k : ObjectKind) (shell : Handle) (e : ObjectError) (p : Pass σ) :
    Step.Moves (Turns t) (rebindFailed h k shell e) p := .read_bind (moves_tell t _ _ p)

theorem moves_log (level : LogLevel) (message : Pass σ → String) (p : Pass σ) :
    Step.Moves (Turns t) (log t level message) p :=
  .of_update (.one (.hear p ⟨fun _ => rfl, rfl⟩ p.handler))

theorem moves_logCourse (message : String) (p : Pass σ) :
    Step.Moves (Turns t) (logCourse t message) p := .read_bind (moves_log t _ _ p)

theorem moves_enter {phase : Nat} (hphase : phase < 8) (p : Pass σ) :
    Step.Moves (Turns t) (enter phase) p := .of_update (.one (.enter p hphase))

/-! ## Shells -/

/-- In whatever pass, `make` asks for a shell of a kind under an id. -/
def Asks (t : Task) (k : ObjectKind) (id : String) (make : Pass σ → Plane → Except ObjectError Handle × Plane) : Prop :=
  ∀ p : Pass σ, ∃ item candidates d, Instantiator.Asked t.types k id candidates d ∧
    make p p.plane = Instantiator.makeLoaded k d id item candidates p.plane

theorem asks_newCatalogItem (item : CatalogItem) :
    Asks t .catalogItem item.id fun p : Pass σ => (instantiator t p).newCatalogItem item :=
  fun p => ⟨_, _, _, ShellRequest.asked (.catalogItem item) (instantiator t p) p.plane, rfl⟩

theorem asks_newLocation (e : String × String) :
    Asks t .location e.1 fun p : Pass σ => (instantiator t p).newLocation e.1 e.2 :=
  fun p => ⟨_, _, _, ShellRequest.asked (.location e.1 e.2) (instantiator t p) p.plane, rfl⟩

theorem asks_newEntity (e : EntitySummary) (item : Pass σ → Option String) :
    Asks t .entity e.id fun p : Pass σ => (instantiator t p).newEntity e.id e.type (item p) :=
  fun p => ⟨_, _, _, ShellRequest.asked (.entity e.id e.type (item p)) (instantiator t p) p.plane, rfl⟩

theorem asks_newAdjunct (k : ObjectKind) (m : Memento) :
    Asks t k m.id fun p : Pass σ => (instantiator t p).newAdjunct k m :=
  fun p => ⟨_, _, _, ShellRequest.asked (.adjunct k m) (instantiator t p) p.plane, rfl⟩

theorem moves_makeShell {k : ObjectKind} {id type : String}
    {make : Pass σ → Plane → Except ObjectError Handle × Plane} (hmake : Asks t k id make) (p : Pass σ) :
    Step.Moves (Turns t) (makeShell h k id type make) p := by
  obtain ⟨item, candidates, d, hd, hmade⟩ := hmake p
  unfold makeShell onPlane Step.Moves
  rw [Step.on_total_bind]
  rcases hm : make p p.plane with ⟨e | shell, plane⟩ <;> rw [hm] at hmade <;> simp only [hm]
  · have hfail : Turns t p { p with plane } := .one (.fail p hd hmade.symm)
    exact hfail.trans (moves_tell t _ _ _)
  · exact .one (.make p hd hmade.symm)

theorem moves_makeCatalogItem (item : CatalogItem) (p : Pass σ) :
    Step.Moves (Turns t) (makeCatalogItem t h item) p := moves_makeShell t h (asks_newCatalogItem t item) p

theorem moves_makeLocation (e : String × String) (p : Pass σ) :
    Step.Moves (Turns t) (makeLocation t h e) p := moves_makeShell t h (asks_newLocation t e) p

theorem moves_makeEntity (m : Manifest) (e : EntitySummary) (p : Pass σ) :
    Step.Moves (Turns t) (makeEntity t h m e) p := moves_makeShell t h (asks_newEntity t e _) p

theorem moves_makeAdjunct (k : ObjectKind) (m : Memento) (p : Pass σ) :
    Step.Moves (Turns t) (makeAdjunct t h k m) p := moves_makeShell t h (asks_newAdjunct t k m) p

theorem moves_populateCatalogItem (item : CatalogItem) (p : Pass σ) :
    Step.Moves (Turns t) (populateCatalogItem h item) p := by
  refine .read_bind ?_
  rcases hs : p.scratch.get? .catalogItem item.id with _ | shell
  · exact moves_tell t _ _ p
  · refine Step.Moves.bind (.of_total (.one (.populateItem p hs item))) fun r q _ => ?_
    cases r with
    | ok => exact .pure _ q
    | error e => exact moves_rebindFailed t h _ _ _ q

/-! ## The phases -/

/-- The first phase moves along a relation if its parts do. -/
theorem movesAlong_loadManifest {R : Pass σ → Pass σ → Prop} [Std.Refl R] [IsTrans (Pass σ) R]
    (henter : ∀ p, Step.Moves R (enter 1 : PassStep σ Unit) p)
    (hlog : ∀ message p, Step.Moves R (logCourse t message : PassStep σ Unit) p)
    (hfailed : ∀ kind message e p, Step.Moves R ((listener h).loadFailed kind message e) p)
    (hnote : ∀ m p, R p (noteManifest m p)) (p : Pass σ) : Step.Moves R (loadManifest t h) p := by
  refine (henter p).bind fun _ p _ => (hlog _ p).bind fun _ p _ => ?_
  refine ((Source.moves_load hfailed _ p).mapStop _).bind fun raw p _ => ?_
  refine ((Manifest.moves_decode hfailed raw p).mapStop _).bind fun m p _ => ?_
  exact (Step.Moves.of_update (hnote m p)).bind fun _ p _ => .pure _ p

theorem moves_loadManifest (p : Pass σ) : Step.Moves (Turns t) (loadManifest t h) p :=
  movesAlong_loadManifest t h (moves_enter t (by decide)) (moves_logCourse t) (fun _ _ _ p => moves_tell t _ _ p)
    (fun m p => .one (.note p m)) p

theorem moves_loadDefaultCatalog (p : Pass σ) : Step.Moves (Turns t) (loadDefaultCatalog t) p := by
  unfold loadDefaultCatalog
  split
  · exact .stop _ p
  · exact .of_update (.one (.fill p _))

theorem moves_rebuildCatalog (m : Manifest) (p : Pass σ) :
    Step.Moves (Turns t) (rebuildCatalog t h m) p := by
  refine (moves_enter t (by decide) p).bind fun _ p _ => ?_
  split
  · exact moves_logCourse t _ p
  · refine (moves_logCourse t _ p).bind fun _ p _ => ?_
    refine (Step.Moves.forEach (fun i _ => moves_makeCatalogItem t h i) p).bind fun _ p _ => ?_
    refine (moves_logCourse t _ p).bind fun _ p _ => ?_
    refine (Step.Moves.forEach (fun i _ => moves_populateCatalogItem t h i) p).bind fun _ p _ => ?_
    refine .read_bind ?_
    split
    · exact (moves_logCourse t _ p).bind fun _ p _ => .of_update (.one (.reset p))
    · exact (moves_logCourse t _ p).bind fun _ p _ => moves_loadDefaultCatalog t p

theorem moves_makeLocationsAndEntities (m : Manifest) (p : Pass σ) :
    Step.Moves (Turns t) (makeLocationsAndEntities t h m) p := by
  refine (moves_enter t (by decide) p).bind fun _ p _ => ?_
  refine (moves_logCourse t _ p).bind fun _ p _ => ?_
  refine (Step.Moves.forEach (fun e _ => moves_makeLocation t h e) p).bind fun _ p _ => ?_
  refine (moves_logCourse t _ p).bind fun _ p _ => ?_
  exact Step.Moves.forEach (fun e _ => moves_makeEntity t h m e) p

theorem moves_loadSnapshot (raw : RawData) (p : Pass σ) :
    Step.Moves (Turns t) (loadSnapshot h raw) p := by
  refine (moves_enter t (by decide) p).bind fun _ p _ => .read_bind ?_
  exact (Snapshot.moves_decode (fun _ _ _ s => moves_tell t _ _ s) (fun _ _ s => moves_tell t _ _ s)
    raw _ p).mapStop _

theorem moves_makeAdjuncts (snapshot : Snapshot) (p : Pass σ) :
    Step.Moves (Turns t) (makeAdjuncts t h snapshot) p := by
  refine (moves_enter t (by decide) p).bind fun _ p _ => Step.Moves.forEach (fun k _ p => ?_) p
  unfold makeAdjunctsOf
  dsimp only
  split
  · exact moves_logCourse t _ p
  · exact (moves_logCourse t _ p).bind fun _ p _ =>
      Step.Moves.forEach (fun m _ => moves_makeAdjunct t h k m) p

/-! ## Phases that make no shells -/

/-- One change that leaves the tables of shells alone, but for those of adjuncts. -/
def SteadyTurn (t : Task) (p q : Pass σ) : Prop :=
  Turn t p q ∧ ∀ k, k.isAdjunct = false → ∀ id, q.scratch.get? k id = p.scratch.get? k id

/-- Any number of such changes. -/
abbrev SteadyTurns (t : Task) : Pass σ → Pass σ → Prop := Relation.ReflTransGen (SteadyTurn t)

instance : Std.Refl (SteadyTurns (σ := σ) t) := ⟨fun _ => .refl⟩

instance : IsTrans (Pass σ) (SteadyTurns t) := ⟨fun _ _ _ => Relation.ReflTransGen.trans⟩

theorem SteadyTurns.turns {t : Task} {p q : Pass σ} (h : SteadyTurns t p q) : Turns t p q :=
  h.lift id fun _ _ hturn => hturn.1

theorem SteadyTurns.get? {t : Task} {p q : Pass σ} (h : SteadyTurns t p q) {k : ObjectKind}
    (hk : k.isAdjunct = false) (id : String) : q.scratch.get? k id = p.scratch.get? k id := by
  induction h with
  | refl => rfl
  | tail _ hturn ih => exact (hturn.2 k hk id).trans ih

/-- A change that leaves all tables of shells alone. -/
theorem SteadyTurns.one {t : Task} {p q : Pass σ} (h : Turn t p q) (hscratch : q.scratch = p.scratch) :
    SteadyTurns t p q := .single ⟨h, fun _ _ _ => by rw [hscratch]⟩

theorem steady_tell {ε : Type} (n : Notification) (answer : Step σ ε Unit) (p : Pass σ) :
    Step.Moves (SteadyTurns t) (tell n answer) p := by
  unfold Step.Moves
  rw [on_tell]
  exact .one (.hear p ⟨fun _ => rfl, rfl⟩ _) rfl

theorem steady_rebindFailed (k : ObjectKind) (shell : Handle) (e : ObjectError) (p : Pass σ) :
    Step.Moves (SteadyTurns t) (rebindFailed h k shell e) p := .read_bind (steady_tell t _ _ p)

theorem steady_logCourse (message : String) (p : Pass σ) :
    Step.Moves (SteadyTurns t) (logCourse t message) p :=
  .read_bind (.of_update (.one (.hear p ⟨fun _ => rfl, rfl⟩ p.handler) rfl))

theorem steady_enter {phase : Nat} (hphase : phase < 8) (p : Pass σ) :
    Step.Moves (SteadyTurns t) (enter phase) p := .of_update (.one (.enter p hphase) rfl)

theorem steady_leave {k : ObjectKind} (hk : k.isAdjunct) (id : String) (p : Pass σ) :
    SteadyTurns t p (leave k id p) := by
  refine .single ⟨.leave p hk id, fun j hj id' => ?_⟩
  have hne : k ≠ j := by
    rintro rfl
    rw [hk] at hj
    cases hj
  exact (Scratch.get?_unregister p.scratch k id j id').trans (if_neg fun hc => hne hc.1)

/-- What follows when the hook has been called that populates a shell. -/
theorem steady_settle (k : ObjectKind) (id : String) (shell : Handle) (populated : Except ObjectError Unit)
    (p : Pass σ) : Step.Moves (SteadyTurns t) (match populated with
      | .ok () => pure ()
      | .error e => do
        rebindFailed h k shell e
        if k.isAdjunct then Step.update (leave k id)) p := by
  cases populated with
  | ok => exact .pure _ p
  | error e =>
    refine (steady_rebindFailed t h _ _ _ p).bind fun _ q _ => ?_
    split
    · next hk => exact .of_update (steady_leave t hk id q)
    · exact .pure _ q

theorem steady_reconstructOne {k : ObjectKind} {m : Memento}
    (hm : m ∈ (t.source.snapshot.ofKind k).values) (p : Pass σ) :
    Step.Moves (SteadyTurns t) (reconstructOne h k m) p := by
  refine .read_bind ?_
  rcases hs : p.scratch.get? k m.id with _ | shell
  · exact steady_tell t _ _ p
  · exact Step.Moves.bind (.of_total (.one (.populate p hm hs) rfl)) fun r q _ =>
      steady_settle t h k m.id shell r q

theorem steady_reconstructAdjuncts (k : ObjectKind) (p : Pass σ) :
    Step.Moves (SteadyTurns t) (reconstructAdjuncts t h t.source.snapshot k) p := by
  unfold reconstructAdjuncts
  split
  · exact (steady_logCourse t _ p).bind fun _ p _ =>
      Step.Moves.forEach (fun m hm => steady_reconstructOne t h hm) p
  · exact .pure _ p

/-- Populating the shells of a kind, parents first. -/
theorem steady_reconstructSorted {k : ObjectKind} {nodes : OrderedMap String Memento}
    (hnodes : t.source.snapshot.ofKind k = nodes) (p : Pass σ) :
    Step.Moves (SteadyTurns t) (Step.forEach (sortParentFirst nodes) (reconstructOne h k)) p := by
  subst hnodes
  exact Step.Moves.forEach (fun m hm => steady_reconstructOne t h (mem_of_mem_sortParentFirst hm)) p

theorem steady_reconstructAll (p : Pass σ) :
    Step.Moves (SteadyTurns t) (reconstructAll t h t.source.snapshot) p := by
  refine (steady_enter t (by decide) p).bind fun _ p _ => ?_
  refine (steady_logCourse t _ p).bind fun _ p _ => ?_
  refine (steady_reconstructSorted t h (k := .location) rfl p).bind fun _ p _ => ?_
  refine (Step.Moves.forEach (fun k _ => steady_reconstructAdjuncts t h k) p).bind fun _ p _ => ?_
  refine (steady_logCourse t _ p).bind fun _ p _ => ?_
  exact steady_reconstructSorted t h (k := .entity) rfl p

theorem moves_reconstructAll (p : Pass σ) :
    Step.Moves (Turns t) (reconstructAll t h t.source.snapshot) p :=
  (steady_reconstructAll t h p).imp fun _ hq => hq.turns

theorem steady_attachOne {entityId : String} {entity : Handle} (k : ObjectKind) (id : String) (p : Pass σ)
    (he : p.scratch.get? .entity entityId = some entity) :
    Step.Moves (SteadyTurns t) (attachOne h entity k id) p := by
  refine .read_bind ?_
  rcases ha : p.scratch.get? k id with _ | adjunct
  · exact .mapStop _ (steady_tell t _ _ p)
  · refine Step.Moves.bind (.of_total (.one (.attach p he ha) rfl)) fun r q _ => ?_
    cases r with
    | ok => exact .pure _ q
    | error e => exact steady_rebindFailed t h _ _ _ q

theorem steady_attachKind {entityId : String} {entity : Handle} (m : Memento) (k : ObjectKind)
    (p : Pass σ) (he : p.scratch.get? .entity entityId = some entity) :
    Step.Moves (SteadyTurns t) (attachKind t h entity m k) p := by
  unfold attachKind
  split
  · refine Step.Moves.forEach_inv (I := fun p => p.scratch.get? .entity entityId = some entity) ?_ ?_ he
    · exact fun p q hpq hp => (hpq.get? rfl entityId).trans hp
    · exact fun id _ p hp => steady_attachOne t h k id p hp
  · exact .pure _ p

theorem steady_attachAllOf (m : Memento) (p : Pass σ) :
    Step.Moves (SteadyTurns t) (attachAllOf t h m) p := by
  refine .read_bind ?_
  rcases he : p.scratch.get? .entity m.id with _ | entity
  · exact steady_tell t _ _ p
  · refine Step.Moves.forEach_inv (I := fun p => p.scratch.get? .entity m.id = some entity) ?_ ?_ he
    · exact fun p q hpq hp => (hpq.get? rfl m.id).trans hp
    · exact fun k _ p hp => steady_attachKind t h m k p hp

theorem steady_attachAdjuncts (snapshot : Snapshot) (p : Pass σ) :
    Step.Moves (SteadyTurns t) (attachAdjuncts t h snapshot) p := by
  refine (steady_enter t (by decide) p).bind fun _ p _ => ?_
  refine (steady_logCourse t _ p).bind fun _ p _ => ?_
  exact Step.Moves.forEach (fun m _ => steady_attachAllOf t h m) p

theorem moves_attachAdjuncts (snapshot : Snapshot) (p : Pass σ) :
    Step.Moves (Turns t) (attachAdjuncts t h snapshot) p :=
  (steady_attachAdjuncts t h snapshot p).imp fun _ hq => hq.turns

/-! ## All phases before the last -/

/-- The phases before the last; everything that the store says. -/
def build : PassStep σ Snapshot := do
  let (raw, manifest) ← loadManifest t h
  rebuildCatalog t h manifest
  makeLocationsAndEntities t h manifest
  let snapshot ← loadSnapshot h raw
  makeAdjuncts t h snapshot
  reconstructAll t h snapshot
  attachAdjuncts t h snapshot
  pure snapshot

/-- The phases are those before the last, the last one, and a word about it. -/
theorem phases_eq : phases t h = (do
    let snapshot ← build t h
    let applications ← manageAll t h snapshot
    finish t snapshot applications
    pure applications : PassStep σ (List Handle)) := by
  unfold phases build
  simp only [bind_assoc, pure_bind]

/-- The first phase yields what the store holds and the manifest of that, and ends with a note of it. -/
theorem exists_noted_of_loadManifest {p q : Pass σ} {found : RawData × Manifest}
    (hp : (loadManifest t h).on p = (.ok found, q)) :
    found = (t.source.payloads, t.source.payloads.manifest) ∧ ∃ u, q = noteManifest found.2 u := by
  obtain ⟨_, _, -, hp⟩ := Step.on_bind_eq_ok_iff.1 hp
  obtain ⟨_, _, -, hp⟩ := Step.on_bind_eq_ok_iff.1 hp
  obtain ⟨raw, _, hload, hp⟩ := Step.on_bind_eq_ok_iff.1 hp
  obtain ⟨manifest, u, hdecode, hp⟩ := Step.on_bind_eq_ok_iff.1 hp
  rw [Step.on_update_bind, Step.on_pure] at hp
  obtain ⟨he, rfl⟩ := Prod.mk.inj hp
  obtain rfl := Except.ok.inj he
  obtain rfl := Source.eq_payloads_of_load (Step.on_of_mapStop_eq_ok hload)
  obtain rfl := Manifest.eq_of_decode (Step.on_of_mapStop_eq_ok hdecode)
  exact ⟨rfl, u, rfl⟩

theorem eq_payloads_of_loadManifest {p q : Pass σ} {raw : RawData} {m : Manifest}
    (hp : (loadManifest t h).on p = (.ok (raw, m), q)) : raw = t.source.payloads :=
  congrArg Prod.fst (exists_noted_of_loadManifest t h hp).1

theorem eq_snapshot_of_loadSnapshot {p q : Pass σ} {raw : RawData} {snapshot : Snapshot}
    (hp : (loadSnapshot h raw).on p = (.ok snapshot, q)) : snapshot = raw.snapshot := by
  obtain ⟨_, _, -, hp⟩ := Step.on_bind_eq_ok_iff.1 hp
  rw [Step.on_read_bind] at hp
  exact Snapshot.eq_of_decode (Step.on_of_mapStop_eq_ok hp)

/-- The phases before the last get from pass to pass by turns only, wherever they end. -/
theorem turns_build (p : Pass σ) : Step.Moves (Turns t) (build t h) p := by
  refine (moves_loadManifest t h p).bind fun raw q hp => ?_
  obtain ⟨raw, m⟩ := raw
  obtain rfl := eq_payloads_of_loadManifest t h hp
  refine (moves_rebuildCatalog t h _ q).bind fun _ p _ => ?_
  refine (moves_makeLocationsAndEntities t h _ p).bind fun _ p _ => ?_
  refine (moves_loadSnapshot t h _ p).bind fun snapshot q hp => ?_
  obtain rfl := eq_snapshot_of_loadSnapshot h hp
  refine (moves_makeAdjuncts t h _ q).bind fun _ p _ => ?_
  refine (moves_reconstructAll t h p).bind fun _ p _ => ?_
  exact (moves_attachAdjuncts t h _ p).bind fun _ p _ => .pure _ p

/-- They end with everything that the store says. -/
theorem eq_snapshot_of_build {p q : Pass σ} {snapshot : Snapshot}
    (hp : (build t h).on p = (.ok snapshot, q)) : snapshot = t.source.snapshot := by
  obtain ⟨⟨raw, m⟩, _, hraw, hp⟩ := Step.on_bind_eq_ok_iff.1 hp
  obtain rfl := eq_payloads_of_loadManifest t h hraw
  obtain ⟨_, _, -, hp⟩ := Step.on_bind_eq_ok_iff.1 hp
  obtain ⟨_, _, -, hp⟩ := Step.on_bind_eq_ok_iff.1 hp
  obtain ⟨_, _, hsnap, hp⟩ := Step.on_bind_eq_ok_iff.1 hp
  obtain ⟨_, _, -, hp⟩ := Step.on_bind_eq_ok_iff.1 hp
  obtain ⟨_, _, -, hp⟩ := Step.on_bind_eq_ok_iff.1 hp
  obtain ⟨_, _, -, hp⟩ := Step.on_bind_eq_ok_iff.1 hp
  rw [Step.on_pure] at hp
  obtain rfl := Except.ok.inj (Prod.mk.inj hp).1
  exact eq_snapshot_of_loadSnapshot h hsnap

end Moves

end Pass

end ManagementPlane
