import ManagementPlane.Proofs.Footing
import ManagementPlane.Proofs.Hearing

/-!
# What the middle phases show

Where all types are stock types, each of the phases 3 to 6 treats some shells, each of them once, or only tells something.

* `TypeRegistry.IsStock` : all types are stock types, which make blank objects;
* `Pass.making`, `Treatment.populating` : what becomes of a shell that is made or populated;
* `Pass.Shows n b v p` : the pass has come from `b` to `p`, and shows `v` now;
* `Pass.ends_makeShell`, `Pass.ends_reconstructOne` : the steps treat one shell;
* `Pass.ends_makeLocationsAndEntities_shows`, … , `Pass.ends_reconstructAll_shows` : what the phases come to.
-/

namespace ManagementPlane

variable {σ : Type}

/-- All types are stock types. -/
def TypeRegistry.IsStock (r : TypeRegistry) : Prop := ∀ d, r.Has d → ∃ name k, d = .stock name k

theorem TypeRegistry.isStock_stock : TypeRegistry.stock.IsStock := fun _ => exists_eq_of_has_stock

/-! ## Treatments -/

/-- A shell is populated; what is missing is told of. -/
def Treatment.populating (known : ObjectKind → String → Bool) (k : ObjectKind) (m : Memento) : Treatment where
  key := (k, m.id)
  effect := Option.map fun o => match o.reconstruct known m with
    | .ok o => o
    | .error _ => o
  notes o := if o.isSome then [] else [.notFound k m.id]

/-- The treatment neither makes a shell nor takes one away. -/
def Treatment.Keeps (x : Treatment) : Prop := ∀ o, (x.effect o).isSome = o.isSome

theorem Treatment.keeps_populating (known : ObjectKind → String → Bool) (k : ObjectKind) (m : Memento) :
    (populating known k m).Keeps := fun _ => Option.isSome_map

/-- A shell of a stock type is made; if its type is not found this is told of. -/
def Treatment.making (k : ObjectKind) (id type : String) (item : Option String) (readOnly : Bool)
    (d : Except ObjectError TypeDescriptor) : Treatment where
  key := (k, id)
  effect o := match d with
    | .ok d => some ((Object.blank k id d.name).asShell id item readOnly)
    | .error _ => o
  notes _ := match d with
    | .ok _ => []
    | .error e => [.createFailed k id type e]

/-- A shell of a stock type is what its kind, id and type say. -/
theorem Instantiator.makeLoaded_stock (name : String) (k : ObjectKind) (id : String) (item : Option String)
    (candidates : List ConstructorArgs) (p : Plane) : ∃ plane,
      makeLoaded k (.ok (.stock name k)) id item candidates p = (.ok p.heap.next, plane) ∧
      plane.heap = p.heap.alloc { Object.blank k id name with
        id, catalogItemId := item.or (Object.blank k id name).catalogItemId } ∧
      plane.catalog = p.catalog ∧ ∀ j, plane.registry j = p.registry j := by
  refine ⟨_, rfl, ?_, ?_, fun j => ?_⟩
  · exact Plane.heap_preManage _ _
  · unfold Plane.preManage
    dsimp only
    split <;> rfl
  · exact (Plane.Extends.preManage (n := 0) _ _).registry j

namespace Pass

variable {t : Task} {h : Handler σ} {n : Nat} {b p q : Pass σ} {k : ObjectKind} {id type : String} {v : Showing}

/-- What becomes of a shell that is made in a pass that has come from `b`. -/
def making (t : Task) (b : Pass σ) (k : ObjectKind) (id type : String) (item : Option String) : Treatment :=
  .making k id type item b.scratch.allReadOnly ((instantiator t b).load b.plane k type item)

def makingLocation (t : Task) (b : Pass σ) (e : String × String) : Treatment := making t b .location e.1 e.2 none

def makingEntity (t : Task) (b : Pass σ) (manifest : Manifest) (e : EntitySummary) : Treatment :=
  making t b .entity e.id e.type
    (b.plane.provenance? t.types t.settings.inferCatalogItem manifest.entities e)

def makingAdjunct (t : Task) (b : Pass σ) (k : ObjectKind) (m : Memento) : Treatment :=
  making t b k m.id m.type m.catalogItemId

/-- What becomes of the shells that phase 3 makes. -/
def makings (t : Task) (b : Pass σ) (manifest : Manifest) : List Treatment :=
  manifest.locationTypes.entries.map (makingLocation t b) ++ manifest.entities.values.map (makingEntity t b manifest)

/-- What becomes of the shells that phase 5 makes. -/
def adjunctMakings (t : Task) (b : Pass σ) (snapshot : Snapshot) : List Treatment :=
  ObjectKind.adjuncts.flatMap fun k =>
    if t.settings.features.enabled k then (snapshot.ofKind k).values.map (makingAdjunct t b k) else []

/-- What becomes of the shells that phase 6 populates. -/
def populatings (t : Task) (snapshot : Snapshot) (known : ObjectKind → String → Bool) : List Treatment :=
  (sortParentFirst snapshot.locations).map (.populating known .location) ++
    ObjectKind.adjuncts.flatMap (fun k =>
      if t.settings.features.enabled k then (snapshot.ofKind k).values.map (.populating known k) else []) ++
    (sortParentFirst snapshot.entities).map (.populating known .entity)

/-- What can be referred to depends on which shells there are. -/
theorem resolves_treatAll {l : List Treatment} (hl : ∀ x ∈ l, x.Keeps) :
    b.resolves (v.treatAll l) = b.resolves v := by
  have hsome : ∀ y, ((v.treatAll l).shelf y).isSome = (v.shelf y).isSome := by
    induction l generalizing v with
    | nil => exact fun _ => rfl
    | cons x l ih =>
      intro y
      refine (ih fun z hz => hl z (List.mem_cons_of_mem _ hz)) y |>.trans ?_
      show (Function.update v.shelf x.key _ y).isSome = _
      rw [Function.update_apply]
      split
      · next he => rw [hl x List.mem_cons_self, he]
      · rfl
  funext k id
  cases k <;> simp only [resolves, hsome]

/-- The pass has come from `b` to `p`, and shows `v` now. -/
structure Shows (n : Nat) (b : Pass σ) (v : Showing) (p : Pass σ) : Prop where
  upon : Upon n b p
  showing : p.showing = v

/-- It has populated shells only since it showed `v`. -/
structure Populates (n : Nat) (b : Pass σ) (v : Showing) (l : List Treatment) (p : Pass σ) : Prop where
  keeps : ∀ x ∈ l, x.Keeps
  shows : Shows n b (v.treatAll l) p

/-! ## Notes and notifications -/

theorem Shows.of_shown (hp : Shows n b v p) (hscratch : q.scratch = p.scratch) (hheap : q.plane.heap = p.plane.heap)
    (hcatalog : q.plane.catalog = p.plane.catalog) (hregistry : ∀ k, q.plane.registry k = p.plane.registry k)
    {l : List Notification} (hnotes : q.plane.notes = l.reverse ++ p.plane.notes) : Shows n b (v.hear l) q := by
  refine ⟨hp.upon.of_heap hscratch hheap hcatalog hregistry, ?_⟩
  rw [← hp.showing]
  refine showing_of_notes (funext fun k => funext fun id => ?_) hnotes
  unfold shelf Plane.read
  rw [hscratch, hheap]

theorem Shows.of_silent (hp : Shows n b v p) (hscratch : q.scratch = p.scratch) (hheap : q.plane.heap = p.plane.heap)
    (hcatalog : q.plane.catalog = p.plane.catalog) (hregistry : ∀ k, q.plane.registry k = p.plane.registry k)
    (hnotes : q.plane.notes = p.plane.notes) : Shows n b v q := by
  have hq := hp.of_shown hscratch hheap hcatalog hregistry (l := []) hnotes
  rwa [Showing.hear_nil] at hq

theorem ends_logCourse_shows (message : String) (hp : Shows n b v p) :
    Step.Ends (fun _ q => Shows n b v q) (logCourse t message) p :=
  .read_bind (.update (hp.of_silent rfl rfl rfl (fun _ => rfl) rfl))

theorem ends_enter_shows (phase : Nat) (hp : Shows n b v p) :
    Step.Ends (fun _ q => Shows n b v q) (enter phase) p :=
  .update (hp.of_silent rfl rfl rfl (fun _ => rfl) rfl)

theorem ends_tell_shows {ε : Type} {answer : Step σ ε Unit} (ha : answer.GoesOn) (note : Notification)
    (hp : Shows n b v p) : Step.Ends (fun _ q => Shows n b (v.hear [note]) q) (tell note answer) p := by
  refine (ends_heard ha note p).imp fun _ q hq => ?_
  subst hq
  refine hp.of_shown (l := [note]) ?_ ?_ ?_ (fun _ => ?_) ?_
  all_goals rfl

/-! ## One shell -/

theorem ends_makeShell (ha : h.Accepting) (htypes : t.types.IsStock) (hb : b.Grounded n) (hp : Shows n b v p)
    (hk : k ≠ .catalogItem) {item : Option String} {candidates : List ConstructorArgs}
    (hr : ∃ r : ShellRequest, r.kind = k ∧ r.id = id ∧ r.candidates = candidates)
    {make : Pass σ → Plane → Except ObjectError Handle × Plane}
    (hmake : make p p.plane = Instantiator.makeLoaded k ((instantiator t p).load p.plane k type item) id item candidates
      p.plane) :
    Step.Ends (fun _ q => Shows n b (v.treat (making t b k id type item)) q) (makeShell h k id type make) p := by
  rw [hp.upon.load hb] at hmake
  unfold makeShell making
  rcases hd : (instantiator t b).load b.plane k type item with e | d
  · rw [hd] at hmake
    refine ends_onPlane_bind hmake ((ends_tell_shows (ha.createFailed k id type e) _ hp).imp fun _ q hq => ⟨hq.upon, ?_⟩)
    refine hq.showing.trans (Showing.ext ?_ rfl)
    exact (Function.update_eq_self _ _).symm
  · obtain ⟨name, k', rfl⟩ := htypes d (Instantiator.has_of_load hd)
    obtain rfl : k' = k := Instantiator.kind_of_load hd
    obtain ⟨plane, hmade, hheap, hcatalog, hregistry⟩ :=
      Instantiator.makeLoaded_stock name k' id item candidates p.plane
    rw [hd, hmade] at hmake
    have hask : Instantiator.Asked t.types k' id candidates (.ok (.stock name k')) :=
      ⟨fun d' hd' => Except.ok.inj hd' ▸ ⟨Instantiator.has_of_load hd, rfl⟩, hr⟩
    have hsound := (building_of_turn hp.upon.sound (.make p hask hmade)).sound
    refine ends_onPlane_bind hmake (.update ⟨hp.upon.join hk hheap hcatalog hregistry hsound, ?_⟩)
    have hnotes := (Instantiator.mute_makeLoaded k' id item candidates (.ok (.stock name k'))).notes p.plane
    rw [hmade] at hnotes
    rw [← hp.showing]
    refine showing_of_treat (fun j i => ?_) ((Scratch.notes_register _ _ _).trans hnotes)
    have hshelf := shelf_make hheap hp.upon.sound j i
    rw [Object.kind_blank, hp.upon.allReadOnly] at hshelf
    simp only [Treatment.making, Prod.mk.injEq]
    exact hshelf

theorem ends_reconstructOne (ha : h.Accepting) (hb : b.Grounded n) (hp : Shows n b v p) (hk : k ≠ .catalogItem)
    (m : Memento) :
    Step.Ends (fun _ q => Shows n b (v.treat (.populating (b.resolves v) k m)) q) (reconstructOne h k m) p := by
  refine .read_bind ?_
  have hknown : p.scratch.known p.plane = b.resolves v := hp.showing ▸ hp.upon.known hb
  rcases hg : p.scratch.get? k m.id with _ | a
  · have hnone : v.shelf (k, m.id) = none := by
      rw [← hp.showing]
      exact shelf_eq_none_iff.2 hg
    refine (ends_tell_shows (ha.notFound k m.id) (.notFound k m.id) hp).imp fun _ q hq => ⟨hq.upon, hq.showing.trans ?_⟩
    have heffect : (Treatment.populating (b.resolves v) k m).effect (v.shelf (k, m.id)) = v.shelf (k, m.id) := by
      rw [hnone]
      rfl
    refine Showing.ext ?_ ?_
    · exact ((congrArg (Function.update v.shelf (k, m.id)) heffect).trans (Function.update_eq_self _ _)).symm
    · simp only [Showing.treat, Treatment.populating, hnone]
      rfl
  · have hs := hp.upon.sound
    have hsome : p.shelf k m.id = some (p.plane.read a) := shelf_eq_some_iff.2 ⟨a, hg, rfl⟩
    obtain ⟨o, ho, hpopulated⟩ := p.plane.reconstruct_eq (by rwa [hs.kind hg])
      (by rw [hp.upon.plain hk hsome]) (p.scratch.known p.plane) p.scratch.allReadOnly m
    have hpopulate := hp.upon.populate hk hg ho p.scratch.allReadOnly
    refine ends_onPlane_bind hpopulated (.pure ⟨hpopulate, ?_⟩)
    generalize hplane : (p.plane.recordHook a (.reconstruct m.id p.scratch.allReadOnly)).modify a (fun _ => o) = plane
    have hchange : ∀ d, plane.read d = if d = a then o else p.plane.read d := by
      intro d
      rw [← hplane]
      split
      · next hd => exact hd ▸ Plane.read_modify_self _ (hs.valid hg) _
      · next hd => exact Plane.read_modify_of_ne _ (Ne.symm hd) _
    have hshelf : ∀ j i, ({ p with plane } : Pass σ).shelf j i = _ := shelf_change hs hg rfl hchange
    rw [← hp.showing]
    refine showing_of_treat (fun j i => (hshelf j i).trans ?_) ?_
    · simp only [Treatment.populating, Prod.mk.injEq, hsome, Option.map_some, hp.showing, ← hknown, ho]
    · simp only [Treatment.populating, hsome, ← hplane]
      rfl

/-! ## Whole phases -/

/-- A loop whose items each treat one shell. -/
theorem ends_treatAll {α : Type} {items : List α} {f : α → PassStep σ Unit} {treatment : α → Treatment}
    (hf : ∀ a ∈ items, ∀ v p, Shows n b v p → Step.Ends (fun _ q => Shows n b (v.treat (treatment a)) q) (f a) p)
    (hp : Shows n b v p) :
    Step.Ends (fun _ q => Shows n b (v.treatAll (items.map treatment)) q) (Step.forEach items f) p := by
  refine Step.Ends.forEach (l := []) (R := fun done q => Shows n b (v.treatAll (done.map treatment)) q)
    (fun done a ha q hq => ?_) hp
  rw [List.map_append, Showing.treatAll_append]
  exact hf a ha _ q hq

section Accepting
variable (ha : h.Accepting) (htypes : t.types.IsStock) (hb : b.Grounded n)
include ha htypes hb

theorem ends_makeLocation (e : String × String) (hp : Shows n b v p) :
    Step.Ends (fun _ q => Shows n b (v.treat (makingLocation t b e)) q) (makeLocation t h e) p := by
  have hmake : (instantiator t p).newLocation e.1 e.2 p.plane = Instantiator.makeLoaded .location
    ((instantiator t p).load p.plane .location e.2 none) e.1 none (Instantiator.locationCandidates e.1) p.plane := rfl
  exact ends_makeShell (k := .location) ha htypes hb hp nofun ⟨.location e.1 e.2, rfl, rfl, rfl⟩ hmake

theorem ends_makeEntity (manifest : Manifest) (e : EntitySummary) (hp : Shows n b v p) :
    Step.Ends (fun _ q => Shows n b (v.treat (makingEntity t b manifest e)) q) (makeEntity t h manifest e) p := by
  unfold makeEntity makingEntity
  rw [← hp.upon.provenance? hb]
  generalize hitem : p.plane.provenance? t.types t.settings.inferCatalogItem manifest.entities e = item
  have hmake : (instantiator t p).newEntity e.id e.type item p.plane = Instantiator.makeLoaded .entity
    ((instantiator t p).load p.plane .entity e.type item) e.id item (Instantiator.entityCandidates e.id) p.plane := rfl
  rw [← hitem] at hmake ⊢
  exact ends_makeShell (k := .entity) ha htypes hb hp nofun ⟨.entity e.id e.type item, rfl, rfl, rfl⟩ hmake

theorem ends_makeAdjunct (hk : k ≠ .catalogItem) (m : Memento) (hp : Shows n b v p) :
    Step.Ends (fun _ q => Shows n b (v.treat (makingAdjunct t b k m)) q) (makeAdjunct t h k m) p := by
  have hmake : (instantiator t p).newAdjunct k m p.plane = Instantiator.makeLoaded k
    ((instantiator t p).load p.plane k m.type m.catalogItemId) m.id m.catalogItemId
    (Instantiator.adjunctCandidates k m) p.plane := rfl
  exact ends_makeShell ha htypes hb hp hk ⟨.adjunct k m, rfl, rfl, rfl⟩ hmake

theorem ends_makeLocationsAndEntities_shows (manifest : Manifest) (hp : Shows n b v p) :
    Step.Ends (fun _ q => Shows n b (v.treatAll (makings t b manifest)) q) (makeLocationsAndEntities t h manifest) p := by
  unfold makings
  rw [Showing.treatAll_append]
  refine (ends_enter_shows 3 hp).bind fun _ p hp => (ends_logCourse_shows _ hp).bind fun _ p hp => ?_
  refine (ends_treatAll (fun e _ v p hp => ends_makeLocation ha htypes hb e hp) hp).bind fun _ p hp => ?_
  refine (ends_logCourse_shows _ hp).bind fun _ p hp => ?_
  exact ends_treatAll (fun e _ v p hp => ends_makeEntity ha htypes hb manifest e hp) hp

theorem ends_makeAdjuncts_shows (snapshot : Snapshot) (hp : Shows n b v p) :
    Step.Ends (fun _ q => Shows n b (v.treatAll (adjunctMakings t b snapshot)) q) (makeAdjuncts t h snapshot) p := by
  refine (ends_enter_shows 5 hp).bind fun _ p hp => ?_
  refine Step.Ends.forEach (l := []) (R := fun done q => Shows n b (v.treatAll (done.flatMap fun k =>
      if t.settings.features.enabled k then (snapshot.ofKind k).values.map (makingAdjunct t b k) else [])) q)
    (fun done k hk q hq => ?_) hp
  rw [List.flatMap_append, Showing.treatAll_append, List.flatMap_singleton]
  have hne : k ≠ .catalogItem := by
    rintro rfl
    cases (ObjectKind.mem_adjuncts_iff _).1 hk
  unfold makeAdjunctsOf
  dsimp only
  cases t.settings.features.enabled k with
  | false => exact ends_logCourse_shows _ hq
  | true =>
    exact (ends_logCourse_shows _ hq).bind fun _ q hq =>
      ends_treatAll (fun m _ v p hp => ends_makeAdjunct ha htypes hb hne m hp) hq

omit htypes

theorem ends_loadSnapshot_shows (raw : RawData) (hp : Shows n b v p) :
    Step.Ends (fun s q => s = raw.snapshot ∧
      Shows n b (v.hear (raw.snapshotNotes ++ raw.snapshot.danglingNotes (b.resolves v))) q) (loadSnapshot h raw) p := by
  refine (ends_enter_shows 4 hp).bind fun _ p hp => .read_bind (.mapStop _ ?_)
  rw [← hp.showing, ← hp.upon.known hb]
  refine (hears_decode_snapshot ha raw _ (.refl p)).imp fun s q ⟨hs, hq⟩ => ⟨hs, ?_⟩
  rw [hp.showing]
  rw [List.nil_append] at hq
  have hheap := congrArg Plane.heap hq.plane
  have hcatalog := congrArg Plane.catalog hq.plane
  exact hp.of_shown (congrArg Iteration.scratch hq.iteration) hheap hcatalog hq.registry hq.notes

/-- While shells are populated, the same can be referred to. -/
theorem ends_populateAll {l : List Treatment} (hk : k ≠ .catalogItem) (mementos : List Memento)
    (hp : Populates n b v l p) :
    Step.Ends (fun _ q => Populates n b v (l ++ mementos.map (.populating (b.resolves v) k)) q)
      (Step.forEach mementos (reconstructOne h k)) p := by
  refine Step.Ends.forEach (l := []) (R := fun done q => Populates n b v (l ++
      done.map (.populating (b.resolves v) k)) q) (fun done m _ q hq => ?_)
    (by rwa [List.map_nil, List.append_nil])
  have hone := ends_reconstructOne ha hb hq.shows hk m
  rw [resolves_treatAll hq.keeps] at hone
  rw [List.map_append, ← List.append_assoc]
  refine hone.imp fun _ q' hq' => ⟨fun x hx => ?_, ?_⟩
  · rcases List.mem_append.1 hx with hx | hx
    · exact hq.keeps x hx
    · exact List.mem_singleton.1 hx ▸ Treatment.keeps_populating _ k m
  · rwa [Showing.treatAll_append]

theorem ends_reconstructAll_shows (snapshot : Snapshot) (hp : Shows n b v p) :
    Step.Ends (fun _ q => Shows n b (v.treatAll (populatings t snapshot (b.resolves v))) q) (reconstructAll t h snapshot)
      p := by
  unfold populatings
  refine (ends_enter_shows 6 hp).bind fun _ p hp => (ends_logCourse_shows _ hp).bind fun _ p hp => ?_
  have hstart : Populates n b v [] p := ⟨nofun, hp⟩
  refine (ends_populateAll (k := .location) ha hb nofun (sortParentFirst snapshot.locations) hstart).bind fun _ p hp => ?_
  rw [List.nil_append] at hp
  refine Step.Ends.bind (Step.Ends.forEach (l := []) (R := fun done q => Populates n b v
    ((sortParentFirst snapshot.locations).map (.populating (b.resolves v) .location) ++ done.flatMap fun k =>
      if t.settings.features.enabled k then (snapshot.ofKind k).values.map (.populating (b.resolves v) k) else []) q)
    (fun done k hk q hq => ?_) (by rwa [List.flatMap_nil, List.append_nil])) fun _ p hp => ?_
  · have hne : k ≠ .catalogItem := by
      rintro rfl
      cases (ObjectKind.mem_adjuncts_iff _).1 hk
    rw [List.flatMap_append, ← List.append_assoc, List.flatMap_singleton]
    unfold reconstructAdjuncts
    split
    · exact (ends_logCourse_shows _ hq.shows).bind fun _ q hq' => ends_populateAll ha hb hne _ ⟨hq.keeps, hq'⟩
    · rw [List.append_nil]
      exact .pure hq
  · refine (ends_logCourse_shows _ hp.shows).bind fun _ q hq => ?_
    exact (ends_populateAll (k := .entity) ha hb nofun _ ⟨hp.keeps, hq⟩).imp fun _ q hq => hq.shows

end Accepting

end Pass

end ManagementPlane
