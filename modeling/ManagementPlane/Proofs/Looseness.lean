import ManagementPlane.Proofs.Shelf

/-!
# Shells before they are joined

* `Object.Loose` : an object that belongs to none and to which none belongs, and that can be joined;
* `TypeRegistry.MakesLoose` : types make such objects; the stock types do;
* `Notification.isOfJoining` : what is told of joining entities and adjuncts;
* `Pass.Loose n p` : all shells of the pass `p` are loose;
* `Pass.Untying n p q` : from `p` to `q` loose shells stay loose, and nothing is told of joining;
* `Pass.untying_loadManifest`, … , `Pass.untying_reconstructAll` : so it is in the phases before shells are joined.
-/

namespace ManagementPlane

variable {σ α : Type}

/-! ## Loose objects -/

/-- An object that belongs to no entity and has no adjuncts. If it is an adjunct, then joining it does not fail; if it is
an entity, then populating it does not. -/
structure Object.Loose (o : Object) : Prop where
  owner : o.owner = none
  adjuncts : ∀ k, o.adjuncts k = []
  attachFault : o.kind.isAdjunct = true → o.behaviour.attachFault = none
  reconstructFault : o.kind = .entity → o.behaviour.reconstructFault = none

/-- Everything that a type makes is loose. -/
def TypeDescriptor.MakesLoose (d : TypeDescriptor) : Prop := ∀ o, d.Makes o → o.Loose

/-- Everything that the types make is loose. -/
def TypeRegistry.MakesLoose (r : TypeRegistry) : Prop := ∀ d, r.Has d → d.MakesLoose

namespace Object

variable {o o' : Object}

theorem loose_blank (k : ObjectKind) (id type : String) : (blank k id type).Loose := by
  cases k <;> exact ⟨rfl, fun k => by cases k <;> rfl, fun _ => rfl, fun _ => rfl⟩

theorem Loose.asShell (h : o.Loose) (id : String) (item : Option String) (readOnly : Bool) :
    (o.asShell id item readOnly).Loose := ⟨h.owner, h.adjuncts, h.attachFault, h.reconstructFault⟩

theorem owner_of_reconstruct {known : ObjectKind → String → Bool} {m : Memento} (h : o.reconstruct known m = .ok o') :
    o'.owner = o.owner := by
  unfold reconstruct at h
  unfold owner
  cases hb : o.body <;> rw [hb] at h <;> cases h <;> rfl

theorem Loose.of_reconstruct (ho : o.Loose) {known : ObjectKind → String → Bool} {m : Memento}
    (h : o.reconstruct known m = .ok o') : o'.Loose where
  owner := (owner_of_reconstruct h).trans ho.owner
  adjuncts k := (adjuncts_of_reconstruct h k).trans (ho.adjuncts k)
  attachFault hk := by
    rw [behaviour_of_reconstruct h]
    exact ho.attachFault ((sameIdentity_of_reconstruct h).kind.symm ▸ hk)
  reconstructFault hk := by
    rw [behaviour_of_reconstruct h]
    exact ho.reconstructFault ((sameIdentity_of_reconstruct h).kind.symm.trans hk)

theorem Loose.reconstructItem (ho : o.Loose) (i : CatalogItem) : (o.reconstructItem i).Loose := by
  unfold Object.reconstructItem
  cases hb : o.body with
  | catalogItem _ =>
    exact ⟨rfl, fun k => by cases k <;> rfl, nofun, nofun⟩
  | _ => exact ho

end Object

theorem TypeDescriptor.makesLoose_stock (name : String) (k : ObjectKind) : (stock name k).MakesLoose := by
  intro o ho
  obtain ⟨id, rfl⟩ := ho.exists_blank
  exact Object.loose_blank k _ _

theorem TypeRegistry.makesLoose_stock : TypeRegistry.stock.MakesLoose := by
  intro d hd
  obtain ⟨name, k, rfl⟩ := exists_eq_of_has_stock hd
  exact TypeDescriptor.makesLoose_stock name k

/-- Populating a catalog item changes this object at most. -/
theorem Plane.read_reconstructItem (p : Plane) (shell : Handle) (item : CatalogItem) (a : Handle) :
    (p.reconstructItem shell item).2.read a = p.read a ∨
      (p.reconstructItem shell item).2.read a = (p.read a).reconstructItem item := by
  unfold reconstructItem
  dsimp only
  split
  · exact Or.inl rfl
  · exact ((p.recordHook shell _).read_modify_cases shell _ a).imp_right And.right

/-! ## What is told of joining -/

/-- Whether the handler is told of an adjunct that an entity refers to in vain, or of an entity that failed. -/
def Notification.isOfJoining : Notification → Bool
  | .dangling k _ => k.isAdjunct
  | .rebindFailed k _ _ => k = .entity
  | _ => false

/-- What handlers were told of joining, the latest first. -/
def Plane.joiningNotes (p : Plane) : List Notification := p.notes.filter Notification.isOfJoining

/-- What else they were told, the latest first. -/
def Plane.otherNotes (p : Plane) : List Notification := p.notes.filter fun n => !n.isOfJoining

namespace Pass

variable {t : Task} {h : Handler σ} {n : Nat} {p q r : Pass σ} {k : ObjectKind} {id type : String} {a : Handle}

/-! ## Loose shells -/

/-- The pass, which found `n` objects, has only loose shells. -/
structure Loose (n : Nat) (p : Pass σ) : Prop where
  sound : p.scratch.Sound n p.plane
  shelf : ∀ {k id o}, p.shelf k id = some o → o.Loose

/-- If all shells of `p` are loose, those of `q` are, and from `p` to `q` nothing is told of joining. -/
def Untying (n : Nat) (p q : Pass σ) : Prop :=
  p.Loose n → q.Loose n ∧ q.plane.joiningNotes = p.plane.joiningNotes

instance : Std.Refl (Untying (σ := σ) n) := ⟨fun _ hp => ⟨hp, rfl⟩⟩

instance : IsTrans (Pass σ) (Untying n) where
  trans _ _ _ h₁ h₂ hp := by
    obtain ⟨hq, hnotes⟩ := h₁ hp
    obtain ⟨hr, hnotes'⟩ := h₂ hq
    exact ⟨hr, hnotes'.trans hnotes⟩

/-- Nothing is told, and every shell is as before or loose. -/
theorem Untying.of_shelf (hsound : p.scratch.Sound n p.plane → q.scratch.Sound n q.plane)
    (hnotes : q.plane.notes = p.plane.notes)
    (hshelf : p.Loose n → ∀ k id o, q.shelf k id = some o → p.shelf k id = some o ∨ o.Loose) : Untying n p q := by
  refine fun hp => ⟨⟨hsound hp.sound, fun {k id o} ho => ?_⟩, ?_⟩
  · exact (hshelf hp k id o ho).elim hp.shelf fun ho => ho
  · rw [Plane.joiningNotes, hnotes, Plane.joiningNotes]

/-- Nothing is told, and of loose objects loose objects are made. -/
theorem Untying.of_read (hsound : p.scratch.Sound n p.plane → q.scratch.Sound n q.plane)
    (hnotes : q.plane.notes = p.plane.notes) (hscratch : q.scratch = p.scratch)
    (hread : ∀ a, p.plane.heap.Valid a → (p.plane.read a).Loose → (q.plane.read a).Loose) : Untying n p q := by
  refine .of_shelf hsound hnotes fun hp k id o ho => ?_
  obtain ⟨a, ha, rfl⟩ := shelf_eq_some_iff.1 ho
  rw [hscratch] at ha
  exact Or.inr (hread a (hp.sound.valid ha) (hp.shelf (shelf_eq_some_iff.2 ⟨a, ha, rfl⟩)))

theorem untying_tell {ε : Type} (note : Notification) (hnote : note.isOfJoining = false) (answer : Step σ ε Unit)
    (p : Pass σ) : Step.Moves (Untying n) (tell note answer) p := by
  intro hp
  rw [on_tell]
  refine ⟨⟨hp.sound.extend (.record ⟨fun _ => rfl, rfl⟩ n p.plane), hp.shelf⟩, ?_⟩
  exact List.filter_cons_of_neg (by rw [hnote]; exact Bool.false_ne_true)

theorem untying_rebindFailed (hk : k ≠ .entity) (shell : Handle) (e : ObjectError) (p : Pass σ) :
    Step.Moves (Untying n) (rebindFailed h k shell e) p :=
  .read_bind (untying_tell (.rebindFailed k _ e) (decide_eq_false hk) _ p)

theorem untying_loadFailed (k : ObjectKind) (message : String) (e : StoreError) (p : Pass σ) :
    Step.Moves (Untying n) ((listener h).loadFailed k message e) p := untying_tell _ rfl _ p

theorem untying_logCourse (message : String) (p : Pass σ) : Step.Moves (Untying n) (logCourse t message) p :=
  .read_bind (.of_update (.of_read (·.extend (.record ⟨fun _ => rfl, rfl⟩ n p.plane)) rfl rfl fun _ _ ha => ha))

theorem untying_enter (phase : Nat) (p : Pass σ) : Step.Moves (Untying n) (enter phase) p :=
  fun hp => ⟨⟨hp.sound, hp.shelf⟩, rfl⟩

/-! ## Making shells -/

theorem untying_makeShell (htypes : t.types.MakesLoose) {make : Pass σ → Plane → Except ObjectError Handle × Plane}
    (hmake : Asks t k id make) (p : Pass σ) :
    Step.Moves (Untying n) (makeShell h k id type make) p := by
  obtain ⟨item, candidates, d, hd, hmade⟩ := hmake p
  have hnotes := (Instantiator.mute_makeLoaded k id item candidates d).notes p.plane
  unfold makeShell onPlane Step.Moves
  rw [Step.on_total_bind]
  rcases hm : make p p.plane with ⟨e | shell, plane⟩ <;> rw [hm] at hmade <;> simp only [hm] <;>
    rw [← hmade] at hnotes
  · have hread : ∀ a, plane.read a = p.plane.read a := fun a =>
      congrArg (Heap.read · a) (Instantiator.read_of_makeLoaded_error hmade.symm)
    have hfail : Untying n p { p with plane } := .of_read
      (fun hs => (building_of_turn (t := t) hs (.fail p hd hmade.symm)).sound) hnotes rfl fun a _ ha => hread a ▸ ha
    exact IsTrans.trans _ _ _ hfail (untying_tell _ rfl _ _)
  · obtain ⟨d', o, hd', hmakes, rfl, hheap⟩ := Instantiator.heap_of_makeLoaded hd hmade.symm
    refine .of_shelf (fun hs => (building_of_turn hs (.make p hd hmade.symm)).sound)
      ((Scratch.notes_register _ _ _).trans hnotes) fun hp j i o' ho' => ?_
    have hshelf : _ = some o' := (shelf_make hheap hp.sound j i).symm.trans ho'
    split at hshelf
    · exact Or.inr (Option.some.inj hshelf ▸ (htypes d' (hd.type d' hd').1 o hmakes).asShell _ _ _)
    · exact Or.inl hshelf

theorem untying_loadManifest (p : Pass σ) : Step.Moves (Untying n) (loadManifest t h) p :=
  movesAlong_loadManifest t h (untying_enter 1) untying_logCourse untying_loadFailed
    (fun _ _ => .of_read (fun hs => hs) rfl rfl fun _ _ ha => ha) p

theorem untying_populateCatalogItem (item : CatalogItem) (p : Pass σ) :
    Step.Moves (Untying n) (populateCatalogItem h item) p := by
  refine .read_bind ?_
  rcases hg : p.scratch.get? .catalogItem item.id with _ | shell
  · exact untying_tell _ rfl _ p
  · refine Step.Moves.bind (.of_total ?_) fun populated q _ => ?_
    · refine .of_read (fun hs => hs.extend (.reconstructItem (hs.fresh hg) item))
        ((Plane.mute_reconstructItem shell item).notes p.plane) rfl fun a _ ha => ?_
      rcases p.plane.read_reconstructItem shell item a with hread | hread <;> rw [hread]
      · exact ha
      · exact ha.reconstructItem item
    · cases populated with
      | ok => exact .pure _ q
      | error e => exact untying_rebindFailed (k := .catalogItem) nofun _ _ q

theorem untying_loadDefaultCatalog (p : Pass σ) : Step.Moves (Untying n) (loadDefaultCatalog t) p := by
  unfold loadDefaultCatalog
  split
  · exact .stop _ p
  · next items _ =>
    refine .of_update (.of_read (fun hs => hs.extend (extends_fillCatalog _ hs.size_le))
      ((mute_fillCatalog _).notes p.plane) rfl fun a hv ha => ?_)
    have hread : (fillCatalog items p.plane).read a = p.plane.read a := read_adoptAll _ hv
    exact hread.symm ▸ ha

theorem untying_rebuildCatalog (htypes : t.types.MakesLoose) (manifest : Manifest) (p : Pass σ) :
    Step.Moves (Untying n) (rebuildCatalog t h manifest) p := by
  refine (untying_enter 2 p).bind fun _ p _ => ?_
  split
  · exact untying_logCourse _ p
  · refine (untying_logCourse _ p).bind fun _ p _ => ?_
    refine (Step.Moves.forEach (fun item _ => untying_makeShell htypes (asks_newCatalogItem t item)) p).bind fun _ p _ => ?_
    refine (untying_logCourse _ p).bind fun _ p _ => ?_
    refine (Step.Moves.forEach (fun item _ => untying_populateCatalogItem item) p).bind fun _ p _ => .read_bind ?_
    split
    · refine (untying_logCourse _ p).bind fun _ p _ => .of_update ?_
      exact .of_read (·.extend (.setCatalog _)) rfl rfl fun _ _ ha => ha
    · exact (untying_logCourse _ p).bind fun _ p _ => untying_loadDefaultCatalog p

theorem untying_makeLocationsAndEntities (htypes : t.types.MakesLoose) (manifest : Manifest) (p : Pass σ) :
    Step.Moves (Untying n) (makeLocationsAndEntities t h manifest) p := by
  refine (untying_enter 3 p).bind fun _ p _ => (untying_logCourse _ p).bind fun _ p _ => ?_
  refine (Step.Moves.forEach (fun e _ => untying_makeShell htypes (asks_newLocation t e)) p).bind fun _ p _ => ?_
  refine (untying_logCourse _ p).bind fun _ p _ => Step.Moves.forEach (fun e _ => ?_) p
  exact untying_makeShell htypes (asks_newEntity t e fun p =>
    p.plane.provenance? t.types t.settings.inferCatalogItem manifest.entities e)

theorem untying_makeAdjuncts (htypes : t.types.MakesLoose) (snapshot : Snapshot) (p : Pass σ) :
    Step.Moves (Untying n) (makeAdjuncts t h snapshot) p := by
  refine (untying_enter 5 p).bind fun _ p _ => Step.Moves.forEach (fun k _ p => ?_) p
  unfold makeAdjunctsOf
  dsimp only
  split
  · exact untying_logCourse _ p
  · exact (untying_logCourse _ p).bind fun _ p _ =>
      Step.Moves.forEach (fun m _ => untying_makeShell htypes (asks_newAdjunct t k m)) p

/-! ## Populating them -/

/-- Adjuncts are not looked up when mementos are read. -/
theorem not_isAdjunct_of_mem_references {s : Snapshot} {x : ObjectKind × String} (hx : x ∈ s.references) :
    x.1.isAdjunct = false := by
  unfold Snapshot.references Snapshot.entityReferences Snapshot.locationReferences at hx
  simp only [List.mem_append, List.mem_flatMap, List.mem_map] at hx
  rcases hx with ⟨m, -, ((⟨id, -, rfl⟩ | ⟨id, -, rfl⟩) | ⟨id, -, rfl⟩) | ⟨id, -, rfl⟩⟩ |
    ⟨m, -, ⟨id, -, rfl⟩ | ⟨id, -, rfl⟩⟩ <;> rfl

theorem untying_loadSnapshot (raw : RawData) (p : Pass σ) : Step.Moves (Untying n) (loadSnapshot h raw) p := by
  have hall : ∀ {β : Type} (read : String → Option β) declared kind payloads table (p : Pass σ),
      Step.Moves (Untying n) (decodeAll read declared kind (listener h) payloads table) p :=
    moves_decodeAll untying_loadFailed
  refine (untying_enter 4 p).bind fun _ p _ => .read_bind (.mapStop _ ?_)
  unfold Snapshot.decode Snapshot.decodeKind
  refine (hall _ _ _ _ _ p).bind fun _ p _ => (hall _ _ _ _ _ p).bind fun _ p _ => ?_
  refine (hall _ _ _ _ _ p).bind fun _ p _ => (hall _ _ _ _ _ p).bind fun _ p _ => ?_
  refine (hall _ _ _ _ _ p).bind fun _ p _ => (hall _ _ _ _ _ p).bind fun _ p _ => ?_
  refine (Step.Moves.forEach (fun x hx p => ?_) p).bind fun _ p _ => .pure _ p
  exact untying_tell (.dangling _ _) (not_isAdjunct_of_mem_references (List.mem_filter.1 hx).1) _ p

theorem untying_reconstructOne (k : ObjectKind) (m : Memento) (p : Pass σ) :
    Step.Moves (Untying n) (reconstructOne h k m) p := by
  intro hp
  suffices hmoves : Step.Moves (Untying n) (reconstructOne h k m) p from hmoves hp
  refine .read_bind ?_
  rcases hg : p.scratch.get? k m.id with _ | shell
  · exact untying_tell _ rfl _ p
  · refine Step.Moves.bind (.of_total ?_) fun populated q hq => ?_
    · refine .of_read (fun hs => hs.extend (.reconstruct _ _ (hs.fresh hg) m))
        ((Plane.mute_reconstruct shell _ _ m).notes p.plane) rfl fun a _ ha => ?_
      rcases p.plane.read_reconstruct (p.scratch.known p.plane) p.scratch.allReadOnly shell m a with hread | ⟨-, hread⟩
      · exact hread.symm ▸ ha
      · exact ha.of_reconstruct hread
    · cases populated with
      | ok => exact .pure _ q
      | error e =>
        have hk : k ≠ .entity := by
          rintro rfl
          have hkind := hp.sound.kind hg
          have hfault := (hp.shelf (shelf_eq_some_iff.2 ⟨shell, hg, rfl⟩)).reconstructFault hkind
          obtain ⟨o, -, hpopulated⟩ := p.plane.reconstruct_eq (hkind ▸ nofun) hfault (p.scratch.known p.plane)
            p.scratch.allReadOnly m
          have hresult : (p.plane.reconstruct (p.scratch.known p.plane) p.scratch.allReadOnly shell m).1 = .error e :=
            Except.ok.inj (congrArg Prod.fst hq)
          rw [hpopulated] at hresult
          cases hresult
        refine (untying_rebindFailed hk _ _ q).bind fun _ q _ => ?_
        split
        · refine .of_update (.of_shelf (·.unregister k m.id) rfl fun _ j i o ho => Or.inl ?_)
          rw [shelf_leave] at ho
          split at ho
          · cases ho
          · exact ho
        · exact .pure _ q

theorem untying_reconstructAll (snapshot : Snapshot) (p : Pass σ) :
    Step.Moves (Untying n) (reconstructAll t h snapshot) p := by
  have hall : ∀ k mementos (p : Pass σ), Step.Moves (Untying n) (Step.forEach mementos (reconstructOne h k)) p :=
    fun k mementos => Step.Moves.forEach fun m _ => untying_reconstructOne k m
  refine (untying_enter 6 p).bind fun _ p _ => (untying_logCourse _ p).bind fun _ p _ => ?_
  refine (hall _ _ p).bind fun _ p _ => (Step.Moves.forEach (fun k _ p => ?_) p).bind fun _ p _ => ?_
  · unfold reconstructAdjuncts
    split
    · exact (untying_logCourse _ p).bind fun _ p _ => hall _ _ p
    · exact .pure _ p
  · exact (untying_logCourse _ p).bind fun _ p _ => hall _ _ p

end Pass

end ManagementPlane
