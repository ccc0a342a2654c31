import ManagementPlane.Proofs.LastTurns

/-!
# What is on record of a pass

* `Plane.since` : the events on record behind those of an earlier live manager;
* `Plane.Continues p q` : from `p` to `q` events were only added, and the catalog is the same;
* `Plane.Accounted p q` : from `p` to `q` events were only added, and what is managed in `q` was managed so in `p`, or a
  hook call put on record since then says so;
* `Pass.accounts_conclude` : so it is with the last phase, whatever the handler does;
* `Pass.events_turn` : and the phases before it only add events;
* `Manager.accounted_of_built` : so it is with every pass that begins its last phase.
-/

namespace ManagementPlane

variable {σ : Type}

namespace Plane

variable {p q r : Plane} {k : ObjectKind} {h : Handle} {t : Transition}

/-! ## Events since an earlier live manager -/

/-- The events on record in `q` behind as many as `p` has. -/
def since (q p : Plane) : List Event := q.events.drop p.events.length

theorem events_eq_append (h : p.events <+: q.events) : q.events = p.events ++ q.since p := by
  obtain ⟨later, hl⟩ := h
  rw [since, ← hl, List.drop_left]

/-- What came after `p` came up to `q` or after `q`. -/
theorem since_trans (h₁ : p.events <+: q.events) (h₂ : q.events <+: r.events) :
    r.since p = q.since p ++ r.since q := by
  have hp := events_eq_append h₁
  have hq := events_eq_append h₂
  have hr := events_eq_append (h₁.trans h₂)
  rw [hp, hr, List.append_assoc] at hq
  exact List.append_cancel_left hq

theorem managedCalls_eq_append (h : p.events <+: q.events) (k : ObjectKind) :
    q.managedCalls k = p.managedCalls k ++ (q.since p).filterMap (Event.managed? k) := by
  rw [managedCalls, events_eq_append h, List.filterMap_append, managedCalls]

theorem prefix_record (p : Plane) (e : Event) : p.events <+: (p.record e).events := by
  rw [events_record]
  exact List.prefix_append _ _

/-! ## Making, populating and joining objects -/

/-- From `p` to `q` events were added, and the catalog is the same. -/
structure Continues (p q : Plane) : Prop where
  catalog : q.catalog = p.catalog
  events : p.events <+: q.events

namespace Continues

theorem refl (p : Plane) : Continues p p := ⟨rfl, List.prefix_rfl⟩

theorem trans (h₁ : Continues p q) (h₂ : Continues q r) : Continues p r :=
  ⟨h₂.catalog.trans h₁.catalog, h₁.events.trans h₂.events⟩

theorem record (p : Plane) (e : Event) : Continues p (p.record e) := ⟨rfl, prefix_record p e⟩

theorem modify (p : Plane) (h : Handle) (f : Object → Object) : Continues p (p.modify h f) :=
  ⟨rfl, List.prefix_rfl⟩

theorem preManage (p : Plane) (h : Handle) : Continues p (p.preManage h) := by
  unfold Plane.preManage
  dsimp only
  split
  · exact .refl p
  · exact ⟨rfl, List.prefix_rfl⟩

theorem register (s : Scratch) (p : Plane) (h : Handle) : Continues p (s.register p h).2 := by
  unfold Scratch.register
  split
  · exact .modify p h _
  · exact .refl p

theorem reconstruct (p : Plane) (known : ObjectKind → String → Bool) (readOnly : Bool) (h : Handle)
    (m : Memento) : Continues p (p.reconstruct known readOnly h m).2 := by
  have hrec : Continues p (p.recordHook h (.reconstruct m.id readOnly)) := .record p _
  unfold Plane.reconstruct
  dsimp only
  split
  · exact .refl p
  · split
    · exact hrec
    · split
      · exact hrec.trans (.modify _ h _)
      · exact hrec

theorem reconstructItem (p : Plane) (h : Handle) (i : CatalogItem) :
    Continues p (p.reconstructItem h i).2 := by
  have hrec : Continues p (p.recordHook h (.reconstructItem i.id)) := .record p _
  unfold Plane.reconstructItem
  dsimp only
  split
  · exact hrec
  · exact hrec.trans (.modify _ h _)

theorem attach (p : Plane) (adjunct : Handle) (entity : String) :
    Continues p (p.attach adjunct entity).2 := by
  have hrec : Continues p (p.recordHook adjunct (.attach entity)) := .record p _
  unfold Plane.attach
  dsimp only
  split
  · exact hrec
  · split
    · exact hrec.trans (.modify _ adjunct _)
    · exact hrec

theorem addAdjunct (p : Plane) (entity : Handle) (k : ObjectKind) (adjunct : Handle) :
    Continues p (p.addAdjunct entity k adjunct).2 := by
  have hatt : Continues p (p.attach adjunct (p.read entity).id).2 := attach p _ _
  unfold Plane.addAdjunct
  rcases h : p.attach adjunct (p.read entity).id with ⟨_ | _, q⟩
  · rw [h] at hatt
    exact hatt
  · rw [h] at hatt
    dsimp only
    split
    · exact hatt.trans (.modify q entity _)
    · exact hatt

end Continues

theorem continues_construct (k : ObjectKind) (d : TypeDescriptor) (id : String)
    (candidates : List ConstructorArgs) (p : Plane) :
    Continues p (Instantiator.construct k d id candidates p).2 := by
  unfold Instantiator.construct
  split
  · exact .record p _
  · split
    · exact .record p _
    · exact .refl p

theorem continues_makeLoaded (k : ObjectKind) (d : Except ObjectError TypeDescriptor) (id : String)
    (item : Option String) (candidates : List ConstructorArgs) (p : Plane) :
    Continues p (Instantiator.makeLoaded k d id item candidates p).2 := by
  cases d with
  | error e => exact .refl p
  | ok d =>
    have hnew := continues_construct k d id candidates p
    unfold Instantiator.makeLoaded
    dsimp only
    unfold Instantiator.make
    rcases hc : Instantiator.construct k d id candidates p with ⟨e | o, q⟩ <;> rw [hc] at hnew
    · exact hnew
    · have hadopt : ∀ o, Continues q (q.adopt o).2 := fun _ => ⟨rfl, List.prefix_rfl⟩
      exact hnew.trans ((hadopt _).trans (.preManage _ _))

/-! ## What is managed is on record -/

/-- Changing an object in a way that keeps its identity keeps that of every object. -/
theorem sameIdentity_modify (p : Plane) (h : Handle) {f : Object → Object}
    (hf : (p.read h).SameIdentity (f (p.read h))) (a : Handle) :
    (p.read a).SameIdentity ((p.modify h f).read a) := by
  rcases p.read_modify_cases h f a with hread | ⟨rfl, hread⟩ <;> rw [hread]
  · exact .refl _
  · exact hf

/-- From `p` to `q` events were added and objects kept their kinds. What is managed in `q` was managed so in `p`, or a
call on record since then has brought it under management with just that transition. -/
structure Accounted (p q : Plane) : Prop where
  events : p.events <+: q.events
  kind : ∀ a, (q.read a).kind = (p.read a).kind
  entry : ∀ k id e, (q.registry k).objects.get? id = some e → (p.registry k).objects.get? id = some e ∨
    ∃ audited, .hook audited e.object (p.read e.object).kind id (.managed e.mode) ∈ q.since p

namespace Accounted

theorem refl (p : Plane) : Accounted p p := ⟨List.prefix_rfl, fun _ => rfl, fun _ _ _ => Or.inl⟩

theorem trans (h₁ : Accounted p q) (h₂ : Accounted q r) : Accounted p r where
  events := h₁.events.trans h₂.events
  kind a := (h₂.kind a).trans (h₁.kind a)
  entry k id e he := by
    rw [since_trans h₁.events h₂.events]
    rcases h₂.entry k id e he with he | ⟨audited, he⟩
    · refine (h₁.entry k id e he).imp_right fun ⟨audited, he⟩ => ⟨audited, ?_⟩
      exact List.mem_append_left _ he
    · rw [h₁.kind] at he
      exact Or.inr ⟨audited, List.mem_append_right _ he⟩

/-- Nothing new is managed. -/
theorem of_entries (hevents : p.events <+: q.events) (hkind : ∀ a, (q.read a).kind = (p.read a).kind)
    (hentries : ∀ k id e, (q.registry k).objects.get? id = some e →
      (p.registry k).objects.get? id = some e) : Accounted p q :=
  ⟨hevents, hkind, fun k id e he => Or.inl (hentries k id e he)⟩

theorem of_told (h : Told p q) : Accounted p q := by
  refine .of_entries h.grows (fun a => by rw [h.read]) fun k id e he => ?_
  rwa [h.registry] at he

theorem record (p : Plane) (e : Event) : Accounted p (p.record e) := by
  refine .of_entries (prefix_record p e) (fun _ => rfl) fun k id e he => ?_
  cases k <;> exact he

/-- A registry that is given back without some of its objects. -/
theorem setRegistry {r : Registry}
    (hr : ∀ id e, r.objects.get? id = some e → (p.registry k).objects.get? id = some e) :
    Accounted p (p.setRegistry k r) := by
  refine .of_entries (by rw [events_setRegistry]) (fun a => by rw [read_setRegistry]) fun j id e he => ?_
  rw [registry_setRegistry] at he
  split at he
  · next hj =>
    rw [p.registry_eq_of_iff hj]
    exact hr id e he
  · exact he

theorem modify (h : Handle) {f : Object → Object} (hf : (p.read h).SameIdentity (f (p.read h))) :
    Accounted p (p.modify h f) := by
  refine .of_entries List.prefix_rfl (fun a => (p.sameIdentity_modify h hf a).kind) fun k id e he => ?_
  rwa [registry_modify] at he

end Accounted

/-- Managing an object puts it on record. -/
theorem accounted_manageWith (p : Plane) (k : ObjectKind) (h : Handle) (t : Transition) :
    Accounted p (p.manageWith k h t).2 := by
  -- the object as it is when its hook is called
  obtain ⟨o, ho⟩ : ∃ o, o = (p.modify h (Object.setReadOnly t.isReadOnly)).read h := ⟨_, rfl⟩
  have hsame : (p.read h).SameIdentity o :=
    ho ▸ p.sameIdentity_modify h (Object.sameIdentity_setReadOnly _ _) h
  have hevents : (p.manageWith k h t).2.events =
      p.events ++ [.hook o.behaviour.audited h o.kind o.id (.managed t)] := by
    unfold manageWith recordHook
    simp only [events_modify, events_record, events_setRegistry, read_setRegistry, ← ho]
  have hgrows : p.events <+: (p.manageWith k h t).2.events := by
    rw [hevents]
    exact List.prefix_append _ _
  refine ⟨hgrows, fun a => ?_, fun j id e he => ?_⟩
  · have hread : (p.manageWith k h t).2.read a = (((p.modify h (Object.setReadOnly t.isReadOnly)).modify h
        (Object.noteManaged (some t))).read a) := by cases k <;> rfl
    rw [hread, (sameIdentity_modify _ h (Object.sameIdentity_noteManaged _ _) a).kind,
      (p.sameIdentity_modify h (Object.sameIdentity_setReadOnly _ _) a).kind]
  · rw [registry_manageWith] at he
    split at he
    · next hj =>
      rw [OrderedMap.get?_insert] at he
      split at he
      · next hid =>
        obtain rfl := Option.some.inj he
        refine Or.inr ⟨o.behaviour.audited, ?_⟩
        rw [since, hevents, List.drop_left, ← hsame.kind, ← hid, ← hsame.id]
        exact List.mem_singleton_self _
      · rw [p.registry_eq_of_iff hj]
        exact Or.inl he
    · exact Or.inl he

theorem accounted_manageNoted (p : Plane) (k : ObjectKind) (h : Handle) :
    Accounted p (p.manageNoted k h).2 := by
  have hused : Accounted p (p.setRegistry k
      { p.registry k with pending := (p.registry k).pending.erase (p.read h).id }) :=
    .setRegistry fun _ _ he => he
  exact hused.trans (accounted_manageWith _ k h _)

/-- Dropping an id takes it off record. -/
theorem accounted_unmanage (p : Plane) (k : ObjectKind) (id : String) (t : Transition) :
    Accounted p (p.unmanage k id t).2 := by
  have hforgotten : Accounted p (p.without k id) := by
    refine .setRegistry fun id' e he => ?_
    rw [OrderedMap.get?_erase] at he
    split at he
    · cases he
    · exact he
  exact unmanage_induction hforgotten fun a =>
    (hforgotten.trans (.record _ _)).trans (.modify a (Object.sameIdentity_noteManaged none _))

theorem accounted_of_handling (h : Handling p q) : Accounted p q := by
  cases h with
  | manage k a => exact accounted_manageNoted p k a
  | drop k id t => exact accounted_unmanage p k id t

end Plane

namespace Pass

open Plane (Accounted)

variable {t : Task} {h : Handler σ} {p q r : Pass σ}

/-! ## The last phase, whatever the handler does -/

/-- From `p` to `q` nothing but the live manager and the handler has changed, and what is managed is accounted for. -/
def Accounts (p q : Pass σ) : Prop := q.toIteration = p.toIteration ∧ Accounted p.plane q.plane

instance : Std.Refl (Accounts (σ := σ)) := ⟨fun p => ⟨rfl, .refl p.plane⟩⟩

instance : IsTrans (Pass σ) Accounts := ⟨fun _ _ _ h₁ h₂ => ⟨h₂.1.trans h₁.1, h₁.2.trans h₂.2⟩⟩

theorem accounted_release (p : Plane) : Accounted p (release p) := by
  refine .of_entries List.prefix_rfl (fun _ => rfl) fun k id e he => ?_
  cases k <;> exact he

theorem accounts_of_lastTurn (hturn : LastTurn t p q) : Accounts p q := by
  cases hturn with
  | hear => exact ⟨rfl, .record _ _⟩
  | note => exact ⟨rfl, .setRegistry fun _ _ he => he⟩
  | handle hone => exact ⟨rfl, Plane.accounted_of_handling hone⟩
  | release => exact ⟨rfl, accounted_release p.plane⟩

theorem accounts_of_lastTurns (hturns : LastTurns t p q) : Accounts p q := by
  induction hturns with
  | refl => exact Std.Refl.refl p
  | tail _ hturn ih => exact IsTrans.trans _ _ _ ih (accounts_of_lastTurn hturn)

/-- Wherever a pass ends that has begun its last phase, it is in that phase, and what is managed is accounted for. -/
theorem accounts_conclude (snapshot : Snapshot) (p : Pass σ) :
    Step.Moves (fun p q => q.toIteration = { p.toIteration with phase := 8 } ∧ Accounted p.plane q.plane)
      (conclude t h snapshot) p := by
  refine (moves_conclude snapshot p).imp fun q hturns => ?_
  exact accounts_of_lastTurns hturns

/-! ## The phases before it -/

theorem events_adoptAll (objects : List Object) (p : Plane) : (adoptAll objects p).2.events = p.events := by
  induction objects generalizing p with
  | nil => rfl
  | cons o objects ih => exact ih _

/-- A turn only adds to what is on record. -/
theorem events_turn (hturn : Turn t p q) : p.plane.events <+: q.plane.events := by
  cases hturn with
  | enter => exact List.prefix_rfl
  | note => exact List.prefix_rfl
  | hear => exact Plane.prefix_record _ _
  | @fail k id item candidates d hd e plane hm =>
    have hmade := Plane.continues_makeLoaded k d id item candidates p.plane
    rw [hm] at hmade
    exact hmade.events
  | @make k id item candidates d hd shell plane hm =>
    have hmade := Plane.continues_makeLoaded k d id item candidates p.plane
    rw [hm] at hmade
    exact (hmade.trans (.register _ _ _)).events
  | populateItem => exact (Plane.Continues.reconstructItem _ _ _).events
  | reset => exact List.prefix_rfl
  | fill items =>
    show _ <+: (adoptAll (items.map .ofItem) p.plane).2.events
    rw [events_adoptAll]
  | populate => exact (Plane.Continues.reconstruct _ _ _ _ _).events
  | leave => exact List.prefix_rfl
  | attach => exact (Plane.Continues.addAdjunct _ _ _ _).events

theorem events_turns (hturns : Turns t p q) : p.plane.events <+: q.plane.events := by
  induction hturns with
  | refl => exact List.prefix_rfl
  | tail _ hturn ih => exact ih.trans (events_turn hturn)

end Pass

namespace Manager

open Pass (Accounts)

variable {m : Manager} {setup : Setup} {source : Source} {time : Nat} {h : Handler σ} {s : σ}
  {mode : ManagementMode} {o : Outcome σ} {p : Pass σ}

/-! ## Outcomes -/

/-- Once a pass has got through what comes before its last phase, it is in that phase in the end, and what is managed is
accounted for. -/
theorem accounted_of_built (ho : m.runPass setup source time h (.new mode) s = o) {snapshot : Snapshot}
    (hb : (Pass.build (m.task setup source mode) h).on (m.opening h s mode) = (.ok snapshot, p)) :
    o.iteration = { p.toIteration with phase := 8 } ∧ p.plane.Accounted o.manager.plane := by
  obtain ⟨result, r, hv, htold, hiteration, -⟩ := exists_told ho
  rw [Pass.verdict_eq, Step.on_bind, hb] at hv
  obtain ⟨hphase, haccounted⟩ := (Pass.accounts_conclude snapshot p).to hv
  exact ⟨hiteration.trans hphase, haccounted.trans (.of_told htold)⟩

/-- What a pass puts on record comes behind what was there before. -/
theorem events_opening (m : Manager) (h : Handler σ) (s : σ) (mode : ManagementMode) :
    m.plane.events <+: (m.opening h s mode).plane.events := Plane.prefix_record _ _

end Manager

end ManagementPlane
