import ManagementPlane.Proofs.Content
import ManagementPlane.Proofs.Courses
import ManagementPlane.Proofs.Moving

/-!
# What tries to make no shell

Populating and joining objects, decoding and logging try to make no shells, and what they put on record is about
objects that have shells.

* `Pass.Minor` : such a course, for whatever keeps the pass in order;
* `Pass.minor_loadFailed`, … : what is told to listeners;
* `Pass.minor_reconstructAll`, `Pass.minor_attachAdjuncts` : objects are populated and joined.
-/

namespace ManagementPlane

variable {σ : Type}

namespace Pass

variable {t : Task} {h : Handler σ} {n : Nat} {types : TypeRegistry} {p q r : Pass σ}

/-- The course of something that tries to make no shell. -/
def Minor (n : Nat) (types : TypeRegistry) (p q : Pass σ) : Prop :=
  p.scratch.Sound n p.plane → Course n types [] p q

instance : Std.Refl (Minor (σ := σ) n types) := ⟨fun _ hs => .refl types hs⟩

instance : IsTrans (Pass σ) (Minor n types) := ⟨fun _ _ _ h₁ h₂ hs => (h₁ hs).minor (h₂ (h₁ hs).sound)⟩

/-! ## What is told -/

/-- Something is put on record that is no failure to make or manage an object, and that takes for made only what has a
shell. -/
theorem Course.hear (hs : p.scratch.Sound n p.plane) {e : Event} (hquiet : e.Quiet) (hc : e.createFailed? = none)
    (hm : e.manageFailed? = none) (ht : ∀ x, e.treats? = some x → p.scratch.contains x.1 x.2 = true) (s : σ) :
    Course n t.types [] p { p.record e with handler := s } where
  building := building_of_turn (t := t) hs (.hear p hquiet s)
  events := Plane.prefix_record _ e
  unmanaged e' he := by
    rw [show ({ p.record e with handler := s } : Pass σ).plane.since p.plane = [e] from Plane.since_record _ e] at he
    exact List.mem_singleton.1 he ▸ hm
  failures := by
    show List.Sublist (((p.plane.record e).since p.plane).filterMap Event.createFailed?) []
    rw [Plane.since_record, List.filterMap_cons_none hc, List.filterMap_nil]
  treated _ x hx := by
    obtain ⟨e', he, hx⟩ := List.mem_filterMap.1 hx
    rw [show ({ p.record e with handler := s } : Pass σ).plane.since p.plane = [e] from Plane.since_record _ e] at he
    exact Or.inl (ht x (List.mem_singleton.1 he ▸ hx))
  shells _ k id hk := Or.inl hk
  holds _ a b hab := Or.inl hab

theorem Course.hear_neutral (hs : p.scratch.Sound n p.plane) {e : Event} (hquiet : e.Quiet) (he : e.Neutral) (s : σ) :
    Course n t.types [] p { p.record e with handler := s } :=
  .hear hs hquiet he.created he.managed (fun x hx => by simp [he.treated] at hx) s

theorem minor_tell {ε : Type} {note : Notification} (hn : (Event.notified note).Neutral) (answer : Step σ ε Unit)
    (p : Pass σ) : Step.Moves (Minor n t.types) (tell note answer) p := by
  intro hs
  rw [on_tell]
  exact .hear_neutral hs ⟨fun _ => rfl, rfl⟩ hn _

theorem minor_notFound (k : ObjectKind) (id : String) (p : Pass σ) :
    Step.Moves (Minor n t.types) (notFound h k id) p := minor_tell ⟨rfl, rfl, rfl⟩ _ p

theorem minor_loadFailed (k : ObjectKind) (message : String) (e : StoreError) (p : Pass σ) :
    Step.Moves (Minor n t.types) ((listener h).loadFailed k message e) p := minor_tell ⟨rfl, rfl, rfl⟩ _ p

theorem minor_dangling (k : ObjectKind) (id : String) (p : Pass σ) :
    Step.Moves (Minor n t.types) ((listener h).dangling k id) p := minor_tell ⟨rfl, rfl, rfl⟩ _ p

/-- Only shells are reported as not populated or not joined. -/
theorem minor_rebindFailed {k : ObjectKind} {id : String} {shell : Handle} (e : ObjectError) {p : Pass σ}
    (ha : p.scratch.get? k id = some shell) : Step.Moves (Minor n t.types) (rebindFailed h k shell e) p := by
  intro hs
  refine .hear (e := .notified (.rebindFailed k (p.plane.read shell).id e)) hs ⟨fun _ => rfl, rfl⟩ rfl rfl
    (fun x hx => ?_) _
  obtain rfl := Option.some.inj hx
  rw [hs.id ha, Scratch.contains_eq_isSome, ha]
  rfl

theorem minor_logCourse (message : String) (p : Pass σ) :
    Step.Moves (Minor n t.types) (logCourse t message) p :=
  .read_bind (.of_update fun hs => .hear_neutral hs ⟨fun _ => rfl, rfl⟩ ⟨rfl, rfl, rfl⟩ p.handler)

/-- A turn that puts nothing of note on record. -/
theorem Minor.of_turn (hturn : Turn t p q) (hd : p.plane.Discreet q.plane)
    (hshells : ∀ k id, q.scratch.contains k id = true → p.scratch.contains k id = true)
    (hholds : ∀ a b, (q.plane.read a).Holds b → (p.plane.read a).Holds b) : Minor n t.types p q :=
  fun hs => .of_discreet (building_of_turn hs hturn) hd hshells hholds

/-- A turn that puts nothing on record and changes neither shells nor objects. -/
theorem Minor.of_still (hturn : Turn t p q) (hevents : q.plane.events = p.plane.events)
    (hscratch : q.scratch = p.scratch) (hread : ∀ a, q.plane.read a = p.plane.read a) : Minor n t.types p q :=
  .of_turn hturn (.of_events_eq hevents) (fun _ _ hk => hscratch ▸ hk) fun a _ hab => hread a ▸ hab

theorem minor_enter {phase : Nat} (hphase : phase < 8) (p : Pass σ) :
    Step.Moves (Minor n t.types) (enter phase) p :=
  .of_update (.of_still (.enter p hphase) rfl rfl fun _ => rfl)

end Pass

/-! ## Populating and joining -/

namespace Plane

variable {p q : Plane}

theorem discreet_reconstruct (p : Plane) (known : ObjectKind → String → Bool) (readOnly : Bool) (h : Handle)
    (m : Memento) : p.Discreet (p.reconstruct known readOnly h m).2 := by
  have hrec : p.Discreet (p.recordHook h (.reconstruct m.id readOnly)) :=
    (Discreet.refl p).recordHook h nofun
  unfold reconstruct
  dsimp only
  split
  · exact .refl p
  · split
    · exact hrec
    · split
      · exact hrec.modify h _
      · exact hrec

theorem discreet_reconstructItem (p : Plane) (h : Handle) (i : CatalogItem) :
    p.Discreet (p.reconstructItem h i).2 := by
  have hrec : p.Discreet (p.recordHook h (.reconstructItem i.id)) := (Discreet.refl p).recordHook h nofun
  unfold reconstructItem
  dsimp only
  split
  · exact hrec
  · exact hrec.modify h _

theorem events_attach (p : Plane) (adjunct : Handle) (entity : String) : (p.attach adjunct entity).2.events =
    p.events ++ [.hook (p.read adjunct).behaviour.audited adjunct (p.read adjunct).kind (p.read adjunct).id
      (.attach entity)] := by
  have hrec := p.events_record (.hook (p.read adjunct).behaviour.audited adjunct (p.read adjunct).kind
    (p.read adjunct).id (.attach entity))
  unfold attach
  dsimp only
  split
  · exact hrec
  · split <;> exact hrec

theorem events_addAdjunct (p : Plane) (entity : Handle) (k : ObjectKind) (adjunct : Handle) :
    (p.addAdjunct entity k adjunct).2.events = p.events ++ [.hook (p.read adjunct).behaviour.audited adjunct
      (p.read adjunct).kind (p.read adjunct).id (.attach (p.read entity).id)] := by
  have hatt := p.events_attach adjunct (p.read entity).id
  unfold addAdjunct
  rcases hq : p.attach adjunct (p.read entity).id with ⟨_ | _, q⟩ <;> rw [hq] at hatt
  · exact hatt
  · dsimp only at hatt ⊢
    split <;> exact hatt

theorem adjuncts_reconstruct (p : Plane) (known : ObjectKind → String → Bool) (readOnly : Bool) (h : Handle)
    (m : Memento) (a : Handle) (k : ObjectKind) :
    ((p.reconstruct known readOnly h m).2.read a).adjuncts k = (p.read a).adjuncts k := by
  rcases p.read_reconstruct known readOnly h m a with hread | ⟨-, hread⟩
  · rw [hread]
  · exact Object.adjuncts_of_reconstruct hread k

theorem adjuncts_reconstructItem (p : Plane) (h : Handle) (i : CatalogItem) (a : Handle) (k : ObjectKind) :
    ((p.reconstructItem h i).2.read a).adjuncts k = (p.read a).adjuncts k := by
  unfold reconstructItem
  dsimp only
  split
  · rfl
  · exact (p.recordHook h _).adjuncts_modify h (Object.adjuncts_reconstructItem i _) a k

theorem adjuncts_attach (p : Plane) (adjunct : Handle) (entity : String) (a : Handle) (k : ObjectKind) :
    ((p.attach adjunct entity).2.read a).adjuncts k = (p.read a).adjuncts k := by
  unfold attach
  dsimp only
  split
  · rfl
  · split
    · next ho => exact (p.recordHook adjunct _).adjuncts_modify adjunct (Object.adjuncts_of_attachTo ho) a k
    · rfl

/-- Only the adjunct comes to those that objects have. -/
theorem holds_addAdjunct {entity adjunct a b : Handle} {k : ObjectKind}
    (hb : ((p.addAdjunct entity k adjunct).2.read a).Holds b) : (p.read a).Holds b ∨ b = adjunct := by
  obtain ⟨j, hj⟩ := hb
  have hatt := p.adjuncts_attach adjunct (p.read entity).id
  unfold addAdjunct at hj
  rcases hq : p.attach adjunct (p.read entity).id with ⟨_ | _, q⟩ <;> rw [hq] at hatt hj
  · exact Or.inl ⟨j, hatt a j ▸ hj⟩
  · dsimp only at hatt hj
    split at hj
    · next o ho =>
      rcases q.read_modify_cases entity (fun _ => o) a with hread | ⟨rfl, hread⟩ <;> rw [hread] at hj
      · exact Or.inl ⟨j, hatt a j ▸ hj⟩
      · exact (Object.mem_adjuncts_of_pushAdjunct ho hj).imp_left fun hj => ⟨j, hatt a j ▸ hj⟩
    · exact Or.inl ⟨j, hatt a j ▸ hj⟩

end Plane

namespace Pass

variable {t : Task} {h : Handler σ} {n : Nat} {p q r : Pass σ}

theorem minor_populateCatalogItem (item : CatalogItem) (p : Pass σ) :
    Step.Moves (Minor n t.types) (populateCatalogItem h item) p := by
  refine .read_bind ?_
  rcases ha : p.scratch.get? .catalogItem item.id with _ | shell
  · exact minor_notFound _ _ p
  · have hone : Minor n t.types p { p with plane := (p.plane.reconstructItem shell item).2 } := by
      refine .of_turn (.populateItem p ha item) (p.plane.discreet_reconstructItem shell item) (fun _ _ hk => hk)
        fun a b ⟨k, hk⟩ => ⟨k, ?_⟩
      rwa [← p.plane.adjuncts_reconstructItem shell item]
    refine Step.Moves.bind (.of_total hone) fun populated q hq => ?_
    obtain ⟨-, rfl⟩ := Prod.mk.inj hq
    cases populated with
    | ok => exact .pure _ _
    | error e => exact minor_rebindFailed e ha

theorem minor_leave {k : ObjectKind} (hk : k.isAdjunct) (id : String) (p : Pass σ) :
    Minor n t.types p (leave k id p) := by
  refine .of_turn (.leave p hk id) (.refl _) (fun j id' hj => ?_) fun _ _ hab => hab
  have hget : (leave k id p).scratch.get? j id' = _ := Scratch.get?_unregister p.scratch k id j id'
  rw [Scratch.contains_eq_isSome, hget] at hj
  split at hj
  · cases hj
  · exact hj

/-- What follows when the hook has been called that populates a shell. -/
theorem minor_settle {k : ObjectKind} {id : String} {shell : Handle} (ha : p.scratch.get? k id = some shell)
    (populated : Except ObjectError Unit) : Step.Moves (Minor n t.types) (match populated with
      | .ok () => pure ()
      | .error e => do
        rebindFailed h k shell e
        if k.isAdjunct then Step.update (leave k id)) p := by
  cases populated with
  | ok => exact .pure _ p
  | error e =>
    refine (minor_rebindFailed e ha).bind fun _ q _ => ?_
    split
    · next hk => exact .of_update (minor_leave hk id q)
    · exact .pure _ q

theorem minor_reconstructOne {k : ObjectKind} {m : Memento} (hm : m ∈ (t.source.snapshot.ofKind k).values)
    (p : Pass σ) : Step.Moves (Minor n t.types) (reconstructOne h k m) p := by
  refine .read_bind ?_
  rcases ha : p.scratch.get? k m.id with _ | shell
  · exact minor_notFound _ _ p
  · have hone : Minor n t.types p { p with plane :=
        (p.plane.reconstruct (p.scratch.known p.plane) p.scratch.allReadOnly shell m).2 } := by
      refine .of_turn (.populate p hm ha) (p.plane.discreet_reconstruct _ _ shell m) (fun _ _ hk => hk)
        fun a b ⟨k, hk⟩ => ⟨k, ?_⟩
      rwa [← p.plane.adjuncts_reconstruct (p.scratch.known p.plane) p.scratch.allReadOnly shell m]
    refine Step.Moves.bind (.of_total hone) fun populated q hq => ?_
    have hscratch : q.scratch = p.scratch := congrArg (fun r => r.2.scratch) hq.symm
    exact minor_settle (hscratch ▸ ha) populated

theorem minor_reconstructAdjuncts (k : ObjectKind) (p : Pass σ) :
    Step.Moves (Minor n t.types) (reconstructAdjuncts t h t.source.snapshot k) p := by
  unfold reconstructAdjuncts
  split
  · exact (minor_logCourse _ p).bind fun _ p _ => Step.Moves.forEach (fun m hm => minor_reconstructOne hm) p
  · exact .pure _ p

theorem minor_reconstructAll (p : Pass σ) :
    Step.Moves (Minor n t.types) (reconstructAll t h t.source.snapshot) p := by
  have hsorted : ∀ {k nodes} (p : Pass σ), t.source.snapshot.ofKind k = nodes →
      Step.Moves (Minor n t.types) (Step.forEach (sortParentFirst nodes) (reconstructOne h k)) p := by
    rintro k nodes p rfl
    exact Step.Moves.forEach (fun m hm => minor_reconstructOne (mem_of_mem_sortParentFirst hm)) p
  refine (minor_enter (by decide) p).bind fun _ p _ => ?_
  refine (minor_logCourse _ p).bind fun _ p _ => ?_
  refine (hsorted (k := .location) p rfl).bind fun _ p _ => ?_
  refine (Step.Moves.forEach (fun k _ => minor_reconstructAdjuncts k) p).bind fun _ p _ => ?_
  refine (minor_logCourse _ p).bind fun _ p _ => ?_
  exact hsorted (k := .entity) p rfl

/-- Shells are joined: the adjunct is taken for made, and comes to belong to the entity. -/
theorem minor_addAdjunct {k : ObjectKind} {entityId adjunctId : String} {entity adjunct : Handle}
    (he : p.scratch.get? .entity entityId = some entity) (ha : p.scratch.get? k adjunctId = some adjunct) :
    Minor n t.types p { p with plane := (p.plane.addAdjunct entity k adjunct).2 } := by
  intro hs
  have hbuilding := building_of_turn (t := t) hs (.attach p he ha)
  have hevents := p.plane.events_addAdjunct entity k adjunct
  have hsince : ({ p with plane := (p.plane.addAdjunct entity k adjunct).2 } : Pass σ).plane.since p.plane = _ :=
    Plane.since_of_events_eq hevents
  have hshell : p.scratch.contains k adjunctId = true := by rw [Scratch.contains_eq_isSome, ha, Option.isSome_some]
  refine ⟨hbuilding, hevents ▸ List.prefix_append _ _, fun e hmem => ?_, ?_, fun _ x hx => ?_,
    fun _ _ _ hk => Or.inl hk, fun _ a b hab => ?_⟩
  · rw [hsince] at hmem
    exact List.mem_singleton.1 hmem ▸ rfl
  · rw [Plane.failuresSince, hsince]
    exact List.Sublist.refl []
  · rw [Plane.treatedSince, hsince] at hx
    obtain rfl := List.mem_singleton.1 hx
    rw [hs.kind ha, hs.id ha]
    exact Or.inl hshell
  · refine (Plane.holds_addAdjunct hab).imp_right fun hb => Or.inr ?_
    subst hb
    have hsame := hbuilding.extend.identity b (hs.valid ha)
    refine ⟨hbuilding.extend.valid (hs.valid ha), Or.inl ?_⟩
    unfold Plane.face
    rw [hsame.kind, hsame.id, hs.kind ha, hs.id ha]
    exact hshell

theorem minor_attachOne {entityId : String} {entity : Handle} (k : ObjectKind) (id : String) (p : Pass σ)
    (he : p.scratch.get? .entity entityId = some entity) :
    Step.Moves (Minor n t.types) (attachOne h entity k id) p := by
  refine .read_bind ?_
  rcases ha : p.scratch.get? k id with _ | adjunct
  · exact .mapStop _ (minor_dangling _ _ p)
  · refine Step.Moves.bind (.of_total (minor_addAdjunct he ha)) fun attached q hq => ?_
    obtain ⟨-, rfl⟩ := Prod.mk.inj hq
    cases attached with
    | ok => exact .pure _ _
    | error e => exact minor_rebindFailed e he

theorem minor_attachAllOf (m : Memento) (p : Pass σ) :
    Step.Moves (Minor n t.types) (attachAllOf t h m) p := by
  -- joining shells leaves that of the entity where it is
  have hkeep : ∀ {entity : Handle} (p q : Pass σ), SteadyTurns t p q ∧ Minor n t.types p q →
      p.scratch.get? .entity m.id = some entity → q.scratch.get? .entity m.id = some entity :=
    fun p q hpq he => (SteadyTurns.get? hpq.1 rfl m.id).trans he
  have : IsTrans (Pass σ) fun p q => SteadyTurns t p q ∧ Minor n t.types p q :=
    ⟨fun _ _ _ h₁ h₂ => ⟨h₁.1.trans h₂.1, IsTrans.trans _ _ _ h₁.2 h₂.2⟩⟩
  have : Std.Refl fun (p q : Pass σ) => SteadyTurns t p q ∧ Minor n t.types p q :=
    ⟨fun p => ⟨.refl, Std.Refl.refl (r := Minor n t.types) p⟩⟩
  refine .read_bind ?_
  rcases he : p.scratch.get? .entity m.id with _ | entity
  · exact minor_notFound _ _ p
  · refine Step.Moves.imp (R := fun p q => SteadyTurns t p q ∧ Minor n t.types p q) (fun _ hq => hq.2) ?_
    refine Step.Moves.forEach_inv (fun p q => hkeep p q) (fun k _ p hp => ?_) he
    unfold attachKind
    split
    · exact Step.Moves.forEach_inv (fun p q => hkeep p q)
        (fun id _ p hp => ⟨steady_attachOne t h k id p hp, minor_attachOne k id p hp⟩) hp
    · exact .pure _ p

theorem minor_attachAdjuncts (snapshot : Snapshot) (p : Pass σ) :
    Step.Moves (Minor n t.types) (attachAdjuncts t h snapshot) p := by
  refine (minor_enter (by decide) p).bind fun _ p _ => ?_
  refine (minor_logCourse _ p).bind fun _ p _ => ?_
  exact Step.Moves.forEach (fun m _ => minor_attachAllOf m) p

end Pass

end ManagementPlane
