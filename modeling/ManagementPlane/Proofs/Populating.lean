import ManagementPlane.Proofs.Content
import ManagementPlane.Proofs.Renewal

/-!
# Populated before they are managed

* `Pass.Populated k m a p q` : from `p` to `q` the shell was populated with the memento;
* `Pass.populated_of_build` : so is every location and entity whose memento the store shows in full;
* `Outcome.PopulatedFirst` : nothing was managed that had not been populated before;
* `Manager.populatedFirst_iff` : so it is exactly when every shell that a root leads to has a memento that the store
  shows in full;
* `Manager.partial_entity_is_managed` : an entity that the store shows in part only is managed as it was made.
-/

namespace ManagementPlane

variable {σ : Type}

namespace Pass

variable {t : Task} {h : Handler σ} {n : Nat} {p q r : Pass σ} {k : ObjectKind} {id : String} {m : Memento}
  {a : Handle}

/-! ## Populating shells -/

/-- From `p` to `q` the shell was populated with the memento: a call put on record since `p` says so, and unless its
hook fails the shell shows the memento. -/
structure Populated (k : ObjectKind) (m : Memento) (a : Handle) (p q : Pass σ) : Prop where
  call : ∃ audited readOnly, .hook audited a k m.id (.reconstruct m.id readOnly) ∈ q.plane.since p.plane
  shows : (q.plane.read a).behaviour.reconstructFault = none →
    (q.plane.read a).Shows (q.scratch.known q.plane) m

/-- It was so from further back as well. -/
theorem Populated.of_turns (hp : Populated k m a q r) (h₁ : Turns t p q) (h₂ : Turns t q r) :
    Populated k m a p r := by
  obtain ⟨audited, readOnly, hcall⟩ := hp.call
  refine ⟨⟨audited, readOnly, ?_⟩, hp.shows⟩
  rw [Plane.since_trans (events_turns h₁) (events_turns h₂)]
  exact List.mem_append_right _ hcall

/-- It is still so as long as no locations and entities are made. -/
theorem Populated.steady (hp : Populated k m a p q) (hpq : Turns t p q) (hs : p.scratch.Sound n p.plane)
    (hqr : SteadyTurns t q r) (hk : k.Registered) (ha : q.scratch.get? k m.id = some a)
    (hm : (t.source.snapshot.ofKind k).get? m.id = some m) : Populated k m a p r := by
  have hqr' : Turns t q r := SteadyTurns.turns hqr
  have hs' : q.scratch.Sound n q.plane := (building_of_turns hs hpq).sound
  obtain ⟨audited, readOnly, hcall⟩ := hp.call
  refine ⟨⟨audited, readOnly, ?_⟩, fun hfault => ?_⟩
  · rw [Plane.since_trans (events_turns hpq) (events_turns hqr')]
    exact List.mem_append_left _ hcall
  · rw [behaviour_of_turns hs' hqr' (hs'.valid ha)] at hfault
    exact shows_of_steadyTurns hs' hqr hk ha hm (hp.shows hfault)

/-- Populating a shell. -/
theorem populated_turn (hs : p.scratch.Sound n p.plane) (hk : k.Registered) (ha : p.scratch.get? k m.id = some a)
    (hm : m ∈ (t.source.snapshot.ofKind k).values) (hq : q = { p with plane :=
      (p.plane.reconstruct (p.scratch.known p.plane) p.scratch.allReadOnly a m).2 }) :
    SteadyTurn t p q ∧ Populated k m a p q := by
  subst hq
  have hturn : SteadyTurn t p { p with plane :=
      (p.plane.reconstruct (p.scratch.known p.plane) p.scratch.allReadOnly a m).2 } :=
    ⟨.populate p hm ha, fun _ _ _ => rfl⟩
  have hkind : (p.plane.read a).kind = k := hs.kind ha
  obtain ⟨hevents, hshows⟩ := p.plane.reconstruct_of_registered (hs.valid ha) (hkind.symm ▸ hk)
    (p.scratch.known p.plane) p.scratch.allReadOnly m
  refine ⟨hturn, ⟨(p.plane.read a).behaviour.audited, p.scratch.allReadOnly, ?_⟩, fun hfault => ?_⟩
  · rw [Plane.since, hevents, List.drop_left, hkind, hs.id ha]
    exact List.mem_singleton_self _
  · rw [behaviour_of_turn hturn.1 (hs.valid ha)] at hfault
    refine (hshows hfault).congr_known ?_ fun j hj => known_of_steadyTurn hs hturn hj
    have hkind' := ((building_of_turn hs hturn.1).extend.identity a (hs.valid ha)).kind
    rwa [hkind', hkind]

/-- The step that populates a shell does so, even if it stops. -/
theorem populated_reconstructOne (hs : p.scratch.Sound n p.plane) (hk : k.Registered)
    (ha : p.scratch.get? k m.id = some a) (hm : (t.source.snapshot.ofKind k).get? m.id = some m) :
    Step.Moves (Populated k m a) (reconstructOne h k m) p := by
  obtain ⟨q, hq⟩ : ∃ q, q = { p with plane :=
    (p.plane.reconstruct (p.scratch.known p.plane) p.scratch.allReadOnly a m).2 } := ⟨_, rfl⟩
  obtain ⟨hturn, hpopulated⟩ := populated_turn hs hk ha (OrderedMap.mem_values_iff.2 ⟨m.id, hm⟩) hq
  unfold reconstructOne
  refine .read_bind ?_
  rw [ha]
  have hrest := steady_settle t h k m.id a
    (p.plane.reconstruct (p.scratch.known p.plane) p.scratch.allReadOnly a m).1 q
  subst hq
  exact hpopulated.steady (.one hturn.1) hs hrest hk ((hturn.2 k hk.isAdjunct m.id).trans ha) hm

/-- A loop over the mementos of a kind that goes through populates every shell that has one. -/
theorem populated_of_forEach (hs : p.scratch.Sound n p.plane) (hk : k.Registered)
    {nodes : OrderedMap String Memento} (hnodes : t.source.snapshot.ofKind k = nodes)
    (hq : (Step.forEach (sortParentFirst nodes) (reconstructOne h k)).on p = (.ok (), q))
    (ha : p.scratch.get? k m.id = some a) (hm : (t.source.snapshot.ofKind k).get? m.id = some m) :
    Populated k m a p q := by
  subst hnodes
  have hmem : m ∈ sortParentFirst (t.source.snapshot.ofKind k) :=
    (mem_sortParentFirst_iff fun _ _ hget => t.source.payloads.id_of_get?_snapshot hget).2
      (OrderedMap.mem_values_iff.2 ⟨m.id, hm⟩)
  obtain ⟨before, after, u, v, hsplit, hbefore, hone, hafter⟩ := Step.exists_of_on_forEach hmem hq
  have hvalues : ∀ m' ∈ before ++ m :: after, m' ∈ (t.source.snapshot.ofKind k).values := fun m' hm' =>
    mem_of_mem_sortParentFirst (hsplit ▸ hm')
  have hpu : SteadyTurns t p u := (Step.Moves.forEach (fun m' hm' =>
    steady_reconstructOne t h (hvalues m' (List.mem_append_left _ hm'))) p).to hbefore
  have huv : SteadyTurns t u v := (steady_reconstructOne t h (hvalues m (by simp)) u).to hone
  have hvq : SteadyTurns t v q := (Step.Moves.forEach (fun m' hm' =>
    steady_reconstructOne t h (hvalues m' (by simp [hm']))) v).to hafter
  have hs' : u.scratch.Sound n u.plane := (building_of_turns hs (SteadyTurns.turns hpu)).sound
  have ha' : u.scratch.get? k m.id = some a := (SteadyTurns.get? hpu hk.isAdjunct m.id).trans ha
  have hpopulated : Populated k m a u v := (populated_reconstructOne hs' hk ha' hm).to hone
  have ha'' : v.scratch.get? k m.id = some a := (SteadyTurns.get? huv hk.isAdjunct m.id).trans ha'
  have huq := hpopulated.steady (SteadyTurns.turns huv) hs' hvq hk ha'' hm
  exact huq.of_turns (SteadyTurns.turns hpu) (SteadyTurns.turns (huv.trans hvq))

/-- The phase that populates shells leaves no location or entity out that has a memento. -/
theorem populated_of_reconstructAll (hs : p.scratch.Sound n p.plane) (hk : k.Registered)
    (hq : (reconstructAll t h t.source.snapshot).on p = (.ok (), q))
    (ha : p.scratch.get? k m.id = some a) (hm : (t.source.snapshot.ofKind k).get? m.id = some m) :
    Populated k m a p q := by
  obtain ⟨_, p₁, henter, hq⟩ := Step.on_bind_eq_ok_iff.1 hq
  obtain ⟨_, p₂, hlog, hq⟩ := Step.on_bind_eq_ok_iff.1 hq
  obtain ⟨_, p₃, hlocations, hq⟩ := Step.on_bind_eq_ok_iff.1 hq
  obtain ⟨_, p₄, hadjuncts, hq⟩ := Step.on_bind_eq_ok_iff.1 hq
  obtain ⟨_, p₅, hlog', hentities⟩ := Step.on_bind_eq_ok_iff.1 hq
  have h₂ : SteadyTurns t p p₂ := ((steady_enter t (by decide) p).to henter).trans
    ((steady_logCourse t _ p₁).to hlog)
  have h₃ : SteadyTurns t p₂ p₃ := (steady_reconstructSorted t h (k := .location) rfl p₂).to hlocations
  have h₅ : SteadyTurns t p₃ p₅ := ((Step.Moves.forEach (fun k _ =>
    steady_reconstructAdjuncts t h k) p₃).to hadjuncts).trans ((steady_logCourse t _ p₄).to hlog')
  have h₆ : SteadyTurns t p₅ q := (steady_reconstructSorted t h (k := .entity) rfl p₅).to hentities
  -- where the loop over a kind begins, the shell is there
  have hstart : ∀ {r}, SteadyTurns t p r → r.scratch.Sound n r.plane ∧ r.scratch.get? k m.id = some a :=
    fun hr => ⟨(building_of_turns hs (SteadyTurns.turns hr)).sound,
      (SteadyTurns.get? hr hk.isAdjunct m.id).trans ha⟩
  rcases hk with rfl | rfl
  · obtain ⟨hs₂, ha₂⟩ := hstart h₂
    have hpopulated : Populated .location m a p₂ p₃ := populated_of_forEach hs₂ (Or.inl rfl) rfl hlocations ha₂ hm
    have h₂₆ := hpopulated.steady (SteadyTurns.turns h₃) hs₂ (h₅.trans h₆) (Or.inl rfl)
      (hstart (h₂.trans h₃)).2 hm
    exact h₂₆.of_turns (SteadyTurns.turns h₂) (SteadyTurns.turns (h₃.trans (h₅.trans h₆)))
  · obtain ⟨hs₅, ha₅⟩ := hstart (h₂.trans (h₃.trans h₅))
    have hpopulated : Populated .entity m a p₅ q := populated_of_forEach hs₅ (Or.inr rfl) rfl hentities ha₅ hm
    exact hpopulated.of_turns (SteadyTurns.turns (h₂.trans (h₃.trans h₅))) (SteadyTurns.turns h₆)

/-- When the phases before the last are through, every location and entity has been populated that the store shows in
full. -/
theorem populated_of_build (hs : p.scratch.Sound n p.plane) (hk : k.Registered) {snapshot : Snapshot}
    (hq : (build t h).on p = (.ok snapshot, q)) (ha : q.scratch.get? k m.id = some a)
    (hm : (t.source.snapshot.ofKind k).get? m.id = some m) : Populated k m a p q := by
  obtain ⟨⟨raw, manifest⟩, p₁, hload, hq⟩ := Step.on_bind_eq_ok_iff.1 hq
  obtain rfl := eq_payloads_of_loadManifest t h hload
  obtain ⟨_, p₂, hcatalog, hq⟩ := Step.on_bind_eq_ok_iff.1 hq
  obtain ⟨_, p₃, hmake, hq⟩ := Step.on_bind_eq_ok_iff.1 hq
  obtain ⟨snapshot', p₄, hsnapshot, hq⟩ := Step.on_bind_eq_ok_iff.1 hq
  obtain rfl := eq_snapshot_of_loadSnapshot h hsnapshot
  obtain ⟨_, p₅, hadjuncts, hq⟩ := Step.on_bind_eq_ok_iff.1 hq
  obtain ⟨_, p₆, hpopulate, hq⟩ := Step.on_bind_eq_ok_iff.1 hq
  obtain ⟨_, p₇, hattach, hq⟩ := Step.on_bind_eq_ok_iff.1 hq
  obtain rfl : p₇ = q := (Prod.mk.inj hq).2
  have h₂ : Turns t p p₂ := ((moves_loadManifest t h p).to hload).trans ((moves_rebuildCatalog t h _ p₁).to hcatalog)
  have h₄ : Turns t p₂ p₄ := ((moves_makeLocationsAndEntities t h _ p₂).to hmake).trans
    ((moves_loadSnapshot t h _ p₃).to hsnapshot)
  have h₅ : Turns t p p₅ := h₂.trans (h₄.trans ((moves_makeAdjuncts t h _ p₄).to hadjuncts))
  have h₆ : SteadyTurns t p₅ p₆ := (steady_reconstructAll t h p₅).to hpopulate
  have h₇ : SteadyTurns t p₆ p₇ := (steady_attachAdjuncts t h _ p₆).to hattach
  have hs' : p₅.scratch.Sound n p₅.plane := (building_of_turns hs h₅).sound
  have ha₆ : p₆.scratch.get? k m.id = some a := (SteadyTurns.get? h₇ hk.isAdjunct m.id).symm.trans ha
  have ha₅ : p₅.scratch.get? k m.id = some a := (SteadyTurns.get? h₆ hk.isAdjunct m.id).symm.trans ha₆
  have hpopulated : Populated k m a p₅ p₆ := populated_of_reconstructAll hs' hk hpopulate ha₅ hm
  have h₅₇ := hpopulated.steady (SteadyTurns.turns h₆) hs' h₇ hk ha₆ hm
  exact h₅₇.of_turns h₅ (SteadyTurns.turns (h₆.trans h₇))

end Pass

namespace Manager

variable {m : Manager} {setup : Setup} {source : Source} {time : Nat} {h : Handler σ} {s : σ}
  {mode : ManagementMode} {o : Outcome σ} {p : Pass σ} {k : ObjectKind} {id : String} {a : Handle}

/-! ## Populating and managing -/

/-- What was managed by the pass had been populated before with the memento that the store shows of its kind and id: a
call put on record by the pass says so, and unless its hook fails the object shows the memento. -/
def Outcome.PopulatedFirst (o : Outcome σ) (m : Manager) (snapshot : Snapshot) : Prop :=
  ∀ k, k.Registered → ∀ before call after a t, o.manager.plane.since m.plane = before ++ call :: after →
    call.managed? k = some (a, t) → ∃ memento,
      (snapshot.ofKind k).get? (o.manager.plane.read a).id = some memento ∧
      (∃ audited readOnly, .hook audited a k memento.id (.reconstruct memento.id readOnly) ∈ before) ∧
      ((o.manager.plane.read a).behaviour.reconstructFault = none →
        (o.manager.plane.read a).Shows (o.iteration.scratch.known m.plane) memento)

namespace Completed

/-- The last phase leaves the content of objects alone. -/
theorem content_read (hp : Completed m setup source h s mode o p) (a : Handle) :
    (o.manager.plane.read a).content = (p.plane.read a).content := (hp.closing.restamped a).content_eq

/-- The shell of a memento has been populated with it when the last phase begins, and shows it in the end. -/
theorem populated (hp : Completed m setup source h s mode o p) (hk : k.Registered) {memento : Memento}
    (ha : o.iteration.scratch.get? k memento.id = some a)
    (hm : (source.snapshot.ofKind k).get? memento.id = some memento) :
    (∃ audited readOnly, .hook audited a k memento.id (.reconstruct memento.id readOnly) ∈ p.plane.since m.plane) ∧
      ((o.manager.plane.read a).behaviour.reconstructFault = none →
        (o.manager.plane.read a).Shows (o.iteration.scratch.known m.plane) memento) := by
  have hs := sound_opening m h s mode
  rw [hp.scratch] at ha ⊢
  obtain ⟨⟨audited, readOnly, hcall⟩, hshows⟩ :=
    Pass.populated_of_build (t := m.task setup source mode) hs hk hp.built ha hm
  refine ⟨⟨audited, readOnly, ?_⟩, fun hfault => ?_⟩
  · rw [Plane.since_trans (events_opening m h s mode) (Pass.events_turns hp.turns)]
    exact List.mem_append_right _ hcall
  · have hcontent := hp.content_read a
    have hbehaviour : (o.manager.plane.read a).behaviour = (p.plane.read a).behaviour :=
      congrArg Content.behaviour hcontent
    have hkind : (o.manager.plane.read a).kind = k := (congrArg Content.kind hcontent).trans (hp.sound.kind ha)
    rw [hbehaviour] at hfault
    refine ((hshows hfault).congr_content hcontent).congr_known (hkind ▸ hk) fun j hj => ?_
    funext id'
    rw [Scratch.known_eq _ _ hj, Scratch.known_eq _ _ hj, hp.registry]

/-- Nothing is managed before the last phase. -/
theorem managed?_eq_none (hp : Completed m setup source h s mode o p) {call : Event}
    (hcall : call ∈ p.plane.since m.plane) : call.managed? k = none := by
  have hcalls := Plane.managedCalls_eq_append hp.events_built k
  rw [hp.managedCalls, List.self_eq_append_right] at hcalls
  exact List.filterMap_eq_nil_iff.1 hcalls call hcall

/-- What the last phase manages. -/
theorem called_since (hp : Completed m setup source h s mode o p)
    (ho : m.runPass setup source time h (.new mode) s = o) (hk : k.Registered) :
    (o.manager.plane.since p.plane).filterMap (Event.managed? k) =
      Plane.callsIn (Pass.chosenFor (m.task setup source mode) p k) [] (p.visits source.snapshot k) := by
  have hevents := Plane.managedCalls_eq_append (hp.accounted ho).events k
  exact List.append_cancel_left (hevents.symm.trans (hp.closing.managedCalls k hk))

/-- The last phase manages just the shells that roots lead to. -/
theorem exists_managed_iff (hp : Completed m setup source h s mode o p)
    (ho : m.runPass setup source time h (.new mode) s = o) (hk : k.Registered) :
    (∃ call ∈ o.manager.plane.since p.plane, ∃ t, call.managed? k = some (a, t)) ↔
      o.pass.Reached source.snapshot k a := by
  have horder := Plane.fst_callsIn (Pass.chosenFor (m.task setup source mode) p k) [] (p.visits source.snapshot k)
  rw [hp.reached_iff hk, ← horder, ← hp.called_since ho hk]
  simp only [List.mem_map, List.mem_filterMap, Prod.exists, exists_and_right, exists_eq_right]
  exact ⟨fun ⟨call, hcall, t, ht⟩ => ⟨t, call, hcall, ht⟩, fun ⟨t, call, hcall, ht⟩ => ⟨call, hcall, t, ht⟩⟩

/-- What is on record of the pass before an object is managed includes everything from before the last phase. -/
theorem exists_more_before (hp : Completed m setup source h s mode o p)
    (ho : m.runPass setup source time h (.new mode) s = o) {before after : List Event} {call : Event}
    (hsplit : o.manager.plane.since m.plane = before ++ call :: after) (hcall : call.managed? k ≠ none) :
    call ∈ o.manager.plane.since p.plane ∧ ∃ more, before = p.plane.since m.plane ++ more := by
  rw [hp.since_eq ho] at hsplit
  rcases List.append_eq_append_iff.1 hsplit with ⟨more, hbefore, hlast⟩ | ⟨more, hbuilt, hlast⟩
  · rw [hlast]
    exact ⟨List.mem_append_right _ List.mem_cons_self, more, hbefore⟩
  · cases more with
    | nil =>
      rw [List.nil_append] at hlast
      rw [List.append_nil] at hbuilt
      refine ⟨hlast ▸ List.mem_cons_self, [], ?_⟩
      rw [hbuilt, List.append_nil]
    | cons event more =>
      obtain ⟨rfl, -⟩ := List.cons.inj hlast
      refine absurd (hp.managed?_eq_none ?_) hcall
      rw [hbuilt]
      exact List.mem_append_right _ List.mem_cons_self

end Completed

/-- When a pass with a handler that stops nothing has got through its last phase, every location and entity that it
managed had been populated before with the memento of its kind and id exactly when the store shows such a memento in
full for each shell that a root leads to. -/
theorem populatedFirst_iff (ho : m.runPass setup source time h (.new mode) s = o) (ha : h.Accepting)
    (hclosed : m.plane.Closed) (hlast : o.ReachedLastPhase) :
    o.PopulatedFirst m source.snapshot ↔ ∀ k, k.Registered → ∀ a ∈ o.iteration.scratch.shells k,
      o.pass.Reached source.snapshot k a →
        (source.snapshot.ofKind k).contains (o.manager.plane.read a).id = true := by
  obtain ⟨p, hp⟩ := exists_completed ho ha hclosed hlast
  refine forall₂_congr fun k hk => ?_
  constructor
  · intro hall a _ hr
    obtain ⟨call, hcall, t, ht⟩ := (hp.exists_managed_iff ho hk).2 hr
    have hmem : call ∈ o.manager.plane.since m.plane := by
      rw [hp.since_eq ho]
      exact List.mem_append_right _ hcall
    obtain ⟨before, after, hsplit⟩ := List.append_of_mem hmem
    obtain ⟨memento, hm, -⟩ := hall before call after a t hsplit ht
    rw [OrderedMap.contains_eq_isSome, hm]
    rfl
  · intro hall before call after a t hsplit ht
    obtain ⟨hcall, more, rfl⟩ := hp.exists_more_before (k := k) ho hsplit (by simp [ht])
    have hr : o.pass.Reached source.snapshot k a := (hp.exists_managed_iff ho hk).1 ⟨call, hcall, t, ht⟩
    have hshell : a ∈ o.iteration.scratch.shells k :=
      hp.scratch ▸ Pass.shell_of_mem_visits hp.sound hk ((hp.reached_iff hk).1 hr)
    have hcontains := hall a hshell hr
    rw [OrderedMap.contains_eq_isSome, Option.isSome_iff_exists] at hcontains
    obtain ⟨memento, hm⟩ := hcontains
    have hid : memento.id = (o.manager.plane.read a).id := source.payloads.id_of_get?_snapshot hm
    have hget : o.iteration.scratch.get? k memento.id = some a := hid ▸ hp.sound_last.mem_shells_iff.1 hshell
    obtain ⟨⟨audited, readOnly, hpopulated⟩, hshows⟩ := hp.populated hk hget (hid ▸ hm)
    exact ⟨memento, hm, ⟨audited, readOnly, List.mem_append_left _ hpopulated⟩, hshows⟩

/-! ## An entity that the store shows in part -/

/-- A store with an entity whose id and type can be read, but not its children. -/
def partialStore : MemoryStore := ({ name := "store" } : MemoryStore).seed .entity "e"
  "\x7b\"id\":\"e\",\"type\":\"trellis.entity.BasicEntity\",\"children\":\"none\"\x7d"

/-- A master that reads this store. -/
def partialPass : Outcome Unit :=
  ({} : Manager).runPass .stock partialStore.source 0 (.refusing []) (.new .master) ()

set_option maxRecDepth 2000 in
theorem partialPass_shows : partialPass.ReachedLastPhase ∧
    (partialPass.manager.plane.registry .entity).get? "e" = some ⟨0⟩ ∧
    partialPass.manager.plane.managedCalls .entity = [(⟨0⟩, .rebindingCreating)] ∧
    (partialStore.source.snapshot.ofKind .entity).get? "e" = none ∧
    (partialPass.manager.plane.read ⟨0⟩).id = "e" := by
  decide +kernel

theorem not_populatedFirst_partialPass : ¬partialPass.PopulatedFirst {} partialStore.source.snapshot := by
  obtain ⟨-, -, hcalls, hnone, hid⟩ := partialPass_shows
  intro hall
  have hmem : (⟨0⟩, .rebindingCreating) ∈ partialPass.manager.plane.managedCalls .entity := by
    rw [hcalls]
    exact List.mem_singleton_self _
  obtain ⟨call, hcall, ht⟩ := List.mem_filterMap.1 hmem
  obtain ⟨before, after, hsplit⟩ := List.append_of_mem hcall
  obtain ⟨memento, hm, -⟩ := hall .entity (Or.inr rfl) before call after ⟨0⟩ .rebindingCreating hsplit ht
  rw [hid, hnone] at hm
  cases hm

/-- Neither side holds of this pass. -/
theorem populatedFirst_iff_partialPass :
    (Handler.refusing []).Accepting ∧ ({} : Plane).Closed ∧ partialPass.ReachedLastPhase ∧
      ¬partialPass.PopulatedFirst {} partialStore.source.snapshot ∧
      (partialPass.PopulatedFirst {} partialStore.source.snapshot ↔
        ∀ k, k.Registered → ∀ a ∈ partialPass.iteration.scratch.shells k,
          partialPass.pass.Reached partialStore.source.snapshot k a →
            (partialStore.source.snapshot.ofKind k).contains (partialPass.manager.plane.read a).id = true) := by
  have ha : (Handler.refusing []).Accepting := Handler.accepting_refusing (by decide)
  obtain ⟨hlast, -⟩ := partialPass_shows
  exact ⟨ha, closed_empty, hlast, not_populatedFirst_partialPass,
    populatedFirst_iff (o := partialPass) rfl ha closed_empty hlast⟩

/-- An entity of which the store shows only that it is there is managed, although it could not be populated. -/
theorem partial_entity_is_managed :
    (Handler.refusing []).Accepting ∧ ({} : Plane).Closed ∧ partialPass.ReachedLastPhase ∧
      ¬partialPass.PopulatedFirst {} partialStore.source.snapshot :=
  ⟨Handler.accepting_refusing (by decide), closed_empty, partialPass_shows.1, not_populatedFirst_partialPass⟩

end Manager

end ManagementPlane
