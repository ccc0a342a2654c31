import ManagementPlane.Proofs.Impartiality
import ManagementPlane.Proofs.Reflection

/-!
# The order of the store does not matter

* `Manager.Outcome.SameButOrder` : two passes manage objects that show the same, and have told their handler the same in
  some order;
* `Manager.Outcome.EndsLike` : they come back with the same applications in some order, or both fail in the end;
* `Manager.store_order_does_not_matter` : so it is with passes over stores that list the same payloads in another order,
  if the order in which the handler is told of problems does not decide its verdict;
* `Manager.order_decides_verdict` : otherwise they may end differently.
-/

namespace ManagementPlane

variable {σ : Type}

/-- A handler gives back what the phases have come to, unless it fails the pass in the end. -/
theorem Handler.fst_judge {α : Type} (h : Handler σ) (a : α) (s : σ) :
    (h.judge (.ok a) s).1 = .ok a ∧ (h.done.on s).1.isOk = true ∨
      (∃ e, (h.judge (.ok a) s).1 = .error e) ∧ (h.done.on s).1.isOk = false := by
  unfold judge
  rcases hd : h.done.on s with ⟨e | _, u⟩
  · exact Or.inr ⟨⟨_, rfl⟩, rfl⟩
  · exact Or.inl ⟨rfl, rfl⟩

/-- An impartial handler that was told the same gives back what the phases have come to both times, or neither time. -/
theorem Handler.Impartial.fst_judge {α : Type} {h : Handler σ} (hh : h.Impartial) {notes notes' : List Notification}
    (hperm : notes.Perm notes') (hstart : ∀ n ∈ notes, n.isStart = false) (readOnly : Bool) (s : σ) (a a' : α) :
    (h.judge (.ok a) (h.heard notes (h.start readOnly s))).1 = .ok a ∧
        (h.judge (.ok a') (h.heard notes' (h.start readOnly s))).1 = .ok a' ∨
      (∃ e, (h.judge (.ok a) (h.heard notes (h.start readOnly s))).1 = .error e) ∧
        ∃ e, (h.judge (.ok a') (h.heard notes' (h.start readOnly s))).1 = .error e := by
  have hsame := hh notes notes' readOnly s hperm hstart
  obtain ⟨hok, hd⟩ | ⟨he, hd⟩ := h.fst_judge a (h.heard notes (h.start readOnly s)) <;>
    obtain ⟨hok', hd'⟩ | ⟨he', hd'⟩ := h.fst_judge a' (h.heard notes' (h.start readOnly s))
  · exact Or.inl ⟨hok, hok'⟩
  · cases hd.symm.trans (hsame.symm.trans hd')
  · cases hd.symm.trans (hsame.symm.trans hd')
  · exact Or.inr ⟨he, he'⟩

namespace Manager

variable {m : Manager} {setup : Setup} {source source' : Source} {time time' : Nat} {h : Handler σ} {s : σ}
  {mode : ManagementMode} {o o' : Outcome σ} {p p' : Pass σ}

/-- The passes leave behind objects that show the same under the same ids, managed with the same transitions. Their
phases have come to applications that show the same and have told the same, both in some order, and the handler has
judged them when it was told that they are done. -/
structure Outcome.SameButOrder (m : Manager) (h : Handler σ) (s : σ) (mode : ManagementMode) (o o' : Outcome σ) :
    Prop where
  objects : ∀ k, k.Registered → ∀ id,
    ((o'.manager.plane.registry k).objects.get? id).map (fun e => (o'.manager.plane.shown e.object, e.mode)) =
      ((o.manager.plane.registry k).objects.get? id).map fun e => (o.manager.plane.shown e.object, e.mode)
  verdicts : ∃ applications applications' notes notes',
    (applications.map o.manager.plane.shown).Perm (applications'.map o'.manager.plane.shown) ∧
      notes.Perm notes' ∧ (∀ n ∈ notes, n.isStart = false) ∧
      (o.result, o.handler) = h.judge (.ok applications) (h.heard notes (h.start mode.isReadOnly s)) ∧
      (o'.result, o'.handler) = h.judge (.ok applications') (h.heard notes' (h.start mode.isReadOnly s))
  done : .done ∈ o.notices m ∧ .done ∈ o'.notices m

/-- Both passes come back with applications that show the same, in some order, or both fail. -/
def Outcome.EndsLike (o o' : Outcome σ) : Prop :=
  (∃ applications applications', o.result = .ok applications ∧ o'.result = .ok applications' ∧
    (applications.map o.manager.plane.shown).Perm (applications'.map o'.manager.plane.shown)) ∨
  ∃ e e', o.result = .error e ∧ o'.result = .error e'

/-- When its phases are over, the handler is told that the pass is done. -/
theorem Outcome.Closes.done_mem {applications : List Handle} {i : Iteration} {r : Plane}
    (h : o.Closes m h s (.ok applications) i r) : .done ∈ o.notices m := by
  have hdone : .notified .done ∈ o.doings m := by
    rw [h.doings]
    exact List.mem_append_right _ (List.mem_singleton_self _)
  exact List.mem_filterMap.2 ⟨_, (List.mem_filter.1 hdone).1, rfl⟩

/-- The handler judges the pass by what it was told since the pass began. -/
theorem Completed.exists_verdict (hp : Completed m setup source h s mode o p)
    (ho : m.runPass setup source time h (.new mode) s = o) (ha : h.Accepting) (htypes : setup.types.IsStock)
    (hcatalog : m.plane.Stocked) : ∃ notes,
      (p.lastNotes (m.task setup source mode) source.snapshot).reverse ++ p.plane.notes =
        notes ++ .start mode.isReadOnly :: m.plane.notes ∧
      (∀ n ∈ notes, n.isStart = false) ∧ .done ∈ o.notices m ∧
      (o.result, o.handler) =
        h.judge (.ok (p.thriving (m.task setup source mode) source.snapshot))
          (h.heard notes (h.start mode.isReadOnly s)) := by
  obtain ⟨i, r, hcloses, -, hr⟩ := hp.exists_closes ho ha
  obtain ⟨notes, hnotes, hstart⟩ := hp.exists_fresh (hp.plain ha htypes hcatalog) (hp.starts ha htypes hcatalog)
  have hr : r.notes = notes ++ [.start mode.isReadOnly] := by
    rw [hnotes, List.append_cons] at hr
    exact List.append_cancel_right hr
  have hjudged := hcloses.judged
  rw [hr, Handler.heard_append] at hjudged
  exact ⟨notes, hnotes, hstart, hcloses.done_mem, hjudged⟩

/-- What is told in the last phase is the same in some order. -/
theorem perm_lastNotes (hpq : p.Mirrors p') (hplain : p.Plain) (hplain' : p'.Plain)
    (hp : Completed m setup source h s mode o p) (hp' : Completed m setup source' h s mode o' p')
    (hs : source.Reordered source') :
    (p.lastNotes (m.task setup source mode) source.snapshot).Perm
      (p'.lastNotes (m.task setup source' mode) source'.snapshot) := by
  have hcontains : p'.scratch.contains .entity = p.scratch.contains .entity := funext (hpq.contains .entity)
  rw [hplain.lastNotes_eq hp.sound, hplain'.lastNotes_eq hp'.sound, hcontains]
  exact (hs.payloads.applicationIds.filter _).map _

/-- The order in which a store lists entities, locations and adjuncts does not matter. Take stores that list the same
payloads, in which no two entities refer to one adjunct, and passes over them by which the same live manager is rebound
in the same mode and with the same handler, which stops nothing. If they get through their last phase, no parents form
a cycle, and shells list only their own children, then both come to the same objects, applications and notifications
but for their order. If the order of the notifications does not decide the verdict of the handler, then it fails both
passes or neither; so it is with the default handler, in all its modes, and with handlers without a record. -/
theorem store_order_does_not_matter (ho : m.runPass setup source time h (.new mode) s = o)
    (ho' : m.runPass setup source' time' h (.new mode) s = o') (ha : h.Accepting) (htypes : setup.types.IsStock)
    (hclosed : m.plane.Closed) (hcatalog : m.plane.Stocked) (hs : source.Reordered source')
    (hlast : o.ReachedLastPhase) (hlast' : o'.ReachedLastPhase)
    (hac : ∀ k, k.Registered → o.iteration.scratch.Acyclic o.manager.plane k)
    (hown : ∀ k, k.Registered → o.iteration.scratch.ListsOwn o.manager.plane k)
    (hx : source.snapshot.Exclusive o.iteration.scratch) :
    o.SameButOrder m h s mode o' ∧ (h.Impartial → o.EndsLike o') ∧
      (∀ failure dangling, (Handler.byMode failure dangling).Impartial) ∧
      ∀ refused, (Handler.refusing refused).Impartial := by
  obtain ⟨p, hp⟩ := exists_completed ho ha hclosed hlast
  obtain ⟨p', hp'⟩ := exists_completed ho' ha hclosed hlast'
  rw [hp.scratch] at hx
  have hpq := hp.mirrors ha htypes hcatalog hp' hs hx
  have hplain := hp.plain ha htypes hcatalog
  have hplain' := hp'.plain ha htypes hcatalog
  have hshape := hp.closing.sameShape
  -- the shells of either pass are managed once
  have hac : ∀ k, k.Registered → p.scratch.Acyclic p.plane k := fun k hk => (hshape.acyclic k).1 (hac k hk)
  have hown : ∀ k, k.Registered → p.scratch.ListsOwn p.plane k := fun k hk => (hshape.listsOwn k).1 (hown k hk)
  have hone : ∀ {k}, k.Registered → ∀ a ∈ p.scratch.shells k, (p.visits source.snapshot k).count a = 1 :=
    fun {k} hk a => Pass.count_visits hp.sound (Pass.onTop_of_parentsFrom (hp.parentsFrom htypes.makesIsolated)) hk
      (hac k hk) (hown k hk)
  have hone' : ∀ {k}, k.Registered → ∀ a ∈ p'.scratch.shells k, (p'.visits source'.snapshot k).count a = 1 :=
    fun {k} hk a => Pass.count_visits hp'.sound (Pass.onTop_of_parentsFrom (hp'.parentsFrom htypes.makesIsolated)) hk
      (hpq.acyclic hp.sound hp'.sound (hac k hk)) (hpq.listsOwn hp.sound hp'.sound (hown k hk))
  have hobjects : ∀ k, k.Registered → ∀ id,
      ((o'.manager.plane.registry k).objects.get? id).map (fun e => (o'.manager.plane.shown e.object, e.mode)) =
        ((o.manager.plane.registry k).objects.get? id).map fun e => (o.manager.plane.shown e.object, e.mode) :=
    fun k hk id => by
      rw [hp.registered_eq hplain hk (hone hk), hp'.registered_eq hplain' hk (hone' hk), hpq.shown]
  have happlications : ((p.thriving (m.task setup source mode) source.snapshot).map o.manager.plane.shown).Perm
      ((p'.thriving (m.task setup source' mode) source'.snapshot).map o'.manager.plane.shown) := by
    have happ := fun id => congrArg (Option.map Prod.fst) (hobjects .entity (Or.inr rfl) id)
    simp only [Option.map_map, Function.comp_def] at happ
    rw [hp.shown_thriving hplain (hone (Or.inr rfl)), hp'.shown_thriving hplain' (hone' (Or.inr rfl))]
    simp only [happ]
    exact hs.payloads.applicationIds.filterMap _
  obtain ⟨notes, hnotes, hstart, hdone, hjudged⟩ := hp.exists_verdict ho ha htypes hcatalog
  obtain ⟨notes', hnotes', -, hdone', hjudged'⟩ := hp'.exists_verdict ho' ha htypes hcatalog
  have hperm : notes.Perm notes' := by
    have hlast := (List.reverse_perm _).trans
      ((perm_lastNotes hpq hplain hplain' hp hp' hs).trans (List.reverse_perm _).symm)
    have htold := hlast.append hpq.told
    rw [hnotes, hnotes'] at htold
    exact (List.perm_append_right_iff _).1 htold
  refine ⟨⟨hobjects, ⟨_, _, notes, notes', happlications, hperm, hstart, hjudged, hjudged'⟩, ⟨hdone, hdone'⟩⟩,
    fun hh => ?_, Handler.impartial_byMode, Handler.impartial_refusing⟩
  have hverdict := hh.fst_judge hperm hstart mode.isReadOnly s (p.thriving (m.task setup source mode) source.snapshot)
    (p'.thriving (m.task setup source' mode) source'.snapshot)
  rw [← hjudged, ← hjudged'] at hverdict
  obtain ⟨hok, hok'⟩ | ⟨⟨e, he⟩, e', he'⟩ := hverdict
  · exact Or.inl ⟨_, _, hok, hok', happlications⟩
  · exact Or.inr ⟨e, e', he, he'⟩

/-! ## A store in two orders -/

/-- An application at a location with an entity below it, and a second application. The entity refers to a policy, and to
one that is not there. -/
def campusMementos : List (ObjectKind × Memento) := [
  (.location, { id := "hall", type := "trellis.location.BasicLocation" }),
  (.entity, { id := "app", type := "trellis.entity.BasicApplication", children := ["part"], locations := ["hall"] }),
  (.entity, { id := "part", type := "trellis.entity.BasicEntity", parent := some "app", policies := ["p", "ghost"] }),
  (.entity, { id := "other", type := "trellis.entity.BasicApplication" }),
  (.policy, { id := "p", type := "trellis.policy.BasicPolicy" })]

/-- The store that lists them in this order, and the one that lists them the other way round. -/
def campus : MemoryStore := .holding campusMementos

def reversedCampus : MemoryStore := .holding campusMementos.reverse

/-- A standby node that has read the first store. -/
def campusStandby : Outcome Ledger :=
  ({} : Manager).runPass .stock campus.source 0 (.byMode .failAtEnd .carryOn) (.new .hotStandby) {}

/-- The pass by which this node takes over, which reads the store in either order. -/
def campusPass (store : MemoryStore) : Outcome Ledger :=
  campusStandby.manager.runPass .stock store.source 0 (.byMode .failAtEnd .carryOn) (.new .master) {}

set_option maxRecDepth 2000 in
theorem campusPass_shows : campusStandby.ReachedLastPhase ∧
    campus.data.Reordered reversedCampus.data ∧ (campusPass campus).ReachedLastPhase ∧
    (campusPass reversedCampus).ReachedLastPhase ∧
    (∀ k ∈ [ObjectKind.location, .entity],
      (campusPass campus).iteration.scratch.Shallow (campusPass campus).manager.plane k ∧
        (campusPass campus).iteration.scratch.ListsOwn (campusPass campus).manager.plane k) ∧
    campus.source.snapshot.Exclusive (campusPass campus).iteration.scratch ∧
    (campusPass campus).result.isOk = true := by
  decide +kernel

/-- Both passes come back with the same applications, in different orders. -/
theorem store_order_does_not_matter_campus :
    (Handler.byMode .failAtEnd .carryOn).Accepting ∧ Setup.stock.types.IsStock ∧
      campusStandby.manager.plane.Closed ∧ campusStandby.manager.plane.Stocked ∧
      campus.source.Reordered reversedCampus.source ∧ (campusPass campus).ReachedLastPhase ∧
      (campusPass reversedCampus).ReachedLastPhase ∧
      (∀ k, k.Registered → (campusPass campus).iteration.scratch.Acyclic (campusPass campus).manager.plane k) ∧
      (∀ k, k.Registered → (campusPass campus).iteration.scratch.ListsOwn (campusPass campus).manager.plane k) ∧
      campus.source.snapshot.Exclusive (campusPass campus).iteration.scratch ∧
      (campusPass campus).SameButOrder campusStandby.manager (.byMode .failAtEnd .carryOn) {} .master
        (campusPass reversedCampus) ∧
      ∃ applications applications', (campusPass campus).result = .ok applications ∧
        (campusPass reversedCampus).result = .ok applications' ∧
        (applications.map (campusPass campus).manager.plane.shown).Perm
          (applications'.map (campusPass reversedCampus).manager.plane.shown) := by
  obtain ⟨hstandby, hdata, hlast, hlast', hshells, hx, hok⟩ := campusPass_shows
  have ha : (Handler.byMode .failAtEnd .carryOn).Accepting := Handler.accepting_byMode (by decide) (by decide)
  have hclosed : campusStandby.manager.plane.Closed := closed_of_runPass rfl ha closed_empty hstandby
  have hcatalog : campusStandby.manager.plane.Stocked :=
    stocked_of_runPass rfl ha TypeRegistry.isStock_stock closed_empty stocked_empty hstandby
  have hs := MemoryStore.reordered_source hdata
  have hac : ∀ k, k.Registered → (campusPass campus).iteration.scratch.Acyclic (campusPass campus).manager.plane k :=
    fun k hk => (hshells k hk.mem).1.acyclic
  have hown : ∀ k, k.Registered → (campusPass campus).iteration.scratch.ListsOwn (campusPass campus).manager.plane k :=
    fun k hk => (hshells k hk.mem).2
  have ho : campusStandby.manager.runPass .stock campus.source 0 (.byMode .failAtEnd .carryOn) (.new .master) {} =
    campusPass campus := rfl
  have ho' : campusStandby.manager.runPass .stock reversedCampus.source 0 (.byMode .failAtEnd .carryOn) (.new .master)
    {} = campusPass reversedCampus := rfl
  obtain ⟨hsame, hends, hbyMode, -⟩ := store_order_does_not_matter ho ho' ha TypeRegistry.isStock_stock hclosed hcatalog hs
    hlast hlast' hac hown hx
  refine ⟨ha, TypeRegistry.isStock_stock, hclosed, hcatalog, hs, hlast, hlast', hac, hown, hx, hsame, ?_⟩
  obtain hboth | ⟨e, e', he, -⟩ := hends (hbyMode _ _)
  · exact hboth
  · rw [he] at hok
    cases hok

end Manager

/-! ## A handler that goes by the order -/

/-- A handler that stops nothing, keeps the id of the object that could not be made last, and fails a pass in the end if
it is this one. -/
def Handler.dreading (id : String) : Handler String where
  loadFailed _ _ _ := pure ()
  dangling _ _ := pure ()
  start _ _ := ""
  createFailed _ failed _ _ := Step.update fun _ => failed
  notFound _ _ := pure ()
  rebindFailed _ _ _ := pure ()
  manageFailed _ _ _ := pure ()
  done := do if (← Step.read fun last => last) = id then Step.stop (.defaultCatalog id)
  failed e last := (e, last)
  errors _ := []
  warnings _ := []

theorem Handler.accepting_dreading (id : String) : (dreading id).Accepting where
  loadFailed _ _ _ := .pure ()
  dangling _ _ := .pure ()
  createFailed _ _ _ _ := .update _
  notFound _ _ := .pure ()
  rebindFailed _ _ _ := .pure ()
  manageFailed _ _ _ := .pure ()

namespace Manager

/-- Entities of a type that nobody knows. -/
def strangers : List (ObjectKind × Memento) :=
  [(.entity, { id := "x", type := "w.E" }), (.entity, { id := "y", type := "w.E" })]

/-- A new manager reads them in one order, with a handler that dreads the second one. -/
def strangersPass (mementos : List (ObjectKind × Memento)) : Outcome String :=
  ({} : Manager).runPass .stock (MemoryStore.holding mementos).source 0 (.dreading "y") (.new .master) ""

set_option maxRecDepth 2000 in
theorem strangersPass_shows :
    (MemoryStore.holding strangers).data.Reordered (MemoryStore.holding strangers.reverse).data ∧
      (strangersPass strangers).ReachedLastPhase ∧ (strangersPass strangers.reverse).ReachedLastPhase ∧
      (∀ k ∈ [ObjectKind.location, .entity],
        (strangersPass strangers).iteration.scratch.Shallow (strangersPass strangers).manager.plane k ∧
          (strangersPass strangers).iteration.scratch.ListsOwn (strangersPass strangers).manager.plane k) ∧
      (MemoryStore.holding strangers).source.snapshot.Exclusive (strangersPass strangers).iteration.scratch ∧
      (strangersPass strangers).result.isOk = false ∧ (strangersPass strangers.reverse).result.isOk = true := by
  decide +kernel

/-- Neither entity can be made, and which of them is reported last depends on the order of the store. A handler that goes
by this fails only one of the passes. -/
theorem order_decides_verdict :
    (Handler.dreading "y").Accepting ∧ Setup.stock.types.IsStock ∧ ({} : Plane).Closed ∧ ({} : Plane).Stocked ∧
      (MemoryStore.holding strangers).source.Reordered (MemoryStore.holding strangers.reverse).source ∧
      (strangersPass strangers).ReachedLastPhase ∧ (strangersPass strangers.reverse).ReachedLastPhase ∧
      (∀ k, k.Registered → (strangersPass strangers).iteration.scratch.Acyclic (strangersPass strangers).manager.plane k) ∧
      (∀ k, k.Registered → (strangersPass strangers).iteration.scratch.ListsOwn (strangersPass strangers).manager.plane k) ∧
      (MemoryStore.holding strangers).source.snapshot.Exclusive (strangersPass strangers).iteration.scratch ∧
      ¬(strangersPass strangers).EndsLike (strangersPass strangers.reverse) := by
  obtain ⟨hdata, hlast, hlast', hshells, hx, hfails, hok⟩ := strangersPass_shows
  refine ⟨Handler.accepting_dreading "y", TypeRegistry.isStock_stock, closed_empty, stocked_empty,
    MemoryStore.reordered_source hdata, hlast, hlast', fun k hk => (hshells k hk.mem).1.acyclic,
    fun k hk => (hshells k hk.mem).2, hx, ?_⟩
  rintro (⟨applications, -, hresult, -⟩ | ⟨-, e, -, hresult⟩)
  · rw [hresult] at hfails
    cases hfails
  · rw [hresult] at hok
    cases hok

end Manager

end ManagementPlane
