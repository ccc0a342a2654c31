import ManagementPlane.Proofs.Blindness
import ManagementPlane.Proofs.Listening
import ManagementPlane.Proofs.Recording

/-!
# Kinds that take no part in persistence

* `Source.SameBut k` : two stores that differ in the payloads of a kind, and in reading which a listener hears the same;
* `Pass.agree_verdicts` : if adjuncts of this kind take no part in persistence, passes over the two differ in log entries
  only;
* `Manager.disabled_kind_is_skipped` : and so do their outcomes;
* `Manager.disabled_kind_is_decoded` : but a payload of such a kind that cannot be decoded is reported.
-/

namespace ManagementPlane

variable {σ α : Type}

/-! ## Stores that differ in one kind -/

/-- The stores differ in the payloads of one kind of adjuncts. In reading them and in decoding these payloads a listener
hears the same. -/
structure Source.SameBut (k : ObjectKind) (s s' : Source) : Prop where
  unreadable : s'.unreadable = s.unreadable
  payloads : ∀ j, j ≠ k → s'.payloads.get j = s.payloads.get j
  undecodable : undecodable Memento.decode? Memento.id k (s'.payloads.get k).entries =
    undecodable Memento.decode? Memento.id k (s.payloads.get k).entries

namespace Source.SameBut

variable {k : ObjectKind} {s s' : Source} (hs : s.SameBut k s')
include hs

/-- Of the other kinds the stores say the same. -/
theorem ofKind {j : ObjectKind} (hj : j ≠ k) : s'.snapshot.ofKind j = s.snapshot.ofKind j := by
  have hmementos : s'.payloads.mementos j = s.payloads.mementos j := by
    unfold RawData.mementos
    rw [hs.payloads j hj]
  cases j with
  | catalogItem => rfl
  | _ => exact hmementos

/-- The kind is one of adjuncts, so others are not it. -/
theorem ne (hk : k.isAdjunct) {j : ObjectKind} (hj : j.isAdjunct = false) : j ≠ k := by
  rintro rfl
  rw [hk] at hj
  cases hj

theorem entities (hk : k.isAdjunct) : s'.snapshot.entities = s.snapshot.entities :=
  hs.ofKind (hs.ne hk (j := .entity) rfl)

theorem locations (hk : k.isAdjunct) : s'.snapshot.locations = s.snapshot.locations :=
  hs.ofKind (hs.ne hk (j := .location) rfl)

theorem references (hk : k.isAdjunct) : s'.snapshot.references = s.snapshot.references := by
  unfold Snapshot.references
  rw [hs.entities hk, hs.locations hk]

theorem applicationIds (hk : k.isAdjunct) : s'.snapshot.applicationIds = s.snapshot.applicationIds := by
  unfold Snapshot.applicationIds
  rw [hs.entities hk]

end Source.SameBut

namespace Pass

variable {t : Task} {h : Handler σ} {p q : Pass σ} {k : ObjectKind} {source : Source}

theorem agree_hears {failures : List α} {kind : α → ObjectKind} {message : α → String} {error : α → StoreError}
    (hpq : SameButLog p q) :
    Step.Agree SameButLog Eq (Step.forEach failures fun f => (listener h).loadFailed (kind f) (message f) (error f))
      (Step.forEach failures fun f => (listener h).loadFailed (kind f) (message f) (error f)) p q :=
  .forEach (fun _ _ _ _ hpq => agree_tells hpq _ _) hpq

/-- The payloads of a kind are decoded on both sides, with the same failures. -/
theorem agree_decodes {read : String → Option α} {declared : α → String} {payloads payloads' : OrderedMap String String}
    (he : undecodable read declared k payloads'.entries = undecodable read declared k payloads.entries)
    (hpq : SameButLog p q) :
    Step.Agree SameButLog
      (fun x y => x = decodeTable read declared k payloads ∧ y = decodeTable read declared k payloads')
      (decodeAll read declared k (listener h) payloads.entries ∅)
      (decodeAll read declared k (listener h) payloads'.entries ∅) p q := by
  rw [decodeAll_eq, decodeAll_eq, he]
  exact (agree_hears hpq).bind fun _ _ _ _ _ hpq => .pure ⟨rfl, rfl⟩ hpq

theorem agree_loads (hs : t.source.SameBut k source) (hpq : SameButLog p q) :
    Step.Agree SameButLog (fun x y => x = t.source.payloads ∧ y = source.payloads) (t.source.load (listener h))
      (source.load (listener h)) p q := by
  rw [Source.load_eq, Source.load_eq, hs.unreadable]
  split
  · exact .stop _ hpq
  · exact (agree_hears hpq).bind fun _ _ _ _ _ hpq => .pure ⟨rfl, rfl⟩ hpq

/-- The first phase comes to the same manifest on both sides. -/
theorem agree_loadManifests (hs : t.source.SameBut k source) (hk : k.isAdjunct) (hpq : SameButLog p q) :
    Step.Agree SameButLog (fun x y => x.1 = t.source.payloads ∧ y.1 = source.payloads ∧ y.2 = x.2) (loadManifest t h)
      (loadManifest { t with source } h) p q := by
  have hother : ∀ j, j.isAdjunct = false → source.payloads.get j = t.source.payloads.get j := fun j hj =>
    hs.payloads j (hs.ne hk hj)
  have hmanifest : Manifest.decode source.payloads (listener h) = Manifest.decode t.source.payloads (listener h) := by
    unfold Manifest.decode
    rw [show source.payloads.entity = t.source.payloads.entity from hother .entity rfl,
      show source.payloads.location = t.source.payloads.location from hother .location rfl,
      show source.payloads.catalogItem = t.source.payloads.catalogItem from hother .catalogItem rfl]
  refine (blind_enter 1 p q hpq).bind fun _ _ p q _ hpq => ?_
  refine (agree_logCourses hpq _ _).bind fun _ _ p q _ hpq => ?_
  refine ((agree_loads hs hpq).mapStop _).bind fun raw raw' p q ⟨hraw, hraw'⟩ hpq => ?_
  subst hraw hraw'
  rw [hmanifest]
  have hdecode : Step.Agree SameButLog Eq (Manifest.decode t.source.payloads (listener h))
      (Manifest.decode t.source.payloads (listener h)) p q :=
    agree_decode_manifest (fun _ _ _ _ _ hpq => agree_tells hpq _ _) _ hpq
  refine (hdecode.mapStop _).bind fun m m' p q he hpq => ?_
  subst he
  exact Step.Agree.bind (Q := Eq) (.update rfl (hpq.update fun _ => rfl)) fun _ _ _ _ _ hpq => .pure ⟨rfl, rfl, rfl⟩ hpq

/-- The full mementos are read on both sides. -/
theorem agree_loadSnapshots (hs : t.source.SameBut k source) (hk : k.isAdjunct) (hpq : SameButLog p q) :
    Step.Agree SameButLog (fun x y => x = t.source.snapshot ∧ y = source.snapshot)
      (loadSnapshot h t.source.payloads) (loadSnapshot h source.payloads) p q := by
  have hkind : ∀ j (p q : Pass σ), SameButLog p q →
      Step.Agree SameButLog (fun x y => x = t.source.payloads.mementos j ∧ y = source.payloads.mementos j)
        (Snapshot.decodeKind t.source.payloads (listener h) j) (Snapshot.decodeKind source.payloads (listener h) j)
        p q := by
    intro j p q hpq
    refine agree_decodes ?_ hpq
    by_cases hj : j = k
    · exact hj ▸ hs.undecodable
    · rw [hs.payloads j hj]
  refine (blind_enter 4 p q hpq).bind fun _ _ p q _ hpq => .read_bind ?_
  rw [show q.scratch.known q.plane = p.scratch.known p.plane from
    hpq.congr (g := fun p => p.scratch.known p.plane) fun _ => rfl]
  refine Step.Agree.mapStop _ ?_
  unfold Snapshot.decode
  refine (hkind .entity p q hpq).bind fun _ _ p q hentity hpq => ?_
  refine (hkind .location p q hpq).bind fun _ _ p q hlocation hpq => ?_
  refine (hkind .policy p q hpq).bind fun _ _ p q hpolicy hpq => ?_
  refine (hkind .enricher p q hpq).bind fun _ _ p q henricher hpq => ?_
  refine (hkind .feed p q hpq).bind fun _ _ p q hfeed hpq => ?_
  refine Step.Agree.bind (Q := fun x y => x = t.source.snapshot.catalogItems ∧ y = source.snapshot.catalogItems) ?_
    fun _ _ p q hitems hpq => ?_
  · have hitems : source.payloads.catalogItem = t.source.payloads.catalogItem :=
      hs.payloads .catalogItem (hs.ne hk rfl)
    exact agree_decodes (by rw [hitems]) hpq
  obtain ⟨⟨rfl, rfl⟩, ⟨rfl, rfl⟩⟩ := And.intro hentity hlocation
  obtain ⟨⟨rfl, rfl⟩, ⟨rfl, rfl⟩, ⟨rfl, rfl⟩⟩ := And.intro hpolicy (And.intro henricher hfeed)
  obtain ⟨rfl, rfl⟩ := hitems
  refine Step.Agree.bind (Q := Eq) ?_ fun _ _ _ _ _ hpq => .pure ⟨rfl, rfl⟩ hpq
  show Step.Agree SameButLog Eq (Step.forEach (t.source.snapshot.references.filter _) _)
    (Step.forEach (source.snapshot.references.filter _) _) p q
  rw [hs.references hk]
  exact .forEach (fun _ _ _ _ hpq => agree_tells hpq _ _) hpq

/-- The adjuncts of the kind are passed over on both sides, and those of the other kinds are made. -/
theorem agree_makeAdjuncts (hs : t.source.SameBut k source) (hoff : t.settings.features.enabled k = false)
    (hpq : SameButLog p q) : Step.Agree SameButLog Eq (makeAdjuncts t h t.source.snapshot)
      (makeAdjuncts { t with source } h source.snapshot) p q := by
  refine (blind_enter 5 p q hpq).bind fun _ _ p q _ hpq => .forEach (fun j _ p q hpq => ?_) hpq
  unfold makeAdjunctsOf
  dsimp only
  by_cases hj : j = k
  · subst hj
    simp only [hoff]
    exact agree_logCourses hpq _ _
  · rw [hs.ofKind hj]
    split
    · exact agree_logCourses hpq _ _
    · exact (agree_logCourses hpq _ _).bind fun _ _ p q _ hpq => .forEach (fun m _ => blind_makeAdjunct m) hpq

/-- Shells are populated from the same mementos. -/
theorem agree_reconstructAlls (hs : t.source.SameBut k source) (hk : k.isAdjunct)
    (hoff : t.settings.features.enabled k = false) (hpq : SameButLog p q) :
    Step.Agree SameButLog Eq (reconstructAll t h t.source.snapshot)
      (reconstructAll { t with source } h source.snapshot) p q := by
  unfold reconstructAll
  rw [hs.entities hk, hs.locations hk]
  refine (blind_enter 6 p q hpq).bind fun _ _ p q _ hpq => ?_
  refine (agree_logCourses hpq _ _).bind fun _ _ p q _ hpq => ?_
  refine Step.Agree.bind (.forEach (fun m _ => blind_reconstructOne m) hpq) fun _ _ p q _ hpq => ?_
  refine Step.Agree.bind (Q := Eq) (.forEach (fun j _ p q hpq => ?_) hpq) fun _ _ p q _ hpq => ?_
  · unfold reconstructAdjuncts
    by_cases hj : j = k
    · subst hj
      simp only [hoff]
      exact .pure rfl hpq
    · rw [hs.ofKind hj]
      split
      · exact (agree_logCourses hpq _ _).bind fun _ _ p q _ hpq => .forEach (fun m _ => blind_reconstructOne m) hpq
      · exact .pure rfl hpq
  · refine (agree_logCourses hpq _ _).bind fun _ _ p q _ hpq => ?_
    exact .forEach (fun m _ => blind_reconstructOne m) hpq

/-- All phases before the last come to the same. -/
theorem agree_builds (hs : t.source.SameBut k source) (hk : k.isAdjunct)
    (hoff : t.settings.features.enabled k = false) (hpq : SameButLog p q) :
    Step.Agree SameButLog (fun x y => x = t.source.snapshot ∧ y = source.snapshot) (build t h)
      (build { t with source } h) p q := by
  unfold build
  refine (agree_loadManifests hs hk hpq).bind fun read read' p q hread hpq => ?_
  obtain ⟨raw, manifest⟩ := read
  obtain ⟨raw', manifest'⟩ := read'
  obtain ⟨rfl, rfl, rfl⟩ := hread
  refine (blind_rebuildCatalog manifest' p q hpq).bind fun _ _ p q _ hpq => ?_
  refine (blind_makeLocationsAndEntities manifest' p q hpq).bind fun _ _ p q _ hpq => ?_
  refine (agree_loadSnapshots hs hk hpq).bind fun _ _ p q hsnapshot hpq => ?_
  obtain ⟨rfl, rfl⟩ := hsnapshot
  refine (agree_makeAdjuncts hs hoff hpq).bind fun _ _ p q _ hpq => ?_
  refine (agree_reconstructAlls hs hk hoff hpq).bind fun _ _ p q _ hpq => ?_
  refine Step.Agree.bind (Q := Eq) ?_ fun _ _ _ _ _ hpq => .pure ⟨rfl, rfl⟩ hpq
  have hsame : attachAdjuncts { t with source } h source.snapshot =
      attachAdjuncts { t with source } h t.source.snapshot := by
    unfold attachAdjuncts
    rw [hs.entities hk]
  rw [hsame]
  exact blind_attachAdjuncts t.source.snapshot p q hpq

/-- The whole passes come to the same. -/
theorem agree_verdicts (hs : t.source.SameBut k source) (hk : k.isAdjunct)
    (hoff : t.settings.features.enabled k = false) (hpq : SameButLog p q) :
    Step.Agree SameButLog Eq (verdict t h) (verdict { t with source } h) p q := by
  rw [verdict_eq, verdict_eq]
  refine (agree_builds hs hk hoff hpq).bind fun _ _ p q hsnapshot hpq => ?_
  obtain ⟨rfl, rfl⟩ := hsnapshot
  have hsame : conclude { t with source } h source.snapshot = conclude { t with source } h t.source.snapshot := by
    unfold conclude manageAll manageEntities finish
    rw [hs.applicationIds hk]
  rw [hsame]
  refine Step.Agree.bind (blind_manageAll t.source.snapshot p q hpq) fun applications _ p q he hpq => ?_
  subst he
  refine Step.Agree.bind (blind_finish t.source.snapshot applications p q hpq) fun _ _ p q _ hpq => ?_
  exact Step.Agree.bind (agree_tells hpq _ _) fun _ _ _ _ _ hpq => .pure rfl hpq

end Pass

/-! ## Outcomes -/

/-- What the handler is told by the event. -/
def Event.notification? : Event → Option Notification
  | .notified n => some n
  | _ => none

theorem Plane.notifications_forgetLog (p : Plane) :
    p.forgetLog.events.filterMap Event.notification? = p.events.filterMap Event.notification? := by
  unfold forgetLog events
  rw [← List.filter_reverse, List.filterMap_filter]
  refine List.filterMap_congr fun e _ => ?_
  cases e <;> rfl

namespace Manager

variable {m : Manager} {setup : Setup} {source source' : Source} {time time' : Nat} {h : Handler σ} {s : σ}
  {mode : ManagementMode} {o o' : Outcome σ} {k : ObjectKind}

/-- What the handler is told in the course of the pass. -/
def Outcome.notices (o : Outcome σ) (m : Manager) : List Notification :=
  (o.manager.plane.since m.plane).filterMap Event.notification?

/-- A pass only adds to what is on record, however it ends. -/
theorem events_runPass (ho : m.runPass setup source time h (.new mode) s = o) :
    m.plane.events <+: o.manager.plane.events := by
  obtain ⟨result, r, hv, htold, -⟩ := exists_told ho
  have hr : (m.opening h s mode).plane.events <+: r.plane.events := by
    have hbuild := Pass.turns_build (m.task setup source mode) h (m.opening h s mode)
    rw [Pass.verdict_eq, Step.on_bind] at hv
    rcases hb : (Pass.build (m.task setup source mode) h).on (m.opening h s mode) with ⟨e | snapshot, p⟩ <;>
      rw [hb] at hv
    · obtain ⟨-, rfl⟩ := Prod.mk.inj hv
      exact Pass.events_turns (hbuild.to hb)
    · obtain ⟨-, haccounted⟩ := (Pass.accounts_conclude snapshot p).to hv
      exact (Pass.events_turns (hbuild.to hb)).trans haccounted.events
  exact (events_opening m h s mode).trans (hr.trans htold.grows)

/-- Passes that leave the same on record but for log entries have told their handlers the same. -/
theorem notices_eq (ho : m.runPass setup source time h (.new mode) s = o)
    (ho' : m.runPass setup source' time' h (.new mode) s = o')
    (hsame : o'.manager.plane.forgetLog = o.manager.plane.forgetLog) : o'.notices m = o.notices m := by
  have hall : o'.manager.plane.events.filterMap Event.notification? =
      o.manager.plane.events.filterMap Event.notification? := by
    rw [← Plane.notifications_forgetLog, hsame, Plane.notifications_forgetLog]
  rw [Plane.events_eq_append (events_runPass ho), Plane.events_eq_append (events_runPass ho'), List.filterMap_append,
    List.filterMap_append] at hall
  exact List.append_cancel_left hall

/-- Let adjuncts of a kind take no part in persistence, and let two stores differ in the payloads of this kind, but let
the listener hear the same while they are read. Then passes over them, in the same mode, from the same live manager and with
the same handler, tell this handler the same, come to the same result, and leave the same live manager behind: the same
catalog, registries, objects and record, but for log entries. -/
theorem disabled_kind_is_skipped (ho : m.runPass setup source time h (.new mode) s = o)
    (ho' : m.runPass setup source' time' h (.new mode) s = o') (hk : k.isAdjunct)
    (hoff : setup.settings.features.enabled k = false) (hs : source.SameBut k source') :
    o'.notices m = o.notices m ∧ o'.result = o.result ∧
      o'.manager.plane.forgetLog = o.manager.plane.forgetLog := by
  obtain ⟨result, r, hv, -, hresult, hend⟩ := exists_ending ho
  obtain ⟨result', r', hv', -, hresult', hend'⟩ := exists_ending ho'
  have hagree : Step.Agree Pass.SameButLog Eq (Pass.verdict (m.task setup source mode) h)
      (Pass.verdict (m.task setup source' mode) h) (m.opening h s mode) (m.opening h s mode) :=
    Pass.agree_verdicts (t := m.task setup source mode) hs hk hoff rfl
  unfold Step.Agree at hagree
  rw [hv, hv'] at hagree
  have hrest : r'.forgetLog = r.forgetLog := hagree.states
  have hplane : r'.plane.forgetLog = r.plane.forgetLog := congrArg Pass.plane hrest
  have hhandler : r'.handler = r.handler := by
    have h := congrArg Pass.handler hrest
    exact h
  have hsame : o'.manager.plane.forgetLog = o.manager.plane.forgetLog ∧ o'.result = o.result := by
    rw [hresult, hresult', hhandler]
    cases hagree with
    | ok he => exact ⟨by rw [hend, hend', hplane], by rw [he]⟩
    | error =>
      obtain ⟨_, hend⟩ := hend
      obtain ⟨_, hend'⟩ := hend'
      refine ⟨?_, rfl⟩
      rw [hend, hend', Plane.forgetLog_record_notified, Plane.forgetLog_record_notified,
        Plane.forgetLog_record_logged, Plane.forgetLog_record_logged, hplane]
  exact ⟨notices_eq ho ho' hsame.1, hsame.2, hsame.1⟩

/-! ## Without policies -/

/-- A node on which policies take no part in persistence. -/
def withoutPolicies : Setup := { Setup.stock with settings := { features := { policies := false } } }

/-- An application with a policy. -/
def policedStore : MemoryStore := .holding [
  (.entity, { id := "app", type := "trellis.entity.BasicApplication", policies := ["p"] }),
  (.policy, { id := "p", type := "trellis.policy.BasicPolicy" })]

/-- The same application, with policies of other ids and of an unknown type. -/
def otherStore : MemoryStore := .holding [
  (.entity, { id := "app", type := "trellis.entity.BasicApplication", policies := ["p"] }),
  (.policy, { id := "q", type := "trellis.policy.BasicPolicy" }),
  (.policy, { id := "r", type := "w.P" })]

/-- The same application, with a policy that cannot be decoded. -/
def damagedStore : MemoryStore := policedStore.seed .policy "p" "damaged"

/-- A pass of such a node. -/
def withoutPoliciesPass (store : MemoryStore) : Outcome Unit :=
  ({} : Manager).runPass withoutPolicies store.source 0 (.refusing []) (.new .master) ()

theorem sameBut_otherStore : policedStore.source.SameBut .policy otherStore.source := by
  refine ⟨rfl, fun j hj => ?_, ?_⟩
  · rw [MemoryStore.payloads_source, MemoryStore.payloads_source]
    cases j with
    | policy => exact absurd rfl hj
    | _ => rfl
  · rw [MemoryStore.payloads_source, MemoryStore.payloads_source]
    decide +kernel

theorem disabled_kind_is_skipped_otherStore :
    ObjectKind.policy.isAdjunct ∧ withoutPolicies.settings.features.enabled .policy = false ∧
      policedStore.source.SameBut .policy otherStore.source ∧
      (withoutPoliciesPass otherStore).notices {} = (withoutPoliciesPass policedStore).notices {} ∧
      (withoutPoliciesPass otherStore).result = (withoutPoliciesPass policedStore).result ∧
      (withoutPoliciesPass otherStore).manager.plane.forgetLog =
        (withoutPoliciesPass policedStore).manager.plane.forgetLog :=
  ⟨rfl, rfl, sameBut_otherStore, disabled_kind_is_skipped (rfl : _ = withoutPoliciesPass policedStore)
    (rfl : _ = withoutPoliciesPass otherStore) rfl rfl sameBut_otherStore⟩

set_option maxRecDepth 2000 in
/-- A payload of such a kind that cannot be decoded is reported all the same. -/
theorem disabled_kind_is_decoded :
    ObjectKind.policy.isAdjunct ∧ withoutPolicies.settings.features.enabled .policy = false ∧
      (∀ j, j ≠ .policy → damagedStore.source.payloads.get j = policedStore.source.payloads.get j) ∧
      (withoutPoliciesPass damagedStore).notices {} ≠ (withoutPoliciesPass policedStore).notices {} := by
  refine ⟨rfl, rfl, fun j hj => ?_, by decide +kernel⟩
  rw [MemoryStore.payloads_source, MemoryStore.payloads_source, damagedStore, MemoryStore.seed]
  exact (RawData.get_put _ _ _ _ _).trans (if_neg hj.symm)

end Manager

end ManagementPlane
