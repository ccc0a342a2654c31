import ManagementPlane.Proofs.Bookkeeping
import ManagementPlane.Proofs.CreationFailures
import ManagementPlane.Proofs.FrankPasses
import ManagementPlane.Proofs.Verdicts

/-!
# No shell is missing without a reason

* `Ledger.heard_of_explained` : what is missing and explained does not show in a ledger;
* `Manager.exists_explained` : in a pass over a store of JSON objects all that is missing is explained;
* `Manager.missing_shells_failed` : the readings of a payload agree, so whatever is missing could not be made.
-/

namespace ManagementPlane

open Json (IsObject)

variable {σ : Type}

/-! ## The default handler -/

namespace Ledger

variable {failure dangling : FailureMode}

/-- Whatever a ledger has heard that could not be made, it keeps in mind until a pass begins. -/
theorem createFailed_heard {notes : List Notification} (hstart : ∀ n ∈ notes, n.isStart = false) (l : Ledger)
    {x : ObjectKind × String} (hx : x ∈ notes.filterMap Notification.createFailed?) :
    x ∈ ((Handler.byMode failure dangling).heard notes l).createFailed := by
  induction notes with
  | nil => cases hx
  | cons n notes ih =>
    refine (mem_createFailed_hear (hstart n List.mem_cons_self) _).2 ?_
    obtain ⟨m, hm, hxm⟩ := List.mem_filterMap.1 hx
    rcases List.mem_cons.1 hm with rfl | hm
    · exact Or.inl hxm
    · exact Or.inr (ih (fun n hn => hstart n (List.mem_cons_of_mem _ hn)) (List.mem_filterMap.2 ⟨m, hm, hxm⟩))

/-- What is missing and explained does not show in a ledger. -/
theorem heard_of_explained {notes : List Notification} (hstart : ∀ n ∈ notes, n.isStart = false)
    (he : Explained notes) (l : Ledger) : (Handler.byMode failure dangling).heard notes l =
      (Handler.byMode failure dangling).heard (notes.filter fun n => n.notFound?.isNone) l := by
  induction notes with
  | nil => rfl
  | cons n notes ih =>
    obtain ⟨hn, hnotes⟩ := explained_cons.1 he
    have hlater := ih (fun n hn => hstart n (List.mem_cons_of_mem _ hn)) hnotes
    have hcons : (Handler.byMode failure dangling).heard (n :: notes) l =
      (Handler.byMode failure dangling).hear n ((Handler.byMode failure dangling).heard notes l) := rfl
    rcases hx : n.notFound? with _ | x
    · rw [List.filter_cons_of_pos (by rw [hx]; rfl), hcons, hlater]
      rfl
    · rw [List.filter_cons_of_neg (by rw [hx]; exact Bool.false_ne_true), ← hlater, hcons]
      have hmem : x ∈ ((Handler.byMode failure dangling).heard notes l).createFailed :=
        createFailed_heard (fun n hn => hstart n (List.mem_cons_of_mem _ hn)) l (hn x hx)
      generalize (Handler.byMode failure dangling).heard notes l = u at hmem
      cases n with
      | notFound k id =>
        obtain rfl := Option.some.inj hx
        exact (on_notFound failure k id u).trans (if_pos hmem)
      | _ => cases hx

end Ledger

/-! ## Outcomes -/

namespace Manager

variable {m : Manager} {setup : Setup} {source : Source} {time : Nat} {h : Handler σ} {s : σ}
  {mode : ManagementMode} {o : Outcome σ}

/-- What is told in a pass is what is on record more than before. -/
theorem notices_of_notes (ho : m.runPass setup source time h (.new mode) s = o) (new : List Notification)
    (hnew : o.manager.plane.notes = new ++ m.plane.notes) : o.notices m = new.reverse := by
  have hall := congrArg (List.filterMap Event.notification?) (Plane.events_eq_append (events_runPass ho))
  rw [List.filterMap_append, Plane.events, Plane.events, List.filterMap_reverse, List.filterMap_reverse] at hall
  change o.manager.plane.notes.reverse = m.plane.notes.reverse ++ o.notices m at hall
  rw [hnew, List.reverse_append] at hall
  exact (List.append_cancel_left hall).symm

/-- A pass is frank to its very end. -/
theorem exists_frank (ho : m.runPass setup source time h (.new mode) s = o) (htypes : setup.types.KeepsKinds)
    (hs : source.HoldsObjects) : ∃ q, Pass.Frank h {x | x.1.isAdjunct} (m.opening h s mode) q ∧
      o.manager.plane = q.plane ∧ o.handler = q.handler := by
  have hfrank := Pass.frank_verdict (h := h) (t := m.task setup source mode) htypes hs (m.opening h s mode)
  rw [runPass_new] at ho
  rcases hv : (Pass.verdict (m.task setup source mode) h).on (m.opening h s mode) with ⟨e | applications, r⟩ <;>
    rw [hv] at ho <;> subst ho
  · have hfailed : Pass.Frank h {x | x.1.isAdjunct} r
        (Pass.raise h e (Pass.logFailure (m.task setup source mode) e r)).2 := .of_cons rfl rfl rfl rfl nofun
    exact ⟨_, IsTrans.trans _ _ _ (hfrank.to hv) hfailed, rfl, rfl⟩
  · exact ⟨r, hfrank.to hv, rfl, rfl⟩

/-- Of what a pass tells after its beginning, whatever is missing is explained, and the handler holds in the end what it
makes of all of it. -/
theorem exists_explained (ho : m.runPass setup source time h (.new mode) s = o) (htypes : setup.types.KeepsKinds)
    (hs : source.HoldsObjects) : ∃ notes, o.notices m = .start mode.isReadOnly :: notes.reverse ∧
      (∀ n ∈ notes, n.isStart = false) ∧ Explained notes ∧
      o.handler = h.heard (notes ++ [.start mode.isReadOnly]) s := by
  obtain ⟨q, hfrank, hplane, hhandler⟩ := exists_frank ho htypes hs
  obtain ⟨notes, hgrows, hstart, hheard⟩ := hfrank.grows
  have hopening : (m.opening h s mode).plane.current = [] := rfl
  have hexplained := hfrank.explained (hopening ▸ explained_nil)
  rw [Plane.current_of_notes _ hgrows hstart, hopening, List.append_nil] at hexplained
  refine ⟨notes, ?_, hstart, hexplained, ?_⟩
  · have hnotices := notices_of_notes ho (notes ++ [.start mode.isReadOnly]) (by
      rw [hplane, hgrows, List.append_assoc]; rfl)
    rw [hnotices, List.reverse_append]
    rfl
  · rw [hhandler, hheard]
    exact (h.heard_append notes [.start mode.isReadOnly] s).symm

/-- The readings of a payload agree: where a JSON object can be read as a memento, it has been read as the summary of an
entity and as the probe of a location before, with the same fields. So a pass over a store of JSON objects, with types
that make objects of the kind they declare, calls nothing missing but what it has said before that it could not make.
Whatever is missing then leaves no trace in a default handler: it holds in the end what it would hold if it had not been
told. -/
theorem missing_shells_failed :
    (∀ payload memento, IsObject payload → Memento.decode? payload = some memento →
      EntitySummary.decode? payload = some memento.summary ∧ LocationProbe.decode? payload = some memento.probe) ∧
    ∀ (m : Manager) (setup : Setup) (source : Source) (time : Nat) (mode : ManagementMode),
      setup.types.KeepsKinds → source.HoldsObjects →
      (∀ {σ : Type} (h : Handler σ) (s : σ) before k id after,
        (m.runPass setup source time h (.new mode) s).notices m = before ++ .notFound k id :: after →
          (k, id) ∈ before.filterMap Notification.createFailed?) ∧
      ∀ (failure dangling : FailureMode) (l : Ledger) o,
        m.runPass setup source time (.byMode failure dangling) (.new mode) l = o →
          o.handler = (Handler.byMode failure dangling).heard
            ((o.notices m).filter fun n => n.notFound?.isNone).reverse l := by
  refine ⟨fun payload memento ho hm => ⟨EntitySummary.decode?_eq_summary ho hm, LocationProbe.decode?_eq_probe ho hm⟩,
    fun m setup source time mode htypes hs => ⟨fun h s before k id after he => ?_, fun failure dangling l o ho => ?_⟩⟩
  · have ho : m.runPass setup source time h (.new mode) s = _ := rfl
    obtain ⟨notes, hnotices, -, hexplained, -⟩ := exists_explained ho htypes hs
    rw [hnotices] at he
    -- the first notification is the beginning of the pass
    rcases before with _ | ⟨n, before⟩
    · cases (List.cons.inj he).1
    · have hmissing := (List.reverse_eq_iff.1 (List.cons.inj he).2).trans List.reverse_append
      rw [List.reverse_cons, List.append_assoc] at hmissing
      have hfailed := hexplained after.reverse _ before.reverse (k, id) hmissing rfl
      rw [List.filterMap_reverse, List.mem_reverse] at hfailed
      exact ((List.sublist_cons_self n before).filterMap _).subset hfailed
  · obtain ⟨notes, hnotices, hstart, hexplained, hheard⟩ := exists_explained ho htypes hs
    rw [hheard, hnotices, List.filter_cons_of_pos rfl, List.reverse_cons, List.filter_reverse, List.reverse_reverse,
      Handler.heard_append, Handler.heard_append, Ledger.heard_of_explained hstart hexplained]

/-! ## An entity of an unknown type -/

/-- An application, and an entity of an unknown type below it that has a policy. -/
def unknownTypeStore : MemoryStore := .holding [
  (.entity, { id := "app", type := "trellis.entity.BasicApplication", children := ["x"] }),
  (.entity, { id := "x", type := "w.E", parent := some "app", policies := ["p"] }),
  (.policy, { id := "p", type := "trellis.policy.BasicPolicy" })]

/-- A pass over this store with a default handler. -/
def unknownTypePass : Outcome Ledger :=
  ({} : Manager).runPass .stock unknownTypeStore.source 0 (.byMode .carryOn .carryOn) (.new .master) {}

set_option maxRecDepth 2000 in
theorem unknownTypePass_shows :
    (∀ k ∈ ObjectKind.all, ∀ e ∈ (unknownTypeStore.data.get k).entries, IsObject e.2) ∧
    unknownTypePass.notices {} = [
      .start false,
      .createFailed .entity "x" "w.E" (.typeNotFound "w.E" none),
      .dangling .entity "x",
      .notFound .entity "x",
      .notFound .entity "x",
      .done] := by
  decide +kernel

/-- The entity of an unknown type is missing twice, after it could not be made. -/
theorem missing_shells_failed_unknownTypeStore :
    Setup.stock.types.KeepsKinds ∧ unknownTypeStore.source.HoldsObjects ∧
      (.entity, "x") ∈ [Notification.start false,
        .createFailed .entity "x" "w.E" (.typeNotFound "w.E" none), .dangling .entity "x"].filterMap
          Notification.createFailed? ∧
      unknownTypePass.handler = (Handler.byMode .carryOn .carryOn).heard
        ((unknownTypePass.notices {}).filter fun n => n.notFound?.isNone).reverse {} := by
  obtain ⟨hobjects, hnotices⟩ := unknownTypePass_shows
  have hs : unknownTypeStore.source.HoldsObjects :=
    .of_entries (by rw [MemoryStore.payloads_source]; exact hobjects)
  have htypes : Setup.stock.types.KeepsKinds := TypeRegistry.keepsKinds_stock
  obtain ⟨hmissing, hledger⟩ := missing_shells_failed.2 {} .stock unknownTypeStore.source 0 .master htypes hs
  exact ⟨htypes, hs, hmissing (.byMode .carryOn .carryOn) {} _ .entity "x" _ hnotices,
    hledger .carryOn .carryOn {} unknownTypePass rfl⟩

end Manager

end ManagementPlane
