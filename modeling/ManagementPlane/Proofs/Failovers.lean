import ManagementPlane.Proofs.Election

/-!
# What the events of a cluster tell

A supervisor returns an event whenever it makes a node master. Whoever reads the events in order knows the master at
every moment, but for one thing that no event tells: a master is lost and no node is there to take its place.

* `Supervisor.Turn`, `Supervisor.turns` : the calls of a run, each with the supervisor that it is put to;
* `Turn.Lapses` : an evaluation finds every node lost, the master included;
* `Turn.Outcome`, `Consistent.outcome` : a call returns an event that names the old and the new master, leaves the master
  as it is, or finds it lapsed;
* `Consistent.master_run_of_silent`, `Consistent.master_run_of_none`, `Consistent.master_run_of_lapse` : what becomes of
  the master while no event is returned;
* `Supervisor.events_tell_who_is_master` : the last event names the master, unless a lapse followed it.
-/

namespace ManagementPlane

namespace Supervisor

variable {s : Supervisor} {calls : List Call} {event : FailoverEvent} {now : Nat} {reason : FailoverReason}
  {excluded : Option String}

/-! ## The turns of a run -/

/-- The event that a call returns, if it does. -/
def event? (s : Supervisor) : Call → Option FailoverEvent
  | .evaluate now => (s.evaluate now).1
  | .promote id => (s.promote id).1
  | .register _ | .heartbeat _ _ => none

/-- A call and the supervisor that it is put to. -/
structure Turn where
  before : Supervisor
  call : Call

/-- The turns that calls in a row come to. -/
def turns (s : Supervisor) : List Call → List Turn
  | [] => []
  | c :: calls => ⟨s, c⟩ :: (s.after c).turns calls

namespace Turn

def after (t : Turn) : Supervisor := t.before.after t.call

def event? (t : Turn) : Option FailoverEvent := t.before.event? t.call

/-- The call is an evaluation that finds the master lost, and no node alive that could take its place. -/
def Lapses (t : Turn) : Prop :=
  ∃ now, t.call = .evaluate now ∧ t.before.master ≠ none ∧ ∀ id, ¬t.before.Alive now id

/-- What a call may come to. -/
inductive Outcome (t : Turn) : Prop where
  /-- An event names the master before the call, and the node that is master after it. -/
  | promoted (event : FailoverEvent) (hevent : t.event? = some event) (hprevious : event.previous = t.before.master)
      (hmaster : t.after.master = some event.promoted) (hknown : t.after.nodes.contains event.promoted = true)
  /-- Nothing is told, and the master stays. -/
  | quiet (hevent : t.event? = none) (hmaster : t.after.master = t.before.master)
  /-- Nothing is told, and there is no master any more. -/
  | lapsed (hevent : t.event? = none) (hlapses : t.Lapses) (hmaster : t.after.master = none)

/-- The call makes a node master in a cluster that has none. -/
def Starts (t : Turn) : Prop :=
  (∃ now, t.call = .evaluate now) ∧ t.event? ≠ none ∧ t.before.master = none

end Turn

/-- What follows on a turn is a run of its own. -/
theorem exists_calls_of_turns {before after : List Turn} {t : Turn} (h : s.turns calls = before ++ t :: after) :
    ∃ rest, after = t.after.turns rest ∧ s.run calls = t.after.run rest := by
  induction calls generalizing s before with
  | nil => cases before <;> cases h
  | cons c calls ih =>
    cases before with
    | nil =>
      obtain ⟨rfl, rfl⟩ := List.cons.inj h
      exact ⟨calls, rfl, rfl⟩
    | cons u before => exact ih (List.cons.inj h).2

theorem Consistent.of_mem_turns (hs : s.Consistent) {t : Turn} (ht : t ∈ s.turns calls) : t.before.Consistent := by
  induction calls generalizing s with
  | nil => cases ht
  | cons c calls ih =>
    rcases List.mem_cons.1 ht with rfl | ht
    · exact hs
    · exact ih (hs.after c) ht

/-! ## One call -/

/-- An election tells who was master before it, and why there is another one. -/
theorem of_promoteNext_eq_some (h : (s.promoteNext now reason excluded).1 = some event) :
    event.previous = s.master ∧ event.reason = reason := by
  unfold promoteNext at h
  split at h
  · cases h
  · cases h
    exact ⟨rfl, rfl⟩

theorem of_promote_eq_some {id : String} (h : (s.promote id).1 = some event) : event.reason = .manual := by
  unfold promote at h
  split at h
  · cases h
    rfl
  · cases h

theorem contains_activate {id : String} {n : NodeState} (hn : s.nodes.get? id = some n) (reason : FailoverReason) :
    (s.activate id reason).2.nodes.contains id = true := by
  rw [OrderedMap.contains, get?_activate, hn]
  rfl

theorem outcome_promote (s : Supervisor) (id : String) : Turn.Outcome ⟨s, .promote id⟩ := by
  by_cases hknown : s.nodes.contains id = true
  · obtain ⟨n, hn⟩ := Option.isSome_iff_exists.1 hknown
    have hpromote : s.promote id = (some (s.activate id .manual).1, (s.activate id .manual).2) := if_pos hknown
    refine .promoted (s.activate id .manual).1 ?_ rfl ?_ ?_
    · show (s.promote id).1 = _
      rw [hpromote]
    · show (s.promote id).2.master = _
      rw [hpromote]
      rfl
    · show (s.promote id).2.nodes.contains id = true
      rw [hpromote]
      exact contains_activate hn .manual
  · have hpromote : s.promote id = (none, s) := if_neg hknown
    refine .quiet ?_ ?_
    · show (s.promote id).1 = none
      rw [hpromote]
    · show (s.promote id).2.master = s.master
      rw [hpromote]

/-- An event of an evaluation names the master before it, and is one of a start just where there was none. -/
theorem of_evaluate_eq_some (h : (s.evaluate now).1 = some event) :
    event.previous = s.master ∧ (event.reason = .startup ↔ s.master = none) := by
  cases hm : s.master with
  | none =>
    rw [evaluate, hm] at h
    obtain ⟨hprevious, hreason⟩ := of_promoteNext_eq_some h
    exact ⟨hprevious.trans hm, iff_of_true hreason rfl⟩
  | some id =>
    -- the reason is that the master is unknown, or that its heartbeats stay away
    have hlost : ∃ (r : Supervisor) (reason : FailoverReason), r.master = some id ∧ reason ≠ .startup ∧
        (r.promoteNext now reason (some id)).1 = some event := by
      simp only [evaluate, hm] at h
      split at h
      · exact ⟨s, .missing, hm, by decide, h⟩
      · split at h
        · exact ⟨_, .heartbeatTimeout, rfl, by decide, h⟩
        · cases h
    obtain ⟨r, reason, hr, hstartup, hevent⟩ := hlost
    obtain ⟨hprevious, hreason⟩ := of_promoteNext_eq_some hevent
    exact ⟨hprevious.trans hr, iff_of_false (fun he => hstartup (hreason.symm.trans he)) (Option.some_ne_none id)⟩

/-- Exactly the calls that make a node master where there was none return an event of a start. -/
theorem Turn.starts_iff (t : Turn) : (∃ event, t.event? = some event ∧ event.reason = .startup) ↔ t.Starts := by
  obtain ⟨s, c⟩ := t
  constructor
  · rintro ⟨event, hevent, hreason⟩
    cases c with
    | register context => cases hevent
    | heartbeat id now => cases hevent
    | evaluate now =>
      have htold : (⟨s, .evaluate now⟩ : Turn).event? ≠ none := by
        rw [hevent]
        exact nofun
      exact ⟨⟨now, rfl⟩, htold, (of_evaluate_eq_some hevent).2.1 hreason⟩
    | promote id =>
      have hmanual : event.reason = .manual := of_promote_eq_some hevent
      cases hmanual.symm.trans hreason
  · rintro ⟨⟨now, rfl⟩, hevent, hmaster⟩
    obtain ⟨event, hevent⟩ := Option.ne_none_iff_exists'.1 hevent
    exact ⟨event, hevent, (of_evaluate_eq_some hevent).2.2 hmaster⟩

namespace Consistent

variable (hs : s.Consistent)

include hs

theorem outcome_evaluate (now : Nat) : Turn.Outcome ⟨s, .evaluate now⟩ := by
  have hcases := hs.evaluation now
  have hprevious : ∀ event, (s.evaluate now).1 = some event → event.previous = s.master := fun _ h =>
    (of_evaluate_eq_some h).1
  generalize he : s.evaluate now = r at hcases hprevious
  have hevent : (⟨s, .evaluate now⟩ : Turn).event? = r.1 := congrArg Prod.fst he
  have hafter : (⟨s, .evaluate now⟩ : Turn).after = r.2 := congrArg Prod.snd he
  cases hcases with
  | kept halive => exact .quiet hevent (congrArg master hafter)
  | elected event t hlost hleads hmaster htiming =>
    obtain ⟨n, hn, -⟩ := hleads.alive.of_timing? htiming
    refine .promoted event hevent (hprevious event rfl) (hafter ▸ hmaster) ?_
    rw [hafter, OrderedMap.contains, hn]
    rfl
  | vacant t hlost hnone hmaster htiming =>
    by_cases hm : s.master = none
    · exact .quiet hevent (by rw [hafter, hmaster, hm])
    · exact .lapsed hevent ⟨now, rfl, hm, hnone⟩ (hafter ▸ hmaster)

theorem outcome (c : Call) : Turn.Outcome ⟨s, c⟩ := by
  cases c with
  | register context => exact .quiet rfl (keepsMaster_register s context).master
  | heartbeat id now => exact .quiet rfl (keepsMaster_heartbeat s id now).master
  | evaluate now => exact hs.outcome_evaluate now
  | promote id => exact outcome_promote s id

/-- A lapse leaves no master. -/
theorem master_of_lapses {c : Call} (h : (⟨s, c⟩ : Turn).Lapses) : (s.after c).master = none := by
  obtain ⟨now, rfl, -, hnone⟩ := h
  show (s.evaluate now).2.master = none
  have hcases := hs.evaluation now
  generalize s.evaluate now = r at hcases
  cases hcases with
  | kept halive =>
    obtain ⟨id, -, ha⟩ := halive
    exact absurd ha (hnone id)
  | elected event t hlost hleads => exact absurd hleads.alive (hnone _)
  | vacant t hlost hnone' hmaster => exact hmaster

/-! ## While nothing is told -/

/-- As long as no event is returned and no master lapses, the master stays. -/
theorem master_run_of_silent (hsilent : ∀ t ∈ s.turns calls, t.event? = none)
    (hkept : ∀ t ∈ s.turns calls, ¬t.Lapses) : (s.run calls).master = s.master := by
  induction calls generalizing s with
  | nil => rfl
  | cons c calls ih =>
    have hrest : ((s.after c).run calls).master = (s.after c).master :=
      ih (hs.after c) (fun t ht => hsilent t (List.mem_cons_of_mem _ ht)) fun t ht => hkept t (List.mem_cons_of_mem _ ht)
    refine hrest.trans ?_
    cases hs.outcome c with
    | promoted event hevent => cases (hsilent _ List.mem_cons_self).symm.trans hevent
    | quiet _ hmaster => exact hmaster
    | lapsed _ hlapses => exact absurd hlapses (hkept _ List.mem_cons_self)

/-- As long as no event is returned, no node becomes master where there is none. -/
theorem master_run_of_none (hsilent : ∀ t ∈ s.turns calls, t.event? = none) (hm : s.master = none) :
    (s.run calls).master = none := by
  induction calls generalizing s with
  | nil => exact hm
  | cons c calls ih =>
    refine ih (hs.after c) (fun t ht => hsilent t (List.mem_cons_of_mem _ ht)) ?_
    cases hs.outcome c with
    | promoted event hevent => cases (hsilent _ List.mem_cons_self).symm.trans hevent
    | quiet _ hmaster => exact hmaster.trans hm
    | lapsed _ _ hmaster => exact hmaster

/-- Once a master has lapsed there is none, as long as no event is returned. -/
theorem master_run_of_lapse (hsilent : ∀ t ∈ s.turns calls, t.event? = none)
    (hlapse : ∃ t ∈ s.turns calls, t.Lapses) : (s.run calls).master = none := by
  induction calls generalizing s with
  | nil =>
    obtain ⟨t, ht, -⟩ := hlapse
    cases ht
  | cons c calls ih =>
    have hrest : ∀ t ∈ (s.after c).turns calls, t.event? = none := fun t ht => hsilent t (List.mem_cons_of_mem _ ht)
    obtain ⟨t, ht, hlapses⟩ := hlapse
    rcases List.mem_cons.1 ht with rfl | ht
    · exact (hs.after c).master_run_of_none hrest (hs.master_of_lapses hlapses)
    · exact ih (hs.after c) hrest ⟨t, ht, hlapses⟩

end Consistent

/-- The events of a run tell who is master. Every call returns an event that names the master before it and the
registered node that is master after it, or returns none and leaves the master as it is, or is an evaluation at which the
master lapses; and the event is one of a start exactly where an evaluation makes a node master in a cluster without one.
So, after any calls, there is no master if there was no event, and else the last event names the master, unless a lapse
followed it: then there is none. -/
theorem events_tell_who_is_master (cluster : String) (calls : List Call) :
    let start : Supervisor := { cluster }
    (∀ t ∈ start.turns calls,
        t.Outcome ∧ ((∃ event, t.event? = some event ∧ event.reason = .startup) ↔ t.Starts)) ∧
      ((∀ t ∈ start.turns calls, t.event? = none) → (start.run calls).master = none) ∧
      ∀ before t later event, start.turns calls = before ++ t :: later → t.event? = some event →
        (∀ u ∈ later, u.event? = none) →
        ((∀ u ∈ later, ¬u.Lapses) → (start.run calls).master = some event.promoted) ∧
        ((∃ u ∈ later, u.Lapses) → (start.run calls).master = none) := by
  intro start
  have hstart : start.Consistent := consistent_empty cluster
  refine ⟨fun t ht => ⟨(hstart.of_mem_turns ht).outcome t.call, t.starts_iff⟩,
    fun hsilent => hstart.master_run_of_none hsilent rfl, fun before t later event hturns hevent hsilent => ?_⟩
  have ht : t ∈ start.turns calls := by
    rw [hturns]
    exact List.mem_append_right _ List.mem_cons_self
  have hafter : t.after.Consistent := (hstart.of_mem_turns ht).after t.call
  have hmaster : t.after.master = some event.promoted := by
    cases (hstart.of_mem_turns ht).outcome t.call with
    | promoted event' hevent' _ hmaster =>
      obtain rfl : event' = event := Option.some.inj (hevent'.symm.trans hevent)
      exact hmaster
    | quiet hnone => cases hnone.symm.trans hevent
    | lapsed hnone => cases hnone.symm.trans hevent
  obtain ⟨rest, rfl, hrun⟩ := exists_calls_of_turns hturns
  rw [hrun]
  exact ⟨fun hkept => (hafter.master_run_of_silent hsilent hkept).trans hmaster,
    fun hlapse => hafter.master_run_of_lapse hsilent hlapse⟩

end Supervisor

end ManagementPlane
