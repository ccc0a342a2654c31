import ManagementPlane.Config.Basic
import ManagementPlane.Proofs.Election

/-!
# Masters that beat in time

A heartbeat is on time up to the interval and some grace after the one before. The watchdog waits for a time of its own,
which a configuration only has to choose greater than the interval.

* `Supervisor.Watch` : a run in which a node beats, an evaluation follows, and the node beats again;
* `Supervisor.Consistent.timing?_run` : what is known of the heartbeats of a node stays, up to its next one;
* `Supervisor.keepsOnTimeMaster_iff` : a configuration never lets a master go whose next heartbeat is on time exactly
  when the watchdog waits for the interval and the grace at least;
* `Supervisor.tight_watchdog_barks` : a configuration that is accepted and lets one go.
-/

namespace ManagementPlane

namespace Supervisor

variable {s : Supervisor} {context : NodeContext}

/-! ## What is known of the heartbeats of a node -/

/-- The call registers the node with this context, if it does. -/
def Call.AgreesWith (context : NodeContext) : Call → Prop
  | .register other => other.id = context.id → other = context
  | _ => True

/-- The call is no heartbeat of the node. -/
def Call.Spares (id : String) : Call → Prop
  | .heartbeat other _ => other ≠ id
  | _ => True

instance (context : NodeContext) : DecidablePred (Call.AgreesWith context)
  | .register other => inferInstanceAs (Decidable (other.id = context.id → other = context))
  | .heartbeat .. | .evaluate _ | .promote _ => isTrue trivial

instance (id : String) : DecidablePred (Call.Spares id)
  | .heartbeat other _ => inferInstanceAs (Decidable (other ≠ id))
  | .register _ | .evaluate _ | .promote _ => isTrue trivial

/-- If the node is known, it was told this. -/
def Tells (s : Supervisor) (context : NodeContext) : Prop :=
  ∀ told last, s.timing? context.id = some (told, last) → told = context

theorem Consistent.tells_after (hs : s.Consistent) {c : Call} (ht : s.Tells context) (hagree : c.AgreesWith context) :
    (s.after c).Tells context := by
  intro told last h
  cases c with
  | register other =>
    rw [Supervisor.after, timing?_register] at h
    split at h
    · next hid =>
      cases h
      exact hagree hid
    · exact ht told last h
  | heartbeat other now =>
    rw [Supervisor.after, timing?_heartbeat] at h
    split at h
    · obtain ⟨⟨told', last'⟩, hold, he⟩ := Option.map_eq_some_iff.1 h
      cases he
      exact ht told' last' hold
    · exact ht told last h
  | evaluate now =>
    rw [Supervisor.after, hs.timing?_evaluate] at h
    exact ht told last h
  | promote id =>
    rw [Supervisor.after, timing?_promote] at h
    exact ht told last h

/-- What a known node was told and when it was last heard of stays, but for another registration and a heartbeat. -/
theorem Consistent.timing?_after (hs : s.Consistent) {c : Call} {last : Option Nat}
    (ht : s.timing? context.id = some (context, last)) (hagree : c.AgreesWith context) (hspare : c.Spares context.id) :
    (s.after c).timing? context.id = some (context, last) := by
  cases c with
  | register other =>
    rw [Supervisor.after, timing?_register, ht]
    split
    · next hid =>
      rw [hagree hid]
      rfl
    · rfl
  | heartbeat other now => rw [Supervisor.after, timing?_heartbeat, if_neg hspare, ht]
  | evaluate now => rw [Supervisor.after, hs.timing?_evaluate, ht]
  | promote id => rw [Supervisor.after, timing?_promote, ht]

theorem tells_run (cluster : String) {calls : List Call} (hagree : ∀ c ∈ calls, c.AgreesWith context) :
    (({ cluster } : Supervisor).run calls).Tells context :=
  (run_induction (P := fun s => s.Consistent ∧ s.Tells context) ⟨consistent_empty cluster, fun _ _ h => by cases h⟩
    fun _ c hc h => ⟨h.1.after c, h.1.tells_after h.2 (hagree c hc)⟩).2

theorem Consistent.run (hs : s.Consistent) (calls : List Call) : (s.run calls).Consistent :=
  run_induction hs fun _ c _ h => h.after c

theorem Consistent.timing?_run (hs : s.Consistent) {last : Option Nat} {calls : List Call}
    (ht : s.timing? context.id = some (context, last)) (hagree : ∀ c ∈ calls, c.AgreesWith context)
    (hspare : ∀ c ∈ calls, c.Spares context.id) : (s.run calls).timing? context.id = some (context, last) :=
  (run_induction (P := fun s => s.Consistent ∧ s.timing? context.id = some (context, last)) ⟨hs, ht⟩
    fun _ c hc h => ⟨h.1.after c, h.1.timing?_after h.2 (hagree c hc) (hspare c hc)⟩).2

/-! ## Looking at a master between two heartbeats -/

/-- A run in which a node beats at `first`, an evaluation follows at `look`, and the next heartbeat of the node at
`next`. The node is registered with this context only. -/
structure Watch (context : NodeContext) where
  cluster : String
  /-- The calls before the first heartbeat. -/
  before : List Call
  first : Nat
  /-- The calls between the first heartbeat and the evaluation. -/
  between : List Call
  look : Nat
  /-- The calls between the evaluation and the next heartbeat. -/
  behind : List Call
  next : Nat
  agree : ∀ c ∈ before ++ between ++ behind, c.AgreesWith context
  spare : ∀ c ∈ between ++ behind, c.Spares context.id
  first_le : first ≤ look
  le_next : look ≤ next

namespace Watch

variable {context : NodeContext} (w : Watch context)

def atFirst : Supervisor := ({ cluster := w.cluster } : Supervisor).run w.before

def atLook : Supervisor := (w.atFirst.heartbeat context.id w.first).2.run w.between

def verdict : Option FailoverEvent × Supervisor := w.atLook.evaluate w.look

def atNext : Supervisor := w.verdict.2.run w.behind

/-- The node is master when it beats and when it is looked at. -/
def OfMaster : Prop := w.atFirst.master = some context.id ∧ w.atLook.master = some context.id

/-- The next heartbeat is judged to be on time. -/
def NextOnTime : Prop := (w.atNext.heartbeat context.id w.next).1 = .onTime

/-- The node stays master, and nothing is told. -/
def KeepsMaster : Prop := w.verdict.1 = none ∧ w.verdict.2.master = some context.id

instance : Decidable w.OfMaster := inferInstanceAs (Decidable (_ ∧ _))

instance : Decidable w.NextOnTime := inferInstanceAs (Decidable (_ = _))

instance : Decidable w.KeepsMaster := inferInstanceAs (Decidable (_ ∧ _))

theorem consistent_atFirst : w.atFirst.Consistent := consistent_run w.cluster w.before

theorem consistent_atLook : w.atLook.Consistent :=
  (w.consistent_atFirst.after (.heartbeat context.id w.first)).run w.between

/-- When the node is looked at, it was last heard of at the first heartbeat. -/
theorem timing?_atLook (hmaster : w.OfMaster) : w.atLook.timing? context.id = some (context, some w.first) := by
  have htells : w.atFirst.Tells context := tells_run w.cluster fun c hc => w.agree c (by simp [hc])
  obtain ⟨n, hn⟩ := w.consistent_atFirst.known context.id hmaster.1
  have hfirst : w.atFirst.timing? context.id = some (n.context, n.lastHeartbeat) := by rw [timing?, hn]; rfl
  have hcontext : n.context = context := htells _ _ hfirst
  have hbeat : (w.atFirst.heartbeat context.id w.first).2.timing? context.id = some (context, some w.first) := by
    rw [timing?_heartbeat, if_pos rfl, hfirst, hcontext]
    rfl
  exact (w.consistent_atFirst.after (.heartbeat context.id w.first)).timing?_run hbeat
    (fun c hc => w.agree c (by simp [hc])) fun c hc => w.spare c (by simp [hc])

/-- And so it is when the node beats next. -/
theorem timing?_atNext (hmaster : w.OfMaster) : w.atNext.timing? context.id = some (context, some w.first) := by
  have hverdict : w.verdict.2.timing? context.id = some (context, some w.first) := by
    rw [verdict, w.consistent_atLook.timing?_evaluate, w.timing?_atLook hmaster]
  exact (w.consistent_atLook.evaluate w.look).timing?_run hverdict
    (fun c hc => w.agree c (by simp [hc])) fun c hc => w.spare c (by simp [hc])

/-- The next heartbeat is on time if no more than the interval and the grace lie between. -/
theorem nextOnTime_iff (hmaster : w.OfMaster) :
    w.NextOnTime ↔ w.next - w.first ≤ context.interval + NodeState.grace := by
  obtain ⟨n, hn, hcontext, hlast⟩ := timing?_eq_some_iff.1 (w.timing?_atNext hmaster)
  unfold NextOnTime heartbeat
  simp only [hn, NodeState.heartbeat, hlast, hcontext]
  split <;> simp [*]

/-- The master stays if the watchdog waits for what lies between the first heartbeat and the look. -/
theorem keepsMaster_iff (hmaster : w.OfMaster) : w.KeepsMaster ↔ w.look - w.first ≤ context.watchdog := by
  obtain ⟨n, hn, hcontext, hlast⟩ := timing?_eq_some_iff.1 (w.timing?_atLook hmaster)
  have hs : w.atLook.Consistent := w.consistent_atLook
  have halive : w.look - w.first ≤ context.watchdog ↔ n.isAlive w.look = true := by
    simp [NodeState.isAlive, hlast, hcontext]
  rw [halive]
  constructor
  · rintro ⟨-, hkept⟩
    obtain ⟨m, hm, ha⟩ := hs.alive_of_master_evaluate hkept
    rwa [Option.some.inj (hn.symm.trans hm)]
  · intro ha
    have he : w.verdict = (none, w.atLook) := hs.evaluate_of_masterIsAlive ⟨context.id, hmaster.2, n, hn, ha⟩
    rw [KeepsMaster, he]
    exact ⟨rfl, hmaster.2⟩

/-- A run in which the one node is elected and beats at the start, and is looked at when the watchdog has just lost
patience. -/
def atLast (context : NodeContext) (h : context.watchdog < context.interval + NodeState.grace) : Watch context where
  cluster := ""
  before := [.register context, .heartbeat context.id 0, .evaluate 0]
  first := 0
  between := []
  look := context.watchdog + 1
  behind := []
  next := context.interval + NodeState.grace
  agree := by simp [Call.AgreesWith]
  spare := by simp
  first_le := Nat.zero_le _
  le_next := h

theorem ofMaster_atLast (h : context.watchdog < context.interval + NodeState.grace) :
    (atLast context h).OfMaster := by
  let s : Supervisor := ({ cluster := "" } : Supervisor).run [.register context, .heartbeat context.id 0]
  have hs : s.Consistent := consistent_run "" _
  have hmaster : s.master = none :=
    ((keepsMaster_heartbeat _ context.id 0).master.trans (keepsMaster_register _ context).master)
  have htiming : ∀ id, s.timing? id = if context.id = id then some (context, some 0) else none := by
    intro id
    show ((({ cluster := "" } : Supervisor).register context).heartbeat context.id 0).2.timing? id = _
    rw [timing?_heartbeat, timing?_register]
    split <;> rfl
  obtain ⟨n, hn, hcontext, hlast⟩ := timing?_eq_some_iff.1 ((htiming context.id).trans (if_pos rfl))
  have hleads : s.Leads 0 context.id := by
    refine ⟨n, hn, by simp [NodeState.isAlive, hlast], fun other m hne hm _ => ?_⟩
    have hnone := htiming other
    rw [if_neg (Ne.symm hne), timing?, hm] at hnone
    cases hnone
  have hlost : ¬s.MasterIsAlive 0 := by
    rintro ⟨id, hid, -⟩
    exact absurd (hmaster.symm.trans hid) (by simp)
  have helected : (s.evaluate 0).2.master = some context.id := (hs.master_evaluate_iff hlost).2 hleads
  exact ⟨helected, (keepsMaster_heartbeat _ context.id 0).master.trans helected⟩

end Watch

/-- A configuration is accepted and never lets a master go whose next heartbeat is on time, exactly when the watchdog
waits for the interval and the grace at least. -/
theorem keepsOnTimeMaster_iff (c : HaConfig) (id : String) :
    (c.validate = .ok c ∧ ∀ w : Watch (c.nodeContext id), w.OfMaster → w.NextOnTime → w.KeepsMaster) ↔
      c.interval + NodeState.grace ≤ c.watchdog := by
  constructor
  · rintro ⟨-, hkeeps⟩
    by_contra hshort
    have hshort : (c.nodeContext id).watchdog < (c.nodeContext id).interval + NodeState.grace := not_le.1 hshort
    have hmaster := Watch.ofMaster_atLast hshort
    have honTime : (Watch.atLast _ hshort).NextOnTime :=
      ((Watch.atLast _ hshort).nextOnTime_iff hmaster).2 (Nat.sub_le _ _)
    have hlook := ((Watch.atLast _ hshort).keepsMaster_iff hmaster).1 (hkeeps _ hmaster honTime)
    exact absurd hlook (Nat.not_succ_le_self _)
  · intro hlong
    constructor
    · rw [HaConfig.validate, if_neg]
      simp only [NodeState.grace] at hlong
      omega
    · intro w hmaster honTime
      rw [w.nextOnTime_iff hmaster] at honTime
      rw [w.keepsMaster_iff hmaster]
      have hfirst := w.first_le
      have hnext := w.le_next
      have hinterval : (c.nodeContext id).interval = c.interval := rfl
      have hwatchdog : (c.nodeContext id).watchdog = c.watchdog := rfl
      omega

/-- The configuration that stands where none is given is such a one. -/
example : ({} : HaConfig).interval + NodeState.grace ≤ ({} : HaConfig).watchdog := by decide

/-! ## A watchdog that waits for less than the grace -/

/-- A configuration with an interval of ten milliseconds and a watchdog that waits for twenty. -/
def tight : HaConfig := { interval := 10, watchdog := 20 }

/-- A node with this configuration is elected and beats at 5 and at 40; the evaluation between is at 30, where another
node is alive. -/
def tightWatch : Watch (tight.nodeContext "a") where
  cluster := "cluster"
  before := [.register (tight.nodeContext "a"), .register { tight.nodeContext "b" with priority := 1 },
    .heartbeat "a" 0, .evaluate 0]
  first := 5
  between := [.heartbeat "b" 30]
  look := 30
  behind := []
  next := 40
  agree := by decide
  spare := by decide
  first_le := by decide
  le_next := by decide

/-- The configuration is accepted, and the next heartbeat of the master on time, but the watchdog has barked before. -/
theorem tight_watchdog_barks :
    tight.validate = .ok tight ∧ tightWatch.OfMaster ∧ tightWatch.NextOnTime ∧ ¬tightWatch.KeepsMaster ∧
      tightWatch.verdict.1 = some ⟨"cluster", "b", some "a", .heartbeatTimeout⟩ := by
  decide +kernel

end Supervisor

end ManagementPlane
