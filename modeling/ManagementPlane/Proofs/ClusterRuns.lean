import ManagementPlane.Cluster.Supervisor
import ManagementPlane.Proofs.Tables

/-!
# What calls make of a cluster

* `Supervisor.Call`, `Supervisor.run` : what can be asked of a supervisor, and what calls in a row make of it;
* `Supervisor.run_induction` : what every call keeps, a run keeps;
* `Supervisor.get?_activate`, `Supervisor.get?_register`, `Supervisor.get?_heartbeat` : what becomes of each node;
* `Supervisor.timing?` : what a node was told and when it was last heard of. Only registrations and heartbeats change
  it, and only that of their own node.
-/

namespace ManagementPlane

namespace Supervisor

variable {s : Supervisor} {context : NodeContext} {id : String} {n : NodeState}

/-! ## Runs -/

/-- What can be asked of a supervisor. -/
inductive Call where
  | register (context : NodeContext)
  | heartbeat (id : String) (now : Nat)
  | evaluate (now : Nat)
  | promote (id : String)
  deriving DecidableEq, Repr

/-- What a call makes of a supervisor. -/
def after (s : Supervisor) : Call → Supervisor
  | .register context => s.register context
  | .heartbeat id now => (s.heartbeat id now).2
  | .evaluate now => (s.evaluate now).2
  | .promote id => (s.promote id).2

/-- What calls in a row make of a supervisor. -/
def run (s : Supervisor) (calls : List Call) : Supervisor := calls.foldl after s

/-- What every call keeps, a run keeps. -/
theorem run_induction {P : Supervisor → Prop} {calls : List Call} (hs : P s)
    (hstep : ∀ s, ∀ c ∈ calls, P s → P (s.after c)) : P (s.run calls) := by
  induction calls generalizing s with
  | nil => exact hs
  | cons c r ih =>
    have hc : P (s.after c) := hstep s c List.mem_cons_self hs
    exact ih hc fun s c' hc' => hstep s c' (List.mem_cons_of_mem _ hc')

/-! ## What becomes of each node -/

theorem get?_modify (s : Supervisor) (id : String) (f : NodeState → NodeState) (k : String) :
    (s.modify id f).nodes.get? k = if id = k then (s.nodes.get? k).map f else s.nodes.get? k := by
  by_cases hk : id = k
  · subst hk
    cases hn : s.nodes.get? id <;> simp [modify, hn, OrderedMap.get?_insert]
  · cases hn : s.nodes.get? id <;> simp [modify, hn, hk, OrderedMap.get?_insert]

@[simp] theorem master_activate (s : Supervisor) (id : String) (reason : FailoverReason) :
    (s.activate id reason).2.master = some id := rfl

/-- The node is marked, and the former master loses its mark. -/
theorem get?_activate (s : Supervisor) (id : String) (reason : FailoverReason) (k : String) :
    (s.activate id reason).2.nodes.get? k = (s.nodes.get? k).map fun n =>
      { n with isMaster := id = k || (n.isMaster && s.master ≠ some k) } := by
  unfold activate
  cases hm : s.master with
  | none =>
    simp only [get?_modify]
    cases s.nodes.get? k <;> by_cases hk : id = k <;> simp [hk]
  | some old =>
    simp only [get?_modify]
    cases s.nodes.get? k <;> by_cases hk : id = k <;> by_cases ho : old = k <;> simp [hk, ho]

theorem get?_register (s : Supervisor) (context : NodeContext) (k : String) :
    (s.register context).nodes.get? k =
      if context.id = k then some (((s.nodes.get? k).map fun n => { n with context }).getD { context })
      else s.nodes.get? k := by
  by_cases hk : context.id = k
  · subst hk
    cases hn : s.nodes.get? context.id <;> simp [register, hn, OrderedMap.get?_insert]
  · cases hn : s.nodes.get? context.id <;> simp [register, hn, hk, OrderedMap.get?_insert]

theorem get?_heartbeat (s : Supervisor) (id : String) (now : Nat) (k : String) :
    (s.heartbeat id now).2.nodes.get? k =
      if id = k then (s.nodes.get? k).map fun n => (n.heartbeat now).2 else s.nodes.get? k := by
  by_cases hk : id = k
  · subst hk
    cases hn : s.nodes.get? id <;> simp [heartbeat, hn, OrderedMap.get?_insert]
  · cases hn : s.nodes.get? id <;> simp [heartbeat, hn, hk, OrderedMap.get?_insert]

/-! ## What is known of its heartbeats -/

/-- What a node was told, and when it was last heard of. -/
def timing? (s : Supervisor) (id : String) : Option (NodeContext × Option Nat) :=
  (s.nodes.get? id).map fun n => (n.context, n.lastHeartbeat)

theorem timing?_eq_some_iff {last : Option Nat} : s.timing? id = some (context, last) ↔
    ∃ n, s.nodes.get? id = some n ∧ n.context = context ∧ n.lastHeartbeat = last := by
  simp [timing?, Option.map_eq_some_iff]

theorem timing?_insert {m : NodeState} (hn : s.nodes.get? id = some n) (hcontext : m.context = n.context)
    (hlast : m.lastHeartbeat = n.lastHeartbeat) :
    ({ s with nodes := s.nodes.insert id m } : Supervisor).timing? = s.timing? := by
  funext k
  by_cases hk : id = k
  · subst hk
    simp [timing?, OrderedMap.get?_insert, hn, hcontext, hlast]
  · simp [timing?, OrderedMap.get?_insert, hk]

theorem timing?_activate (s : Supervisor) (id : String) (reason : FailoverReason) :
    (s.activate id reason).2.timing? = s.timing? := by
  funext k
  simp [timing?, get?_activate, Function.comp_def]

theorem timing?_promote (s : Supervisor) (id : String) : (s.promote id).2.timing? = s.timing? := by
  unfold promote
  split
  · exact timing?_activate s id .manual
  · rfl

theorem timing?_register (s : Supervisor) (context : NodeContext) (k : String) : (s.register context).timing? k =
    if context.id = k then some (context, (s.timing? k).bind Prod.snd) else s.timing? k := by
  unfold timing?
  rw [get?_register]
  split
  · cases s.nodes.get? k <;> rfl
  · rfl

theorem timing?_heartbeat (s : Supervisor) (id : String) (now : Nat) (k : String) :
    (s.heartbeat id now).2.timing? k =
      if id = k then (s.timing? k).map fun t => (t.1, some now) else s.timing? k := by
  unfold timing?
  rw [get?_heartbeat]
  split
  · cases s.nodes.get? k <;> rfl
  · rfl

end Supervisor

end ManagementPlane
