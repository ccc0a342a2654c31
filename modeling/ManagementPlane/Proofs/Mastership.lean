import ManagementPlane.Proofs.ClusterRuns

/-!
# At most one master

Who is master is noted twice: the supervisor names a node, and nodes are marked.

* `Supervisor.KeepsMaster` : who is master and who is marked stays, as it does when nodes join and beat;
* `Supervisor.Consistent` : nodes lie under their ids, the master is one of them, and it alone is marked;
* `Supervisor.Consistent.evaluate_cases` : an evaluation leaves a master that is alive alone, or elects another with no
  node marked;
* `Supervisor.consistent_run` : every call keeps a supervisor consistent;
* `Supervisor.oneMaster` : so one node at most is told to be master, and joining and beating make none.
-/

namespace ManagementPlane

namespace Supervisor

variable {s t : Supervisor} {id : String} {n : NodeState} {now : Nat} {reason : FailoverReason}
  {excluded : Option String}

/-! ## Joining and beating -/

/-- The master is the same, nodes that were known are marked as they were, and new ones are not marked. -/
structure KeepsMaster (s t : Supervisor) : Prop where
  master : t.master = s.master
  marked : ∀ id n, s.nodes.get? id = some n → ∃ m, t.nodes.get? id = some m ∧ m.isMaster = n.isMaster
  unmarked : ∀ id m, s.nodes.get? id = none → t.nodes.get? id = some m → m.isMaster = false

theorem keepsMaster_register (s : Supervisor) (context : NodeContext) : s.KeepsMaster (s.register context) where
  master := by
    unfold register
    split <;> rfl
  marked k n hn := by
    rw [get?_register]
    split
    · exact ⟨_, rfl, by rw [hn]; rfl⟩
    · exact ⟨n, hn, rfl⟩
  unmarked k m hk hm := by
    rw [get?_register, hk] at hm
    split at hm
    · cases hm
      rfl
    · cases hm

theorem keepsMaster_heartbeat (s : Supervisor) (id : String) (now : Nat) : s.KeepsMaster (s.heartbeat id now).2 where
  master := by
    unfold heartbeat
    split <;> rfl
  marked k n hn := by
    rw [get?_heartbeat]
    split
    · exact ⟨(n.heartbeat now).2, by rw [hn]; rfl, rfl⟩
    · exact ⟨n, hn, rfl⟩
  unmarked k m hk hm := by
    rw [get?_heartbeat, hk] at hm
    split at hm <;> cases hm

/-! ## Consistency -/

/-- Nodes lie under their ids. -/
def Keyed (s : Supervisor) : Prop := ∀ id n, s.nodes.get? id = some n → n.context.id = id

/-- Nodes lie under their ids, the master is one of them, and it alone is marked. -/
structure Consistent (s : Supervisor) : Prop where
  keyed : s.Keyed
  marked : ∀ id n, s.nodes.get? id = some n → (n.isMaster = true ↔ s.master = some id)
  known : ∀ id, s.master = some id → ∃ n, s.nodes.get? id = some n

/-- Nodes lie under their ids, and none is marked. -/
structure Vacant (s : Supervisor) : Prop where
  keyed : s.Keyed
  unmarked : ∀ id n, s.nodes.get? id = some n → n.isMaster = false

theorem consistent_empty (cluster : String) : ({ cluster } : Supervisor).Consistent where
  keyed _ _ h := by cases h
  marked _ _ h := by cases h
  known _ h := by cases h

theorem keyed_register (hs : s.Keyed) (context : NodeContext) : (s.register context).Keyed := by
  intro k m hm
  rw [get?_register] at hm
  split at hm
  · next hk =>
    cases hn : s.nodes.get? k <;> rw [hn] at hm <;> cases hm <;> exact hk
  · exact hs k m hm

theorem keyed_heartbeat (hs : s.Keyed) (id : String) (now : Nat) : (s.heartbeat id now).2.Keyed := by
  intro k m hm
  rw [get?_heartbeat] at hm
  split at hm
  · obtain ⟨n, hn, rfl⟩ := Option.map_eq_some_iff.1 hm
    exact hs k n hn
  · exact hs k m hm

/-- What leaves the master and the marks alone, and nodes under their ids, leaves a supervisor consistent. -/
theorem Consistent.of_keepsMaster (hs : s.Consistent) (ht : t.Keyed) (h : s.KeepsMaster t) : t.Consistent where
  keyed := ht
  marked id m hm := by
    rw [h.master]
    cases hn : s.nodes.get? id with
    | none =>
      have hnone : s.master ≠ some id := fun hmaster => by
        obtain ⟨n, hn'⟩ := hs.known id hmaster
        exact absurd (hn.symm.trans hn') (by simp)
      simp [h.unmarked id m hn hm, hnone]
    | some n =>
      obtain ⟨m', hm', hmark⟩ := h.marked id n hn
      obtain rfl : m = m' := Option.some.inj (hm.symm.trans hm')
      rw [hmark]
      exact hs.marked id n hn
  known id hid := by
    obtain ⟨n, hn⟩ := hs.known id (h.master ▸ hid)
    obtain ⟨m, hm, -⟩ := h.marked id n hn
    exact ⟨m, hm⟩

/-- Where the master alone may be marked, a known node becomes the one that is marked. -/
theorem consistent_activate (hkeyed : s.Keyed)
    (hmarked : ∀ id n, s.nodes.get? id = some n → n.isMaster = true → s.master = some id)
    (hn : s.nodes.get? id = some n) (reason : FailoverReason) : (s.activate id reason).2.Consistent where
  keyed k m hm := by
    rw [get?_activate] at hm
    obtain ⟨m₀, hm₀, rfl⟩ := Option.map_eq_some_iff.1 hm
    exact hkeyed k m₀ hm₀
  marked k m hm := by
    rw [get?_activate] at hm
    obtain ⟨m₀, hm₀, rfl⟩ := Option.map_eq_some_iff.1 hm
    have hold : m₀.isMaster = true → s.master = some k := hmarked k m₀ hm₀
    simpa using fun h hne => absurd (hold h) hne
  known k hk := by
    obtain rfl : id = k := Option.some.inj hk
    exact ⟨_, by rw [get?_activate, hn]; rfl⟩

theorem consistent_promote (hs : s.Consistent) (id : String) : (s.promote id).2.Consistent := by
  unfold promote
  split
  · next hknown =>
    obtain ⟨n, hn⟩ := Option.isSome_iff_exists.1 hknown
    exact consistent_activate hs.keyed (fun k m hm => (hs.marked k m hm).1) hn .manual
  · exact hs

/-! ## Elections -/

theorem mem_candidates_iff : n ∈ s.candidates now excluded ↔
    (∃ id, s.nodes.get? id = some n) ∧ n.isMaster = false ∧ excluded ≠ some n.context.id ∧ n.isAlive now = true := by
  simp [candidates, OrderedMap.mem_values_iff, and_assoc]

theorem mem_of_best {l : List NodeState} (h : best l = some n) : n ∈ l := by
  induction l generalizing n with
  | nil => cases h
  | cons a r ih =>
    rw [best] at h
    split at h
    · cases h
      exact List.mem_cons_self
    · next m hm =>
      cases h
      split
      · exact List.mem_cons_of_mem _ (ih hm)
      · exact List.mem_cons_self

namespace Vacant

/-- With no node marked, an election marks the node that it makes master. -/
theorem consistent_promoteNext (hs : s.Vacant) : (s.promoteNext now reason excluded).2.Consistent := by
  unfold promoteNext
  split
  · exact ⟨hs.keyed, fun id n hn => by simp [hs.unmarked id n hn], fun _ h => by cases h⟩
  · next n hn =>
    obtain ⟨⟨id, hid⟩, -⟩ := mem_candidates_iff.1 (mem_of_best hn)
    have hown : s.nodes.get? n.context.id = some n := by rw [hs.keyed id n hid, hid]
    refine consistent_activate hs.keyed (fun k m hm hmarked => ?_) hown reason
    rw [hs.unmarked k m hm] at hmarked
    cases hmarked

/-- Without a master no node is marked. -/
theorem of_consistent (hs : s.Consistent) (hm : s.master = none) : s.Vacant where
  keyed := hs.keyed
  unmarked id n hn := by
    rw [Bool.eq_false_iff, Ne, hs.marked id n hn, hm]
    exact nofun

/-- Without its mark the master leaves no node marked. -/
theorem insert {m : NodeState} (hs : s.Consistent) (hid : s.master = some id) (hn : s.nodes.get? id = some n)
    (hcontext : m.context = n.context) (hmark : m.isMaster = false) :
    ({ s with nodes := s.nodes.insert id m } : Supervisor).Vacant where
  keyed k a ha := by
    rw [OrderedMap.get?_insert] at ha
    split at ha
    · next hk =>
      cases ha
      rw [hcontext]
      exact hs.keyed k n (hk ▸ hn)
    · exact hs.keyed k a ha
  unmarked k a ha := by
    rw [OrderedMap.get?_insert] at ha
    split at ha
    · cases ha
      exact hmark
    · next hk =>
      rw [Bool.eq_false_iff, Ne, hs.marked k a ha, hid]
      exact fun h => hk (Option.some.inj h)

end Vacant

/-- The node is known and heard of often enough. -/
def Alive (s : Supervisor) (now : Nat) (id : String) : Prop :=
  ∃ n, s.nodes.get? id = some n ∧ n.isAlive now = true

def MasterIsAlive (s : Supervisor) (now : Nat) : Prop := ∃ id, s.master = some id ∧ s.Alive now id

/-- An evaluation leaves a master that is alive alone. Otherwise it elects a node other than the old master, once no
node is marked any more. -/
theorem Consistent.evaluate_cases (hs : s.Consistent) (now : Nat) :
    (s.MasterIsAlive now ∧ s.evaluate now = (none, s)) ∨
    (¬s.MasterIsAlive now ∧ ∃ (r : Supervisor) (reason : FailoverReason),
      r.Vacant ∧ r.timing? = s.timing? ∧ r.master = s.master ∧
      s.evaluate now = r.promoteNext now reason s.master) := by
  cases hm : s.master with
  | none =>
    have hnone : ¬s.MasterIsAlive now := fun ⟨id, hid, _⟩ => by simp [hm] at hid
    refine .inr ⟨hnone, s, .startup, .of_consistent hs hm, rfl, hm, ?_⟩
    rw [evaluate, hm]
  | some id =>
    obtain ⟨n, hn⟩ := hs.known id hm
    cases ha : n.isAlive now with
    | true =>
      refine .inl ⟨⟨id, hm, n, hn, ha⟩, ?_⟩
      simp only [evaluate, hm, hn, NodeState.evaluate_of_isAlive ha, OrderedMap.insert_of_get? hn]
      rw [← hm]
    | false =>
      have hlost : ¬s.MasterIsAlive now := by
        rintro ⟨id', hid', n', hn', ha'⟩
        obtain rfl : id = id' := Option.some.inj (hm.symm.trans hid')
        obtain rfl : n = n' := Option.some.inj (hn.symm.trans hn')
        exact absurd (ha.symm.trans ha') Bool.false_ne_true
      obtain ⟨by', hjudged⟩ := NodeState.evaluate_of_not_isAlive ha
      refine .inr ⟨hlost, _, .heartbeatTimeout,
        Vacant.insert (m := { n with missed := n.missed + 1, isMaster := false }) hs hm hn rfl rfl,
        timing?_insert hn rfl rfl, hm, ?_⟩
      simp only [evaluate, hm, hn, hjudged]

theorem Consistent.evaluate (hs : s.Consistent) (now : Nat) : (s.evaluate now).2.Consistent := by
  rcases hs.evaluate_cases now with ⟨-, he⟩ | ⟨-, r, reason, hr, -, -, he⟩
  · rw [he]
    exact hs
  · rw [he]
    exact hr.consistent_promoteNext

/-! ## After any calls -/

theorem Consistent.after (hs : s.Consistent) (c : Call) : (s.after c).Consistent := by
  cases c with
  | register context => exact hs.of_keepsMaster (keyed_register hs.keyed context) (keepsMaster_register s context)
  | heartbeat id now => exact hs.of_keepsMaster (keyed_heartbeat hs.keyed id now) (keepsMaster_heartbeat s id now)
  | evaluate now => exact hs.evaluate now
  | promote id => exact consistent_promote hs id

theorem consistent_run (cluster : String) (calls : List Call) : (({ cluster } : Supervisor).run calls).Consistent :=
  run_induction (consistent_empty cluster) fun _ c _ hs => hs.after c

/-- After any calls, the master is one of the nodes and it alone is marked, so that no two nodes are told to be master.
Joining and beating change neither who is master nor who is marked. -/
theorem oneMaster (cluster : String) (calls : List Call) :
    let s := ({ cluster } : Supervisor).run calls
    s.Consistent ∧
      (∀ id id', s.modeOf id = .master → s.modeOf id' = .master → id = id') ∧
      (∀ context, s.KeepsMaster (s.register context)) ∧
      ∀ id now, s.KeepsMaster (s.heartbeat id now).2 := by
  intro s
  refine ⟨consistent_run cluster calls, fun id id' hid hid' => ?_, keepsMaster_register s, keepsMaster_heartbeat s⟩
  have hmaster : ∀ id, s.modeOf id = .master → s.master = some id := by
    intro id h
    unfold modeOf at h
    split at h
    · next hid => exact of_decide_eq_true hid
    · cases h
  exact Option.some.inj ((hmaster id hid).symm.trans (hmaster id' hid'))

end Supervisor

end ManagementPlane
