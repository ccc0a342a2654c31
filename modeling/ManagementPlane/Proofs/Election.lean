import ManagementPlane.Proofs.Mastership
import Mathlib.Data.Prod.Lex
import Mathlib.Data.String.Basic

/-!
# Who is elected

* `NodeContext.rank` : what elections go by, the priority and then the id;
* `Supervisor.Leads` : a node is alive and ranks before every other node that is;
* `Supervisor.Evaluation` : what an evaluation may come to, and `Supervisor.Consistent.evaluation` that it does;
* `Supervisor.electsLeader` : after any calls, an evaluation leaves a master that is alive or no node that is, keeps a
  master that is alive, elects the one leader otherwise, and has nothing left to do at the same instant.
-/

namespace ManagementPlane

/-- What elections go by: the priority, and the id of nodes of one priority. -/
def NodeContext.rank (c : NodeContext) : ℕ ×ₗ String := toLex (c.priority, c.id)

namespace Supervisor

variable {s t : Supervisor} {id : String} {n : NodeState} {now : Nat} {reason : FailoverReason}
  {excluded : Option String}

/-! ## The best of several nodes -/

theorem precedes_iff {a b : NodeContext} : precedes a b = true ↔ a.rank < b.rank := by
  rw [NodeContext.rank, NodeContext.rank, Prod.Lex.toLex_lt_toLex]
  simp [precedes]

theorem id_eq_of_rank_eq {a b : NodeContext} (h : a.rank = b.rank) : a.id = b.id :=
  congrArg (fun r => (ofLex r).2) h

theorem best_eq_none_iff {l : List NodeState} : best l = none ↔ l = [] := by
  cases l with
  | nil => exact ⟨fun _ => rfl, fun _ => rfl⟩
  | cons a r =>
    rw [best]
    split <;> simp

theorem rank_le_of_best {l : List NodeState} {m : NodeState} (h : best l = some m) :
    ∀ n ∈ l, m.context.rank ≤ n.context.rank := by
  induction l generalizing m with
  | nil => cases h
  | cons a r ih =>
    intro n hn
    rw [best] at h
    split at h
    · next hnone =>
      cases h
      rw [best_eq_none_iff.1 hnone, List.mem_singleton] at hn
      rw [hn]
    · next m' hm' =>
      cases h
      have hr := ih hm'
      split
      · next hlt =>
        rcases List.mem_cons.1 hn with rfl | hn
        · exact (precedes_iff.1 hlt).le
        · exact hr n hn
      · next hge =>
        rcases List.mem_cons.1 hn with rfl | hn
        · exact le_rfl
        · exact (not_lt.1 (mt precedes_iff.2 hge)).trans (hr n hn)

/-! ## Leaders -/

/-- The node is alive, and ranks before every other node that is. -/
def Leads (s : Supervisor) (now : Nat) (id : String) : Prop :=
  ∃ n, s.nodes.get? id = some n ∧ n.isAlive now = true ∧
    ∀ other m, other ≠ id → s.nodes.get? other = some m → m.isAlive now = true → n.context.rank < m.context.rank

theorem Leads.alive (h : s.Leads now id) : s.Alive now id := by
  obtain ⟨n, hn, ha, -⟩ := h
  exact ⟨n, hn, ha⟩

theorem Leads.unique {id' : String} (h : s.Leads now id) (h' : s.Leads now id') : id = id' := by
  by_contra hne
  obtain ⟨n, hn, ha, hbest⟩ := h
  obtain ⟨n', hn', ha', hbest'⟩ := h'
  exact lt_asymm (hbest id' n' (Ne.symm hne) hn' ha') (hbest' id n hne hn ha)

theorem exists_of_timing? (h : t.timing? = s.timing?) (hn : s.nodes.get? id = some n) :
    ∃ m, t.nodes.get? id = some m ∧ m.context = n.context ∧ m.isAlive now = n.isAlive now := by
  have hid : t.timing? id = some (n.context, n.lastHeartbeat) := by rw [h, timing?, hn]; rfl
  obtain ⟨m, hm, he⟩ := Option.map_eq_some_iff.1 hid
  obtain ⟨hcontext, hlast⟩ := Prod.mk.inj he
  exact ⟨m, hm, hcontext, by rw [NodeState.isAlive, NodeState.isAlive, hcontext, hlast]⟩

theorem Alive.of_timing? (h : t.timing? = s.timing?) (ha : s.Alive now id) : t.Alive now id := by
  obtain ⟨n, hn, ha⟩ := ha
  obtain ⟨m, hm, -, hma⟩ := exists_of_timing? h hn
  exact ⟨m, hm, hma.trans ha⟩

theorem Leads.of_timing? (h : t.timing? = s.timing?) (hl : s.Leads now id) : t.Leads now id := by
  obtain ⟨n, hn, ha, hbest⟩ := hl
  obtain ⟨m, hm, hcontext, hma⟩ := exists_of_timing? h hn
  refine ⟨m, hm, hma.trans ha, fun other m' hne hm' ha' => ?_⟩
  obtain ⟨n', hn', hcontext', hna'⟩ := exists_of_timing? h.symm hm'
  rw [hcontext, ← hcontext']
  exact hbest other n' hne hn' (hna'.trans ha')

/-- With no node marked, and none excluded that is alive, an election makes the leader master; if no node is alive
there is no master. -/
theorem Vacant.promoteNext_cases (hs : s.Vacant) (hexcluded : ∀ id, excluded = some id → ¬s.Alive now id) :
    (∃ event, s.Leads now event.promoted ∧
      s.promoteNext now reason excluded = (some event, (s.activate event.promoted reason).2)) ∨
    ((∀ id, ¬s.Alive now id) ∧ s.promoteNext now reason excluded = (none, { s with master := none })) := by
  have hmem : ∀ id n, s.nodes.get? id = some n → n.isAlive now = true → n ∈ s.candidates now excluded := by
    intro id n hn ha
    refine mem_candidates_iff.2 ⟨⟨id, hn⟩, hs.unmarked id n hn, fun he => ?_, ha⟩
    exact hexcluded _ he ⟨n, by rw [hs.keyed id n hn, hn], ha⟩
  unfold promoteNext
  cases hbest : best (s.candidates now excluded) with
  | none =>
    refine .inr ⟨fun id ⟨n, hn, ha⟩ => ?_, rfl⟩
    have hcandidate := hmem id n hn ha
    rw [best_eq_none_iff.1 hbest] at hcandidate
    cases hcandidate
  | some n =>
    obtain ⟨⟨id, hid⟩, -, -, ha⟩ := mem_candidates_iff.1 (mem_of_best hbest)
    have hown : s.nodes.get? n.context.id = some n := by rw [hs.keyed id n hid, hid]
    refine .inl ⟨_, ⟨n, hown, ha, fun other m hne hm hma => ?_⟩, rfl⟩
    have hle : n.context.rank ≤ m.context.rank := rank_le_of_best hbest m (hmem other m hm hma)
    refine lt_of_le_of_ne hle fun he => hne ?_
    show other = n.context.id
    rw [id_eq_of_rank_eq he, hs.keyed other m hm]

/-! ## What an evaluation comes to -/

/-- What an evaluation at the instant `now` may come to. -/
inductive Evaluation (s : Supervisor) (now : Nat) : Option FailoverEvent × Supervisor → Prop where
  /-- The master is alive, and nothing happens. -/
  | kept (halive : s.MasterIsAlive now) : Evaluation s now (none, s)
  /-- The leader becomes master, and this is told. -/
  | elected (event : FailoverEvent) (t : Supervisor) (hlost : ¬s.MasterIsAlive now)
      (hleads : s.Leads now event.promoted) (hmaster : t.master = some event.promoted)
      (htiming : t.timing? = s.timing?) : Evaluation s now (some event, t)
  /-- No node is alive, and none is master. -/
  | vacant (t : Supervisor) (hlost : ¬s.MasterIsAlive now) (hnone : ∀ id, ¬s.Alive now id) (hmaster : t.master = none)
      (htiming : t.timing? = s.timing?) : Evaluation s now (none, t)

theorem Consistent.evaluation (hs : s.Consistent) (now : Nat) : s.Evaluation now (s.evaluate now) := by
  rcases hs.evaluate_cases now with ⟨halive, he⟩ | ⟨hlost, r, reason, hr, htiming, hmaster, he⟩
  · rw [he]
    exact .kept halive
  · have hexcluded : ∀ id, s.master = some id → ¬r.Alive now id := fun id hid ha =>
      hlost ⟨id, hid, ha.of_timing? htiming.symm⟩
    rw [he]
    rcases hr.promoteNext_cases hexcluded with ⟨event, hleads, hp⟩ | ⟨hnone, hp⟩
    · rw [hp]
      exact .elected event _ hlost (hleads.of_timing? htiming.symm) rfl ((timing?_activate r _ reason).trans htiming)
    · rw [hp]
      exact .vacant _ hlost (fun id ha => hnone id (ha.of_timing? htiming)) rfl htiming

theorem Consistent.evaluate_of_masterIsAlive (hs : s.Consistent) (h : s.MasterIsAlive now) :
    s.evaluate now = (none, s) := by
  rcases hs.evaluate_cases now with ⟨-, he⟩ | ⟨hlost, -⟩
  · exact he
  · exact absurd h hlost

/-- With no master and no node alive, an evaluation changes nothing. -/
theorem evaluate_of_none_alive (hmaster : s.master = none) (hnone : ∀ id, ¬s.Alive now id) :
    s.evaluate now = (none, s) := by
  have hempty : s.candidates now none = [] := by
    refine List.eq_nil_iff_forall_not_mem.2 fun n hn => ?_
    obtain ⟨⟨id, hid⟩, -, -, ha⟩ := mem_candidates_iff.1 hn
    exact hnone id ⟨n, hid, ha⟩
  simp only [evaluate, hmaster, promoteNext, hempty, best]
  rw [← hmaster]

/-- A second evaluation at the same instant changes nothing. -/
theorem Consistent.evaluate_again (hs : s.Consistent) (now : Nat) :
    (s.evaluate now).2.evaluate now = (none, (s.evaluate now).2) := by
  have ht := hs.evaluate now
  have hcases := hs.evaluation now
  generalize s.evaluate now = r at ht hcases
  cases hcases with
  | kept halive => exact hs.evaluate_of_masterIsAlive halive
  | elected event t hlost hleads hmaster htiming =>
    exact ht.evaluate_of_masterIsAlive ⟨_, hmaster, hleads.alive.of_timing? htiming⟩
  | vacant t hlost hnone hmaster htiming =>
    exact evaluate_of_none_alive hmaster fun id ha => hnone id (ha.of_timing? htiming.symm)

theorem Consistent.timing?_evaluate (hs : s.Consistent) (now : Nat) : (s.evaluate now).2.timing? = s.timing? := by
  have hcases := hs.evaluation now
  generalize s.evaluate now = r at hcases
  cases hcases with
  | kept => rfl
  | elected event t hlost hleads hmaster htiming => exact htiming
  | vacant t hlost hnone hmaster htiming => exact htiming

/-- Who is master after an evaluation is alive. -/
theorem Consistent.alive_of_master_evaluate (hs : s.Consistent) (h : (s.evaluate now).2.master = some id) :
    s.Alive now id := by
  have hcases := hs.evaluation now
  generalize s.evaluate now = r at h hcases
  cases hcases with
  | kept halive =>
    obtain ⟨id', hid', ha⟩ := halive
    exact Option.some.inj (hid'.symm.trans h) ▸ ha
  | elected event t hlost hleads hmaster htiming => exact Option.some.inj (hmaster.symm.trans h) ▸ hleads.alive
  | vacant t hlost hnone hmaster htiming => exact absurd (hmaster.symm.trans h) (by simp)

/-- A new master is the leader. -/
theorem Consistent.master_evaluate_iff (hs : s.Consistent) (hlost : ¬s.MasterIsAlive now) :
    (s.evaluate now).2.master = some id ↔ s.Leads now id := by
  have hcases := hs.evaluation now
  generalize s.evaluate now = r at hcases
  cases hcases with
  | kept halive => exact absurd halive hlost
  | elected event t _ hleads hmaster htiming =>
    rw [hmaster, Option.some.injEq]
    exact ⟨fun he => he ▸ hleads, fun h => hleads.unique h⟩
  | vacant t _ hnone hmaster htiming =>
    rw [hmaster]
    exact ⟨nofun, fun h => absurd h.alive (hnone id)⟩

/-- After any calls, an evaluation ends with a master that is alive, or with none where no node is alive; a master that
is alive stays, and nothing is told; otherwise the one leader becomes master, if there is one, and this is told; and
another evaluation at the same instant changes nothing. -/
theorem electsLeader (cluster : String) (calls : List Call) (now : Nat) :
    let s := ({ cluster } : Supervisor).run calls
    let event := (s.evaluate now).1
    let t := (s.evaluate now).2
    (t.MasterIsAlive now ∨ (t.master = none ∧ ∀ id, ¬t.Alive now id)) ∧
      (s.MasterIsAlive now → t.master = s.master ∧ event = none) ∧
      (¬s.MasterIsAlive now →
        (∀ id, t.master = some id ↔ s.Leads now id) ∧ event.map FailoverEvent.promoted = t.master) ∧
      t.evaluate now = (none, t) := by
  intro s event t
  have hs : s.Consistent := consistent_run cluster calls
  have hagain : t.evaluate now = (none, t) := hs.evaluate_again now
  have hleader (hlost : ¬s.MasterIsAlive now) (id : String) : t.master = some id ↔ s.Leads now id :=
    hs.master_evaluate_iff hlost
  have hcases : s.Evaluation now (event, t) := hs.evaluation now
  clear_value event t
  cases hcases with
  | kept halive => exact ⟨.inl halive, fun _ => ⟨rfl, rfl⟩, fun hlost => absurd halive hlost, hagain⟩
  | elected event _ hlost hleads hmaster htiming =>
    have halive : t.MasterIsAlive now := ⟨_, hmaster, hleads.alive.of_timing? htiming⟩
    exact ⟨.inl halive, fun h => absurd h hlost, fun _ => ⟨hleader hlost, hmaster.symm⟩, hagain⟩
  | vacant _ hlost hnone hmaster htiming =>
    have hnone' : ∀ id, ¬t.Alive now id := fun id ha => hnone id (ha.of_timing? htiming.symm)
    exact ⟨.inr ⟨hmaster, hnone'⟩, fun h => absurd h hlost, fun _ => ⟨hleader hlost, hmaster.symm⟩, hagain⟩

end Supervisor

end ManagementPlane
