import ManagementPlane.Proofs.ManagedOnce
import ManagementPlane.Proofs.Midway

/-!
# The last phase of passes that show the same

* `Pass.Mirrors.acyclic`, `Pass.Mirrors.listsOwn` : what shells show decides who names whom as parent or child;
* `Pass.Plain.lastNotes_eq`, `Pass.Plain.thriving_eq` : where hooks do nothing special, only missing applications are
  told of in the last phase;
* `Manager.Completed.registered_eq`, `Manager.Completed.shown_thriving` : what the registries and the applications show in
  the end;
* `Manager.Completed.exists_fresh` : what has been told since the pass began.
-/

namespace ManagementPlane

open Relation (TransGen)

variable {σ : Type}

namespace Object

theorem parent_bare (o : Object) : o.bare.parent = o.parent := by
  unfold bare parent
  cases o.body <;> rfl

theorem children_bare (o : Object) : o.bare.children = o.children := by
  unfold bare children
  cases o.body <;> rfl

end Object

namespace Pass

variable {n : Nat} {p q : Pass σ} {k : ObjectKind} {id : String} {a b c : Handle} {snapshot : Snapshot}

/-! ## Parents and children -/

namespace Mirrors

variable (hpq : Mirrors p q)
include hpq

theorem contains (k : ObjectKind) (id : String) : q.scratch.contains k id = p.scratch.contains k id := by
  have hsome := congrArg Option.isSome (hpq.shown k id)
  rwa [Option.isSome_map, Option.isSome_map] at hsome

/-- A shell shows the same as that of its kind and id in the other pass. -/
theorem exists_shell (hb : q.scratch.get? k id = some b) :
    ∃ a, p.scratch.get? k id = some a ∧ q.plane.shown b = p.plane.shown a := by
  have hshown := hpq.shown k id
  rw [hb] at hshown
  obtain ⟨a, ha, he⟩ := Option.map_eq_some_iff.1 hshown.symm
  exact ⟨a, ha, he.symm⟩

omit hpq in
theorem parent_of_shown (he : q.plane.shown b = p.plane.shown a) :
    (q.plane.read b).parent = (p.plane.read a).parent := by
  have hbare : (q.plane.read b).bare = (p.plane.read a).bare := congrArg Prod.fst he
  rw [← Object.parent_bare, hbare, Object.parent_bare]

omit hpq in
theorem children_of_shown (he : q.plane.shown b = p.plane.shown a) :
    (q.plane.read b).children = (p.plane.read a).children := by
  have hbare : (q.plane.read b).bare = (p.plane.read a).bare := congrArg Prod.fst he
  rw [← Object.children_bare, hbare, Object.children_bare]

section Sound
variable (hs : p.scratch.Sound n p.plane) (hs' : q.scratch.Sound n q.plane)
include hs hs'

/-- A step from a shell to its parent has its like in the other pass. -/
theorem exists_names (hb : q.scratch.get? k id = some b) (ha : p.scratch.get? k id = some a)
    (hbc : q.scratch.Names q.plane k b c) : ∃ d, p.scratch.get? k (q.plane.read c).id = some d ∧
      p.scratch.Names p.plane k a d := by
  have hc := hs'.mem_shells_iff.1 hbc.1
  obtain ⟨d, hd, -⟩ := hpq.exists_shell hc
  obtain ⟨a', ha', he⟩ := hpq.exists_shell hb
  obtain rfl : a' = a := Option.some.inj (ha'.symm.trans ha)
  refine ⟨d, hd, hs.mem_shells_iff.2 (by rwa [hs.id hd]), ?_⟩
  rw [hs.id hd, ← parent_of_shown he]
  exact hbc.2

/-- If the parents of the one pass form no cycle, neither do those of the other. -/
theorem acyclic (hac : p.scratch.Acyclic p.plane k) : q.scratch.Acyclic q.plane k := by
  intro b hb hcycle
  have hb := hs'.mem_shells_iff.1 hb
  obtain ⟨a, ha, -⟩ := hpq.exists_shell hb
  have hreach : ∀ c, TransGen (q.scratch.Names q.plane k) b c → q.scratch.get? k (q.plane.read c).id = some c ∧
      ∃ d, p.scratch.get? k (q.plane.read c).id = some d ∧ TransGen (p.scratch.Names p.plane k) a d := by
    intro c hbc
    induction hbc with
    | single hstep =>
      obtain ⟨d, hd, hname⟩ := hpq.exists_names hs hs' hb ha hstep
      exact ⟨hs'.mem_shells_iff.1 hstep.1, d, hd, .single hname⟩
    | tail _ hstep ih =>
      obtain ⟨hc, d, hd, hreach⟩ := ih
      obtain ⟨e, he, hname⟩ := hpq.exists_names hs hs' hc hd hstep
      exact ⟨hs'.mem_shells_iff.1 hstep.1, e, he, hreach.tail hname⟩
  obtain ⟨-, d, hd, hreach⟩ := hreach b hcycle
  obtain rfl : d = a := Option.some.inj (hd.symm.trans ha)
  exact hac d (hs.mem_shells_iff.2 (by rwa [hs.id ha])) hreach

/-- If the shells of the one pass list their own children, so do those of the other. -/
theorem listsOwn (hown : p.scratch.ListsOwn p.plane k) : q.scratch.ListsOwn q.plane k := by
  intro a ha b hb hlists
  have ha := hs'.mem_shells_iff.1 ha
  have hb := hs'.mem_shells_iff.1 hb
  obtain ⟨c, hc, hshown⟩ := hpq.exists_shell ha
  obtain ⟨d, hd, hshown'⟩ := hpq.exists_shell hb
  rw [parent_of_shown hshown', ← hs.id hc]
  refine hown c (hs.mem_shells_iff.2 (by rwa [hs.id hc])) d (hs.mem_shells_iff.2 (by rwa [hs.id hd])) ?_
  rwa [hs.id hd, ← children_of_shown hshown]

end Sound

end Mirrors

/-! ## What is told in the last phase -/

namespace Plain

variable (hplain : p.Plain) (hs : p.scratch.Sound n p.plane)
include hplain hs

/-- Nothing fails in the tree of a shell. -/
theorem reportOf_eq_none (t : Task) (snapshot : Snapshot) (hk : k.Registered) (ha : a ∈ p.scratch.shells k) :
    p.reportOf t snapshot k a = none := by
  refine Option.map_eq_none_iff.2 (List.findSome?_eq_none_iff.2 fun call hcall => ?_)
  have hmem : call.1 ∈ p.tree k a := by
    rw [← fst_traversal]
    exact List.mem_map_of_mem hcall
  have hshell := shell_of_reaches ha ((mem_tree_iff hs ha).1 hmem)
  unfold Plane.faultIn
  rw [hplain.behaviour hk (hs.mem_shells_iff.1 hshell)]
  rfl

/-- All applications that have shells come back. -/
theorem thriving_eq (t : Task) (snapshot : Snapshot) :
    p.thriving t snapshot = snapshot.applicationIds.filterMap (p.scratch.get? .entity) := by
  refine List.filter_eq_self.2 fun a ha => ?_
  obtain ⟨id, -, hg⟩ := List.mem_filterMap.1 ha
  rw [hplain.reportOf_eq_none hs t snapshot (Or.inr rfl) (hs.mem_shells_iff.2 (by rwa [hs.id hg]))]
  rfl

/-- Only missing applications are told of. -/
theorem lastNotes_eq (t : Task) (snapshot : Snapshot) : p.lastNotes t snapshot =
    (snapshot.applicationIds.filter fun id => !p.scratch.contains .entity id).map (.notFound .entity) := by
  have hnone : ∀ {k} {roots : List Handle}, k.Registered → (∀ a ∈ roots, a ∈ p.scratch.shells k) →
      roots.filterMap (p.failureNote t snapshot k) = [] := fun hk hroots => by
    refine List.filterMap_eq_nil_iff.2 fun a ha => ?_
    unfold failureNote
    rw [hplain.reportOf_eq_none hs t snapshot hk (hroots a ha)]
    rfl
  have hlocations : (p.roots snapshot .location).filterMap (p.failureNote t snapshot .location) = [] :=
    hnone (Or.inl rfl) fun a ha => shell_of_mem_roots hs (Or.inl rfl) ha
  have horphans : (p.orphans snapshot).filterMap (p.failureNote t snapshot .entity) = [] :=
    hnone (Or.inr rfl) fun a ha => (List.mem_filter.1 ha).1
  unfold lastNotes
  rw [hlocations, horphans, List.nil_append, List.append_nil]
  rw [← List.filterMap_eq_map, List.filterMap_filter]
  refine List.filterMap_congr fun id _ => ?_
  unfold applicationNote
  have hcontains : p.scratch.contains .entity id = (p.scratch.get? .entity id).isSome := rfl
  rw [hcontains]
  rcases hg : p.scratch.get? .entity id with _ | a
  · rfl
  · dsimp only
    unfold failureNote
    rw [hplain.reportOf_eq_none hs t snapshot (Or.inr rfl) (hs.mem_shells_iff.2 (by rwa [hs.id hg]))]
    rfl

end Plain

end Pass

namespace Manager

variable {m : Manager} {setup : Setup} {source : Source} {time : Nat} {h : Handler σ} {s : σ} {mode : ManagementMode}
  {o : Outcome σ} {p : Pass σ} {k : ObjectKind} {id : String} {a : Handle}

/-- The transition that a pass chooses for an id, and the shell that shows `w` before it is managed. -/
def settled (m : Manager) (setup : Setup) (mode : ManagementMode) (k : ObjectKind) (id : String)
    (w : Object × (ObjectKind → List Object)) : (Object × (ObjectKind → List Object)) × Transition :=
  let t := setup.transitions k id ((m.plane.registry k).lastTransition? id) mode.isReadOnly
  ((w.1.setReadOnly t.isReadOnly, w.2), t)

namespace Completed

variable (hp : Completed m setup source h s mode o p)
include hp

/-- What a registry shows in the end of what shells showed before the last phase. -/
theorem registered_eq (hplain : p.Plain) (hk : k.Registered)
    (hone : ∀ a ∈ p.scratch.shells k, (p.visits source.snapshot k).count a = 1) (id : String) :
    ((o.manager.plane.registry k).objects.get? id).map (fun e => (o.manager.plane.shown e.object, e.mode)) =
      ((p.scratch.get? k id).map p.plane.shown).map (m.settled setup mode k id) := by
  rcases hg : p.scratch.get? k id with _ | a
  · have hnone := hp.closing.absent k hk id hg
    exact congrArg (Option.map _) hnone
  · obtain rfl := hp.sound.id hg
    have hshell := hp.sound.mem_shells_iff.2 hg
    have hmem : a ∈ p.visits source.snapshot k := List.count_pos_iff.1 (by rw [hone a hshell]; exact Nat.one_pos)
    have hmode : Pass.settledMode (m.task setup source mode) p k (p.visits source.snapshot k) a =
        setup.transitions k (p.plane.read a).id ((m.plane.registry k).lastTransition? (p.plane.read a).id)
          mode.isReadOnly := by
      unfold Pass.settledMode
      rw [if_pos (hone a hshell), hp.chosen_eq (hp.sound.exists_shell_iff.2 ⟨a, hshell, rfl⟩)]
    have hentered := hp.closing.entered k hk a hmem
    have hread := hp.closing.readManaged k hk a hmem
    rw [hmode] at hentered hread
    refine (congrArg (Option.map _) hentered).trans (congrArg some (Prod.ext (Prod.ext ?_ (funext fun j => ?_)) rfl))
    · exact (congrArg Object.bare hread).trans (Object.bare_managedWith _ _)
    · show ((o.pass.plane.read a).adjuncts j).map (fun b => (o.pass.plane.read b).bare) =
        ((p.plane.read a).adjuncts j).map fun b => (p.plane.read b).bare
      rw [hread, Object.adjuncts_managedWith]
      refine List.map_congr_left fun b hb => congrArg Object.bare ?_
      -- adjuncts are shells, and are not managed
      obtain ⟨hj, i, hi⟩ := hplain.adjuncts hg hb
      refine hp.closing.readShell b (hp.sound.fresh hi) fun k' hk' hv => ?_
      have hkind := hp.sound.kind (hp.sound.mem_shells_iff.1 (Pass.shell_of_mem_visits hp.sound hk' hv))
      rw [← hp.sound.kind hi, hkind, hk'.isAdjunct] at hj
      cases hj

/-- The applications that come back are those that the registry of entities ends up with. -/
theorem shown_thriving (hplain : p.Plain)
    (hone : ∀ a ∈ p.scratch.shells .entity, (p.visits source.snapshot .entity).count a = 1) :
    (p.thriving (m.task setup source mode) source.snapshot).map o.manager.plane.shown =
      source.snapshot.applicationIds.filterMap fun id =>
      ((o.manager.plane.registry .entity).objects.get? id).map fun e => o.manager.plane.shown e.object := by
  rw [hplain.thriving_eq hp.sound, List.map_filterMap]
  refine List.filterMap_congr fun id _ => ?_
  rcases hg : p.scratch.get? .entity id with _ | a
  · have habsent : (o.manager.plane.registry .entity).objects.get? id = none :=
      hp.closing.absent .entity (Or.inr rfl) id hg
    rw [habsent]
    rfl
  · obtain rfl := hp.sound.id hg
    have hcount := hone a (hp.sound.mem_shells_iff.2 hg)
    have hmem : a ∈ p.visits source.snapshot .entity := List.count_pos_iff.1 (by rw [hcount]; exact Nat.one_pos)
    exact (congrArg (Option.map fun e => o.manager.plane.shown e.object)
      (hp.closing.entered .entity (Or.inr rfl) a hmem)).symm

/-- What has been told since the pass began, and in which order. -/
theorem exists_fresh (hplain : p.Plain) (hstarts : p.showing.starts = (m.opening h s mode).showing.starts) :
    ∃ fresh, (p.lastNotes (m.task setup source mode) source.snapshot).reverse ++ p.plane.notes =
        fresh ++ .start mode.isReadOnly :: m.plane.notes ∧ ∀ n ∈ fresh, n.isStart = false := by
  obtain ⟨later, hlater⟩ := Pass.events_turns hp.turns
  let new := later.reverse.filterMap Event.notification?
  have hnew : p.plane.notes = new ++ .start mode.isReadOnly :: m.plane.notes := by
    have htrace := congrArg (fun l => l.reverse.filterMap Event.notification?) hlater
    rw [List.reverse_append, List.filterMap_append, Plane.events, Plane.events, List.reverse_reverse,
      List.reverse_reverse] at htrace
    exact htrace.symm
  refine ⟨(p.lastNotes (m.task setup source mode) source.snapshot).reverse ++ new, by rw [hnew, List.append_assoc],
    fun n hn => ?_⟩
  rcases List.mem_append.1 hn with hn | hn
  · rw [List.mem_reverse, hplain.lastNotes_eq hp.sound] at hn
    obtain ⟨id, -, rfl⟩ := List.mem_map.1 hn
    rfl
  · have hfilter : Multiset.filter (fun n => n.isStart) (p.plane.notes : Multiset Notification) =
        Multiset.filter (fun n => n.isStart) ↑(Notification.start mode.isReadOnly :: m.plane.notes) := hstarts
    rw [hnew, ← Multiset.coe_add, Multiset.filter_add, add_eq_right, Multiset.filter_eq_nil] at hfilter
    exact Bool.eq_false_iff.2 (hfilter n (Multiset.mem_coe.2 hn))

end Completed

end Manager

end ManagementPlane
