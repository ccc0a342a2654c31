import ManagementPlane.Proofs.Outcome
import ManagementPlane.Proofs.Parents

/-!
# Everything is managed once, parents first

* `Scratch.ListsOwn` : a shell lists as its children only shells that name it as their parent, and ids without shells;
* `Scratch.OnTop` : the shells of applications name no parent that has a shell, as their mementos do not;
* `Pass.root_unique` : then one root only leads to a shell;
* `Manager.managed_once` : so every shell is managed once, after its parent and with the transition chosen for it;
* `Manager.shells_keep_their_parents` : the parent is the one that the shell names, whatever its memento says.
-/

namespace ManagementPlane

open Relation (ReflTransGen)

/-- Every shell that a shell lists among its children names it as its parent. -/
def Scratch.ListsOwn (s : Scratch) (p : Plane) (k : ObjectKind) : Prop :=
  ∀ a ∈ s.shells k, ∀ b ∈ s.shells k,
    (p.read b).id ∈ (p.read a).children → (p.read b).parent = some (p.read a).id

instance (s : Scratch) (p : Plane) (k : ObjectKind) : Decidable (s.ListsOwn p k) :=
  inferInstanceAs (Decidable (∀ a ∈ _, ∀ b ∈ _, _ → _))

/-- The shells of the entities in a list name no parent that has a shell. -/
def Scratch.OnTop (s : Scratch) (p : Plane) (ids : List String) : Prop :=
  ∀ id ∈ ids, ∀ a ∈ s.get? .entity id, ∀ b ∈ s.shells .entity, (p.read a).parent ≠ some (p.read b).id

instance (s : Scratch) (p : Plane) (ids : List String) : Decidable (s.OnTop p ids) :=
  inferInstanceAs (Decidable (∀ id ∈ ids, ∀ a ∈ s.get? .entity id, ∀ b ∈ s.shells .entity, _ ≠ _))

namespace Pass

variable {σ : Type} {t : Task} {n : Nat} {p q : Pass σ} {k : ObjectKind} {snapshot : Snapshot} {a b root : Handle}

theorem SameShape.listsOwn (h : SameShape p q) (k : ObjectKind) :
    q.scratch.ListsOwn q.plane k ↔ p.scratch.ListsOwn p.plane k := by
  unfold Scratch.ListsOwn
  simp only [h.scratch, h.id, h.parent, h.children]

theorem SameShape.onTop (h : SameShape p q) (ids : List String) :
    q.scratch.OnTop q.plane ids ↔ p.scratch.OnTop p.plane ids := by
  unfold Scratch.OnTop
  simp only [h.scratch, h.id, h.parent]

/-- What lies below a shell names it as its parent. -/
theorem names_of_below (hown : p.scratch.ListsOwn p.plane k) (ha : a ∈ p.scratch.shells k)
    (h : p.scratch.Below p.plane k a b) : p.scratch.Names p.plane k b a :=
  ⟨ha, h.2.elim (hown a ha b h.1) id⟩

/-- A shell names one parent at most. -/
theorem rightUnique_names (hs : p.scratch.Sound n p.plane) (k : ObjectKind) :
    Relator.RightUnique (p.scratch.Names p.plane k) := by
  rintro c a b ⟨ha, hpa⟩ ⟨hb, hpb⟩
  have hid : (p.plane.read a).id = (p.plane.read b).id := Option.some.inj (hpa.symm.trans hpb)
  exact hs.shell_ext (hs.mem_shells_iff.1 ha) (hs.mem_shells_iff.1 hb) hid

/-- Whatever a shell leads to leads back to it by the parents named. -/
theorem reaches_names (hown : p.scratch.ListsOwn p.plane k) (hr : root ∈ p.scratch.shells k)
    (h : ReflTransGen (p.scratch.Below p.plane k) root a) :
    ReflTransGen (p.scratch.Names p.plane k) a root := by
  induction h with
  | refl => exact .refl
  | tail hreach hbelow ih => exact .head (names_of_below hown (shell_of_reaches hr hreach) hbelow) ih

/-- Two shells that name no parent among the shells are one if they lead to the same shell. -/
theorem root_unique (hs : p.scratch.Sound n p.plane) (hown : p.scratch.ListsOwn p.plane k)
    {r₁ r₂ : Handle} (h₁ : r₁ ∈ p.scratch.shells k) (hroot₁ : p.isRoot k r₁)
    (h₂ : r₂ ∈ p.scratch.shells k) (hroot₂ : p.isRoot k r₂)
    (hr₁ : ReflTransGen (p.scratch.Below p.plane k) r₁ a)
    (hr₂ : ReflTransGen (p.scratch.Below p.plane k) r₂ a) : r₁ = r₂ := by
  have htop : ∀ {r s}, p.isRoot k r → ReflTransGen (p.scratch.Names p.plane k) r s → r = s := by
    intro r s hroot h
    rcases h.cases_head with he | ⟨c, hc, -⟩
    · exact he
    · exact absurd hc ((isRoot_iff hs).1 hroot c)
  rcases (reaches_names hown h₁ hr₁).total_of_right_unique (rightUnique_names hs k)
    (reaches_names hown h₂ hr₂) with h | h
  · exact htop hroot₁ h
  · exact (htop hroot₂ h).symm

/-- Then no root names a parent that has a shell. -/
theorem isRoot_of_mem_roots (hs : p.scratch.Sound n p.plane) (htop : p.scratch.OnTop p.plane snapshot.applicationIds)
    (hk : k.Registered) (hr : root ∈ p.roots snapshot k) : p.isRoot k root := by
  rcases hk with rfl | rfl
  · exact (mem_roots_location_iff.1 hr).2
  · obtain ⟨hshell, happ | hroot⟩ := (mem_roots_entity_iff hs).1 hr
    · rw [isRoot_iff hs]
      rintro b ⟨hb, hp⟩
      exact htop _ happ root (hs.mem_shells_iff.1 hshell) b hb hp
    · exact hroot

/-- So it is if shells name no parents but those of their mementos. -/
theorem onTop_of_parentsFrom {source : Source} (hparents : ParentsFrom source.snapshot p) :
    p.scratch.OnTop p.plane source.snapshot.applicationIds := by
  intro id hid a ha b _ hp
  obtain ⟨m, hm, rfl, hmp⟩ := hparents _ _ _ ha _ hp
  rw [Source.parent_of_mem_applicationIds hm hid] at hmp
  cases hmp

/-- Every shell is managed once. -/
theorem count_visits {source : Source} (hs : p.scratch.Sound n p.plane)
    (htop : p.scratch.OnTop p.plane source.snapshot.applicationIds) (hk : k.Registered)
    (hac : p.scratch.Acyclic p.plane k) (hown : p.scratch.ListsOwn p.plane k)
    (ha : a ∈ p.scratch.shells k) : (p.visits source.snapshot k).count a = 1 := by
  rw [count_visits_eq_one_iff hs hk source.applicationIds_nodup ((mem_visits_of_acyclic hs hk hac).2 ha)]
  intro r₁ hr₁ r₂ hr₂ h₁ h₂
  exact root_unique hs hown (shell_of_mem_roots hs hk hr₁) (isRoot_of_mem_roots hs htop hk hr₁)
    (shell_of_mem_roots hs hk hr₂) (isRoot_of_mem_roots hs htop hk hr₂) h₁ h₂

/-- A shell comes up in its tree after the parent it names. -/
theorem sublist_tree (hs : p.scratch.Sound n p.plane) (hown : p.scratch.ListsOwn p.plane k)
    (hr : root ∈ p.scratch.shells k) (hroot : p.isRoot k root) (hb : b ∈ p.tree k root)
    (hn : p.scratch.Names p.plane k b a) : [a, b].Sublist (p.tree k root) := by
  obtain ⟨before, after, hsplit⟩ := List.append_of_mem hb
  rcases Plane.treeOrder_origin _ _ hsplit with rfl | ⟨c, hc, hchild⟩
  · exact absurd hn ((isRoot_iff hs).1 hroot a)
  · have hmem : c ∈ p.tree k root := by
      rw [hsplit]
      exact List.mem_append_left _ hc
    have hshell : c ∈ p.scratch.shells k := shell_of_reaches hr ((mem_tree_iff hs hr).1 hmem)
    have hbelow := (child_family_iff hs hshell).1 hchild
    obtain rfl := rightUnique_names hs k hn (names_of_below hown hshell hbelow)
    rw [hsplit]
    exact (List.singleton_sublist.2 hc).append (List.singleton_sublist.2 List.mem_cons_self)

/-- Every shell is managed after the parent it names. -/
theorem sublist_visits {source : Source} (hs : p.scratch.Sound n p.plane)
    (htop : p.scratch.OnTop p.plane source.snapshot.applicationIds) (hk : k.Registered)
    (hac : p.scratch.Acyclic p.plane k) (hown : p.scratch.ListsOwn p.plane k)
    (hb : b ∈ p.scratch.shells k) (hn : p.scratch.Names p.plane k b a) :
    [a, b].Sublist (p.visits source.snapshot k) := by
  obtain ⟨root, hr, hbr⟩ := List.mem_flatMap.1 ((mem_visits_of_acyclic hs hk hac).2 hb)
  obtain ⟨before, after, hsplit⟩ := List.append_of_mem hr
  have htree := sublist_tree hs hown (shell_of_mem_roots hs hk hr)
    (isRoot_of_mem_roots hs htop hk hr) hbr hn
  apply htree.trans
  unfold visits
  rw [hsplit, List.flatMap_append, List.flatMap_cons]
  exact (List.sublist_append_left _ _).trans (List.sublist_append_right _ _)

end Pass

namespace Manager

variable {σ : Type} {m : Manager} {setup : Setup} {source : Source} {time : Nat} {h : Handler σ} {s : σ}
  {mode : ManagementMode} {o : Outcome σ} {p : Pass σ}

/-- Where types make isolated objects, no shell of a pass names a parent that its memento does not. -/
theorem Completed.parentsFrom (hp : Completed m setup source h s mode o p)
    (htypes : setup.types.MakesIsolated) : Pass.ParentsFrom source.snapshot p := by
  have hs := sound_opening m h s mode
  have hstart : Pass.ParentsFrom source.snapshot (m.opening h s mode) := by
    intro k id a ha
    cases k <;> cases ha
  exact Pass.parentsFrom_of_turns (t := m.task setup source mode) htypes hs hstart hp.turns

/-- If no parents form a cycle, shells list only their own children, and no shell of an application names a parent that
has a shell, then a pass that gets through its last phase manages every shell of a location or entity once, after the
parent that it names, and with the transition chosen by the last one of its id before the pass and by the mode. The
registry keeps that transition. -/
theorem managed_once (ho : m.runPass setup source time h (.new mode) s = o) (ha : h.Accepting)
    (hclosed : m.plane.Closed) (hlast : o.ReachedLastPhase)
    (htop : o.iteration.scratch.OnTop o.manager.plane source.snapshot.applicationIds)
    (hac : ∀ k, k.Registered → o.iteration.scratch.Acyclic o.manager.plane k)
    (hown : ∀ k, k.Registered → o.iteration.scratch.ListsOwn o.manager.plane k) :
    ∀ k, k.Registered → ∃ calls, o.manager.plane.managedCalls k = m.plane.managedCalls k ++ calls ∧
      (∀ a, (calls.map Prod.fst).count a = if a ∈ o.iteration.scratch.shells k then 1 else 0) ∧
      (∀ b ∈ o.iteration.scratch.shells k, ∀ a,
        o.iteration.scratch.Names o.manager.plane k b a → [a, b].Sublist (calls.map Prod.fst)) ∧
      ∀ c ∈ calls,
        c.2 = setup.transitions k (o.manager.plane.read c.1).id
          ((m.plane.registry k).lastTransition? (o.manager.plane.read c.1).id) mode.isReadOnly ∧
        (o.manager.plane.registry k).objects.get? (o.manager.plane.read c.1).id = some ⟨c.1, c.2⟩ := by
  obtain ⟨p, hp⟩ := exists_completed ho ha hclosed hlast
  intro k hk
  have hs := hp.sound
  have hshape := hp.closing.sameShape
  have htop := (hshape.onTop _).1 htop
  have hac := (hshape.acyclic k).1 (hac k hk)
  have hown := (hshape.listsOwn k).1 (hown k hk)
  have hid : ∀ a, (o.manager.plane.read a).id = (p.plane.read a).id := hshape.id
  have hnames : o.iteration.scratch.Names o.manager.plane k = p.scratch.Names p.plane k := hshape.names k
  have hcalls := hp.closing.managedCalls k hk
  obtain ⟨calls, hcallsIn⟩ : ∃ calls, calls = Plane.callsIn (Pass.chosenFor (m.task setup source mode) p k) []
    (p.visits source.snapshot k) := ⟨_, rfl⟩
  have horder : calls.map Prod.fst = p.visits source.snapshot k := by rw [hcallsIn, Plane.fst_callsIn]
  rw [← hcallsIn] at hcalls
  have hone : ∀ a ∈ p.scratch.shells k, (p.visits source.snapshot k).count a = 1 := fun a ha =>
    Pass.count_visits hs htop hk hac hown ha
  rw [hp.managedCalls] at hcalls
  rw [hnames, hp.scratch]
  refine ⟨calls, hcalls, fun a => ?_, fun b hb a hn => ?_, fun c hc => ?_⟩
  · rw [horder]
    split
    · next ha => exact hone a ha
    · next ha => exact List.count_eq_zero_of_not_mem fun hv => ha (Pass.shell_of_mem_visits hs hk hv)
  · rw [horder]
    exact Pass.sublist_visits hs htop hk hac hown hb hn
  · have hv : c.1 ∈ p.visits source.snapshot k := horder ▸ List.mem_map_of_mem hc
    have hshell := Pass.shell_of_mem_visits hs hk hv
    have hmode := Plane.snd_of_mem_callsIn (hcallsIn ▸ hc) List.not_mem_nil (hone _ hshell)
    have hentry := hp.closing.entered k hk c.1 hv
    rw [Pass.settledMode, if_pos (hone _ hshell), ← Pass.chosenFor, ← hmode] at hentry
    rw [hid]
    refine ⟨?_, hentry⟩
    rw [hmode, Pass.chosenFor, hp.chosen_eq (hs.exists_shell_iff.2 ⟨c.1, hshell, rfl⟩)]

/-! ## A standby node that is promoted -/

/-- An application and its only entity, which comes first in the store. -/
def estate : MemoryStore := .holding [
  (.entity, { id := "part", type := "trellis.entity.BasicEntity", parent := some "app" }),
  (.entity, { id := "app", type := "trellis.entity.BasicApplication", children := ["part"] })]

/-- A node that follows a master. -/
def followingPass : Outcome Unit :=
  ({} : Manager).runPass .stock estate.source 0 (.refusing []) (.new .hotStandby) ()

/-- The pass by which this node becomes the master. -/
def promotedPass : Outcome Unit :=
  followingPass.manager.runPass .stock estate.source 0 (.refusing []) (.new .master) ()

set_option maxRecDepth 2000 in
theorem promotedPass_shows : followingPass.ReachedLastPhase ∧ promotedPass.ReachedLastPhase ∧
    promotedPass.iteration.scratch.OnTop promotedPass.manager.plane estate.source.snapshot.applicationIds ∧
    ∀ k ∈ [ObjectKind.location, .entity],
      promotedPass.iteration.scratch.Shallow promotedPass.manager.plane k ∧
        promotedPass.iteration.scratch.ListsOwn promotedPass.manager.plane k := by
  decide +kernel

theorem managed_once_promotedPass :
    (Handler.refusing []).Accepting ∧ followingPass.manager.plane.Closed ∧ promotedPass.ReachedLastPhase ∧
      promotedPass.iteration.scratch.OnTop promotedPass.manager.plane estate.source.snapshot.applicationIds ∧
      (∀ k, k.Registered → promotedPass.iteration.scratch.Acyclic promotedPass.manager.plane k) ∧
      (∀ k, k.Registered → promotedPass.iteration.scratch.ListsOwn promotedPass.manager.plane k) ∧
      ∀ k, k.Registered → ∃ calls, promotedPass.manager.plane.managedCalls k =
          followingPass.manager.plane.managedCalls k ++ calls ∧
        (∀ a, (calls.map Prod.fst).count a =
          if a ∈ promotedPass.iteration.scratch.shells k then 1 else 0) ∧
        (∀ b ∈ promotedPass.iteration.scratch.shells k, ∀ a,
          promotedPass.iteration.scratch.Names promotedPass.manager.plane k b a →
            [a, b].Sublist (calls.map Prod.fst)) ∧
        ∀ c ∈ calls,
          c.2 = Setup.stock.transitions k (promotedPass.manager.plane.read c.1).id
            ((followingPass.manager.plane.registry k).lastTransition?
              (promotedPass.manager.plane.read c.1).id) ManagementMode.master.isReadOnly ∧
          (promotedPass.manager.plane.registry k).objects.get?
            (promotedPass.manager.plane.read c.1).id = some ⟨c.1, c.2⟩ := by
  obtain ⟨hfirst, hlast, htop, hshells⟩ := promotedPass_shows
  have ha : (Handler.refusing []).Accepting := Handler.accepting_refusing (by decide)
  have hclosed : followingPass.manager.plane.Closed := closed_of_runPass rfl ha closed_empty hfirst
  have hac : ∀ k, k.Registered →
      promotedPass.iteration.scratch.Acyclic promotedPass.manager.plane k :=
    fun k hk => (hshells k hk.mem).1.acyclic
  have hown : ∀ k, k.Registered →
      promotedPass.iteration.scratch.ListsOwn promotedPass.manager.plane k :=
    fun k hk => (hshells k hk.mem).2
  exact ⟨ha, hclosed, hlast, htop, hac, hown, managed_once (o := promotedPass) rfl ha hclosed hlast htop hac hown⟩

/-! ## Shells with other parents than their mementos -/

/-- A node that knows two types of entities that cannot be populated. Those of the second come with a parent. -/
def stubborn : Setup := { Setup.stock with
  types := (TypeRegistry.stock.register
      (.watched "w.E" .entity .entity { reconstructFault := some (.reconstruct "stuck") } none none)).register {
    name := "w.C"
    kind := .entity
    recipe := .canonical fun spec => .ok { Object.blank .entity spec.id spec.type with
      behaviour := { reconstructFault := some (.reconstruct "stuck") }
      body := .entity { parent := some "app" } } } }

/-- Two applications, of which one comes with the other as its parent. -/
def adoptedStore : MemoryStore := .holding [
  (.entity, { id := "app", type := "trellis.entity.BasicApplication" }),
  (.entity, { id := "ward", type := "w.C" })]

/-- An entity that is stored under a parent but cannot be populated. The parent comes later in the store, and is stored
under a parent that is not there. -/
def forsakenStore : MemoryStore := .holding [
  (.entity, { id := "child", type := "w.E", parent := some "part" }),
  (.entity, { id := "part", type := "trellis.entity.BasicEntity", parent := some "gone" })]

/-- A pass of a stubborn standby node. -/
def stubbornPass (store : MemoryStore) : Outcome Unit :=
  ({} : Manager).runPass stubborn store.source 0 (.refusing []) (.new .hotStandby) ()

/-- The entities that a pass has managed, in order, and the transitions. -/
def managedEntities (o : Outcome Unit) : List (String × Transition) :=
  (o.manager.plane.managedCalls .entity).map fun c => ((o.manager.plane.read c.1).id, c.2)

set_option maxRecDepth 2000 in
theorem stubbornPass_shows : (∀ store ∈ [adoptedStore, forsakenStore], (stubbornPass store).ReachedLastPhase ∧
    ∀ k ∈ [ObjectKind.location, .entity],
      (stubbornPass store).iteration.scratch.Shallow (stubbornPass store).manager.plane k ∧
        (stubbornPass store).iteration.scratch.ListsOwn (stubbornPass store).manager.plane k) ∧
    managedEntities (stubbornPass adoptedStore) =
      [("app", .rebindingReadOnly), ("ward", .rebindingReadOnly), ("ward", .rebindingCreating)] ∧
    managedEntities (stubbornPass forsakenStore) = [("child", .rebindingReadOnly), ("part", .rebindingReadOnly)] ∧
    (forsakenStore.source.snapshot.entities.get? "child").bind Memento.parent = some "part" := by
  decide +kernel

/-- Where an entity cannot be populated, the parent of its shell is not that of its memento. An application that came with
a parent is managed twice, with its parent and as an application, and the transition chosen for it is at hand the first
time only. An entity that came without one is managed before the parent that its memento names. -/
theorem shells_keep_their_parents :
    (Handler.refusing []).Accepting ∧ ({} : Plane).Closed ∧
      (∀ store ∈ [adoptedStore, forsakenStore], (stubbornPass store).ReachedLastPhase ∧
        (∀ k, k.Registered → (stubbornPass store).iteration.scratch.Acyclic (stubbornPass store).manager.plane k) ∧
        ∀ k, k.Registered → (stubbornPass store).iteration.scratch.ListsOwn (stubbornPass store).manager.plane k) ∧
      managedEntities (stubbornPass adoptedStore) =
        [("app", .rebindingReadOnly), ("ward", .rebindingReadOnly), ("ward", .rebindingCreating)] ∧
      (forsakenStore.source.snapshot.entities.get? "child").bind Memento.parent = some "part" ∧
      managedEntities (stubbornPass forsakenStore) =
        [("child", .rebindingReadOnly), ("part", .rebindingReadOnly)] := by
  obtain ⟨hpasses, hadopted, hforsaken, hparent⟩ := stubbornPass_shows
  refine ⟨Handler.accepting_refusing (by decide), closed_empty, fun store hstore => ?_, hadopted, hparent, hforsaken⟩
  obtain ⟨hlast, hshells⟩ := hpasses store hstore
  exact ⟨hlast, fun k hk => (hshells k hk.mem).1.acyclic, fun k hk => (hshells k hk.mem).2⟩

end Manager

end ManagementPlane
