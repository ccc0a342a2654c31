import ManagementPlane.Proofs.Acceptance
import ManagementPlane.Proofs.Listings

/-!
# Joining shells

* `Pass.Joined p₀ ls lost p` : from `p₀` the references `ls` have been looked up, and the entities `lost` missed;
* `Pass.ends_attachOne` : looking one more reference up;
* `Pass.ends_attachAdjuncts` : the phase that joins shells looks all references up.
-/

namespace ManagementPlane

variable {σ : Type}

namespace Plane

variable {p : Plane} {e a : Handle} {k : ObjectKind} {o o' : Object}

theorem addAdjunct_of_error (hfault : (p.read a).behaviour.attachFault = none) {er : ObjectError}
    (ho : (p.read a).attachTo (p.read e).id = .error er) :
    p.addAdjunct e k a = (.error er, p.recordHook a (.attach (p.read e).id)) := by
  unfold addAdjunct attach
  dsimp only
  rw [hfault]
  dsimp only
  rw [ho]

theorem addAdjunct_of_ok (hfault : (p.read a).behaviour.attachFault = none) (hne : a ≠ e)
    (ho : (p.read a).attachTo (p.read e).id = .ok o) (ho' : (p.read e).pushAdjunct k a = .ok o') :
    p.addAdjunct e k a = (.ok (),
      ((p.recordHook a (.attach (p.read e).id)).modify a fun _ => o).modify e fun _ => o') := by
  unfold addAdjunct attach
  dsimp only
  rw [hfault]
  dsimp only
  rw [ho]
  dsimp only
  rw [read_modify_of_ne _ hne, read_recordHook, ho']

end Plane

namespace Pass

variable {t : Task} {h : Handler σ} {n : Nat} {p₀ p q : Pass σ} {ls : List Listing} {lost : List String} {l : Listing}
  {k : ObjectKind} {id : String} {a e : Handle}

/-! ## Looking references up -/

/-- What has become of the loose shells of `p₀` in `p`, when the references `ls` have been looked up, and when the
entities `lost` have been missed. -/
structure Joined (p₀ : Pass σ) (ls : List Listing) (lost : List String) (p : Pass σ) : Prop where
  scratch : p.scratch = p₀.scratch
  size : p.plane.heap.size = p₀.plane.heap.size
  read : ∀ {k id a}, p₀.scratch.get? k id = some a → p.plane.read a = p₀.scratch.joined ls (p₀.plane.read a)
  joining : p.plane.joiningNotes = (ls.filterMap (p₀.scratch.reply? ls)).reverse ++ p₀.plane.joiningNotes
  others : p.plane.otherNotes = (lost.map (.notFound .entity)).reverse ++ p₀.plane.otherNotes

/-- Where nothing has been looked up, the shells are as they were. -/
theorem Joined.refl (h₀ : p₀.Loose n) : Joined p₀ [] [] p₀ := by
  refine ⟨rfl, rfl, fun ha => ?_, rfl, rfl⟩
  have hloose := h₀.shelf (shelf_eq_some_iff.2 ⟨_, ha, rfl⟩)
  show _ = ((p₀.plane.read _).ownedBy none).having fun _ => []
  rw [hloose.ownedBy_none, hloose.having_nil]

/-- One more reference has been looked up, and of it the handler has been told what there is to tell. -/
theorem Joined.look (hp : Joined p₀ ls lost p) (hk : l.kind.isAdjunct = true) (hscratch : q.scratch = p.scratch)
    (hsize : q.plane.heap.size = p.plane.heap.size)
    (hread : ∀ {k id a}, p₀.scratch.get? k id = some a → q.plane.read a = p₀.scratch.joined (ls ++ [l]) (p₀.plane.read a))
    (hnotes : q.plane.notes = (p₀.scratch.reply? (ls ++ [l]) l).toList ++ p.plane.notes) :
    Joined p₀ (ls ++ [l]) lost q := by
  have hreply := Scratch.isOfJoining_of_reply? p₀.scratch (ls ++ [l]) hk
  refine ⟨hscratch.trans hp.scratch, hsize.trans hp.size, hread, ?_, ?_⟩
  · rw [Scratch.replies_append_singleton, List.reverse_append, List.append_assoc, ← hp.joining, Plane.joiningNotes,
      hnotes, List.filter_append]
    cases hn : p₀.scratch.reply? (ls ++ [l]) l with
    | none => rfl
    | some note => exact congrArg (· ++ _) (List.filter_cons_of_pos (hreply note hn))
  · rw [← hp.others, Plane.otherNotes, hnotes, List.filter_append]
    cases hn : p₀.scratch.reply? (ls ++ [l]) l with
    | none => rfl
    | some note =>
      refine congrArg (· ++ _) (List.filter_cons_of_neg ?_)
      rw [hreply note hn]
      exact Bool.false_ne_true

/-- Where there is no such adjunct, the reference dangles. -/
theorem ends_attachOne_dangling (ha : h.Accepting) (h₀ : p₀.Loose n) (hp : Joined p₀ ls lost p)
    (hk : l.kind.isAdjunct = true) (hg : p₀.scratch.get? l.kind l.id = none) :
    Step.Ends (fun _ q => Joined p₀ (ls ++ [l]) lost q) (attachOne h e l.kind l.id) p := by
  refine .read_bind ?_
  rw [hp.scratch, hg]
  refine ((ends_heard (ha.dangling l.kind l.id) (.dangling l.kind l.id) p).mapStop _).imp fun _ q hq => ?_
  subst hq
  refine hp.look hk rfl rfl (fun hb => ?_) ?_
  · exact (hp.read hb).trans (Scratch.joined_append_of_passed h₀.sound (Or.inl hg) hb).symm
  · unfold Scratch.reply?
    rw [hg]
    rfl

/-! ### References to adjuncts that there are -/

section Found

variable (ha : h.Accepting) (h₀ : p₀.Loose n) (hp : Joined p₀ ls lost p) (hk : l.kind.isAdjunct = true)
  (he : p₀.scratch.get? .entity l.entity = some e) (hg : p₀.scratch.get? l.kind l.id = some a)

include h₀ hk hg

theorem Loose.isAdjunct_adjunct : (p₀.plane.read a).kind.isAdjunct = true := (h₀.sound.kind hg).symm ▸ hk

theorem Loose.adjunct_ne_entity : (p₀.plane.read a).kind ≠ .entity := by
  intro hentity
  have hadjunct := h₀.isAdjunct_adjunct hk hg
  rw [hentity] at hadjunct
  cases hadjunct

include hp

theorem Joined.read_adjunct : p.plane.read a = (p₀.plane.read a).ownedBy (Listing.owner? ls l.kind l.id) := by
  rw [hp.read hg, Scratch.joined_of_ne_entity (h₀.adjunct_ne_entity hk hg), h₀.sound.kind hg, h₀.sound.id hg]

theorem Joined.attachFault_adjunct : (p.plane.read a).behaviour.attachFault = none := by
  rw [hp.read_adjunct h₀ hk hg]
  exact (h₀.shelf (shelf_eq_some_iff.2 ⟨a, hg, rfl⟩)).attachFault (h₀.isAdjunct_adjunct hk hg)

omit hk hg in
include he in
theorem Joined.read_entity : p.plane.read e = (p₀.plane.read e).having (p₀.scratch.held ls l.entity) := by
  rw [hp.read he, Scratch.joined_entity (h₀.sound.kind he), h₀.sound.id he]

omit hk hg in
include he in
theorem Joined.id_entity : (p.plane.read e).id = l.entity := by
  rw [hp.read_entity h₀ he]
  exact h₀.sound.id he

include he

/-- An adjunct can be attached if it belongs to no other entity. -/
theorem Joined.attachTo_adjunct : (p.plane.read a).attachTo (p.plane.read e).id =
    match Listing.owner? ls l.kind l.id with
    | none => .ok ((p₀.plane.read a).ownedBy (some l.entity))
    | some other => if other = l.entity then .ok ((p₀.plane.read a).ownedBy (some l.entity))
      else .error (.reconstruct (l.id ++ " is already attached to " ++ other)) := by
  have hattach := Object.attachTo_ownedBy (w := Listing.owner? ls l.kind l.id) (h₀.isAdjunct_adjunct hk hg) l.entity
  rw [h₀.sound.id hg] at hattach
  rw [hp.read_adjunct h₀ hk hg, hp.id_entity h₀ he]
  exact hattach

include ha

/-- An adjunct that belongs to an entity that refers to it before is passed over. -/
theorem ends_attachOne_passed {other : String} (howner : Listing.owner? ls l.kind l.id = some other)
    (hne : other ≠ l.entity) : Step.Ends (fun _ q => Joined p₀ (ls ++ [l]) lost q) (attachOne h e l.kind l.id) p := by
  have hattach := hp.attachTo_adjunct h₀ hk he hg
  rw [howner] at hattach
  dsimp only at hattach
  rw [if_neg hne] at hattach
  refine .read_bind ?_
  rw [hp.scratch, hg]
  refine ends_onPlane_bind (Plane.addAdjunct_of_error (hp.attachFault_adjunct h₀ hk hg) hattach) (.read_bind ?_)
  refine (ends_heard (ha.rebindFailed _ _ _) _ _).imp fun _ q hq => ?_
  subst hq
  refine hp.look hk rfl rfl (fun hb => ?_) ?_
  · exact (hp.read hb).trans (Scratch.joined_append_of_passed h₀.sound (Or.inr ⟨other, howner, hne⟩) hb).symm
  · unfold Scratch.reply?
    rw [hg, Listing.owner?_append, howner]
    dsimp only [Option.some_or]
    rw [Option.filter_some_pos (by simpa using hne), ← hp.id_entity h₀ he]
    rfl

omit ha

/-- Of the shells, attaching an adjunct changes it and the entity that refers to it. -/
theorem Joined.read_attached (hown : Listing.owner? (ls ++ [l]) l.kind l.id = some l.entity) {b : Handle}
    (hb : p₀.scratch.get? k id = some b) (call : HookCall) :
    (((p.plane.recordHook a call).modify a fun _ => (p₀.plane.read a).ownedBy (some l.entity)).modify e fun _ =>
      (p₀.plane.read e).having fun j => if j = l.kind then p₀.scratch.held ls l.entity j ++ [a]
        else p₀.scratch.held ls l.entity j).read b = p₀.scratch.joined (ls ++ [l]) (p₀.plane.read b) := by
  have hvalid : ∀ {k id b}, p₀.scratch.get? k id = some b → p.plane.heap.Valid b := fun hb =>
    Nat.lt_of_lt_of_eq (h₀.sound.valid hb) hp.size.symm
  by_cases hbe : b = e
  · rw [hbe, Plane.read_modify_self, Scratch.joined_entity (h₀.sound.kind he), h₀.sound.id he,
      Scratch.held_append_of_owned hg hown]
    exact Heap.valid_modify.2 (hvalid he)
  · rw [Plane.read_modify_of_ne _ (Ne.symm hbe)]
    by_cases hba : b = a
    · rw [hba, Plane.read_modify_self, Scratch.joined_of_ne_entity (h₀.adjunct_ne_entity hk hg), h₀.sound.kind hg,
        h₀.sound.id hg, hown]
      exact hvalid hg
    · rw [Plane.read_modify_of_ne _ (Ne.symm hba), Plane.read_recordHook, hp.read hb]
      exact (Scratch.joined_append_of_ne h₀.sound hg he hb hba hbe).symm

/-- An adjunct belongs to this entity from now on, if it did not before and belongs to no other. -/
theorem ends_attachOne_owned (hown : Listing.owner? (ls ++ [l]) l.kind l.id = some l.entity) :
    Step.Ends (fun _ q => Joined p₀ (ls ++ [l]) lost q) (attachOne h e l.kind l.id) p := by
  have hattached : (p.plane.read a).attachTo (p.plane.read e).id =
      .ok ((p₀.plane.read a).ownedBy (some l.entity)) := by
    rw [hp.attachTo_adjunct h₀ hk he hg]
    rw [Listing.owner?_append] at hown
    cases howner : Listing.owner? ls l.kind l.id with
    | none => rfl
    | some other =>
      rw [howner, Option.some_or] at hown
      exact if_pos (Option.some.inj hown)
  have hpushed := Object.pushAdjunct_having (o := p₀.plane.read e) (f := p₀.scratch.held ls l.entity) hk a
  rw [← hp.read_entity h₀ he] at hpushed
  have hne : a ≠ e := by
    rintro rfl
    exact h₀.adjunct_ne_entity hk hg (h₀.sound.kind he)
  refine .read_bind ?_
  rw [hp.scratch, hg]
  refine ends_onPlane_bind (Plane.addAdjunct_of_ok (hp.attachFault_adjunct h₀ hk hg) hne hattached hpushed) (.pure ?_)
  refine hp.look hk rfl ?_ (fun hb => hp.read_attached h₀ hk he hg hown hb _) ?_
  · exact (Heap.size_modify _ e _).trans (Heap.size_modify _ a _)
  · unfold Scratch.reply?
    rw [hg, hown]
    dsimp only
    rw [Option.filter_some_neg (by simp)]
    rfl

end Found

theorem ends_attachOne (ha : h.Accepting) (h₀ : p₀.Loose n) (hp : Joined p₀ ls lost p) (hk : l.kind.isAdjunct = true)
    (he : p₀.scratch.get? .entity l.entity = some e) :
    Step.Ends (fun _ q => Joined p₀ (ls ++ [l]) lost q) (attachOne h e l.kind l.id) p := by
  rcases hg : p₀.scratch.get? l.kind l.id with _ | a
  · exact ends_attachOne_dangling ha h₀ hp hk hg
  · by_cases hpassed : ∃ other, Listing.owner? ls l.kind l.id = some other ∧ other ≠ l.entity
    · obtain ⟨other, howner, hne⟩ := hpassed
      exact ends_attachOne_passed ha h₀ hp hk he hg howner hne
    · refine ends_attachOne_owned h₀ hp hk he hg ?_
      rw [Listing.owner?_append, Listing.owner?_singleton, if_pos ⟨rfl, rfl⟩]
      rcases howner : Listing.owner? ls l.kind l.id with _ | other
      · rfl
      · exact congrArg some (not_not.1 fun hne => hpassed ⟨other, howner, hne⟩)

/-! ### All references -/

theorem ends_attachKind (ha : h.Accepting) (h₀ : p₀.Loose n) {m : Memento} (hk : k.isAdjunct = true)
    (he : p₀.scratch.get? .entity m.id = some e) (hp : Joined p₀ ls lost p) :
    Step.Ends (fun _ q => Joined p₀
      (ls ++ if t.settings.features.enabled k then (m.adjunctIds k).map (⟨m.id, k, ·⟩) else []) lost q)
      (attachKind t h e m k) p := by
  unfold attachKind
  split
  · refine Step.Ends.forEach (R := fun done q => Joined p₀ (ls ++ done.map (⟨m.id, k, ·⟩)) lost q)
      (fun done id _ q hq => ?_) (by rwa [List.map_nil, List.append_nil])
    rw [List.map_append, ← List.append_assoc]
    exact ends_attachOne (l := ⟨m.id, k, id⟩) ha h₀ hq hk he
  · rw [List.append_nil]
    exact .pure hp

/-- What an entity refers to is looked up if the entity has a shell; otherwise it is missed. -/
theorem ends_attachAllOf (ha : h.Accepting) (h₀ : p₀.Loose n) (m : Memento) (hp : Joined p₀ ls lost p) :
    Step.Ends (fun _ q => Joined p₀
      (ls ++ ([m].filter fun m => p₀.scratch.contains .entity m.id).flatMap (Memento.listings t.settings.features))
      (lost ++ [m.id].filter fun id => !p₀.scratch.contains .entity id) q) (attachAllOf t h m) p := by
  refine .read_bind ?_
  rw [hp.scratch]
  rcases hg : p₀.scratch.get? .entity m.id with _ | e
  · have hnone : p₀.scratch.contains .entity m.id = false := congrArg Option.isSome hg
    rw [List.filter_cons_of_neg (by rw [hnone]; exact Bool.false_ne_true), List.filter_cons_of_pos (by rw [hnone]; rfl)]
    refine (ends_heard (ha.notFound .entity m.id) (.notFound .entity m.id) p).imp fun _ q hq => ?_
    subst hq
    rw [List.filter_nil, List.flatMap_nil, List.append_nil]
    refine ⟨hp.scratch, hp.size, hp.read, hp.joining, ?_⟩
    rw [List.map_append, List.reverse_append, List.append_assoc, ← hp.others]
    rfl
  · have hsome : p₀.scratch.contains .entity m.id = true := congrArg Option.isSome hg
    rw [List.filter_cons_of_pos (p := fun m : Memento => p₀.scratch.contains .entity m.id) hsome,
      List.filter_cons_of_neg (by rw [hsome]; exact Bool.false_ne_true)]
    rw [List.filter_nil, List.filter_nil, List.append_nil, List.flatMap_singleton]
    refine Step.Ends.forEach (R := fun done q => Joined p₀ (ls ++ done.flatMap fun k =>
      if t.settings.features.enabled k then (m.adjunctIds k).map (⟨m.id, k, ·⟩) else []) lost q)
      (fun done k hk q hq => ?_) (by rwa [List.flatMap_nil, List.append_nil])
    rw [List.flatMap_append, List.flatMap_singleton, ← List.append_assoc]
    exact ends_attachKind ha h₀ ((ObjectKind.mem_adjuncts_iff k).1 hk) hg hq

/-- The phase that joins shells looks up all references of the entities that have shells, parents first, and misses the
other entities. -/
theorem ends_attachAdjuncts (ha : h.Accepting) (h₀ : p₀.Loose n) (snapshot : Snapshot) :
    Step.Ends (fun _ q => Joined p₀ (snapshot.listings t.settings.features p₀.scratch)
      (snapshot.absentees p₀.scratch) q) (attachAdjuncts t h snapshot) p₀ := by
  have hbegun : Joined p₀ [] [] p₀ := .refl h₀
  have hstart : Step.Ends (fun _ q => Joined p₀ [] [] q) (do
      enter 7
      logCourse t "associating adjuncts with entities" : PassStep σ Unit) p₀ := by
    refine Step.Ends.bind (Q := fun _ q => q = { p₀ with phase := 7 }) (.update rfl) fun _ q hq => ?_
    subst hq
    exact .read_bind (.update ⟨rfl, rfl, hbegun.read, rfl, rfl⟩)
  unfold attachAdjuncts
  rw [← bind_assoc]
  refine hstart.bind fun _ p hp => ?_
  refine Step.Ends.forEach (l := []) (R := fun done q => Joined p₀
      ((done.filter fun m => p₀.scratch.contains .entity m.id).flatMap (Memento.listings t.settings.features))
      ((done.map Memento.id).filter fun id => !p₀.scratch.contains .entity id) q) (fun done m _ q hq => ?_) hp
  rw [List.filter_append, List.flatMap_append, List.map_append, List.filter_append]
  exact ends_attachAllOf ha h₀ m hq

end Pass

end ManagementPlane
