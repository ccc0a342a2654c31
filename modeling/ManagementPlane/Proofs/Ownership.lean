import ManagementPlane.Proofs.CreationFailures
import ManagementPlane.Proofs.Joining
import ManagementPlane.Proofs.LastNotes

/-!
# To whom adjuncts belong

* `Snapshot.firstLister?` : the first entity with a shell that refers to an adjunct, where parents come first;
* `Listing.owner?_listings` : of all references that are looked up, those of this entity count;
* `Pass.untying_of_phases`, `Manager.Completed.exists_joined` : in a pass that completes, shells are loose until they are
  joined;
* `Manager.adjuncts_belong_to_their_first_listers` : so every adjunct ends up with its first entity, and the others
  are told of.
-/

namespace ManagementPlane

variable {σ : Type}

/-! ## The first entity -/

/-- The first entity with a shell that refers to an adjunct, where parents come first. -/
def Snapshot.firstLister? (snapshot : Snapshot) (features : Features) (s : Scratch) (k : ObjectKind) (id : String) :
    Option String :=
  ((sortParentFirst snapshot.entities).find? fun m =>
    s.contains .entity m.id && (features.enabled k && (m.adjunctIds k).contains id)).map Memento.id

theorem Memento.mem_listings_iff {features : Features} {m : Memento} {l : Listing} : l ∈ m.listings features ↔
    l.entity = m.id ∧ l.kind.isAdjunct = true ∧ features.enabled l.kind = true ∧ l.id ∈ m.adjunctIds l.kind := by
  unfold listings
  simp only [List.mem_flatMap, List.mem_ite_nil_right, List.mem_map, ObjectKind.mem_adjuncts_iff]
  constructor
  · rintro ⟨k, hk, hon, id, hid, rfl⟩
    exact ⟨rfl, hk, hon, hid⟩
  · rintro ⟨he, hk, hon, hid⟩
    exact ⟨l.kind, hk, hon, l.id, hid, by rw [← he]⟩

namespace Listing

variable {features : Features} {k : ObjectKind} {id entity : String} {ls : List Listing}

/-- Where only one entity refers to adjuncts, it is the first to. -/
theorem owner?_of_forall (h : ∀ l ∈ ls, l.entity = entity) :
    owner? ls k id = if ⟨entity, k, id⟩ ∈ ls then some entity else none := by
  split
  · next hmem =>
    rcases ho : owner? ls k id with _ | other
    · exact absurd ⟨rfl, rfl⟩ (owner?_eq_none_iff.1 ho _ hmem)
    · obtain ⟨l, hl, rfl⟩ := Option.map_eq_some_iff.1 ho
      rw [h l (List.mem_of_find?_eq_some hl)]
  · next hmem =>
    refine owner?_eq_none_iff.2 fun l hl ⟨hk, hid⟩ => hmem ?_
    rwa [← h l hl, ← hk, ← hid]

theorem owner?_listings_memento (hk : k.isAdjunct = true) (m : Memento) : owner? (m.listings features) k id =
    if features.enabled k && (m.adjunctIds k).contains id then some m.id else none := by
  rw [owner?_of_forall fun l hl => (Memento.mem_listings_iff.1 hl).1]
  simp only [Memento.mem_listings_iff, hk, true_and, Bool.and_eq_true, List.contains_iff_mem]

/-- Of all references that are looked up, the first to an adjunct is by the first entity that refers to it. -/
theorem owner?_listings (hk : k.isAdjunct = true) (snapshot : Snapshot) (s : Scratch) :
    owner? (snapshot.listings features s) k id = snapshot.firstLister? features s k id := by
  unfold Snapshot.listings Snapshot.firstLister?
  induction sortParentFirst snapshot.entities with
  | nil => rfl
  | cons m ms ih =>
    rw [List.filter_cons, List.find?_cons]
    cases hm : s.contains .entity m.id with
    | false => exact ih
    | true =>
      rw [if_pos rfl, List.flatMap_cons, owner?_append, owner?_listings_memento hk, Bool.true_and]
      cases hl : features.enabled k && (m.adjunctIds k).contains id with
      | false => exact ih
      | true => rfl

theorem mem_of_owner? (h : owner? ls k id = some entity) : ⟨entity, k, id⟩ ∈ ls := by
  obtain ⟨l, hl, rfl⟩ := Option.map_eq_some_iff.1 h
  have hkey := List.find?_some hl
  rw [decide_eq_true_eq] at hkey
  obtain ⟨rfl, rfl⟩ := hkey
  exact List.mem_of_find?_eq_some hl

end Listing

/-! ## The adjuncts of an entity -/

namespace Scratch

variable {s : Scratch} {n : Nat} {p : Plane} {ls : List Listing} {k : ObjectKind} {id entity : String} {a : Handle}

/-- An entity has only adjuncts of the kind. -/
theorem exists_of_mem_held (ha : a ∈ s.held ls entity k) : ∃ id, s.get? k id = some a := by
  obtain ⟨l, -, hl⟩ := List.mem_filterMap.1 ha
  split at hl
  · exact ⟨_, hl⟩
  · cases hl

/-- An adjunct is among those of its first entity once for every reference by it, and among those of no other. -/
theorem count_held (hs : s.Sound n p) (ha : s.get? k id = some a) : (s.held ls entity k).count a =
    if Listing.owner? ls k id = some entity then ls.count ⟨entity, k, id⟩ else 0 := by
  have hone : ∀ l : Listing, (if l.entity = entity ∧ l.kind = k ∧ Listing.owner? ls k l.id = some entity then
      s.get? k l.id else none) = some a ↔ l = ⟨entity, k, id⟩ ∧ Listing.owner? ls k id = some entity := by
    intro l
    constructor
    · intro hl
      split at hl
      · next hc =>
        obtain ⟨rfl, rfl, ho⟩ := hc
        obtain rfl : l.id = id := (hs.id hl).symm.trans (hs.id ha)
        exact ⟨rfl, ho⟩
      · cases hl
    · rintro ⟨rfl, ho⟩
      rw [if_pos ⟨rfl, rfl, ho⟩, ha]
  unfold held
  rw [List.count_filterMap, List.count_eq_countP]
  split
  · next ho => exact List.countP_congr fun l _ => by simp only [beq_iff_eq, hone, ho, and_true]
  · next ho => exact List.countP_eq_zero.2 fun l _ => by simp only [beq_iff_eq, hone, ho, and_false, not_false_iff]

/-- So an adjunct is among those of the entity that it belongs to, and of no other. -/
theorem mem_held_iff (hs : s.Sound n p) (ha : s.get? k id = some a) :
    a ∈ s.held ls entity k ↔ Listing.owner? ls k id = some entity := by
  rw [← List.count_pos_iff, count_held hs ha]
  split
  · next ho => exact iff_of_true (List.count_pos_iff.2 (Listing.mem_of_owner? ho)) ho
  · next ho => exact iff_of_false (Nat.lt_irrefl 0) ho

end Scratch

/-! ## Through the pass -/

namespace Object

variable {o o' : Object}

/-- The last phase leaves alone to whom an object belongs. -/
theorem Restamped.owner_eq (h : o.Restamped o') : o'.owner = o.owner := by
  have hnote : ∀ t, (o.noteManaged t).owner = o.owner := by
    intro t
    unfold owner noteManaged
    cases o.body <;> rfl
  rcases h with rfl | ⟨t, rfl⟩ | rfl
  · rfl
  · exact hnote (some t)
  · exact hnote none

end Object

namespace Pass

variable {t : Task} {p : Pass σ} {n : Notification} {snapshot : Snapshot}

theorem isOfJoining_of_failureNote {k : ObjectKind} {root : Handle} (hn : p.failureNote t snapshot k root = some n) :
    n.isOfJoining = false := by
  obtain ⟨report, -, rfl⟩ := Option.map_eq_some_iff.1 hn
  rfl

/-- The last phase joins nothing. -/
theorem isOfJoining_of_mem_lastNotes (hn : n ∈ p.lastNotes t snapshot) : n.isOfJoining = false := by
  unfold lastNotes at hn
  rw [List.mem_append, List.mem_append] at hn
  rcases hn with hn | hn | hn
  · obtain ⟨root, -, hn⟩ := List.mem_filterMap.1 hn
    exact isOfJoining_of_failureNote hn
  · obtain ⟨id, -, hn⟩ := List.mem_filterMap.1 hn
    unfold applicationNote at hn
    split at hn
    · exact Option.some.inj hn ▸ rfl
    · exact isOfJoining_of_failureNote hn
  · obtain ⟨root, -, hn⟩ := List.mem_filterMap.1 hn
    exact isOfJoining_of_failureNote hn

/-- Nothing is tied in the phases before shells are joined. -/
theorem untying_of_phases {h : Handler σ} {size : Nat} {raw raw' : RawData} {manifest : Manifest}
    {p₁ p₂ p₃ p₄ p₅ p₆ : Pass σ} (htypes : t.types.MakesLoose)
    (h₁ : (loadManifest t h).on p = (.ok (raw, manifest), p₁)) (h₂ : (rebuildCatalog t h manifest).on p₁ = (.ok (), p₂))
    (h₃ : (makeLocationsAndEntities t h manifest).on p₂ = (.ok (), p₃))
    (h₄ : (loadSnapshot h raw').on p₃ = (.ok snapshot, p₄)) (h₅ : (makeAdjuncts t h snapshot).on p₄ = (.ok (), p₅))
    (h₆ : (reconstructAll t h snapshot).on p₅ = (.ok (), p₆)) : Untying size p p₆ := by
  refine IsTrans.trans _ _ _ ((untying_loadManifest _).to h₁) ?_
  refine IsTrans.trans _ _ _ ((untying_rebuildCatalog htypes _ _).to h₂) ?_
  refine IsTrans.trans _ _ _ ((untying_makeLocationsAndEntities htypes _ _).to h₃) ?_
  refine IsTrans.trans _ _ _ ((untying_loadSnapshot _ _).to h₄) ?_
  refine IsTrans.trans _ _ _ ((untying_makeAdjuncts htypes _ _).to h₅) ?_
  exact (untying_reconstructAll _ _).to h₆

end Pass

namespace Manager

variable {m : Manager} {setup : Setup} {source : Source} {time : Nat} {h : Handler σ} {s : σ}
  {mode : ManagementMode} {o : Outcome σ} {p : Pass σ}

/-- There are no shells yet. -/
theorem loose_opening (m : Manager) (h : Handler σ) (s : σ) (mode : ManagementMode) :
    (m.opening h s mode).Loose m.plane.heap.size := by
  refine ⟨sound_opening m h s mode, fun {k id o} ho => ?_⟩
  obtain ⟨a, ha, -⟩ := Pass.shelf_eq_some_iff.1 ho
  cases k <;> cases ha

/-- In a pass that completes, shells are loose until they are joined. -/
theorem Completed.exists_joined (hp : Completed m setup source h s mode o p) (ha : h.Accepting)
    (htypes : setup.types.MakesLoose) : ∃ p₀ : Pass σ, p₀.Loose m.plane.heap.size ∧
      p₀.plane.joiningNotes = m.plane.joiningNotes ∧
      p₀.Joined (source.snapshot.listings setup.settings.features p₀.scratch) (source.snapshot.absentees p₀.scratch) p := by
  obtain ⟨p₁, p₂, p₃, p₄, p₅, p₆, -, h₁, h₂, h₃, h₄, h₅, h₆, h₇⟩ := Pass.exists_phases_of_build hp.built
  obtain ⟨hloose, hnotes⟩ := Pass.untying_of_phases htypes h₁ h₂ h₃ h₄ h₅ h₆ (loose_opening m h s mode)
  obtain ⟨_, q, hq, hjoined⟩ := Pass.ends_attachAdjuncts (t := m.task setup source mode) ha hloose source.snapshot
  obtain ⟨-, rfl⟩ := Prod.mk.inj (hq.symm.trans h₇)
  exact ⟨p₆, hloose, hnotes, hjoined⟩

/-- What is told of joining in a pass that completes is what is told of the references. -/
theorem Completed.joining_notices (hp : Completed m setup source h s mode o p)
    (ho : m.runPass setup source time h (.new mode) s = o) (ha : h.Accepting) {replies : List Notification}
    (hnotes : p.plane.joiningNotes = replies.reverse ++ m.plane.joiningNotes) :
    (o.notices m).filter Notification.isOfJoining = replies := by
  obtain ⟨_, r, hcloses, -, hall⟩ := hp.exists_closes ho ha
  obtain ⟨ending, hnotices, hending⟩ := hcloses.notices
  have hlast : ((p.lastNotes (m.task setup source mode) source.snapshot).reverse).filter Notification.isOfJoining = [] := by
    refine List.filter_eq_nil_iff.2 fun n hn => ?_
    rw [Pass.isOfJoining_of_mem_lastNotes (List.mem_reverse.1 hn)]
    exact Bool.false_ne_true
  have hjoining := congrArg (List.filter Notification.isOfJoining) hall
  rw [List.filter_append, List.filter_append, hlast, List.nil_append] at hjoining
  have hreplies := List.append_cancel_right (hjoining.trans hnotes)
  rw [hnotices, List.filter_append, List.filter_reverse, hreplies, List.reverse_reverse]
  refine (congrArg _ (List.filter_eq_nil_iff.2 fun n hn => ?_)).trans (List.append_nil _)
  rcases hending n hn with rfl | ⟨e, rfl⟩ <;> exact Bool.false_ne_true

/-- In a pass that gets through the phase in which shells are joined, with a handler that stops nothing and with types that
make loose objects, as the stock types do, an adjunct that keeps its shell comes to belong to the first entity with a
shell that refers to it, where parents come first. It is among the adjuncts of this entity once for every reference, and
among those of no other. Every other reference is told of once: that of another entity as a failure of this entity, and
that to an adjunct without a shell as dangling. So an adjunct names an entity just if it is among the adjuncts of it. -/
theorem adjuncts_belong_to_their_first_listers (ho : m.runPass setup source time h (.new mode) s = o)
    (ha : h.Accepting) (htypes : setup.types.MakesLoose) (hclosed : m.plane.Closed) (hlast : o.ReachedLastPhase) :
    (∀ k id a, k.isAdjunct = true → o.iteration.scratch.get? k id = some a →
      (o.manager.plane.read a).owner =
          source.snapshot.firstLister? setup.settings.features o.iteration.scratch k id ∧
        ∀ entity e, o.iteration.scratch.get? .entity entity = some e →
          ((o.manager.plane.read e).adjuncts k).count a =
              (if source.snapshot.firstLister? setup.settings.features o.iteration.scratch k id = some entity then
                (source.snapshot.listings setup.settings.features o.iteration.scratch).count ⟨entity, k, id⟩
              else 0) ∧
            ((o.manager.plane.read a).owner = some entity ↔ a ∈ (o.manager.plane.read e).adjuncts k)) ∧
    (∀ k entity e, k.isAdjunct = true → o.iteration.scratch.get? .entity entity = some e →
      ∀ a ∈ (o.manager.plane.read e).adjuncts k, ∃ id, o.iteration.scratch.get? k id = some a) ∧
    (o.notices m).filter Notification.isOfJoining =
      (source.snapshot.listings setup.settings.features o.iteration.scratch).filterMap
        (o.iteration.scratch.reply? (source.snapshot.listings setup.settings.features o.iteration.scratch)) := by
  obtain ⟨p, hp⟩ := exists_completed ho ha hclosed hlast
  obtain ⟨p₀, hloose, hnotes, hjoined⟩ := hp.exists_joined ha htypes
  have hs := hloose.sound
  have hscratch : o.iteration.scratch = p₀.scratch := hp.scratch.trans hjoined.scratch
  rw [hscratch]
  have howner : ∀ {k id a}, k.isAdjunct = true → p₀.scratch.get? k id = some a → (o.manager.plane.read a).owner =
      Listing.owner? (source.snapshot.listings setup.settings.features p₀.scratch) k id := by
    intro k id a hk hg
    have hkind := hs.kind hg
    refine (hp.closing.restamped a).owner_eq.trans ?_
    rw [hjoined.read hg, Scratch.joined_of_ne_entity, Object.owner_ownedBy, hkind,
      hs.id hg]
    · rwa [hkind]
    · rw [hkind]
      rintro rfl
      cases hk
  have hheld : ∀ {k entity e}, k.isAdjunct = true → p₀.scratch.get? .entity entity = some e →
      (o.manager.plane.read e).adjuncts k =
        p₀.scratch.held (source.snapshot.listings setup.settings.features p₀.scratch) entity k := by
    intro k entity e hk hg
    have hkind := hs.kind hg
    refine ((hp.closing.restamped e).adjuncts_eq k).trans ?_
    rw [hjoined.read hg, Scratch.joined_entity hkind,
      Object.adjuncts_having hkind hk, hs.id hg]
  refine ⟨fun k id a hk hg => ⟨?_, fun entity e he => ⟨?_, ?_⟩⟩, fun k entity e hk he a hmem => ?_, ?_⟩
  · rw [howner hk hg, Listing.owner?_listings hk]
  · rw [hheld hk he, Scratch.count_held hs hg, Listing.owner?_listings hk]
  · rw [howner hk hg, hheld hk he, Scratch.mem_held_iff hs hg]
  · rw [hheld hk he] at hmem
    exact Scratch.exists_of_mem_held hmem
  · exact hp.joining_notices ho ha (by rw [hjoined.joining, hnotes])

/-! ## A policy that two entities refer to -/

/-- An application and an entity of it that refer to the same policy, the application twice and to another in vain. The
entity comes first in the store. -/
def sharedPolicyStore : MemoryStore := .holding [
  (.entity, { id := "x", type := "trellis.entity.BasicEntity", parent := some "app", policies := ["p"] }),
  (.entity, { id := "app", type := "trellis.entity.BasicApplication", children := ["x"],
              policies := ["p", "ghost", "p"] }),
  (.policy, { id := "p", type := "trellis.policy.BasicPolicy" })]

/-- A pass over this store. -/
def sharedPolicyPass : Outcome Unit :=
  ({} : Manager).runPass .stock sharedPolicyStore.source 0 (.refusing []) (.new .master) ()

set_option maxRecDepth 2000 in
theorem sharedPolicyPass_shows :
    sharedPolicyPass.ReachedLastPhase ∧
    sharedPolicyPass.iteration.scratch.get? .policy "p" = some ⟨2⟩ ∧
    sharedPolicyPass.iteration.scratch.get? .entity "app" = some ⟨1⟩ ∧
    sharedPolicyPass.iteration.scratch.get? .entity "x" = some ⟨0⟩ ∧
    sharedPolicyStore.source.snapshot.firstLister? Setup.stock.settings.features sharedPolicyPass.iteration.scratch
      .policy "p" = some "app" ∧
    sharedPolicyStore.source.snapshot.listings Setup.stock.settings.features sharedPolicyPass.iteration.scratch =
      [⟨"app", .policy, "p"⟩, ⟨"app", .policy, "ghost"⟩, ⟨"app", .policy, "p"⟩, ⟨"x", .policy, "p"⟩] ∧
    [⟨"app", .policy, "p"⟩, ⟨"app", .policy, "ghost"⟩, ⟨"app", .policy, "p"⟩, ⟨"x", .policy, "p"⟩].filterMap
        (sharedPolicyPass.iteration.scratch.reply?
          [⟨"app", .policy, "p"⟩, ⟨"app", .policy, "ghost"⟩, ⟨"app", .policy, "p"⟩, ⟨"x", .policy, "p"⟩]) =
      [.dangling .policy "ghost", .rebindFailed .entity "x" (.reconstruct "p is already attached to app")] := by
  decide +kernel

/-- The application has the policy twice, and the entity below it fails to get it. -/
theorem adjuncts_belong_to_their_first_listers_sharedPolicyStore :
    (Handler.refusing []).Accepting ∧ Setup.stock.types.MakesLoose ∧ ({} : Plane).Closed ∧
      sharedPolicyPass.ReachedLastPhase ∧
      (sharedPolicyPass.manager.plane.read ⟨2⟩).owner = some "app" ∧
      ((sharedPolicyPass.manager.plane.read ⟨1⟩).adjuncts .policy).count ⟨2⟩ = 2 ∧
      ((sharedPolicyPass.manager.plane.read ⟨0⟩).adjuncts .policy).count ⟨2⟩ = 0 ∧
      (sharedPolicyPass.notices {}).filter Notification.isOfJoining =
        [.dangling .policy "ghost", .rebindFailed .entity "x" (.reconstruct "p is already attached to app")] := by
  obtain ⟨hlast, hp, happ, hx, hfirst, hlistings, hreplies⟩ := sharedPolicyPass_shows
  have ha : (Handler.refusing []).Accepting := Handler.accepting_refusing (by decide)
  have ho : ({} : Manager).runPass .stock sharedPolicyStore.source 0 (.refusing []) (.new .master) () =
    sharedPolicyPass := rfl
  obtain ⟨hbelong, -, hnotices⟩ :=
    adjuncts_belong_to_their_first_listers ho ha TypeRegistry.makesLoose_stock closed_empty hlast
  obtain ⟨howner, hlists⟩ := hbelong .policy "p" ⟨2⟩ rfl hp
  obtain ⟨hmine, -⟩ := hlists "app" ⟨1⟩ happ
  obtain ⟨hother, -⟩ := hlists "x" ⟨0⟩ hx
  rw [hfirst] at howner hmine hother
  rw [hlistings] at hmine hnotices
  rw [hreplies] at hnotices
  exact ⟨ha, TypeRegistry.makesLoose_stock, closed_empty, hlast, howner, hmine, hother, hnotices⟩

end Manager

end ManagementPlane
