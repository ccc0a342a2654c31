import ManagementPlane.Proofs.Attempts
import ManagementPlane.Proofs.PartialReadings
import ManagementPlane.Proofs.Replay
import Mathlib.Data.Set.BooleanAlgebra
import Mathlib.Data.Set.Insert
import Mathlib.Order.CompletePartialOrder

/-!
# What is missing has been reported before

* `Explained` : of whatever a handler is told that it is missing, it has been told before that it could not be made;
* `Plane.current` : what handlers were told since the latest pass began;
* `Pass.Answered` : a kind and id for which there is a shell, or a report that it could not be made;
* `Pass.Frank h G p q` : what was answered in `p` is answered in `q`, outside `G`, and what is missing is explained;
* `Pass.answered_of_makeShell` : whatever is tried is answered;
* `Pass.frank_forEach_apart`, `Pass.frank_forEach` : loops over what has been answered.
-/

namespace ManagementPlane

variable {σ α : Type}

/-! ## Notifications -/

/-- The object that could not be made. -/
def Notification.createFailed? : Notification → Option (ObjectKind × String)
  | .createFailed k id _ _ => some (k, id)
  | _ => none

/-- The object that is missing. -/
def Notification.notFound? : Notification → Option (ObjectKind × String)
  | .notFound k id => some (k, id)
  | _ => none

def Notification.isStart : Notification → Bool
  | .start _ => true
  | _ => false

/-- Of notifications, the latest first: what is missing could not be made, as an earlier one says. -/
def Explained (notes : List Notification) : Prop :=
  ∀ later n earlier x, notes = later ++ n :: earlier → n.notFound? = some x →
    x ∈ earlier.filterMap Notification.createFailed?

theorem explained_nil : Explained [] := fun later n earlier _ h _ => by simp at h

theorem explained_cons {n : Notification} {notes : List Notification} : Explained (n :: notes) ↔
    (∀ x, n.notFound? = some x → x ∈ notes.filterMap Notification.createFailed?) ∧ Explained notes := by
  constructor
  · refine fun h => ⟨fun x hx => h [] n notes x rfl hx, fun later m earlier x he hx => ?_⟩
    exact h (n :: later) m earlier x (by rw [he, List.cons_append]) hx
  · rintro ⟨hn, hnotes⟩ later m earlier x he hx
    rcases List.append_eq_cons_iff.1 he.symm with ⟨-, he⟩ | ⟨later', rfl, he⟩
    · obtain ⟨rfl, rfl⟩ := List.cons.inj he
      exact hn x hx
    · exact hnotes later' m earlier x (List.cons.inj he).2 hx

namespace Plane

variable {p q : Plane}

/-- What handlers were told since the latest pass began, the latest first. -/
def current (p : Plane) : List Notification := p.notes.takeWhile fun n => !n.isStart

/-- What handlers were told since the latest pass began that could not be made. -/
def failed (p : Plane) : List (ObjectKind × String) := p.current.filterMap Notification.createFailed?

theorem current_of_notes (new : List Notification) (hq : q.notes = new ++ p.notes)
    (hnew : ∀ n ∈ new, n.isStart = false) : q.current = new ++ p.current := by
  rw [current, hq, List.takeWhile_append_of_pos fun n hn => by rw [hnew n hn]; rfl]
  rfl

end Plane

namespace Pass

variable {t : Task} {h : Handler σ} {G G' : Set (ObjectKind × String)} {p q r : Pass σ} {k : ObjectKind}
  {id type : String} {x : ObjectKind × String}

/-! ## Frankness -/

/-- There is a shell of this kind and id, or a report that it could not be made. -/
def Answered (p : Pass σ) (x : ObjectKind × String) : Prop :=
  p.scratch.contains x.1 x.2 = true ∨ x ∈ p.plane.failed

/-- From `p` to `q` no pass begins, and whatever was answered is answered, unless it is in `G`. If what was missing is
explained up to `p`, it is up to `q`. The handler holds what it makes of what it is told. -/
structure Frank (h : Handler σ) (G : Set (ObjectKind × String)) (p q : Pass σ) : Prop where
  grows : ∃ new, q.plane.notes = new ++ p.plane.notes ∧ (∀ n ∈ new, n.isStart = false) ∧
    q.handler = h.heard new p.handler
  answered : ∀ x, x ∉ G → p.Answered x → q.Answered x
  explained : Explained p.plane.current → Explained q.plane.current

namespace Frank

theorem mono (hpq : Frank h G p q) (hsub : G ⊆ G') : Frank h G' p q :=
  ⟨hpq.grows, fun x hx => hpq.answered x fun hmem => hx (hsub hmem), hpq.explained⟩

/-- Nothing is told, and shells outside `G` stay. -/
theorem of_notes (hnotes : q.plane.notes = p.plane.notes) (hhandler : q.handler = p.handler)
    (hshells : ∀ x, x ∉ G → p.scratch.contains x.1 x.2 = true → q.scratch.contains x.1 x.2 = true) :
    Frank h G p q := by
  have hcurrent : q.plane.current = p.plane.current := by rw [Plane.current, hnotes, Plane.current]
  refine ⟨⟨[], hnotes, (fun _ hn => nomatch hn), hhandler⟩, fun x hx => Or.imp (hshells x hx) fun hfailed => ?_,
    fun he => ?_⟩
  · rwa [Plane.failed, hcurrent]
  · rwa [hcurrent]

/-- Something is told, and the shells are the same. -/
theorem of_cons {n : Notification} (hnotes : q.plane.notes = n :: p.plane.notes) (hscratch : q.scratch = p.scratch)
    (hhandler : q.handler = h.hear n p.handler) (hstart : n.isStart = false)
    (hn : ∀ x, n.notFound? = some x → x ∈ p.plane.failed) : Frank h G p q := by
  have hnew : ∀ m ∈ [n], m.isStart = false := fun m hm => List.mem_singleton.1 hm ▸ hstart
  have hcurrent : q.plane.current = n :: p.plane.current := Plane.current_of_notes [n] hnotes hnew
  refine ⟨⟨[n], hnotes, hnew, hhandler⟩, fun x _ => Or.imp (fun hx => ?_) fun hx => ?_, fun he => ?_⟩
  · rwa [hscratch]
  · rw [Plane.failed, hcurrent]
    exact ((List.sublist_cons_self _ _).filterMap _).subset hx
  · rw [hcurrent]
    exact explained_cons.2 ⟨hn, he⟩

end Frank

instance : Std.Refl (Frank h G) := ⟨fun _ => .of_notes rfl rfl fun _ _ hx => hx⟩

instance : IsTrans (Pass σ) (Frank h G) where
  trans p q r h₁ h₂ := by
    obtain ⟨new₁, hq, hnew₁, hheard₁⟩ := h₁.grows
    obtain ⟨new₂, hr, hnew₂, hheard₂⟩ := h₂.grows
    refine ⟨⟨new₂ ++ new₁, by rw [hr, hq, List.append_assoc], fun n hn => ?_, ?_⟩,
      fun x hx hp => h₂.answered x hx (h₁.answered x hx hp), fun he => h₂.explained (h₁.explained he)⟩
    · exact (List.mem_append.1 hn).elim (hnew₂ n) (hnew₁ n)
    · rw [hheard₂, hheard₁]
      exact (h.heard_append _ _ _).symm

/-! ## Notifications -/

theorem frank_tell {ε : Type} {n : Notification} (hstart : n.isStart = false)
    (hn : ∀ x, n.notFound? = some x → x ∈ p.plane.failed) {answer : Step σ ε Unit}
    (hheard : ∀ s, (answer.on s).2 = h.hear n s) : Step.Moves (Frank h G) (tell n answer) p := by
  unfold Step.Moves
  rw [on_tell]
  exact .of_cons rfl rfl (hheard _) hstart hn

theorem frank_problem {ε : Type} {n : Notification} (hstart : n.isStart = false) (hn : n.notFound? = none)
    {answer : Step σ ε Unit} (hheard : ∀ s, (answer.on s).2 = h.hear n s) :
    Step.Moves (Frank h G) (tell n answer) p :=
  frank_tell hstart (fun x hx => by rw [hn] at hx; cases hx) hheard

/-- What has been answered is missing only if it could not be made. -/
theorem frank_notFound (ha : p.Answered (k, id)) (hnone : p.scratch.get? k id = none) :
    Step.Moves (Frank h G) (notFound h k id) p := by
  refine frank_tell rfl (fun x hx => ?_) fun _ => rfl
  obtain rfl := Option.some.inj hx
  refine ha.resolve_left fun hc => ?_
  rw [Scratch.contains_eq_isSome, hnone] at hc
  cases hc

theorem frank_loadFailed (k : ObjectKind) (message : String) (e : StoreError) (p : Pass σ) :
    Step.Moves (Frank h G) ((listener h).loadFailed k message e) p := frank_problem rfl rfl fun _ => rfl

theorem frank_dangling (k : ObjectKind) (id : String) (p : Pass σ) :
    Step.Moves (Frank h G) ((listener h).dangling k id) p := frank_problem rfl rfl fun _ => rfl

theorem frank_rebindFailed (k : ObjectKind) (shell : Handle) (e : ObjectError) (p : Pass σ) :
    Step.Moves (Frank h G) (rebindFailed h k shell e) p := .read_bind (frank_problem rfl rfl fun _ => rfl)

theorem frank_manageFailed (k : ObjectKind) (shell : Handle) (e : ObjectError) (p : Pass σ) :
    Step.Moves (Frank h G) (manageFailed h k shell e) p := .read_bind (frank_problem rfl rfl fun _ => rfl)

/-- A change of the pass that nobody hears of and that takes no shell away. -/
theorem frank_update {f : Pass σ → Pass σ} (hnotes : (f p).plane.notes = p.plane.notes)
    (hhandler : (f p).handler = p.handler) (hscratch : (f p).scratch = p.scratch) :
    Step.Moves (Frank h G) (Step.update f : PassStep σ Unit) p :=
  .of_update (.of_notes hnotes hhandler fun _ _ hx => hscratch ▸ hx)

theorem frank_log (level : LogLevel) (message : Pass σ → String) (p : Pass σ) :
    Step.Moves (Frank h G) (log t level message) p := frank_update rfl rfl rfl

theorem frank_logCourse (message : String) (p : Pass σ) : Step.Moves (Frank h G) (logCourse t message) p :=
  .read_bind (frank_log _ _ p)

theorem frank_enter (phase : Nat) (p : Pass σ) : Step.Moves (Frank h G) (enter phase) p := frank_update rfl rfl rfl

theorem frank_onPlane {f : Pass σ → α × Plane} (hf : (f p).2.notes = p.plane.notes) :
    Step.Moves (Frank h G) (onPlane f) p := .of_total (.of_notes hf rfl fun _ _ hx => hx)

/-! ## Whatever is tried is answered -/

section Making
variable {make : Pass σ → Plane → Except ObjectError Handle × Plane}
  (hmake : Asks t k id make)
include hmake

theorem frank_makeShell (p : Pass σ) : Step.Moves (Frank h G) (makeShell h k id type make) p := by
  obtain ⟨item, candidates, d, -, hmade⟩ := hmake p
  refine (frank_onPlane ?_).bind fun made q _ => ?_
  · rw [hmade]
    exact (Instantiator.mute_makeLoaded k id item candidates d).notes p.plane
  · cases made with
    | error e => exact frank_problem rfl rfl fun _ => rfl
    | ok shell =>
      refine .of_update (.of_notes (Scratch.notes_register _ _ _) rfl fun x _ hx => ?_)
      rw [Scratch.contains_eq_isSome] at hx ⊢
      have hget : (join shell q).scratch.get? x.1 x.2 = _ := Scratch.get?_register q.scratch q.plane shell x.1 x.2
      rw [hget]
      split
      · rfl
      · exact hx

/-- When a shell has been tried, there is one or a report that it could not be made. -/
theorem answered_of_makeShell (htypes : t.types.KeepsKinds) {result : Except RebindError Unit}
    (hq : (makeShell h k id type make).on p = (result, q)) : q.Answered (k, id) := by
  obtain ⟨item, candidates, d, hd, hmade⟩ := hmake p
  unfold makeShell onPlane at hq
  rw [Step.on_total_bind] at hq
  rcases hm : make p p.plane with ⟨e | shell, plane⟩ <;> rw [hm] at hmade <;> simp only [hm] at hq
  · obtain rfl := (Prod.mk.inj hq).2
    exact Or.inr List.mem_cons_self
  · obtain rfl := (Prod.mk.inj hq).2
    obtain ⟨d', o, hd', hmakes, rfl, hheap⟩ := Instantiator.heap_of_makeLoaded hd hmade.symm
    have hread : plane.read p.plane.heap.next = { o with id, catalogItemId := item.or o.catalogItemId } := by
      rw [Plane.read, hheap, Heap.read_alloc, if_pos rfl]
    refine Or.inl ?_
    have hget : (join p.plane.heap.next { p with plane }).scratch.get? k id = _ :=
      Scratch.get?_register p.scratch plane p.plane.heap.next k id
    have hkind : (plane.read p.plane.heap.next).kind = k := by
      rw [hread]
      exact (htypes d' (hd.type d' hd').1 o hmakes).trans (hd.type d' hd').2
    have hid : (plane.read p.plane.heap.next).id = id := by rw [hread]
    rw [Scratch.contains_eq_isSome, hget, if_pos ⟨hkind, hid⟩]
    rfl

end Making

/-- When a loop has gone through that tries something for every item, all of it is answered. -/
theorem answered_of_forEach {items : List α} {step : α → PassStep σ Unit} {x : α → ObjectKind × String}
    (hfrank : ∀ a p, Step.Moves (Frank h ∅) (step a) p)
    (hstep : ∀ a p q, (step a).on p = (.ok (), q) → q.Answered (x a))
    (hq : (Step.forEach items step).on p = (.ok (), q)) : ∀ a ∈ items, q.Answered (x a) := by
  intro a ha
  obtain ⟨before, after, u, v, -, -, hone, hrest⟩ := Step.exists_of_on_forEach ha hq
  have hmoves : Step.Moves (Frank h ∅) (Step.forEach after step) v := Step.Moves.forEach (fun b _ => hfrank b) v
  have hafter := hmoves.to hrest
  exact hafter.answered _ (Set.notMem_empty _) (hstep a u v hone)

/-- A loop of which each item `a` needs `f a` to be answered and touches `g a` at most, which later items do not need. -/
theorem frank_forEach_apart {items : List α} {step : α → PassStep σ Unit} {f g : α → Set (ObjectKind × String)}
    (hapart : items.Pairwise fun a b => Disjoint (g a) (f b)) (hG : ∀ a ∈ items, g a ⊆ G)
    (hstep : ∀ a ∈ items, ∀ p, (∀ x ∈ f a, p.Answered x) → Step.Moves (Frank h (g a)) (step a) p)
    (hp : ∀ a ∈ items, ∀ x ∈ f a, p.Answered x) : Step.Moves (Frank h G) (Step.forEach items step) p := by
  induction items generalizing p with
  | nil => exact .pure () p
  | cons a items ih =>
    rw [List.pairwise_cons] at hapart
    have hone := hstep a List.mem_cons_self p (hp a List.mem_cons_self)
    rw [Step.forEach_cons]
    refine (hone.imp fun _ hq => hq.mono (hG a List.mem_cons_self)).bind fun _ q hq => ?_
    refine ih hapart.2 (fun b hb => hG b (List.mem_cons_of_mem _ hb))
      (fun b hb => hstep b (List.mem_cons_of_mem _ hb)) fun b hb x hx => ?_
    exact (hone.to hq).answered x (Set.disjoint_right.1 (hapart.1 b hb) hx) (hp b (List.mem_cons_of_mem _ hb) x hx)

/-- A loop of which each item needs one thing to be answered that no item touches. -/
theorem frank_forEach {items : List α} {step : α → PassStep σ Unit} {x : α → ObjectKind × String}
    (hG : ∀ a ∈ items, x a ∉ G) (hstep : ∀ a ∈ items, ∀ p, p.Answered (x a) → Step.Moves (Frank h G) (step a) p)
    (hp : ∀ a ∈ items, p.Answered (x a)) : Step.Moves (Frank h G) (Step.forEach items step) p :=
  frank_forEach_apart (f := fun a => {x a}) (g := fun _ => G)
    (List.pairwise_of_forall_mem_list fun _ _ b hb => Set.disjoint_singleton_right.2 (hG b hb))
    (fun _ _ => Set.Subset.rfl) (fun a ha p hp => hstep a ha p (hp _ rfl)) fun a ha _ hx => hx ▸ hp a ha

end Pass

end ManagementPlane
