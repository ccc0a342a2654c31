import ManagementPlane.Proofs.Making
import ManagementPlane.Proofs.Recording

/-!
# Courses of a pass

What a pass has on record of the shells that it has tried to make since some point.

* `Event.createFailed?`, `Event.manageFailed?` : the notifications of objects that could not be made or managed;
* `Event.treats?` : the object that an event takes for made: one that could not be populated, joined or managed, or one
  that is joined with an entity;
* `Plane.Discreet` : nothing of this kind is put on record;
* `Pass.Course n types tried p q` : from `p` to `q` the pass has tried to make the shells in `tried`. Those that could
  not be made are on record as such, each once, and nothing else came of them;
* `Pass.Course.append`, `Pass.course_forEach` : one course and then another, and loops that try different shells.
-/

namespace ManagementPlane

variable {σ : Type}

/-! ## Failures on record -/

/-- The object that the event says could not be made. -/
def Event.createFailed? : Event → Option (ObjectKind × String)
  | .notified (.createFailed k id _ _) => some (k, id)
  | _ => none

/-- The object that the event says could not be managed, and the failure. -/
def Event.manageFailed? : Event → Option (ObjectKind × String × ObjectError)
  | .notified (.manageFailed k id e) => some (k, id, e)
  | _ => none

/-- The object that the event takes for made. -/
def Event.treats? : Event → Option (ObjectKind × String)
  | .notified (.rebindFailed k id _) => some (k, id)
  | .notified (.manageFailed k id _) => some (k, id)
  | .hook _ _ k id (.attach _) => some (k, id)
  | _ => none

/-- No object failed to be made or managed by this event, and none is taken for made. -/
structure Event.Neutral (e : Event) : Prop where
  created : e.createFailed? = none
  managed : e.manageFailed? = none
  treated : e.treats? = none

/-- The objects that the events since `p` say could not be made. -/
def Plane.failuresSince (q p : Plane) : List (ObjectKind × String) := (q.since p).filterMap Event.createFailed?

/-- The objects that the events since `p` take for made. -/
def Plane.treatedSince (q p : Plane) : List (ObjectKind × String) := (q.since p).filterMap Event.treats?

/-! ## What comes with an object -/

/-- The kind and id of an object. -/
def Plane.face (p : Plane) (a : Handle) : ObjectKind × String := ((p.read a).kind, (p.read a).id)

namespace Plane

variable {p q r : Plane} {a b : Handle}

theorem since_of_events_eq {l : List Event} (h : q.events = p.events ++ l) : q.since p = l := by
  rw [since, h, List.drop_left]

theorem since_record (p : Plane) (e : Event) : (p.record e).since p = [e] := since_of_events_eq (events_record p e)

theorem failuresSince_trans (h₁ : p.events <+: q.events) (h₂ : q.events <+: r.events) :
    r.failuresSince p = q.failuresSince p ++ r.failuresSince q := by
  rw [failuresSince, since_trans h₁ h₂, List.filterMap_append, failuresSince, failuresSince]

theorem treatedSince_trans (h₁ : p.events <+: q.events) (h₂ : q.events <+: r.events) :
    r.treatedSince p = q.treatedSince p ++ r.treatedSince q := by
  rw [treatedSince, since_trans h₁ h₂, List.filterMap_append, treatedSince, treatedSince]

/-- From `p` to `q` only neutral events were put on record. -/
def Discreet (p q : Plane) : Prop := ∃ l, q.events = p.events ++ l ∧ ∀ e ∈ l, e.Neutral

namespace Discreet

theorem of_events_eq (h : q.events = p.events) : Discreet p q :=
  ⟨[], by rw [h, List.append_nil], fun _ he => nomatch he⟩

theorem refl (p : Plane) : Discreet p p := of_events_eq rfl

theorem trans (h₁ : Discreet p q) (h₂ : Discreet q r) : Discreet p r := by
  obtain ⟨l₁, hq, hl₁⟩ := h₁
  obtain ⟨l₂, hr, hl₂⟩ := h₂
  refine ⟨l₁ ++ l₂, by rw [hr, hq, List.append_assoc], fun e he => ?_⟩
  exact (List.mem_append.1 he).elim (hl₁ e) (hl₂ e)

theorem record (h : Discreet p q) {e : Event} (he : e.Neutral) : Discreet p (q.record e) :=
  h.trans ⟨[e], q.events_record e, fun _ he' => List.mem_singleton.1 he' ▸ he⟩

theorem modify (h : Discreet p q) (a : Handle) (f : Object → Object) : Discreet p (q.modify a f) :=
  h.trans (of_events_eq rfl)

theorem setRegistry (h : Discreet p q) (k : ObjectKind) (r : Registry) : Discreet p (q.setRegistry k r) :=
  h.trans (of_events_eq (events_setRegistry q k r))

/-- Calling a hook other than that of joining an entity. -/
theorem recordHook (h : Discreet p q) (a : Handle) {c : HookCall} (hc : ∀ entity, c ≠ .attach entity) :
    Discreet p (q.recordHook a c) := by
  refine h.record ⟨rfl, rfl, ?_⟩
  cases c with
  | attach entity => exact absurd rfl (hc entity)
  | _ => rfl

theorem grows (h : Discreet p q) : p.events <+: q.events := by
  obtain ⟨l, hq, -⟩ := h
  rw [hq]
  exact List.prefix_append _ _

theorem neutral (h : Discreet p q) : ∀ e ∈ q.since p, e.Neutral := by
  obtain ⟨l, hq, hl⟩ := h
  rw [since_of_events_eq hq]
  exact hl

theorem failuresSince (h : Discreet p q) : q.failuresSince p = [] :=
  List.filterMap_eq_nil_iff.2 fun e he => (h.neutral e he).created

theorem treatedSince (h : Discreet p q) : q.treatedSince p = [] :=
  List.filterMap_eq_nil_iff.2 fun e he => (h.neutral e he).treated

end Discreet

/-- Changing an object in a way that keeps its adjuncts keeps those of every object. -/
theorem adjuncts_modify (p : Plane) (h : Handle) {f : Object → Object}
    (hf : ∀ k, (f (p.read h)).adjuncts k = (p.read h).adjuncts k) (a : Handle) (k : ObjectKind) :
    ((p.modify h f).read a).adjuncts k = (p.read a).adjuncts k := by
  rcases p.read_modify_cases h f a with hread | ⟨rfl, hread⟩ <;> rw [hread]
  exact hf k

end Plane

namespace Pass

variable {t : Task} {h : Handler σ} {n : Nat} {types : TypeRegistry} {tried tried' : List (ObjectKind × String)}
  {p q r : Pass σ}

/-! ## Courses -/

/-- The object had a shell in `p`, or it is one of those tried since then and not on record in `q` as a failure. -/
def Came (tried : List (ObjectKind × String)) (p q : Pass σ) (x : ObjectKind × String) : Prop :=
  p.scratch.contains x.1 x.2 = true ∨ x ∈ tried ∧ x ∉ q.plane.failuresSince p.plane

/-- From `p` to `q` the pass has tried to make the shells in `tried`. Those that could not be made are on record as
such, in order. Where types make objects of the kind they declare, all other shells, and all objects that are taken for
made or newly come to belong to an entity, had shells before or have been made. -/
structure Course (n : Nat) (types : TypeRegistry) (tried : List (ObjectKind × String)) (p q : Pass σ) : Prop where
  building : Building n p q
  events : p.plane.events <+: q.plane.events
  unmanaged : ∀ e ∈ q.plane.since p.plane, e.manageFailed? = none
  failures : (q.plane.failuresSince p.plane).Sublist tried
  treated : types.KeepsKinds → ∀ x ∈ q.plane.treatedSince p.plane, Came tried p q x
  shells : types.KeepsKinds → ∀ k id, q.scratch.contains k id = true → Came tried p q (k, id)
  holds : types.KeepsKinds → ∀ a b, (q.plane.read a).Holds b →
    (p.plane.read a).Holds b ∨ types.Gives b ∨ q.plane.heap.Valid b ∧ Came tried p q (q.plane.face b)

theorem Came.mono {x : ObjectKind × String} (h : Came tried p q x) (hsub : tried.Sublist tried') :
    Came tried' p q x := h.imp_right fun ⟨hx, hnot⟩ => ⟨hsub.subset hx, hnot⟩

namespace Course

theorem mono (h : Course n types tried p q) (hsub : tried.Sublist tried') : Course n types tried' p q where
  building := h.building
  events := h.events
  unmanaged := h.unmanaged
  failures := h.failures.trans hsub
  treated htypes x hx := (h.treated htypes x hx).mono hsub
  shells htypes k id hk := (h.shells htypes k id hk).mono hsub
  holds htypes a b hab := (h.holds htypes a b hab).imp_right fun hb => hb.imp_right fun hb => ⟨hb.1, hb.2.mono hsub⟩

/-- A change that puts nothing of note on record. -/
theorem of_discreet (hb : Building n p q) (hd : p.plane.Discreet q.plane)
    (hshells : ∀ k id, q.scratch.contains k id = true → p.scratch.contains k id = true)
    (hholds : ∀ a b, (q.plane.read a).Holds b → (p.plane.read a).Holds b) : Course n types [] p q where
  building := hb
  events := hd.grows
  unmanaged e he := (hd.neutral e he).managed
  failures := by rw [hd.failuresSince]
  treated _ x hx := by
    rw [hd.treatedSince] at hx
    cases hx
  shells _ k id hk := Or.inl (hshells k id hk)
  holds _ a b hab := Or.inl (hholds a b hab)

theorem refl (types : TypeRegistry) (hs : p.scratch.Sound n p.plane) : Course n types [] p p :=
  of_discreet (.refl hs) (.refl _) (fun _ _ h => h) fun _ _ h => h

/-- What came up to `q` or after `q` came since `p`. -/
theorem came_trans (h₁ : Course n types tried p q) (h₂ : Course n types tried' q r) (hd : tried.Disjoint tried')
    (htypes : types.KeepsKinds) {x : ObjectKind × String} (hx : Came tried p q x ∨ Came tried' q r x) :
    Came (tried ++ tried') p r x := by
  have hcases : Came tried p q x ∨ x ∈ tried' ∧ x ∉ r.plane.failuresSince q.plane := by
    rcases hx with hx | hx | hx
    · exact Or.inl hx
    · exact Or.inl (h₁.shells htypes x.1 x.2 hx)
    · exact Or.inr hx
  unfold Came
  rw [Plane.failuresSince_trans h₁.events h₂.events, List.mem_append, List.mem_append, not_or]
  rcases hcases with (hx | ⟨hx, hnot⟩) | ⟨hx, hnot⟩
  · exact Or.inl hx
  · exact Or.inr ⟨Or.inl hx, hnot, fun hf => hd hx (h₂.failures.subset hf)⟩
  · exact Or.inr ⟨Or.inr hx, fun hf => hd (h₁.failures.subset hf) hx, hnot⟩

/-- One course and then another, in which other shells are tried. -/
theorem append (h₁ : Course n types tried p q) (h₂ : Course n types tried' q r) (hd : tried.Disjoint tried') :
    Course n types (tried ++ tried') p r where
  building := h₁.building.trans h₂.building
  events := h₁.events.trans h₂.events
  unmanaged e he := by
    rw [Plane.since_trans h₁.events h₂.events] at he
    exact (List.mem_append.1 he).elim (h₁.unmanaged e) (h₂.unmanaged e)
  failures := by
    rw [Plane.failuresSince_trans h₁.events h₂.events]
    exact h₁.failures.append h₂.failures
  treated htypes x hx := by
    rw [Plane.treatedSince_trans h₁.events h₂.events, List.mem_append] at hx
    exact h₁.came_trans h₂ hd htypes (hx.imp (h₁.treated htypes x) (h₂.treated htypes x))
  shells htypes k id hk := h₁.came_trans h₂ hd htypes (Or.inr (h₂.shells htypes k id hk))
  holds htypes a b hab := by
    rcases h₂.holds htypes a b hab with hab | hgives | ⟨hv, hb⟩
    · rcases h₁.holds htypes a b hab with hab | hgives | ⟨hv, hb⟩
      · exact Or.inl hab
      · exact Or.inr (Or.inl hgives)
      · have hsame := h₂.building.extend.identity b hv
        have hface : r.plane.face b = q.plane.face b := Prod.ext hsame.kind hsame.id
        exact Or.inr (Or.inr ⟨h₂.building.extend.valid hv, h₁.came_trans h₂ hd htypes (Or.inl (hface ▸ hb))⟩)
    · exact Or.inr (Or.inl hgives)
    · exact Or.inr (Or.inr ⟨hv, h₁.came_trans h₂ hd htypes (Or.inr hb)⟩)

/-- A course in which nothing is tried may follow. -/
theorem minor (h₁ : Course n types tried p q) (h₂ : Course n types [] q r) : Course n types tried p r := by
  have h := h₁.append h₂ (List.disjoint_nil_right _)
  rwa [List.append_nil] at h

/-- A course in which nothing is tried may come first. -/
theorem of_minor (h₁ : Course n types [] p q) (h₂ : Course n types tried q r) : Course n types tried p r :=
  h₁.append h₂ (List.disjoint_nil_left _)

theorem sound (h : Course n types tried p q) : q.scratch.Sound n q.plane := h.building.sound

end Course

/-- A loop that tries different shells one after the other. -/
theorem course_forEach {α : Type} {items : List α} {step : α → PassStep σ Unit}
    {attempts : α → List (ObjectKind × String)} (hnd : (items.flatMap attempts).Nodup)
    (hstep : ∀ a ∈ items, ∀ p q : Pass σ, p.scratch.Sound n p.plane → (step a).on p = (.ok (), q) →
      Course n types (attempts a) p q)
    (hs : p.scratch.Sound n p.plane) (hq : (Step.forEach items step).on p = (.ok (), q)) :
    Course n types (items.flatMap attempts) p q := by
  induction items generalizing p with
  | nil =>
    obtain rfl : p = q := (Prod.mk.inj hq).2
    exact .refl types hs
  | cons a items ih =>
    rw [List.flatMap_cons, List.nodup_append] at hnd
    obtain ⟨_, u, ha, hrest⟩ := Step.on_bind_eq_ok_iff.1 hq
    have hone := hstep a List.mem_cons_self p u hs ha
    rw [List.flatMap_cons]
    exact hone.append (ih hnd.2.1 (fun b hb => hstep b (List.mem_cons_of_mem _ hb)) hone.sound hrest)
      fun x hx hx' => hnd.2.2 x hx x hx' rfl

end Pass

end ManagementPlane
