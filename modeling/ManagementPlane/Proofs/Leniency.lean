import ManagementPlane.Pass.Management
import ManagementPlane.Proofs.Acceptance

/-!
# A lenient handler in place of another

* `Step.Follows y x` : wherever the step `x` goes through, so does `y`, to the same end;
* `Handler.lenient` : the handler that makes the same of what it is told, and stops nothing;
* `Pass.follows_manageAll` : where a handler lets the last phase go through, the lenient one does the same.
-/

namespace ManagementPlane

namespace Step

variable {σ τ ε α β : Type}

/-! ## Steps that go through where another does -/

/-- Wherever the step `x` goes through, so does `y`, to the same end. -/
def Follows (y x : Step σ ε α) : Prop := ∀ s a t, x.on s = (.ok a, t) → y.on s = (.ok a, t)

namespace Follows

theorem refl (x : Step σ ε α) : Follows x x := fun _ _ _ hx => hx

theorem bind {x y : Step σ ε α} {f g : α → Step σ ε β} (hx : Follows y x) (hf : ∀ a, Follows (g a) (f a)) :
    Follows (y >>= g) (x >>= f) := by
  intro s b u h
  obtain ⟨a, t, hon, h⟩ := on_bind_eq_ok_iff.1 h
  have hy : y.on s = (.ok a, t) := hx s a t hon
  have hg : (g a).on t = (.ok b, u) := hf a t b u h
  exact on_bind_eq_ok_iff.2 ⟨a, t, hy, hg⟩

theorem forEach {items : List α} {f g : α → Step σ ε Unit} (hf : ∀ a, Follows (g a) (f a)) :
    Follows (Step.forEach items g) (Step.forEach items f) := by
  induction items with
  | nil => exact .refl _
  | cons a items ih => exact (hf a).bind fun _ => ih

theorem within {get : τ → σ} {set : σ → τ → τ} {x y : Step σ ε α} (hx : Follows y x) :
    Follows (Step.within get set y) (Step.within get set x) := by
  intro t a u h
  rw [on_within] at h ⊢
  rcases hon : x.on (get t) with ⟨e | b, s⟩
  · rw [hon] at h
    cases h
  · rw [hon] at h
    rw [hx _ b s hon]
    exact h

end Follows

/-- The step without its stops: where `x` stops, `tolerate x` goes through and leaves the state as `x` does. -/
def tolerate (x : Step σ ε Unit) : Step σ ε Unit := Step.total fun s => ((), (x.on s).2)

theorem goesOn_tolerate (x : Step σ ε Unit) : x.tolerate.GoesOn := fun s => ⟨(), (x.on s).2, rfl⟩

theorem follows_tolerate (x : Step σ ε Unit) : Follows x.tolerate x := by
  intro s a t h
  show (Except.ok (), (x.on s).2) = _
  rw [h]

end Step

/-! ## The lenient handler -/

namespace Handler

variable {σ : Type}

/-- The handler that makes the same of what it is told, and stops nothing. -/
def lenient (h : Handler σ) : Handler σ := { h with
  loadFailed := fun kind message e => (h.loadFailed kind message e).tolerate
  dangling := fun kind id => (h.dangling kind id).tolerate
  createFailed := fun kind id type e => (h.createFailed kind id type e).tolerate
  notFound := fun kind id => (h.notFound kind id).tolerate
  rebindFailed := fun kind id e => (h.rebindFailed kind id e).tolerate
  manageFailed := fun kind id e => (h.manageFailed kind id e).tolerate }

theorem accepting_lenient (h : Handler σ) : h.lenient.Accepting where
  loadFailed _ _ _ := Step.goesOn_tolerate _
  dangling _ _ := Step.goesOn_tolerate _
  createFailed _ _ _ _ := Step.goesOn_tolerate _
  notFound _ _ := Step.goesOn_tolerate _
  rebindFailed _ _ _ := Step.goesOn_tolerate _
  manageFailed _ _ _ := Step.goesOn_tolerate _

end Handler

namespace Pass

open Step (Follows)

variable {σ : Type} (t : Task) (h : Handler σ)

/-! ## The last phase -/

theorem follows_tell {ε : Type} (n : Notification) {answer answer' : Step σ ε Unit}
    (ha : Follows answer' answer) : Follows (tell n answer') (tell n answer) :=
  (Follows.refl _).bind fun _ => .within ha

theorem follows_notFound (k : ObjectKind) (id : String) : Follows (notFound h.lenient k id) (notFound h k id) :=
  follows_tell _ (Step.follows_tolerate _)

theorem follows_manageRoot (k : ObjectKind) (children : OrderedMap String (List Handle)) (root : Handle) :
    Follows (manageRoot h.lenient k children root) (manageRoot h k children root) := by
  refine (Follows.refl _).bind fun result => ?_
  cases result with
  | ok count => exact .refl _
  | error e =>
    have hfailed : Follows (manageFailed h.lenient k root e) (manageFailed h k root e) :=
      (Follows.refl _).bind fun _ => follows_tell _ (Step.follows_tolerate _)
    exact hfailed.bind fun _ => .refl _

theorem follows_manageRoots (k : ObjectKind) (children : OrderedMap String (List Handle)) (roots : List Handle) :
    Follows (manageRoots h.lenient k children roots) (manageRoots h k children roots) :=
  .forEach fun root => (follows_manageRoot h k children root).bind fun _ => .refl _

theorem follows_manageApplications (children : OrderedMap String (List Handle)) (ids : List String) :
    Follows (manageApplications h.lenient children ids) (manageApplications h children ids) := by
  induction ids with
  | nil => exact .refl _
  | cons id ids ih =>
    refine (Follows.refl _).bind fun shell => ?_
    cases shell with
    | none => exact (follows_notFound h .entity id).bind fun _ => ih
    | some entity =>
      refine (follows_manageRoot h .entity children entity).bind fun managed => ?_
      exact ih.bind fun _ => .refl _

theorem follows_manageLocations : Follows (manageLocations t h.lenient) (manageLocations t h) := by
  refine (Follows.refl _).bind fun _ => (Follows.refl _).bind fun old => ?_
  refine (Follows.refl _).bind fun children => (Follows.refl _).bind fun roots => ?_
  exact (follows_manageRoots h .location children roots).bind fun _ => .refl _

theorem follows_manageEntities (snapshot : Snapshot) :
    Follows (manageEntities t h.lenient snapshot) (manageEntities t h snapshot) := by
  refine (Follows.refl _).bind fun _ => (Follows.refl _).bind fun old => ?_
  refine (Follows.refl _).bind fun children => (Follows.refl _).bind fun orphans => ?_
  refine (follows_manageApplications h children _).bind fun applications => ?_
  exact (follows_manageRoots h .entity children orphans).bind fun _ => .refl _

/-- Where a handler lets the last phase go through, the lenient one does the same. -/
theorem follows_manageAll (snapshot : Snapshot) :
    Follows (manageAll t h.lenient snapshot) (manageAll t h snapshot) := by
  refine (Follows.refl _).bind fun _ => ?_
  refine (follows_manageLocations t h).bind fun _ => ?_
  exact (follows_manageEntities t h snapshot).bind fun _ => .refl _

end Pass

end ManagementPlane
