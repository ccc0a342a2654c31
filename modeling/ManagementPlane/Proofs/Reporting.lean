import ManagementPlane.Proofs.Attempts
import ManagementPlane.Proofs.Faces
import ManagementPlane.Proofs.Renewal

/-!
# Reports of failures

* `Plane.discreet_of_handlings` : managing and dropping objects puts nothing of note on record;
* `Plane.Reports l p q` : from `p` to `q` the failures in `l` were reported, and nothing else of note was put on record.
-/

namespace ManagementPlane

namespace Plane

variable {p q : Plane} {k : ObjectKind}

/-! ## Managing and dropping -/

theorem discreet_manageNoted (p : Plane) (k : ObjectKind) (h : Handle) : p.Discreet (p.manageNoted k h).2 := by
  unfold manageNoted manageWith
  dsimp only
  refine Discreet.modify (.recordHook (.setRegistry ?_ k _) h (c := .managed _) fun _ => nofun) h _
  exact ((Discreet.refl p).setRegistry k _).modify h _

theorem discreet_of_handling (h : Handling p q) : p.Discreet q := by
  cases h with
  | manage k a => exact discreet_manageNoted p k a
  | drop k id t =>
    have hforgotten : p.Discreet (p.without k id) := (Discreet.refl p).setRegistry k _
    refine unmanage_induction hforgotten fun a => Discreet.modify ?_ a _
    exact hforgotten.recordHook a (c := .unmanaged t) fun _ => nofun

theorem discreet_of_handlings (h : Handlings p q) : p.Discreet q := by
  induction h with
  | refl => exact .refl p
  | tail _ h ih => exact ih.trans (discreet_of_handling h)

/-! ## Reports -/

/-- From `p` to `q` the failures in `l` were reported, in order. Nothing else of note was put on record. -/
structure Reports (l : List (ObjectKind × String × ObjectError)) (p q : Plane) : Prop where
  events : p.events <+: q.events
  created : ∀ e ∈ q.since p, e.createFailed? = none
  treated : ∀ e ∈ q.since p, e.treats? = e.manageFailed?.map fun f => (f.1, f.2.1)
  reported : (q.since p).filterMap Event.manageFailed? = l

theorem Discreet.reports (h : Discreet p q) : Reports [] p q where
  events := h.grows
  created e he := (h.neutral e he).created
  treated e he := by rw [(h.neutral e he).treated, (h.neutral e he).managed, Option.map_none]
  reported := List.filterMap_eq_nil_iff.2 fun e he => (h.neutral e he).managed

theorem reports_record (p : Plane) (k : ObjectKind) (id : String) (e : ObjectError) :
    Reports [(k, id, e)] p (p.record (.notified (.manageFailed k id e))) where
  events := prefix_record p _
  created e' he := by
    rw [since_record] at he
    exact List.mem_singleton.1 he ▸ rfl
  treated e' he := by
    rw [since_record] at he
    exact List.mem_singleton.1 he ▸ rfl
  reported := by
    rw [since_record]
    rfl

theorem Reports.append {r : Plane} {l l' : List (ObjectKind × String × ObjectError)} (h₁ : Reports l p q)
    (h₂ : Reports l' q r) : Reports (l ++ l') p r := by
  have hsince := since_trans h₁.events h₂.events
  refine ⟨h₁.events.trans h₂.events, fun e he => ?_, fun e he => ?_, ?_⟩
  · rw [hsince] at he
    exact (List.mem_append.1 he).elim (h₁.created e) (h₂.created e)
  · rw [hsince] at he
    exact (List.mem_append.1 he).elim (h₁.treated e) (h₂.treated e)
  · rw [hsince, List.filterMap_append, h₁.reported, h₂.reported]

/-- Something without reports may follow. -/
theorem Reports.discreet {r : Plane} {l : List (ObjectKind × String × ObjectError)} (h₁ : Reports l p q)
    (h₂ : Discreet q r) : Reports l p r := by
  have h := h₁.append h₂.reports
  rwa [List.append_nil] at h

end Plane

end ManagementPlane
