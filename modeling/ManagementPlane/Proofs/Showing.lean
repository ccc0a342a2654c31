import ManagementPlane.Proofs.Shelf
import Mathlib.Algebra.Order.Group.Multiset

/-!
# What a pass shows, whatever the order

* `Showing`, `Pass.showing` : the state of every shell by kind and id, and how often the handler was told what;
* `Treatment` : what becomes of one shell, and what is told of it;
* `Showing.treatAll` : one shell after the other is treated;
* `Showing.treatAll_perm` : if they differ, their order does not matter.
-/

namespace ManagementPlane

variable {σ : Type}

/-- The states of shells by kind and id, and what the handler was told, in whatever order. -/
@[ext] structure Showing where
  shelf : ObjectKind × String → Option Object
  told : Multiset Notification

/-- What becomes of a shell or of its absence, and what is told of it. -/
structure Treatment where
  key : ObjectKind × String
  effect : Option Object → Option Object
  notes : Option Object → List Notification

namespace Showing

variable {v : Showing} {x y : Treatment} {l l' : List Treatment}

/-- A shell is treated. -/
def treat (v : Showing) (x : Treatment) : Showing where
  shelf := Function.update v.shelf x.key (x.effect (v.shelf x.key))
  told := x.notes (v.shelf x.key) + v.told

/-- Shells are treated one after the other. -/
def treatAll (v : Showing) (l : List Treatment) : Showing := l.foldl treat v

/-- The handler is told something. -/
def hear (v : Showing) (l : List Notification) : Showing := { v with told := l + v.told }

theorem treatAll_append (v : Showing) (l l' : List Treatment) :
    v.treatAll (l ++ l') = (v.treatAll l).treatAll l' := List.foldl_append

/-- Two treatments of different shells do not interfere. -/
theorem treat_comm (h : x.key ≠ y.key) (v : Showing) : (v.treat x).treat y = (v.treat y).treat x := by
  refine Showing.ext ?_ ?_
  · simp only [treat, Function.update_of_ne h, Function.update_of_ne (Ne.symm h)]
    exact Function.update_comm h _ _ _
  · simp only [treat, Function.update_of_ne h, Function.update_of_ne (Ne.symm h)]
    exact add_left_comm _ _ _

/-- If all treatments concern different shells, their order does not matter. -/
theorem treatAll_perm (h : l.Perm l') (hnd : (l.map Treatment.key).Nodup) (v : Showing) :
    v.treatAll l = v.treatAll l' := by
  refine h.foldl_eq' (fun x hx y hy v => ?_) v
  by_cases hkey : x.key = y.key
  · rw [List.inj_on_of_nodup_map hnd hx hy hkey]
  · exact treat_comm hkey v

theorem hear_nil (v : Showing) : v.hear [] = v := Showing.ext rfl (zero_add _)

theorem hear_perm {notes notes' : List Notification} (h : notes.Perm notes') (v : Showing) :
    v.hear notes = v.hear notes' := congrArg (fun l : Multiset Notification => { v with told := l + v.told })
  (Multiset.coe_eq_coe.2 h)

end Showing

namespace Pass

variable {p q : Pass σ} {k : ObjectKind} {id : String}

/-- What a pass shows. -/
def showing (p : Pass σ) : Showing where
  shelf x := p.shelf x.1 x.2
  told := p.plane.notes

/-- The handler has been told something, and the shells are as before. -/
theorem showing_of_notes {l : List Notification} (hshelf : q.shelf = p.shelf)
    (hnotes : q.plane.notes = l.reverse ++ p.plane.notes) : q.showing = p.showing.hear l := by
  refine Showing.ext (funext fun x => congrFun (congrFun hshelf x.1) x.2) ?_
  show (q.plane.notes : Multiset Notification) = ↑l + ↑p.plane.notes
  rw [hnotes, Multiset.coe_add, Multiset.coe_eq_coe]
  exact (List.reverse_perm l).append_right _

/-- One shell has been treated. -/
theorem showing_of_treat {x : Treatment} (hshelf : ∀ k id, q.shelf k id =
      if x.key = (k, id) then x.effect (p.shelf x.key.1 x.key.2) else p.shelf k id)
    (hnotes : q.plane.notes = x.notes (p.shelf x.key.1 x.key.2) ++ p.plane.notes) : q.showing = p.showing.treat x := by
  refine Showing.ext (funext fun y => ?_) ?_
  · refine (hshelf y.1 y.2).trans ?_
    show _ = Function.update p.showing.shelf x.key _ y
    rw [Function.update_apply]
    exact if_congr eq_comm rfl rfl
  · show (q.plane.notes : Multiset Notification) = ↑(x.notes _) + ↑p.plane.notes
    rw [hnotes, Multiset.coe_add]
    rfl

end Pass

end ManagementPlane
