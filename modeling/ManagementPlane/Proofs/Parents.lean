import ManagementPlane.Proofs.Content

/-!
# Where the parents of shells come from

* `Pass.ParentsFrom` : a shell names a parent only if the memento of its id does;
* `Pass.parentsFrom_of_turns` : so it is until the last phase, where types make isolated objects.
-/

namespace ManagementPlane

/-- A populated object names a parent only if its memento does. -/
theorem Object.parent_of_reconstruct {known : ObjectKind → String → Bool} {m : Memento} {o o' : Object}
    (h : o.reconstruct known m = .ok o') {id : String} (hid : o'.parent = some id) :
    m.parent = some id := by
  unfold reconstruct at h
  cases hb : o.body <;> simp only [hb, Except.ok.injEq, reduceCtorEq] at h <;> subst h <;>
    simp only [parent, Body.mapAdjunct, Option.filter_eq_some_iff, reduceCtorEq] at hid
  · exact hid.1
  · exact hid.1

namespace Pass

variable {σ : Type} {t : Task} {n : Nat} {p q : Pass σ}

/-- A shell names a parent only if a memento of its kind and id in the store does. -/
def ParentsFrom (snapshot : Snapshot) (p : Pass σ) : Prop :=
  ∀ k id a, p.scratch.get? k id = some a → ∀ parent, (p.plane.read a).parent = some parent →
    ∃ m ∈ (snapshot.ofKind k).values, m.id = id ∧ m.parent = some parent

theorem parentsFrom_of_turn (htypes : t.types.MakesIsolated) (hs : p.scratch.Sound n p.plane)
    (hp : ParentsFrom t.source.snapshot p) (h : Turn t p q) : ParentsFrom t.source.snapshot q := by
  intro k id a ha parent hparent
  rcases shell_of_turn h ha with ha | ⟨d, o, hd, hmakes, hcontent⟩
  · rcases content_of_turn h (hs.valid ha) with hcontent | ⟨k', m, hm, hget, hread⟩
    · exact hp k id a ha parent ((congrArg Content.parent hcontent).symm.trans hparent)
    · obtain rfl : k' = k := (hs.kind hget).symm.trans (hs.kind ha)
      exact ⟨m, hm, (hs.id hget).symm.trans (hs.id ha), Object.parent_of_reconstruct hread hparent⟩
  · have ho : o.parent = some parent := (congrArg Content.parent hcontent).symm.trans hparent
    rw [(htypes d hd o hmakes).parent] at ho
    cases ho

/-- Until the last phase a shell names a parent only if its memento does. -/
theorem parentsFrom_of_turns (htypes : t.types.MakesIsolated) (hs : p.scratch.Sound n p.plane)
    (hp : ParentsFrom t.source.snapshot p) (h : Turns t p q) : ParentsFrom t.source.snapshot q := by
  induction h with
  | refl => exact hp
  | tail hturns hturn ih => exact parentsFrom_of_turn htypes (building_of_turns hs hturns).sound ih hturn

end Pass

end ManagementPlane
