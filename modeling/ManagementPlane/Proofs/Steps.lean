import ManagementPlane.Data.Step
import Mathlib.Order.Defs.Unbundled

/-!
# Reasoning about steps

* `on_bind_eq_ok_iff`, `exists_of_on_forEach` : a sequence goes through when both parts do, and a loop with every item;
* `Moves R x s` : wherever the step `x` ends when it begins in `s`, also when it stops, `R` relates `s` to that
  state. With `R` reflexive and transitive a sequence and a loop move along `R` if their parts do;
* `Leads Q x s` : `Q` holds of what becomes of the step `x` when it begins in `s`, whether it goes through or stops;
* `Ends Q x s` : the step `x` goes through when it begins in `s`, and `Q` holds of what it yields and where it ends;
* `GoesOn x` : the step `x` never stops.
-/

namespace ManagementPlane.Step

variable {σ τ ε δ α β : Type}

theorem on_bind_eq_ok_iff {x : Step σ ε α} {f : α → Step σ ε β} {s t : σ} {b : β} :
    on (x >>= f) s = (.ok b, t) ↔ ∃ a u, on x s = (.ok a, u) ∧ on (f a) u = (.ok b, t) := by
  rw [on_bind]
  rcases on x s with ⟨_ | a, u⟩
  · simp
  · refine ⟨fun h => ⟨a, u, rfl, h⟩, ?_⟩
    rintro ⟨a', u', he, h⟩
    obtain ⟨rfl, rfl⟩ : a = a' ∧ u = u' := by simpa using he
    exact h

@[simp] theorem on_read_bind (g : σ → α) (f : α → Step σ ε β) (s : σ) :
    on (read g >>= f) s = on (f (g s)) s := rfl

@[simp] theorem on_update_bind (g : σ → σ) (f : Unit → Step σ ε β) (s : σ) :
    on (update g >>= f) s = on (f ()) (g s) := rfl

@[simp] theorem on_total_bind (g : σ → α × σ) (f : α → Step σ ε β) (s : σ) :
    on (total g >>= f) s = on (f (g s).1) (g s).2 := rfl

theorem on_of_mapStop_eq_ok {g : ε → δ} {x : Step σ ε α} {s t : σ} {a : α}
    (h : on (x.mapStop g) s = (.ok a, t)) : on x s = (.ok a, t) := by
  rw [on_mapStop] at h
  rcases hx : on x s with ⟨e | b, u⟩
  · rw [hx] at h
    cases h
  · rw [hx] at h
    simpa using h

/-- A loop that goes through gets to each of its items and on from there. -/
theorem exists_of_on_forEach {items : List α} {step : α → Step σ ε Unit} {s t : σ} {a : α} (ha : a ∈ items)
    (h : on (forEach items step) s = (.ok (), t)) : ∃ before after u v, items = before ++ a :: after ∧
      on (forEach before step) s = (.ok (), u) ∧ on (step a) u = (.ok (), v) ∧
        on (forEach after step) v = (.ok (), t) := by
  induction items generalizing s with
  | nil => cases ha
  | cons b items ih =>
    rw [forEach_cons] at h
    obtain ⟨_, r, hb, hrest⟩ := on_bind_eq_ok_iff.1 h
    rcases List.mem_cons.1 ha with rfl | ha
    · exact ⟨[], items, s, r, rfl, rfl, hb, hrest⟩
    · obtain ⟨before, after, u, v, rfl, hbefore, hrest⟩ := ih ha hrest
      refine ⟨b :: before, after, u, v, rfl, ?_, hrest⟩
      rw [forEach_cons]
      exact on_bind_eq_ok_iff.2 ⟨(), r, hb, hbefore⟩

/-! ## Moving along a relation -/

/-- Wherever the step ends when it begins in `s`, `R` relates `s` to that state. -/
def Moves (R : σ → σ → Prop) (x : Step σ ε α) (s : σ) : Prop := R s (x.on s).2

section Moves
variable {R : σ → σ → Prop} {s : σ}

theorem Moves.to {x : Step σ ε α} (h : Moves R x s) {r : Except ε α} {t : σ} (ht : on x s = (r, t)) : R s t := by
  unfold Moves at h
  rwa [ht] at h

theorem Moves.of_total {g : σ → α × σ} (h : R s (g s).2) :
    Moves R (total g : Step σ ε α) s := h

theorem Moves.of_update {g : σ → σ} (h : R s (g s)) : Moves R (update g : Step σ ε Unit) s := h

theorem Moves.mapStop {x : Step σ ε α} (g : ε → δ) (h : Moves R x s) :
    Moves R (x.mapStop g) s := by
  unfold Moves at h ⊢
  rw [on_mapStop]
  rcases hx : on x s with ⟨_ | _, t⟩
  · simpa [hx] using h
  · simpa [hx] using h

theorem Moves.read_bind {g : σ → α} {f : α → Step σ ε β} (h : Moves R (f (g s)) s) :
    Moves R (read g >>= f) s := h

theorem Moves.imp {R' : σ → σ → Prop} (himp : ∀ t, R s t → R' s t) {x : Step σ ε α}
    (h : Moves R x s) : Moves R' x s := himp _ h

variable [Std.Refl R]

theorem Moves.pure (a : α) (s : σ) : Moves R (Pure.pure a : Step σ ε α) s := Std.Refl.refl (r := R) s

theorem Moves.stop (e : ε) (s : σ) : Moves R (stop e : Step σ ε α) s := Std.Refl.refl (r := R) s

variable [IsTrans σ R]

omit [Std.Refl R] in
theorem Moves.bind {x : Step σ ε α} {f : α → Step σ ε β} (hx : Moves R x s)
    (hf : ∀ a t, on x s = (.ok a, t) → Moves R (f a) t) : Moves R (x >>= f) s := by
  unfold Moves at hx ⊢
  rw [on_bind]
  rcases h : on x s with ⟨_ | a, t⟩
  · simpa [h] using hx
  · rw [h] at hx
    exact IsTrans.trans _ _ _ hx (hf a t h)

/-- A loop whose body moves along `R` wherever `I` holds does so as a whole if `I` is kept along `R`. -/
theorem Moves.forEach_inv {I : σ → Prop} (hI : ∀ s t, R s t → I s → I t) {items : List α}
    {step : α → Step σ ε Unit} (h : ∀ a ∈ items, ∀ s, I s → Moves R (step a) s) {s : σ} (hs : I s) :
    Moves R (Step.forEach items step) s := by
  induction items generalizing s with
  | nil => exact Moves.pure () s
  | cons a items ih =>
    rw [forEach_cons]
    have ha := h a List.mem_cons_self s hs
    refine ha.bind fun _ t ht => ih (fun b hb => h b (List.mem_cons_of_mem _ hb)) (hI s t ?_ hs)
    unfold Moves at ha
    rwa [ht] at ha

/-- A loop whose body moves along `R` from everywhere does so as a whole. -/
theorem Moves.forEach {items : List α} {step : α → Step σ ε Unit}
    (h : ∀ a ∈ items, ∀ s, Moves R (step a) s) (s : σ) : Moves R (Step.forEach items step) s :=
  Moves.forEach_inv (I := fun _ => True) (fun _ _ _ h => h) (fun a ha s _ => h a ha s) trivial

omit [Std.Refl R] [IsTrans σ R] in
/-- To put what a step yields into another form moves nothing. -/
theorem Moves.bind_pure {x : Step σ ε α} {f : α → β} (hx : Moves R x s) :
    Moves R (x >>= fun a => Pure.pure (f a)) s := by
  unfold Moves at hx ⊢
  rw [on_bind]
  rcases h : on x s with ⟨_ | _, t⟩ <;> rw [h] at hx <;> exact hx

end Moves

/-! ## What becomes of a step -/

/-- `Q` holds of how the step ends when it begins in `s`, and of the state it ends in. -/
def Leads (Q : Except ε α → σ → Prop) (x : Step σ ε α) (s : σ) : Prop := Q (x.on s).1 (x.on s).2

theorem Leads.update_bind {Q : Except ε β → σ → Prop} {g : σ → σ} {f : Unit → Step σ ε β} {s : σ}
    (h : Leads Q (f ()) (g s)) : Leads Q (update g >>= f) s := h

theorem Leads.read_bind {Q : Except ε β → σ → Prop} {g : σ → α} {f : α → Step σ ε β} {s : σ}
    (h : Leads Q (f (g s)) s) : Leads Q (read g >>= f) s := h

/-- Where the first part stops it is by moving along `R`, and where it goes through the second part takes over. -/
theorem Leads.bind {R : σ → σ → Prop} {Q : Except ε β → σ → Prop} {x : Step σ ε α} {f : α → Step σ ε β} {s : σ}
    (hx : Moves R x s) (hstop : ∀ e t, R s t → Q (.error e) t)
    (hf : ∀ a t, on x s = (.ok a, t) → R s t → Leads Q (f a) t) : Leads Q (x >>= f) s := by
  unfold Moves at hx
  unfold Leads
  rw [on_bind]
  rcases h : on x s with ⟨e | a, t⟩ <;> rw [h] at hx
  · exact hstop e t hx
  · exact hf a t h hx

/-! ## Going through -/

/-- The step goes through when it begins in `s`, and `Q` holds of what it yields and of the state it ends in. -/
def Ends (Q : α → σ → Prop) (x : Step σ ε α) (s : σ) : Prop := ∃ a t, x.on s = (.ok a, t) ∧ Q a t

section Ends
variable {Q : α → σ → Prop} {s : σ}

theorem Ends.pure {a : α} (h : Q a s) : Ends Q (Pure.pure a : Step σ ε α) s := ⟨a, s, rfl, h⟩

theorem Ends.update {Q : Unit → σ → Prop} {g : σ → σ} (h : Q () (g s)) :
    Ends Q (update g : Step σ ε Unit) s := ⟨(), g s, rfl, h⟩

theorem Ends.total {g : σ → α × σ} (h : Q (g s).1 (g s).2) : Ends Q (total g : Step σ ε α) s :=
  ⟨(g s).1, (g s).2, rfl, h⟩

theorem Ends.read_bind {Q : β → σ → Prop} {g : σ → α} {f : α → Step σ ε β} (h : Ends Q (f (g s)) s) :
    Ends Q (read g >>= f) s := h

theorem Ends.bind {Q' : β → σ → Prop} {x : Step σ ε α} {f : α → Step σ ε β} (hx : Ends Q x s)
    (hf : ∀ a t, Q a t → Ends Q' (f a) t) : Ends Q' (x >>= f) s := by
  obtain ⟨a, t, hx, hq⟩ := hx
  obtain ⟨b, u, hf, hq'⟩ := hf a t hq
  exact ⟨b, u, on_bind_eq_ok_iff.2 ⟨a, t, hx, hf⟩, hq'⟩

theorem Ends.imp {Q' : α → σ → Prop} {x : Step σ ε α} (hx : Ends Q x s) (h : ∀ a t, Q a t → Q' a t) :
    Ends Q' x s := by
  obtain ⟨a, t, hx, hq⟩ := hx
  exact ⟨a, t, hx, h a t hq⟩

/-- A step ends in one way only. -/
theorem Ends.and {Q' : α → σ → Prop} {x : Step σ ε α} (hx : Ends Q x s) (hx' : Ends Q' x s) :
    Ends (fun a t => Q a t ∧ Q' a t) x s := by
  obtain ⟨a, t, hx, hq⟩ := hx
  obtain ⟨b, u, hx', hq'⟩ := hx'
  obtain ⟨hab, rfl⟩ := Prod.mk.inj (hx.symm.trans hx')
  obtain rfl := Except.ok.inj hab
  exact ⟨a, t, hx, hq, hq'⟩

theorem Ends.mapStop {x : Step σ ε α} (g : ε → δ) (hx : Ends Q x s) : Ends Q (x.mapStop g) s := by
  obtain ⟨a, t, hx, hq⟩ := hx
  exact ⟨a, t, by rw [on_mapStop, hx], hq⟩

/-- A loop goes through if its body does, and what holds then may depend on the items that have come up. -/
theorem Ends.forEach {R : List α → σ → Prop} {items : List α} {step : α → Step σ ε Unit}
    (h : ∀ done, ∀ a ∈ items, ∀ s, R done s → Ends (fun _ t => R (done ++ [a]) t) (step a) s) {l : List α} {s : σ}
    (hs : R l s) : Ends (fun _ t => R (l ++ items) t) (Step.forEach items step) s := by
  induction items generalizing l s with
  | nil => exact .pure (by rwa [List.append_nil])
  | cons a items ih =>
    rw [forEach_cons]
    refine (h l a List.mem_cons_self s hs).bind fun _ t ht => ?_
    refine (ih (fun done b hb => h done b (List.mem_cons_of_mem _ hb)) ht).imp fun _ u hu => ?_
    rwa [List.append_assoc] at hu

theorem Ends.moves {R : σ → σ → Prop} {x : Step σ ε α} (hx : Ends (fun _ t => R s t) x s) : Moves R x s := by
  obtain ⟨a, t, hx, hr⟩ := hx
  unfold Moves
  rw [hx]
  exact hr

end Ends

/-! ## Going on -/

/-- The step never stops. -/
def GoesOn (x : Step σ ε α) : Prop := ∀ s, ∃ a t, x.on s = (.ok a, t)

theorem GoesOn.pure (a : α) : GoesOn (Pure.pure a : Step σ ε α) := fun s => ⟨a, s, rfl⟩

theorem GoesOn.read (g : σ → α) : GoesOn (read g : Step σ ε α) := fun s => ⟨g s, s, rfl⟩

theorem GoesOn.update (g : σ → σ) : GoesOn (update g : Step σ ε Unit) := fun s => ⟨(), g s, rfl⟩

theorem GoesOn.bind {x : Step σ ε α} {f : α → Step σ ε β} (hx : GoesOn x)
    (hf : ∀ a, GoesOn (f a)) : GoesOn (x >>= f) := by
  intro s
  obtain ⟨a, t, hx⟩ := hx s
  obtain ⟨b, u, hf⟩ := hf a t
  exact ⟨b, u, on_bind_eq_ok_iff.2 ⟨a, t, hx, hf⟩⟩

end ManagementPlane.Step
