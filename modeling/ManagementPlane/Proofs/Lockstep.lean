import ManagementPlane.Proofs.Reading

/-!
# Two runs side by side

* `Step.Alike R Q` : two results of steps: values related by `Q`, or the same reason for stopping; in either case the
  states are related by `R`;
* `Step.Agree R Q x y s t` : the step `x` from `s` and the step `y` from `t` end alike. Sequences and loops agree if
  their parts do;
* `agree_decodeAll`, … : a store is read alike if the listener answers alike.
-/

namespace ManagementPlane

namespace Step

variable {σ τ ε δ α α' β β' : Type}

/-- Both steps went through or both stopped for the same reason, with states related by `R`. -/
inductive Alike (R : σ → τ → Prop) (Q : α → β → Prop) : Except ε α × σ → Except ε β × τ → Prop
  | ok {a : α} {b : β} {s : σ} {t : τ} (hq : Q a b) (hr : R s t) : Alike R Q (.ok a, s) (.ok b, t)
  | error {e : ε} {s : σ} {t : τ} (hr : R s t) : Alike R Q (.error e, s) (.error e, t)

theorem Alike.states {R : σ → τ → Prop} {Q : α → β → Prop} {x : Except ε α × σ} {y : Except ε β × τ}
    (h : Alike R Q x y) : R x.2 y.2 := by
  cases h with
  | ok _ hr => exact hr
  | error hr => exact hr

/-- The step `x` from `s` and the step `y` from `t` end alike. -/
def Agree (R : σ → τ → Prop) (Q : α → β → Prop) (x : Step σ ε α) (y : Step τ ε β) (s : σ) (t : τ) : Prop :=
  Alike R Q (x.on s) (y.on t)

namespace Agree

variable {R : σ → τ → Prop} {Q : α → β → Prop} {Q' : α' → β' → Prop} {s : σ} {t : τ}

theorem pure {a : α} {b : β} (hq : Q a b) (hr : R s t) :
    Agree R Q (Pure.pure a : Step σ ε α) (Pure.pure b) s t := .ok hq hr

theorem stop (e : ε) (hr : R s t) : Agree R Q (stop e) (stop e) s t := .error hr

theorem update {Q : Unit → Unit → Prop} {g : σ → σ} {g' : τ → τ} (hq : Q () ()) (hr : R (g s) (g' t)) :
    Agree R Q (update g : Step σ ε Unit) (update g') s t := .ok hq hr

theorem read_bind {g : σ → α} {g' : τ → β} {f : α → Step σ ε α'} {f' : β → Step τ ε β'}
    (h : Agree R Q' (f (g s)) (f' (g' t)) s t) : Agree R Q' (read g >>= f) (read g' >>= f') s t := h

theorem total_bind {g : σ → α × σ} {g' : τ → β × τ} {f : α → Step σ ε α'} {f' : β → Step τ ε β'}
    (h : Agree R Q' (f (g s).1) (f' (g' t).1) (g s).2 (g' t).2) :
    Agree R Q' (Step.total g >>= f) (Step.total g' >>= f') s t := h

/-- Steps in sequence agree if the first do, and if the second do wherever the first have gone through. -/
theorem bind_of_on {x : Step σ ε α} {y : Step τ ε β} {f : α → Step σ ε α'} {f' : β → Step τ ε β'}
    (hx : Agree R Q x y s t)
    (hf : ∀ a b s' t', x.on s = (.ok a, s') → Q a b → R s' t' → Agree R Q' (f a) (f' b) s' t') :
    Agree R Q' (x >>= f) (y >>= f') s t := by
  unfold Agree at hx ⊢
  rw [on_bind, on_bind]
  generalize hu : x.on s = u at hx
  generalize y.on t = v at hx
  cases hx with
  | ok hq hr => exact hf _ _ _ _ hu hq hr
  | error hr => exact .error hr

theorem bind {x : Step σ ε α} {y : Step τ ε β} {f : α → Step σ ε α'} {f' : β → Step τ ε β'}
    (hx : Agree R Q x y s t) (hf : ∀ a b s t, Q a b → R s t → Agree R Q' (f a) (f' b) s t) :
    Agree R Q' (x >>= f) (y >>= f') s t :=
  bind_of_on hx fun a b s t _ hq hr => hf a b s t hq hr

theorem mapStop {x : Step σ ε α} {y : Step τ ε β} (g : ε → δ) (hx : Agree R Q x y s t) :
    Agree R Q (x.mapStop g) (y.mapStop g) s t := by
  unfold Agree at hx ⊢
  rw [on_mapStop, on_mapStop]
  generalize x.on s = u at hx
  generalize y.on t = v at hx
  cases hx with
  | ok hq hr => exact .ok hq hr
  | error hr => exact .error hr

theorem imp {R' : σ → τ → Prop} {Q' : α → β → Prop} {x : Step σ ε α} {y : Step τ ε β}
    (hx : Agree R Q x y s t) (hr : ∀ s t, R s t → R' s t) (hq : ∀ a b, Q a b → Q' a b) :
    Agree R' Q' x y s t := by
  unfold Agree at hx ⊢
  generalize x.on s = u at hx
  generalize y.on t = v at hx
  cases hx with
  | ok hq' hr' => exact .ok (hq _ _ hq') (hr _ _ hr')
  | error hr' => exact .error (hr _ _ hr')

/-- A loop agrees with a loop over what corresponds to its items, if their bodies do. -/
theorem forEach_map {γ : Type} {φ : α → γ} {items : List α} {f : α → Step σ ε Unit} {f' : γ → Step τ ε Unit}
    (h : ∀ a ∈ items, ∀ s t, R s t → Agree R Eq (f a) (f' (φ a)) s t) (hr : R s t) :
    Agree R Eq (forEach items f) (forEach (items.map φ) f') s t := by
  induction items generalizing s t with
  | nil => exact .pure rfl hr
  | cons a items ih =>
    rw [List.map_cons, forEach_cons, forEach_cons]
    exact (h a List.mem_cons_self s t hr).bind fun _ _ _ _ _ hr' =>
      ih (fun b hb => h b (List.mem_cons_of_mem _ hb)) hr'

/-- Loops over the same items agree if their bodies do. -/
theorem forEach {items : List α} {f : α → Step σ ε Unit} {f' : α → Step τ ε Unit}
    (h : ∀ a ∈ items, ∀ s t, R s t → Agree R Eq (f a) (f' a) s t) (hr : R s t) :
    Agree R Eq (forEach items f) (forEach items f') s t := by
  have hmap := forEach_map (φ := id) h hr
  rwa [List.map_id] at hmap

end Agree

end Step

/-! ## Reading a store -/

section Reading
variable {σ τ α : Type} {R : σ → τ → Prop} {l : Listener σ} {l' : Listener τ}
  (hl : ∀ kind message e s t, R s t →
    Step.Agree R Eq (l.loadFailed kind message e) (l'.loadFailed kind message e) s t)
include hl

theorem agree_decodeAll (read : String → Option α) (declared : α → String) (kind : ObjectKind)
    (payloads : List (String × String)) (table : OrderedMap String α) {s : σ} {t : τ} (hr : R s t) :
    Step.Agree R Eq (decodeAll read declared kind l payloads table)
      (decodeAll read declared kind l' payloads table) s t := by
  induction payloads generalizing table s t with
  | nil => exact .pure rfl hr
  | cons e r ih =>
    rw [decodeAll, decodeAll]
    split
    · exact ih _ hr
    · exact (hl _ _ _ s t hr).bind fun _ _ _ _ _ hr' => ih _ hr'

theorem agree_decode_manifest (raw : RawData) {s : σ} {t : τ} (hr : R s t) :
    Step.Agree R Eq (Manifest.decode raw l) (Manifest.decode raw l') s t := by
  unfold Manifest.decode
  refine (agree_decodeAll hl _ _ _ _ _ hr).bind fun _ _ _ _ he hr => ?_
  refine (agree_decodeAll hl _ _ _ _ _ hr).bind fun _ _ _ _ hp hr => ?_
  refine (agree_decodeAll hl _ _ _ _ _ hr).bind fun _ _ _ _ hc hr => ?_
  exact .pure (by rw [he, hp, hc]) hr

/-- What a snapshot refers to is looked up alike if both sides know the same of it. -/
theorem agree_decode_snapshot
    (hd : ∀ kind id s t, R s t → Step.Agree R Eq (l.dangling kind id) (l'.dangling kind id) s t)
    (raw : RawData) {known known' : ObjectKind → String → Bool}
    (hknown : ∀ r ∈ raw.snapshot.references, known r.1 r.2 = known' r.1 r.2) {s : σ} {t : τ}
    (hr : R s t) :
    Step.Agree R Eq (Snapshot.decode raw known l) (Snapshot.decode raw known' l') s t := by
  unfold Snapshot.decode Snapshot.decodeKind
  refine (agree_decodeAll hl _ _ _ _ _ hr).bind_of_on fun _ _ _ _ he hq hr => ?_
  subst hq
  refine (agree_decodeAll hl _ _ _ _ _ hr).bind_of_on fun _ _ _ _ hlo hq hr => ?_
  subst hq
  refine (agree_decodeAll hl _ _ _ _ _ hr).bind fun _ _ _ _ hq hr => ?_
  subst hq
  refine (agree_decodeAll hl _ _ _ _ _ hr).bind fun _ _ _ _ hq hr => ?_
  subst hq
  refine (agree_decodeAll hl _ _ _ _ _ hr).bind fun _ _ _ _ hq hr => ?_
  subst hq
  refine (agree_decodeAll hl _ _ _ _ _ hr).bind fun _ _ _ _ hq hr => ?_
  subst hq
  obtain rfl := eq_of_decodeAll he
  obtain rfl := eq_of_decodeAll hlo
  refine Step.Agree.bind (Q := Eq) ?_ fun _ _ _ _ _ hr => .pure rfl hr
  have hsame : ∀ r ∈ raw.snapshot.references, (!known r.1 r.2) = !known' r.1 r.2 := fun r hmem =>
    congrArg not (hknown r hmem)
  show Step.Agree R Eq (Step.forEach (raw.snapshot.references.filter fun r => !known r.1 r.2) _)
    (Step.forEach (raw.snapshot.references.filter fun r => !known' r.1 r.2) _) _ _
  rw [List.filter_congr hsame]
  exact .forEach (fun r _ s t hr => hd r.1 r.2 s t hr) hr

theorem agree_load (source : Source) {s : σ} {t : τ} (hr : R s t) :
    Step.Agree R Eq (source.load l) (source.load l') s t := by
  have hall : ∀ readings raw {s t}, R s t →
      Step.Agree R Eq (Source.takeInAll l raw readings) (Source.takeInAll l' raw readings) s t := by
    intro readings
    induction readings with
    | nil => exact fun _ _ _ hr => .pure rfl hr
    | cons r rest ih =>
      intro raw s t hr
      unfold Source.takeInAll
      refine Step.Agree.bind (Q := Eq) ?_ fun _ _ _ _ he hr => by rw [he]; exact ih _ hr
      cases r with
      | payload kind id text => exact .pure rfl hr
      | unreadable kind id error => exact (hl _ _ _ s t hr).bind fun _ _ _ _ _ hr => .pure rfl hr
  unfold Source.load
  split
  · exact .stop _ hr
  · exact hall _ _ hr

end Reading

end ManagementPlane
