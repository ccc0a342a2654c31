/-!
# Steps that may stop half-way

`Step σ ε α` changes a state `σ` and yields an `α` or stops with an `ε`. What was changed before a
step stopped stays changed.

* `Step.run_*` : how the pieces of a step act on the state;
* `Step.forEach` : the same step for every item of a list, in order, up to the first that stops.
-/

namespace ManagementPlane

/-- A change of state that may stop; the state at that point remains. -/
abbrev Step (σ ε α : Type) := ExceptT ε (StateM σ) α

namespace Step

variable {σ τ ε δ α β : Type}

def on (x : Step σ ε α) (s : σ) : Except ε α × σ := (ExceptT.run x).run s

def stop (e : ε) : Step σ ε α := throw e

def update (f : σ → σ) : Step σ ε Unit := modify f

def read (f : σ → α) : Step σ ε α := do return f (← get)

/-- A step whose reasons for stopping are turned into others. -/
def mapStop (f : ε → δ) (x : Step σ ε α) : Step σ δ α := ExceptT.mk fun s =>
  match x.on s with
  | (.ok a, s) => (.ok a, s)
  | (.error e, s) => (.error (f e), s)

def within (get : τ → σ) (set : σ → τ → τ) (x : Step σ ε α) : Step τ ε α := ExceptT.mk fun t =>
  match x.on (get t) with
  | (r, s) => (r, set s t)

def total (f : σ → α × σ) : Step σ ε α := ExceptT.mk fun s =>
  match f s with
  | (a, s) => (.ok a, s)

def forEach (items : List α) (step : α → Step σ ε Unit) : Step σ ε Unit :=
  match items with
  | [] => pure ()
  | a :: r => do
    step a
    forEach r step

@[simp] theorem on_pure (a : α) (s : σ) : on (pure a : Step σ ε α) s = (.ok a, s) := rfl

@[simp] theorem on_stop (e : ε) (s : σ) : on (stop e : Step σ ε α) s = (.error e, s) := rfl

@[simp] theorem on_update (f : σ → σ) (s : σ) : on (update f : Step σ ε Unit) s = (.ok (), f s) :=
  rfl

@[simp] theorem on_read (f : σ → α) (s : σ) : on (read f : Step σ ε α) s = (.ok (f s), s) := rfl

theorem on_bind (x : Step σ ε α) (f : α → Step σ ε β) (s : σ) :
    on (x >>= f) s = match on x s with
      | (.ok a, s) => on (f a) s
      | (.error e, s) => (.error e, s) := by
  simp only [on, ExceptT.run, bind, ExceptT.bind, ExceptT.mk, StateT.bind, StateT.run]
  rcases x s with ⟨_ | _, _⟩ <;> rfl

@[simp] theorem on_mapStop (f : ε → δ) (x : Step σ ε α) (s : σ) :
    on (mapStop f x) s = match on x s with
      | (.ok a, s) => (.ok a, s)
      | (.error e, s) => (.error (f e), s) := rfl

@[simp] theorem on_within (get : τ → σ) (set : σ → τ → τ) (x : Step σ ε α) (t : τ) :
    on (within get set x) t = ((on x (get t)).1, set (on x (get t)).2 t) := rfl

@[simp] theorem on_total (f : σ → α × σ) (s : σ) :
    on (total f : Step σ ε α) s = (.ok (f s).1, (f s).2) := rfl

@[simp] theorem forEach_nil (step : α → Step σ ε Unit) : forEach [] step = pure () := rfl

@[simp] theorem forEach_cons (a : α) (r : List α) (step : α → Step σ ε Unit) :
    forEach (a :: r) step = (do step a; forEach r step) := rfl

end Step

end ManagementPlane
