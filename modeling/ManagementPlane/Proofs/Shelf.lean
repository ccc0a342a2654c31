import ManagementPlane.Proofs.Attempts
import ManagementPlane.Proofs.Muteness

/-!
# What the shells of a pass show

Shells lie in the heap under handles that depend on what was made before them. `Pass.shelf` shows their states by kind
and id, and says what each change of a pass comes to there.

* `Object.asShell` : what a type has made, as the shell of some id;
* `Pass.shelf` : the state of the shell of a kind and id;
* `Pass.shelf_change`, `Pass.shelf_leave`, `Pass.shelf_make` : how it changes.
-/

namespace ManagementPlane

variable {σ : Type}

/-- What a type has made, as the shell of an id. -/
def Object.asShell (id : String) (item : Option String) (readOnly : Bool) (o : Object) : Object :=
  { o with id, catalogItemId := item.or o.catalogItemId, readOnly := readOnly || o.readOnly }

/-- Populating an object other than a catalog item goes well if its hook does. -/
theorem Plane.reconstruct_eq (p : Plane) {a : Handle} (hk : (p.read a).kind ≠ .catalogItem)
    (hfault : (p.read a).behaviour.reconstructFault = none) (known : ObjectKind → String → Bool) (readOnly : Bool)
    (m : Memento) : ∃ o, (p.read a).reconstruct known m = .ok o ∧ p.reconstruct known readOnly a m =
      (.ok (), (p.recordHook a (.reconstruct m.id readOnly)).modify a fun _ => o) := by
  obtain ⟨o, ho⟩ : ∃ o, (p.read a).reconstruct known m = .ok o := by
    unfold Object.kind at hk
    unfold Object.reconstruct
    cases hb : (p.read a).body with
    | catalogItem item => rw [hb] at hk; exact absurd rfl hk
    | _ => exact ⟨_, rfl⟩
  refine ⟨o, ho, ?_⟩
  unfold reconstruct
  dsimp only
  rw [if_neg hk, hfault, ho]

namespace Pass

variable {t : Task} {n : Nat} {p q : Pass σ} {k : ObjectKind} {id : String} {a : Handle} {o : Object}

/-- A notification is put on record, and the handler makes of it what it does. -/
theorem ends_heard {ε : Type} {answer : Step σ ε Unit} (ha : answer.GoesOn) (note : Notification) (p : Pass σ) :
    Step.Ends (fun _ q => q = { p.record (.notified note) with handler := (answer.on p.handler).2 })
      (tell note answer) p := by
  obtain ⟨_, s, hs⟩ := ha p.handler
  refine ⟨(), _, ?_, rfl⟩
  rw [on_tell, hs]

theorem ends_onPlane_bind {α β : Type} {Q : β → Pass σ → Prop} {f : Pass σ → α × Plane} {g : α → PassStep σ β} {v : α}
    {u : Plane} (hf : f p = (v, u)) (h : Step.Ends Q (g v) { p with plane := u }) :
    Step.Ends Q (onPlane f >>= g) p := by
  unfold Step.Ends onPlane
  rwa [Step.on_total_bind, hf]

/-! ## What they show -/

/-- The state of the shell of a kind and id. -/
def shelf (p : Pass σ) (k : ObjectKind) (id : String) : Option Object := (p.scratch.get? k id).map p.plane.read

theorem shelf_eq_some_iff : p.shelf k id = some o ↔ ∃ a, p.scratch.get? k id = some a ∧ p.plane.read a = o :=
  Option.map_eq_some_iff

theorem shelf_eq_none_iff : p.shelf k id = none ↔ p.scratch.get? k id = none := Option.map_eq_none_iff

theorem isSome_shelf (p : Pass σ) (k : ObjectKind) (id : String) : (p.shelf k id).isSome = p.scratch.contains k id :=
  Option.isSome_map

/-- One shell in another state. -/
theorem shelf_change (hs : p.scratch.Sound n p.plane) (ha : p.scratch.get? k id = some a)
    (hscratch : q.scratch = p.scratch) (hread : ∀ b, q.plane.read b = if b = a then o else p.plane.read b)
    (j : ObjectKind) (i : String) : q.shelf j i = if k = j ∧ id = i then some o else p.shelf j i := by
  unfold shelf
  rw [hscratch]
  split
  · next he =>
    obtain ⟨rfl, rfl⟩ := he
    rw [ha, Option.map_some, hread, if_pos rfl]
  · next hne =>
    refine Option.map_congr fun b hb => (hread b).trans (if_neg ?_)
    -- a shell lies under its own kind and id only
    rintro rfl
    exact hne ⟨(hs.kind ha).symm.trans (hs.kind hb), (hs.id ha).symm.trans (hs.id hb)⟩

theorem shelf_leave (p : Pass σ) (k : ObjectKind) (id : String) (j : ObjectKind) (i : String) :
    (leave k id p).shelf j i = if k = j ∧ id = i then none else p.shelf j i := by
  have hget : (leave k id p).scratch.get? j i = _ := Scratch.get?_unregister p.scratch k id j i
  unfold shelf
  rw [hget]
  split
  · rfl
  · rfl

theorem read_register (p : Plane) (s : Scratch) (hv : p.heap.Valid a) (b : Handle) : (s.register p a).2.read b =
    if b = a then { p.read a with readOnly := s.allReadOnly || (p.read a).readOnly } else p.read b := by
  unfold Scratch.register
  dsimp only
  cases s.allReadOnly with
  | true =>
    rw [if_pos rfl]
    by_cases hb : b = a
    · subst hb
      rw [if_pos rfl, p.read_modify_self hv]
      rfl
    · rw [if_neg hb, p.read_modify_of_ne (Ne.symm hb)]
  | false =>
    rw [if_neg Bool.false_ne_true]
    by_cases hb : b = a
    · subst hb
      rw [if_pos rfl, Bool.false_or]
    · rw [if_neg hb]

/-! ### New shells -/

section Make
variable {made : Object} {item : Option String} {plane : Plane}
  (hheap : plane.heap = p.plane.heap.alloc { made with id, catalogItemId := item.or made.catalogItemId })
include hheap

theorem read_join (b : Handle) : (join p.plane.heap.next { p with plane }).plane.read b =
    if b = p.plane.heap.next then made.asShell id item p.scratch.allReadOnly else p.plane.read b := by
  refine (read_register plane p.scratch (valid_made hheap) b).trans ?_
  rw [read_made hheap, read_made hheap, if_pos rfl]
  split <;> rfl

/-- A new shell is put on the shelf, under the kind that its type makes. -/
theorem shelf_make (hs : p.scratch.Sound n p.plane) (j : ObjectKind) (i : String) :
    (join p.plane.heap.next { p with plane }).shelf j i =
      if made.kind = j ∧ id = i then some (made.asShell id item p.scratch.allReadOnly) else p.shelf j i := by
  unfold shelf
  rw [get?_join hheap]
  split
  · rw [Option.map_some, read_join hheap, if_pos rfl]
  · refine Option.map_congr fun b hb => ?_
    rw [read_join hheap, if_neg (hs.valid hb).ne_next]

end Make

end Pass

end ManagementPlane
