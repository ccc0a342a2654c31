import ManagementPlane.Proofs.Frankness

/-!
# What a ledger makes of a notification

What the default handler is told is a problem with an object, a dangling reference, or nothing that it records. Its modes
decide whether the pass goes on; what is written down depends on them only where a reference dangles.

* `Notification.problemText?`, `Notification.danglingText?` : the text of a problem with an object, and of a dangling reference;
* `Handler.on_done_byMode` : the verdict, which leaves the ledger as it is;
* `Ledger.Enters l n l'` : what becomes of a ledger that is told of something, and `Ledger.enters_hear` : that it does;
* `Ledger.mem_createFailed_hear` : what could not be made is kept in mind.
-/

namespace ManagementPlane

namespace Notification

/-- The text of a problem with an object. -/
def problemText? : Notification → Option String
  | .loadFailed _ message e => some ("problem loading " ++ message ++ ": " ++ e.message)
  | .createFailed kind id type e =>
    some (subject kind id ++ ": " ++ ("construction failed: " ++ ("could not create " ++ type ++ ": " ++ e.message)))
  | .notFound kind id =>
    some (subject kind id ++ ": " ++ ("reconstruction failed: " ++ ("no " ++ kind.label ++ " found with id " ++ id)))
  | .rebindFailed kind id e | .manageFailed kind id e => some (subject kind id ++ ": " ++ e.message)
  | _ => none

/-- The text of a dangling reference. -/
def danglingText? : Notification → Option String
  | .dangling kind id => some ("no " ++ kind.label ++ " found with id " ++ id)
  | _ => none

end Notification

theorem Handler.on_done_byMode (failure danglingMode : FailureMode) (l : Ledger) :
    (Handler.byMode failure danglingMode).done.on l = (match l.verdict failure danglingMode with
      | some e => .error e
      | none => .ok (), l) := by
  show (do match (← Step.read (Ledger.verdict failure danglingMode)) with
    | some e => Step.stop e
    | none => pure () : Step Ledger RebindError Unit).on l = _
  rw [Step.on_read_bind]
  split <;> rfl

namespace Ledger

variable {failure dangling : FailureMode} {n : Notification} {l : Ledger}

theorem on_problem (failure : FailureMode) (kind : ObjectKind) (id : String) (e : ObjectError) (l : Ledger) :
    ((problem failure kind id e).on l).2 = l.addError (subject kind id ++ ": " ++ e.message) := by
  cases failure <;> rfl

theorem on_notFound (failure : FailureMode) (kind : ObjectKind) (id : String) (l : Ledger) :
    ((notFound failure kind id).on l).2 = if (kind, id) ∈ l.createFailed then l
      else l.addError (subject kind id ++ ": " ++ (ObjectError.reconstruct (missing kind id)).message) := by
  unfold notFound
  rw [Step.on_read_bind]
  split
  · rfl
  · exact on_problem failure kind id _ l

/-- The ledger `l`, when it is told of a notification other than the beginning of a pass, becomes another. -/
inductive Enters (dangling : FailureMode) (l : Ledger) : Notification → Ledger → Prop
  /-- A problem with an object is written down, unless the object is missing and known to be. -/
  | problem {n : Notification} {text : String} {failed : List (ObjectKind × String)} (htext : n.problemText? = some text)
      (hnew : ∀ x, n.notFound? = some x → x ∉ l.createFailed)
      (hfailed : ∀ x, x ∈ failed ↔ n.createFailed? = some x ∨ x ∈ l.createFailed) :
      Enters dangling l n { l.addError text with createFailed := failed }
  /-- It is missing because it could not be made. -/
  | known {kind : ObjectKind} {id : String} (hknown : (kind, id) ∈ l.createFailed) :
      Enters dangling l (.notFound kind id) l
  /-- What a dangling reference counts as depends on the mode. -/
  | dangling (kind : ObjectKind) (id : String) :
      Enters dangling l (.dangling kind id) ((Ledger.dangling dangling kind id).on l).2
  /-- Nothing else is recorded. -/
  | silent {n : Notification} (hproblem : n.problemText? = none) (hdangling : n.danglingText? = none)
      (hstart : n.isStart = false) : Enters dangling l n l

/-- A problem that is not about the making of an object adds its text and nothing more. -/
theorem Enters.of_problem {text : String} (htext : n.problemText? = some text)
    (hnew : ∀ x, n.notFound? = some x → x ∉ l.createFailed) (hmade : n.createFailed? = none) :
    Enters dangling l n (l.addError text) :=
  .problem htext hnew fun _ => by simp [hmade]

/-- Something of this sort becomes of any ledger that is told of something in the course of a pass. -/
theorem enters_hear (hstart : n.isStart = false) (l : Ledger) :
    Enters dangling l n ((Handler.byMode failure dangling).hear n l) := by
  cases n with
  | start => cases hstart
  | loadFailed kind message e => cases failure <;> exact .of_problem rfl nofun rfl
  | dangling kind id => exact .dangling kind id
  | createFailed kind id type e =>
    show Enters dangling l _ ((problem failure kind id _).on
      (if (kind, id) ∈ l.createFailed then l else { l with createFailed := (kind, id) :: l.createFailed })).2
    rw [on_problem]
    split
    · next hmem =>
      refine .problem rfl nofun fun x => (or_iff_right_of_imp fun hx => ?_).symm
      exact Option.some.inj hx ▸ hmem
    · refine .problem rfl nofun fun x => ?_
      show x ∈ (kind, id) :: l.createFailed ↔ some (kind, id) = some x ∨ _
      rw [List.mem_cons, Option.some_inj, eq_comm]
  | notFound kind id =>
    show Enters dangling l _ ((notFound failure kind id).on l).2
    rw [on_notFound]
    split
    · next hmem => exact .known hmem
    · next hmem => exact .of_problem rfl (fun x hx => Option.some.inj hx ▸ hmem) rfl
  | rebindFailed kind id e | manageFailed kind id e =>
    show Enters dangling l _ ((problem failure kind id e).on l).2
    rw [on_problem]
    exact .of_problem rfl nofun rfl
  | done =>
    show Enters dangling l _ ((Handler.byMode failure dangling).done.on l).2
    rw [Handler.on_done_byMode]
    exact .silent rfl rfl rfl
  | failed e => exact .silent rfl rfl rfl

/-- What could not be made is kept in mind until the next pass begins, and nothing else. -/
theorem mem_createFailed_hear (hstart : n.isStart = false) (l : Ledger) {x : ObjectKind × String} :
    x ∈ ((Handler.byMode failure dangling).hear n l).createFailed ↔ n.createFailed? = some x ∨ x ∈ l.createFailed := by
  have hl : Enters dangling l n ((Handler.byMode failure dangling).hear n l) := enters_hear hstart l
  generalize (Handler.byMode failure dangling).hear n l = l' at hl
  cases hl with
  | problem _ _ hfailed => exact hfailed x
  | known _ => exact (or_iff_right nofun).symm
  | dangling kind id => cases dangling <;> exact (or_iff_right nofun).symm
  | silent hproblem _ _ =>
    have hmade : n.createFailed? = none := by
      cases n with
      | createFailed => cases hproblem
      | _ => rfl
    rw [hmade]
    exact (or_iff_right nofun).symm

end Ledger

end ManagementPlane
