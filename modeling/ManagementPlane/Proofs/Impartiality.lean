import ManagementPlane.Proofs.Bookkeeping

/-!
# Handlers whose verdict does not depend on the order

* `Handler.Impartial` : the order in which a handler was told of problems does not decide whether it fails a pass;
* `Ledger.Tallies` : what the counts of a ledger say of what it has been told;
* `Handler.impartial_byMode`, `Handler.impartial_refusing` : the default handler is impartial, in all its modes, and so are
  handlers without a record.
-/

namespace ManagementPlane

/-- The order in which a handler was told of problems since a pass began does not decide whether it fails the pass in the
end. -/
def Handler.Impartial {σ : Type} (h : Handler σ) : Prop :=
  ∀ (notes notes' : List Notification) (readOnly : Bool) (s : σ), notes.Perm notes' →
    (∀ n ∈ notes, n.isStart = false) →
    (h.done.on (h.heard notes' (h.start readOnly s))).1.isOk = (h.done.on (h.heard notes (h.start readOnly s))).1.isOk

/-! ## The default handler -/

namespace Notification

/-- What a ledger counts as a problem with an object. A dangling reference is one if it ends the pass. -/
def isProblem (dangling : FailureMode) : Notification → Bool
  | .loadFailed .. | .createFailed .. | .notFound .. | .rebindFailed .. | .manageFailed .. => true
  | .dangling .. => dangling = .failFast
  | .start .. | .done | .failed .. => false

/-- What it counts as a dangling reference. -/
def isLateDangling (dangling : FailureMode) : Notification → Bool
  | .dangling .. => dangling = .failAtEnd
  | _ => false

variable {dangling : FailureMode} {n : Notification}

theorem counts_of_problemText {text : String} (h : n.problemText? = some text) :
    n.isProblem dangling = true ∧ n.isLateDangling dangling = false := by
  cases n with
  | start | dangling | done | failed => cases h
  | _ => exact ⟨rfl, rfl⟩

theorem counts_of_no_text (hproblem : n.problemText? = none) (hdangling : n.danglingText? = none) :
    n.isProblem dangling = false ∧ n.isLateDangling dangling = false := by
  cases n with
  | start | done | failed => exact ⟨rfl, rfl⟩
  | dangling => cases hdangling
  | _ => cases hproblem

end Notification

namespace Ledger

variable {failure dangling : FailureMode} {notes notes' : List Notification} {n : Notification} {l l' : Ledger}

/-- What the counts of a ledger say of what it has been told since the pass began. -/
structure Tallies (dangling : FailureMode) (notes : List Notification) (l : Ledger) : Prop where
  le : l.danglingErrors ≤ l.errors.length
  created : l.createFailed ≠ [] → l.danglingErrors < l.errors.length
  problems : l.danglingErrors < l.errors.length ↔ ∃ n ∈ notes, n.isProblem dangling = true
  danglings : 0 < l.danglingErrors ↔ ∃ n ∈ notes, n.isLateDangling dangling = true

namespace Tallies

theorem empty (dangling : FailureMode) : Tallies dangling [] {} :=
  ⟨Nat.le_refl 0, fun h => absurd rfl h, by simp, by simp⟩

/-- A problem with an object is written down. -/
theorem problem (h : Tallies dangling notes l) (hn : n.isProblem dangling = true)
    (hlate : n.isLateDangling dangling = false) (herrors : l'.errors.length = l.errors.length + 1)
    (hdangling : l'.danglingErrors = l.danglingErrors) : Tallies dangling (n :: notes) l' where
  le := by have hle := h.le; omega
  created _ := by have hle := h.le; omega
  problems := iff_of_true (by have hle := h.le; omega) ⟨n, List.mem_cons_self, hn⟩
  danglings := by simp [hdangling, h.danglings, hlate]

/-- A problem with an object that is known already is not. -/
theorem known (h : Tallies dangling notes l) (hn : n.isProblem dangling = true)
    (hlate : n.isLateDangling dangling = false) (hknown : l.createFailed ≠ []) : Tallies dangling (n :: notes) l where
  le := h.le
  created := h.created
  problems := iff_of_true (h.created hknown) ⟨n, List.mem_cons_self, hn⟩
  danglings := by simp [h.danglings, hlate]

/-- A dangling reference is written down. -/
theorem late (h : Tallies dangling notes l) (hn : n.isProblem dangling = false)
    (hlate : n.isLateDangling dangling = true) (herrors : l'.errors.length = l.errors.length + 1)
    (hdangling : l'.danglingErrors = l.danglingErrors + 1) (hcreated : l'.createFailed = l.createFailed) :
    Tallies dangling (n :: notes) l' where
  le := by have hle := h.le; omega
  created hc := by have hlt := h.created (hcreated ▸ hc); omega
  problems := by simp [herrors, hdangling, h.problems, hn]
  danglings := iff_of_true (by omega) ⟨n, List.mem_cons_self, hlate⟩

/-- Other notifications do not count. -/
theorem other (h : Tallies dangling notes l) (hn : n.isProblem dangling = false)
    (hlate : n.isLateDangling dangling = false) (herrors : l'.errors = l.errors)
    (hdangling : l'.danglingErrors = l.danglingErrors) (hcreated : l'.createFailed = l.createFailed) :
    Tallies dangling (n :: notes) l' where
  le := by rw [hdangling, herrors]; exact h.le
  created hc := by rw [hdangling, herrors]; exact h.created (hcreated ▸ hc)
  problems := by simp [herrors, hdangling, h.problems, hn]
  danglings := by simp [hdangling, h.danglings, hlate]

end Tallies

theorem length_addError (text : String) (l : Ledger) : (l.addError text).errors.length = l.errors.length + 1 :=
  List.length_append

/-- The counts of a ledger keep up with what it is told. -/
theorem tallies_hear (h : Tallies dangling notes l) (hstart : n.isStart = false) :
    Tallies dangling (n :: notes) ((Handler.byMode failure dangling).hear n l) := by
  have hl : Enters dangling l n ((Handler.byMode failure dangling).hear n l) := enters_hear hstart l
  generalize (Handler.byMode failure dangling).hear n l = l' at hl
  cases hl with
  | problem htext _ _ =>
    obtain ⟨hn, hlate⟩ := Notification.counts_of_problemText htext
    exact h.problem hn hlate (length_addError _ l) rfl
  | known hknown => exact h.known rfl rfl (List.ne_nil_of_mem hknown)
  | dangling kind id =>
    cases dangling with
    | failFast => exact h.problem rfl rfl (length_addError _ l) rfl
    | failAtEnd => exact h.late rfl rfl (length_addError _ l) rfl rfl
    | carryOn => exact h.other rfl rfl rfl rfl rfl
  | silent hproblem hdangling _ =>
    obtain ⟨hn, hlate⟩ := Notification.counts_of_no_text hproblem hdangling
    exact h.other hn hlate rfl rfl rfl

theorem tallies_heard (hstart : ∀ n ∈ notes, n.isStart = false) :
    Tallies dangling notes ((Handler.byMode failure dangling).heard notes {}) := by
  induction notes with
  | nil => exact .empty dangling
  | cons n notes ih =>
    exact tallies_hear (ih fun n hn => hstart n (List.mem_cons_of_mem _ hn)) (hstart n List.mem_cons_self)

/-- Whether the recorded problems fail a pass depends on which there are. -/
theorem verdict_isNone_congr (h : Tallies dangling notes l) (h' : Tallies dangling notes' l') (hperm : notes.Perm notes') :
    (verdict failure dangling l').isNone = (verdict failure dangling l).isNone := by
  have hproblems : l'.danglingErrors < l'.errors.length ↔ l.danglingErrors < l.errors.length := by
    rw [h.problems, h'.problems]
    simp only [hperm.mem_iff]
  have hdanglings : 0 < l'.danglingErrors ↔ 0 < l.danglingErrors := by
    rw [h.danglings, h'.danglings]
    simp only [hperm.mem_iff]
  unfold verdict objectErrors
  simp only [Nat.sub_pos_iff_lt, hproblems, hdanglings]
  split <;> rfl

end Ledger

namespace Handler

/-- The default handler fails a pass for the problems it was told of, and not for their order. -/
theorem impartial_byMode (failure dangling : FailureMode) : (byMode failure dangling).Impartial := by
  intro notes notes' readOnly s hperm hstart
  have hdone : ∀ l, ((byMode failure dangling).done.on l).1.isOk = (Ledger.verdict failure dangling l).isNone := by
    intro l
    rw [on_done_byMode]
    cases Ledger.verdict failure dangling l <;> rfl
  have hstart' : ∀ n ∈ notes', n.isStart = false := fun n hn => hstart n (hperm.mem_iff.2 hn)
  rw [hdone, hdone]
  exact Ledger.verdict_isNone_congr (Ledger.tallies_heard hstart) (Ledger.tallies_heard hstart') hperm

/-- A handler that keeps no record cannot tell in which order it was told. -/
theorem impartial_refusing (refused : List String) : (refusing refused).Impartial :=
  fun _ _ _ _ _ _ => rfl

end Handler

end ManagementPlane
