import ManagementPlane.Proofs.Accounting
import ManagementPlane.Proofs.Impartiality

/-!
# What a ledger holds after a history

A ledger is told of one problem after the other, and answers each by going on. What it holds then is said of the history
alone: which problems came up that had not been reported before.

* `Notification.repeats`, `news` : an object that is missing because it could not be made is no news;
* `Handler.Takes h notes s t` : the handler goes on after each of the notifications, which lead it from `s` to `t`;
* `Ledger.Holds` : what a ledger holds after a history, and `Ledger.holds_hear`, `Ledger.holds_of_takes` : that it does;
* `Ledger.judges_history` : the verdict on the history, and the errors and warnings that come with it.
-/

namespace ManagementPlane

/-! ## Histories -/

namespace Notification

/-- Tells of nothing new after what was told `earlier`: an object is missing that could not be made. -/
def repeats (earlier : List Notification) (n : Notification) : Bool :=
  n.notFound?.any (earlier.filterMap createFailed?).contains

/-- What an error says, if the notification counts as one. -/
def errorText? (dangling : FailureMode) (n : Notification) : Option String :=
  n.problemText?.or (if dangling = .failAtEnd then n.danglingText? else none)

/-- What a warning says, if the notification counts as one. -/
def warningText? (dangling : FailureMode) (n : Notification) : Option String :=
  if dangling = .carryOn then n.danglingText? else none

/-- The text of a dangling reference that counts as an error. -/
def lateText? (dangling : FailureMode) (n : Notification) : Option String :=
  if dangling = .failAtEnd then n.danglingText? else none

end Notification

/-- The notifications, told after what was told `earlier`, that tell of something new. -/
def news (earlier : List Notification) : List Notification → List Notification
  | [] => []
  | n :: later => if n.repeats earlier then news (earlier ++ [n]) later else n :: news (earlier ++ [n]) later

theorem news_concat (earlier notes : List Notification) (n : Notification) :
    news earlier (notes ++ [n]) = news earlier notes ++ if n.repeats (earlier ++ notes) then [] else [n] := by
  induction notes generalizing earlier with
  | nil =>
    rw [List.append_nil]
    rfl
  | cons m notes ih =>
    rw [List.cons_append, news, news, ih, List.append_assoc, List.singleton_append]
    split <;> rfl

/-- Only an object that is missing can repeat what was reported. -/
theorem mem_news_iff {earlier notes : List Notification} {n : Notification} (hn : n.notFound? = none) :
    n ∈ news earlier notes ↔ n ∈ notes := by
  induction notes generalizing earlier with
  | nil => rfl
  | cons m later ih =>
    rw [news, List.mem_cons]
    split
    · next hm =>
      have hne : n ≠ m := by
        rintro rfl
        rw [Notification.repeats, hn] at hm
        cases hm
      rw [ih, or_iff_right hne]
    · rw [List.mem_cons, ih]

namespace Handler

variable {σ : Type}

/-- The handler answers a notification by going on; the beginning and the failure of a pass want no answer. -/
def Accepts (h : Handler σ) (s : σ) : Notification → Prop
  | .start _ | .failed _ => True
  | .loadFailed kind message e => ((h.loadFailed kind message e).on s).1 = .ok ()
  | .dangling kind id => ((h.dangling kind id).on s).1 = .ok ()
  | .createFailed kind id type e => ((h.createFailed kind id type e).on s).1 = .ok ()
  | .notFound kind id => ((h.notFound kind id).on s).1 = .ok ()
  | .rebindFailed kind id e => ((h.rebindFailed kind id e).on s).1 = .ok ()
  | .manageFailed kind id e => ((h.manageFailed kind id e).on s).1 = .ok ()
  | .done => (h.done.on s).1 = .ok ()

/-- The handler answers the notifications, one after the other, by going on, and they lead it from `s` to `t`. -/
def Takes (h : Handler σ) : List Notification → σ → σ → Prop
  | [], s, t => t = s
  | n :: later, s, t => h.Accepts s n ∧ h.Takes later (h.hear n s) t

end Handler

/-! ## Ledgers -/

namespace Ledger

variable {failure dangling : FailureMode} {notes : List Notification} {n : Notification} {l l' : Ledger}

/-- What a ledger holds after a history: a message for each piece of news, and what could not be made. -/
structure Holds (dangling : FailureMode) (notes : List Notification) (l : Ledger) : Prop where
  errors : l.errors = (news [] notes).filterMap (Notification.errorText? dangling)
  warnings : l.warnings = (news [] notes).filterMap (Notification.warningText? dangling)
  danglingErrors : l.danglingErrors = ((news [] notes).filterMap (Notification.lateText? dangling)).length
  createFailed : ∀ x, x ∈ l.createFailed ↔ x ∈ notes.filterMap Notification.createFailed?

namespace Holds

theorem empty (dangling : FailureMode) : Holds dangling [] {} := ⟨rfl, rfl, rfl, fun _ => Iff.rfl⟩

/-- News adds its own messages. -/
theorem told (h : Holds dangling notes l) (hnew : n.repeats notes = false)
    (herrors : l'.errors = l.errors ++ (n.errorText? dangling).toList)
    (hwarnings : l'.warnings = l.warnings ++ (n.warningText? dangling).toList)
    (hdangling : l'.danglingErrors = l.danglingErrors + (n.lateText? dangling).toList.length)
    (hcreate : ∀ x, x ∈ l'.createFailed ↔ x ∈ l.createFailed ∨ n.createFailed? = some x) :
    Holds dangling (notes ++ [n]) l' := by
  have hnews : ∀ f : Notification → Option String,
      (news [] (notes ++ [n])).filterMap f = (news [] notes).filterMap f ++ (f n).toList := by
    intro f
    have hone : [n].filterMap f = (f n).toList := by
      rw [List.filterMap_cons]
      cases f n <;> rfl
    rw [news_concat, List.nil_append, hnew, List.filterMap_append, ← hone]
    rfl
  refine ⟨?_, ?_, ?_, fun x => ?_⟩
  · rw [herrors, h.errors, hnews]
  · rw [hwarnings, h.warnings, hnews]
  · rw [hdangling, h.danglingErrors, hnews, List.length_append]
  · rw [hcreate, h.createFailed, List.filterMap_append, List.mem_append]
    simp

/-- What repeats something leaves the ledger as it is. -/
theorem repeated (h : Holds dangling notes l) (hold : n.repeats notes = true) : Holds dangling (notes ++ [n]) l := by
  have hnews : news [] (notes ++ [n]) = news [] notes := by
    rw [news_concat, List.nil_append, hold]
    exact List.append_nil _
  have hcreate : n.createFailed? = none := by
    cases n with
    | notFound kind id => rfl
    | _ => cases hold
  refine ⟨?_, ?_, ?_, fun x => ?_⟩
  · rw [hnews, h.errors]
  · rw [hnews, h.warnings]
  · rw [hnews, h.danglingErrors]
  · rw [h.createFailed, List.filterMap_append]
    simp [hcreate]

/-- What a ledger does not know to be missing has not been reported. -/
theorem repeats_eq_false (h : Holds dangling notes l) (hnew : ∀ x, n.notFound? = some x → x ∉ l.createFailed) :
    n.repeats notes = false := by
  unfold Notification.repeats
  cases hx : n.notFound? with
  | none => rfl
  | some x => exact Bool.eq_false_iff.2 fun hin => hnew x hx ((h.createFailed x).2 (List.contains_iff_mem.1 hin))

/-- A problem with an object that has not been reported is written down. -/
theorem problem (h : Holds dangling notes l) (hnew : n.repeats notes = false) {text : String}
    (hp : n.problemText? = some text) (herrors : l'.errors = l.errors ++ [text])
    (hwarnings : l'.warnings = l.warnings) (hdangling : l'.danglingErrors = l.danglingErrors)
    (hcreate : ∀ x, x ∈ l'.createFailed ↔ x ∈ l.createFailed ∨ n.createFailed? = some x) :
    Holds dangling (notes ++ [n]) l' := by
  have hr : n.danglingText? = none := by
    cases n with
    | dangling => cases hp
    | _ => rfl
  have herror : n.errorText? dangling = some text := by rw [Notification.errorText?, hp, Option.some_or]
  have hwarning : n.warningText? dangling = none := by rw [Notification.warningText?, hr, ite_self]
  have hlate : n.lateText? dangling = none := by rw [Notification.lateText?, hr, ite_self]
  refine h.told hnew ?_ ?_ ?_ hcreate
  · rw [herrors, herror]
    rfl
  · rw [hwarnings, hwarning]
    exact (List.append_nil _).symm
  · rw [hdangling, hlate]
    rfl

/-- What is neither a problem nor a reference adds nothing. -/
theorem other (h : Holds dangling notes l) (hp : n.problemText? = none) (hr : n.danglingText? = none)
    (hcreate : ∀ x, x ∈ l.createFailed ↔ x ∈ l.createFailed ∨ n.createFailed? = some x) :
    Holds dangling (notes ++ [n]) l := by
  have hnew : n.repeats notes = false := by
    cases n with
    | notFound => cases hp
    | _ => rfl
  have herror : n.errorText? dangling = none := by rw [Notification.errorText?, hp, hr, ite_self, Option.none_or]
  have hwarning : n.warningText? dangling = none := by rw [Notification.warningText?, hr, ite_self]
  have hlate : n.lateText? dangling = none := by rw [Notification.lateText?, hr, ite_self]
  refine h.told hnew ?_ ?_ ?_ hcreate
  · rw [herror]
    exact (List.append_nil _).symm
  · rw [hwarning]
    exact (List.append_nil _).symm
  · rw [hlate]
    rfl

/-- There are no more dangling errors than errors: the others are problems with objects. -/
theorem length_errors (h : Holds dangling notes l) :
    l.errors.length = ((news [] notes).filterMap Notification.problemText?).length + l.danglingErrors := by
  rw [h.errors, h.danglingErrors]
  induction news [] notes with
  | nil => rfl
  | cons n later ih =>
    have hone : (n.errorText? dangling).toList.length =
        n.problemText?.toList.length + (n.lateText? dangling).toList.length := by
      cases n <;> cases dangling <;> rfl
    have hcons : ∀ f : Notification → Option String,
        ((n :: later).filterMap f).length = (f n).toList.length + (later.filterMap f).length := by
      intro f
      rw [List.filterMap_cons]
      cases f n with
      | none => exact (Nat.zero_add _).symm
      | some text => exact Nat.add_comm _ _
    rw [hcons, hcons, hcons, ih, hone]
    omega

end Holds

/-- A ledger that goes on holds what it is told. -/
theorem holds_hear (h : Holds dangling notes l) (hstart : n.isStart = false)
    (ha : (Handler.byMode failure dangling).Accepts l n) :
    Holds dangling (notes ++ [n]) ((Handler.byMode failure dangling).hear n l) := by
  have hcreate : ∀ x, x ∈ ((Handler.byMode failure dangling).hear n l).createFailed ↔
      x ∈ l.createFailed ∨ n.createFailed? = some x := fun x => (mem_createFailed_hear hstart l).trans Or.comm
  have hl : Enters dangling l n ((Handler.byMode failure dangling).hear n l) := enters_hear hstart l
  generalize (Handler.byMode failure dangling).hear n l = l' at hl hcreate
  cases hl with
  | problem htext hnew _ => exact h.problem (h.repeats_eq_false hnew) htext rfl rfl rfl hcreate
  | known hknown => exact h.repeated (List.contains_iff_mem.2 ((h.createFailed _).1 hknown))
  | dangling kind id =>
    cases dangling with
    | failFast => cases ha
    | failAtEnd => exact h.told rfl rfl (List.append_nil _).symm rfl hcreate
    | carryOn => exact h.told rfl (List.append_nil _).symm rfl rfl hcreate
  | silent hproblem hdangling _ => exact h.other hproblem hdangling hcreate

/-- So it does after any history. -/
theorem holds_of_takes {earlier later : List Notification} (h : Holds dangling earlier l)
    (hstart : ∀ n ∈ later, n.isStart = false) (ht : (Handler.byMode failure dangling).Takes later l l') :
    Holds dangling (earlier ++ later) l' := by
  induction later generalizing earlier l with
  | nil =>
    obtain rfl : l' = l := ht
    rwa [List.append_nil]
  | cons n later ih =>
    obtain ⟨ha, ht⟩ := ht
    have hnext := ih (holds_hear h (hstart n List.mem_cons_self) ha) (fun m hm => hstart m (List.mem_cons_of_mem _ hm)) ht
    rwa [List.append_assoc] at hnext

/-! ## The verdict -/

/-- The errors that are left over are those of objects. -/
theorem objectErrors_pos_iff (h : Holds dangling notes l) :
    0 < l.objectErrors ↔ ∃ n ∈ news [] notes, n.problemText?.isSome = true := by
  have hcount : l.objectErrors = ((news [] notes).filterMap Notification.problemText?).length := by
    rw [objectErrors, h.length_errors, Nat.add_sub_cancel]
  rw [hcount, List.length_pos_iff_exists_mem]
  constructor
  · rintro ⟨text, htext⟩
    obtain ⟨n, hn, hp⟩ := List.mem_filterMap.1 htext
    exact ⟨n, hn, Option.isSome_iff_exists.2 ⟨text, hp⟩⟩
  · rintro ⟨n, hn, hp⟩
    obtain ⟨text, hp⟩ := Option.isSome_iff_exists.1 hp
    exact ⟨text, List.mem_filterMap.2 ⟨n, hn, hp⟩⟩

/-- Where dangling references count as errors, each of them does: none repeats what was reported. -/
theorem danglingErrors_pos_iff (h : Holds .failAtEnd notes l) :
    0 < l.danglingErrors ↔ ∃ kind id, .dangling kind id ∈ notes := by
  rw [h.danglingErrors, List.length_pos_iff_exists_mem]
  constructor
  · rintro ⟨text, htext⟩
    obtain ⟨n, hn, hr⟩ := List.mem_filterMap.1 htext
    cases n with
    | dangling kind id => exact ⟨kind, id, (mem_news_iff rfl).1 hn⟩
    | _ => cases hr
  · rintro ⟨kind, id, hmem⟩
    exact ⟨_, List.mem_filterMap.2 ⟨_, (mem_news_iff rfl).2 hmem, rfl⟩⟩

/-- The verdict on a history that a ledger has gone through since a pass began. There are no more dangling errors than
errors, so that what is left over are the problems with objects. The pass fails exactly if the modes say so of what came
up. Each problem that has not been reported and each dangling reference that counts has its message, in order. -/
theorem judges_history {readOnly : Bool} {former : Ledger} (hstart : ∀ n ∈ notes, n.isStart = false)
    (ht : (Handler.byMode failure dangling).Takes notes ((Handler.byMode failure dangling).start readOnly former) l) :
    l.danglingErrors ≤ l.errors.length ∧
    ((∃ e, ((Handler.byMode failure dangling).done.on l).1 = .error e) ↔
      (failure = .failAtEnd ∧ ∃ n ∈ news [] notes, n.problemText?.isSome = true) ∨
        (dangling = .failAtEnd ∧ ∃ kind id, .dangling kind id ∈ notes)) ∧
    l.errors = (news [] notes).filterMap (Notification.errorText? dangling) ∧
    l.warnings = (news [] notes).filterMap (Notification.warningText? dangling) := by
  have h : Holds dangling notes l := holds_of_takes (.empty dangling) hstart ht
  have hverdict : (∃ e, ((Handler.byMode failure dangling).done.on l).1 = .error e) ↔
      (failure = .failAtEnd ∧ 0 < l.objectErrors) ∨ (dangling = .failAtEnd ∧ 0 < l.danglingErrors) := by
    rw [Handler.on_done_byMode, verdict]
    split <;> simp_all
  refine ⟨?_, ?_, h.errors, h.warnings⟩
  · rw [h.length_errors]
    exact Nat.le_add_left _ _
  · rw [hverdict, objectErrors_pos_iff h]
    refine or_congr Iff.rfl (and_congr_right ?_)
    rintro rfl
    exact danglingErrors_pos_iff h

/-- Problems of every sort with a few objects, one of them missing because it could not be made. -/
def mixedHistory : List Notification :=
  [.loadFailed .feed "feed f" (.json "end of input"), .createFailed .policy "p" "t" (.construct "refused"),
    .dangling .location "l", .notFound .policy "p", .notFound .policy "q", .rebindFailed .entity "e" (.reconstruct "stale"),
    .dangling .entity "e", .manageFailed .entity "e" (.manage "busy")]

theorem judges_history_mixedHistory :
    let h := Handler.byMode .carryOn .failAtEnd
    let former : Ledger := { errors := ["old"], danglingErrors := 2, createFailed := [(.policy, "q")] }
    let l := h.heard mixedHistory.reverse (h.start false former)
    (∀ n ∈ mixedHistory, n.isStart = false) ∧ h.Takes mixedHistory (h.start false former) l ∧
      l.errors.length = 7 ∧ l.danglingErrors = 2 ∧
      l.errors = (news [] mixedHistory).filterMap (Notification.errorText? .failAtEnd) ∧
      ∃ e, (h.done.on l).1 = .error e := by
  intro h former l
  have hstart : ∀ n ∈ mixedHistory, n.isStart = false := by decide
  have htakes : h.Takes mixedHistory (h.start false former) l := ⟨rfl, rfl, rfl, rfl, rfl, rfl, rfl, rfl, rfl⟩
  obtain ⟨-, hends, herrors, -⟩ := judges_history hstart htakes
  exact ⟨hstart, htakes, rfl, rfl, herrors, hends.2 (.inr ⟨rfl, .location, "l", by decide⟩)⟩

end Ledger

end ManagementPlane
