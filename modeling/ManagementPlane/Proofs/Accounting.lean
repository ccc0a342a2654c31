import ManagementPlane.Proofs.Bookkeeping
import ManagementPlane.Proofs.Outcome
import ManagementPlane.Proofs.Stops

/-!
# The accounts of passes

A run tells its outcome in three ways: by what it returns, by the counts and the report that its manager keeps, and by
what its handler has recorded.

* `Manager.cause?` : the error that ends a pass, as it was before the handler turned it into the one that is returned;
* `Manager.Accounted` : the three agree on one run;
* `Manager.accounted_runPass` : so they do on every run with a handler that acts by modes;
* `Roster` : a manager with its handlers and the passes made for it, which are run in any order, also more than once;
* `Roster.runs_are_accounted` : after any runs, those that were not refused are just those counted, and the next run
  will be accounted for, whichever it is.
-/

namespace ManagementPlane

variable {σ : Type}

/-! ## The error that is returned -/

namespace Ledger

/-- An error that ends a pass: a cause, or the verdict on what the ledger holds. -/
def Ends (e : RebindError) (l : Ledger) : Prop := e.IsCause ∨ ∃ message, e = .failed message l.errors l.warnings

theorem ends_of_verdict {failure danglingMode : FailureMode} {l : Ledger} {e : RebindError}
    (h : l.verdict failure danglingMode = some e) : Ends e l := by
  unfold verdict at h
  split at h
  · cases h
    exact .inr ⟨_, rfl⟩
  · cases h

/-- The error that is returned carries what the ledger holds. It is the verdict, or names the cause. -/
theorem exists_raise_eq {l : Ledger} {e : RebindError} (h : Ends e l) : ∃ message,
    l.raise e = .failed message l.errors l.warnings ∧ (l.raise e = e ∨ message = "rebind failed: " ++ e.message) := by
  rcases h with h | ⟨message, rfl⟩
  · cases e with
    | alreadyRun => cases h
    | phaseMismatch => cases h
    | failed => cases h
    | store => exact ⟨_, rfl, .inr rfl⟩
    | object => exact ⟨_, rfl, .inr rfl⟩
    | defaultCatalog => exact ⟨_, rfl, .inr rfl⟩
  · exact ⟨message, rfl, .inl rfl⟩

end Ledger

/-- A pass under a handler that acts by modes stays begun, and what ends it is a cause or the verdict. -/
theorem Pass.ends_verdict {t : Task} {failure danglingMode : FailureMode} {p q : Pass Ledger}
    {result : Except RebindError (List Handle)}
    (h : (Pass.verdict t (.byMode failure danglingMode)).on p = (result, q)) :
    q.started = p.started ∧ ∀ e, result = .error e → Ledger.Ends e q.handler := by
  have hphases := Pass.proper_phases (t := t) (Handler.stopsForCause_byMode failure danglingMode)
  unfold verdict at h
  rw [Step.on_bind] at h
  rcases hp : (Pass.phases t (.byMode failure danglingMode)).on p with ⟨e | applications, r⟩
  · rw [hp] at h
    cases h
    refine ⟨(hphases.sameBegin p).to hp, fun e' he => ?_⟩
    cases he
    exact .inl (hphases.stops p e _ hp)
  · have hstart : r.started = p.started := (hphases.sameBegin p).to hp
    rw [hp] at h
    dsimp only at h
    rw [Step.on_bind, Pass.on_tell, Handler.on_done_byMode] at h
    cases hv : r.handler.verdict failure danglingMode with
    | none =>
      rw [hv] at h
      cases h
      exact ⟨hstart, nofun⟩
    | some e =>
      rw [hv] at h
      cases h
      refine ⟨hstart, fun e' he => ?_⟩
      cases he
      exact Ledger.ends_of_verdict hv

/-! ## One run -/

namespace Manager

variable (m : Manager) (setup : Setup) (source : Source) (time : Nat)

/-- The error that ends a pass, as it is before the handler turns it into the one that is returned. -/
def cause? (h : Handler σ) (iteration : Iteration) (s : σ) : Option RebindError :=
  match (m.ending setup source h iteration s).1 with
  | .ok _ => none
  | .error e => some e

/-- Whether a run was let through: whatever it came to, it was not refused for having been made before. -/
def wasRun : Except RebindError (List Handle) → Bool
  | .error .alreadyRun => false
  | _ => true

/-- What a run returns agrees with what the manager counts and reports, and with what the handler has recorded. -/
structure Accounted (m : Manager) (iteration : Iteration) (s : Ledger) (cause? : Option RebindError)
    (o : Outcome Ledger) : Prop where
  /-- A pass is run once. -/
  wasRun_iff : wasRun o.result = true ↔ iteration.started = false
  spent : o.iteration.started = true
  ok_iff : (∃ applications, o.result = .ok applications) ↔
    o.manager.metrics.successes = m.metrics.successes + 1
  error_iff : (∃ e, o.result = .error e ∧ e ≠ .alreadyRun) ↔ o.manager.metrics.failures = m.metrics.failures + 1
  counted : o.manager.metrics.successes + o.manager.metrics.failures =
    m.metrics.successes + m.metrics.failures + if wasRun o.result then 1 else 0
  /-- The error carries what the handler has recorded, and says what ended the pass. -/
  failed : ∀ e, o.result = .error e → e ≠ .alreadyRun → ∃ cause message, cause? = some cause ∧
    e = .failed message o.handler.errors o.handler.warnings ∧ (e = cause ∨ message = "rebind failed: " ++ cause.message)
  reported_iff : o.manager.metrics.reports = m.metrics.reports + 1 ↔ wasRun o.result = true ∧
    ((∃ e, o.result = .error e) ∨ o.handler.errors ≠ [] ∨ o.handler.warnings ≠ [])
  /-- What is reported: the error that ended the pass, if one did, and what the handler has recorded. -/
  report : o.manager.metrics.reports = m.metrics.reports + 1 → o.manager.metrics.lastReport =
    some ((cause?.map RebindError.message).toList ++ o.handler.errors ++ o.handler.warnings)
  cause_none : ∀ applications, o.result = .ok applications → cause? = none
  kept : o.manager.metrics.reports ≠ m.metrics.reports + 1 → o.manager.metrics.reports = m.metrics.reports ∧
    o.manager.metrics.lastReport = m.metrics.lastReport
  /-- A run that is refused changes nothing. -/
  refused : wasRun o.result = false → o.manager = m ∧ o.iteration = iteration ∧ o.handler = s

theorem accounted_of_started {iteration : Iteration} (hstarted : iteration.started = true) (s : Ledger)
    (cause? : Option RebindError) : Accounted m iteration s cause? ⟨.error .alreadyRun, m, iteration, s⟩ where
  wasRun_iff := by simp [wasRun, hstarted]
  spent := hstarted
  ok_iff := by simp
  error_iff := by simp
  counted := by simp [wasRun]
  failed e he hne := absurd (Except.error.inj he).symm hne
  reported_iff := by simp [wasRun]
  report h := by simp at h
  cause_none := nofun
  kept _ := ⟨rfl, rfl⟩
  refused _ := ⟨rfl, rfl, rfl⟩

/-! ### What is counted and reported -/

section Account
variable (metrics : PassMetrics) (time : Nat) (failure : Option RebindError) (report : Option (List String))

theorem successes_account : (account metrics time failure report).successes =
    metrics.successes + if failure.isNone then 1 else 0 := by
  cases failure <;> cases report <;> simp [account, PassMetrics.successes, PassMetrics.noteSuccess,
    PassMetrics.noteFailure, PassMetrics.noteReport]

theorem failures_account : (account metrics time failure report).failures =
    metrics.failures + if failure.isNone then 0 else 1 := by
  cases failure <;> cases report <;> simp [account, PassMetrics.failures, PassMetrics.noteSuccess,
    PassMetrics.noteFailure, PassMetrics.noteReport]

theorem reports_account : (account metrics time failure report).reports =
    metrics.reports + if report.isSome then 1 else 0 := by
  cases failure <;> cases report <;> rfl

theorem lastReport_account : (account metrics time failure report).lastReport = report.or metrics.lastReport := by
  cases failure <;> cases report <;> rfl

end Account

section Report
variable {metrics : PassMetrics} {time : Nat} {h : Handler σ} {failure : Option RebindError} {s : σ}

theorem isSome_report_iff :
    (Pass.report h failure s).isSome = true ↔ failure ≠ none ∨ h.errors s ≠ [] ∨ h.warnings s ≠ [] := by
  unfold Pass.report
  split
  · next hnone => simpa [and_assoc] using hnone
  · next hsome =>
    simp only [Bool.and_eq_true, Option.isNone_iff_eq_none, List.isEmpty_iff, not_and_or] at hsome
    simpa [or_assoc] using hsome

/-- Something is reported exactly if an error ended the pass or the handler has recorded anything. -/
theorem reports_account_iff : (account metrics time failure (Pass.report h failure s)).reports = metrics.reports + 1 ↔
    failure ≠ none ∨ h.errors s ≠ [] ∨ h.warnings s ≠ [] := by
  rw [reports_account, ← isSome_report_iff]
  split <;> simp [*]

theorem lastReport_of_reported
    (hr : (account metrics time failure (Pass.report h failure s)).reports = metrics.reports + 1) :
    (account metrics time failure (Pass.report h failure s)).lastReport =
      some ((failure.map RebindError.message).toList ++ h.errors s ++ h.warnings s) := by
  rw [reports_account_iff, ← isSome_report_iff] at hr
  rw [lastReport_account]
  unfold Pass.report at hr ⊢
  split at hr
  · cases hr
  · next hsome => rw [if_neg hsome, Option.some_or]

theorem kept_of_not_reported
    (hr : (account metrics time failure (Pass.report h failure s)).reports ≠ metrics.reports + 1) :
    (account metrics time failure (Pass.report h failure s)).reports = metrics.reports ∧
      (account metrics time failure (Pass.report h failure s)).lastReport = metrics.lastReport := by
  rw [ne_eq, reports_account_iff, ← isSome_report_iff, Bool.not_eq_true, Option.isSome_eq_false_iff,
    Option.isNone_iff_eq_none] at hr
  rw [reports_account, lastReport_account, hr]
  exact ⟨rfl, rfl⟩

end Report

/-! ### The run as a whole -/

/-- The outcome of a pass that was run shows the error that ended it. -/
structure Shows (cause? : Option RebindError) (o : Outcome Ledger) : Prop where
  started : o.iteration.started = true
  ok_iff : (∃ applications, o.result = .ok applications) ↔ cause? = none
  failed : ∀ e, o.result = .error e → ∃ cause message, cause? = some cause ∧
    e = .failed message o.handler.errors o.handler.warnings ∧ (e = cause ∨ message = "rebind failed: " ++ cause.message)

section Run
variable {failure danglingMode : FailureMode} {iteration : Iteration} {cause? : Option RebindError} {o : Outcome Ledger}

theorem Shows.error_iff (ho : Shows cause? o) : (∃ e, o.result = .error e) ↔ cause? ≠ none := by
  rw [ne_eq, ← ho.ok_iff]
  cases o.result <;> simp

theorem Shows.wasRun (ho : Shows cause? o) : wasRun o.result = true := by
  cases hr : o.result with
  | ok => rfl
  | error e =>
    obtain ⟨cause, message, -, rfl, -⟩ := ho.failed e hr
    rfl

theorem Shows.ne_alreadyRun (ho : Shows cause? o) {e : RebindError} (he : o.result = .error e) : e ≠ .alreadyRun := by
  obtain ⟨cause, message, -, rfl, -⟩ := ho.failed e he
  nofun

/-- The outcome of a pass that has not been run before shows the error that ended it, and so does what is counted and
reported of it. -/
theorem shows_runPass (hnew : iteration.started = false) (s : Ledger)
    (hcause : m.cause? setup source (.byMode failure danglingMode) iteration s = cause?)
    (ho : m.runPass setup source time (.byMode failure danglingMode) iteration s = o) : Shows cause? o ∧
      o.manager.metrics =
        account m.metrics time cause? (Pass.report (.byMode failure danglingMode) cause? o.handler) := by
  rw [runPass_eq m setup source time _ hnew] at ho
  unfold Manager.cause? at hcause
  rcases hv : m.ending setup source (.byMode failure danglingMode) iteration s with ⟨e | applications, p⟩
  · rw [hv] at ho hcause
    subst ho hcause
    obtain ⟨hstart, hends⟩ := Pass.ends_verdict hv
    obtain ⟨message, hraise, hnames⟩ := Ledger.exists_raise_eq (hends e rfl)
    refine ⟨⟨hstart, by simp, fun e' he => ?_⟩, rfl⟩
    cases he
    exact ⟨e, message, rfl, hraise, hnames⟩
  · rw [hv] at ho hcause
    subst ho hcause
    exact ⟨⟨(Pass.ends_verdict hv).1, by simp, nofun⟩, rfl⟩

theorem Shows.accounted (ho : Shows cause? o) (hnew : iteration.started = false) (s : Ledger)
    (hmetrics : o.manager.metrics =
      account m.metrics time cause? (Pass.report (.byMode failure danglingMode) cause? o.handler)) :
    Accounted m iteration s cause? o where
  wasRun_iff := by simp [ho.wasRun, hnew]
  spent := ho.started
  ok_iff := by
    rw [ho.ok_iff, hmetrics, successes_account]
    cases cause? <;> simp
  error_iff := by
    have hany : (∃ e, o.result = .error e ∧ e ≠ .alreadyRun) ↔ ∃ e, o.result = .error e :=
      ⟨fun ⟨e, he, _⟩ => ⟨e, he⟩, fun ⟨e, he⟩ => ⟨e, he, ho.ne_alreadyRun he⟩⟩
    rw [hany, ho.error_iff, hmetrics, failures_account]
    cases cause? <;> simp
  counted := by
    rw [hmetrics, successes_account, failures_account, ho.wasRun, if_pos rfl]
    split <;> omega
  failed e he _ := ho.failed e he
  reported_iff := by
    rw [hmetrics, reports_account_iff, ho.wasRun, ho.error_iff]
    exact ⟨fun h => ⟨rfl, h⟩, And.right⟩
  report h := by
    rw [hmetrics] at h ⊢
    exact lastReport_of_reported h
  cause_none applications hok := ho.ok_iff.1 ⟨applications, hok⟩
  kept h := by
    rw [hmetrics] at h ⊢
    exact kept_of_not_reported h
  refused h := by
    rw [ho.wasRun] at h
    cases h

/-- A run with a handler that acts by modes is accounted for. -/
theorem accounted_runPass (failure danglingMode : FailureMode) (iteration : Iteration) (s : Ledger) :
    Accounted m iteration s (m.cause? setup source (.byMode failure danglingMode) iteration s)
      (m.runPass setup source time (.byMode failure danglingMode) iteration s) := by
  cases hnew : iteration.started with
  | true =>
    have ho : m.runPass setup source time (.byMode failure danglingMode) iteration s =
        ⟨.error .alreadyRun, m, iteration, s⟩ := if_pos hnew
    rw [ho]
    exact m.accounted_of_started hnew s _
  | false =>
    obtain ⟨hshows, hmetrics⟩ := m.shows_runPass setup source time hnew s rfl rfl
    exact hshows.accounted m time hnew s hmetrics

end Run

end Manager

/-! ## Any number of runs -/

/-- A handler that acts by modes, with what it has recorded. -/
structure Keeper where
  failureMode : FailureMode
  danglingMode : FailureMode
  ledger : Ledger := {}

def Keeper.handler (k : Keeper) : Handler Ledger := .byMode k.failureMode k.danglingMode

/-- A manager with the handlers and the passes that were made for it. Each pass has the number of its handler, and passes
may have one in common. -/
structure Roster where
  manager : Manager
  keepers : Nat → Keeper
  passes : Nat → Iteration × Nat
  replies : List (Except RebindError (List Handle)) := []

namespace Roster

/-- The run of a pass: what is set about passes then, what the store shows, and how long it takes. -/
structure Call where
  pass : Nat
  setup : Setup
  source : Source
  time : Nat

/-- Passes that have not been run yet, over a manager that has not counted any. -/
def start (plane : Plane) (hotPasses : Int) (keepers : Nat → Keeper) (passes : Nat → ManagementMode × Nat) : Roster where
  manager := { plane, hotPasses }
  keepers := keepers
  passes n := (.new (passes n).1, (passes n).2)

variable (r : Roster) (c : Call)

def iteration : Iteration := (r.passes c.pass).1

/-- The handler that the pass reports to. -/
def keeper : Keeper := r.keepers (r.passes c.pass).2

def outcome : Manager.Outcome Ledger :=
  r.manager.runPass c.setup c.source c.time (r.keeper c).handler (r.iteration c) (r.keeper c).ledger

/-- The error that ends the pass that is run. -/
def cause? : Option RebindError :=
  r.manager.cause? c.setup c.source (r.keeper c).handler (r.iteration c) (r.keeper c).ledger

def serve : Roster :=
  let o := r.outcome c
  let number := (r.passes c.pass).2
  { manager := o.manager
    keepers := fun n => if n = number then { r.keeper c with ledger := o.handler } else r.keepers n
    passes := fun n => if n = c.pass then (o.iteration, number) else r.passes n
    replies := r.replies ++ [o.result] }

def run (calls : List Call) : Roster := calls.foldl serve r

/-- What a run returns, what is counted and reported of it, and what its handler has recorded agree. -/
def Accounts : Prop := Manager.Accounted r.manager (r.iteration c) (r.keeper c).ledger (r.cause? c) (r.outcome c)

theorem accounts : r.Accounts c := Manager.accounted_runPass _ _ _ _ _ _ _ _

/-- The runs `calls` have been replied to. Those that were not refused have been counted, and their passes are spent. -/
structure Balanced (calls : List Call) : Prop where
  replied : r.replies.length = calls.length
  counted : r.manager.metrics.successes + r.manager.metrics.failures = r.replies.countP Manager.wasRun
  spent : ∀ n, (r.passes n).1.started = true ↔ n ∈ calls.map Call.pass

variable {r c} {calls before : List Call}

theorem balanced_start (plane : Plane) (hotPasses : Int) (keepers : Nat → Keeper)
    (passes : Nat → ManagementMode × Nat) : (start plane hotPasses keepers passes).Balanced [] where
  replied := rfl
  counted := rfl
  spent _ := ⟨nofun, nofun⟩

theorem balanced_serve (h : r.Balanced before) (c : Call) : (r.serve c).Balanced (before ++ [c]) where
  replied := by
    show (r.replies ++ [_]).length = _
    rw [List.length_append, List.length_append, h.replied]
    rfl
  counted := by
    show (r.outcome c).manager.metrics.successes + (r.outcome c).manager.metrics.failures =
      (r.replies ++ [(r.outcome c).result]).countP Manager.wasRun
    rw [(r.accounts c).counted, h.counted, List.countP_append, List.countP_singleton]
  spent n := by
    show ((if n = c.pass then ((r.outcome c).iteration, (r.passes c.pass).2) else r.passes n).1.started = true) ↔ _
    rw [List.map_append, List.mem_append, ← h.spent n]
    split
    · next hn => simp [hn, (r.accounts c).spent]
    · next hn => simp [hn]

theorem balanced_run (h : r.Balanced before) (calls : List Call) : (r.run calls).Balanced (before ++ calls) := by
  induction calls generalizing r before with
  | nil => rwa [List.append_nil]
  | cons c calls ih =>
    have hnext := ih (balanced_serve h c)
    rwa [List.append_assoc, List.singleton_append] at hnext

/-- After any runs, as many are counted as were not refused. Whatever is run next, it is refused exactly if the pass has
been run before, and it is accounted for. -/
theorem runs_are_accounted (plane : Plane) (hotPasses : Int) (keepers : Nat → Keeper)
    (passes : Nat → ManagementMode × Nat) (calls : List Call) :
    let r := (start plane hotPasses keepers passes).run calls
    r.replies.length = calls.length ∧
      r.manager.metrics.successes + r.manager.metrics.failures = r.replies.countP Manager.wasRun ∧
      ∀ c : Call, (Manager.wasRun (r.outcome c).result = true ↔ c.pass ∉ calls.map Call.pass) ∧ r.Accounts c := by
  intro r
  have hbalanced : r.Balanced calls := balanced_run (balanced_start plane hotPasses keepers passes) calls
  refine ⟨hbalanced.replied, hbalanced.counted, fun c => ⟨?_, r.accounts c⟩⟩
  rw [(r.accounts c).wasRun_iff, ← hbalanced.spent c.pass, Bool.not_eq_true]
  rfl

/-- A run over a store that holds an entity of the given type. -/
def Call.over (type : String) (pass : Nat) : Call where
  pass
  setup := .stock
  source := (MemoryStore.holding [(.entity, { id := "app", type })]).source
  time := 1

/-- Passes with one handler, which lets them fail at their end. -/
def strict : Roster := start {} 0 (fun _ => ⟨.failAtEnd, .carryOn, {}⟩) fun _ => (.master, 0)

/-- A pass that fails, the same pass again, and another one that goes through. -/
example :
    let r := strict.run [.over "unknown" 0, .over "unknown" 0, .over "trellis.entity.BasicApplication" 1]
    r.replies.map Manager.wasRun = [true, false, true] ∧ r.manager.metrics.successes = 1 ∧
      r.manager.metrics.failures = 1 ∧ r.manager.metrics.reports = 1 := by
  decide +kernel

end Roster

end ManagementPlane
