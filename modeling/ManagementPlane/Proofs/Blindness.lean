import ManagementPlane.Pass.Run
import ManagementPlane.Proofs.Lockstep
import ManagementPlane.Proofs.Turns

/-!
# Log entries are written and never read

* `Plane.forgetLog_*`, `*_forgetLog` : it makes no difference to the live manager whether log entries are forgotten
  before or after a change;
* `Pass.SameButLog` : two passes that differ in log entries on record only;
* `Pass.Blind x` : from two such passes the step `x` comes to the same, and to two such passes;
* `Pass.blind_rebuildCatalog`, … , `Pass.blind_manageAll` : so do the phases that do not read the store.
-/

namespace ManagementPlane

variable {σ α β : Type}

/-! ## The live manager -/

namespace Plane

variable (p : Plane) (k : ObjectKind) (a : Handle)

theorem forgetLog_record_logged (entry : LogEntry) : (p.record (.logged entry)).forgetLog = p.forgetLog := rfl

theorem forgetLog_record_notified (n : Notification) :
    (p.record (.notified n)).forgetLog = p.forgetLog.record (.notified n) := rfl

theorem read_forgetLog : p.forgetLog.read a = p.read a := rfl

theorem registry_forgetLog : p.forgetLog.registry k = p.registry k := by cases k <;> rfl

theorem setRegistry_forgetLog (r : Registry) : p.forgetLog.setRegistry k r = (p.setRegistry k r).forgetLog := by
  cases k <;> rfl

theorem preManage_forgetLog : p.forgetLog.preManage a = (p.preManage a).forgetLog := by
  unfold preManage
  dsimp only
  rw [read_forgetLog, show p.forgetLog.isPreManaged (p.read a).kind (p.read a).id =
    p.isPreManaged (p.read a).kind (p.read a).id from rfl]
  split <;> rfl

theorem reconstruct_forgetLog (known : ObjectKind → String → Bool) (readOnly : Bool) (m : Memento) :
    p.forgetLog.reconstruct known readOnly a m =
      ((p.reconstruct known readOnly a m).1, (p.reconstruct known readOnly a m).2.forgetLog) := by
  unfold reconstruct
  dsimp only
  rw [read_forgetLog]
  split
  · rfl
  · split
    · rfl
    · split <;> rfl

theorem reconstructItem_forgetLog (i : CatalogItem) :
    p.forgetLog.reconstructItem a i = ((p.reconstructItem a i).1, (p.reconstructItem a i).2.forgetLog) := by
  unfold reconstructItem
  dsimp only
  rw [read_forgetLog]
  split <;> rfl

theorem attach_forgetLog (entity : String) :
    p.forgetLog.attach a entity = ((p.attach a entity).1, (p.attach a entity).2.forgetLog) := by
  unfold attach
  dsimp only
  rw [read_forgetLog]
  split
  · rfl
  · split <;> rfl

theorem addAdjunct_forgetLog (entity : Handle) :
    p.forgetLog.addAdjunct entity k a = ((p.addAdjunct entity k a).1, (p.addAdjunct entity k a).2.forgetLog) := by
  unfold addAdjunct
  rw [read_forgetLog, attach_forgetLog]
  rcases p.attach a (p.read entity).id with ⟨_ | _, q⟩
  · rfl
  · dsimp only
    rw [read_forgetLog]
    split <;> rfl

theorem manageNoted_forgetLog :
    p.forgetLog.manageNoted k a = ((p.manageNoted k a).1, (p.manageNoted k a).2.forgetLog) := by
  cases k <;> rfl

theorem manageAll_forgetLog (order : List Handle) (p : Plane) :
    manageAll k order p.forgetLog = ((manageAll k order p).1, (manageAll k order p).2.forgetLog) := by
  induction order generalizing p with
  | nil => rfl
  | cons a order ih =>
    unfold manageAll
    rw [read_forgetLog, manageNoted_forgetLog]
    dsimp only
    rw [ih]

theorem manageTree_forgetLog (children : OrderedMap String (List Handle)) :
    p.forgetLog.manageTree k children a =
      ((p.manageTree k children a).1, (p.manageTree k children a).2.forgetLog) := by
  unfold manageTree
  dsimp only
  rw [manageAll_forgetLog, show p.forgetLog.treeOrder children a = p.treeOrder children a from rfl]
  rcases manageAll k (p.treeOrder children a) p with ⟨_ | e, q⟩ <;> rfl

theorem unmanage_forgetLog (id : String) (t : Transition) :
    p.forgetLog.unmanage k id t = ((p.unmanage k id t).1, (p.unmanage k id t).2.forgetLog) := by
  unfold unmanage
  dsimp only
  rw [registry_forgetLog, setRegistry_forgetLog]
  split <;> rfl

end Plane

namespace Scratch

theorem register_forgetLog (s : Scratch) (p : Plane) (a : Handle) :
    s.register p.forgetLog a = ((s.register p a).1, (s.register p a).2.forgetLog) := by
  unfold register
  dsimp only
  rw [Plane.read_forgetLog]
  split <;> rfl

end Scratch

namespace Instantiator

variable (k : ObjectKind) (id : String) (item : Option String) (candidates : List ConstructorArgs) (p : Plane)

theorem construct_forgetLog (d : TypeDescriptor) : construct k d id candidates p.forgetLog =
    ((construct k d id candidates p).1, (construct k d id candidates p).2.forgetLog) := by
  unfold construct
  split
  · rfl
  · split <;> rfl

theorem makeLoaded_forgetLog (d : Except ObjectError TypeDescriptor) : makeLoaded k d id item candidates p.forgetLog =
    ((makeLoaded k d id item candidates p).1, (makeLoaded k d id item candidates p).2.forgetLog) := by
  cases d with
  | error e => rfl
  | ok d =>
    unfold makeLoaded make
    dsimp only
    rw [construct_forgetLog]
    rcases construct k d id candidates p with ⟨_ | o, q⟩
    · rfl
    · unfold finish Plane.adopt
      dsimp only
      rw [← Plane.preManage_forgetLog]
      rfl

end Instantiator

/-! ## Passes -/

namespace Pass

variable {t : Task} {h : Handler σ} {p q : Pass σ} {k : ObjectKind}

def forgetLog (p : Pass σ) : Pass σ := { p with plane := p.plane.forgetLog }

/-- The passes differ in log entries on record only. -/
def SameButLog (p q : Pass σ) : Prop := q.forgetLog = p.forgetLog

/-- From passes that differ in log entries only, the step comes to the same, and to such passes. -/
def Blind (x : PassStep σ α) : Prop := ∀ p q, SameButLog p q → Step.Agree SameButLog Eq x x p q

/-- What is read off a pass without its record is the same. -/
theorem SameButLog.congr (hpq : SameButLog p q) {g : Pass σ → α} (hg : ∀ p : Pass σ, g p.forgetLog = g p) :
    g q = g p := by
  rw [← hg q, hpq, hg p]

theorem SameButLog.update (hpq : SameButLog p q) {g : Pass σ → Pass σ} (hg : ∀ p, g p.forgetLog = (g p).forgetLog) :
    SameButLog (g p) (g q) := by
  unfold SameButLog
  rw [← hg q, hpq, hg p]

namespace Blind

theorem pure (a : α) : Blind (Pure.pure a : PassStep σ α) := fun _ _ hpq => .pure rfl hpq

theorem stop (e : RebindError) : Blind (Step.stop e : PassStep σ α) := fun _ _ hpq => .stop e hpq

theorem bind {x : PassStep σ α} {f : α → PassStep σ β} (hx : Blind x) (hf : ∀ a, Blind (f a)) : Blind (x >>= f) := by
  intro p q hpq
  refine (hx p q hpq).bind fun a b p q he hpq => ?_
  subst he
  exact hf a p q hpq

theorem read_bind {g : Pass σ → α} {f : α → PassStep σ β} (hg : ∀ p : Pass σ, g p.forgetLog = g p)
    (hf : ∀ a, Blind (f a)) : Blind (Step.read g >>= f) := by
  intro p q hpq
  refine .read_bind ?_
  rw [hpq.congr hg]
  exact hf _ p q hpq

theorem update {g : Pass σ → Pass σ} (hg : ∀ p, g p.forgetLog = (g p).forgetLog) :
    Blind (Step.update g : PassStep σ Unit) := fun _ _ hpq => .update rfl (hpq.update hg)

theorem total {f : Pass σ → α × Pass σ} (hf : ∀ p, f p.forgetLog = ((f p).1, (f p).2.forgetLog)) :
    Blind (Step.total f : PassStep σ α) := by
  intro p q hpq
  have hvalue : (f q).1 = (f p).1 := hpq.congr (g := fun p => (f p).1) fun p => by rw [hf]
  exact .ok hvalue.symm (hpq.update (g := fun p => (f p).2) fun p => by rw [hf])

theorem onPlane {f : Pass σ → α × Plane} (hf : ∀ p : Pass σ, f p.forgetLog = ((f p).1, (f p).2.forgetLog)) :
    Blind (onPlane f) := by
  refine .total fun p => ?_
  dsimp only
  rw [hf]
  rfl

theorem forEach {items : List α} {f : α → PassStep σ Unit} (hf : ∀ a ∈ items, Blind (f a)) :
    Blind (Step.forEach items f) := fun _ _ hpq => .forEach (fun a ha p q hpq => hf a ha p q hpq) hpq

end Blind

/-! ### Notes and notifications -/

/-- What is logged on either side does not matter. -/
theorem agree_logs {t t' : Task} (hpq : SameButLog p q) (level level' : LogLevel) (message message' : Pass σ → String) :
    Step.Agree SameButLog Eq (log t level message) (log t' level' message') p q := .update rfl hpq

theorem agree_logCourses {t t' : Task} (hpq : SameButLog p q) (message message' : String) :
    Step.Agree SameButLog Eq (logCourse t message) (logCourse t' message') p q :=
  .read_bind (agree_logs hpq _ _ _ _)

theorem blind_log (level : LogLevel) (message : Pass σ → String) : Blind (log t level message) :=
  fun _ _ hpq => agree_logs hpq _ _ _ _

theorem blind_logCourse (message : String) : Blind (logCourse t message : PassStep σ Unit) :=
  fun _ _ hpq => agree_logCourses hpq _ _

theorem agree_tells {ε : Type} (hpq : SameButLog p q) (n : Notification) (answer : Step σ ε Unit) :
    Step.Agree SameButLog Eq (tell n answer) (tell n answer) p q := by
  have hhandler : q.handler = p.handler := hpq.congr fun _ => rfl
  have hrest : ∀ s,
      SameButLog { p.record (.notified n) with handler := s } { q.record (.notified n) with handler := s } :=
    fun s => hpq.update (g := fun p => { p.record (.notified n) with handler := s }) fun _ => rfl
  unfold Step.Agree
  rw [on_tell, on_tell, hhandler]
  rcases answer.on p.handler with ⟨e | _, s⟩
  · exact .error (hrest s)
  · exact .ok rfl (hrest s)

theorem blind_tell (n : Notification) (answer : Step σ RebindError Unit) : Blind (tell n answer) :=
  fun _ _ hpq => agree_tells hpq n answer

theorem blind_enter (phase : Nat) : Blind (enter phase : PassStep σ Unit) := .update fun _ => rfl

theorem blind_notFound (k : ObjectKind) (id : String) : Blind (notFound h k id) := blind_tell _ _

theorem blind_rebindFailed (k : ObjectKind) (shell : Handle) (e : ObjectError) : Blind (rebindFailed h k shell e) :=
  .read_bind (fun _ => rfl) fun _ => blind_tell _ _

theorem blind_manageFailed (k : ObjectKind) (shell : Handle) (e : ObjectError) : Blind (manageFailed h k shell e) :=
  .read_bind (fun _ => rfl) fun _ => blind_tell _ _

/-! ### Making shells -/

theorem blind_makeShell {id type : String} {make : Pass σ → Plane → Except ObjectError Handle × Plane}
    (hmake : ∀ p : Pass σ, make p.forgetLog p.plane.forgetLog = ((make p p.plane).1, (make p p.plane).2.forgetLog)) :
    Blind (makeShell h k id type make) := by
  refine (Blind.onPlane hmake).bind fun made => ?_
  cases made with
  | ok shell =>
    refine .update fun p => ?_
    show ({ p.forgetLog with scratch := (p.scratch.register p.plane.forgetLog shell).1
                             plane := (p.scratch.register p.plane.forgetLog shell).2 } : Pass σ) = _
    rw [Scratch.register_forgetLog]
    rfl
  | error e => exact blind_tell _ _

theorem blind_makeAdjunct (m : Memento) : Blind (makeAdjunct t h k m) :=
  blind_makeShell fun p => Instantiator.makeLoaded_forgetLog _ _ _ _ p.plane _

theorem blind_populateCatalogItem (item : CatalogItem) : Blind (populateCatalogItem h item) := by
  refine .read_bind (fun _ => rfl) fun shell => ?_
  cases shell with
  | none => exact blind_notFound _ _
  | some shell =>
    refine (Blind.onPlane fun p => p.plane.reconstructItem_forgetLog shell item).bind fun populated => ?_
    cases populated with
    | ok => exact .pure ()
    | error e => exact blind_rebindFailed _ _ _

theorem adoptAll_forgetLog (objects : List Object) (p : Plane) :
    adoptAll objects p.forgetLog = ((adoptAll objects p).1, (adoptAll objects p).2.forgetLog) := by
  induction objects generalizing p with
  | nil => rfl
  | cons o objects ih =>
    have hrest := ih (p.adopt o).2
    unfold adoptAll
    show (_ :: (adoptAll objects (p.adopt o).2.forgetLog).1, (adoptAll objects (p.adopt o).2.forgetLog).2) = _
    rw [hrest]
    rfl

theorem blind_loadDefaultCatalog : Blind (loadDefaultCatalog t : PassStep σ Unit) := by
  unfold loadDefaultCatalog
  split
  · exact .stop _
  · refine .update fun p => ?_
    unfold fillCatalog forgetLog
    dsimp only
    rw [adoptAll_forgetLog]
    rfl

theorem blind_rebuildCatalog (m : Manifest) : Blind (rebuildCatalog t h m) := by
  refine (blind_enter 2).bind fun _ => ?_
  split
  · exact blind_logCourse _
  · refine (blind_logCourse _).bind fun _ => ?_
    refine (Blind.forEach fun item _ => blind_makeShell fun p => ?_).bind fun _ => ?_
    · exact Instantiator.makeLoaded_forgetLog _ _ _ _ p.plane _
    refine (blind_logCourse _).bind fun _ => ?_
    refine (Blind.forEach fun item _ => blind_populateCatalogItem item).bind fun _ => ?_
    refine .read_bind (fun _ => rfl) fun _ => ?_
    split
    · exact (blind_logCourse _).bind fun _ => .update fun _ => rfl
    · exact (blind_logCourse _).bind fun _ => blind_loadDefaultCatalog

theorem blind_makeLocationsAndEntities (m : Manifest) : Blind (makeLocationsAndEntities t h m) := by
  refine (blind_enter 3).bind fun _ => (blind_logCourse _).bind fun _ => ?_
  refine (Blind.forEach fun e _ => blind_makeShell fun p => ?_).bind fun _ => (blind_logCourse _).bind fun _ => ?_
  · exact Instantiator.makeLoaded_forgetLog _ _ _ _ p.plane _
  · exact .forEach fun e _ => blind_makeShell fun p => Instantiator.makeLoaded_forgetLog _ _ _ _ p.plane _

/-! ### Populating and joining them -/

theorem blind_reconstructOne (m : Memento) : Blind (reconstructOne h k m) := by
  refine .read_bind (fun _ => rfl) fun shell => ?_
  cases shell with
  | none => exact blind_notFound _ _
  | some shell =>
    refine (Blind.onPlane fun p => ?_).bind fun populated => ?_
    · exact p.plane.reconstruct_forgetLog shell (p.scratch.known p.plane) p.scratch.allReadOnly m
    · cases populated with
      | ok => exact .pure ()
      | error e =>
        refine (blind_rebindFailed _ _ _).bind fun _ => ?_
        split
        · exact .update fun _ => rfl
        · exact .pure ()

theorem blind_attachAdjuncts (snapshot : Snapshot) : Blind (attachAdjuncts t h snapshot) := by
  refine (blind_enter 7).bind fun _ => (blind_logCourse _).bind fun _ => .forEach fun m _ => ?_
  refine .read_bind (fun _ => rfl) fun entity => ?_
  cases entity with
  | none => exact blind_notFound _ _
  | some entity =>
    refine .forEach fun k _ => ?_
    unfold attachKind
    split
    · refine .forEach fun id _ => .read_bind (fun _ => rfl) fun adjunct => ?_
      cases adjunct with
      | none => exact fun p q hpq => (agree_tells hpq _ _).mapStop _
      | some adjunct =>
        refine (Blind.onPlane fun p => p.plane.addAdjunct_forgetLog k adjunct entity).bind fun attached => ?_
        cases attached with
        | ok => exact .pure ()
        | error e => exact blind_rebindFailed _ _ _
    · exact .pure ()

/-! ### Managing them -/

theorem blind_manageRoot (children : OrderedMap String (List Handle)) (root : Handle) :
    Blind (manageRoot h k children root) := by
  refine (Blind.onPlane fun p => p.plane.manageTree_forgetLog k root children).bind fun managed => ?_
  cases managed with
  | ok => exact .pure _
  | error e => exact (blind_manageFailed _ _ _).bind fun _ => .pure _

theorem blind_manageRoots (children : OrderedMap String (List Handle)) (roots : List Handle) :
    Blind (manageRoots h k children roots) :=
  .forEach fun root _ => (blind_manageRoot children root).bind fun _ => .pure ()

theorem blind_manageApplications (children : OrderedMap String (List Handle)) (ids : List String) :
    Blind (manageApplications h children ids) := by
  induction ids with
  | nil => exact .pure _
  | cons id ids ih =>
    refine .read_bind (fun _ => rfl) fun entity => ?_
    cases entity with
    | none => exact (blind_notFound _ _).bind fun _ => ih
    | some entity => exact (blind_manageRoot children entity).bind fun _ => ih.bind fun _ => .pure _

theorem forgetLog_noteTransition (shell : Handle) (p : Pass σ) :
    noteTransition t k shell p.forgetLog = (noteTransition t k shell p).forgetLog := by
  cases k <;> rfl

theorem blind_noteTransitions : Blind (noteTransitions t k : PassStep σ (List String)) := by
  refine .total fun p => Prod.ext (by cases k <;> rfl) ?_
  show (p.scratch.shells k).foldl _ p.forgetLog = ((p.scratch.shells k).foldl _ p).forgetLog
  generalize p.scratch.shells k = shells
  induction shells generalizing p with
  | nil => rfl
  | cons shell shells ih =>
    rw [List.foldl_cons, List.foldl_cons, forgetLog_noteTransition, ih]

theorem dropAll_forgetLog (ids : List String) (p : Plane) :
    dropAll k ids p.forgetLog = (dropAll k ids p).forgetLog := by
  unfold dropAll
  induction ids generalizing p with
  | nil => rfl
  | cons id ids ih =>
    rw [List.foldl_cons, List.foldl_cons, Plane.unmanage_forgetLog, ih]

theorem blind_destroyUnused (ids : List String) : Blind (destroyUnused t k ids : PassStep σ Unit) := by
  unfold destroyUnused
  split
  · refine .read_bind (fun _ => rfl) fun _ => (blind_log _ _).bind fun _ => .update fun p => ?_
    unfold forgetLog
    dsimp only
    rw [dropAll_forgetLog]
  · exact .pure ()

/-- Of the snapshot the last phase only reads the ids of the applications. -/
theorem blind_manageAll (snapshot : Snapshot) : Blind (manageAll t h snapshot) := by
  refine (blind_enter 8).bind fun _ => Blind.bind ?_ fun _ => Blind.bind ?_ fun _ => ?_
  · refine (blind_logCourse _).bind fun _ => blind_noteTransitions.bind fun _ => ?_
    refine .read_bind (fun _ => rfl) fun _ => .read_bind (fun _ => rfl) fun _ => ?_
    exact (blind_manageRoots _ _).bind fun _ => blind_destroyUnused _
  · refine (blind_logCourse _).bind fun _ => blind_noteTransitions.bind fun _ => ?_
    refine .read_bind (fun _ => rfl) fun _ => .read_bind (fun _ => rfl) fun _ => ?_
    refine (blind_manageApplications _ _).bind fun _ => (blind_manageRoots _ _).bind fun _ => ?_
    exact (blind_destroyUnused _).bind fun _ => .pure _
  · exact Blind.bind (.update fun _ => rfl) fun _ => .pure _

theorem blind_finish (snapshot : Snapshot) (applications : List Handle) :
    Blind (finish t snapshot applications : PassStep σ Unit) := by
  refine .read_bind (fun _ => rfl) fun _ => ?_
  split
  · exact Blind.bind (.read_bind (fun _ => rfl) fun _ => blind_log _ _) fun _ => blind_logCourse _
  · exact blind_logCourse _

end Pass

end ManagementPlane
