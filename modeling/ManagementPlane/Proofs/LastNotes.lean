import ManagementPlane.Proofs.FrankPasses
import ManagementPlane.Proofs.Reporting
import ManagementPlane.Proofs.TreeCalls
import ManagementPlane.Proofs.Verdicts

/-!
# What is told in the last phase

* `Pass.reportOf`, `Pass.applicationNote` : what is reported of the tree of a root, the first failure in it for the root, and
  what the handler is told of an application;
* `Pass.lastNotes`, `Pass.reports` : what it is told in the last phase, in order, and the failures among that;
* `Pass.thriving` : the applications in whose trees nothing fails;
* `Pass.Says h l p q` : from `p` to `q` the handler is told just `l`, and the last phase takes all objects for the same;
* `Pass.ends_sayAll` : the last phase tells just this, and returns just these applications;
* `Completed.reported`, `Completed.exists_closes` : and so a pass does, from its last phase on.
-/

namespace ManagementPlane

variable {σ : Type}

namespace Pass

variable {t : Task} {h : Handler σ} {n : Nat} {p q r : Pass σ} {k : ObjectKind} {l l' : List Notification}
  {snapshot : Snapshot} {roots later : List Handle} {root : Handle}

/-! ## Notifications of the last phase -/

/-- What is reported of the tree of a root: the first failure in it, for the root. -/
def reportOf (t : Task) (p : Pass σ) (snapshot : Snapshot) (k : ObjectKind) (root : Handle) :
    Option (ObjectKind × String × ObjectError) :=
  (p.firstFailure t snapshot k root).map fun e => (k, (p.plane.read root).id, e)

/-- That the tree of a root could not be managed. -/
def failureOf (report : ObjectKind × String × ObjectError) : Notification :=
  .manageFailed report.1 report.2.1 report.2.2

/-- What the handler is told of the tree of a root. -/
def failureNote (t : Task) (p : Pass σ) (snapshot : Snapshot) (k : ObjectKind) (root : Handle) : Option Notification :=
  (p.reportOf t snapshot k root).map failureOf

/-- What it is told of an application: that it has no shell, or that its tree could not be managed. -/
def applicationNote (t : Task) (p : Pass σ) (snapshot : Snapshot) (id : String) : Option Notification :=
  match p.scratch.get? .entity id with
  | none => some (.notFound .entity id)
  | some root => p.failureNote t snapshot .entity root

/-- The entities whose parent has no shell, but for the applications. -/
def orphans (p : Pass σ) (snapshot : Snapshot) : List Handle :=
  (p.scratch.shells .entity).filter fun s =>
    !snapshot.applicationIds.contains (p.plane.read s).id && p.isRoot .entity s

/-- What the handler is told in the last phase. -/
def lastNotes (t : Task) (p : Pass σ) (snapshot : Snapshot) : List Notification :=
  (p.roots snapshot .location).filterMap (p.failureNote t snapshot .location) ++
    (snapshot.applicationIds.filterMap (p.applicationNote t snapshot) ++
      (p.orphans snapshot).filterMap (p.failureNote t snapshot .entity))

/-- What is reported in the last phase. -/
def reports (t : Task) (p : Pass σ) (snapshot : Snapshot) : List (ObjectKind × String × ObjectError) :=
  (p.roots snapshot .location).filterMap (p.reportOf t snapshot .location) ++
    (p.roots snapshot .entity).filterMap (p.reportOf t snapshot .entity)

/-- The applications that have a shell and in whose trees nothing fails. -/
def thriving (t : Task) (p : Pass σ) (snapshot : Snapshot) : List Handle :=
  (snapshot.applicationIds.filterMap (p.scratch.get? .entity)).filter fun root =>
    (p.reportOf t snapshot .entity root).isNone

theorem shell_of_mem_thriving {a : Handle} (ha : a ∈ p.thriving t snapshot) : ∃ id, p.scratch.get? .entity id = some a := by
  obtain ⟨id, -, hget⟩ := List.mem_filterMap.1 (List.mem_filter.1 ha).1
  exact ⟨id, hget⟩

/-- The reports among notifications. -/
def reportsIn (l : List Notification) : List (ObjectKind × String × ObjectError) :=
  l.filterMap fun n => (Event.notified n).manageFailed?

theorem reportsIn_singleton {note : Notification} (hn : (Event.notified note).Neutral) : reportsIn [note] = [] :=
  List.filterMap_cons_none hn.managed

theorem reportsIn_filterMap_failureNote (roots : List Handle) :
    reportsIn (roots.filterMap (p.failureNote t snapshot k)) = roots.filterMap (p.reportOf t snapshot k) := by
  rw [reportsIn, List.filterMap_filterMap]
  refine List.filterMap_congr fun root _ => ?_
  unfold failureNote
  cases p.reportOf t snapshot k root <;> rfl

theorem reportsIn_filterMap_applicationNote (ids : List String) : reportsIn (ids.filterMap (p.applicationNote t snapshot)) =
    (ids.filterMap (p.scratch.get? .entity)).filterMap (p.reportOf t snapshot .entity) := by
  rw [reportsIn, List.filterMap_filterMap, List.filterMap_filterMap]
  refine List.filterMap_congr fun id _ => ?_
  unfold applicationNote
  cases p.scratch.get? .entity id with
  | none => rfl
  | some root =>
    show ((p.reportOf t snapshot .entity root).map failureOf).bind _ = p.reportOf t snapshot .entity root
    cases p.reportOf t snapshot .entity root <;> rfl

/-- The reports of the last phase are those among its notifications. -/
theorem reportsIn_lastNotes (p : Pass σ) (snapshot : Snapshot) :
    reportsIn (p.lastNotes t snapshot) = p.reports t snapshot := by
  have happend : ∀ l l', reportsIn (l ++ l') = reportsIn l ++ reportsIn l' := fun _ _ => List.filterMap_append
  rw [lastNotes, happend, happend, reportsIn_filterMap_failureNote, reportsIn_filterMap_failureNote,
    reportsIn_filterMap_applicationNote, reports]
  show _ = _ ++ (snapshot.applicationIds.filterMap (p.scratch.get? .entity) ++ p.orphans snapshot).filterMap _
  rw [List.filterMap_append]

/-- From `p` to `q` the handler `h` is told just `l`, and the last phase takes all objects for the same. Nothing else of
note was put on record. -/
structure Says (h : Handler σ) (l : List Notification) (p q : Pass σ) : Prop where
  iteration : q.toIteration = p.toIteration
  faces : p.plane.SameFaces q.plane
  handler : q.handler = h.heard l.reverse p.handler
  notes : q.plane.notes = l.reverse ++ p.plane.notes
  record : p.plane.Reports (reportsIn l) q.plane

namespace Says

theorem of_unheard (hpq : Unheard p q) (hnotes : q.plane.notes = p.plane.notes) (hd : p.plane.Discreet q.plane) :
    Says h [] p q := ⟨hpq.iteration, hpq.faces, hpq.handler, hnotes, hd.reports⟩

theorem refl (p : Pass σ) : Says h [] p p := .of_unheard (.refl p) rfl (.refl _)

theorem append (h₁ : Says h l p q) (h₂ : Says h l' q r) : Says h (l ++ l') p r where
  iteration := h₂.iteration.trans h₁.iteration
  faces := h₁.faces.trans h₂.faces
  handler := by rw [h₂.handler, h₁.handler, List.reverse_append, Handler.heard_append]
  notes := by rw [h₂.notes, h₁.notes, List.reverse_append, List.append_assoc]
  record := by
    rw [reportsIn, List.filterMap_append]
    exact h₁.record.append h₂.record

/-- Something of which nothing is told may follow. -/
theorem silent (h₁ : Says h l p q) (h₂ : Says h [] q r) : Says h l p r := by
  have h := h₁.append h₂
  rwa [List.append_nil] at h

/-- Objects may be managed and dropped. -/
theorem handlings {plane : Plane} (hq : Says h l p q) (hh : q.plane.Handlings plane)
    (hnotes : plane.notes = q.plane.notes) : Says h l p { q with plane } :=
  hq.silent (.of_unheard (.of_plane (Plane.sameFaces_of_handlings hh)) hnotes (Plane.discreet_of_handlings hh))

theorem sameShape (hq : Says h l p q) : SameShape p q where
  scratch := congrArg Iteration.scratch hq.iteration
  id a := (hq.faces a).id
  parent a := (hq.faces a).parent
  children a := (hq.faces a).children

end Says

/-! ## Managing trees -/

theorem filterMap_cons_toList {α β : Type} (f : α → Option β) (a : α) (l : List α) :
    (a :: l).filterMap f = (f a).toList ++ l.filterMap f := by
  rw [List.filterMap_cons]
  cases f a <;> rfl

theorem ends_sayLog (level : LogLevel) (message : Pass σ → String) (p : Pass σ) :
    Step.Ends (fun _ q => Says h [] p q) (log t level message) p :=
  .update (.of_unheard ⟨rfl, rfl, .of_heap rfl⟩ rfl ((Plane.Discreet.refl _).record ⟨rfl, rfl, rfl⟩))

theorem ends_sayCourse (message : String) (p : Pass σ) :
    Step.Ends (fun _ q => Says h [] p q) (logCourse t message) p := .read_bind (ends_sayLog _ _ p)

/-- A notification by which nothing is taken for made, or for lost. -/
theorem ends_sayTell {ε : Type} {answer : Step σ ε Unit} (ha : answer.GoesOn) {note : Notification}
    (hh : ∀ s, h.hear note s = (answer.on s).2) (hn : (Event.notified note).Neutral) (p : Pass σ) :
    Step.Ends (fun _ q => Says h [note] p q ∧ Echo p q) (tell note answer) p :=
  (ends_heard ha note p).imp fun _ _ hq => hq ▸ ⟨⟨rfl, .of_heap rfl, (hh _).symm, rfl, by
    rw [reportsIn_singleton hn]
    exact ((Plane.Discreet.refl _).record hn).reports⟩, rfl, .record ⟨fun _ => rfl, rfl⟩ _⟩

theorem ends_sayFailure (ha : h.Accepting) (k : ObjectKind) (root : Handle) (e : ObjectError) (p : Pass σ) :
    Step.Ends (fun _ q => Says h [.manageFailed k (p.plane.read root).id e] p q ∧ Echo p q) (manageFailed h k root e) p :=
  .read_bind <| (ends_heard (ha.manageFailed k _ e) (.manageFailed k (p.plane.read root).id e) p).imp fun _ _ hq =>
    hq ▸ ⟨⟨rfl, .of_heap rfl, rfl, rfl, p.plane.reports_record k _ e⟩, rfl, .record ⟨fun _ => rfl, rfl⟩ _⟩

section Trees
variable (ha : h.Accepting) (hs : p.scratch.Sound n p.plane) (hk : k.Registered)
  (happs : snapshot.applicationIds.Nodup)
include ha hs hk happs

/-- The next tree is managed. -/
theorem ends_sayRoot (hsplit : p.roots snapshot k = roots ++ root :: later) (hq : Says h l p q)
    (hspent : Spent t k (roots.flatMap (p.tree k)) p q) :
    Step.Ends (fun managed r => managed = (p.reportOf t snapshot k root).isNone ∧
        Says h (l ++ (p.failureNote t snapshot k root).toList) p r ∧ Spent t k ((roots ++ [root]).flatMap (p.tree k)) p r)
      (manageRoot h k (p.family k) root) q := by
  have hr : root ∈ p.scratch.shells k := shell_of_mem_roots hs hk (hsplit ▸ List.mem_append_right _ List.mem_cons_self)
  have hfst := fst_manageTree_of_spent hs hk happs hsplit hspent hq.faces
  have hone := hq.handlings (q.plane.handlings_manageTree k (p.family k) root)
    ((Plane.mute_manageTree k root (p.family k)).notes q.plane)
  have hnext := hspent.manageTree hs hq.faces hr
  rw [← List.flatMap_singleton (f := p.tree k) (x := root), ← List.flatMap_append] at hnext
  refine ends_onPlane_bind (v := (q.plane.manageTree k (p.family k) root).1)
    (u := (q.plane.manageTree k (p.family k) root).2) rfl ?_
  unfold failureNote reportOf
  rcases hf : p.firstFailure t snapshot k root with _ | e <;> rw [hf] at hfst <;> rw [hfst]
  · exact .pure ⟨rfl, by rwa [Option.map_none, Option.map_none, Option.toList_none, List.append_nil], hnext⟩
  · refine (ends_sayFailure ha k root e _).bind fun _ r ⟨hr, hecho⟩ => .pure ⟨rfl, ?_, hnext.echo hecho⟩
    rw [(hone.faces root).id] at hr
    exact hone.append hr

theorem ends_sayRoots (hsplit : p.roots snapshot k = later ++ roots) (hq : Says h l p q)
    (hspent : Spent t k (later.flatMap (p.tree k)) p q) :
    Step.Ends (fun _ r => Says h (l ++ roots.filterMap (p.failureNote t snapshot k)) p r)
      (manageRoots h k (p.family k) roots) q := by
  unfold manageRoots
  induction roots generalizing later l q with
  | nil => exact .pure (by rwa [List.filterMap_nil, List.append_nil])
  | cons root roots ih =>
    rw [Step.forEach_cons]
    refine Step.Ends.bind (Q := fun _ r => Says h (l ++ (p.failureNote t snapshot k root).toList) p r ∧
      Spent t k ((later ++ [root]).flatMap (p.tree k)) p r)
      ((ends_sayRoot ha hs hk happs hsplit hq hspent).bind fun _ r hr => .pure hr.2) fun _ r ⟨hr, hspent⟩ => ?_
    rw [filterMap_cons_toList, ← List.append_assoc]
    exact ih (by rw [hsplit, List.append_assoc, List.singleton_append]) hr hspent

end Trees

theorem ends_sayApplications (ha : h.Accepting) (hs : p.scratch.Sound n p.plane)
    (happs : snapshot.applicationIds.Nodup) {ids : List String}
    (hsplit : p.roots snapshot .entity = roots ++ (ids.filterMap (p.scratch.get? .entity) ++ later)) (hq : Says h l p q)
    (hspent : Spent t .entity (roots.flatMap (p.tree .entity)) p q) :
    Step.Ends (fun apps r => apps = (ids.filterMap (p.scratch.get? .entity)).filter (fun root =>
        (p.reportOf t snapshot .entity root).isNone) ∧ Says h (l ++ ids.filterMap (p.applicationNote t snapshot)) p r ∧
        Spent t .entity ((roots ++ ids.filterMap (p.scratch.get? .entity)).flatMap (p.tree .entity)) p r)
      (manageApplications h (p.family .entity) ids) q := by
  induction ids generalizing roots l q with
  | nil => exact .pure ⟨rfl, by rwa [List.filterMap_nil, List.append_nil], by rwa [List.filterMap_nil, List.append_nil]⟩
  | cons id ids ih =>
    refine .read_bind ?_
    rw [hq.sameShape.scratch, filterMap_cons_toList (p.applicationNote t snapshot), ← List.append_assoc]
    unfold applicationNote
    rcases hg : p.scratch.get? .entity id with _ | root
    · rw [List.filterMap_cons_none hg] at hsplit ⊢
      exact (ends_sayTell (ha.notFound .entity id) (fun _ => rfl) ⟨rfl, rfl, rfl⟩ q).bind fun _ r ⟨hr, hecho⟩ =>
        ih hsplit (hq.append hr) (hspent.echo hecho)
    · rw [List.filterMap_cons_some hg] at hsplit ⊢
      refine (ends_sayRoot ha hs (.inr rfl) happs hsplit hq hspent).bind fun managed r ⟨hmanaged, hr, hspent⟩ => ?_
      have hrest := ih (by rw [hsplit, List.append_assoc, List.singleton_append, List.cons_append]) hr hspent
      refine hrest.bind fun others u ⟨hothers, hu, hspent⟩ => .pure ⟨?_, hu, ?_⟩
      · subst hmanaged hothers
        rw [List.filter_cons]
      · rwa [List.append_assoc, List.singleton_append] at hspent

/-! ## The phase -/

theorem ends_sayTransitions (k : ObjectKind) (p : Pass σ) :
    Step.Ends (fun _ q => Says h [] p q) (noteTransitions t k) p := by
  refine .total (List.foldlRecOn (p.scratch.shells k) _ (.refl p) fun q hq s _ => hq.silent ?_)
  refine .of_unheard (.of_plane (.of_heap (Plane.heap_setRegistry _ _ _))) ?_ ((Plane.Discreet.refl _).setRegistry _ _)
  exact (notes_noteTransitions [s] q).1

theorem ends_sayUnused (k : ObjectKind) (ids : List String) (p : Pass σ) :
    Step.Ends (fun _ q => Says h [] p q) (destroyUnused t k ids) p := by
  unfold destroyUnused
  split
  · refine .read_bind (Step.Ends.bind (Q := fun _ q => Says h [] p q) (ends_sayLog _ _ p) fun _ q hq => .update ?_)
    exact hq.handlings (Plane.handlings_dropAll k ids q.plane) ((mute_dropAll k ids).notes q.plane)
  · exact .pure (.refl p)

/-- What both halves of the phase begin with. -/
theorem ends_sayNoted {α : Type} {Q : α → Pass σ → Prop} {message : String} {f : List String → PassStep σ α}
    (hq : Says h l p q) (hkind : q.plane.registry k = p.plane.registry k)
    (hf : ∀ old r, Says h l p r → Spent t k [] p r → Step.Ends Q (f old) r) :
    Step.Ends Q (logCourse t message >>= fun _ => noteTransitions t k >>= f) q := by
  refine ((ends_sayCourse (h := h) message q).and (ends_logCourse message q)).bind fun _ r ⟨hr, hecho⟩ => ?_
  refine ((ends_sayTransitions (h := h) k r).and (ends_noteTransitions hecho k)).bind fun old u ⟨hu, _, hnoted⟩ => ?_
  exact hf old u ((hq.silent hr).silent hu) ((Spent.of_noted hnoted).rebase hq.sameShape hkind)

section Phase
variable (ha : h.Accepting) (hs : p.scratch.Sound n p.plane) (happs : snapshot.applicationIds.Nodup)
include ha hs happs

theorem ends_sayLocations : Step.Ends (fun _ q =>
    Says h ((p.roots snapshot .location).filterMap (p.failureNote t snapshot .location)) p q) (manageLocations t h) p := by
  refine ends_sayNoted (h := h) (.refl p) rfl fun old q hq hspent => .read_bind (.read_bind ?_)
  have hroots : (q.scratch.shells .location).filter (q.isRoot .location) = p.roots snapshot .location :=
    hq.sameShape.roots snapshot .location
  have hsplit : p.roots snapshot .location = [] ++ p.roots snapshot .location := rfl
  rw [hq.sameShape.family, hroots]
  refine (ends_sayRoots ha hs (.inl rfl) happs hsplit hq hspent).bind fun _ r hr => ?_
  exact (ends_sayUnused .location old r).imp fun _ u hu => hr.silent hu

theorem ends_sayEntities (hq : Says h l p q) (hkind : q.plane.registry .entity = p.plane.registry .entity) :
    Step.Ends (fun apps r => apps = p.thriving t snapshot ∧
        Says h (l ++ (snapshot.applicationIds.filterMap (p.applicationNote t snapshot) ++
          (p.orphans snapshot).filterMap (p.failureNote t snapshot .entity))) p r) (manageEntities t h snapshot) q := by
  refine ends_sayNoted hq hkind fun old q hq hspent => .read_bind (.read_bind ?_)
  have hshape := hq.sameShape
  rw [hshape.family]
  simp only [hshape.scratch, hshape.id, hshape.isRoot]
  have htrees : p.roots snapshot .entity =
      [] ++ (snapshot.applicationIds.filterMap (p.scratch.get? .entity) ++ p.orphans snapshot) := rfl
  have hroots : p.roots snapshot .entity =
      ([] ++ snapshot.applicationIds.filterMap (p.scratch.get? .entity)) ++ p.orphans snapshot := rfl
  refine (ends_sayApplications ha hs happs htrees hq hspent).bind fun apps r ⟨hmanaged, hr, hspent⟩ => ?_
  refine (ends_sayRoots ha hs (.inr rfl) happs hroots hr hspent).bind fun _ u hu => ?_
  rw [List.append_assoc] at hu
  exact (ends_sayUnused .entity old u).bind fun _ v hv => .pure ⟨hmanaged, hu.silent hv⟩

/-- What the last phase tells, and which applications it returns. -/
theorem ends_sayAll (hclosed : p.plane.Closed)
    (hold : ∀ k id a, (p.plane.registry k).get? id = some a → a.index < n) :
    Step.Ends (fun apps q => apps = p.thriving t snapshot ∧
      q.handler = h.heard (p.lastNotes t snapshot).reverse p.handler ∧
      q.plane.notes = (p.lastNotes t snapshot).reverse ++ p.plane.notes ∧
      p.plane.Reports (p.reports t snapshot) q.plane) (manageAll t h snapshot) p := by
  refine Step.Ends.bind (Q := fun _ q => q = { p with phase := 8 }) (.update rfl) fun _ q hq => ?_
  subst hq
  have hs' : ({ p with phase := 8 } : Pass σ).scratch.Sound n p.plane := hs
  have hlocations := (ends_sayLocations (t := t) ha hs' happs).and
    (ends_manageLocations (t := t) ha hs' hclosed (hold .location) snapshot)
  refine hlocations.bind fun _ q ⟨hq, hsettled⟩ => ?_
  refine (ends_sayEntities ha hs' happs hq (hsettled.other _ (by decide))).bind fun apps r ⟨happs, hr⟩ => ?_
  have hrecord : p.plane.Reports (reportsIn (Pass.lastNotes t p snapshot)) r.plane := hr.record
  rw [reportsIn_lastNotes] at hrecord
  exact Step.Ends.bind (Q := fun _ u => u.handler = _ ∧ u.plane.notes = _ ∧ p.plane.Reports _ u.plane)
    (.update ⟨hr.handler, hr.notes, hrecord.discreet (.of_events_eq rfl)⟩) fun _ _ hu => .pure ⟨happs, hu⟩

end Phase

theorem ends_sayFinish (snapshot : Snapshot) (applications : List Handle) (p : Pass σ) :
    Step.Ends (fun _ q => Says h [] p q) (finish t snapshot applications) p := by
  refine .read_bind ?_
  split
  · exact Step.Ends.bind (.read_bind (ends_sayLog _ _ p)) fun _ q hq =>
      (ends_sayCourse _ q).imp fun _ _ hr => hq.silent hr
  · exact ends_sayCourse _ p

/-- How a pass is concluded: what the last phase tells and reports, and nothing of note behind it. -/
theorem reports_of_conclude (ha : h.Accepting) (hs : p.scratch.Sound n p.plane) (happs : snapshot.applicationIds.Nodup)
    (hclosed : p.plane.Closed) (hold : ∀ k id a, (p.plane.registry k).get? id = some a → a.index < n)
    {result : Except RebindError (List Handle)} (hr : (conclude t h snapshot).on p = (result, r)) :
    p.plane.Reports (p.reports t snapshot) r.plane ∧ ∀ apps, result = .ok apps → apps = p.thriving t snapshot := by
  obtain ⟨apps, q, hm, happs, -, -, hq⟩ := ends_sayAll (t := t) ha hs happs hclosed hold
  obtain ⟨_, u, hf, hu⟩ := ends_sayFinish (h := h) (t := t) snapshot apps q
  unfold conclude at hr
  rw [Step.on_bind, hm] at hr
  change (finish t snapshot apps >>= fun _ => tell .done h.done >>= fun _ => pure apps).on q = _ at hr
  rw [Step.on_bind, hf] at hr
  change (tell .done h.done >>= fun _ => pure apps).on u = _ at hr
  rw [Step.on_bind, on_tell] at hr
  have hdone : u.plane.Discreet (u.record (.notified .done)).plane := (Plane.Discreet.refl _).record ⟨rfl, rfl, rfl⟩
  have hall := (hq.append hu.record).discreet hdone
  rw [show reportsIn [] = [] from rfl, List.append_nil] at hall
  rcases hd : (h.done.on u.handler).1 with e | _ <;> rw [hd] at hr <;> obtain ⟨rfl, rfl⟩ := Prod.mk.inj hr
  · exact ⟨hall, fun _ he => nomatch he⟩
  · exact ⟨hall, fun _ he => Except.ok.inj he ▸ happs⟩

end Pass

namespace Manager

variable {m : Manager} {setup : Setup} {source : Source} {time : Nat} {h : Handler σ} {s : σ}
  {mode : ManagementMode} {o : Outcome σ} {p : Pass σ}

namespace Completed

variable (hp : Completed m setup source h s mode o p)
include hp

/-- What is under management when the last phase begins was there before the pass. -/
theorem old : p.plane.Closed ∧ ∀ k id a, (p.plane.registry k).get? id = some a → a.index < m.plane.heap.size :=
  closed_of_building hp.closed hp.building

/-- From its last phase on, a pass with a handler that stops nothing reports the first failure in the tree of each root.
What it returns are the applications in whose trees nothing fails. -/
theorem reported (ho : m.runPass setup source time h (.new mode) s = o) (ha : h.Accepting) :
    p.plane.Reports (p.reports (m.task setup source mode) source.snapshot) o.manager.plane ∧
      ∀ apps, o.result = .ok apps → apps = p.thriving (m.task setup source mode) source.snapshot := by
  obtain ⟨result, r, hv, -, hresult, hend⟩ := exists_ending ho
  rw [Pass.verdict_eq, Step.on_bind, hp.built] at hv
  obtain ⟨hr, happs⟩ := Pass.reports_of_conclude ha hp.sound source.applicationIds_nodup hp.old.1 hp.old.2 hv
  refine ⟨?_, fun apps hok => happs apps ?_⟩
  · cases result with
    | ok => exact hend ▸ hr
    | error e =>
      obtain ⟨entry, hend⟩ := hend
      have hlog : r.plane.Discreet (r.plane.record (.logged entry)) := (Plane.Discreet.refl _).record ⟨rfl, rfl, rfl⟩
      exact hend ▸ hr.discreet (hlog.record ⟨rfl, rfl, rfl⟩)
  · rw [hresult] at hok
    cases result with
    | ok => exact hok
    | error => cases hok

/-- The phases of a pass that completes come to the applications in whose trees nothing fails, and tell what is told up to the
last phase and in it. -/
theorem exists_closes (ho : m.runPass setup source time h (.new mode) s = o) (ha : h.Accepting) : ∃ i r,
      o.Closes m h s (.ok (p.thriving (m.task setup source mode) source.snapshot)) i r ∧
      h.heard r.notes s = h.heard (p.lastNotes (m.task setup source mode) source.snapshot).reverse p.handler ∧
      r.notes ++ m.plane.notes =
        (p.lastNotes (m.task setup source mode) source.snapshot).reverse ++ p.plane.notes := by
  obtain ⟨_, q, hq, rfl, hhandler, hnotes, -⟩ := Pass.ends_sayAll (t := m.task setup source mode) ha hp.sound
    source.applicationIds_nodup hp.old.1 hp.old.2
  obtain ⟨_, r, hr, hsilent⟩ := Pass.ends_sayFinish (h := h) (t := m.task setup source mode) source.snapshot
    (p.thriving (m.task setup source mode) source.snapshot) q
  have hphases : (Pass.phases (m.task setup source mode) h).on (m.opening h s mode) =
      (.ok (p.thriving (m.task setup source mode) source.snapshot), r) := by
    rw [Pass.phases_eq]
    refine Step.on_bind_eq_ok_iff.2 ⟨source.snapshot, p, hp.built, ?_⟩
    exact Step.on_bind_eq_ok_iff.2 ⟨_, q, hq, Step.on_bind_eq_ok_iff.2 ⟨(), r, hr, rfl⟩⟩
  obtain ⟨result, i, plane, hreplay, -⟩ := exists_replay (m := m) rfl rfl setup source mode s s ha ha
  obtain ⟨rfl, rfl⟩ := Prod.mk.inj (hphases.symm.trans hreplay)
  refine ⟨i, plane, closes_of_phases ho hreplay, hsilent.handler.trans hhandler, ?_⟩
  have hall := hsilent.notes.trans hnotes
  unfold Pass.replay Plane.onTop Plane.notes at hall
  rwa [List.filterMap_append] at hall

/-- So the handler, which holds what the phases before the last have told it, judges these applications by what is told in
the last one. -/
theorem judged (ho : m.runPass setup source time h (.new mode) s = o) (ha : h.Accepting) : (o.result, o.handler) =
    h.judge (.ok (p.thriving (m.task setup source mode) source.snapshot))
      (h.heard (p.lastNotes (m.task setup source mode) source.snapshot).reverse p.handler) := by
  obtain ⟨_, _, hcloses, hheard, -⟩ := hp.exists_closes ho ha
  exact hcloses.judged.trans (congrArg _ hheard)

end Completed

end Manager

end ManagementPlane
