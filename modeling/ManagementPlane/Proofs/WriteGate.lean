import ManagementPlane.Proofs.Outcome
import ManagementPlane.Site

/-!
# When a store may be written to

A store is opened and closed by the passes over it, and writes are refused while it is closed.

* `Store.persist_of_closed`, `Store.delete_of_closed` : a closed store refuses both, and nothing changes;
* `Site.Call`, `Service.run` : passes over stores and writes to them, in any order, and what is answered;
* `Service.open_iff_lastPass` : a store that was closed at first is open exactly when the last pass over it was a master
  pass that went through, and as long as it is not, every write is refused and changes nothing.
-/

namespace ManagementPlane

/-! ## Writes -/

namespace Store

variable {store : Store}

/-- How a store calls itself when it refuses a write. -/
def label : Store → String
  | memory s => s.name
  | file s => s.root

@[simp] theorem writable_setWritable (store : Store) (writable : Bool) :
    (store.setWritable writable).writable = writable := by
  cases store <;> rfl

/-- No write opens or closes a store. -/
theorem writable_persist (store : Store) (now : String) (files : FileTree) (kind : ObjectKind) (id : String)
    (x : Persistable) : (store.persist now files kind id x).2.1.writable = store.writable := by
  cases store with
  | memory s =>
    unfold persist MemoryStore.persist
    cases hs : s.writable <;> simp [hs, writable, MemoryStore.seed]
  | file s => rfl

theorem writable_delete (store : Store) (files : FileTree) (kind : ObjectKind) (id : String) :
    (store.delete files kind id).2.1.writable = store.writable := by
  cases store with
  | memory s =>
    unfold delete MemoryStore.delete
    cases hs : s.writable <;> simp [hs, writable]
  | file s => rfl

theorem persist_of_closed (hclosed : store.writable = false) (now : String) (files : FileTree) (kind : ObjectKind)
    (id : String) (x : Persistable) :
    store.persist now files kind id x = (.error (.readOnly store.label), store, files) := by
  cases store with
  | memory s =>
    have hs : s.writable = false := hclosed
    simp [persist, MemoryStore.persist, hs, label]
  | file s =>
    have hs : s.writable = false := hclosed
    simp [persist, FileStore.persist, hs, label]

theorem delete_of_closed (hclosed : store.writable = false) (files : FileTree) (kind : ObjectKind) (id : String) :
    store.delete files kind id = (.error (.readOnly store.label), store, files) := by
  cases store with
  | memory s =>
    have hs : s.writable = false := hclosed
    simp [delete, MemoryStore.delete, hs, label]
  | file s =>
    have hs : s.writable = false := hclosed
    simp [delete, FileStore.delete, hs, label]

end Store

/-! ## Calls -/

namespace Site

/-- A pass over a store, by any manager and with any handler, or a write to the store. -/
inductive Call where
  | rebind {σ : Type} (manager : Manager) (setup : FileTree → Setup) (h : Handler σ) (state : σ) (mode : ManagementMode)
  | persist (now : String) (kind : ObjectKind) (id : String) (x : Persistable)
  | delete (kind : ObjectKind) (id : String)

/-- What is answered to a call. -/
inductive Reply where
  | passed (mode : ManagementMode) (result : Except RebindError (List Handle))
  | persisted (result : Except StoreError Unit)
  | deleted (result : Except StoreError Bool)

def Reply.pass? : Reply → Option (ManagementMode × Except RebindError (List Handle))
  | passed mode result => some (mode, result)
  | _ => none

def answer (s : Site) (name : String) (store : Store) : Call → Reply × Site
  | .rebind manager setup h state mode =>
    let (outcome, s) := { s with manager, setup }.rebind name store h state mode
    (.passed mode outcome.result, s)
  | .persist now kind id x =>
    let (result, store, files) := store.persist now s.files kind id x
    (.persisted result, { s.putStore name store with files })
  | .delete kind id =>
    let (result, store, files) := store.delete s.files kind id
    (.deleted result, { s.putStore name store with files })

variable {s : Site} {name : String} {store : Store}

/-- A pass opens its store if it is a master pass that goes through, and closes it otherwise; a write does neither. -/
theorem store?_answer (s : Site) (name : String) (store : Store) (c : Call) (other : String) :
    ∃ store', (s.answer name store c).2.store? other = (if name = other then some store' else s.store? other) ∧
      store'.writable = match (s.answer name store c).1.pass? with
        | some (mode, result) => result.isOk && mode.mayWriteStore
        | none => store.writable := by
  cases c with
  | rebind manager setup h state mode =>
    exact ⟨_, SortedMap.get?_insert s.stores name other _, Store.writable_setWritable _ _⟩
  | persist now kind id x =>
    exact ⟨_, SortedMap.get?_insert s.stores name other _, store.writable_persist now s.files kind id x⟩
  | delete kind id =>
    exact ⟨_, SortedMap.get?_insert s.stores name other _, store.writable_delete s.files kind id⟩

theorem putStore_of_store? (hstore : s.store? name = some store) : s.putStore name store = s := by
  rw [putStore, SortedMap.insert_of_get? hstore]

/-- A store that is closed refuses to keep anything, and nothing changes. -/
theorem answer_persist_of_closed (hstore : s.store? name = some store) (hclosed : store.writable = false) (now : String)
    (kind : ObjectKind) (id : String) (x : Persistable) :
    s.answer name store (.persist now kind id x) = (.persisted (.error (.readOnly store.label)), s) := by
  rw [answer, Store.persist_of_closed hclosed]
  show (_, { s.putStore name store with files := s.files }) = _
  rw [putStore_of_store? hstore]

theorem answer_delete_of_closed (hstore : s.store? name = some store) (hclosed : store.writable = false)
    (kind : ObjectKind) (id : String) :
    s.answer name store (.delete kind id) = (.deleted (.error (.readOnly store.label)), s) := by
  rw [answer, Store.delete_of_closed hclosed]
  show (_, { s.putStore name store with files := s.files }) = _
  rw [putStore_of_store? hstore]

end Site

/-- A site with the replies that it has given, in order, each with the name of the store. -/
structure Service where
  site : Site
  replies : List (String × Site.Reply) := []

namespace Service

/-- Answer a call that concerns a store; nothing happens if there is no such store. -/
def serve (s : Service) (call : String × Site.Call) : Service :=
  match s.site.store? call.1 with
  | none => s
  | some store =>
    let (reply, site) := s.site.answer call.1 store call.2
    { site, replies := s.replies ++ [(call.1, reply)] }

def run (s : Service) (calls : List (String × Site.Call)) : Service := calls.foldl serve s

/-- The last pass over a store: its mode, and how it ended. -/
def lastPass? (s : Service) (name : String) : Option (ManagementMode × Except RebindError (List Handle)) :=
  (s.replies.filterMap fun r => if r.1 = name then r.2.pass? else none).getLast?

/-- There is such a store, and it is open exactly when the last pass over it was a master pass that went through. -/
def Gated (s : Service) (name : String) : Prop :=
  ∃ store, s.site.store? name = some store ∧
    (store.writable = true ↔ ∃ applications, s.lastPass? name = some (.master, .ok applications))

theorem lastPass?_append (s : Service) (site : Site) (name other : String) (reply : Site.Reply) :
    ({ site, replies := s.replies ++ [(name, reply)] } : Service).lastPass? other =
      if name = other then reply.pass?.or (s.lastPass? other) else s.lastPass? other := by
  unfold lastPass?
  by_cases hn : name = other
  · cases hp : reply.pass? <;> simp [hn, hp]
  · simp [hn]

theorem isOk_and_mayWriteStore_iff {mode : ManagementMode} {result : Except RebindError (List Handle)} :
    (result.isOk && mode.mayWriteStore) = true ↔ mode = .master ∧ ∃ applications, result = .ok applications := by
  cases mode <;> cases result <;> simp [Except.isOk, Except.toBool, ManagementMode.mayWriteStore]

/-- Whatever is asked of whichever store keeps a store gated. -/
theorem gated_serve {s : Service} {name : String} (hs : s.Gated name) (call : String × Site.Call) :
    (s.serve call).Gated name := by
  obtain ⟨store, hstore, hopen⟩ := hs
  unfold serve
  split
  · exact ⟨store, hstore, hopen⟩
  · next asked hasked =>
    obtain ⟨store', hget, hwritable⟩ := Site.store?_answer s.site call.1 asked call.2 name
    unfold Gated
    simp only [hget, lastPass?_append]
    by_cases hname : call.1 = name
    · obtain rfl : asked = store := Option.some.inj (hasked.symm.trans (hname ▸ hstore))
      simp only [if_pos hname]
      refine ⟨store', rfl, ?_⟩
      rw [hwritable]
      cases (s.site.answer call.1 asked call.2).1.pass? with
      | none => exact hopen
      | some pass =>
        rw [isOk_and_mayWriteStore_iff]
        simp [Prod.ext_iff]
    · simp only [if_neg hname]
      exact ⟨store, hstore, hopen⟩

theorem gated_run {s : Service} {name : String} (hs : s.Gated name) (calls : List (String × Site.Call)) :
    (s.run calls).Gated name := by
  induction calls generalizing s with
  | nil => exact hs
  | cons c r ih => exact ih (gated_serve hs c)

/-- After any calls, a store that was closed at first is open exactly when the last pass over it was a master pass that
went through. While it is closed, every write to it is refused, and everything stays as it is. -/
theorem open_iff_lastPass {site : Site} {name : String} {store : Store} (hstore : site.store? name = some store)
    (hclosed : store.writable = false) (calls : List (String × Site.Call)) :
    let s := ({ site } : Service).run calls
    ∃ store', s.site.store? name = some store' ∧
      (store'.writable = true ↔ ∃ applications, s.lastPass? name = some (.master, .ok applications)) ∧
      (store'.writable = false →
        (∀ now kind id x, s.site.answer name store' (.persist now kind id x) =
          (.persisted (.error (.readOnly store'.label)), s.site)) ∧
        ∀ kind id, s.site.answer name store' (.delete kind id) =
          (.deleted (.error (.readOnly store'.label)), s.site)) := by
  intro s
  have hfirst : ({ site } : Service).Gated name := ⟨store, hstore, by simp [hclosed, lastPass?]⟩
  obtain ⟨store', hget, hopen⟩ := gated_run hfirst calls
  exact ⟨store', hget, hopen, fun hshut =>
    ⟨Site.answer_persist_of_closed hget hshut, Site.answer_delete_of_closed hget hshut⟩⟩

/-! ## A master pass that fails at its very end -/

/-- A store that holds an application. -/
def heldStore : Store := .memory (.holding [(.entity, { id := "app", type := "trellis.entity.BasicApplication" })])

/-- A site that has this store only. -/
def heldSite : Site := { setup := fun _ => .stock, stores := .ofList [("store", heldStore)], files := {} }

/-- A master pass, a write, and another master pass, whose handler refuses when everything is managed. -/
def heldCalls : List (String × Site.Call) :=
  [("store", .rebind {} (fun _ => .stock) (.refusing []) () .master),
    ("store", .persist "2024-01-01T00:00:00Z" .entity "more" (.memento { id := "more", type := "trellis.entity.BasicEntity" })),
    ("store", .rebind {} (fun _ => .stock) (.refusing ["done"]) () .master)]

/-- Whether the store is open after the first calls. -/
def openAfter (n : Nat) : Option Bool :=
  ((({ site := heldSite } : Service).run (heldCalls.take n)).site.store? "store").map Store.writable

set_option maxRecDepth 2000 in
theorem openAfter_heldCalls : [1, 2, 3].map openAfter = [some true, some true, some false] := by
  decide +kernel

theorem open_iff_lastPass_heldCalls :
    heldSite.store? "store" = some heldStore ∧ heldStore.writable = false ∧
      [1, 2, 3].map openAfter = [some true, some true, some false] ∧
      let s := ({ site := heldSite } : Service).run heldCalls
      ∃ store', s.site.store? "store" = some store' ∧
        (store'.writable = true ↔ ∃ applications, s.lastPass? "store" = some (.master, .ok applications)) ∧
        (store'.writable = false →
          (∀ now kind id x, s.site.answer "store" store' (.persist now kind id x) =
            (.persisted (.error (.readOnly store'.label)), s.site)) ∧
          ∀ kind id, s.site.answer "store" store' (.delete kind id) =
            (.deleted (.error (.readOnly store'.label)), s.site)) :=
  have hstore : heldSite.store? "store" = some heldStore := rfl
  have hclosed : heldStore.writable = false := rfl
  ⟨hstore, hclosed, openAfter_heldCalls, open_iff_lastPass hstore hclosed heldCalls⟩

end Service

end ManagementPlane
