import ManagementPlane.Proofs.StoreContents

/-!
# A store on disk behaves like one in memory

Calls on a store open and close it for writing, put objects into it, and take them out. On an empty root a store on
disk answers them as an empty store in memory does, and reading it comes to the same objects, in the order of their
file names.

* `StoreCall`, `Store.call`, `Store.run` : calls and what they come to;
* `FileStore.Stores` : a store on disk and the payloads that it stands for, also while its root has not been made;
* `Store.agree_call`, `Store.agree_run` : a call, and a row of them, on both stores;
* `Store.disk_refines_memory` : the same outcomes, and the same objects.
-/

namespace ManagementPlane

open Json (Value depthLimit)

/-! ## Calls -/

/-- A call on a store. -/
inductive StoreCall where
  | setWritable (writable : Bool)
  | persist (now : String) (kind : ObjectKind) (id : String) (x : Persistable)
  | delete (kind : ObjectKind) (id : String)

/-- What a call comes to: it is done, it says whether there was what it removed, or it fails in some way. -/
inductive StoreOutcome where
  | done
  | removed (existed : Bool)
  | failed (code : String)
  deriving DecidableEq, Repr

def StoreOutcome.ofPersist : Except StoreError Unit → StoreOutcome
  | .ok () => done
  | .error e => failed e.code

def StoreOutcome.ofDelete : Except StoreError Bool → StoreOutcome
  | .ok existed => removed existed
  | .error e => failed e.code

/-- What calls come to, and the store and the files that they leave. -/
structure StoreRun where
  outcomes : List StoreOutcome
  store : Store
  files : FileTree

def StoreRun.source (r : StoreRun) : Source := r.store.source r.files

namespace Store

def call (files : FileTree) (store : Store) : StoreCall → StoreOutcome × Store × FileTree
  | .setWritable writable => (.done, store.setWritable writable, files)
  | .persist now kind id x =>
    let (r, store, files) := store.persist now files kind id x
    (.ofPersist r, store, files)
  | .delete kind id =>
    let (r, store, files) := store.delete files kind id
    (.ofDelete r, store, files)

/-- One call after the other. -/
def run (files : FileTree) (store : Store) : List StoreCall → StoreRun
  | [] => ⟨[], store, files⟩
  | c :: calls =>
    let (outcome, store, files) := store.call files c
    let r := run files store calls
    { r with outcomes := outcome :: r.outcomes }

end Store

/-- A call that a store on disk can take: its id is a file name in the store, and what is put there is sound and put
there at a time. -/
def StoreCall.IsSound (root : String) : StoreCall → Prop
  | .setWritable _ => True
  | .persist now kind id x => FileStore.Admits root kind id ∧ x.IsSound ∧ Text.isTimestamp now = true
  | .delete kind id => FileStore.Admits root kind id

/-! ## Objects and their texts -/

namespace Persistable

/-- The payload is read as the object, with the free-form values in it sorted. -/
def ReadsAs : Persistable → String → Prop
  | memento m, payload => Memento.decode? payload = some m.sorted
  | item i, payload => CatalogItem.decode? payload = some i
  | value v, payload => Value.parse? payload = some v.sorted

variable {x : Persistable} (hx : x.IsSound)

include hx

theorem exists_fields : ∃ fields, x.toValue = .object fields ∧ (fields.map Prod.fst).Nodup := by
  cases x with
  | memento m => exact ⟨m.fields, m.toValue_eq, m.keys_fields_nodup⟩
  | item i => exact ⟨i.fields, i.toValue_eq, i.keys_fields_nodup⟩
  | value v => exact absurd rfl (hx.typed v)

/-- The text on disk and the text in memory are read alike. -/
theorem readAlike : ReadAlike x.toValue.sorted.compact x.text := by
  obtain ⟨fields, hfields, hnd⟩ := exists_fields hx
  have hint := hx.integral
  have hnest := Nat.le_trans hx.nesting_le (Nat.sub_le _ _)
  rw [hfields] at hint hnest
  rw [text, hfields]
  exact readAlike_sorted hnd (fits_of_mem hint hnest)

theorem readsAs_text : x.ReadsAs x.text := by
  have hnest := Nat.le_trans hx.nesting_le (Nat.sub_le _ _)
  cases x with
  | memento m => exact Memento.decode?_encode hx.integral hnest
  | item i => exact CatalogItem.decode?_encode i
  | value v => exact absurd rfl (hx.typed v)

theorem readsAs_sorted : x.ReadsAs x.toValue.sorted.compact := by
  have halike := readAlike hx
  have htext := readsAs_text hx
  cases x with
  | memento m => exact halike.memento.trans htext
  | item i => exact halike.item.trans htext
  | value v => exact absurd rfl (hx.typed v)

end Persistable

/-! ## Stores on disk and their payloads -/

/-- The path leads to an empty directory, once it and the directories above it have been made. -/
def FileTree.IsEmptyRoot (files : FileTree) (p : Path) : Prop :=
  ∃ made l, files.makeDirectories p = (.ok (), made) ∧ made.Stands p l ∧ ∀ n r, made.node? (l ++ n :: r) = none

namespace FileStore

/-- The files of the store correspond to the payloads. As long as the root has not been made there are none. -/
inductive Stores (root : String) (written : Written) (t : FileTree) : RawData → Prop
  | made {l : Location} {data : RawData} (h : Holds root written t l data) : Stores root written t data
  | missing {made : FileTree} {l : Location} (hmissing : t.Missing (Path.start root))
    (hmake : t.makeDirectories (Path.start root) = (.ok (), made)) (h : Holds root written made l ∅) :
    Stores root written t ∅

theorem Stores.of_isEmptyRoot {root : String} {files : FileTree} (written : Written)
    (hroot : files.IsEmptyRoot (Path.start root)) : Stores root written files ∅ := by
  obtain ⟨made, l, hmake, hmade, hbare⟩ := hroot
  have hholds : Holds root written made l ∅ := .of_bare hmade hbare
  rcases FileTree.stands_or_missing (Path.toDirectory_start root) (Path.start_ne_empty root) hmake hmade with
    ⟨-, rfl⟩ | hmissing
  · exact .made hholds
  · exact .missing hmissing hmake hholds

namespace Stores

variable {root : String} {written : Written} {t : FileTree} {data : RawData} {k : ObjectKind} {id : String}
  (h : Stores root written t data)

include h

theorem exists_persist_eq (hid : Admits root k id) {now : String} {x : Persistable} (hwritten : written k id now x) :
    ∃ t', ({ root, writable := true } : FileStore).persist now k id x.toValue t = (.ok (), t') ∧
      Stores root written t' (data.put k id x.text) := by
  cases h with
  | made h => exact ⟨_, h.persist_eq hid now x.toValue, .made (h.put hid (.present hwritten))⟩
  | @missing made l hmissing hmake h =>
    -- the root is made on the way
    have hparent : (({ root, writable := true } : FileStore).file k id).parent =
        (Path.start root).child k.directory := by
      rw [show ({ root, writable := true } : FileStore).file k id = _ from hid.file_eq]
      exact Path.parent_child _ _
    have hmade := FileTree.makeDirectories_child_of_missing hmissing (Path.toDirectory_start root)
      (Path.start_ne_empty root) hmake h.root_stands (isEntryName_directory k) hid.check_directory (h.directory_free k)
    have hsame : ({ root, writable := true } : FileStore).persist now k id x.toValue t =
        ({ root, writable := true } : FileStore).persist now k id x.toValue made := by
      simp only [persist, hparent, hmade, Bool.not_true, Bool.false_eq_true, if_false]
    rw [hsame]
    exact ⟨_, h.persist_eq hid now x.toValue, .made (h.put hid (.present hwritten))⟩

theorem exists_delete_eq (hid : Admits root k id) : ∃ t',
    ({ root, writable := true } : FileStore).delete k id t = (.ok ((data.get k).get? id).isSome, t') ∧
      Stores root written t' (data.remove k id).2 := by
  cases h with
  | made h =>
    obtain ⟨t', hdelete, hholds⟩ := h.exists_delete_eq hid
    exact ⟨t', hdelete, .made hholds⟩
  | missing hmissing hmake h =>
    have hremove := FileTree.remove_of_error ((hmissing.child k.directory).locate_child hid.check_file)
    have hpath : ({ root, writable := true } : FileStore).file k id =
      ((Path.start root).child k.directory).child (fileName id) := hid.file_eq
    have hempty : ((∅ : RawData).remove k id).2 = ∅ := PerKind.ext_get fun j => by
      rw [RawData.get_remove, PerKind.get_empty]
      split <;> rfl
    refine ⟨t, ?_, ?_⟩
    · simp only [delete, hpath, hremove, PerKind.get_empty, OrderedMap.get?_empty, Bool.not_true, Bool.false_eq_true,
        if_false, Option.isSome_none]
    · rw [hempty]
      exact .missing hmissing hmake h

omit h in
/-- Nothing is read of a store whose root is missing. -/
theorem readings_of_missing (hmissing : t.Missing (Path.start root)) (writable : Bool) :
    (({ root, writable } : FileStore).source t).readings = .ok (Reading.ofPayloads fun _ => []) := by
  have hnone : ∀ k, ({ root, writable } : FileStore).readingsOf t k = [] := fun k => by
    have hpath : Path.ofString (({ root, writable } : FileStore).directory k) =
        (Path.start root).child k.directory := ofString_directory { root, writable } k
    have herror : ∃ e, t.locate ((Path.start root).child k.directory) = .error e := by
      rcases hcheck : ((Path.start root).child k.directory).check with e | _
      · exact ⟨e, FileTree.locate_of_check_error hcheck⟩
      · exact ⟨_, hmissing.locate_child hcheck⟩
    obtain ⟨e, he⟩ := herror
    rw [readingsOf, hpath, he]
  rw [source, funext hnone]
  rfl

variable (hsound : written.IsSound)

include hsound

/-- Everything that lies in the store can be read, and it is shown in the order of the file names. -/
theorem exists_readings_eq (writable : Bool) : ∃ f : ObjectKind → List (String × String),
    (({ root, writable } : FileStore).source t).readings = .ok (Reading.ofPayloads f) ∧
      ∀ k, (f k).Pairwise fun a b => fileName a.1 < fileName b.1 := by
  cases h with
  | made h => exact ⟨_, h.readings_eq hsound writable, h.shown_pairwise hsound⟩
  | missing hmissing => exact ⟨_, readings_of_missing hmissing writable, fun _ => List.Pairwise.nil⟩

theorem copy (writable : Bool) (k : ObjectKind) (id : String) : Copy (written k id)
    (((({ root, writable } : FileStore).source t).payloads.get k).get? id) ((data.get k).get? id) := by
  cases h with
  | made h => exact h.copy hsound writable k id
  | missing hmissing =>
    have hentries : ((({ root, writable } : FileStore).source t).payloads.get k).entries = [] :=
      Source.entries_payloads (readings_of_missing hmissing writable) List.nodup_nil
    have hnone : ((({ root, writable } : FileStore).source t).payloads.get k).get? id = none := by
      rw [OrderedMap.get?, hentries]
      rfl
    rw [hnone, PerKind.get_empty, OrderedMap.get?_empty]
    exact .absent

end Stores

end FileStore

/-! ## Both stores at once -/

namespace Store

variable {root name : String} {files files' : FileTree} {data : RawData}

/-- A call comes to the same on both stores, and they stand for the same payloads afterwards. -/
theorem agree_call {written : FileStore.Written} (h : FileStore.Stores root written files data) {c : StoreCall}
    (hc : c.IsSound root) (hwritten : ∀ now k id x, c = .persist now k id x → written k id now x)
    (name : String) (files' : FileTree) (writable : Bool) :
    ∃ outcome writable' files'' data',
      call files (.file { root, writable }) c = (outcome, .file { root, writable := writable' }, files'') ∧
      call files' (.memory { name, data, writable }) c =
        (outcome, .memory { name, data := data', writable := writable' }, files') ∧
      FileStore.Stores root written files'' data' := by
  cases c with
  | setWritable open' => exact ⟨.done, open', files, data, rfl, rfl, h⟩
  | persist now k id x =>
    cases writable with
    | false => exact ⟨.failed "read_only", false, files, data, rfl, rfl, h⟩
    | true =>
      obtain ⟨t', hpersist, hstores⟩ := h.exists_persist_eq hc.1 (hwritten now k id x rfl)
      refine ⟨.done, true, t', data.put k id x.text, ?_, rfl, hstores⟩
      simp only [call, persist, hpersist]
      rfl
  | delete k id =>
    cases writable with
    | false => exact ⟨.failed "read_only", false, files, data, rfl, rfl, h⟩
    | true =>
      obtain ⟨t', hdelete, hstores⟩ := h.exists_delete_eq hc
      refine ⟨.removed ((data.get k).get? id).isSome, true, t', (data.remove k id).2, ?_, rfl, hstores⟩
      simp only [call, delete, hdelete]
      rfl

/-- So does a row of calls. -/
theorem agree_run {written : FileStore.Written} {calls : List StoreCall} (hcalls : ∀ c ∈ calls, c.IsSound root)
    (hwritten : ∀ now k id x, .persist now k id x ∈ calls → written k id now x)
    (h : FileStore.Stores root written files data) (name : String) (files' : FileTree) (writable : Bool) :
    ∃ outcomes writable' files'' data',
      run files (.file { root, writable }) calls = ⟨outcomes, .file { root, writable := writable' }, files''⟩ ∧
      run files' (.memory { name, data, writable }) calls =
        ⟨outcomes, .memory { name, data := data', writable := writable' }, files'⟩ ∧
      FileStore.Stores root written files'' data' := by
  induction calls generalizing files data writable with
  | nil => exact ⟨[], writable, files, data, rfl, rfl, h⟩
  | cons c calls ih =>
    obtain ⟨outcome, w, t, held, hdisk, hmemory, hstores⟩ := agree_call h (hcalls c List.mem_cons_self)
      (fun now k id x hc => hwritten now k id x (hc ▸ List.mem_cons_self)) name files' writable
    obtain ⟨outcomes, w', t', held', hdisk', hmemory', hstores'⟩ := ih
      (fun c hc => hcalls c (List.mem_cons_of_mem _ hc))
      (fun now k id x hc => hwritten now k id x (List.mem_cons_of_mem _ hc)) hstores w
    refine ⟨outcome :: outcomes, w', t', held', ?_, ?_, hstores'⟩
    · simp only [run, hdisk, hdisk']
    · simp only [run, hmemory, hmemory']

/-! ## What both come to -/

/-- On an empty root a store on disk behaves like an empty store in memory. Every call comes to the same on both: it is
done, it is refused because the store is closed, or it says whether there was anything to remove. Whatever calls have
been made, reading the store on disk bothers no listener, whoever it is. What is read of a kind has the same ids as in
memory, in the order of the file names, and payloads that are read alike, as the object that was put there. -/
theorem disk_refines_memory {calls : List StoreCall} {disk memory : StoreRun}
    (hroot : files.IsEmptyRoot (Path.start root)) (hcalls : ∀ c ∈ calls, c.IsSound root)
    (hdisk : run files (.file { root }) calls = disk) (hmemory : run files' (.memory { name }) calls = memory) :
    disk.outcomes = memory.outcomes ∧ ∃ onDisk inMemory : RawData,
      (∀ {σ : Type} (l : Listener σ), disk.source.load l = pure onDisk) ∧
      (∀ {σ : Type} (l : Listener σ), memory.source.load l = pure inMemory) ∧
      ∀ k, (∀ id, id ∈ (onDisk.get k).keys ↔ id ∈ (inMemory.get k).keys) ∧
        (onDisk.get k).keys.Pairwise (fun a b => FileStore.fileName a < FileStore.fileName b) ∧
        ∀ id p q, (onDisk.get k).get? id = some p → (inMemory.get k).get? id = some q →
          ReadAlike p q ∧ ∃ now x, .persist now k id x ∈ calls ∧ x.ReadsAs p ∧ x.ReadsAs q := by
  have hsound : FileStore.Written.IsSound fun k id now x => .persist now k id x ∈ calls :=
    fun k id now x hx => (hcalls _ hx).2
  obtain ⟨outcomes, w, t, data, hd, hm, hstores⟩ := agree_run hcalls (fun now k id x hx => hx)
    (FileStore.Stores.of_isEmptyRoot _ hroot) name files' false
  obtain rfl := hdisk.symm.trans hd
  obtain rfl := hmemory.symm.trans hm
  obtain ⟨f, hreadings, hsorted⟩ := hstores.exists_readings_eq hsound w
  have hunreadable : ({ name, data, writable := w } : MemoryStore).source.unreadable = .ok [] :=
    Source.unreadable_ofPayloads (f := fun k => (data.get k).entries) rfl
  refine ⟨rfl, _, data, fun l => Source.load_eq_pure (Source.unreadable_ofPayloads hreadings) l, fun l => ?_,
    fun k => ⟨fun id => ?_, ?_, fun id p q hp hq => ?_⟩⟩
  · have hload := Source.load_eq_pure hunreadable l
    rwa [MemoryStore.payloads_source] at hload
  · rw [← OrderedMap.contains_iff, ← OrderedMap.contains_iff, OrderedMap.contains, OrderedMap.contains]
    exact Bool.eq_iff_iff.1 (hstores.copy hsound w k id).isSome_eq
  · have hentries := Source.entries_payloads hreadings (FileStore.nodup_of_pairwise (hsorted k))
    rw [OrderedMap.keys, hentries]
    exact List.pairwise_map.2 (hsorted k)
  · obtain ⟨now, x, hx, rfl, rfl⟩ := (hstores.copy hsound w k id).exists_of_some hp hq
    have hxs := (hsound k id now x hx).1
    exact ⟨Persistable.readAlike hxs, now, x, hx, Persistable.readsAs_sorted hxs, Persistable.readsAs_text hxs⟩

/-! ## A root that has not been made -/

/-- An entity with free-form values that are in no order. -/
def webApp : Memento where
  id := "web app.v2"
  type := "trellis.entity.BasicApplication"
  displayName := some "Grüße\n"
  config := SortedMap.ofList [("sizes", .object [("b", .array [.number (.int (-7))]), ("a", .null)])]
  tags := [.object [("z", .bool true), ("y", .string "\"")]]

/-- A store is written to before it is open and after that, and an object is removed twice. -/
def webAppCalls : List StoreCall := [
  .persist "2024-01-02T03:04:05Z" .entity "web app.v2" (.memento webApp),
  .setWritable true,
  .persist "2024-01-02T03:04:06Z" .entity "web app.v2" (.memento webApp),
  .persist "2024-01-02T03:04:07Z" .entity "web" (.memento { webApp with id := "web" }),
  .persist "2024-01-02T03:04:08Z" .catalogItem "db:1.0" (.item (.new "db" "1.0" "w.Db")),
  .delete .entity "web",
  .delete .entity "web"]

/-- Two directories have to be made for the root. -/
theorem isEmptyRoot_srv : ({} : FileTree).IsEmptyRoot (Path.start "/srv/store") := by
  let made : FileTree := (({} : FileTree).makeDirectories (Path.start "/srv/store")).2
  refine ⟨made, [.text "srv", .text "store"], ?_, ⟨by decide +kernel, by decide +kernel⟩, fun n r => ?_⟩
  · exact Prod.ext (by decide +kernel) rfl
  · have hentries : made.entries.entries =
        [([.text "srv"], .directory), ([.text "srv", .text "store"], .directory)] := by decide +kernel
    simp [FileTree.node?, OrderedMap.get?, OrderedMap.lookup, hentries]

theorem isSound_webAppCalls : ∀ c ∈ webAppCalls, c.IsSound "/srv/store" := by
  have happ : FileStore.Admits "/srv/store" .entity "web app.v2" :=
    ⟨by decide, by decide, by decide, by decide, by decide +kernel⟩
  have hweb : FileStore.Admits "/srv/store" .entity "web" :=
    ⟨by decide, by decide, by decide, by decide, by decide +kernel⟩
  have hitem : FileStore.Admits "/srv/store" .catalogItem "db:1.0" :=
    ⟨by decide, by decide, by decide, by decide, by decide +kernel⟩
  intro c hc
  simp only [webAppCalls, List.mem_cons, List.not_mem_nil, or_false] at hc
  rcases hc with rfl | rfl | rfl | rfl | rfl | rfl | rfl
  · exact ⟨happ, ⟨nofun, by decide +kernel, by decide +kernel⟩, by decide +kernel⟩
  · trivial
  · exact ⟨happ, ⟨nofun, by decide +kernel, by decide +kernel⟩, by decide +kernel⟩
  · exact ⟨hweb, ⟨nofun, by decide +kernel, by decide +kernel⟩, by decide +kernel⟩
  · exact ⟨hitem, ⟨nofun, by decide +kernel, by decide +kernel⟩, by decide +kernel⟩
  · exact hweb
  · exact hweb

/-- The root is made on the way, and one of the entities stays. -/
theorem disk_refines_memory_webApp :
    ({} : FileTree).IsEmptyRoot (Path.start "/srv/store") ∧ (∀ c ∈ webAppCalls, c.IsSound "/srv/store") ∧
      ∃ (disk : StoreRun) (onDisk : RawData), run {} (.file { root := "/srv/store" }) webAppCalls = disk ∧
        disk.outcomes = [.failed "read_only", .done, .done, .done, .done, .removed true, .removed false] ∧
        (∀ {σ : Type} (l : Listener σ), disk.source.load l = pure onDisk) ∧
        ∀ id, id ∈ (onDisk.get .entity).keys ↔ id = "web app.v2" := by
  let memory : StoreRun := run {} (.memory { name := "memory" }) webAppCalls
  let quiet : Listener Unit := ⟨fun _ _ _ => pure (), fun _ _ => pure ()⟩
  obtain ⟨houtcomes, onDisk, inMemory, hdisk, hmemory, hkinds⟩ :=
    disk_refines_memory isEmptyRoot_srv isSound_webAppCalls rfl (rfl : _ = memory)
  refine ⟨isEmptyRoot_srv, isSound_webAppCalls, _, onDisk, rfl, houtcomes.trans (by decide +kernel), hdisk,
    fun id => ?_⟩
  have hload : memory.source.load quiet = pure memory.source.payloads := Source.load_eq_pure rfl quiet
  have hsame : inMemory = memory.source.payloads :=
    Except.ok.inj (Prod.mk.inj (congrFun ((hmemory quiet).symm.trans hload) ())).1
  have hkeys : (memory.source.payloads.get .entity).keys = ["web app.v2"] := by decide +kernel
  rw [(hkinds .entity).1 id, hsame, hkeys, List.mem_singleton]

end Store

end ManagementPlane
