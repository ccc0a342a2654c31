import ManagementPlane.Proofs.Envelopes
import ManagementPlane.Proofs.FileTrees
import ManagementPlane.Proofs.Listening
import ManagementPlane.Proofs.MementoText
import ManagementPlane.Store.Any
import Mathlib.Data.List.Basic

/-!
# What a store on disk holds

A store on disk holds the payloads of a store in memory if every one of them lies in a file of its own, in an envelope,
and nothing else lies where the files of the store are.

* `FileStore.Admits` : ids that can be file names;
* `Deposit`, `FileStore.Holds` : the files of a store correspond to payloads, place by place;
* `Holds.persist_eq`, `Holds.exists_delete_eq` : a store on disk changes as the payloads do, and gives the same answer;
* `Holds.readingsOf_eq`, `mem_shown_iff` : what is read of it.
-/

namespace ManagementPlane

open Json (Value depthLimit)

/-- An object whose numbers are integers that fit 64 bits, and that nests at least one level below the limit of the
reader. Free-form values of any shape are none. -/
structure Persistable.IsSound (x : Persistable) : Prop where
  typed : ∀ v, x ≠ .value v
  integral : x.toValue.isIntegral = true
  nesting_le : x.toValue.nesting ≤ depthLimit - 1

namespace FileStore

/-! ## Places -/

/-- The file name of an id. -/
def fileName (id : String) : String := id ++ "." ++ extension

/-- An id that is a file name for a store in `root`, within the limits of the file system. -/
structure Admits (root : String) (kind : ObjectKind) (id : String) : Prop where
  ne_empty : id ≠ ""
  no_slash : '/' ∉ id.toList
  no_nul : '\x00' ∉ id.toList
  name_le : (fileName id).utf8ByteSize ≤ 255
  path_ok : (({ root } : FileStore).file kind id).check = .ok ()

/-- The directory of a kind in the root. -/
def directoryAt (l : Location) (kind : ObjectKind) : Location := l ++ [.text kind.directory]

/-- The file with a name in the directory of a kind. -/
def fileAt (l : Location) (kind : ObjectKind) (name : String) : Location := directoryAt l kind ++ [.text name]

theorem directoryAt_inj {l : Location} {j k : ObjectKind} : directoryAt l j = directoryAt l k ↔ j = k := by
  simp only [directoryAt, List.append_cancel_left_eq, List.cons.injEq, FileName.text.injEq, and_true]
  exact ⟨ObjectKind.directory_inj, fun h => h ▸ rfl⟩

theorem fileAt_inj {l : Location} {j k : ObjectKind} {m n : String} :
    fileAt l j m = fileAt l k n ↔ j = k ∧ m = n := by
  constructor
  · intro h
    obtain ⟨hdir, hname⟩ := List.append_inj' h rfl
    exact ⟨directoryAt_inj.1 hdir, FileName.text.inj (List.cons.inj hname).1⟩
  · rintro ⟨rfl, rfl⟩
    rfl

theorem directoryAt_ne_nil (l : Location) (k : ObjectKind) : directoryAt l k ≠ [] := FileTree.append_ne_nil l _

theorem fileAt_ne_nil (l : Location) (k : ObjectKind) (n : String) : fileAt l k n ≠ [] := FileTree.append_ne_nil _ _

theorem fileAt_ne_directoryAt (l : Location) (j k : ObjectKind) (n : String) :
    fileAt l j n ≠ directoryAt l k := by
  intro h
  have hlength := congrArg List.length h
  simp [fileAt, directoryAt] at hlength

theorem fileName_inj {id id' : String} (h : fileName id = fileName id') : id = id' := by
  have hchars := congrArg String.toList h
  simp only [fileName, String.toList_append, List.append_assoc] at hchars
  exact String.toList_injective (List.append_cancel_right hchars)

theorem fileName_ne_up (id : String) : fileName id ≠ ".." := fun he => by
  have hlength := congrArg (fun s => s.toList.length) he
  simp [fileName, extension] at hlength

/-- Ids in the order of their file names differ. -/
theorem nodup_of_pairwise {l : List (String × String)} (h : l.Pairwise fun a b => fileName a.1 < fileName b.1) :
    (l.map Prod.fst).Nodup := by
  refine List.pairwise_map.2 (h.imp fun {a b} hlt he => ?_)
  rw [he] at hlt
  exact String.lt_irrefl _ hlt

namespace Admits

variable {root : String} {kind : ObjectKind} {id : String} (h : Admits root kind id)

include h

theorem file_eq : ({ root } : FileStore).file kind id = ((Path.start root).child kind.directory).child (fileName id) :=
  FileStore.file_eq { root } kind h.no_slash

theorem check_file : (((Path.start root).child kind.directory).child (fileName id)).check = .ok () := by
  rw [← h.file_eq]
  exact h.path_ok

theorem check_directory : ((Path.start root).child kind.directory).check = .ok () :=
  Path.check_of_child h.check_file

theorem isEntryName : FileTree.IsEntryName (fileName id) where
  ne_empty := (isName_file h.no_slash).ne_empty
  ne_up := fileName_ne_up id
  size_le := h.name_le

end Admits

theorem isEntryName_directory (kind : ObjectKind) : FileTree.IsEntryName kind.directory := by
  cases kind <;> exact ⟨by decide, by decide, by decide⟩

/-! ## Deposits -/

/-- What lies in the place of an object corresponds to its payload: both are absent, or the one is an envelope with an
object that may be there, and the other is the text of that object. -/
inductive Deposit (written : String → Persistable → Prop) : Option FileEntry → Option String → Prop
  | absent : Deposit written none none
  | present {now : String} {x : Persistable} (h : written now x) :
    Deposit written (some (.file (.ofText (Envelope.of now x.toValue.sorted).encode))) (some x.text)

/-- What may have been written: at which time, and what, under a kind and an id. -/
abbrev Written := ObjectKind → String → String → Persistable → Prop

/-- Below the location of the root lies what corresponds to the payloads, and nothing else where files of the store
could be. -/
structure Holds (root : String) (written : Written) (t : FileTree) (l : Location) (data : RawData) : Prop where
  root_stands : t.Stands (Path.start root) l
  directory_free : ∀ k, t.node? (directoryAt l k) = none ∨ t.node? (directoryAt l k) = some .directory
  deposit : ∀ k id, Deposit (written k id) (t.node? (fileAt l k (fileName id))) ((data.get k).get? id)
  above : ∀ k n e, t.node? (fileAt l k n) = some e → t.node? (directoryAt l k) = some .directory
  named : ∀ k n e, t.node? (fileAt l k n) = some e → ∃ id, Admits root k id ∧ n = fileName id

namespace Deposit

variable {written : String → Persistable → Prop} {e : Option FileEntry} {p : Option String} (h : Deposit written e p)

include h

theorem ne_directory : e ≠ some .directory := by
  cases h <;> nofun

/-- A deposit can be replaced. -/
theorem obstacle?_eq_none : FileTree.obstacle? e = none := by
  cases h <;> rfl

theorem isSome_eq : p.isSome = e.isSome := by
  cases h <;> rfl

theorem exists_of_some {entry : FileEntry} (he : e = some entry) : ∃ now x, written now x ∧
    entry = .file (.ofText (Envelope.of now x.toValue.sorted).encode) ∧ p = some x.text := by
  cases h with
  | absent => cases he
  | @present now x hwritten => exact ⟨now, x, hwritten, (Option.some.inj he).symm, rfl⟩

end Deposit

/-- A bare root holds no payloads. -/
theorem Holds.of_bare {root : String} {written : Written} {t : FileTree} {l : Location}
    (hroot : t.Stands (Path.start root) l) (hbare : ∀ n r, t.node? (l ++ n :: r) = none) :
    Holds root written t l ∅ := by
  have hfile : ∀ k n, t.node? (fileAt l k n) = none := fun k n => by
    rw [fileAt, directoryAt, List.append_assoc]
    exact hbare _ _
  refine ⟨hroot, fun k => .inl (hbare _ _), fun k id => ?_, fun k n e he => ?_, fun k n e he => ?_⟩
  · rw [hfile, PerKind.get_empty, OrderedMap.get?_empty]
    exact .absent
  all_goals
    rw [hfile] at he
    cases he

namespace Holds

variable {root : String} {written : Written} {t : FileTree} {l : Location} {data : RawData} {k : ObjectKind}
  {id : String} (h : Holds root written t l data)

include h

/-- Where nothing is, no payload is held. -/
theorem get?_eq_none (hnone : t.node? (fileAt l k (fileName id)) = none) : (data.get k).get? id = none := by
  have hdeposit := h.deposit k id
  rw [hnone] at hdeposit
  generalize (data.get k).get? id = payload at hdeposit ⊢
  cases hdeposit
  rfl

end Holds

/-! ## Putting a payload -/

/-- The tree with a file in the directory of a kind, which is made if it is not there. -/
def withFile (t : FileTree) (l : Location) (k : ObjectKind) (name : String) (contents : FileContents) : FileTree :=
  (t.withDirectory (directoryAt l k)).put (fileAt l k name) (.file contents)

theorem node?_withFile {t : FileTree} {l : Location} {k : ObjectKind}
    (hfree : t.node? (directoryAt l k) = none ∨ t.node? (directoryAt l k) = some .directory)
    (name : String) (contents : FileContents) (l' : Location) : (withFile t l k name contents).node? l' =
      if fileAt l k name = l' then some (.file contents)
      else if directoryAt l k = l' then some .directory else t.node? l' := by
  rw [withFile, FileTree.node?_put _ (fileAt_ne_nil l k name),
    FileTree.node?_withDirectory (directoryAt_ne_nil l k) hfree]

namespace Holds

variable {root : String} {written : Written} {t : FileTree} {l : Location} {data : RawData} {k : ObjectKind}
  {id : String} (h : Holds root written t l data)

include h

/-- Directories are left where a file is put. -/
theorem node?_withFile_directory {l' : Location} (hl' : t.node? l' = some .directory) (contents : FileContents) :
    (withFile t l k (fileName id) contents).node? l' = some .directory := by
  have hne : fileAt l k (fileName id) ≠ l' := fun he => (h.deposit k id).ne_directory (he ▸ hl')
  rw [node?_withFile (h.directory_free k), if_neg hne, hl', ite_self]

/-- Other files are left as they were. -/
theorem node?_withFile_other {j : ObjectKind} {n name : String} (hne : ¬(j = k ∧ n = name)) (contents : FileContents) :
    (withFile t l k name contents).node? (fileAt l j n) = t.node? (fileAt l j n) := by
  rw [node?_withFile (h.directory_free k), if_neg fun he => hne ⟨(fileAt_inj.1 he).1.symm, (fileAt_inj.1 he).2.symm⟩,
    if_neg (fileAt_ne_directoryAt l j k n).symm]

theorem put (hid : Admits root k id) {contents : FileContents} {payload : String}
    (hdeposit : Deposit (written k id) (some (.file contents)) (some payload)) :
    Holds root written (withFile t l k (fileName id) contents) l (data.put k id payload) where
  root_stands := h.root_stands.mono (t.workingDirectory_withDirectory (directoryAt l k)) fun l' hl' =>
    h.node?_withFile_directory hl' contents
  directory_free j := by
    rw [node?_withFile (h.directory_free k), if_neg (fileAt_ne_directoryAt l k j _)]
    split
    · exact .inr rfl
    · exact h.directory_free j
  deposit j id' := by
    rw [RawData.get?_put]
    split
    · next hplace =>
      obtain ⟨rfl, rfl⟩ := hplace
      rw [node?_withFile (h.directory_free k), if_pos rfl]
      exact hdeposit
    · next hplace =>
      rw [h.node?_withFile_other fun he => hplace ⟨he.1.symm, (fileName_inj he.2).symm⟩]
      exact h.deposit j id'
  above j n e he := by
    by_cases hplace : j = k
    · rw [hplace, node?_withFile (h.directory_free k), if_neg (fileAt_ne_directoryAt l k k _), if_pos rfl]
    · rw [h.node?_withFile_other fun he => hplace he.1] at he
      exact h.node?_withFile_directory (h.above j n e he) contents
  named j n e he := by
    by_cases hplace : j = k ∧ n = fileName id
    · obtain ⟨rfl, rfl⟩ := hplace
      exact ⟨id, hid, rfl⟩
    · rw [h.node?_withFile_other hplace] at he
      exact h.named j n e he

theorem stands_directory (hdir : t.node? (directoryAt l k) = some .directory) :
    t.Stands ((Path.start root).child k.directory) (directoryAt l k) :=
  h.root_stands.child (isEntryName_directory k) hdir

/-- A store that is open writes the envelope where it belongs. -/
theorem persist_eq (hid : Admits root k id) (now : String) (v : Value) :
    ({ root, writable := true } : FileStore).persist now k id v t =
      (.ok (), withFile t l k (fileName id) (.ofText (Envelope.of now v.sorted).encode)) := by
  have hmake : t.makeDirectories ((Path.start root).child k.directory) =
      (.ok (), t.withDirectory (directoryAt l k)) :=
    h.root_stands.makeDirectories_child (isEntryName_directory k) hid.check_directory (h.directory_free k)
  have hparent : (((Path.start root).child k.directory).child (fileName id)).parent =
      (Path.start root).child k.directory := Path.parent_child _ _
  have hpath : ({ root, writable := true } : FileStore).file k id =
      ((Path.start root).child k.directory).child (fileName id) := hid.file_eq
  -- in the directory, which stands now, there is a file or nothing in this place
  have hentry := FileTree.node?_withDirectory (directoryAt_ne_nil l k) (h.directory_free k)
  have hstands : (t.withDirectory (directoryAt l k)).Stands (Path.start root) l :=
    h.root_stands.mono (t.workingDirectory_withDirectory _) fun l' hl' => by rw [hentry, hl', ite_self]
  have hlocate := (hstands.child (isEntryName_directory k) (by rw [hentry]; exact if_pos rfl)).locate_child
    hid.isEntryName hid.check_file
  have hplace : FileTree.obstacle? ((t.withDirectory (directoryAt l k)).node? (fileAt l k (fileName id))) = none := by
    rw [hentry, if_neg (fileAt_ne_directoryAt l k k _).symm]
    exact (h.deposit k id).obstacle?_eq_none
  have hdone : ((t.withDirectory (directoryAt l k)).write (((Path.start root).child k.directory).child (fileName id))
      (.ofText (Envelope.of now v.sorted).encode)) =
        .ok (withFile t l k (fileName id) (.ofText (Envelope.of now v.sorted).encode)) := by
    rw [FileTree.write_of_locate (l := fileAt l k (fileName id)) hlocate, hplace]
    rfl
  rw [persist, hpath]
  simp only [Bool.not_true, Bool.false_eq_true, if_false, hparent, hmake, hdone]

/-! ## Taking a payload out -/

/-- Of a payload that is not held nothing is taken out. -/
theorem removed_of_none (hnone : t.node? (fileAt l k (fileName id)) = none) :
    Holds root written t l (data.remove k id).2 := by
  refine ⟨h.root_stands, h.directory_free, fun j id' => ?_, h.above, h.named⟩
  rw [RawData.get?_remove]
  split
  · next hplace =>
    obtain ⟨rfl, rfl⟩ := hplace
    rw [hnone]
    exact .absent
  · exact h.deposit j id'

/-- With its file a payload is gone. -/
theorem removed_of_file :
    Holds root written { t with entries := t.entries.erase (fileAt l k (fileName id)) } l (data.remove k id).2 := by
  have hentry := t.node?_erase (fileAt_ne_nil l k (fileName id))
  have hkeep : ∀ l', t.node? l' = some .directory →
      FileTree.node? { t with entries := t.entries.erase (fileAt l k (fileName id)) } l' = some .directory := by
    intro l' hl'
    have hne : fileAt l k (fileName id) ≠ l' := fun he => (h.deposit k id).ne_directory (he ▸ hl')
    rw [hentry, if_neg hne, hl']
  have hless : ∀ j n e, FileTree.node? { t with entries := t.entries.erase (fileAt l k (fileName id)) }
      (fileAt l j n) = some e → t.node? (fileAt l j n) = some e := by
    intro j n e he
    rw [hentry] at he
    split at he
    · cases he
    · exact he
  refine ⟨h.root_stands.mono rfl hkeep, fun j => ?_, fun j id' => ?_,
    fun j n e he => hkeep _ (h.above j n e (hless j n e he)), fun j n e he => h.named j n e (hless j n e he)⟩
  · rw [hentry, if_neg (fileAt_ne_directoryAt l k j _)]
    exact h.directory_free j
  · rw [RawData.get?_remove]
    split
    · next hplace =>
      obtain ⟨rfl, rfl⟩ := hplace
      rw [hentry, if_pos rfl]
      exact .absent
    · next hplace =>
      rw [hentry, if_neg fun he => hplace ⟨(fileAt_inj.1 he).1, fileName_inj (fileAt_inj.1 he).2⟩]
      exact h.deposit j id'

/-- A store that is open says whether there was a payload, and takes it out. -/
theorem exists_delete_eq (hid : Admits root k id) : ∃ t',
    ({ root, writable := true } : FileStore).delete k id t = (.ok ((data.get k).get? id).isSome, t') ∧
      Holds root written t' l (data.remove k id).2 := by
  have hpath : ({ root, writable := true } : FileStore).file k id =
      ((Path.start root).child k.directory).child (fileName id) := hid.file_eq
  have hflag : ((data.get k).get? id).isSome = (t.node? (fileAt l k (fileName id))).isSome :=
    (h.deposit k id).isSome_eq
  have hnothing (hnone : t.node? (fileAt l k (fileName id)) = none)
      (hremove : t.remove (((Path.start root).child k.directory).child (fileName id)) = .error .notFound) :
      ({ root, writable := true } : FileStore).delete k id t = (.ok ((data.get k).get? id).isSome, t) := by
    simp only [delete, hpath, hremove, hflag, hnone, Bool.not_true, Bool.false_eq_true, if_false, Option.isSome_none]
  rcases h.directory_free k with hnone | hdir
  · -- not even the directory is there
    have hmissing : t.Missing ((Path.start root).child k.directory) :=
      .inr ⟨_, h.root_stands.follow_child (isEntryName_directory k), hnone⟩
    have hfile : t.node? (fileAt l k (fileName id)) = none := by
      rcases hentry : t.node? (fileAt l k (fileName id)) with _ | e
      · rfl
      · rw [h.above k _ e hentry] at hnone
        cases hnone
    exact ⟨t, hnothing hfile (FileTree.remove_of_error (hmissing.locate_child hid.check_file)),
      h.removed_of_none hfile⟩
  · have hlocate := (h.stands_directory hdir).locate_child hid.isEntryName hid.check_file
    rcases hentry : t.node? (fileAt l k (fileName id)) with _ | e
    · exact ⟨t, hnothing hentry (FileTree.remove_of_none hlocate hentry), h.removed_of_none hentry⟩
    · refine ⟨_, ?_, h.removed_of_file⟩
      obtain ⟨now, x, -, rfl, -⟩ := (h.deposit k id).exists_of_some hentry
      have hremove := FileTree.remove_of_file hlocate hentry
      simp only [delete, hpath, hremove, hflag, hentry, Bool.not_true, Bool.false_eq_true, if_false, Option.isSome_some]
      rfl

end Holds

/-! ## What is read -/

/-- What a file of a kind shows: the id in its name, and the payload in its envelope. -/
def shownIn (k : ObjectKind) (e : String × FileContents) : String × String :=
  ((Path.splitExtension e.1).1, ((payload k (Path.splitExtension e.1).1 e.2).toOption.getD ""))

/-- What the files of a kind show, in the order of their names. -/
def shown (t : FileTree) (l : Location) (k : ObjectKind) : List (String × String) :=
  (t.filesIn (directoryAt l k)).entries.map (shownIn k)

/-- What may have been written may be read: sound objects at times that are times. -/
def Written.IsSound (written : Written) : Prop :=
  ∀ k id now x, written k id now x → x.IsSound ∧ Text.isTimestamp now = true

section Envelope

variable {now : String} {x : Persistable} (hx : x.IsSound) (hnow : Text.isTimestamp now = true) {id : String}
  (hid : id ≠ "") (k : ObjectKind)

include hx hnow hid

theorem reading?_encode : reading? k (fileName id) (.ofText (Envelope.of now x.toValue.sorted).encode) =
    some (.payload k id x.toValue.sorted.compact) := by
  simp only [reading?, fileName, extension, Path.splitExtension_json hid, if_true, payload, FileContents.ofText,
    Envelope.payload_encode hnow hx.integral hx.nesting_le]

theorem shownIn_encode : shownIn k (fileName id, .ofText (Envelope.of now x.toValue.sorted).encode) =
    (id, x.toValue.sorted.compact) := by
  simp only [shownIn, fileName, extension, Path.splitExtension_json hid, payload, FileContents.ofText,
    Envelope.payload_encode hnow hx.integral hx.nesting_le]
  rfl

end Envelope

/-- A payload of a store on disk and one of a store in memory come of one object, or both are absent. -/
inductive Copy (written : String → Persistable → Prop) : Option String → Option String → Prop
  | absent : Copy written none none
  | present {now : String} {x : Persistable} (h : written now x) :
    Copy written (some x.toValue.sorted.compact) (some x.text)

namespace Copy

variable {written : String → Persistable → Prop} {p q : Option String} (h : Copy written p q)

include h

theorem isSome_eq : p.isSome = q.isSome := by
  cases h <;> rfl

theorem exists_of_some {a b : String} (hp : p = some a) (hq : q = some b) :
    ∃ now x, written now x ∧ a = x.toValue.sorted.compact ∧ b = x.text := by
  cases h with
  | absent => cases hp
  | @present now x hwritten => exact ⟨now, x, hwritten, (Option.some.inj hp).symm, (Option.some.inj hq).symm⟩

end Copy

namespace Holds

variable {root : String} {written : Written} {t : FileTree} {l : Location} {data : RawData} {k : ObjectKind}
  {id : String} (h : Holds root written t l data)

include h

/-- Every file of a kind is the envelope of a payload. -/
theorem exists_of_mem_filesIn {e : String × FileContents} (he : e ∈ (t.filesIn (directoryAt l k)).entries) :
    ∃ id now x, Admits root k id ∧ written k id now x ∧
      e = (fileName id, .ofText (Envelope.of now x.toValue.sorted).encode) ∧
      t.node? (directoryAt l k) = some .directory := by
  obtain ⟨name, contents⟩ := e
  have hentry : t.node? (fileAt l k name) = some (.file contents) :=
    (t.get?_filesIn _ _ _).1 (SortedMap.get?_eq_some_iff.2 he)
  obtain ⟨id, hid, rfl⟩ := h.named k name _ hentry
  obtain ⟨now, x, hwritten, hfile, -⟩ := (h.deposit k id).exists_of_some hentry
  obtain rfl := FileEntry.file.inj hfile
  exact ⟨id, now, x, hid, hwritten, rfl, h.above k _ _ hentry⟩

variable (hsound : written.IsSound)

include hsound

theorem fileName_shownIn {e : String × FileContents} (he : e ∈ (t.filesIn (directoryAt l k)).entries) :
    fileName (shownIn k e).1 = e.1 := by
  obtain ⟨id, now, x, hid, hwritten, rfl, -⟩ := h.exists_of_mem_filesIn he
  obtain ⟨hx, hnow⟩ := hsound k id now x hwritten
  rw [shownIn_encode hx hnow hid.ne_empty]

theorem shown_pairwise (k : ObjectKind) : (shown t l k).Pairwise fun a b => fileName a.1 < fileName b.1 := by
  refine List.pairwise_map.2 ((t.filesIn (directoryAt l k)).sorted.imp_of_mem fun {a b} ha hb hlt => ?_)
  rwa [h.fileName_shownIn hsound ha, h.fileName_shownIn hsound hb]

theorem readingsOf_eq (writable : Bool) (k : ObjectKind) : ({ root, writable } : FileStore).readingsOf t k =
    (shown t l k).map fun e => .payload k e.1 e.2 := by
  have hpath : Path.ofString (({ root, writable } : FileStore).directory k) = (Path.start root).child k.directory :=
    ofString_directory { root, writable } k
  have hnone : (∀ e, e ∉ (t.filesIn (directoryAt l k)).entries) → shown t l k = [] := fun hall => by
    rw [shown, List.eq_nil_iff_forall_not_mem.2 hall, List.map_nil]
  rw [readingsOf, hpath]
  rcases hcheck : ((Path.start root).child k.directory).check with error | _
  · rw [FileTree.locate_of_check_error hcheck, hnone]
    · rfl
    · intro e he
      obtain ⟨_, _, _, hid, -⟩ := h.exists_of_mem_filesIn he
      rw [hid.check_directory] at hcheck
      cases hcheck
  · rw [h.root_stands.locate_child (isEntryName_directory k) hcheck]
    show (if t.node? (directoryAt l k) = some .directory then
      (t.filesIn (directoryAt l k)).entries.filterMap fun e => reading? k e.1 e.2 else []) = _
    split
    · rw [shown, List.map_map]
      refine List.filterMap_eq_map_iff_forall_eq_some.2 fun e he => ?_
      obtain ⟨id, now, x, hid, hwritten, rfl, -⟩ := h.exists_of_mem_filesIn he
      obtain ⟨hx, hnow⟩ := hsound k id now x hwritten
      rw [reading?_encode hx hnow hid.ne_empty, Function.comp_apply, shownIn_encode hx hnow hid.ne_empty]
    · next hdir =>
      rw [hnone]
      · rfl
      · intro e he
        obtain ⟨_, _, _, -, -, -, hthere⟩ := h.exists_of_mem_filesIn he
        exact hdir hthere

theorem readings_eq (writable : Bool) :
    (({ root, writable } : FileStore).source t).readings = .ok (Reading.ofPayloads (shown t l)) := by
  rw [source, Reading.ofPayloads, funext (h.readingsOf_eq hsound writable)]

theorem entries_payloads (writable : Bool) (k : ObjectKind) :
    ((({ root, writable } : FileStore).source t).payloads.get k).entries = shown t l k :=
  Source.entries_payloads (h.readings_eq hsound writable) (nodup_of_pairwise (h.shown_pairwise hsound k))

/-- What is shown under an id is what lies in its file. -/
theorem mem_shown_iff {p : String} : (id, p) ∈ shown t l k ↔ ∃ contents,
    t.node? (fileAt l k (fileName id)) = some (.file contents) ∧ (shownIn k (fileName id, contents)).2 = p := by
  rw [shown, List.mem_map]
  constructor
  · rintro ⟨e, he, hshown⟩
    have hname := h.fileName_shownIn hsound he
    rw [hshown] at hname
    have hentry := (t.get?_filesIn _ _ _).1 (SortedMap.get?_eq_some_iff.2 he)
    rw [← hname] at hentry
    refine ⟨e.2, hentry, ?_⟩
    rw [show (fileName id, e.2) = e from Prod.ext hname rfl, hshown]
  · rintro ⟨contents, hentry, rfl⟩
    have he := SortedMap.get?_eq_some_iff.1 ((t.get?_filesIn _ _ _).2 hentry)
    exact ⟨_, he, Prod.ext (fileName_inj (h.fileName_shownIn hsound he)) rfl⟩

/-- The payloads of a store on disk are copies of those that it holds. -/
theorem copy (writable : Bool) (k : ObjectKind) (id : String) : Copy (written k id)
    (((({ root, writable } : FileStore).source t).payloads.get k).get? id) ((data.get k).get? id) := by
  have hget : ∀ p, ((({ root, writable } : FileStore).source t).payloads.get k).get? id = some p ↔
      (id, p) ∈ shown t l k := fun p => by
    rw [OrderedMap.get?_eq_some_iff, h.entries_payloads hsound]
  rcases hentry : t.node? (fileAt l k (fileName id)) with _ | e
  · have hnone : ((({ root, writable } : FileStore).source t).payloads.get k).get? id = none := by
      rw [Option.eq_none_iff_forall_ne_some]
      intro p hp
      obtain ⟨contents, hfile, -⟩ := (h.mem_shown_iff hsound).1 ((hget p).1 hp)
      rw [hentry] at hfile
      cases hfile
    rw [hnone, h.get?_eq_none hentry]
    exact .absent
  · obtain ⟨now, x, hwritten, rfl, hpayload⟩ := (h.deposit k id).exists_of_some hentry
    obtain ⟨id', hid, hname⟩ := h.named k _ _ hentry
    obtain rfl := fileName_inj hname
    obtain ⟨hx, hnow⟩ := hsound k id now x hwritten
    rw [hpayload, (hget _).2 ((h.mem_shown_iff hsound).2 ⟨_, hentry, rfl⟩), shownIn_encode hx hnow hid.ne_empty]
    exact .present hwritten

end Holds

end FileStore

end ManagementPlane
