import ManagementPlane.Proofs.StoreContents
import ManagementPlane.Proofs.Walks

/-!
# The file that an id names

A store joins ids to paths as they are. What it writes and removes under an id is one file; but an id with slashes in
it may lead out of the directory of its kind, or to the file of another object.

* `FileStore.persist_cases`, `FileStore.delete_cases` : what writing and removing come to;
* `FileStore.onlyAt_persist`, `FileStore.onlyAt_delete` : the one file that may change;
* `FileStore.Rooted` : a store whose directories are found as soon as they are there, which stays so;
* `Rooted.mem_readings`, `Rooted.get?_payloads` : what is read of a store, file by file;
* `FileStore.KeepsToSlot` : no file changes outside the directory of the kind, and other objects are read as before;
* `FileStore.keepsToSlot_of_no_slash` : so it is for ids that are names;
* `FileStore.keepsToSlot_iff` : it is so exactly if nothing can be written under the id, or what is written is in the
  directory and not the file of another object.
-/

namespace ManagementPlane

open Json (Value depthLimit)

/-- The object that something is read of. -/
def Reading.about : Reading → ObjectKind × String
  | payload kind id _ => (kind, id)
  | unreadable kind id _ => (kind, id)

namespace FileStore

variable (s : FileStore) (kind : ObjectKind) (id : String) (t : FileTree)

/-! ## Writing and removing -/

/-- Where the file of an object is. -/
def fileOf : Location := t.place (s.file kind id)

/-- The tree that an object is written into: the directories for its file have been made. -/
def prepared : FileTree := (t.makeDirectories (s.file kind id).parent).2

/-- Something can be written under the id. -/
def Writes : Prop := ∃ now v, (s.persist now kind id v t).1 = .ok ()

variable {s kind id t}

theorem writes_of_isOk (now : String) (v : Value) (h : (s.persist now kind id v t).1.isOk = true) :
    s.Writes kind id t := by
  refine ⟨now, v, ?_⟩
  rcases hr : (s.persist now kind id v t).1 with e | _
  · rw [hr] at h
    cases h
  · rfl

theorem place_prepared (p : Path) : (s.prepared kind id t).place p = t.place p :=
  (FileTree.OnlyAt.makeDirectories [] t _).place_eq p

/-- The path of a file that leads anywhere leads to a name in a directory that stands. -/
theorem exists_of_locate_file {l : Location} (h : t.locate (s.file kind id) = .ok l) :
    ∃ l₀ base, (s.file kind id).parent.check = .ok () ∧ t.Stands (s.file kind id).parent l₀ ∧
      FileTree.IsEntryName (fileName base) ∧ l = l₀ ++ [.text (fileName base)] := by
  obtain ⟨p, base, hplain, hfile⟩ := s.exists_file_eq kind id
  have hparent : (s.file kind id).parent = p := by rw [hfile, Path.parent_child, ← hplain]
  rw [hparent]
  rw [hfile] at h
  obtain ⟨l₀, hstands, hname, rfl⟩ := FileTree.exists_stands_of_locate_child h (fileName_ne_up base)
  exact ⟨l₀, base, Path.check_of_child (FileTree.follow_of_locate h).1, hstands, hname, rfl⟩

section Writable

variable (hs : s.writable = true)

include hs

/-- An object is written in its place, or only directories are made. -/
theorem persist_cases (kind : ObjectKind) (id : String) (t : FileTree) :
    (∃ e, ∀ now v, s.persist now kind id v t = (.error e, s.prepared kind id t)) ∨
      (s.prepared kind id t).locate (s.file kind id) = .ok (s.fileOf kind id t) ∧
        (s.prepared kind id t).node? (s.fileOf kind id t) ≠ some .directory ∧
        ∀ now v, s.persist now kind id v t =
          (.ok (), (s.prepared kind id t).put (s.fileOf kind id t) (.file (.ofText (Envelope.of now v.sorted).encode))) := by
  obtain ⟨r, hmake⟩ : ∃ r, t.makeDirectories (s.file kind id).parent = (r, s.prepared kind id t) := ⟨_, rfl⟩
  rcases r with e | _
  · exact .inl ⟨failure e, fun now v => by simp [persist, hs, hmake]⟩
  · rcases hlocate : (s.prepared kind id t).locate (s.file kind id) with e | l
    · exact .inl ⟨failure e, fun now v => by simp [persist, hs, hmake, FileTree.write, hlocate, bind, Except.bind]⟩
    · have hl : l = s.fileOf kind id t := (FileTree.eq_place_of_locate hlocate).trans (place_prepared _)
      have hwrite := FileTree.write_of_locate hlocate
      subst hl
      rcases hfree : FileTree.obstacle? ((s.prepared kind id t).node? (s.fileOf kind id t)) with _ | e
      · refine .inr ⟨rfl, fun hdir => ?_, fun now v => by simp [persist, hs, hmake, hwrite, hfree, toDirectory_file]⟩
        rw [hdir] at hfree
        cases hfree
      · exact .inl ⟨failure e, fun now v => by simp [persist, hs, hmake, hwrite, hfree]⟩

/-- What has been written lies in its place, if anything can be written there. -/
theorem node?_persist (hw : s.Writes kind id t) (now : String) (v : Value) :
    (s.persist now kind id v t).2.node? (s.fileOf kind id t) =
      some (.file (.ofText (Envelope.of now v.sorted).encode)) := by
  rcases persist_cases hs kind id t with ⟨e, herror⟩ | ⟨-, hdir, hok⟩
  · obtain ⟨now, v, hw⟩ := hw
    rw [herror] at hw
    cases hw
  · rw [hok, FileTree.node?_put _ (FileTree.ne_nil_of_node? hdir), if_pos rfl]

/-- At most one file changes while an object is written. -/
theorem onlyAt_persist {l : Location} (hl : s.Writes kind id t → l = s.fileOf kind id t) (now : String) (v : Value) :
    FileTree.OnlyAt l t (s.persist now kind id v t).2 := by
  have hprepared : FileTree.OnlyAt l t (s.prepared kind id t) := .makeDirectories l t _
  rcases persist_cases hs kind id t with ⟨e, herror⟩ | ⟨-, hdir, hok⟩
  · rwa [herror]
  · rw [hl ⟨now, v, by rw [hok]⟩] at hprepared ⊢
    rw [hok]
    exact hprepared.trans (.put hdir _)

theorem isTree_persist (h : t.IsTree) (now : String) (v : Value) : (s.persist now kind id v t).2.IsTree := by
  have hprepared : (s.prepared kind id t).IsTree := h.makeDirectories _
  rcases persist_cases hs kind id t with ⟨e, herror⟩ | ⟨hlocate, hdir, hok⟩
  · rwa [herror]
  · obtain ⟨l₀, base, -, hstands, hname, heq⟩ := exists_of_locate_file hlocate
    rw [hok, heq]
    rw [heq] at hdir
    exact hprepared.put hstands.directory hname hdir _

/-- An object is removed from the place that it can be written to, or what is removed there is no file, or nothing
changes. -/
theorem delete_cases (kind : ObjectKind) (id : String) (t : FileTree) : (s.delete kind id t).2 = t ∨
    (s.Writes kind id t ∧ t.node? (s.fileOf kind id t) ≠ some .directory ∨
        t.node? (s.fileOf kind id t) = some .other) ∧
      (s.delete kind id t).2 = { t with entries := t.entries.erase (s.fileOf kind id t) } := by
  rcases hlocate : t.locate (s.file kind id) with e | l
  · refine .inl ?_
    rw [delete, FileTree.remove_of_error hlocate]
    cases e <;> simp [hs]
  · obtain rfl : l = s.fileOf kind id t := FileTree.eq_place_of_locate hlocate
    rcases hentry : t.node? (s.fileOf kind id t) with _ | ⟨bs | e⟩ | _ | _
    · refine .inl ?_
      rw [delete, FileTree.remove_of_none hlocate hentry]
      simp [hs]
    · -- a file can be written where there is one
      obtain ⟨l₀, -, hcheck, hstands, -⟩ := exists_of_locate_file hlocate
      have hmake := hstands.makeDirectories_eq hcheck rfl
      refine .inr ⟨.inl ⟨⟨"", .null, ?_⟩, by simp⟩, ?_⟩
      · simp [persist, hs, hmake, FileTree.write_of_locate hlocate, hentry, FileTree.obstacle?, toDirectory_file]
      · rw [delete, FileTree.remove_of_file hlocate hentry]
        simp [hs]
    · refine .inl ?_
      cases e <;> simp [delete, hs, FileTree.remove, hlocate, hentry, bind, Except.bind]
    · refine .inl ?_
      simp [delete, hs, FileTree.remove, hlocate, hentry, bind, Except.bind]
    · refine .inr ⟨.inr rfl, ?_⟩
      simp [delete, hs, FileTree.remove, hlocate, hentry, bind, Except.bind]

/-- At most one file changes while an object is removed. -/
theorem onlyAt_delete {l : Location} (hl : s.Writes kind id t → l = s.fileOf kind id t) :
    FileTree.OnlyAt l t (s.delete kind id t).2 := by
  rcases delete_cases hs kind id t with hsame | ⟨⟨hw, hdir⟩ | hother, hgone⟩
  · rw [hsame]
    exact .refl l t
  · rw [hgone, hl hw]
    exact .erase hdir
  · rw [hgone]
    exact .erase_other hother l

theorem isTree_delete (h : t.IsTree) : (s.delete kind id t).2.IsTree := by
  rcases delete_cases hs kind id t with hsame | ⟨⟨-, hdir⟩ | hother, hgone⟩
  · rwa [hsame]
  · rw [hgone]
    exact h.erase hdir
  · rw [hgone]
    exact h.erase (by rw [hother]; exact nofun)

end Writable

/-! ## What is read, file by file -/

/-- The location of the root. -/
def home (s : FileStore) (t : FileTree) : Location := t.place (Path.start s.root)

/-- A store in a tree of files whose directories are found as soon as they are there: the file system takes their paths,
and where the path of the root has a `..`, it leads out of a directory that is there. -/
structure Rooted (s : FileStore) (t : FileTree) : Prop where
  tree : t.IsTree
  check : ∀ k, (Path.ofString (s.directory k)).check = .ok ()
  clear : ∃ ps qs l, (Path.start s.root).parts = ps ++ qs ∧ t.follow (t.origin (Path.start s.root)) ps = .ok l ∧
    ".." ∉ qs

/-- What reading a store comes upon. -/
def readings (s : FileStore) (t : FileTree) : List Reading := ObjectKind.all.flatMap (s.readingsOf t)

/-- What the file of an object shows. -/
def opened (kind : ObjectKind) (id : String) (contents : FileContents) : Reading :=
  match FileStore.payload kind id contents with
  | .ok text => .payload kind id text
  | .error e => .unreadable kind id e

theorem about_opened (kind : ObjectKind) (id : String) (contents : FileContents) :
    (opened kind id contents).about = (kind, id) := by
  rw [opened]
  split <;> rfl

theorem opened_encode {now : String} (hnow : Text.isTimestamp now = true) {v : Value} (hint : v.isIntegral = true)
    (hnest : v.nesting ≤ depthLimit - 1) (kind : ObjectKind) (id : String) :
    opened kind id (.ofText (Envelope.of now v.sorted).encode) = .payload kind id v.sorted.compact := by
  rw [opened, FileContents.ofText, FileStore.payload, Envelope.payload_encode hnow hint hnest]

/-- A file is read for the object whose id its name has. -/
theorem reading?_eq_some_iff {name : String} {contents : FileContents} {r : Reading} :
    reading? kind name contents = some r ↔ ∃ id, id ≠ "" ∧ name = fileName id ∧ r = opened kind id contents := by
  constructor
  · intro h
    rw [reading?] at h
    split at h
    · next id ext hsplit =>
      split at h
      · next hext =>
        subst hext
        obtain ⟨hid, hname⟩ := Path.eq_of_splitExtension hsplit
        refine ⟨id, hid, hname, ?_⟩
        rw [opened]
        rcases hpayload : FileStore.payload kind id contents with e | text <;>
        · rw [hpayload] at h
          exact (Option.some.inj h).symm
      · cases h
    · cases h
  · rintro ⟨id, hid, rfl, rfl⟩
    have hsplit : Path.splitExtension (fileName id) = (id, some extension) := Path.splitExtension_json hid
    simp only [reading?, hsplit, if_true, opened]
    rcases FileStore.payload kind id contents with e | text <;> rfl

theorem home_eq_of_onlyAt {t' : FileTree} {l : Location} (h : FileTree.OnlyAt l t t') : s.home t' = s.home t :=
  h.place_eq _

theorem place_directory (s : FileStore) (t : FileTree) (k : ObjectKind) :
    t.place (.ofString (s.directory k)) = directoryAt (s.home t) k := by
  rw [ofString_directory, FileTree.place_child t _ (isEntryName_directory k).ne_up]
  rfl

namespace Rooted

variable (h : s.Rooted t)

include h

theorem of_onlyAt {t' : FileTree} {l : Location} (htree : t'.IsTree) (honly : FileTree.OnlyAt l t t') :
    s.Rooted t' where
  tree := htree
  check := h.check
  clear := by
    obtain ⟨ps, qs, l, hparts, hfollow, hforward⟩ := h.clear
    refine ⟨ps, qs, l, hparts, ?_, hforward⟩
    rw [FileTree.origin, honly.start]
    exact FileTree.follow_mono honly.directory hfollow

/-- The directory of a kind is found where it is. -/
theorem locate_directory {k : ObjectKind} (hdir : t.node? (directoryAt (s.home t) k) = some .directory) :
    t.locate (.ofString (s.directory k)) = .ok (directoryAt (s.home t) k) := by
  have hcheck := h.check k
  obtain ⟨ps, qs, l, hparts, hfollow, hforward⟩ := h.clear
  have hnames : ".." ∉ qs ++ [k.directory] := by
    rw [List.mem_append, List.mem_singleton, not_or]
    exact ⟨hforward, (isEntryName_directory k).ne_up.symm⟩
  have hplace : directoryAt (s.home t) k = l ++ (qs ++ [k.directory]).map .text := by
    rw [directoryAt, home, FileTree.place, hparts, FileTree.walk_append, ← FileTree.follow_eq_walk hfollow,
      FileTree.walk_of_forward l hforward, List.map_append, List.append_assoc]
    rfl
  rw [ofString_directory] at hcheck ⊢
  rw [hplace] at hdir ⊢
  rw [FileTree.locate_eq hcheck rfl]
  show t.follow (t.origin (Path.start s.root)) ((Path.start s.root).parts ++ [k.directory]) = _
  rw [hparts, List.append_assoc, FileTree.follow_append, hfollow]
  exact h.tree.follow_of_directory hnames hdir

/-- The files of the kinds are read, each for the object whose id its name has. -/
theorem mem_readings {r : Reading} : r ∈ s.readings t ↔ ∃ k i contents, i ≠ "" ∧
    t.node? (fileAt (s.home t) k (fileName i)) = some (.file contents) ∧ r = opened k i contents := by
  rw [readings, List.mem_flatMap]
  constructor
  · rintro ⟨k, -, hr⟩
    rw [readingsOf] at hr
    split at hr
    · cases hr
    · next l hlocate =>
      obtain rfl : l = directoryAt (s.home t) k := (FileTree.eq_place_of_locate hlocate).trans (s.place_directory t k)
      split at hr
      · obtain ⟨⟨name, contents⟩, he, hreading⟩ := List.mem_filterMap.1 hr
        obtain ⟨i, hi, hname, rfl⟩ := reading?_eq_some_iff.1 hreading
        have hentry := (t.get?_filesIn _ _ _).1 (SortedMap.get?_eq_some_iff.2 he)
        exact ⟨k, i, contents, hi, by rw [← hname]; exact hentry, rfl⟩
      · cases hr
  · rintro ⟨k, i, contents, hi, hentry, rfl⟩
    have hdir := h.tree.above _ _ _ hentry
    have he := SortedMap.get?_eq_some_iff.1 ((t.get?_filesIn _ _ _).2 hentry)
    refine ⟨k, k.mem_all, ?_⟩
    rw [readingsOf, h.locate_directory hdir]
    simp only [hdir, if_true]
    exact List.mem_filterMap.2 ⟨_, he, reading?_eq_some_iff.2 ⟨i, hi, rfl, rfl⟩⟩

/-- A payload that is read is in the file of its object. -/
theorem exists_file_of_mem {k : ObjectKind} {i text : String} (hr : .payload k i text ∈ s.readings t) : ∃ contents,
    t.node? (fileAt (s.home t) k (fileName i)) = some (.file contents) ∧ .payload k i text = opened k i contents := by
  obtain ⟨k', i', contents, -, hentry, hopened⟩ := h.mem_readings.1 hr
  obtain ⟨rfl, rfl⟩ : k = k' ∧ i = i' :=
    Prod.mk.inj ((congrArg Reading.about hopened).trans (about_opened k' i' contents))
  exact ⟨contents, hentry, hopened⟩

/-- The payloads that reading the store comes upon are its raw data. -/
theorem get?_payloads {k : ObjectKind} {i text : String} :
    ((s.source t).payloads.get k).get? i = some text ↔ .payload k i text ∈ s.readings t := by
  refine Source.get?_foldl_putReading (fun k i a b ha hb => ?_) k i text
  -- there is one file for both
  obtain ⟨contents, hentry, ha⟩ := h.exists_file_of_mem ha
  obtain ⟨contents', hentry', hb⟩ := h.exists_file_of_mem hb
  obtain rfl := FileEntry.file.inj (Option.some.inj (hentry.symm.trans hentry'))
  exact (Reading.payload.inj (ha.trans hb.symm)).2.2

theorem get?_payloads_eq_none {k : ObjectKind} {i : String}
    (hnone : t.node? (fileAt (s.home t) k (fileName i)) = none) : ((s.source t).payloads.get k).get? i = none := by
  refine Option.eq_none_iff_forall_ne_some.2 fun text htext => ?_
  obtain ⟨contents, hentry, -⟩ := h.exists_file_of_mem (h.get?_payloads.1 htext)
  rw [hnone] at hentry
  cases hentry

end Rooted

section Writable

variable (hs : s.writable = true) (h : s.Rooted t)

include hs h

theorem Rooted.persist (kind : ObjectKind) (id now : String) (v : Value) : s.Rooted (s.persist now kind id v t).2 :=
  h.of_onlyAt (isTree_persist hs h.tree now v) (onlyAt_persist hs (fun _ => rfl) now v)

theorem Rooted.delete (kind : ObjectKind) (id : String) : s.Rooted (s.delete kind id t).2 :=
  h.of_onlyAt (isTree_delete hs h.tree) (onlyAt_delete hs fun _ => rfl)

/-- An object that has been written is read, if its file is where files of the kind are. -/
theorem get?_payloads_persist {now : String} (hnow : Text.isTimestamp now = true) {v : Value}
    (hint : v.isIntegral = true) (hnest : v.nesting ≤ depthLimit - 1) (hw : s.Writes kind id t) {k : ObjectKind}
    {i : String} (hi : i ≠ "") (hplace : s.fileOf kind id t = fileAt (s.home t) k (fileName i)) :
    ((s.source (s.persist now kind id v t).2).payloads.get k).get? i = some v.sorted.compact := by
  have honly := onlyAt_persist hs (l := s.fileOf kind id t) (fun _ => rfl) now v
  have h' := h.persist hs kind id now v
  have hentry := node?_persist hs hw now v
  rw [hplace] at hentry
  rw [h'.get?_payloads, h'.mem_readings, home_eq_of_onlyAt honly]
  exact ⟨k, i, _, hi, hentry, (opened_encode hnow hint hnest k i).symm⟩

end Writable

/-! ## Slots -/

/-- Strictly below a location. -/
def IsInside (directory l : Location) : Prop := ∃ n r, l = directory ++ n :: r

/-- A place in the directory of the kind that is not the place of another object. -/
structure IsOwn (home : Location) (kind : ObjectKind) (id : String) (l : Location) : Prop where
  inside : IsInside (directoryAt home kind) l
  own : ∀ i, i ≠ "" → l = fileAt home kind (fileName i) → i = id

theorem isOwn_fileAt (home : Location) (kind : ObjectKind) (id : String) :
    IsOwn home kind id (fileAt home kind (fileName id)) where
  inside := ⟨_, [], rfl⟩
  own _ _ he := (fileName_inj (fileAt_inj.1 he).2).symm

theorem kind_eq_of_inside {home : Location} {k kind : ObjectKind} {name : String}
    (h : IsInside (directoryAt home kind) (fileAt home k name)) : k = kind := by
  obtain ⟨n, r, he⟩ := h
  simp only [fileAt, directoryAt, List.append_assoc, List.append_cancel_left_eq] at he
  exact ObjectKind.directory_inj (FileName.text.inj (List.cons.inj he).1)

theorem IsOwn.ne_fileAt {home l : Location} {k : ObjectKind} {i : String} (h : IsOwn home kind id l)
    (hother : (k, i) ≠ (kind, id)) (hi : i ≠ "") : fileAt home k (fileName i) ≠ l := by
  rintro rfl
  obtain rfl := kind_eq_of_inside h.inside
  exact hother (congrArg (Prod.mk k) (h.own i hi rfl))

/-- An id without slashes names a file in the directory of the kind. -/
theorem fileOf_eq (s : FileStore) (kind : ObjectKind) {id : String} (hslash : '/' ∉ id.toList) (t : FileTree) :
    s.fileOf kind id t = fileAt (s.home t) kind (fileName id) := by
  rw [fileOf, file_eq s kind hslash]
  show t.place (((Path.start s.root).child kind.directory).child (fileName id)) = _
  rw [FileTree.place_child t _ (fileName_ne_up id), ← ofString_directory, s.place_directory t kind, fileAt]

/-- What happened under an id stayed in its slot: files outside the directory of the kind are as they were, and of
other objects the same is read, be it a payload or a failure. -/
structure KeepsToSlot (s : FileStore) (kind : ObjectKind) (id : String) (t t' : FileTree) : Prop where
  elsewhere : ∀ l contents, ¬IsInside (directoryAt (s.home t) kind) l →
    (t'.node? l = some (.file contents) ↔ t.node? l = some (.file contents))
  reading : ∀ r : Reading, r.about ≠ (kind, id) → (r ∈ s.readings t' ↔ r ∈ s.readings t)
  payload : ∀ k i, (k, i) ≠ (kind, id) →
    ((s.source t').payloads.get k).get? i = ((s.source t).payloads.get k).get? i

/-- A change of a file of one's own keeps to the slot. -/
theorem Rooted.keepsToSlot {t' : FileTree} {l : Location} (h : s.Rooted t) (hown : IsOwn (s.home t) kind id l)
    (htree : t'.IsTree) (honly : FileTree.OnlyAt l t t') : s.KeepsToSlot kind id t t' := by
  have h' := h.of_onlyAt htree honly
  have hreading : ∀ r : Reading, r.about ≠ (kind, id) → (r ∈ s.readings t' ↔ r ∈ s.readings t) := by
    intro r hr
    rw [h'.mem_readings, h.mem_readings, home_eq_of_onlyAt honly]
    refine exists_congr fun k => exists_congr fun i => exists_congr fun contents => and_congr_right fun hi => ?_
    refine and_congr_left fun hopened => ?_
    rw [hopened, about_opened] at hr
    exact honly.file _ _ (hown.ne_fileAt hr hi)
  refine ⟨fun l' contents hout => honly.file l' contents ?_, hreading, fun k i hother => Option.ext fun text => ?_⟩
  · rintro rfl
    exact hout hown.inside
  · rw [h'.get?_payloads, h.get?_payloads]
    exact hreading _ hother

section Writable

variable (hs : s.writable = true) (h : s.Rooted t)

include hs h

/-- A store whose writes under an id lead to a file of its own keeps to the slot of the id. -/
theorem keepsToSlot (hown : s.Writes kind id t → IsOwn (s.home t) kind id (s.fileOf kind id t)) :
    (∀ now v, s.KeepsToSlot kind id t (s.persist now kind id v t).2) ∧
      s.KeepsToSlot kind id t (s.delete kind id t).2 := by
  -- if nothing can be written, no file changes, and the one that would be the object's is as good as any
  obtain ⟨l, hl, hchange⟩ : ∃ l, IsOwn (s.home t) kind id l ∧
      (s.Writes kind id t → l = s.fileOf kind id t) := by
    by_cases hw : s.Writes kind id t
    · exact ⟨_, hown hw, fun _ => rfl⟩
    · exact ⟨_, isOwn_fileAt _ kind id, fun hw' => absurd hw' hw⟩
  exact ⟨fun now v => h.keepsToSlot hl (isTree_persist hs h.tree now v) (onlyAt_persist hs hchange now v),
    h.keepsToSlot hl (isTree_delete hs h.tree) (onlyAt_delete hs hchange)⟩

/-- A store keeps to the slot of an id that is a name. -/
theorem keepsToSlot_of_no_slash (hslash : '/' ∉ id.toList) :
    (∀ now v, s.KeepsToSlot kind id t (s.persist now kind id v t).2) ∧
      s.KeepsToSlot kind id t (s.delete kind id t).2 := by
  refine keepsToSlot hs h fun _ => ?_
  rw [fileOf_eq s kind hslash t]
  exact isOwn_fileAt (s.home t) kind id

/-- A store keeps to the slot of an id exactly if nothing can be written under it, or what is written is in the
directory of the kind and not the file of another object. -/
theorem keepsToSlot_iff : (∀ now v, s.KeepsToSlot kind id t (s.persist now kind id v t).2) ∧
    s.KeepsToSlot kind id t (s.delete kind id t).2 ↔
      (s.Writes kind id t → IsOwn (s.home t) kind id (s.fileOf kind id t)) := by
  refine ⟨fun hkeeps hw => ?_, keepsToSlot hs h⟩
  have hkept := hkeeps.1 "2024-01-02T03:04:05Z"
  have hnow : Text.isTimestamp "2024-01-02T03:04:05Z" = true := by decide +kernel
  have hdiffer : Value.null.sorted.compact ≠ (Value.bool true).sorted.compact := by decide +kernel
  constructor
  · -- two different texts would have been there before
    by_contra hout
    have hfile : ∀ v : Value, t.node? (s.fileOf kind id t) =
        some (.file (.ofText (Envelope.of "2024-01-02T03:04:05Z" v.sorted).encode)) := fun v =>
      ((hkept v).elsewhere _ _ hout).1 (node?_persist hs hw _ v)
    have hsame := FileEntry.file.inj (Option.some.inj ((hfile .null).symm.trans (hfile (.bool true))))
    have hnull := opened_encode hnow (v := .null) (by decide) (by decide) kind id
    have htrue := opened_encode hnow (v := .bool true) (by decide) (by decide) kind id
    rw [← hsame, hnull] at htrue
    exact hdiffer (Reading.payload.inj htrue).2.2
  · intro i hi hplace
    by_contra hne
    have hother : (kind, i) ≠ (kind, id) := fun he => hne (Prod.mk.inj he).2
    have hnull := (hkept .null).payload kind i hother
    have htrue := (hkept (.bool true)).payload kind i hother
    rw [get?_payloads_persist hs h hnow (by decide) (by decide) hw hi hplace] at hnull htrue
    exact hdiffer (Option.some.inj (hnull.trans htrue.symm))

end Writable

/-! ## Ids with slashes -/

/-- A store in the directory `st` of a laboratory. -/
def labStore : FileStore := { root := "st", writable := true }

theorem rooted_lab : labStore.Rooted (.rootedAt "/lab") where
  tree := FileTree.isTree_rootedAt "/lab"
  check k := by
    cases k <;> rfl
  clear := ⟨[], ["st"], [.text "lab"], by decide, rfl, by decide⟩

/-- An id may lead to a directory below that of its kind. -/
theorem keepsToSlot_iff_shop : labStore.writable = true ∧ labStore.Rooted (.rootedAt "/lab") ∧
    labStore.Writes .entity "shop/web" (.rootedAt "/lab") ∧
    ∀ now v, labStore.KeepsToSlot .entity "shop/web" (.rootedAt "/lab")
      (labStore.persist now .entity "shop/web" v (.rootedAt "/lab")).2 := by
  have hplace : labStore.fileOf .entity "shop/web" (.rootedAt "/lab") =
      [.text "lab", .text "st", .text "entities", .text "shop", .text "web.json"] := by decide +kernel
  have hhome : labStore.home (.rootedAt "/lab") = [.text "lab", .text "st"] := by decide +kernel
  have hw : labStore.Writes .entity "shop/web" (.rootedAt "/lab") :=
    writes_of_isOk "2024-01-02T03:04:05Z" .null (by decide +kernel)
  refine ⟨rfl, rooted_lab, hw, ((keepsToSlot_iff rfl rooted_lab).2 fun _ => ?_).1⟩
  rw [hplace, hhome]
  refine ⟨⟨.text "shop", [.text "web.json"], rfl⟩, fun i _ he => ?_⟩
  have hlength := congrArg List.length he
  cases hlength

/-- The store after an entity and a location have been written. -/
def labTree : FileTree :=
  (labStore.persist "2024-01-02T03:04:06Z" .location "x" .null
    (labStore.persist "2024-01-02T03:04:05Z" .entity "e" .null (.rootedAt "/lab")).2).2

/-- An id may lead out of the directory of its kind, and with it a location is removed as an entity. -/
theorem delete_removes_other_kind : labStore.Rooted labTree ∧
    (labStore.delete .entity "../locations/x" labTree).1.toOption = some true ∧
    ((labStore.source labTree).payloads.get .location).get? "x" = some "null" ∧
    ((labStore.source (labStore.delete .entity "../locations/x" labTree).2).payloads.get .location).get? "x" = none ∧
    ¬labStore.KeepsToSlot .entity "../locations/x" labTree (labStore.delete .entity "../locations/x" labTree).2 := by
  let before : FileTree := (labStore.persist "2024-01-02T03:04:05Z" .entity "e" .null (.rootedAt "/lab")).2
  have hbefore : labStore.Rooted before := rooted_lab.persist rfl _ _ _ _
  have hroot : labStore.Rooted labTree := hbefore.persist rfl _ _ _ _
  have hafter : labStore.Rooted (labStore.delete .entity "../locations/x" labTree).2 := hroot.delete rfl _ _
  have hw : labStore.Writes .location "x" before :=
    writes_of_isOk "2024-01-02T03:04:06Z" .null (by decide +kernel)
  have hread : ((labStore.source labTree).payloads.get .location).get? "x" = some "null" :=
    get?_payloads_persist rfl hbefore (by decide +kernel) (by decide) (by decide) hw (by decide)
      (fileOf_eq labStore .location (by decide) before)
  have hgone : ((labStore.source (labStore.delete .entity "../locations/x" labTree).2).payloads.get .location).get?
      "x" = none := hafter.get?_payloads_eq_none (by decide +kernel)
  refine ⟨hroot, by decide +kernel, hread, hgone, fun hkept => ?_⟩
  have hsame := hkept.payload .location "x" (by decide)
  rw [hread, hgone] at hsame
  cases hsame

end FileStore

end ManagementPlane
