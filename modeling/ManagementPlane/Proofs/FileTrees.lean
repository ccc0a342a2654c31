import ManagementPlane.Proofs.FilePaths

/-!
# Below a directory

What happens to the entries below a directory when files and directories in it are made, replaced and removed, and
where the paths to them lead meanwhile.

* `FileTree.Stands` : a path leads to a directory; `FileTree.Missing` : it leads to a place where nothing is yet;
* `Stands.locate_child`, `Stands.makeDirectories_child` : entries of a directory that stands;
* `makeDirectories_child_of_missing` : making a directory below a missing one makes that one first;
* `get?_filesIn` : the files of a directory are the entries that are files.
-/

namespace ManagementPlane

/-! ## Tables by key -/

namespace SortedMap

variable {α : Type}

theorem get?_eq_some_iff {m : SortedMap α} {k : String} {v : α} : m.get? k = some v ↔ (k, v) ∈ m.entries := by
  obtain ⟨l, hl⟩ := m
  show lookup k l = some v ↔ (k, v) ∈ l
  induction l with
  | nil => simp [lookup]
  | cons e l ih =>
    obtain ⟨k', v'⟩ := e
    rw [List.pairwise_cons] at hl
    rw [lookup, List.mem_cons]
    by_cases hk : k' = k
    · subst hk
      have hnot : (k', v) ∉ l := fun hm => String.lt_irrefl k' (hl.1 (k', v) hm)
      simp [hnot, eq_comm]
    · have hne : k ≠ k' := fun he => hk he.symm
      simp [hk, hne, ih hl.2]

theorem get?_foldl_insert {l : List (String × α)} (hnd : (l.map Prod.fst).Nodup) (m : SortedMap α) (k : String)
    (v : α) : (l.foldl (fun m e => m.insert e.1 e.2) m).get? k = some v ↔
      (k, v) ∈ l ∨ k ∉ l.map Prod.fst ∧ m.get? k = some v := by
  induction l generalizing m with
  | nil => simp
  | cons e l ih =>
    rw [List.map_cons, List.nodup_cons] at hnd
    rw [List.foldl_cons, ih hnd.2, get?_insert]
    obtain ⟨k', v'⟩ := e
    by_cases hk : k' = k
    · subst hk
      have hnot : (k', v) ∉ l := fun hm => hnd.1 (List.mem_map.2 ⟨_, hm, rfl⟩)
      simp [hnot, hnd.1, eq_comm]
    · have hne : k ≠ k' := fun he => hk he.symm
      simp [hk, hne]

theorem get?_ofList {l : List (String × α)} (hnd : (l.map Prod.fst).Nodup) (k : String) (v : α) :
    (ofList l).get? k = some v ↔ (k, v) ∈ l := by
  rw [ofList, get?_foldl_insert hnd]
  simp

end SortedMap

namespace Path

theorem check_of_child {p : Path} {name : String} (h : (p.child name).check = .ok ()) : p.check = .ok () := by
  simp only [check, child, List.any_append, List.foldl_append, Bool.or_eq_true, List.foldl_cons, List.foldl_nil] at h ⊢
  split at h
  · cases h
  · next hnul =>
    rw [if_neg fun he => hnul (.inl he)]
    split at h
    · cases h
    · next hlong => rw [if_neg (by omega)]

end Path

namespace FileTree

variable {t t' : FileTree} {p : Path} {l : Location} {name : String}

/-! ## Entries -/

theorem node?_put (t : FileTree) {l : Location} (hl : l ≠ []) (e : FileEntry) (l' : Location) :
    (t.put l e).node? l' = if l = l' then some e else t.node? l' := by
  rw [node?, node?, put, OrderedMap.get?_insert]
  by_cases hl' : l' = []
  · rw [if_pos hl', if_pos hl', if_neg fun he => hl (he.trans hl')]
  · rw [if_neg hl', if_neg hl']

theorem node?_erase (t : FileTree) {l : Location} (hl : l ≠ []) (l' : Location) :
    node? { t with entries := t.entries.erase l } l' = if l = l' then none else t.node? l' := by
  rw [node?, node?, OrderedMap.get?_erase]
  by_cases hl' : l' = []
  · rw [if_pos hl', if_pos hl', if_neg fun he => hl (he.trans hl')]
  · rw [if_neg hl', if_neg hl']

theorem append_ne_nil (l : Location) (n : FileName) : l ++ [n] ≠ [] :=
  List.append_ne_nil_of_right_ne_nil l (List.cons_ne_nil _ _)

/-- What an entry shows as a file of a directory. -/
def fileIn? (l : Location) (e : Location × FileEntry) : Option (String × FileContents) :=
  match e.1.getLast?, e.2 with
  | some (.text name), .file contents => if e.1.dropLast = l then some (name, contents) else none
  | _, _ => none

theorem fileIn?_eq_some_iff {e : Location × FileEntry} {contents : FileContents} :
    fileIn? l e = some (name, contents) ↔ e = (l ++ [.text name], .file contents) := by
  constructor
  · intro h
    obtain ⟨l', entry⟩ := e
    unfold fileIn? at h
    split at h
    · next n c hlast hfile =>
      obtain ⟨init, hinit⟩ := List.getLast?_eq_some_iff.1 hlast
      dsimp only at hinit hfile
      subst hinit hfile
      simp only [List.dropLast_concat] at h
      split at h
      · next hl =>
        cases h
        rw [hl]
      · cases h
    · cases h
  · rintro rfl
    simp [fileIn?]

theorem fileNames_nodup (t : FileTree) (l : Location) :
    ((t.entries.entries.filterMap (fileIn? l)).map Prod.fst).Nodup := by
  have hkeys : t.entries.entries.Pairwise fun a b => a.1 ≠ b.1 := List.pairwise_map.1 t.entries.nodup
  refine List.pairwise_map.2 (List.pairwise_filterMap.2 (hkeys.imp ?_))
  rintro a b hne ⟨n, c⟩ ha ⟨n', c'⟩ hb he
  obtain rfl : n = n' := he
  rw [fileIn?_eq_some_iff.1 ha, fileIn?_eq_some_iff.1 hb] at hne
  exact hne rfl

/-- The files of a directory are its entries that are files and have texts for names. -/
theorem get?_filesIn (t : FileTree) (l : Location) (name : String) (contents : FileContents) :
    (t.filesIn l).get? name = some contents ↔ t.node? (l ++ [.text name]) = some (.file contents) := by
  have hentry : t.node? (l ++ [.text name]) = t.entries.get? (l ++ [.text name]) := if_neg (append_ne_nil l _)
  have hfiles : t.filesIn l = .ofList (t.entries.entries.filterMap (fileIn? l)) := rfl
  rw [hentry, OrderedMap.get?_eq_some_iff, hfiles, SortedMap.get?_ofList (t.fileNames_nodup l), List.mem_filterMap]
  constructor
  · rintro ⟨e, he, hshown⟩
    rwa [← fileIn?_eq_some_iff.1 hshown]
  · exact fun he => ⟨_, he, fileIn?_eq_some_iff.2 rfl⟩

/-! ## Where paths lead -/

/-- Where a path starts. -/
def origin (t : FileTree) (p : Path) : Location := if p.absolute then [] else t.workingDirectory

theorem follow_append (t : FileTree) (l : Location) (ps qs : List String) :
    t.follow l (ps ++ qs) = t.follow l ps >>= fun l' => t.follow l' qs := by
  induction ps generalizing l with
  | nil => rfl
  | cons p ps ih =>
    rw [List.cons_append, follow, follow]
    split
    · rfl
    · split
      · rfl
      · split
        · exact ih _
        · split
          · rfl
          · exact ih _
    · rfl

/-- Directories that stay let a path lead where it led. -/
theorem follow_mono (hkeep : ∀ l, t.node? l = some .directory → t'.node? l = some .directory) {l l' : Location}
    {ps : List String} (h : t.follow l ps = .ok l') : t'.follow l ps = .ok l' := by
  induction ps generalizing l with
  | nil => exact h
  | cons p ps ih =>
    rw [follow] at h ⊢
    split at h
    · cases h
    · next hdir =>
      rw [hkeep l hdir]
      dsimp only
      split at h
      · cases h
      · next hempty =>
        rw [if_neg hempty]
        split at h
        · next hup =>
          rw [if_pos hup]
          exact ih h
        · next hup =>
          rw [if_neg hup]
          split at h
          · cases h
          · next hlong =>
            rw [if_neg hlong]
            exact ih h
    · cases h

theorem locate_of_check_error {e : FileError} (hcheck : p.check = .error e) : t.locate p = .error e := by
  rw [locate, hcheck]
  rfl

theorem locate_eq (hcheck : p.check = .ok ()) (hplain : p.toDirectory = false) :
    t.locate p = t.follow (t.origin p) p.parts := by
  unfold locate
  rw [hcheck]
  show (t.follow (t.origin p) p.parts >>= _) = _
  rcases t.follow (t.origin p) p.parts with e | l
  · rfl
  · simp only [hplain, Bool.false_eq_true, if_false, bind, Except.bind]
    rcases t.node? l with _ | ⟨_⟩ | _ | _ <;> rfl

theorem locate_child (hcheck : (p.child name).check = .ok ()) :
    t.locate (p.child name) = t.follow (t.origin p) p.parts >>= fun l => t.follow l [name] := by
  rw [locate_eq hcheck rfl, Path.child, follow_append]
  rfl

/-! ## Operations at a location -/

section Located

variable {l : Location} (hl : t.locate p = .ok l)

include hl

theorem makeDirectory_of_locate : t.makeDirectory p = match t.node? l with
    | none => .ok (t.put l .directory)
    | some _ => .error .alreadyExists := by
  rw [makeDirectory, hl]
  rfl

theorem write_of_locate (contents : FileContents) : t.write p contents = match obstacle? (t.node? l) with
    | some e => .error e
    | none => if p.toDirectory then .error .isDirectory else .ok (t.put l (.file contents)) := by
  rw [write, hl]
  rfl

theorem remove_of_none (hnone : t.node? l = none) : t.remove p = .error .notFound := by
  simp only [remove, hl, bind, Except.bind, hnone]

theorem remove_of_file {bs : List UInt8} (hfile : t.node? l = some (.file (.bytes bs))) :
    t.remove p = .ok { t with entries := t.entries.erase l } := by
  simp only [remove, hl, bind, Except.bind, hfile]

theorem isDirectory_of_locate : t.isDirectory p = decide (t.node? l = some .directory) := by
  rw [isDirectory, lookup?, hl]

end Located

section NotLocated

variable {e : FileError} (hl : t.locate p = .error e)

include hl

theorem makeDirectory_of_error : t.makeDirectory p = .error e := by
  rw [makeDirectory, hl]
  rfl

theorem remove_of_error : t.remove p = .error e := by
  rw [remove, hl]
  rfl

theorem isDirectory_of_error : t.isDirectory p = false := by
  rw [isDirectory, lookup?, hl]
  rfl

end NotLocated

/-- A name that a directory can have an entry of. -/
structure IsEntryName (name : String) : Prop where
  ne_empty : name ≠ ""
  ne_up : name ≠ ".."
  size_le : name.utf8ByteSize ≤ 255

theorem follow_name (hl : t.node? l = some .directory) (hname : IsEntryName name) :
    t.follow l [name] = .ok (l ++ [.text name]) := by
  rw [follow, hl]
  dsimp only
  rw [if_neg hname.ne_empty, if_neg hname.ne_up, if_neg (Nat.not_lt.2 hname.size_le), follow]

theorem follow_name_of_none (hl : t.node? l = none) (name : String) : t.follow l [name] = .error .notFound := by
  rw [follow, hl]

/-! ## Directories that stand -/

/-- The path leads to a directory. -/
structure Stands (t : FileTree) (p : Path) (l : Location) : Prop where
  follow : t.follow (t.origin p) p.parts = .ok l
  directory : t.node? l = some .directory

/-- The path leads to a place where nothing is yet, or would if there were anything above. -/
def Missing (t : FileTree) (p : Path) : Prop :=
  t.follow (t.origin p) p.parts = .error .notFound ∨
    ∃ l, t.follow (t.origin p) p.parts = .ok l ∧ t.node? l = none

namespace Stands

variable (h : t.Stands p l) (hname : IsEntryName name) (hcheck : (p.child name).check = .ok ())

include h

theorem follow_child (hname : IsEntryName name) :
    t.follow (t.origin (p.child name)) (p.child name).parts = .ok (l ++ [.text name]) := by
  rw [Path.child, follow_append]
  show t.follow (t.origin p) p.parts >>= _ = _
  rw [h.follow]
  exact follow_name h.directory hname

theorem child (hname : IsEntryName name) (hdir : t.node? (l ++ [.text name]) = some .directory) :
    t.Stands (p.child name) (l ++ [.text name]) := ⟨h.follow_child hname, hdir⟩

theorem mono (hstart : t'.workingDirectory = t.workingDirectory)
    (hkeep : ∀ l, t.node? l = some .directory → t'.node? l = some .directory) : t'.Stands p l where
  follow := by
    have horigin : t'.origin p = t.origin p := by rw [origin, origin, hstart]
    rw [horigin]
    exact follow_mono hkeep h.follow
  directory := hkeep l h.directory

include hname hcheck

theorem locate_child : t.locate (p.child name) = .ok (l ++ [.text name]) := by
  rw [FileTree.locate_child hcheck, h.follow]
  exact follow_name h.directory hname

end Stands

/-- The tree with a directory at the location, if nothing is there. -/
def withDirectory (t : FileTree) (l : Location) : FileTree :=
  if t.node? l = none then t.put l .directory else t

theorem node?_withDirectory (hl : l ≠ [])
    (hfree : t.node? l = none ∨ t.node? l = some .directory) (l' : Location) :
    (t.withDirectory l).node? l' = if l = l' then some .directory else t.node? l' := by
  rw [withDirectory]
  rcases hfree with hnone | hdir
  · rw [if_pos hnone, node?_put _ hl]
  · rw [if_neg (by rw [hdir]; exact nofun)]
    split
    · next he => rw [← he, hdir]
    · rfl

@[simp] theorem workingDirectory_withDirectory (t : FileTree) (l : Location) :
    (t.withDirectory l).workingDirectory = t.workingDirectory := by
  rw [withDirectory]
  split <;> rfl

theorem makeDirectories_child_eq (hname : name ≠ "") : t.makeDirectories (p.child name) =
    t.makeDirectoriesFrom (p.child name) (p.parts.length + 1) := by
  have hne : p.child name ≠ .ofString "" := fun he => by
    have hparts : p.parts ++ [name] = [] ++ [""] := congrArg Path.parts he
    exact hname (List.cons.inj (List.append_inj' hparts rfl).2).1
  rw [makeDirectories, if_neg hne]
  simp [Path.child]

/-- Below a directory that stands another one is made if it is not there. -/
theorem Stands.makeDirectories_child (h : t.Stands p l) (hname : IsEntryName name)
    (hcheck : (p.child name).check = .ok ())
    (hfree : t.node? (l ++ [.text name]) = none ∨ t.node? (l ++ [.text name]) = some .directory) :
    t.makeDirectories (p.child name) = (.ok (), t.withDirectory (l ++ [.text name])) := by
  have hlocate := h.locate_child hname hcheck
  rw [makeDirectories_child_eq hname.ne_empty, makeDirectoriesFrom, makeDirectory_of_locate hlocate, withDirectory,
    isDirectory_of_locate hlocate]
  rcases hfree with hnone | hdir
  · rw [hnone, if_pos rfl]
  · rw [hdir, if_neg nofun]
    rfl

/-! ## Directories that are missing -/

theorem Missing.child (h : t.Missing p) (name : String) : t.Missing (p.child name) := by
  refine .inl ?_
  rw [Path.child, follow_append]
  show t.follow (t.origin p) p.parts >>= _ = _
  rcases h with hfollow | ⟨l, hfollow, hnone⟩
  · rw [hfollow]
    rfl
  · rw [hfollow]
    exact follow_name_of_none hnone name

theorem Missing.locate_child (h : t.Missing p) (hcheck : (p.child name).check = .ok ()) :
    t.locate (p.child name) = .error .notFound := by
  rw [FileTree.locate_child hcheck]
  rcases h with hfollow | ⟨l, hfollow, hnone⟩
  · rw [hfollow]
    rfl
  · rw [hfollow]
    exact follow_name_of_none hnone name

theorem check_of_makeDirectories {made : FileTree} (hp : p ≠ .ofString "")
    (hmake : t.makeDirectories p = (.ok (), made)) : p.check = .ok () := by
  rw [makeDirectories, if_neg hp] at hmake
  rcases hn : p.parts with _ | ⟨s, parts⟩
  · simp [Path.check, hn]
  · rw [hn, List.length_cons, makeDirectoriesFrom] at hmake
    rcases hcheck : p.check with e | _
    · -- a path that is refused makes no directory, and it is not for lack of one above
      have hlocate := locate_of_check_error (t := t) hcheck
      rw [makeDirectory_of_error hlocate, isDirectory_of_error hlocate] at hmake
      cases e with
      | notFound =>
        rw [Path.check] at hcheck
        split at hcheck
        · cases hcheck
        · split at hcheck <;> cases hcheck
      | _ => cases hmake
    · rfl

/-- A directory that can be made is there, and then nothing is made, or it is missing. -/
theorem stands_or_missing {made : FileTree} (hplain : p.toDirectory = false) (hp : p ≠ .ofString "")
    (hmake : t.makeDirectories p = (.ok (), made)) (hmade : made.Stands p l) :
    t.Stands p l ∧ made = t ∨ t.Missing p := by
  have hlocate := locate_eq (t := t) (check_of_makeDirectories hp hmake) hplain
  rw [makeDirectories, if_neg hp] at hmake
  rcases hn : p.parts.length with _ | n
  · rw [hn] at hmake
    obtain rfl : t = made := (Prod.mk.inj hmake).2
    exact .inl ⟨hmade, rfl⟩
  · rw [hn, makeDirectoriesFrom] at hmake
    rcases hfollow : t.follow (t.origin p) p.parts with e | l'
    · rw [hfollow] at hlocate
      by_cases he : e = .notFound
      · exact .inr (.inl (by rw [hfollow, he]))
      · rw [makeDirectory_of_error hlocate, isDirectory_of_error hlocate] at hmake
        cases e with
        | notFound => exact absurd rfl he
        | _ => cases hmake
    · rw [hfollow] at hlocate
      rcases hentry : t.node? l' with _ | e
      · exact .inr (.inr ⟨l', hfollow, hentry⟩)
      · rw [makeDirectory_of_locate hlocate, isDirectory_of_locate hlocate, hentry] at hmake
        cases e with
        | directory =>
          obtain rfl : t = made := (Prod.mk.inj hmake).2
          exact .inl ⟨hmade, rfl⟩
        | _ => cases hmake

/-- Making a directory below a missing one makes that one first. -/
theorem makeDirectories_child_of_missing {made : FileTree} (hmissing : t.Missing p) (hplain : p.toDirectory = false)
    (hp : p ≠ .ofString "") (hmake : t.makeDirectories p = (.ok (), made)) (hmade : made.Stands p l)
    (hname : IsEntryName name) (hcheck : (p.child name).check = .ok ())
    (hfree : made.node? (l ++ [.text name]) = none ∨ made.node? (l ++ [.text name]) = some .directory) :
    t.makeDirectories (p.child name) = made.makeDirectories (p.child name) := by
  have hparent : (p.child name).parent = p := by
    rw [Path.parent_child, ← hplain]
  have hlocate := hmade.locate_child hname hcheck
  rw [makeDirectories, if_neg hp] at hmake
  rw [hmade.makeDirectories_child hname hcheck hfree, makeDirectories_child_eq hname.ne_empty, makeDirectoriesFrom,
    makeDirectory_of_error (hmissing.locate_child hcheck), hparent, hmake]
  dsimp only
  rw [makeDirectory_of_locate hlocate, isDirectory_of_locate hlocate, withDirectory]
  rcases hfree with hnone | hdir
  · rw [hnone, if_pos rfl]
  · rw [hdir, if_neg nofun]
    rfl

end FileTree

end ManagementPlane
