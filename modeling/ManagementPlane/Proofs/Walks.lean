import ManagementPlane.Proofs.FileTrees
import Mathlib.Data.List.Induction

/-!
# Where paths lead, and what writing changes

A path that leads anywhere leads where its parts say: every part goes into a directory, and `..` leads out of it. What
lies in a tree lies in directories, and stays so while directories are made and files are written and removed; each of
these touches one place.

* `FileTree.walk`, `FileTree.place` : the location that a path says, whether it can be reached or not;
* `FileTree.IsTree` : what is there is in a directory, under a name that an entry can have;
* `IsTree.follow_of_directory` : every directory of a tree is reached by its names;
* `FileTree.makeDirectories_keeps` : what every directory that is made keeps, making a row of them keeps;
* `FileTree.OnlyAt` : directories stay, and so do the files at all places but one.
-/

namespace ManagementPlane.FileTree

variable {t t' : FileTree} {p : Path} {l l' : Location} {name : String}

/-! ## Walking -/

/-- The location that parts lead to from `l`, if every one of them leads somewhere. -/
def walk (l : Location) : List String → Location
  | [] => l
  | p :: r => if p = ".." then walk l.dropLast r else walk (l ++ [.text p]) r

/-- The location that a path says. -/
def place (t : FileTree) (p : Path) : Location := walk (t.origin p) p.parts

theorem walk_append (l : Location) (ps qs : List String) : walk l (ps ++ qs) = walk (walk l ps) qs := by
  induction ps generalizing l with
  | nil => rfl
  | cons p ps ih =>
    rw [List.cons_append, walk, walk]
    split <;> exact ih _

theorem walk_of_forward (l : Location) {ps : List String} (h : ".." ∉ ps) : walk l ps = l ++ ps.map .text := by
  induction ps generalizing l with
  | nil => simp [walk]
  | cons p ps ih =>
    rw [List.mem_cons, not_or] at h
    rw [walk, if_neg fun he => h.1 he.symm, ih _ h.2]
    simp

theorem place_child (t : FileTree) (p : Path) (hname : name ≠ "..") :
    t.place (p.child name) = t.place p ++ [.text name] := by
  show walk (t.origin p) (p.parts ++ [name]) = _
  rw [walk_append, walk, if_neg hname, walk]
  rfl

theorem follow_eq_walk {ps : List String} (h : t.follow l ps = .ok l') : l' = walk l ps := by
  induction ps generalizing l with
  | nil => exact (Except.ok.inj h).symm
  | cons p ps ih =>
    rw [follow] at h
    rw [walk]
    split at h
    · cases h
    · split at h
      · cases h
      · split at h
        · next hup =>
          rw [if_pos hup]
          exact ih h
        · next hup =>
          rw [if_neg hup]
          split at h
          · cases h
          · exact ih h
    · cases h

/-- What a step by a name takes: a directory to go into, and a name that an entry can have. -/
theorem follow_name_eq_ok (h : t.follow l [name] = .ok l') (hup : name ≠ "..") :
    t.node? l = some .directory ∧ IsEntryName name ∧ l' = l ++ [.text name] := by
  rw [follow] at h
  split at h
  · cases h
  · next hdir =>
    split at h
    · cases h
    · next hempty =>
      split at h
      · cases h
      · next hlong => exact ⟨hdir, ⟨hempty, hup, Nat.not_lt.1 hlong⟩, (Except.ok.inj h).symm⟩
  · cases h

/-- A path that leads somewhere may be given to the file system, and can be followed. -/
theorem follow_of_locate (h : t.locate p = .ok l) :
    p.check = .ok () ∧ t.follow (t.origin p) p.parts = .ok l := by
  rcases hcheck : p.check with e | _
  · rw [locate_of_check_error hcheck] at h
    cases h
  · refine ⟨rfl, ?_⟩
    simp only [locate, hcheck, bind, Except.bind] at h
    split at h
    · cases h
    · next l' hfollow =>
      -- a path that is meant to lead to a directory leads to no file
      refine Eq.trans hfollow ?_
      split at h
      · exact h
      · exact h
      · split at h
        · cases h
        · exact h

theorem eq_place_of_locate (h : t.locate p = .ok l) : l = t.place p := follow_eq_walk (follow_of_locate h).2

/-- A path to a file leads through a directory that stands. -/
theorem exists_stands_of_locate_child (h : t.locate (p.child name) = .ok l) (hup : name ≠ "..") :
    ∃ l', t.Stands p l' ∧ IsEntryName name ∧ l = l' ++ [.text name] := by
  rw [FileTree.locate_child (follow_of_locate h).1] at h
  rcases hfollow : t.follow (t.origin p) p.parts with e | l'
  · rw [hfollow] at h
    cases h
  · rw [hfollow] at h
    obtain ⟨hdir, hname, rfl⟩ := follow_name_eq_ok (l := l') h hup
    exact ⟨l', ⟨hfollow, hdir⟩, hname, rfl⟩

/-- Where a directory stands none has to be made. -/
theorem Stands.makeDirectories_eq (h : t.Stands p l) (hcheck : p.check = .ok ()) (hplain : p.toDirectory = false) :
    t.makeDirectories p = (.ok (), t) := by
  have hlocate : t.locate p = .ok l := by rw [locate_eq hcheck hplain, h.follow]
  rw [makeDirectories]
  split
  · rfl
  · rcases p.parts.length with _ | n
    · rfl
    · rw [makeDirectoriesFrom, makeDirectory_of_locate hlocate, isDirectory_of_locate hlocate, h.directory]
      rfl

/-! ## Directories stay -/

theorem ne_nil_of_node? (h : t.node? l ≠ some .directory) : l ≠ [] := by
  rintro rfl
  exact h rfl

section NoDirectory

variable (hl : t.node? l ≠ some .directory)

include hl

/-- What is put where no directory is leaves directories in place. -/
theorem directory_put (e : FileEntry) (hl' : t.node? l' = some .directory) :
    (t.put l e).node? l' = some .directory := by
  rw [node?_put t (ne_nil_of_node? hl), if_neg (by rintro rfl; exact hl hl'), hl']

theorem directory_erase (hl' : t.node? l' = some .directory) :
    FileTree.node? { t with entries := t.entries.erase l } l' = some .directory := by
  rw [node?_erase t (ne_nil_of_node? hl), if_neg (by rintro rfl; exact hl hl'), hl']

end NoDirectory

/-! ## Trees -/

/-- What is there is in a directory, under a name that an entry can have. -/
structure IsTree (t : FileTree) : Prop where
  above : ∀ l n e, t.node? (l ++ [n]) = some e → t.node? l = some .directory
  named : ∀ l name e, t.node? (l ++ [.text name]) = some e → IsEntryName name

theorem isTree_empty : IsTree {} where
  above l n e h := by cases (if_neg (append_ne_nil l n)).symm.trans h
  named l name e h := by cases (if_neg (append_ne_nil l _)).symm.trans h

namespace IsTree

variable (h : t.IsTree)

include h

theorem dropLast {e : FileEntry} (hl : t.node? l = some e) : t.node? l.dropLast = some .directory := by
  rcases List.eq_nil_or_concat l with rfl | ⟨l, n, rfl⟩
  · rfl
  · rw [List.concat_eq_append] at hl ⊢
    rw [List.dropLast_concat]
    exact h.above l n e hl

/-- Something more in a directory, where there is none yet. -/
theorem put (hl : t.node? l = some .directory) (hname : IsEntryName name)
    (hfree : t.node? (l ++ [.text name]) ≠ some .directory) (e : FileEntry) :
    (t.put (l ++ [.text name]) e).IsTree := by
  have hentry := t.node?_put (append_ne_nil l (.text name)) e
  constructor
  · intro l' n e' he
    rw [hentry] at he
    split at he
    · next heq =>
      obtain ⟨rfl, -⟩ := List.append_inj' heq rfl
      exact directory_put hfree e hl
    · exact directory_put hfree e (h.above l' n e' he)
  · intro l' name' e' he
    rw [hentry] at he
    split at he
    · next heq =>
      obtain rfl := FileName.text.inj (List.cons.inj (List.append_inj' heq rfl).2).1
      exact hname
    · exact h.named l' name' e' he

theorem erase (hl : t.node? l ≠ some .directory) : IsTree { t with entries := t.entries.erase l } := by
  have hless : ∀ l' e, FileTree.node? { t with entries := t.entries.erase l } l' = some e →
      t.node? l' = some e := by
    intro l' e he
    rw [node?_erase t (ne_nil_of_node? hl)] at he
    split at he
    · cases he
    · exact he
  exact ⟨fun l' n e he => directory_erase hl (h.above l' n e (hless _ _ he)),
    fun l' name e he => h.named l' name e (hless _ _ he)⟩

/-- A way that ends where no directory is ends by a name, in a directory. -/
theorem exists_last {ps : List String} (hne : ps ≠ []) (hfollow : t.follow l ps = .ok l')
    (hl' : t.node? l' ≠ some .directory) :
    ∃ l₀ name, t.node? l₀ = some .directory ∧ IsEntryName name ∧ l' = l₀ ++ [.text name] := by
  rcases List.eq_nil_or_concat ps with rfl | ⟨init, name, rfl⟩
  · exact absurd rfl hne
  · rw [List.concat_eq_append, follow_append] at hfollow
    rcases hinit : t.follow l init with e | l₀
    · rw [hinit] at hfollow
      cases hfollow
    · rw [hinit] at hfollow
      have hstep : t.follow l₀ [name] = .ok l' := hfollow
      by_cases hup : name = ".."
      · -- out of a directory one comes to a directory
        refine absurd ?_ hl'
        rw [follow, hup] at hstep
        split at hstep
        · cases hstep
        · next hdir =>
          rw [← Except.ok.inj hstep]
          exact h.dropLast hdir
        · cases hstep
      · obtain ⟨hdir, hname, rfl⟩ := follow_name_eq_ok hstep hup
        exact ⟨l₀, name, hdir, hname, rfl⟩

/-- Every directory is reached by its names. -/
theorem follow_of_directory {ps : List String} (hps : ".." ∉ ps)
    (hdir : t.node? (l ++ ps.map .text) = some .directory) : t.follow l ps = .ok (l ++ ps.map .text) := by
  induction ps using List.reverseRecOn with
  | nil => simp [follow]
  | append_singleton ps name ih =>
    rw [List.mem_append, not_or] at hps
    rw [List.map_append, ← List.append_assoc] at hdir ⊢
    have hinit := h.above _ _ _ hdir
    rw [follow_append, ih hps.1 hinit]
    exact follow_name hinit (h.named _ _ _ hdir)

end IsTree

/-! ## Making directories -/

/-- A directory is made where nothing is. -/
theorem exists_of_makeDirectory (h : t.makeDirectory p = .ok t') : ∃ l, t.follow (t.origin p) p.parts = .ok l ∧
    t.node? l = none ∧ t' = t.put l .directory := by
  rcases hlocate : t.locate p with e | l
  · rw [makeDirectory_of_error hlocate] at h
    cases h
  · rw [makeDirectory_of_locate hlocate] at h
    split at h
    · next hnone => exact ⟨l, (follow_of_locate hlocate).2, hnone, (Except.ok.inj h).symm⟩
    · cases h

/-- What every directory that is made keeps, making a row of them keeps. -/
theorem makeDirectories_keeps {P : FileTree → Prop}
    (hstep : ∀ t t' p, p.parts ≠ [] → t.makeDirectory p = .ok t' → P t → P t') (p : Path) (h : P t) :
    P (t.makeDirectories p).2 := by
  have hfrom : ∀ n t p, p.parts.length = n → P t → P (t.makeDirectoriesFrom p n).2 := by
    intro n
    induction n with
    | zero => exact fun _ _ _ h => h
    | succ n ih =>
      intro t p hn h
      have hparts : p.parts ≠ [] := List.ne_nil_of_length_eq_add_one hn
      have hparent : p.parent.parts.length = n := by simp [Path.parent, hn]
      rw [makeDirectoriesFrom]
      split
      · next t' hmake => exact hstep t t' p hparts hmake h
      · have habove := ih t p.parent hparent h
        split
        · next hmade =>
          rw [hmade] at habove
          exact habove
        · next made hmade =>
          rw [hmade] at habove
          split
          · next t' hmake => exact hstep made t' p hparts hmake habove
          · exact habove
      · exact h
  rw [makeDirectories]
  split
  · exact h
  · exact hfrom _ t p rfl h

theorem IsTree.makeDirectories (h : t.IsTree) (p : Path) : (t.makeDirectories p).2.IsTree := by
  refine makeDirectories_keeps (P := IsTree) (fun t t' p hparts hmake h => ?_) p h
  obtain ⟨l, hfollow, hnone, rfl⟩ := exists_of_makeDirectory hmake
  have hl : t.node? l ≠ some .directory := by
    rw [hnone]
    exact nofun
  obtain ⟨l₀, name, hdir, hname, rfl⟩ := h.exists_last hparts hfollow hl
  exact h.put hdir hname hl .directory

theorem isTree_rootedAt (path : String) : (rootedAt path).IsTree := by
  have h := isTree_empty.makeDirectories (.ofString path)
  exact ⟨h.above, h.named⟩

/-! ## Changes at one place -/

/-- Directories stay, and so do the files at all places but `l`. -/
structure OnlyAt (l : Location) (t t' : FileTree) : Prop where
  start : t'.workingDirectory = t.workingDirectory
  directory : ∀ l', t.node? l' = some .directory → t'.node? l' = some .directory
  file : ∀ l' contents, l' ≠ l → (t'.node? l' = some (.file contents) ↔ t.node? l' = some (.file contents))

namespace OnlyAt

theorem refl (l : Location) (t : FileTree) : OnlyAt l t t := ⟨rfl, fun _ h => h, fun _ _ _ => .rfl⟩

theorem trans {t'' : FileTree} (h : OnlyAt l t t') (h' : OnlyAt l t' t'') : OnlyAt l t t'' where
  start := h'.start.trans h.start
  directory l' hl' := h'.directory l' (h.directory l' hl')
  file l' contents hl' := (h'.file l' contents hl').trans (h.file l' contents hl')

theorem place_eq (h : OnlyAt l t t') (p : Path) : t'.place p = t.place p := by
  rw [place, place, origin, origin, h.start]

theorem put (hl : t.node? l ≠ some .directory) (e : FileEntry) : OnlyAt l t (t.put l e) where
  start := rfl
  directory _ hl' := directory_put hl e hl'
  file l' contents hl' := by rw [node?_put t (ne_nil_of_node? hl), if_neg hl'.symm]

theorem erase (hl : t.node? l ≠ some .directory) : OnlyAt l t { t with entries := t.entries.erase l } where
  start := rfl
  directory _ hl' := directory_erase hl hl'
  file l' contents hl' := by rw [node?_erase t (ne_nil_of_node? hl), if_neg hl'.symm]

/-- If the one place has the same file before and after, no file has changed. -/
theorem anywhere (h : OnlyAt l t t')
    (hl : ∀ contents, t'.node? l = some (.file contents) ↔ t.node? l = some (.file contents)) (k : Location) :
    OnlyAt k t t' where
  start := h.start
  directory := h.directory
  file l' contents _ := by
    by_cases hl' : l' = l
    · rw [hl']
      exact hl contents
    · exact h.file l' contents hl'

/-- What is neither a file nor a directory is removed, and no file has changed. -/
theorem erase_other (hl : t.node? l = some .other) (k : Location) :
    OnlyAt k t { t with entries := t.entries.erase l } := by
  have hdir : t.node? l ≠ some .directory := by
    rw [hl]
    exact nofun
  refine (erase hdir).anywhere (fun contents => ?_) k
  rw [node?_erase t (ne_nil_of_node? hdir), if_pos rfl, hl]
  exact ⟨nofun, nofun⟩

/-- Making directories changes no file at all. -/
theorem makeDirectories (l : Location) (t : FileTree) (p : Path) : OnlyAt l t (t.makeDirectories p).2 := by
  refine makeDirectories_keeps (P := OnlyAt l t) (fun t₁ t₂ p _ hmake h => h.trans ?_) p (.refl l t)
  obtain ⟨l₀, -, hnone, rfl⟩ := exists_of_makeDirectory hmake
  have hl₀ : t₁.node? l₀ ≠ some .directory := by
    rw [hnone]
    exact nofun
  refine (put hl₀ .directory).anywhere (fun contents => ?_) l
  rw [node?_put t₁ (ne_nil_of_node? hl₀), if_pos rfl, hnone]
  exact ⟨nofun, nofun⟩

end OnlyAt

end ManagementPlane.FileTree
