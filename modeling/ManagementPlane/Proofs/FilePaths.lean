import ManagementPlane.Store.File

/-!
# The paths of a store on disk

The path of an object is the root of the store, the directory of its kind, and the file name made of its id, whatever
the root looks like as a text, as long as the id is one name.

* `Path.child` : a path with one more part; `Path.ofString_join` : what joining a name to a text writes;
* `FileStore.ofString_directory`, `FileStore.file_eq` : the paths of a store by their parts;
* `FileStore.exists_file_eq` : the path of a file ends in a file name, whatever the id;
* `Path.splitExtension_json`, `Path.eq_of_splitExtension` : the id in a file name.
-/

namespace ManagementPlane

namespace Path

/-! ## Parts of a text -/

theorem segments_ne_nil (cs : List Char) : segments cs ≠ [] := by
  cases cs with
  | nil => exact List.cons_ne_nil _ _
  | cons c r =>
    rw [segments]
    split
    · exact List.cons_ne_nil _ _
    · split <;> exact List.cons_ne_nil _ _

theorem segments_append (cs ds : List Char) : segments (cs ++ '/' :: ds) = segments cs ++ segments ds := by
  induction cs with
  | nil => simp [segments]
  | cons c cs ih =>
    rw [List.cons_append, segments, segments, ih]
    split
    · rfl
    · obtain ⟨s, rest, hs⟩ := List.exists_cons_of_ne_nil (segments_ne_nil cs)
      rw [hs]
      rfl

theorem segments_of_not_mem {cs : List Char} (h : '/' ∉ cs) : segments cs = [cs] := by
  induction cs with
  | nil => rfl
  | cons c cs ih =>
    rw [List.mem_cons, not_or] at h
    rw [segments, if_neg fun he => h.1 he.symm, ih h.2]

/-- A text that names an entry of a directory: it is no path of several parts, and none that stays in place. -/
structure IsName (s : String) : Prop where
  ne_empty : s ≠ ""
  ne_dot : s ≠ "."
  no_slash : '/' ∉ s.toList

/-- The path with one more part. -/
def child (p : Path) (name : String) : Path := { p with parts := p.parts ++ [name], toDirectory := false }

theorem parent_child (p : Path) (name : String) : (p.child name).parent = { p with toDirectory := false } := by
  simp [parent, child]

/-- The parts that a text stands for. -/
def partsOf (cs : List Char) : List String :=
  ((segments cs).filter fun p => p ≠ [] && p ≠ ['.']).map String.ofList

namespace IsName

variable {name : String} (h : IsName name)

include h

theorem toList_ne_nil : name.toList ≠ [] := fun he => h.ne_empty (String.toList_eq_nil_iff.1 he)

theorem toList_ne_dot : name.toList ≠ ['.'] := fun he => h.ne_dot (String.toList_injective (he.trans rfl))

theorem partsOf_eq : partsOf name.toList = [name] := by
  rw [partsOf, segments_of_not_mem h.no_slash]
  simp [h.toList_ne_nil, h.toList_ne_dot]

theorem partsOf_append (cs : List Char) : partsOf (cs ++ '/' :: name.toList) = partsOf cs ++ [name] := by
  have hname := h.partsOf_eq
  rw [partsOf] at hname
  rw [partsOf, segments_append, List.filter_append, List.map_append, hname, partsOf]

end IsName

/-- A slash at the end adds no part. -/
theorem partsOf_slash (cs : List Char) : partsOf (cs ++ ['/']) = partsOf cs := by
  rw [partsOf, segments_append, List.filter_append, partsOf]
  simp [segments]

theorem ofString_eq {s : String} (hs : s ≠ "") : ofString s =
    { absolute := decide (s.toList.head? = some '/'), parts := partsOf s.toList,
      toDirectory := (segments s.toList).getLast?.any fun p => p = [] || p = ['.'] } := by
  simp [ofString, hs, partsOf]

/-- What the path of a text and of the names joined to it starts with. The empty text stands for the directory that
relative paths start from. -/
def start (base : String) : Path :=
  if base = "" then { absolute := false, parts := [] } else { ofString base with toDirectory := false }

@[simp] theorem toDirectory_start (base : String) : (start base).toDirectory = false := by
  rw [start]
  split <;> rfl

theorem start_ne_empty (base : String) : start base ≠ ofString "" := by
  have hempty : (ofString "").parts = [""] := rfl
  intro he
  have hparts : (start base).parts = [""] := by rw [he, hempty]
  rw [start] at hparts
  split at hparts
  · cases hparts
  · next hbase =>
    rw [ofString_eq hbase] at hparts
    have hmem : "" ∈ partsOf base.toList := by
      rw [show partsOf base.toList = [""] from hparts]
      exact List.mem_singleton.2 rfl
    obtain ⟨cs, hcs, hname⟩ := List.mem_map.1 hmem
    have hnil : cs = [] := by
      have := congrArg String.toList hname
      rwa [String.toList_ofList] at this
    subst hnil
    simp at hcs

/-- A name stands for itself, as seen from where relative paths start. -/
theorem IsName.ofString_eq {name : String} (h : IsName name) :
    ofString name = { absolute := false, parts := [name] } := by
  have hrelative : name.toList.head? ≠ some '/' := fun he => h.no_slash (List.mem_of_mem_head? he)
  rw [Path.ofString_eq h.ne_empty, h.partsOf_eq, segments_of_not_mem h.no_slash]
  simp [hrelative, h.toList_ne_nil, h.toList_ne_dot]

/-- A name behind a slash is the last part. -/
theorem IsName.ofString_eq_of_slash {name : String} (h : IsName name) (cs : List Char) {s : String}
    (hs : s.toList = cs ++ '/' :: name.toList) : ofString s =
      { absolute := decide ((cs ++ ['/']).head? = some '/'), parts := partsOf cs ++ [name] } := by
  have hne : s ≠ "" := by
    rintro rfl
    exact absurd hs (by simp)
  rw [Path.ofString_eq hne, hs, h.partsOf_append, segments_append, segments_of_not_mem h.no_slash]
  simp [List.head?_append, h.toList_ne_nil, h.toList_ne_dot]

/-- Joining a name adds it as a part. -/
theorem ofString_join {name : String} (h : IsName name) (base : String) :
    ofString (join base name) = (start base).child name := by
  have hrelative : name.toList.head? ≠ some '/' := fun he => h.no_slash (List.mem_of_mem_head? he)
  rw [join, if_neg hrelative, start]
  by_cases hbase : base = ""
  · rw [if_pos hbase, if_pos hbase, h.ofString_eq]
    rfl
  · rw [if_neg hbase, if_neg hbase, ofString_eq hbase, child]
    have hchars : base.toList ≠ [] := fun he => hbase (String.toList_eq_nil_iff.1 he)
    split
    · next hlast =>
      obtain ⟨cs, hcs⟩ := List.getLast?_eq_some_iff.1 hlast
      rw [h.ofString_eq_of_slash cs (by rw [String.toList_append, hcs, List.append_assoc]; rfl), hcs,
        partsOf_slash]
    · rw [h.ofString_eq_of_slash base.toList (by simp)]
      obtain ⟨c, cs, hcs⟩ := List.exists_cons_of_ne_nil hchars
      rw [hcs]
      rfl

/-! ## Names of files -/

/-- The text behind the last point is what follows the id. -/
theorem splitExtension_json {id : String} (hid : id ≠ "") :
    splitExtension (id ++ "." ++ "json") = (id, some "json") := by
  have hchars : id.toList.reverse ≠ [] := by
    rw [ne_eq, List.reverse_eq_nil_iff, String.toList_eq_nil_iff]
    exact hid
  obtain ⟨c, cs, hcs⟩ := List.exists_cons_of_ne_nil hchars
  have hrev : (id ++ "." ++ "json").toList.reverse = ['n', 'o', 's', 'j', '.'] ++ id.toList.reverse := by
    simp [String.toList_append]
  have hback : String.ofList (c :: cs).reverse = id := by
    rw [← hcs, List.reverse_reverse, String.ofList_toList]
  have htake : (['n', 'o', 's', 'j', '.'] ++ c :: cs).takeWhile (· ≠ '.') = ['n', 'o', 's', 'j'] := by simp
  have hdrop : (['n', 'o', 's', 'j', '.'] ++ c :: cs).dropWhile (· ≠ '.') = '.' :: c :: cs := by simp
  rw [splitExtension, hrev, hcs]
  simp only [htake, hdrop, hback]
  rfl

/-- A name that has an extension is the stem, a point and the extension. -/
theorem eq_of_splitExtension {name id ext : String} (h : splitExtension name = (id, some ext)) :
    id ≠ "" ∧ name = id ++ "." ++ ext := by
  have hsplit := (List.takeWhile_append_dropWhile (p := (· ≠ '.')) (l := name.toList.reverse)).symm
  rw [splitExtension] at h
  split at h
  · next c r hdrop =>
    rw [hdrop] at hsplit
    obtain ⟨hid, hext⟩ := Prod.mk.inj h
    subst hid
    obtain rfl := Option.some.inj hext
    constructor
    · intro he
      have := congrArg String.toList he
      simp at this
    · have hchars := congrArg List.reverse hsplit
      rw [List.reverse_reverse] at hchars
      exact String.toList_injective (hchars.trans (by simp [String.toList_append]))
  · cases h

end Path

namespace FileStore

theorem isName_directory (kind : ObjectKind) : Path.IsName kind.directory := by
  cases kind <;> exact ⟨by decide, by decide, by decide⟩

theorem isName_file {id : String} (hslash : '/' ∉ id.toList) : Path.IsName (id ++ "." ++ extension) where
  ne_empty he := by
    have := congrArg String.toList he
    simp [extension] at this
  ne_dot he := by
    have := congrArg (fun s => s.toList.length) he
    simp [extension] at this
  no_slash := by simpa [String.toList_append, extension] using hslash

/-- A text that ends in the extension writes a path that ends in a file name. -/
theorem exists_ofString_eq (a : String) : ∃ p base, p.toDirectory = false ∧
    Path.ofString (a ++ "." ++ extension) = Path.child p (base ++ "." ++ extension) := by
  by_cases hslash : '/' ∈ a.toList
  · obtain ⟨ds, cs, ha, hds⟩ := List.eq_append_cons_of_mem (List.mem_reverse.2 hslash)
    have hchars : a.toList = cs.reverse ++ '/' :: ds.reverse := by
      rw [← List.reverse_reverse a.toList, ha]
      simp
    have hname : Path.IsName (String.ofList ds.reverse ++ "." ++ extension) :=
      isName_file (by rw [String.toList_ofList, List.mem_reverse]; exact hds)
    refine ⟨{ absolute := _, parts := Path.partsOf cs.reverse }, String.ofList ds.reverse, rfl,
      hname.ofString_eq_of_slash cs.reverse ?_⟩
    simp [String.toList_append, hchars]
  · exact ⟨{ absolute := false, parts := [] }, a, rfl, (isName_file hslash).ofString_eq⟩

/-- Whatever the id, the path of its file ends in a file name. -/
theorem exists_file_eq (s : FileStore) (kind : ObjectKind) (id : String) : ∃ p base, p.toDirectory = false ∧
    s.file kind id = Path.child p (base ++ "." ++ extension) := by
  have hjoin : ∃ a, Path.join (s.directory kind) (id ++ "." ++ extension) = a ++ "." ++ extension := by
    rw [Path.join]
    split
    · exact ⟨id, rfl⟩
    · split
      · exact ⟨id, rfl⟩
      · split
        · exact ⟨s.directory kind ++ id, by simp only [String.append_assoc]⟩
        · exact ⟨s.directory kind ++ "/" ++ id, by simp only [String.append_assoc]⟩
  obtain ⟨a, ha⟩ := hjoin
  rw [file, ha]
  exact exists_ofString_eq a

theorem toDirectory_file (s : FileStore) (kind : ObjectKind) (id : String) :
    (s.file kind id).toDirectory = false := by
  obtain ⟨p, base, -, hfile⟩ := s.exists_file_eq kind id
  rw [hfile]
  rfl

theorem ofString_directory (s : FileStore) (kind : ObjectKind) :
    Path.ofString (s.directory kind) = (Path.start s.root).child kind.directory :=
  Path.ofString_join (isName_directory kind) s.root

theorem file_eq (s : FileStore) (kind : ObjectKind) {id : String} (hslash : '/' ∉ id.toList) :
    s.file kind id = ((Path.start s.root).child kind.directory).child (id ++ "." ++ extension) := by
  have hdirectory := s.ofString_directory kind
  have hne : s.directory kind ≠ "" := fun he => by
    rw [he] at hdirectory
    have hparts : [] ++ [""] = (Path.start s.root).parts ++ [kind.directory] := congrArg Path.parts hdirectory
    exact (isName_directory kind).ne_empty (List.cons.inj (List.append_inj' hparts rfl).2).1.symm
  rw [file, Path.ofString_join (isName_file hslash), Path.start, if_neg hne, hdirectory]
  rfl

end FileStore

end ManagementPlane
