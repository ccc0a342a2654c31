import ManagementPlane.Data.OrderedMap
import ManagementPlane.Data.SortedMap
import ManagementPlane.Text.Bytes

/-!
# Directory trees

`FileTree` is the part of a file system that a program sees: directories, regular files and whatever
else there is under their absolute locations, and the directory relative paths start from.

* `Path`, `FileTree.locate` : paths as they are written, and the location one leads to. Every part
  but the last must lead into a directory, `..` leads out of it again, and overlong or impossible
  names are refused;
* `bytes`, `read`, `write`, `remove`, `makeDirectory`, `makeDirectories` : the operations;
* `store`, `substitute`, `putRaw` : writing into directories made for it, changing a file, and files
  whose names are no texts;
* `filesIn`, `below` : the regular files directly in a directory, and all that is below one.
-/

namespace ManagementPlane

/-- The name of an entry in a directory: a text, or bytes that are none. -/
inductive FileName where
  | text (s : String)
  | raw (bytes : List UInt8)
  deriving DecidableEq, Repr

def FileName.shown : FileName → String
  | text s => s
  | raw bytes => String.ofList (bytes.map fun b => if b < 128 then Char.ofNat b.toNat else '\uFFFD')

/-- Why an operation on files fails. -/
inductive FileError where
  | notFound
  | alreadyExists
  | notDirectory
  | isDirectory
  | nameTooLong
  | impossibleName
  | accessDenied
  | notRegular
  | notText
  deriving DecidableEq, Repr

def FileError.message : FileError → String
  | notFound => "no such file or directory"
  | alreadyExists => "file exists"
  | notDirectory => "not a directory"
  | isDirectory => "is a directory"
  | nameTooLong => "file name too long"
  | impossibleName => "file name contains a NUL"
  | accessDenied => "permission denied"
  | notRegular => "not a regular file"
  | notText => "stream did not contain valid UTF-8"

/-- What a regular file holds: bytes, or nothing that can be had, because it may be neither read nor
changed. -/
inductive FileContents where
  | bytes (bs : List UInt8)
  | refused (e : FileError)
  deriving DecidableEq, Repr

def FileContents.ofText (s : String) : FileContents := .bytes (Text.bytesOf s)

def FileContents.get : FileContents → Except FileError (List UInt8)
  | bytes bs => .ok bs
  | refused e => .error e

/-- What a location holds. Neither a file nor a directory is, for instance, a socket, or a link that no
path leads through: it can be removed only. A link to a directory that paths do lead through stands as
that directory. -/
inductive FileEntry where
  | file (contents : FileContents)
  | directory
  | other
  deriving DecidableEq, Repr

abbrev Location := List FileName

/-! ## Paths -/

/-- A path as it is written, without its empty parts and those that stay in place. If one of these
comes last, the path is meant to lead to a directory. -/
structure Path where
  absolute : Bool
  parts : List String
  toDirectory : Bool := false
  deriving DecidableEq, Repr

namespace Path

def segments : List Char → List (List Char)
  | [] => [[]]
  | c :: r =>
    if c = '/' then [] :: segments r
    else match segments r with
      | [] => [[c]]
      | s :: rest => (c :: s) :: rest

/-- The path that a text writes. The empty text leads nowhere: its only part is an empty name. -/
def ofString (s : String) : Path where
  absolute := s.toList.head? = some '/'
  parts :=
    if s = "" then [""]
    else ((segments s.toList).filter fun p => p ≠ [] && p ≠ ['.']).map String.ofList
  toDirectory := s ≠ "" && ((segments s.toList).getLast?.any fun p => p = [] || p = ['.'])

/-- The path of `s` as seen from `base`; an absolute path stands for itself. -/
def join (base s : String) : String :=
  if s.toList.head? = some '/' then s
  else if base = "" then s
  else if base.toList.getLast? = some '/' then base ++ s
  else base ++ "/" ++ s

def parent (p : Path) : Path := { p with parts := p.parts.dropLast, toDirectory := false }

/-- Whether a path can be given to the file system. -/
def check (p : Path) : Except FileError Unit :=
  if p.parts.any fun s => s.toList.contains '\x00' then .error .impossibleName
  else if 4096 ≤ p.parts.foldl (fun n s => n + s.utf8ByteSize + 1) 0 then .error .nameTooLong
  else .ok ()

/-- The last part of a path, split at its last point: the stem and what follows the point. A point at
the start does not count. -/
def splitExtension (name : String) : String × Option String :=
  let cs := name.toList.reverse
  let extension := cs.takeWhile (· ≠ '.')
  match cs.dropWhile (· ≠ '.') with
  | '.' :: c :: r => (String.ofList (c :: r).reverse, some (String.ofList extension.reverse))
  | _ => (name, none)

end Path

/-! ## Trees -/

/-- Directories and files by location, and the directory that relative paths start from. The root
is always a directory. -/
structure FileTree where
  entries : OrderedMap Location FileEntry := ∅
  workingDirectory : Location := []

namespace FileTree

def node? (t : FileTree) (l : Location) : Option FileEntry :=
  if l = [] then some .directory else t.entries.get? l

def follow (t : FileTree) (l : Location) : List String → Except FileError Location
  | [] => .ok l
  | p :: r =>
    match t.node? l with
    | none => .error .notFound
    | some .directory =>
      if p = "" then .error .notFound
      else if p = ".." then t.follow l.dropLast r
      else if 255 < p.utf8ByteSize then .error .nameTooLong
      else t.follow (l ++ [.text p]) r
    | some _ => .error .notDirectory

/-- The location a path leads to; nothing needs to be there yet. -/
def locate (t : FileTree) (p : Path) : Except FileError Location := do
  p.check
  let l ← t.follow (if p.absolute then [] else t.workingDirectory) p.parts
  match t.node? l with
  | none | some .directory => .ok l
  | some _ => if p.toDirectory then .error .notDirectory else .ok l

def lookup? (t : FileTree) (p : Path) : Option FileEntry :=
  match t.locate p with
  | .ok l => t.node? l
  | .error _ => none

def isDirectory (t : FileTree) (p : Path) : Bool := t.lookup? p = some .directory

def isPresent (t : FileTree) (p : Path) : Bool := (t.lookup? p).isSome

def bytes (t : FileTree) (p : Path) : Except FileError (List UInt8) := do
  let l ← t.locate p
  match t.node? l with
  | none => .error .notFound
  | some .directory => .error .isDirectory
  | some .other => .error .notRegular
  | some (.file contents) => contents.get

/-- The text of a file. -/
def read (t : FileTree) (p : Path) : Except FileError String := do
  match Text.ofBytes? (← t.bytes p) with
  | some text => .ok text
  | none => .error .notText

def put (t : FileTree) (l : Location) (e : FileEntry) : FileTree :=
  { t with entries := t.entries.insert l e }

/-- Why no file can be written where an entry is. -/
def obstacle? : Option FileEntry → Option FileError
  | some .directory => some .isDirectory
  | some .other => some .notRegular
  | some (.file (.refused e)) => some e
  | _ => none

def write (t : FileTree) (p : Path) (contents : FileContents) : Except FileError FileTree := do
  let l ← t.locate p
  match obstacle? (t.node? l) with
  | some e => .error e
  | none => if p.toDirectory then .error .isDirectory else .ok (t.put l (.file contents))

def remove (t : FileTree) (p : Path) : Except FileError FileTree := do
  let l ← t.locate p
  match t.node? l with
  | none => .error .notFound
  | some .directory => .error .isDirectory
  | some (.file (.refused e)) => .error e
  | some _ => .ok { t with entries := t.entries.erase l }

/-- Create a directory in a directory that exists. -/
def makeDirectory (t : FileTree) (p : Path) : Except FileError FileTree := do
  let l ← t.locate p
  match t.node? l with
  | none => .ok (t.put l .directory)
  | some _ => .error .alreadyExists

/-- Create a directory and those above it that are missing, `above` of them at most. What was
created before a failure stays. -/
def makeDirectoriesFrom (t : FileTree) (p : Path) : (above : Nat) → Except FileError Unit × FileTree
  | 0 => (.ok (), t)
  | n + 1 =>
    match t.makeDirectory p with
    | .ok t => (.ok (), t)
    | .error .notFound =>
      match t.makeDirectoriesFrom p.parent n with
      | (.error e, t) => (.error e, t)
      | (.ok (), t) =>
        match t.makeDirectory p with
        | .ok t => (.ok (), t)
        | .error e => (if t.isDirectory p then .ok () else .error e, t)
    | .error e => (if t.isDirectory p then .ok () else .error e, t)

/-- Create a directory and those above it that are missing; the empty path asks for none. -/
def makeDirectories (t : FileTree) (p : Path) : Except FileError Unit × FileTree :=
  if p = .ofString "" then (.ok (), t) else t.makeDirectoriesFrom p p.parts.length

/-- Create or replace a file; the directories it needs are created first. What cannot be written is
left out. -/
def storeContents (t : FileTree) (path : String) (contents : FileContents) : FileTree :=
  let p := Path.ofString path
  let t := (t.makeDirectories p.parent).2
  match t.write p contents with
  | .ok t => t
  | .error _ => t

def store (t : FileTree) (path text : String) : FileTree := t.storeContents path (.ofText text)

/-- Open a file that is to be added to, which is created if it is missing. -/
def openToAppend (t : FileTree) (p : Path) : Except FileError FileTree :=
  match t.bytes p with
  | .error .notFound => t.write p (.bytes [])
  | .error e => .error e
  | .ok _ => .ok t

/-- Replace every occurrence of a text in a file; says whether there was one. -/
def substitute (t : FileTree) (path find replace : String) : Bool × FileTree :=
  match t.read (.ofString path) with
  | .error _ => (false, t)
  | .ok text =>
    let changed := if find.isEmpty then text else replace.intercalate (text.splitOn find)
    (changed != text, t.store path changed)

/-- Put a file whose name is no text into a directory; says whether the directory exists. -/
def putRaw (t : FileTree) (directory : Path) (name : List UInt8) (text : String) : Bool × FileTree :=
  match t.locate directory with
  | .error _ => (false, t)
  | .ok l =>
    if t.node? l = some .directory then (true, t.put (l ++ [.raw name]) (.file (.ofText text)))
    else (false, t)

/-- The tree that holds nothing but a working directory. -/
def rootedAt (path : String) : FileTree :=
  let p := Path.ofString path
  { (({} : FileTree).makeDirectories p).2 with workingDirectory := p.parts.map .text }

/-- The files of a tree that another one lacks or has with other contents, each with the directory that
it is in. -/
def filesBeyond (before t : FileTree) : List (String × String × List UInt8) :=
  let path (l : Location) : String := "/" ++ "/".intercalate (l.map FileName.shown)
  t.entries.entries.filterMap fun (l, e) =>
    match e with
    | .file (.bytes bs) =>
      if before.node? l = some e then none else some (path l.dropLast, path l, bs)
    | _ => none

/-- The regular files directly in a directory whose names are texts, by name. -/
def filesIn (t : FileTree) (l : Location) : SortedMap FileContents :=
  .ofList <| t.entries.entries.filterMap fun e =>
    match e.1.getLast?, e.2 with
    | some (.text name), .file contents => if e.1.dropLast = l then some (name, contents) else none
    | _, _ => none

/-- The paths of everything below a location, as seen from there, in order. The paths of directories
end in a slash, and bytes that are no characters are shown as replacement characters. -/
def below (t : FileTree) (l : Location) : List String :=
  let paths := t.entries.entries.filterMap fun (l', e) =>
    if l.isPrefixOf l' && l ≠ l' then
      let path := "/".intercalate ((l'.drop l.length).map FileName.shown)
      some (if e = .directory then path ++ "/" else path)
    else none
  paths.mergeSort fun a b => decide (a ≤ b)

end FileTree

end ManagementPlane
