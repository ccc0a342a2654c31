import ManagementPlane.Memento.Encoding
import ManagementPlane.Store.File
import ManagementPlane.Store.Memory

/-!
# Stores of either kind

* `Persistable` : what can be put into a store. In memory it is kept as it is written, on disk with the
  fields of every object in order;
* `Store` : a store in memory or on disk, with the operations that both have. The tree of files is only
  touched by stores on disk.
-/

namespace ManagementPlane

open Json (Value)

/-- What can be put into a store. -/
inductive Persistable where
  | memento (m : Memento)
  | item (i : CatalogItem)
  | value (v : Value)
  deriving DecidableEq

namespace Persistable

def toValue : Persistable → Value
  | memento m => m.toValue
  | item i => i.toValue
  | value v => v

def text (x : Persistable) : String := x.toValue.compact

end Persistable

/-- A store in memory or on disk. -/
inductive Store where
  | memory (s : MemoryStore)
  | file (s : FileStore)

namespace Store

def writable : Store → Bool
  | memory s => s.writable
  | file s => s.writable

def setWritable (writable : Bool) : Store → Store
  | memory s => memory { s with writable }
  | file s => file { s with writable }

def source (files : FileTree) : Store → Source
  | memory s => s.source
  | file s => s.source files

def persist (now : String) (files : FileTree) (kind : ObjectKind) (id : String) (x : Persistable) :
    Store → Except StoreError Unit × Store × FileTree
  | memory s =>
    match s.persist kind id x.text with
    | .ok s => (.ok (), memory s, files)
    | .error e => (.error e, memory s, files)
  | file s =>
    let (r, files) := s.persist now kind id x.toValue files
    (r, file s, files)

def delete (files : FileTree) (kind : ObjectKind) (id : String) :
    Store → Except StoreError Bool × Store × FileTree
  | memory s =>
    match s.delete kind id with
    | .ok (removed, s) => (.ok removed, memory s, files)
    | .error e => (.error e, memory s, files)
  | file s =>
    let (r, files) := s.delete kind id files
    (r, file s, files)

end Store

end ManagementPlane
