import ManagementPlane.Text.LowerCase

/-!
# Modes of a node and of a pass

* `ManagementMode` : what a node is when it rebinds;
* `CatalogLoadMode` : where a pass takes the catalog from;
* `FailureMode` : what the default handler does about problems.
-/

namespace ManagementPlane

/-- What a node is when it rebinds. A hot node holds everything read-only. -/
inductive ManagementMode where
  | master
  | hotStandby
  | hotBackup
  deriving DecidableEq, Repr, Inhabited

namespace ManagementMode

def label : ManagementMode → String
  | master => "master"
  | hotStandby => "hot-standby"
  | hotBackup => "hot-backup"

def all : List ManagementMode := [master, hotStandby, hotBackup]

/-- Whether the node follows a master without owning its objects. -/
def isHotProxy : ManagementMode → Bool
  | master => false
  | _ => true

/-- Whether a pass in this mode makes its objects read-only. -/
def isReadOnly (m : ManagementMode) : Bool := m.isHotProxy

/-- Whether the node may write to the store once a pass has succeeded. -/
def mayWriteStore : ManagementMode → Bool
  | master => true
  | _ => false

def ofLabel? (s : String) : Option ManagementMode := all.find? fun m => m.label = s

/-- A text in lower case with hyphens for underscores. -/
def normalized (s : String) : String :=
  String.ofList ((Text.lowerCase s).toList.map fun c => if c = '_' then '-' else c)

/-- The mode a person means: case does not matter, and underscores may stand for hyphens. -/
def parse (s : String) : Except String ManagementMode :=
  match ofLabel? (normalized s) with
  | some m => .ok m
  | none => .error ("unknown management mode: " ++ normalized s)

end ManagementMode

/-- Where a pass takes the catalog from. -/
inductive CatalogLoadMode where
  | persistedState
  | defaultCatalog
  | defaultCatalogIfNoPersistedState
  deriving DecidableEq, Repr, Inhabited

namespace CatalogLoadMode

def label : CatalogLoadMode → String
  | persistedState => "load-persisted-state"
  | defaultCatalog => "load-default-catalog"
  | defaultCatalogIfNoPersistedState => "load-default-catalog-if-no-persisted-state"

def all : List CatalogLoadMode :=
  [persistedState, defaultCatalog, defaultCatalogIfNoPersistedState]

def ofLabel? (s : String) : Option CatalogLoadMode := all.find? fun m => m.label = s

/-- Whether the catalog becomes the persisted items. -/
def resetsToPersisted (m : CatalogLoadMode) (storeIsEmpty : Bool) : Bool :=
  match m with
  | persistedState => true
  | defaultCatalogIfNoPersistedState => !storeIsEmpty
  | defaultCatalog => false

/-- Whether the catalog becomes the contents of the default source. -/
def loadsDefault (m : CatalogLoadMode) (storeIsEmpty : Bool) : Bool :=
  match m with
  | defaultCatalog => true
  | defaultCatalogIfNoPersistedState => storeIsEmpty
  | persistedState => false

theorem loadsDefault_eq_not (m : CatalogLoadMode) (storeIsEmpty : Bool) :
    m.loadsDefault storeIsEmpty = !m.resetsToPersisted storeIsEmpty := by
  cases m <;> cases storeIsEmpty <;> rfl

end CatalogLoadMode

/-- What the default handler does about a problem: stop at once, fail when the pass is over, or go on. -/
inductive FailureMode where
  | failFast
  | failAtEnd
  | carryOn
  deriving DecidableEq, Repr, Inhabited

namespace FailureMode

def label : FailureMode → String
  | failFast => "fail-fast"
  | failAtEnd => "fail-at-end"
  | carryOn => "continue"

def all : List FailureMode := [failFast, failAtEnd, carryOn]

def ofLabel? (s : String) : Option FailureMode := all.find? fun m => m.label = s

end FailureMode

end ManagementPlane
