/-!
# Kinds of managed objects

`ObjectKind` lists the six kinds of objects that are persisted and rebuilt, with the name shown to
people, the name of the directory that holds the objects of a kind, and a code for programs.
-/

namespace ManagementPlane

/-- The kinds of objects that take part in persistence and rebind. -/
inductive ObjectKind where
  | entity
  | location
  | policy
  | enricher
  | feed
  | catalogItem
  deriving DecidableEq, Repr, Inhabited

namespace ObjectKind

/-- Every kind, in the order in which a store is read. -/
def all : List ObjectKind := [.entity, .location, .policy, .enricher, .feed, .catalogItem]

/-- The kinds attached to entities, in the order in which they are created. -/
def adjuncts : List ObjectKind := [.policy, .enricher, .feed]

def label : ObjectKind → String
  | entity => "entity"
  | location => "location"
  | policy => "policy"
  | enricher => "enricher"
  | feed => "feed"
  | catalogItem => "catalog item"

/-- The directory a file store keeps objects of this kind in. -/
def directory : ObjectKind → String
  | entity => "entities"
  | location => "locations"
  | policy => "policies"
  | enricher => "enrichers"
  | feed => "feeds"
  | catalogItem => "catalog"

def code : ObjectKind → String
  | catalogItem => "catalog_item"
  | k => k.label

def ofCode? (s : String) : Option ObjectKind := all.find? fun k => k.code = s

/-- Whether objects of this kind are attached to entities. -/
def isAdjunct : ObjectKind → Bool
  | policy | enricher | feed => true
  | _ => false

theorem mem_all (k : ObjectKind) : k ∈ all := by cases k <;> decide

theorem mem_adjuncts_iff (k : ObjectKind) : k ∈ adjuncts ↔ k.isAdjunct = true := by
  cases k <;> decide

theorem directory_inj {j k : ObjectKind} (h : j.directory = k.directory) : j = k := by
  cases j <;> cases k <;> first | rfl | (revert h; decide)

end ObjectKind

end ManagementPlane
