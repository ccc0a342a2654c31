import ManagementPlane.Plane.Catalog
import ManagementPlane.Proofs.Tables

/-!
# Which item of a name is the latest

Where no version is asked for, the catalog is to give the item of the name that was registered last. It gives the one
that is last in its table. An item registered again takes the place of the one with its id, so the two may differ.

* `Catalog.Call`, `Catalog.run` : histories of registrations and resets;
* `Catalog.registrations`, `Catalog.items_run` : what was registered since the last reset, and the table it makes;
* `Catalog.values_run_pairwise` : items are in the order in which their ids were first registered;
* `Catalog.lastRegistered?`, `Catalog.FindsLastRegistered` : the item that was registered last, and that it is found;
* `Catalog.findsLastRegistered_iff` : it is found exactly if no other item of the name has an id that came up later.
-/

namespace ManagementPlane.Catalog

/-- What is done to a catalog. -/
inductive Call where
  | register (item : Handle)
  | reset (items : List Handle)

variable (heap : Heap)

def serve (c : Catalog) : Call → Catalog
  | .register item => c.register heap item
  | .reset items => ofItems heap items

/-- The catalog that a history of calls leaves. -/
def run (calls : List Call) : Catalog := calls.foldl (serve heap) {}

/-- What has been registered since the last reset, the items of the reset first. -/
def Call.extend (items : List Handle) : Call → List Handle
  | register item => items ++ [item]
  | reset items => items

def registrations (calls : List Call) : List Handle := calls.foldl Call.extend []

/-- An item with its id. -/
def entry (item : Handle) : String × Handle := ((heap.read item).id, item)

/-- The item was registered under its id, and the id has not been given to another since. -/
def Holds (c : Catalog) (item : Handle) : Prop := c.get? (heap.read item).id = some item

instance (c : Catalog) (item : Handle) : Decidable (c.Holds heap item) := inferInstanceAs (Decidable (_ = _))

/-- The item of a name that was registered last, of those that the catalog still holds. -/
def lastRegistered? (calls : List Call) (name : String) : Option Handle :=
  (registrations calls).reverse.find? fun item =>
    (run heap calls).Holds heap item ∧ (heap.read item).item.symbolicName = name

/-- Without an item of the default version, a lookup at that version finds the item of the name that was registered
last, and nothing if there is none. -/
def FindsLastRegistered (calls : List Call) (name : String) : Prop :=
  (run heap calls).get? (CatalogItem.canonicalId name defaultVersion) = none →
    (run heap calls).versioned? heap name defaultVersion = lastRegistered? heap calls name

instance (calls : List Call) (name : String) : Decidable (FindsLastRegistered heap calls name) :=
  inferInstanceAs (Decidable (_ → _))

/-- The ids under which items have been registered since the last reset. -/
def idsRegistered (calls : List Call) : List String := (registrations calls).map fun item => (heap.read item).id

/-- How many registrations there were before the id of an item first came up. -/
def debut (calls : List Call) (item : Handle) : Nat := (idsRegistered heap calls).idxOf (heap.read item).id

variable {heap} {calls : List Call} {name : String} {item other : Handle}

/-! ## The table that a history makes -/

theorem items_ofItems (items : List Handle) :
    (ofItems heap items).items = OrderedMap.ofList (items.map (entry heap)) := by
  induction items using List.reverseRecOn with
  | nil => rfl
  | append_singleton items item ih =>
    rw [List.map_append, List.map_singleton, OrderedMap.ofList_concat, ← ih, ofItems, List.foldl_append]
    rfl

theorem items_serve {c : Catalog} {items : List Handle} (h : c.items = OrderedMap.ofList (items.map (entry heap)))
    (call : Call) : (serve heap c call).items = OrderedMap.ofList ((call.extend items).map (entry heap)) := by
  cases call with
  | register item =>
    rw [Call.extend, List.map_append, List.map_singleton, OrderedMap.ofList_concat, ← h]
    rfl
  | reset items => exact items_ofItems items

/-- A catalog is the table of what was registered since the last reset. -/
theorem items_run (heap : Heap) (calls : List Call) :
    (run heap calls).items = OrderedMap.ofList ((registrations calls).map (entry heap)) := by
  induction calls using List.reverseRecOn with
  | nil => rfl
  | append_singleton calls call ih =>
    rw [run, registrations, List.foldl_append, List.foldl_append]
    exact items_serve ih call

/-- Whatever the table has was registered, and is there under its own id. -/
theorem registered_of_get?_run {id : String} (h : (run heap calls).get? id = some item) :
    item ∈ registrations calls ∧ (heap.read item).id = id := by
  rw [Catalog.get?, items_run] at h
  obtain ⟨item', hmem, hitem⟩ := List.mem_map.1 (OrderedMap.mem_of_get?_ofList h)
  cases hitem
  exact ⟨hmem, rfl⟩

theorem mem_values_run_iff : item ∈ (run heap calls).items.values ↔ (run heap calls).Holds heap item := by
  rw [OrderedMap.mem_values_iff]
  constructor
  · rintro ⟨id, hid⟩
    rw [Holds, (registered_of_get?_run hid).2]
    exact hid
  · exact fun h => ⟨_, h⟩

theorem ids_values_run (heap : Heap) (calls : List Call) :
    (run heap calls).items.values.map (fun h => (heap.read h).id) = (run heap calls).items.keys := by
  rw [OrderedMap.values, OrderedMap.keys, List.map_map]
  exact List.map_congr_left fun e he => (registered_of_get?_run (OrderedMap.get?_eq_some_iff.2 he)).2

/-- The items are in the order in which their ids came up first; registering an id again does not move it. -/
theorem values_run_pairwise (heap : Heap) (calls : List Call) :
    (run heap calls).items.values.Pairwise fun a b => debut heap calls a < debut heap calls b := by
  have hids : ((registrations calls).map (entry heap)).map Prod.fst = idsRegistered heap calls := by
    rw [List.map_map]
    rfl
  have hkeys : (run heap calls).items.keys.Pairwise fun a b =>
      (idsRegistered heap calls).idxOf a < (idsRegistered heap calls).idxOf b := by
    rw [items_run, ← hids]
    exact OrderedMap.keys_ofList_pairwise _
  rw [← ids_values_run] at hkeys
  exact (List.pairwise_map (R := fun a b => (idsRegistered heap calls).idxOf a < (idsRegistered heap calls).idxOf b)).1
    hkeys

/-! ## The latest item -/

/-- The item found for a name is the one whose id came up last. -/
theorem latest?_run_eq_some_iff : (run heap calls).latest? heap name = some item ↔
    (run heap calls).Holds heap item ∧ (heap.read item).item.symbolicName = name ∧
      ∀ other, (run heap calls).Holds heap other → (heap.read other).item.symbolicName = name →
        debut heap calls other ≤ debut heap calls item := by
  have hsplit : ∀ {found : Handle}, (run heap calls).latest? heap name = some found →
      (run heap calls).Holds heap found ∧ (heap.read found).item.symbolicName = name ∧
        ∀ other, (run heap calls).Holds heap other → (heap.read other).item.symbolicName = name →
          debut heap calls other < debut heap calls found ∨ other = found := by
    intro found h
    obtain ⟨hname, after, before, hvalues, hafter⟩ := List.find?_eq_some_iff_append.1 h
    have hsorted := List.pairwise_reverse.2 (values_run_pairwise heap calls)
    rw [hvalues] at hsorted
    refine ⟨mem_values_run_iff.1 (List.mem_reverse.1 (hvalues ▸ by simp)), of_decide_eq_true hname,
      fun other hother hothername => ?_⟩
    have hmem := List.mem_reverse.2 (mem_values_run_iff.2 hother)
    rw [hvalues, List.mem_append, List.mem_cons] at hmem
    rcases hmem with hmem | rfl | hmem
    · exact absurd hothername (by simpa using hafter other hmem)
    · exact .inr rfl
    · exact .inl (List.rel_of_pairwise_cons (List.pairwise_append.1 hsorted).2.1 hmem)
  constructor
  · intro h
    obtain ⟨hholds, hname, hlast⟩ := hsplit h
    refine ⟨hholds, hname, fun other hother hothername => ?_⟩
    rcases hlast other hother hothername with hlt | rfl
    · exact Nat.le_of_lt hlt
    · exact Nat.le_refl _
  · rintro ⟨hholds, hname, hlast⟩
    obtain ⟨found, hfound⟩ : ∃ found, (run heap calls).latest? heap name = some found := by
      rw [← Option.isSome_iff_exists, latest?, List.find?_isSome]
      exact ⟨item, List.mem_reverse.2 (mem_values_run_iff.2 hholds), decide_eq_true hname⟩
    obtain ⟨hfoundholds, hfoundname, hfoundlast⟩ := hsplit hfound
    rcases hfoundlast item hholds hname with hlt | rfl
    · exact absurd hlt (Nat.not_lt.2 (hlast found hfoundholds hfoundname))
    · exact hfound

theorem latest?_run_eq_none_iff :
    (run heap calls).latest? heap name = none ↔ lastRegistered? heap calls name = none := by
  rw [latest?, lastRegistered?, List.find?_eq_none, List.find?_eq_none]
  simp only [List.mem_reverse, decide_eq_true_eq, mem_values_run_iff, not_and]
  exact ⟨fun h item _ hholds => h item hholds, fun h item hholds => h item (registered_of_get?_run hholds).1 hholds⟩

theorem holds_of_lastRegistered? (h : lastRegistered? heap calls name = some item) :
    (run heap calls).Holds heap item ∧ (heap.read item).item.symbolicName = name := by
  have htest := List.find?_some h
  exact of_decide_eq_true htest

/-- The item of a name that was registered last is found exactly if of the items of the name its id is the one that came
up last. -/
theorem findsLastRegistered_iff (heap : Heap) (calls : List Call) (name : String) :
    FindsLastRegistered heap calls name ↔
      ((run heap calls).get? (CatalogItem.canonicalId name defaultVersion) = none →
        ∀ item other, lastRegistered? heap calls name = some item →
          (run heap calls).Holds heap other → (heap.read other).item.symbolicName = name →
            debut heap calls other ≤ debut heap calls item) := by
  unfold FindsLastRegistered
  refine imp_congr_right fun hnone => ?_
  have hlookup : (run heap calls).versioned? heap name defaultVersion = (run heap calls).latest? heap name := by
    rw [versioned?, hnone]
    exact if_pos rfl
  rw [hlookup]
  constructor
  · intro h item other hitem
    exact (latest?_run_eq_some_iff.1 (h.trans hitem)).2.2 other
  · intro h
    rcases hlast : lastRegistered? heap calls name with _ | item
    · exact latest?_run_eq_none_iff.2 hlast
    · obtain ⟨hholds, hname⟩ := holds_of_lastRegistered? hlast
      exact latest?_run_eq_some_iff.2 ⟨hholds, hname, fun other => h item other hlast⟩

/-- Two versions of an item, and the first of them once more. -/
def versions : Heap :=
  (({} : Heap).alloc (.ofItem (.new "db" "1.0" "t")) |>.alloc (.ofItem (.new "db" "2.0" "t"))).alloc
    (.ofItem (.new "db" "1.0" "t"))

theorem registered_again_is_not_found :
    ¬ FindsLastRegistered versions [.register ⟨0⟩, .register ⟨1⟩, .register ⟨2⟩] "db" := by decide +kernel

end ManagementPlane.Catalog
