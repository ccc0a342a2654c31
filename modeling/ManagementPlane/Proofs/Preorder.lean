import ManagementPlane.Proofs.Traversal

/-!
# Depth-first preorder

* `Plane.preorder` : the depth-first preorder of a forest, by recursion. Shared and repeated objects and cycles are
  allowed: what the recursion descends on is not the forest but the objects of a table that are still to be pushed;
* `preorder_append` : a forest behind another one is visited as if all of the first had come up before;
* `visit_eq_preorder` : so objects come off a stack in preorder, the objects below one in front of those that wait;
* `Plane.treeOrder_eq_treePreorder` : in particular those of a tree.
-/

namespace ManagementPlane.Plane

section Preorder
variable {idOf : Handle → String} {table : OrderedMap String (List Handle)} {visited visited' : List String}
  {h : Handle} {forest below : List Handle}

/-- The more ids are done with, the less work is ahead. -/
theorem workAhead_le_of_subset {entries : List (String × List Handle)} (hsub : visited ⊆ visited') :
    workAhead entries visited' ≤ workAhead entries visited := by
  induction entries with
  | nil => exact Nat.le_refl 0
  | cons e r ih =>
    unfold workAhead
    refine Nat.add_le_add ?_ ih
    split
    · exact Nat.zero_le _
    · next hout => exact Nat.le_of_eq (if_neg fun hin => hout (hsub hin)).symm

/-- What is below a new object was part of the work ahead. -/
theorem length_childrenIn_add_workAhead (table : OrderedMap String (List Handle)) {id : String}
    (hnew : id ∉ visited) :
    (childrenIn table id).length + workAhead table.entries (id :: visited) = workAhead table.entries visited :=
  (workAhead_cons table.nodup hnew).symm

/-- Depth-first preorder by recursion: an object, all that is below it, then the objects after it. Ids in `visited`, and
those that have come up by then, are passed over. -/
def preorder (idOf : Handle → String) (table : OrderedMap String (List Handle)) (visited : List String) :
    List Handle → List Handle
  | [] => []
  | h :: forest =>
    if idOf h ∈ visited then preorder idOf table visited forest
    else
      let below := preorder idOf table (idOf h :: visited) (childrenIn table (idOf h))
      h :: (below ++ preorder idOf table (below.map idOf ++ idOf h :: visited) forest)
termination_by forest => forest.length + workAhead table.entries visited
decreasing_by
  · exact Nat.add_lt_add_right (Nat.lt_succ_self _) _
  · next hnew =>
    rw [length_childrenIn_add_workAhead table hnew]
    exact Nat.lt_add_of_pos_left (Nat.zero_lt_succ _)
  · refine Nat.add_lt_add_of_lt_of_le (Nat.lt_succ_self _) (workAhead_le_of_subset fun id hid => ?_)
    exact List.mem_append_right _ (List.mem_cons_of_mem _ hid)

@[simp] theorem preorder_nil : preorder idOf table visited [] = [] := by rw [preorder]

theorem preorder_of_mem (hseen : idOf h ∈ visited) :
    preorder idOf table visited (h :: forest) = preorder idOf table visited forest := by
  rw [preorder, if_pos hseen]

theorem preorder_of_not_mem (hnew : idOf h ∉ visited)
    (hbelow : preorder idOf table (idOf h :: visited) (childrenIn table (idOf h)) = below) :
    preorder idOf table visited (h :: forest) =
      h :: (below ++ preorder idOf table (below.map idOf ++ idOf h :: visited) forest) := by
  rw [preorder, if_neg hnew, hbelow]

/-- Only which ids are done with matters. -/
theorem preorder_congr (hsame : ∀ id, id ∈ visited ↔ id ∈ visited') (forest : List Handle) :
    preorder idOf table visited forest = preorder idOf table visited' forest := by
  fun_induction preorder idOf table visited forest generalizing visited'
  case case1 => rw [preorder_nil]
  case case2 h forest hseen ih => rw [preorder_of_mem ((hsame _).1 hseen), ih hsame]
  case case3 visited h forest hnew below ihbelow ihrest =>
    have hcons : ∀ id, id ∈ idOf h :: visited ↔ id ∈ idOf h :: visited' := fun id => by
      rw [List.mem_cons, List.mem_cons, hsame]
    have hrest : ∀ id, id ∈ below.map idOf ++ idOf h :: visited ↔ id ∈ below.map idOf ++ idOf h :: visited' :=
      fun id => by rw [List.mem_append, List.mem_append, hcons]
    rw [preorder_of_not_mem (fun hseen => hnew ((hsame _).2 hseen)) (ihbelow hcons).symm, ihrest hrest]

/-- A forest behind another one: by then the ids of the first have come up. -/
theorem preorder_append (visited : List String) (forest later : List Handle) :
    preorder idOf table visited (forest ++ later) = preorder idOf table visited forest ++
      preorder idOf table ((preorder idOf table visited forest).map idOf ++ visited) later := by
  fun_induction preorder idOf table visited forest
  case case1 => rfl
  case case2 h forest hseen ih => rw [List.cons_append, preorder_of_mem hseen, ih]
  case case3 visited h forest hnew below ihbelow ihrest =>
    rw [List.cons_append, preorder_of_not_mem hnew rfl, ihrest, List.cons_append, List.append_assoc]
    -- both sides are done with the same ids, listed in another order
    refine congrArg (fun l => h :: (below ++ (_ ++ l))) (preorder_congr (fun id => ?_) later)
    simp only [List.map_cons, List.map_append, List.mem_append, List.mem_cons]
    tauto

/-- With steps for all the work ahead, objects come off the stack in preorder. -/
theorem visit_eq_preorder {n : Nat} {stack : List Handle}
    (hn : stack.length + workAhead table.entries visited ≤ n) :
    visit idOf (childrenIn table) n visited stack = preorder idOf table visited stack := by
  induction n generalizing visited stack with
  | zero =>
    obtain rfl : stack = [] := List.eq_nil_of_length_eq_zero (by omega)
    rw [preorder_nil, visit]
  | succ n ih =>
    cases stack with
    | nil => rw [preorder_nil]; rfl
    | cons h stack =>
      rw [List.length_cons] at hn
      by_cases hseen : idOf h ∈ visited
      · rw [visit, if_pos hseen, preorder_of_mem hseen, ih (by omega)]
      · have hwork := length_childrenIn_add_workAhead table hseen
        rw [visit, if_neg hseen, preorder_of_not_mem hseen rfl, ih (by rw [List.length_append]; omega),
          preorder_append]

end Preorder

/-- The tree of a root in preorder. -/
def treePreorder (p : Plane) (table : OrderedMap String (List Handle)) (root : Handle) : List Handle :=
  preorder (fun h => (p.read h).id) table [] [root]

/-- The steps that a tree is given are enough, and it comes up in preorder. -/
theorem treeOrder_eq_treePreorder (p : Plane) (table : OrderedMap String (List Handle)) (root : Handle) :
    p.treeOrder table root = p.treePreorder table root :=
  visit_eq_preorder (by simp [workAhead_nil, OrderedMap.values])

end ManagementPlane.Plane
