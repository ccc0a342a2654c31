import ManagementPlane.Plane.Basic
import Mathlib.Data.List.Nodup
import Mathlib.Logic.Relation

/-!
# The order in which a tree is visited

`Plane.visit` takes objects off a stack and pushes those below them. Whatever the objects below each id
are (shared, repeated or in cycles):

* `visit_nodup` : no id comes up twice;
* `reaches_of_mem_visit` : what comes up is reachable from the stack;
* `visit_origin` : what comes up was on the stack or is right below something that came up before it;
* `visit_exhausts` : with steps for all the work ahead nothing reachable is left out;
* `mem_treeOrder_iff` : `treeOrder` lists exactly what is reachable from the root;
* `visit_map` : where everything corresponds to something else, so does what comes up.
-/

namespace ManagementPlane.Plane

/-- `b` is among the objects right below `a`. -/
def Under (idOf : Handle → String) (children : String → List Handle) (a b : Handle) : Prop :=
  b ∈ children (idOf a)

section Visit
variable {idOf : Handle → String} {children : String → List Handle}

theorem not_mem_of_mem_visit {n : Nat} {visited : List String} {stack : List Handle} {h : Handle}
    (hm : h ∈ visit idOf children n visited stack) : idOf h ∉ visited := by
  induction n generalizing visited stack with
  | zero => simp [visit] at hm
  | succ n ih =>
    cases stack with
    | nil => simp [visit] at hm
    | cons a stack =>
      unfold visit at hm
      split at hm
      · exact ih hm
      · next hv =>
        rcases List.mem_cons.1 hm with rfl | hm
        · exact hv
        · exact fun hh => ih hm (List.mem_cons_of_mem _ hh)

/-- No id comes up twice. -/
theorem visit_nodup (n : Nat) (visited : List String) (stack : List Handle) :
    ((visit idOf children n visited stack).map idOf).Nodup := by
  induction n generalizing visited stack with
  | zero => simp [visit]
  | succ n ih =>
    cases stack with
    | nil => simp [visit]
    | cons a stack =>
      unfold visit
      split
      · exact ih visited stack
      · rw [List.map_cons, List.nodup_cons]
        refine ⟨fun hm => ?_, ih _ _⟩
        obtain ⟨b, hb, hab⟩ := List.mem_map.1 hm
        exact not_mem_of_mem_visit hb (hab ▸ List.mem_cons_self)

/-- What comes up is reachable from the stack. -/
theorem reaches_of_mem_visit {n : Nat} {visited : List String} {stack : List Handle} {h : Handle}
    (hm : h ∈ visit idOf children n visited stack) :
    ∃ r ∈ stack, Relation.ReflTransGen (Under idOf children) r h := by
  induction n generalizing visited stack with
  | zero => simp [visit] at hm
  | succ n ih =>
    cases stack with
    | nil => simp [visit] at hm
    | cons a stack =>
      unfold visit at hm
      split at hm
      · obtain ⟨r, hr, hreach⟩ := ih hm
        exact ⟨r, List.mem_cons_of_mem _ hr, hreach⟩
      · rcases List.mem_cons.1 hm with rfl | hm
        · exact ⟨h, List.mem_cons_self, .refl⟩
        · obtain ⟨r, hr, hreach⟩ := ih hm
          rcases List.mem_append.1 hr with hr | hr
          · exact ⟨a, List.mem_cons_self, .head hr hreach⟩
          · exact ⟨r, List.mem_cons_of_mem _ hr, hreach⟩

/-- What comes up was on the stack or is right below something that came up before it. -/
theorem visit_origin {n : Nat} {visited : List String} {stack l₁ l₂ : List Handle} {h : Handle}
    (hsplit : visit idOf children n visited stack = l₁ ++ h :: l₂) :
    h ∈ stack ∨ ∃ a ∈ l₁, Under idOf children a h := by
  induction n generalizing visited stack l₁ with
  | zero => simp [visit] at hsplit
  | succ n ih =>
    cases stack with
    | nil => simp [visit] at hsplit
    | cons a stack =>
      unfold visit at hsplit
      split at hsplit
      · rcases ih hsplit with h' | h'
        · exact Or.inl (List.mem_cons_of_mem _ h')
        · exact Or.inr h'
      · cases l₁ with
        | nil =>
          have : a = h := (List.cons.inj hsplit).1
          exact Or.inl (this ▸ List.mem_cons_self)
        | cons b l₁ =>
          rw [List.cons_append] at hsplit
          obtain ⟨rfl, hrest⟩ := List.cons.inj hsplit
          rcases ih hrest with h' | ⟨c, hc, hch⟩
          · rcases List.mem_append.1 h' with h' | h'
            · exact Or.inr ⟨a, List.mem_cons_self, h'⟩
            · exact Or.inl (List.mem_cons_of_mem _ h')
          · exact Or.inr ⟨c, List.mem_cons_of_mem _ hc, hch⟩

end Visit

/-! ## Enough steps -/

section Work
variable {idOf : Handle → String}

/-- How many objects are still to be pushed, the ids in `visited` being done with. -/
def workAhead : List (String × List Handle) → List String → Nat
  | [], _ => 0
  | (id, below) :: r, visited => (if id ∈ visited then 0 else below.length) + workAhead r visited

theorem workAhead_nil (entries : List (String × List Handle)) :
    workAhead entries [] = (entries.map Prod.snd).flatten.length := by
  induction entries with
  | nil => rfl
  | cons e r ih => simp [workAhead, ih]

theorem workAhead_cons_of_not_mem {entries : List (String × List Handle)} {id : String}
    (hid : id ∉ entries.map Prod.fst) (visited : List String) :
    workAhead entries (id :: visited) = workAhead entries visited := by
  induction entries with
  | nil => rfl
  | cons e r ih =>
    rw [List.map_cons, List.mem_cons, not_or] at hid
    have hne : e.1 ≠ id := fun h => hid.1 h.symm
    simp only [workAhead, List.mem_cons, ih hid.2, hne, false_or]

/-- Being done with one more id takes the objects below it off the work. -/
theorem workAhead_cons {entries : List (String × List Handle)}
    (hnd : (entries.map Prod.fst).Nodup) {id : String} {visited : List String}
    (hid : id ∉ visited) :
    workAhead entries visited
      = ((OrderedMap.lookup id entries).getD []).length + workAhead entries (id :: visited) := by
  induction entries with
  | nil => rfl
  | cons e r ih =>
    obtain ⟨k, v⟩ := e
    rw [List.map_cons, List.nodup_cons] at hnd
    by_cases hk : k = id
    · subst hk
      simp [workAhead, OrderedMap.lookup, hid, workAhead_cons_of_not_mem hnd.1]
    · have hrest := ih hnd.2
      simp only [workAhead, OrderedMap.lookup, List.mem_cons, hk, false_or, hrest, if_false]
      omega

/-- The objects below an id in a table. -/
def childrenIn (table : OrderedMap String (List Handle)) (id : String) : List Handle :=
  (table.get? id).getD []

/-- Whatever is right below something that is done with is done with or still on the stack. -/
def Fringed (idOf : Handle → String) (children : String → List Handle) (visited : List String) (stack : List Handle) :
    Prop := ∀ v ∈ visited, ∀ c ∈ children v, idOf c ∈ visited ∨ c ∈ stack

/-- With `order` everything on the stack is done with, and everything below what is done with, then or before. -/
structure Exhausts (idOf : Handle → String) (children : String → List Handle) (visited : List String)
    (stack order : List Handle) : Prop where
  stack : ∀ s ∈ stack, idOf s ∈ visited ∨ idOf s ∈ order.map idOf
  below : ∀ v, v ∈ visited ∨ v ∈ order.map idOf → ∀ c ∈ children v, idOf c ∈ visited ∨ idOf c ∈ order.map idOf

section Exhaustion
variable {children : String → List Handle} {visited : List String} {stack order : List Handle} {a : Handle}

theorem Fringed.skip (h : Fringed idOf children visited (a :: stack)) (ha : idOf a ∈ visited) :
    Fringed idOf children visited stack := by
  intro v hv c hc
  rcases h v hv c hc with hc | hc
  · exact Or.inl hc
  · rcases List.mem_cons.1 hc with rfl | hc
    · exact Or.inl ha
    · exact Or.inr hc

theorem Fringed.push (h : Fringed idOf children visited (a :: stack)) :
    Fringed idOf children (idOf a :: visited) (children (idOf a) ++ stack) := by
  intro v hv c hc
  rcases List.mem_cons.1 hv with rfl | hv
  · exact Or.inr (List.mem_append_left _ hc)
  · rcases h v hv c hc with hc | hc
    · exact Or.inl (List.mem_cons_of_mem _ hc)
    · rcases List.mem_cons.1 hc with rfl | hc
      · exact Or.inl List.mem_cons_self
      · exact Or.inr (List.mem_append_right _ hc)

/-- With nothing on the stack nothing is left to do. -/
theorem Exhausts.nil (h : Fringed idOf children visited []) : Exhausts idOf children visited [] [] where
  stack _ hs := absurd hs List.not_mem_nil
  below v hv c hc := (h v (hv.resolve_right List.not_mem_nil) c hc).imp_right fun hc => absurd hc List.not_mem_nil

theorem Exhausts.skip (h : Exhausts idOf children visited stack order) (ha : idOf a ∈ visited) :
    Exhausts idOf children visited (a :: stack) order where
  stack s hs := by
    rcases List.mem_cons.1 hs with rfl | hs
    · exact Or.inl ha
    · exact h.stack s hs
  below := h.below

/-- What is done with first is done with before all that is below it. -/
theorem Exhausts.cons (h : Exhausts idOf children (idOf a :: visited) (children (idOf a) ++ stack) order) :
    Exhausts idOf children visited (a :: stack) (a :: order) := by
  have hshift : ∀ x, (x ∈ idOf a :: visited ∨ x ∈ order.map idOf) ↔ (x ∈ visited ∨ x ∈ (a :: order).map idOf) := by
    intro x
    rw [List.map_cons, List.mem_cons, List.mem_cons, or_left_comm, or_assoc]
  refine ⟨fun s hs => ?_, fun v hv c hc => (hshift _).1 (h.below v ((hshift v).2 hv) c hc)⟩
  rcases List.mem_cons.1 hs with rfl | hs
  · exact Or.inr List.mem_cons_self
  · exact (hshift _).1 (h.stack s (List.mem_append_right _ hs))

end Exhaustion

/-- With steps for the stack and all the work ahead, everything on the stack comes up or is done with,
and so does everything below what comes up or is done with. -/
theorem visit_exhausts {table : OrderedMap String (List Handle)} {n : Nat} {visited : List String}
    {stack : List Handle} (hn : stack.length + workAhead table.entries visited ≤ n)
    (hfringe : Fringed idOf (childrenIn table) visited stack) :
    Exhausts idOf (childrenIn table) visited stack (visit idOf (childrenIn table) n visited stack) := by
  induction n generalizing visited stack with
  | zero =>
    obtain rfl : stack = [] := List.eq_nil_of_length_eq_zero (by omega)
    exact .nil hfringe
  | succ n ih =>
    cases stack with
    | nil => exact .nil hfringe
    | cons a stack =>
      rw [List.length_cons] at hn
      unfold visit
      split
      · next ha => exact (ih (by omega) (hfringe.skip ha)).skip ha
      · next ha =>
        have hwork := workAhead_cons table.nodup ha
        refine (ih ?_ hfringe.push).cons
        rw [List.length_append]
        simp only [childrenIn, OrderedMap.get?]
        omega

end Work

/-! ## Trees -/

section Tree
variable (p : Plane) (table : OrderedMap String (List Handle))

/-- `b` is among the objects that a table has right below `a`. -/
def Child (a b : Handle) : Prop := Under (fun h => (p.read h).id) (childrenIn table) a b

/-- No id comes up twice in a tree. -/
theorem treeOrder_nodup_ids (root : Handle) :
    ((p.treeOrder table root).map fun h => (p.read h).id).Nodup :=
  visit_nodup _ _ _

theorem treeOrder_nodup (root : Handle) : (p.treeOrder table root).Nodup :=
  List.Nodup.of_map _ (p.treeOrder_nodup_ids table root)

/-- The id of everything reachable from the root comes up. -/
theorem id_mem_treeOrder {root h : Handle} (hreach : Relation.ReflTransGen (p.Child table) root h) :
    (p.read h).id ∈ (p.treeOrder table root).map fun h => (p.read h).id := by
  have hall : Exhausts (fun h => (p.read h).id) (childrenIn table) [] [root] (p.treeOrder table root) :=
    visit_exhausts (by simp [workAhead_nil, OrderedMap.values]) fun _ hv => absurd hv List.not_mem_nil
  induction hreach with
  | refl => exact (hall.stack root List.mem_cons_self).resolve_left List.not_mem_nil
  | tail _ hstep ih => exact (hall.below _ (.inr ih) _ hstep).resolve_left List.not_mem_nil

/-- What comes up in a tree is reachable from its root. -/
theorem reaches_of_mem_treeOrder {root h : Handle} (hm : h ∈ p.treeOrder table root) :
    Relation.ReflTransGen (p.Child table) root h := by
  obtain ⟨r, hr, hreach⟩ := reaches_of_mem_visit hm
  rw [List.mem_singleton] at hr
  exact hr ▸ hreach

/-- Where ids tell objects apart, a tree lists exactly what is reachable from its root. -/
theorem mem_treeOrder_iff {root : Handle}
    (hinj : ∀ a b, Relation.ReflTransGen (p.Child table) root a →
      Relation.ReflTransGen (p.Child table) root b → (p.read a).id = (p.read b).id → a = b)
    {h : Handle} :
    h ∈ p.treeOrder table root ↔ Relation.ReflTransGen (p.Child table) root h := by
  refine ⟨p.reaches_of_mem_treeOrder table, fun hreach => ?_⟩
  obtain ⟨a, ha, hid⟩ := List.mem_map.1 (p.id_mem_treeOrder table hreach)
  exact hinj a h (p.reaches_of_mem_treeOrder table ha) hreach hid ▸ ha

/-- Everything in a tree but its root comes after something it is right below. -/
theorem treeOrder_origin {root h : Handle} {l₁ l₂ : List Handle}
    (hsplit : p.treeOrder table root = l₁ ++ h :: l₂) :
    h = root ∨ ∃ a ∈ l₁, p.Child table a h := by
  rcases visit_origin hsplit with hr | hr
  · exact Or.inl (List.mem_singleton.1 hr)
  · exact Or.inr hr

end Tree

/-! ## Trees of the same shape -/

/-- Where objects and what is right below them correspond, so do the objects that come up. -/
theorem visit_map {idOf idOf' : Handle → String} {children children' : String → List Handle}
    {f : Handle → Handle} (good : Handle → Prop) (hid : ∀ a, good a → idOf' (f a) = idOf a)
    (hgood : ∀ id, ∀ a ∈ children id, good a) (hchildren : ∀ id, children' id = (children id).map f)
    (n : Nat) (visited : List String) (stack : List Handle) (hstack : ∀ a ∈ stack, good a) :
    visit idOf' children' n visited (stack.map f) = (visit idOf children n visited stack).map f := by
  induction n generalizing visited stack with
  | zero => rfl
  | succ n ih =>
    cases stack with
    | nil => rfl
    | cons a stack =>
      have ha := hid a (hstack a List.mem_cons_self)
      have hrest : ∀ b ∈ stack, good b := fun b hb => hstack b (List.mem_cons_of_mem _ hb)
      rw [List.map_cons, visit, visit, ha, hchildren]
      split
      · exact ih visited stack hrest
      · rw [List.map_cons, ← List.map_append, ih]
        intro b hb
        rcases List.mem_append.1 hb with hb | hb
        · exact hgood _ b hb
        · exact hrest b hb

end ManagementPlane.Plane
