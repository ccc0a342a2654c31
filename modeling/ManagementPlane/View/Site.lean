import ManagementPlane.Site
import ManagementPlane.View.Failure
import ManagementPlane.View.Manager

/-!
# A node at work as JSON
-/

namespace ManagementPlane

open Json (Value)

/-- What a pass ended with; `wording` says how messages are shown. -/
def Manager.Outcome.view {σ : Type} (wording : String → String) (o : Manager.Outcome σ) : Value :=
  match o.result with
  | .ok applications => o.manager.plane.applicationsView applications
  | .error e => e.view wording

/-- What is to be seen of a pass: its shells and, if `applications` of them are managed, its summary. -/
def Iteration.fields (i : Iteration) (p : Plane) (applications : Nat) : List (String × Value) :=
  [("mode", i.mode.label), ("is_empty", i.isEmpty), ("overwriting_master", i.overwritingMaster),
    ("scratch", i.scratch.view p), ("summary", (Summary.ofScratch i.scratch applications).view)]

def Handler.fields {σ : Type} (h : Handler σ) (wording : String → String) (s : σ) :
    List (String × Value) :=
  [("errors", (h.errors s).map wording), ("warnings", (h.warnings s).map wording)]

/-- How many applications are managed after the last of some runs that went through. -/
def Manager.Outcome.applications {σ : Type} (outcomes : List (Manager.Outcome σ)) : Nat :=
  ((outcomes.filterMap fun o => o.result.toOption).getLast?.map List.length).getD 0

/-- The state that outlives passes, and which stores are open for writing. -/
def Site.fields (s : Site) (wording : String → String) (brief : Bool) (keys : List String) :
    List (String × Value) :=
  let writable : Value := s.stores.entries.map fun e => [(e.1 : Value), e.2.writable]
  s.manager.fields wording brief keys ++ [("writable", writable)]

end ManagementPlane
