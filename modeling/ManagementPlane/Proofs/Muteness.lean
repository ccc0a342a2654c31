import ManagementPlane.Proofs.DisabledKinds

/-!
# Changes of the live manager that nobody hears of

* `Plane.onTop` : a live manager with older events on record below its own;
* `Plane.notes` : the notifications on record, the latest first;
* `Plane.Mute f` : the change `f` comes to the same whatever is on record below, and adds no notification;
* `Plane.mute_reconstruct`, … , `Pass.mute_dropAll` : objects are made, populated, joined, managed and dropped in this way.
-/

namespace ManagementPlane

variable {α β : Type}

namespace Plane

/-- The live manager with older events on record below its own. -/
def onTop (p : Plane) (older : List Event) : Plane := { p with trace := p.trace ++ older }

/-- What handlers were told, the latest first. -/
def notes (p : Plane) : List Notification := p.trace.filterMap Event.notification?

/-- The change comes to the same whatever is on record below, and puts no notification on record. -/
structure Mute (f : Plane → α × Plane) : Prop where
  onTop : ∀ p older, f (p.onTop older) = ((f p).1, (f p).2.onTop older)
  notes : ∀ p, (f p).2.notes = p.notes

section OnTop
variable (p : Plane) (older : List Event) (k : ObjectKind) (a : Handle)

@[simp] theorem read_onTop : (p.onTop older).read a = p.read a := rfl

@[simp] theorem registry_onTop : (p.onTop older).registry k = p.registry k := by cases k <;> rfl

theorem setRegistry_onTop (r : Registry) : (p.onTop older).setRegistry k r = (p.setRegistry k r).onTop older := by
  cases k <;> rfl

theorem preManage_onTop : (p.onTop older).preManage a = (p.preManage a).onTop older := by
  unfold preManage
  dsimp only
  rw [read_onTop, show (p.onTop older).isPreManaged (p.read a).kind (p.read a).id =
    p.isPreManaged (p.read a).kind (p.read a).id from rfl]
  split <;> rfl

theorem notes_setRegistry (r : Registry) : (p.setRegistry k r).notes = p.notes := by cases k <;> rfl

theorem notes_preManage : (p.preManage a).notes = p.notes := by
  unfold preManage
  dsimp only
  split <;> rfl

end OnTop

namespace Mute

/-- A change that leaves what is on record as it is. -/
theorem of_still {f : Plane → Plane} (htop : ∀ p older, f (p.onTop older) = (f p).onTop older)
    (hnotes : ∀ p, (f p).notes = p.notes) : Mute fun p => ((), f p) :=
  ⟨fun p older => by rw [htop], hnotes⟩

theorem bind {f : Plane → α × Plane} {g : α → Plane → β × Plane} (hf : Mute f) (hg : ∀ a, Mute (g a)) :
    Mute fun p => g (f p).1 (f p).2 := by
  refine ⟨fun p older => ?_, fun p => ?_⟩
  · rw [hf.onTop]
    exact (hg _).onTop _ older
  · exact ((hg _).notes _).trans (hf.notes p)

end Mute

/-! ## Populating and joining -/

variable (k : ObjectKind) (a : Handle)

theorem mute_reconstruct (known : ObjectKind → String → Bool) (readOnly : Bool) (m : Memento) :
    Mute fun p => p.reconstruct known readOnly a m := by
  refine ⟨fun p older => ?_, fun p => ?_⟩ <;> unfold reconstruct <;> dsimp only
  · rw [read_onTop]
    split
    · rfl
    · split
      · rfl
      · split <;> rfl
  · split
    · rfl
    · split
      · rfl
      · split <;> rfl

theorem mute_reconstructItem (i : CatalogItem) : Mute fun p => p.reconstructItem a i := by
  refine ⟨fun p older => ?_, fun p => ?_⟩ <;> unfold reconstructItem <;> dsimp only
  · rw [read_onTop]
    split <;> rfl
  · split <;> rfl

theorem mute_attach (entity : String) : Mute fun p => p.attach a entity := by
  refine ⟨fun p older => ?_, fun p => ?_⟩ <;> unfold attach <;> dsimp only
  · rw [read_onTop]
    split
    · rfl
    · split <;> rfl
  · split
    · rfl
    · split <;> rfl

theorem mute_addAdjunct (entity : Handle) : Mute fun p => p.addAdjunct entity k a := by
  refine ⟨fun p older => ?_, fun p => ?_⟩ <;> unfold addAdjunct
  · rw [read_onTop, (mute_attach a _).onTop]
    rcases p.attach a (p.read entity).id with ⟨_ | _, q⟩
    · rfl
    · dsimp only
      rw [read_onTop]
      split <;> rfl
  · rw [← (mute_attach a (p.read entity).id).notes p]
    rcases p.attach a (p.read entity).id with ⟨_ | _, q⟩
    · rfl
    · dsimp only
      split <;> rfl

/-! ## Managing and dropping -/

theorem mute_manageNoted : Mute fun p => p.manageNoted k a :=
  ⟨fun p older => by cases k <;> rfl, fun p => by cases k <;> rfl⟩

theorem mute_manageAll (order : List Handle) : Mute (manageAll k order) := by
  induction order with
  | nil => exact ⟨fun _ _ => rfl, fun _ => rfl⟩
  | cons a order ih =>
    have hone := mute_manageNoted k a
    refine ⟨fun p older => ?_, fun p => ?_⟩ <;> unfold manageAll <;> dsimp only
    · rw [hone.onTop]
      dsimp only
      rw [ih.onTop]
      rfl
    · rw [ih.notes]
      exact hone.notes p

theorem mute_manageTree (children : OrderedMap String (List Handle)) : Mute fun p => p.manageTree k children a := by
  refine ⟨fun p older => ?_, fun p => ?_⟩
  · unfold manageTree
    dsimp only
    rw [show (p.onTop older).treeOrder children a = p.treeOrder children a from rfl, (mute_manageAll k _).onTop]
    rcases manageAll k (p.treeOrder children a) p with ⟨_ | e, q⟩ <;> rfl
  · rw [snd_manageTree]
    exact (mute_manageAll k _).notes p

theorem mute_unmanage (id : String) (t : Transition) : Mute fun p => p.unmanage k id t := by
  refine ⟨fun p older => ?_, fun p => ?_⟩ <;> unfold unmanage <;> dsimp only
  · rw [registry_onTop, setRegistry_onTop]
    split <;> rfl
  · split
    · exact notes_setRegistry _ _ _
    · exact notes_setRegistry _ _ _

end Plane

/-! ## Making objects -/

namespace Instantiator

open Plane (Mute)

variable (k : ObjectKind) (id : String) (item : Option String) (candidates : List ConstructorArgs)

theorem mute_construct (d : TypeDescriptor) : Mute (construct k d id candidates) := by
  refine ⟨fun p older => ?_, fun p => ?_⟩ <;> unfold construct
  · split
    · rfl
    · split <;> rfl
  · split
    · rfl
    · split <;> rfl

theorem mute_makeLoaded (d : Except ObjectError TypeDescriptor) : Mute (makeLoaded k d id item candidates) := by
  cases d with
  | error e => exact ⟨fun _ _ => rfl, fun _ => rfl⟩
  | ok d =>
    have hnew := mute_construct k id candidates d
    refine ⟨fun p older => ?_, fun p => ?_⟩ <;> unfold makeLoaded make <;> dsimp only
    · rw [hnew.onTop]
      rcases construct k d id candidates p with ⟨_ | o, q⟩
      · rfl
      · unfold finish Plane.adopt
        dsimp only
        rw [← Plane.preManage_onTop]
        rfl
    · rw [← hnew.notes p]
      rcases construct k d id candidates p with ⟨_ | o, q⟩
      · rfl
      · exact Plane.notes_preManage _ _

end Instantiator

namespace Scratch

theorem register_onTop (s : Scratch) (p : Plane) (older : List Event) (a : Handle) :
    s.register (p.onTop older) a = ((s.register p a).1, (s.register p a).2.onTop older) := by
  unfold register
  dsimp only
  rw [Plane.read_onTop]
  split <;> rfl

theorem notes_register (s : Scratch) (p : Plane) (a : Handle) : (s.register p a).2.notes = p.notes := by
  unfold register
  dsimp only
  split <;> rfl

end Scratch

namespace Pass

open Plane (Mute)

theorem mute_adoptAll (objects : List Object) : Mute (adoptAll objects) := by
  induction objects with
  | nil => exact ⟨fun _ _ => rfl, fun _ => rfl⟩
  | cons o objects ih =>
    refine ⟨fun p older => ?_, fun p => ih.notes _⟩
    have hrest := ih.onTop (p.adopt o).2 older
    unfold adoptAll
    show (_ :: (adoptAll objects ((p.adopt o).2.onTop older)).1, (adoptAll objects ((p.adopt o).2.onTop older)).2) = _
    rw [hrest]
    rfl

theorem mute_fillCatalog (items : List CatalogItem) : Mute fun p => ((), fillCatalog items p) := by
  have hall := mute_adoptAll (items.map .ofItem)
  refine .of_still (fun p older => ?_) fun p => hall.notes p
  unfold fillCatalog
  dsimp only
  rw [hall.onTop]
  rfl

theorem mute_dropAll (k : ObjectKind) (ids : List String) : Mute fun p => ((), dropAll k ids p) := by
  unfold dropAll
  induction ids with
  | nil => exact ⟨fun _ _ => rfl, fun _ => rfl⟩
  | cons id ids ih => exact (Plane.mute_unmanage k id .rebindingDestroyed).bind fun _ => ih

end Pass

end ManagementPlane
