import ManagementPlane.Proofs.Counterparts
import ManagementPlane.Proofs.Grounding
import ManagementPlane.Proofs.Stock

/-!
# The order of the store up to the last phase

* `Showing.starts` : what was told of the beginnings of passes;
* `Manager.Rebuilt` : the pass has come to `b` when its catalog is rebuilt;
* `Manager.Rebuilt.sameGround` : over stores that list the same payloads in another order it comes to the same;
* `Manager.Completed.exists_midway` : a pass that completes, when its catalog is rebuilt and before its shells are joined;
* `Manager.Completed.mirrors` : passes over two such stores show the same before the last phase;
* `Manager.stocked_of_runPass` : the items of the catalog stay in the heap from pass to pass.
-/

namespace ManagementPlane

variable {σ : Type}

/-! ## Beginnings -/

/-- Among these notifications no pass begins. -/
theorem filter_isStart_add {notes : List Notification} (hnotes : ∀ n ∈ notes, n.isStart = false)
    (told : Multiset Notification) :
    (notes + told).filter (fun n => n.isStart) = told.filter fun n => n.isStart := by
  rw [Multiset.filter_add, Multiset.filter_eq_nil.2, zero_add]
  intro n hn
  rw [hnotes n (Multiset.mem_coe.1 hn)]
  exact Bool.false_ne_true

namespace Showing

variable {l : List Treatment} {v : Showing}

/-- What was told of the beginnings of passes. -/
def starts (v : Showing) : Multiset Notification := v.told.filter fun n => n.isStart

theorem starts_treatAll (hl : ∀ x ∈ l, ∀ o, ∀ n ∈ x.notes o, n.isStart = false) (v : Showing) :
    (v.treatAll l).starts = v.starts := by
  induction l generalizing v with
  | nil => rfl
  | cons x l ih =>
    refine (ih (fun y hy => hl y (List.mem_cons_of_mem _ hy)) (v.treat x)).trans ?_
    exact filter_isStart_add (hl x List.mem_cons_self _) v.told

end Showing

namespace Pass

variable {t : Task} {h : Handler σ} {p q : Pass σ}

/-- Populating tells of no beginning. -/
theorem starts_populatings (t : Task) (snapshot : Snapshot) (known : ObjectKind → String → Bool) (v : Showing) :
    (v.treatAll (populatings t snapshot known)).starts = v.starts := by
  have hone : ∀ {ms : List Memento} {k x}, x ∈ ms.map (Treatment.populating known k) →
      ∀ o, ∀ n ∈ x.notes o, n.isStart = false := by
    intro ms k x hx o n hn
    obtain ⟨m, -, rfl⟩ := List.mem_map.1 hx
    cases o with
    | none => exact List.mem_singleton.1 hn ▸ rfl
    | some o => cases hn
  refine Showing.starts_treatAll (fun x hx => ?_) v
  rcases List.mem_append.1 hx with hx | hx
  · rcases List.mem_append.1 hx with hx | hx
    · exact hone hx
    · obtain ⟨k, -, hx⟩ := List.mem_flatMap.1 hx
      split at hx
      · exact hone hx
      · cases hx
  · exact hone hx

/-- Where no pass begins, none is told of. -/
theorem Frank.starts {G : Set (ObjectKind × String)} (hpq : Frank h G p q) : q.showing.starts = p.showing.starts := by
  obtain ⟨new, hnotes, hnew, -⟩ := hpq.grows
  show Multiset.filter _ (q.plane.notes : Multiset Notification) = Multiset.filter _ ↑p.plane.notes
  rw [hnotes, ← Multiset.coe_add]
  exact filter_isStart_add hnew _

/-- Joining tells of no beginning. -/
theorem Joined.starts {p₀ : Pass σ} {ls : List Listing} {lost : List String} (hp : Joined p₀ ls lost p) :
    p.showing.starts = p₀.showing.starts := by
  show Multiset.filter _ (p.plane.notes : Multiset Notification) = Multiset.filter _ ↑p₀.plane.notes
  rw [Multiset.coe_eq_coe.2 hp.told, ← Multiset.coe_add]
  refine filter_isStart_add (fun n hn => ?_) _
  rcases List.mem_append.1 hn with hn | hn
  · obtain ⟨l, -, hn⟩ := List.mem_filterMap.1 hn
    unfold Scratch.reply? at hn
    split at hn
    · exact Option.some.inj hn ▸ rfl
    · obtain ⟨_, -, rfl⟩ := Option.map_eq_some_iff.1 hn
      rfl
  · obtain ⟨_, -, rfl⟩ := List.mem_map.1 hn
    rfl

/-- The hooks of locations and entities do nothing special, and all adjuncts of shells are shells. -/
structure Plain (p : Pass σ) : Prop where
  behaviour : ∀ {k id a}, k.Registered → p.scratch.get? k id = some a → (p.plane.read a).behaviour = {}
  adjuncts : ∀ {k id a j b}, p.scratch.get? k id = some a → b ∈ (p.plane.read a).adjuncts j →
    j.isAdjunct = true ∧ ∃ i, p.scratch.get? j i = some b

end Pass

namespace Manager

variable {m : Manager} {setup : Setup} {source source' : Source} {h : Handler σ} {s : σ} {mode : ManagementMode}
  {o o' : Outcome σ} {p p' b b' : Pass σ}

/-! ## Up to the new catalog -/

/-- The pass has come to `b` when its catalog is rebuilt. -/
def Rebuilt (m : Manager) (setup : Setup) (source : Source) (h : Handler σ) (s : σ) (mode : ManagementMode)
    (b : Pass σ) : Prop :=
  ∃ p, (Pass.loadManifest (m.task setup source mode) h).on (m.opening h s mode) =
      (.ok (source.payloads, source.payloads.manifest), p) ∧
    (Pass.rebuildCatalog (m.task setup source mode) h source.payloads.manifest).on p = (.ok (), b)

theorem Rebuilt.grounded (hb : m.Rebuilt setup source h s mode b) (htypes : setup.types.IsStock)
    (hcatalog : m.plane.Stocked) : b.Grounded m.plane.heap.size := by
  obtain ⟨p, hload, hrebuild⟩ := hb
  have hsame : m.plane.SameCatalog m.plane := by
    unfold Plane.SameCatalog OrderedMap.Pairs
    refine List.forall₂_same.2 fun e he => ?_
    have hvalid := hcatalog e.2 (List.mem_map_of_mem he)
    exact ⟨rfl, hvalid, hvalid, rfl, rfl⟩
  let t := m.task setup source mode
  have hagree : Step.Agree (Pass.Twin m.plane.heap.size m.plane.heap.size []) Eq (Pass.loadManifest t h)
      (Pass.loadManifest (t.counting t.hotPasses) h) (m.opening h s mode) (m.opening h s mode) :=
    (twin_opening hsame h s mode).loadManifest
  unfold Step.Agree at hagree
  rw [hload] at hagree
  have hcourse := (Pass.minor_loadManifest (t := m.task setup source mode) (m.opening h s mode)).to hload
    (sound_opening m h s mode)
  refine Pass.grounded_of_rebuildCatalog (t := m.task setup source mode) htypes (fun k id => ?_) hagree.states hrebuild
  refine Bool.eq_false_iff.2 fun hc => ?_
  rcases hcourse.shells htypes.keepsKinds k id hc with hc | ⟨hc, -⟩
  · cases k <;> cases hc
  · cases hc

/-- Over stores that list the same payloads in another order, a pass comes to stand on the same ground. -/
theorem Rebuilt.sameGround (hb : m.Rebuilt setup source h s mode b) (hb' : m.Rebuilt setup source' h s mode b')
    (ha : h.Accepting) (hs : source.Reordered source') : Pass.SameGround b b' ∧ b'.showing = b.showing := by
  obtain ⟨p, hload, hrebuild⟩ := hb
  obtain ⟨p', hload', hrebuild'⟩ := hb'
  have hstart := Pass.sameStart_of_loadManifest (t := m.task setup source mode) ha hs hload hload'
  exact hstart.rebuildCatalog (t := m.task setup source mode) ha hs.payloads source' hrebuild hrebuild'

/-! ## Up to the last phase -/

/-- A pass that completes, when its catalog is rebuilt and before its shells are joined. -/
theorem Completed.exists_midway (hp : Completed m setup source h s mode o p) (ha : h.Accepting)
    (htypes : setup.types.IsStock) (hcatalog : m.plane.Stocked) :
    ∃ b p₀, m.Rebuilt setup source h s mode b ∧
      Pass.Shows m.plane.heap.size b (Pass.middle (m.task setup source mode) b source.payloads b.showing) p₀ ∧
      p₀.Loose m.plane.heap.size ∧ p₀.showing.starts = (m.opening h s mode).showing.starts ∧
      p.plane.catalog = p₀.plane.catalog ∧
      p₀.Joined (source.snapshot.listings setup.settings.features p₀.scratch) (source.snapshot.absentees p₀.scratch) p := by
  obtain ⟨p₁, b, p₃, p₄, p₅, p₆, -, h₁, h₂, h₃, h₄, h₅, h₆, h₇⟩ := Pass.exists_phases_of_build hp.built
  have hb : m.Rebuilt setup source h s mode b := ⟨p₁, h₁, h₂⟩
  have hground := hb.grounded htypes hcatalog
  have hbegun : Pass.Shows m.plane.heap.size b b.showing b := ⟨.refl hground, rfl⟩
  obtain ⟨_, q₃, hq, hshown⟩ := Pass.ends_makeLocationsAndEntities_shows (t := m.task setup source mode) ha htypes hground
    source.payloads.manifest hbegun
  obtain ⟨-, rfl⟩ := Prod.mk.inj (h₃.symm.trans hq)
  obtain ⟨_, q, hq, -, hshown⟩ := Pass.ends_loadSnapshot_shows ha hground source.payloads hshown
  obtain ⟨-, rfl⟩ := Prod.mk.inj (h₄.symm.trans hq)
  obtain ⟨_, q, hq, hshown⟩ := Pass.ends_makeAdjuncts_shows (t := m.task setup source mode) ha htypes hground
    source.snapshot hshown
  obtain ⟨-, rfl⟩ := Prod.mk.inj (h₅.symm.trans hq)
  have hfrank : Pass.Frank h ∅ (m.opening h s mode) p₅ := by
    refine IsTrans.trans _ _ _ ((Pass.frank_loadManifest _).to h₁) ?_
    refine IsTrans.trans _ _ _ ((Pass.frank_rebuildCatalog htypes.keepsKinds _ _).to h₂) ?_
    refine IsTrans.trans _ _ _ ((Pass.frank_makeLocationsAndEntities _ _).to h₃) ?_
    refine IsTrans.trans _ _ _ ((Pass.frank_loadSnapshot _ _).to h₄) ?_
    exact (Pass.frank_makeAdjuncts _ _).to h₅
  have hstarts := hfrank.starts
  rw [hshown.showing] at hstarts
  obtain ⟨_, q, hq, hshown⟩ := Pass.ends_reconstructAll_shows (t := m.task setup source mode) ha hground
    source.snapshot hshown
  obtain ⟨-, rfl⟩ := Prod.mk.inj (h₆.symm.trans hq)
  obtain ⟨hloose, -⟩ := Pass.untying_of_phases htypes.makesLoose h₁ h₂ h₃ h₄ h₅ h₆ (loose_opening m h s mode)
  obtain ⟨_, q, hq, hjoined⟩ := Pass.ends_attachAdjuncts (t := m.task setup source mode) ha hloose source.snapshot
  obtain ⟨-, rfl⟩ := Prod.mk.inj (h₇.symm.trans hq)
  refine ⟨b, p₆, hb, hshown, hloose, ?_, (Pass.catalog_attachAdjuncts source.snapshot p₆).to h₇, hjoined⟩
  rw [hshown.showing]
  exact (Pass.starts_populatings _ _ _ _).trans hstarts

namespace Completed

variable (hp : Completed m setup source h s mode o p) (ha : h.Accepting) (htypes : setup.types.IsStock)
  (hcatalog : m.plane.Stocked)
include hp ha htypes hcatalog

theorem plain : p.Plain := by
  obtain ⟨b, p₀, -, hshown, -, -, -, hjoined⟩ := hp.exists_midway ha htypes hcatalog
  refine ⟨fun {k id a} hk hg => ?_, fun {k id a j b} hg hb => ?_⟩
  · rw [hjoined.scratch] at hg
    have hne : k ≠ .catalogItem := by
      rintro rfl
      cases hk <;> contradiction
    exact (hjoined.behaviour hg).trans (hshown.upon.plain hne (Pass.shelf_eq_some_iff.2 ⟨a, hg, rfl⟩))
  · rw [hjoined.scratch] at hg ⊢
    exact hjoined.exists_of_mem_adjuncts hg hb

/-- One pass has begun since the pass began. -/
theorem starts : p.showing.starts = (m.opening h s mode).showing.starts := by
  obtain ⟨b, p₀, -, -, -, hstarts, -, hjoined⟩ := hp.exists_midway ha htypes hcatalog
  exact hjoined.starts.trans hstarts

/-- Passes over stores that list the same payloads in another order show the same before the last phase. -/
theorem mirrors (hp' : Completed m setup source' h s mode o' p') (hs : source.Reordered source')
    (hx : source.snapshot.Exclusive p.scratch) : Pass.Mirrors p p' := by
  obtain ⟨b, p₀, hb, hshown, hloose, -, -, hjoined⟩ := hp.exists_midway ha htypes hcatalog
  obtain ⟨b', p₀', hb', hshown', hloose', -, -, hjoined'⟩ := hp'.exists_midway ha htypes hcatalog
  obtain ⟨hground, hshowing⟩ := hb.sameGround hb' ha hs
  have hsame : p₀'.showing = p₀.showing := by
    rw [hshown.showing, hshown'.showing, hshowing]
    exact Pass.middle_eq (t := m.task setup source mode) hground hs.payloads source' b.showing
  rw [hjoined.scratch] at hx
  exact Pass.mirrors_of_joined hs.payloads hx setup.settings.features hsame hloose hloose' hjoined hjoined'

end Completed

/-! ## The next pass -/

/-- A pass that gets through its last phase leaves the items of the catalog in the heap. -/
theorem stocked_of_runPass {time : Nat} (ho : m.runPass setup source time h (.new mode) s = o) (ha : h.Accepting)
    (htypes : setup.types.IsStock) (hclosed : m.plane.Closed) (hcatalog : m.plane.Stocked)
    (hlast : o.ReachedLastPhase) : o.manager.plane.Stocked := by
  obtain ⟨p, hp⟩ := exists_completed ho ha hclosed hlast
  obtain ⟨b, p₀, hb, hshown, -, -, hlate, hjoined⟩ := hp.exists_midway ha htypes hcatalog
  subst ho
  have hkept : (m.runPass setup source time h (.new mode) s).manager.plane.catalog = b.plane.catalog :=
    (catalog_of_build hp.built time).trans (hlate.trans hshown.upon.catalog)
  have hgrown : b.plane.heap.size ≤ p.plane.heap.size := by
    rw [hjoined.size]
    exact hshown.upon.size_le
  intro a hmem
  rw [hkept] at hmem
  have hvalid := Nat.lt_of_lt_of_le ((hb.grounded htypes hcatalog).catalog a hmem) hgrown
  exact Nat.lt_of_lt_of_eq hvalid hp.closing.size.symm

theorem stocked_empty : ({} : Plane).Stocked := fun _ ha => nomatch ha

end Manager

end ManagementPlane
