import ManagementPlane.Proofs.Acceptance
import ManagementPlane.Proofs.Listening
import ManagementPlane.Proofs.Shelf

/-!
# What a handler hears of a store

* `undecodableNotes`, `RawData.manifestNotes`, `RawData.snapshotNotes` : what is told of payloads that cannot be decoded;
* `Source.unreadableNotes` : what is told of places that cannot be read;
* `Pass.Hears l p q` : from `p` to `q` the handler is told just `l`, and nothing else happens;
* `Pass.hears_load`, `Pass.hears_decode_manifest`, `Pass.hears_decode_snapshot` : so it is when a store is read.
-/

namespace ManagementPlane

variable {σ α : Type}

/-- What is told of the payloads that cannot be decoded. -/
def undecodableNotes (read : String → Option α) (declared : α → String) (kind : ObjectKind)
    (payloads : List (String × String)) : List Notification :=
  (undecodable read declared kind payloads).map fun f => .loadFailed kind (subject kind f.1) f.2

namespace RawData

/-- What is told of the payloads that cannot be decoded for a manifest. -/
def manifestNotes (raw : RawData) : List Notification :=
  undecodableNotes EntitySummary.decode? EntitySummary.id .entity raw.entity.entries ++
    undecodableNotes LocationProbe.decode? LocationProbe.id .location raw.location.entries ++
    undecodableNotes CatalogItem.decode? CatalogItem.id .catalogItem raw.catalogItem.entries

/-- What is told of the mementos of a kind that cannot be decoded. -/
def mementoNotes (raw : RawData) (k : ObjectKind) : List Notification :=
  undecodableNotes Memento.decode? Memento.id k (raw.get k).entries

/-- What is told of the payloads that cannot be decoded for a snapshot. -/
def snapshotNotes (raw : RawData) : List Notification :=
  raw.mementoNotes .entity ++ raw.mementoNotes .location ++ raw.mementoNotes .policy ++ raw.mementoNotes .enricher ++
    raw.mementoNotes .feed ++ undecodableNotes CatalogItem.decode? CatalogItem.id .catalogItem raw.catalogItem.entries

end RawData

/-- What is told of places that cannot be read. -/
def Source.unreadableNotes (failures : List (ObjectKind × String × StoreError)) : List Notification :=
  failures.map fun f => .loadFailed f.1 (subject f.1 f.2.1) f.2.2

/-- What is told of the references that are not known. -/
def Snapshot.danglingNotes (s : Snapshot) (known : ObjectKind → String → Bool) : List Notification :=
  (s.references.filter fun r => !known r.1 r.2).map fun r => .dangling r.1 r.2

namespace Pass

variable {h : Handler σ} {p q r : Pass σ} {l l' : List Notification}

/-- From `p` to `q` the handler is told just `l`, and nothing else happens. -/
structure Hears (l : List Notification) (p q : Pass σ) : Prop where
  iteration : q.toIteration = p.toIteration
  plane : q.plane.forgetTrace = p.plane.forgetTrace
  notes : q.plane.notes = l.reverse ++ p.plane.notes

namespace Hears

theorem refl (p : Pass σ) : Hears [] p p := ⟨rfl, rfl, rfl⟩

theorem append (h₁ : Hears l p q) (h₂ : Hears l' q r) : Hears (l ++ l') p r where
  iteration := h₂.iteration.trans h₁.iteration
  plane := h₂.plane.trans h₁.plane
  notes := by rw [h₂.notes, h₁.notes, List.reverse_append, List.append_assoc]

theorem registry (h : Hears l p q) (k : ObjectKind) : q.plane.registry k = p.plane.registry k := by
  have hentities := congrArg Plane.entities h.plane
  have hlocations := congrArg Plane.locations h.plane
  cases k with
  | location => exact hlocations
  | entity | policy | enricher | feed | catalogItem => exact hentities

end Hears

theorem hears_tell {ε : Type} {answer : Step σ ε Unit} (ha : answer.GoesOn) (note : Notification) (hp : Hears l r p) :
    Step.Ends (fun _ q => Hears (l ++ [note]) r q) (tell note answer) p := by
  refine (ends_heard ha note p).imp fun _ q hq => hp.append ?_
  subst hq
  exact ⟨rfl, rfl, rfl⟩

theorem hears_logCourse {t : Task} (message : String) (hp : Hears l r p) :
    Step.Ends (fun _ q => Hears l r q) (logCourse t message) p :=
  .read_bind (.update ⟨hp.iteration, hp.plane, hp.notes⟩)

/-- Something is told of each of the items. -/
theorem hears_forEach {ε : Type} {answer : α → Step σ ε Unit} (ha : ∀ a, (answer a).GoesOn) (note : α → Notification)
    (items : List α) (hp : Hears l r p) :
    Step.Ends (fun _ q => Hears (l ++ items.map note) r q) (Step.forEach items fun a => tell (note a) (answer a)) p := by
  refine Step.Ends.forEach (l := []) (R := fun done q => Hears (l ++ done.map note) r q) (fun done a _ q hq => ?_)
    (by rwa [List.map_nil, List.append_nil])
  rw [List.map_append, ← List.append_assoc]
  exact hears_tell (ha a) (note a) hq

/-! ## Reading a store -/

section Accepting
variable (ha : h.Accepting)
include ha

theorem hears_decodeAll (read : String → Option α) (declared : α → String) (kind : ObjectKind)
    (payloads : List (String × String)) (table : OrderedMap String α) (hp : Hears l r p) :
    Step.Ends (fun result q => result = payloads.foldl (decodeInto read declared kind) table ∧
      Hears (l ++ undecodableNotes read declared kind payloads) r q)
      (decodeAll read declared kind (listener h) payloads table) p := by
  have hall : Step.Ends (fun _ q => Hears (l ++ undecodableNotes read declared kind payloads) r q)
      (Step.forEach (undecodable read declared kind payloads) fun f =>
        (listener h).loadFailed kind (subject kind f.1) f.2) p :=
    hears_forEach (fun f : String × StoreError => ha.loadFailed kind (subject kind f.1) f.2) _ _ hp
  rw [decodeAll_eq]
  exact hall.bind fun _ q hq => .pure ⟨rfl, hq⟩

/-- What is heard of the places that cannot be read. -/
theorem hears_load {source : Source} {failures : List (ObjectKind × String × StoreError)}
    (hs : source.unreadable = .ok failures) (hp : Hears l r p) :
    Step.Ends (fun raw q => raw = source.payloads ∧ Hears (l ++ Source.unreadableNotes failures) r q)
      (source.load (listener h)) p := by
  have hall : Step.Ends (fun _ q => Hears (l ++ Source.unreadableNotes failures) r q)
      (Step.forEach failures fun f => (listener h).loadFailed f.1 (subject f.1 f.2.1) f.2.2) p :=
    hears_forEach (fun f : ObjectKind × String × StoreError => ha.loadFailed f.1 (subject f.1 f.2.1) f.2.2) _ _ hp
  rw [Source.load_eq, hs]
  exact hall.bind fun _ q hq => .pure ⟨rfl, hq⟩

theorem hears_decode_manifest (raw : RawData) (hp : Hears l r p) :
    Step.Ends (fun m q => m = raw.manifest ∧ Hears (l ++ raw.manifestNotes) r q) (Manifest.decode raw (listener h)) p := by
  unfold Manifest.decode RawData.manifestNotes
  refine (hears_decodeAll ha _ _ _ _ _ hp).bind fun _ _ ⟨hentities, hp⟩ => ?_
  refine (hears_decodeAll ha _ _ _ _ _ hp).bind fun _ _ ⟨hprobes, hp⟩ => ?_
  refine (hears_decodeAll ha _ _ _ _ _ hp).bind fun _ q ⟨hitems, hp⟩ => .pure ⟨?_, ?_⟩
  · rw [hentities, hprobes, hitems]
    rfl
  · simp only [List.append_assoc] at hp ⊢
    exact hp

theorem hears_decode_snapshot (raw : RawData) (known : ObjectKind → String → Bool) (hp : Hears l r p) :
    Step.Ends (fun s q => s = raw.snapshot ∧
      Hears (l ++ (raw.snapshotNotes ++ raw.snapshot.danglingNotes known)) r q)
      (Snapshot.decode raw known (listener h)) p := by
  unfold Snapshot.decode Snapshot.decodeKind RawData.snapshotNotes RawData.mementoNotes
  refine (hears_decodeAll ha _ _ _ _ _ hp).bind fun _ _ ⟨hentity, hp⟩ => ?_
  refine (hears_decodeAll ha _ _ _ _ _ hp).bind fun _ _ ⟨hlocation, hp⟩ => ?_
  refine (hears_decodeAll ha _ _ _ _ _ hp).bind fun _ _ ⟨hpolicy, hp⟩ => ?_
  refine (hears_decodeAll ha _ _ _ _ _ hp).bind fun _ _ ⟨henricher, hp⟩ => ?_
  refine (hears_decodeAll ha _ _ _ _ _ hp).bind fun _ _ ⟨hfeed, hp⟩ => ?_
  refine (hears_decodeAll ha _ _ _ _ _ hp).bind fun _ _ ⟨hitems, hp⟩ => ?_
  subst hentity hlocation hpolicy henricher hfeed hitems
  have hall : Step.Ends _ (Step.forEach (raw.snapshot.references.filter fun x => !known x.1 x.2) fun x =>
      (listener h).dangling x.1 x.2) _ :=
    hears_forEach (fun x : ObjectKind × String => ha.dangling x.1 x.2) (fun x => .dangling x.1 x.2) _ hp
  refine Step.Ends.bind hall fun _ q hq => .pure ⟨rfl, ?_⟩
  simp only [List.append_assoc] at hq ⊢
  exact hq

end Accepting

end Pass

end ManagementPlane
