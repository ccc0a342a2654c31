import ManagementPlane.Memento.Codec
import ManagementPlane.Proofs.Steps
import ManagementPlane.Proofs.Tables

/-!
# What a store says, whoever listens

Reading a store tells a listener of problems, but what is read does not depend on what the listener does: it can
only stop.

* `Source.payloads`, `RawData.manifest`, `RawData.snapshot` : what is read, as functions of the store;
* `eq_payloads_of_load`, `Manifest.eq_of_decode`, `Snapshot.eq_of_decode` : readings that go through end in these;
* `moves_load`, … : along what relation readings move the listener's state;
* `RawData.id_of_get?_snapshot` : a memento lies under the id it declares.
-/

namespace ManagementPlane

variable {σ α : Type}

/-! ## What is read -/

/-- Take in a payload; one that cannot be decoded leaves no trace. -/
def decodeInto (read : String → Option α) (declared : α → String) (kind : ObjectKind)
    (table : OrderedMap String α) (e : String × String) : OrderedMap String α :=
  match decodeOne read declared kind e.1 e.2 with
  | .ok a => table.insert e.1 a
  | .error _ => table

/-- The table of the payloads that can be decoded. -/
def decodeTable (read : String → Option α) (declared : α → String) (kind : ObjectKind)
    (payloads : OrderedMap String String) : OrderedMap String α :=
  payloads.entries.foldl (decodeInto read declared kind) ∅

namespace RawData

/-- The manifest of the payloads. -/
def manifest (raw : RawData) : Manifest where
  entities := decodeTable EntitySummary.decode? EntitySummary.id .entity raw.entity
  locationTypes :=
    (decodeTable LocationProbe.decode? LocationProbe.id .location raw.location).mapValues LocationProbe.type
  catalogItems := decodeTable CatalogItem.decode? CatalogItem.id .catalogItem raw.catalogItem

/-- The mementos of one kind. -/
def mementos (raw : RawData) (k : ObjectKind) : OrderedMap String Memento :=
  decodeTable Memento.decode? Memento.id k (raw.get k)

/-- Everything that the payloads say. -/
def snapshot (raw : RawData) : Snapshot where
  mementos := {
    entity := raw.mementos .entity
    location := raw.mementos .location
    policy := raw.mementos .policy
    enricher := raw.mementos .enricher
    feed := raw.mementos .feed
    catalogItem := ∅ }
  catalogItems := decodeTable CatalogItem.decode? CatalogItem.id .catalogItem raw.catalogItem

end RawData

namespace Source

/-- Take in a reading; what cannot be read leaves no trace. -/
def putReading (raw : RawData) : Reading → RawData
  | .payload kind id text => raw.put kind id text
  | .unreadable .. => raw

/-- The payloads that can be read. -/
def payloads (source : Source) : RawData :=
  match source.readings with
  | .ok readings => readings.foldl putReading ∅
  | .error _ => ∅

/-- Everything that the store says. -/
def snapshot (source : Source) : Snapshot := source.payloads.snapshot

end Source

/-! ## Readings that go through -/

section Result
variable {l : Listener σ} {s t : σ}

theorem eq_of_decodeAll {read : String → Option α} {declared : α → String} {kind : ObjectKind}
    {payloads : List (String × String)} {table result : OrderedMap String α}
    (h : (decodeAll read declared kind l payloads table).on s = (.ok result, t)) :
    result = payloads.foldl (decodeInto read declared kind) table := by
  induction payloads generalizing table s with
  | nil =>
    rw [decodeAll, Step.on_pure] at h
    exact (Except.ok.inj (Prod.mk.inj h).1).symm
  | cons e r ih =>
    obtain ⟨id, payload⟩ := e
    rw [decodeAll] at h
    rw [List.foldl_cons, decodeInto]
    rcases hd : decodeOne read declared kind id payload with e | a
    · rw [hd] at h
      obtain ⟨_, u, -, h⟩ := Step.on_bind_eq_ok_iff.1 h
      exact ih h
    · rw [hd] at h
      exact ih h

theorem Snapshot.eq_of_decode {raw : RawData} {known : ObjectKind → String → Bool} {m : Snapshot}
    (h : (Snapshot.decode raw known l).on s = (.ok m, t)) : m = raw.snapshot := by
  obtain ⟨_, _, he, h⟩ := Step.on_bind_eq_ok_iff.1 h
  obtain ⟨_, _, hl, h⟩ := Step.on_bind_eq_ok_iff.1 h
  obtain ⟨_, _, hp, h⟩ := Step.on_bind_eq_ok_iff.1 h
  obtain ⟨_, _, hr, h⟩ := Step.on_bind_eq_ok_iff.1 h
  obtain ⟨_, _, hf, h⟩ := Step.on_bind_eq_ok_iff.1 h
  obtain ⟨_, _, hc, h⟩ := Step.on_bind_eq_ok_iff.1 h
  obtain ⟨_, _, -, h⟩ := Step.on_bind_eq_ok_iff.1 h
  rw [Step.on_pure] at h
  obtain rfl := Except.ok.inj (Prod.mk.inj h).1
  unfold decodeKind at he hl hp hr hf
  rw [eq_of_decodeAll he, eq_of_decodeAll hl, eq_of_decodeAll hp, eq_of_decodeAll hr,
    eq_of_decodeAll hf, eq_of_decodeAll hc]
  rfl

theorem Manifest.eq_of_decode {raw : RawData} {m : Manifest} (h : (Manifest.decode raw l).on s = (.ok m, t)) :
    m = raw.manifest := by
  obtain ⟨_, _, he, h⟩ := Step.on_bind_eq_ok_iff.1 h
  obtain ⟨_, _, hl, h⟩ := Step.on_bind_eq_ok_iff.1 h
  obtain ⟨_, _, hc, h⟩ := Step.on_bind_eq_ok_iff.1 h
  rw [Step.on_pure] at h
  obtain rfl := Except.ok.inj (Prod.mk.inj h).1
  rw [eq_of_decodeAll he, eq_of_decodeAll hl, eq_of_decodeAll hc]
  rfl

theorem Source.eq_of_takeInAll {readings : List Reading} {raw result : RawData}
    (h : (takeInAll l raw readings).on s = (.ok result, t)) :
    result = readings.foldl putReading raw := by
  induction readings generalizing raw s with
  | nil =>
    rw [takeInAll, Step.on_pure] at h
    exact (Except.ok.inj (Prod.mk.inj h).1).symm
  | cons r rest ih =>
    rw [takeInAll] at h
    obtain ⟨raw', u, hr, h⟩ := Step.on_bind_eq_ok_iff.1 h
    rw [List.foldl_cons, ih h]
    congr 1
    cases r with
    | payload kind id text =>
      rw [takeIn, Step.on_pure] at hr
      exact (Except.ok.inj (Prod.mk.inj hr).1).symm
    | unreadable kind id error =>
      rw [takeIn] at hr
      obtain ⟨_, _, -, hr⟩ := Step.on_bind_eq_ok_iff.1 hr
      rw [Step.on_pure] at hr
      exact (Except.ok.inj (Prod.mk.inj hr).1).symm

theorem Source.eq_payloads_of_load {source : Source} {raw : RawData}
    (h : (source.load l).on s = (.ok raw, t)) : raw = source.payloads := by
  unfold Source.load at h
  unfold Source.payloads
  rcases hr : source.readings with e | readings
  · rw [hr] at h
    cases h
  · rw [hr] at h
    exact eq_of_takeInAll h

end Result

/-! ## How readings move the listener -/

section Moves
variable {l : Listener σ} {R : σ → σ → Prop} [Std.Refl R] [IsTrans σ R]

theorem moves_decodeAll (hl : ∀ kind message e s, Step.Moves R (l.loadFailed kind message e) s)
    (read : String → Option α) (declared : α → String) (kind : ObjectKind)
    (payloads : List (String × String)) (table : OrderedMap String α) (s : σ) :
    Step.Moves R (decodeAll read declared kind l payloads table) s := by
  induction payloads generalizing table s with
  | nil => exact .pure _ s
  | cons e r ih =>
    rw [decodeAll]
    split
    · exact ih _ s
    · exact (hl _ _ _ s).bind fun _ t _ => ih _ t

theorem Manifest.moves_decode (hl : ∀ kind message e s, Step.Moves R (l.loadFailed kind message e) s)
    (raw : RawData) (s : σ) : Step.Moves R (Manifest.decode raw l) s :=
  (moves_decodeAll hl _ _ _ _ _ s).bind fun _ t _ => (moves_decodeAll hl _ _ _ _ _ t).bind fun _ t _ =>
    (moves_decodeAll hl _ _ _ _ _ t).bind fun _ t _ => .pure _ t

theorem Snapshot.moves_decode (hl : ∀ kind message e s, Step.Moves R (l.loadFailed kind message e) s)
    (hd : ∀ kind id s, Step.Moves R (l.dangling kind id) s) (raw : RawData)
    (known : ObjectKind → String → Bool) (s : σ) : Step.Moves R (Snapshot.decode raw known l) s := by
  have hall : ∀ {β} (read : String → Option β) declared kind payloads table s,
      Step.Moves R (decodeAll read declared kind l payloads table) s := moves_decodeAll hl
  unfold Snapshot.decode Snapshot.decodeKind
  refine (hall _ _ _ _ _ s).bind fun _ t _ => (hall _ _ _ _ _ t).bind fun _ t _ => ?_
  refine (hall _ _ _ _ _ t).bind fun _ t _ => (hall _ _ _ _ _ t).bind fun _ t _ => ?_
  refine (hall _ _ _ _ _ t).bind fun _ t _ => (hall _ _ _ _ _ t).bind fun _ t _ => ?_
  exact (Step.Moves.forEach (fun _ _ s => hd _ _ s) t).bind fun _ t _ => .pure _ t

theorem Source.moves_load (hl : ∀ kind message e s, Step.Moves R (l.loadFailed kind message e) s)
    (source : Source) (s : σ) : Step.Moves R (source.load l) s := by
  have hall : ∀ readings raw s, Step.Moves R (takeInAll l raw readings) s := by
    intro readings
    induction readings with
    | nil => exact fun _ s => .pure _ s
    | cons r rest ih =>
      intro raw s
      refine Step.Moves.bind ?_ fun _ t _ => ih _ t
      cases r with
      | payload kind id text => exact .pure _ s
      | unreadable kind id error => exact (hl _ _ _ s).bind fun _ t _ => .pure _ t
  unfold Source.load
  split
  · exact .stop _ s
  · exact hall _ _ s

end Moves

/-! ## Ids -/

theorem declared_of_get?_decodeTable {read : String → Option α} {declared : α → String}
    {kind : ObjectKind} {payloads : OrderedMap String String} {id : String} {a : α}
    (h : (decodeTable read declared kind payloads).get? id = some a) : declared a = id := by
  have hall : ∀ (l : List (String × String)) (table : OrderedMap String α),
      (∀ id a, table.get? id = some a → declared a = id) →
      ∀ id a, (l.foldl (decodeInto read declared kind) table).get? id = some a → declared a = id := by
    intro l
    induction l with
    | nil => exact fun _ ht => ht
    | cons e r ih =>
      intro table ht
      refine ih _ fun id a hg => ?_
      unfold decodeInto at hg
      split at hg
      · next b hb =>
        rw [OrderedMap.get?_insert] at hg
        split at hg
        · next he =>
          obtain rfl := Option.some.inj hg
          unfold decodeOne at hb
          split at hb
          · cases hb
          · split at hb
            · next hd => exact (Except.ok.inj hb) ▸ hd.trans he
            · cases hb
        · exact ht id a hg
      · exact ht id a hg
  exact hall payloads.entries ∅ (fun _ _ h => by cases h) id a h

/-- A memento lies under the id it declares. -/
theorem RawData.id_of_get?_snapshot (raw : RawData) {k : ObjectKind} {id : String} {m : Memento}
    (h : (raw.snapshot.ofKind k).get? id = some m) : m.id = id := by
  cases k with
  | catalogItem => cases h
  | _ => exact declared_of_get?_decodeTable h

/-- What lies in a decoded table declares the ids that are its keys. -/
theorem map_declared_decodeTable (read : String → Option α) (declared : α → String) (kind : ObjectKind)
    (payloads : OrderedMap String String) :
    (decodeTable read declared kind payloads).values.map declared = (decodeTable read declared kind payloads).keys := by
  unfold OrderedMap.values OrderedMap.keys
  rw [List.map_map]
  refine List.map_congr_left fun e he => ?_
  exact declared_of_get?_decodeTable (a := e.2) (OrderedMap.get?_eq_some_iff.2 he)

theorem RawData.ids_snapshot (raw : RawData) (k : ObjectKind) :
    (raw.snapshot.ofKind k).values.map Memento.id = (raw.snapshot.ofKind k).keys := by
  cases k with
  | catalogItem => rfl
  | _ => exact map_declared_decodeTable _ _ _ _

/-- No application is listed twice. -/
theorem Source.applicationIds_nodup (source : Source) : source.snapshot.applicationIds.Nodup := by
  have hids := RawData.ids_snapshot source.payloads .entity
  apply List.Nodup.sublist (List.filter_sublist.map Memento.id)
  show (source.snapshot.ofKind .entity).values.map Memento.id |>.Nodup
  rw [snapshot, hids]
  exact OrderedMap.keys_nodup _

/-- A parentless memento is that of an application, and no other memento has its id. -/
theorem Source.parent_of_mem_applicationIds {source : Source} {m : Memento}
    (hm : m ∈ (source.snapshot.ofKind .entity).values) (hid : m.id ∈ source.snapshot.applicationIds) :
    m.parent = none := by
  obtain ⟨m', hm', he⟩ := List.mem_map.1 hid
  obtain ⟨hm', hp⟩ := List.mem_filter.1 hm'
  obtain ⟨id, hg⟩ := OrderedMap.mem_values_iff.1 hm
  obtain ⟨id', hg'⟩ := OrderedMap.mem_values_iff.1 hm'
  have h₁ : m.id = id := source.payloads.id_of_get?_snapshot hg
  have h₂ : m'.id = id' := source.payloads.id_of_get?_snapshot (k := .entity) hg'
  have hii : id' = id := by rw [← h₁, ← h₂, he]
  subst hii
  obtain rfl : m' = m := Option.some.inj (hg'.symm.trans hg)
  simpa using hp

end ManagementPlane
