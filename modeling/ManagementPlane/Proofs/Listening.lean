import ManagementPlane.Proofs.Reading
import ManagementPlane.Store.Memory
import Mathlib.Data.List.Induction

/-!
# What a listener hears of a store

Reading a store comes upon payloads and upon places that cannot be read. The former are what is read, kind by kind;
the latter are all that a listener hears of.

* `decodeAll_eq`, `Source.load_eq` : what a listener hears while a store is read, and what is read;
* `Source.load_eq_pure` : of a store without unreadable places a listener hears nothing;
* `Source.get?_foldl_putReading` : the payload of an object, if all readings agree on it;
* `Source.entries_payloads`, `MemoryStore.payloads_source` : the payloads of a kind.
-/

namespace ManagementPlane

variable {σ α : Type}

/-! ## What a listener hears -/

/-- The payloads that cannot be decoded, and why. -/
def undecodable (read : String → Option α) (declared : α → String) (kind : ObjectKind)
    (payloads : List (String × String)) : List (String × StoreError) :=
  payloads.filterMap fun e => match decodeOne read declared kind e.1 e.2 with
    | .ok _ => none
    | .error error => some (e.1, error)

/-- What cannot be read at this place, and why. -/
def Reading.failure? : Reading → Option (ObjectKind × String × StoreError)
  | .payload .. => none
  | .unreadable kind id error => some (kind, id, error)

/-- What reading the store comes upon that cannot be read. -/
def Source.unreadable (source : Source) : Except StoreError (List (ObjectKind × String × StoreError)) :=
  source.readings.map (List.filterMap Reading.failure?)

section Listening
variable (l : Listener σ)

/-- A listener hears of the payloads that cannot be decoded, and the others are taken in. -/
theorem decodeAll_eq (read : String → Option α) (declared : α → String) (kind : ObjectKind)
    (payloads : List (String × String)) (table : OrderedMap String α) :
    decodeAll read declared kind l payloads table = (do
      Step.forEach (undecodable read declared kind payloads) fun f => l.loadFailed kind (subject kind f.1) f.2
      pure (payloads.foldl (decodeInto read declared kind) table)) := by
  induction payloads generalizing table with
  | nil => rfl
  | cons e payloads ih =>
    obtain ⟨id, payload⟩ := e
    unfold decodeAll undecodable
    rw [List.filterMap_cons, List.foldl_cons, decodeInto]
    dsimp only
    rcases decodeOne read declared kind id payload with error | a
    · dsimp only
      rw [Step.forEach_cons, bind_assoc]
      exact congrArg _ (funext fun _ => ih table)
    · exact ih (table.insert id a)

/-- A listener hears of what cannot be read, and the rest is taken in. -/
theorem Source.load_eq (source : Source) : source.load l = (match source.unreadable with
    | .error e => Step.stop e
    | .ok failures => do
      Step.forEach failures fun f => l.loadFailed f.1 (subject f.1 f.2.1) f.2.2
      pure source.payloads) := by
  have hall : ∀ readings raw, takeInAll l raw readings = (do
      Step.forEach (readings.filterMap Reading.failure?) fun f => l.loadFailed f.1 (subject f.1 f.2.1) f.2.2
      pure (readings.foldl putReading raw)) := by
    intro readings
    induction readings with
    | nil => exact fun _ => rfl
    | cons r readings ih =>
      intro raw
      unfold takeInAll
      cases r with
      | payload kind id text => exact ih (raw.put kind id text)
      | unreadable kind id error =>
        rw [List.filterMap_cons_some (f := Reading.failure?) rfl, Step.forEach_cons, bind_assoc]
        unfold takeIn
        rw [bind_assoc]
        exact congrArg _ (funext fun _ => ih raw)
  unfold load unreadable payloads
  rcases source.readings with e | readings
  · rfl
  · exact hall readings ∅

end Listening

/-- Of a store in which everything can be read a listener hears nothing. -/
theorem Source.load_eq_pure {source : Source} (hs : source.unreadable = .ok []) (l : Listener σ) :
    source.load l = pure source.payloads := by
  rw [load_eq, hs]
  rfl

/-! ## The payloads of a kind -/

theorem RawData.get_put (raw : RawData) (kind : ObjectKind) (id payload : String) (k : ObjectKind) :
    (raw.put kind id payload).get k = if kind = k then (raw.get k).insert id payload else raw.get k :=
  PerKind.get_modify raw kind k fun m => m.insert id payload

theorem RawData.get_remove (raw : RawData) (kind : ObjectKind) (id : String) (k : ObjectKind) :
    (raw.remove kind id).2.get k = if kind = k then (raw.get k).erase id else raw.get k :=
  PerKind.get_modify raw kind k fun m => m.erase id

theorem RawData.get?_put (raw : RawData) (kind : ObjectKind) (id payload : String) (k : ObjectKind) (id' : String) :
    ((raw.put kind id payload).get k).get? id' =
      if kind = k ∧ id = id' then some payload else (raw.get k).get? id' := by
  rw [get_put]
  by_cases hk : kind = k
  · simp only [hk, if_true, OrderedMap.get?_insert, true_and]
  · simp only [hk, if_false, false_and]

theorem RawData.get?_remove (raw : RawData) (kind : ObjectKind) (id : String) (k : ObjectKind) (id' : String) :
    ((raw.remove kind id).2.get k).get? id' = if kind = k ∧ id = id' then none else (raw.get k).get? id' := by
  rw [get_remove]
  by_cases hk : kind = k
  · simp only [hk, if_true, OrderedMap.get?_erase, true_and]
  · simp only [hk, if_false, false_and]

/-- The payload of a kind that is read here. -/
def Reading.payloadOf? (k : ObjectKind) : Reading → Option (String × String)
  | .payload kind id text => if kind = k then some (id, text) else none
  | .unreadable .. => none

theorem Source.get_foldl_putReading (k : ObjectKind) (readings : List Reading) (raw : RawData) :
    (readings.foldl putReading raw).get k =
      (readings.filterMap (Reading.payloadOf? k)).foldl (fun m e => m.insert e.1 e.2) (raw.get k) := by
  induction readings generalizing raw with
  | nil => rfl
  | cons r readings ih =>
    rw [List.foldl_cons, ih]
    cases r with
    | unreadable kind id error => rfl
    | payload kind id text =>
      rw [putReading, RawData.get_put, List.filterMap_cons, Reading.payloadOf?]
      split <;> rfl

/-- Of readings that agree on the payload of every object, each payload is in the raw data. -/
theorem Source.get?_foldl_putReading {readings : List Reading}
    (hagree : ∀ k id a b, .payload k id a ∈ readings → .payload k id b ∈ readings → a = b) (k : ObjectKind)
    (id text : String) :
    ((readings.foldl putReading ∅).get k).get? id = some text ↔ .payload k id text ∈ readings := by
  induction readings using List.reverseRecOn with
  | nil => simp [PerKind.get_empty]
  | append_singleton readings r ih =>
    have hbefore := ih fun k id a b ha hb =>
      hagree k id a b (List.mem_append_left _ ha) (List.mem_append_left _ hb)
    rw [List.foldl_append, List.foldl_cons, List.foldl_nil, List.mem_append, List.mem_singleton, ← hbefore]
    cases r with
    | unreadable k' id' e => simp [putReading]
    | payload k' id' text' =>
      rw [putReading, RawData.get?_put]
      split
      · next hplace =>
        obtain ⟨rfl, rfl⟩ := hplace
        have hlast : Reading.payload k' id' text' ∈ readings ++ [.payload k' id' text'] :=
          List.mem_append_right _ (List.mem_singleton_self _)
        constructor
        · rintro ⟨⟩
          exact .inr rfl
        · rintro (hin | hsame)
          · rw [hagree k' id' text text' (List.mem_append_left _ (hbefore.1 hin)) hlast]
          · rw [(Reading.payload.inj hsame).2.2]
      · next hplace =>
        refine ⟨.inl, fun hin => hin.resolve_right ?_⟩
        rintro ⟨⟩
        exact hplace ⟨rfl, rfl⟩

/-- The readings of payloads that are listed by kind. -/
def Reading.ofPayloads (f : ObjectKind → List (String × String)) : List Reading :=
  ObjectKind.all.flatMap fun k => (f k).map fun e => .payload k e.1 e.2

theorem Reading.filterMap_ofPayloads (f : ObjectKind → List (String × String)) (j : ObjectKind) :
    (ofPayloads f).filterMap (payloadOf? j) = f j := by
  have hpiece : ∀ k, ((f k).map fun e => Reading.payload k e.1 e.2).filterMap (payloadOf? j) =
      if k = j then f k else [] := by
    intro k
    rw [List.filterMap_map]
    split
    · next h =>
      subst h
      have hsome : (payloadOf? k ∘ fun e : String × String => payload k e.1 e.2) = some :=
        funext fun e => if_pos rfl
      rw [hsome, List.filterMap_some]
    · next h => exact List.filterMap_eq_nil_iff.2 fun e _ => if_neg h
  cases j <;> simp [ofPayloads, ObjectKind.all, hpiece]

/-- What is read of a kind, if its payloads have different ids. -/
theorem Source.entries_payloads {source : Source} {f : ObjectKind → List (String × String)}
    (hs : source.readings = .ok (Reading.ofPayloads f)) {k : ObjectKind} (hnd : ((f k).map Prod.fst).Nodup) :
    (source.payloads.get k).entries = f k := by
  have hget := get_foldl_putReading k (Reading.ofPayloads f) ∅
  rw [Reading.filterMap_ofPayloads, PerKind.get_empty] at hget
  rw [payloads, hs]
  show ((Reading.ofPayloads f).foldl putReading ∅ |>.get k).entries = f k
  rw [hget]
  exact OrderedMap.entries_ofList hnd

theorem Source.unreadable_ofPayloads {source : Source} {f : ObjectKind → List (String × String)}
    (hs : source.readings = .ok (Reading.ofPayloads f)) : source.unreadable = .ok [] := by
  rw [unreadable, hs]
  refine congrArg Except.ok (List.filterMap_eq_nil_iff.2 fun r hr => ?_)
  obtain ⟨k, -, hr⟩ := List.mem_flatMap.1 hr
  obtain ⟨e, -, rfl⟩ := List.mem_map.1 hr
  rfl

/-- A store in memory is read as it is. -/
theorem MemoryStore.payloads_source (s : MemoryStore) : s.source.payloads = s.data := by
  have hreadings : s.source.readings = .ok (Reading.ofPayloads fun k => (s.data.get k).entries) := rfl
  exact PerKind.ext_get fun k => OrderedMap.ext (Source.entries_payloads hreadings (s.data.get k).nodup)

end ManagementPlane
