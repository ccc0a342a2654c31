import ManagementPlane.Proofs.Decoded
import ManagementPlane.Proofs.Records

/-!
# Readings that take fewer fields

* `Record.only` : a record without the fields that a reading does not declare;
* `Record.ofFields?_only` : an object that can be read for some fields can be read for fewer of them, with the same result;
* `Json.IsObject` : a text that is a JSON object;
* `Memento.summary`, `Memento.probe` : what is read of an entity and of a location before the full memento;
* `EntitySummary.decode?_eq_summary`, `LocationProbe.decode?_eq_probe` : they can be read wherever the memento can;
* `Source.HoldsObjects` : a store of JSON objects; whatever is a memento of it has been seen in its manifest.
-/

namespace ManagementPlane

variable {α : Type}

namespace Json

/-! ## Objects read for fewer fields -/

namespace Record

variable {names fewer : List String} {r : Record} {name : String}

/-- The fields of a record that are among the given names. -/
def only (names : List String) (r : Record) : Record := r.filter fun f => f.1 ∈ names

theorem only_cons (names : List String) (k : String) (t : Tree) (r : Record) :
    only names ((k, t) :: r) = if k ∈ names then (k, t) :: r.only names else r.only names := by
  simp [only, List.filter_cons]

theorem get?_only (hname : name ∈ names) : (r.only names).get? name = r.get? name := by
  unfold get? only
  rw [List.find?_filter]
  congr 2
  funext f
  by_cases hf : f.1 = name <;> simp [hf, hname]

/-- A reading of fewer fields passes over the others: it takes no offence at a field that it does not declare, and what
the reading of more fields has found there once is there once. -/
theorem ofFields?_only (hsub : fewer ⊆ names) {fields : List (Option String × Tree)}
    (hr : ofFields? names fields = some r) : ofFields? fewer fields = some (r.only fewer) := by
  induction fields generalizing r with
  | nil =>
    rw [ofFields?, Option.some.injEq] at hr
    exact hr ▸ rfl
  | cons e fields ih =>
    obtain ⟨k, t⟩ := e
    rw [ofFields?] at hr
    obtain ⟨k, rfl, hk⟩ := Option.bind_eq_some_iff.1 hr
    obtain ⟨rest, hrest, hr⟩ := Option.bind_eq_some_iff.1 hk
    have hfewer := ih hrest
    rw [ofFields?, hfewer]
    simp only [Option.bind_eq_bind, Option.bind_some]
    by_cases hk : k ∈ names
    · rw [if_pos hk] at hr
      by_cases hnew : k ∈ rest.map Prod.fst
      · rw [if_pos hnew] at hr
        cases hr
      · rw [if_neg hnew, Option.some.injEq] at hr
        have honly : k ∉ (rest.only fewer).map Prod.fst := fun hmem => by
          obtain ⟨f, hf, rfl⟩ := List.mem_map.1 hmem
          exact hnew (List.mem_map_of_mem (List.mem_filter.1 hf).1)
        subst hr
        by_cases hkf : k ∈ fewer
        · rw [only_cons, if_pos hkf, if_pos hkf, if_neg honly]
        · rw [only_cons, if_neg hkf, if_neg hkf]
    · rw [if_neg hk, Option.some.injEq] at hr
      rw [if_neg fun hkf => hk (hsub hkf), hr]

variable {read : Tree → Option α}

theorem required?_only (hname : name ∈ names) : (r.only names).required? name read = r.required? name read := by
  rw [required?, required?, get?_only hname]

theorem optional?_only (hname : name ∈ names) : (r.only names).optional? name = r.optional? name := by
  rw [optional?, optional?, default?, default?, get?_only hname]

end Record

/-- The text is a JSON object. -/
def IsObject (text : String) : Prop := ∃ fields, Tree.parse? text = some (.object fields)

instance (text : String) : Decidable (IsObject text) :=
  match h : Tree.parse? text with
  | some (.object fields) => isTrue ⟨fields, h⟩
  | some .null | some (.bool _) | some (.number _) | some (.string _) | some (.array _) | none =>
    isFalse fun ⟨_, hobject⟩ => nomatch h.symm.trans hobject

end Json

open Json (Tree Record IsObject)

/-! ## Mementos read in part -/

/-- What is read of an entity before its memento. -/
def Memento.summary (m : Memento) : EntitySummary where
  id := m.id
  type := m.type
  catalogItemId := m.catalogItemId
  parent := m.parent

/-- What is read of a location before its memento. -/
def Memento.probe (m : Memento) : LocationProbe := { id := m.id, type := m.type }

section Payloads
variable {payload : String} {m : Memento}

theorem exists_record_of_decode? (ho : IsObject payload) (hm : Memento.decode? payload = some m) : ∃ fields r,
    Tree.parse? payload = some (.object fields) ∧ Record.ofFields? Memento.fieldNames fields = some r ∧
      Memento.ofRecord? r = some m := by
  obtain ⟨fields, hparse⟩ := ho
  obtain ⟨t, ht, hm⟩ := Option.bind_eq_some_iff.1 hm
  obtain rfl := Option.some.inj (hparse.symm.trans ht)
  obtain ⟨r, hr, hm⟩ := Option.bind_eq_some_iff.1 hm
  exact ⟨fields, r, hparse, hr, hm⟩

/-- The fields that are read of a memento first are the fields of the record. -/
theorem Memento.fields_of_ofRecord? {r : Record} (h : ofRecord? r = some m) :
    r.required? "id" Tree.text? = some m.id ∧ r.required? "type" Tree.text? = some m.type ∧
      r.optional? "catalogItemId" = some m.catalogItemId ∧ r.optional? "parent" = some m.parent := by
  unfold ofRecord? at h
  obtain ⟨id, hid, h⟩ := Option.bind_eq_some_iff.1 h
  obtain ⟨type, htype, h⟩ := Option.bind_eq_some_iff.1 h
  obtain ⟨item, hitem, h⟩ := Option.bind_eq_some_iff.1 h
  obtain ⟨_, -, h⟩ := Option.bind_eq_some_iff.1 h
  obtain ⟨parent, hparent, h⟩ := Option.bind_eq_some_iff.1 h
  -- the other fields can be read as well
  iterate 8 obtain ⟨_, -, h⟩ := Option.bind_eq_some_iff.1 h
  obtain rfl := Option.some.inj h
  exact ⟨hid, htype, hitem, hparent⟩

/-- An object that can be read as a memento can be read as the summary of an entity. -/
theorem EntitySummary.decode?_eq_summary (ho : IsObject payload) (hm : Memento.decode? payload = some m) :
    EntitySummary.decode? payload = some m.summary := by
  obtain ⟨fields, r, hparse, hr, hm⟩ := exists_record_of_decode? ho hm
  obtain ⟨hid, htype, hitem, hparent⟩ := Memento.fields_of_ofRecord? hm
  have hfewer : Record.ofFields? fieldNames fields = some (r.only fieldNames) := Record.ofFields?_only (by decide) hr
  have hrecord : ofRecord? (r.only fieldNames) = some m.summary := by
    unfold ofRecord?
    rw [Record.required?_only (by decide), Record.required?_only (by decide), Record.optional?_only (by decide),
      Record.optional?_only (by decide), hid, htype, hitem, hparent]
    rfl
  unfold decode? ofTree? Tree.record?
  rw [hparse]
  simp only [Option.bind_eq_bind, Option.bind_some, hfewer, hrecord]

/-- An object that can be read as a memento can be read as the probe of a location. -/
theorem LocationProbe.decode?_eq_probe (ho : IsObject payload) (hm : Memento.decode? payload = some m) :
    LocationProbe.decode? payload = some m.probe := by
  obtain ⟨fields, r, hparse, hr, hm⟩ := exists_record_of_decode? ho hm
  obtain ⟨hid, htype, -, -⟩ := Memento.fields_of_ofRecord? hm
  have hfewer : Record.ofFields? fieldNames fields = some (r.only fieldNames) := Record.ofFields?_only (by decide) hr
  have hrecord : ofRecord? (r.only fieldNames) = some m.probe := by
    unfold ofRecord?
    rw [Record.required?_only (by decide), Record.required?_only (by decide), hid, htype]
    rfl
  unfold decode? ofTree? Tree.record?
  rw [hparse]
  simp only [Option.bind_eq_bind, Option.bind_some, hfewer, hrecord]

end Payloads

/-! ## Stores -/

/-- All payloads of the store are JSON objects. -/
def Source.HoldsObjects (source : Source) : Prop :=
  ∀ k id text, (source.payloads.get k).get? id = some text → IsObject text

namespace Source

variable {source : Source} {id : String} {m : Memento}

theorem HoldsObjects.of_entries (h : ∀ k ∈ ObjectKind.all, ∀ e ∈ (source.payloads.get k).entries, IsObject e.2) :
    source.HoldsObjects := fun k id text hget =>
  h k (ObjectKind.mem_all k) (id, text) (OrderedMap.get?_eq_some_iff.1 hget)

/-- An entity whose memento can be read has been seen in the manifest. -/
theorem HoldsObjects.get?_entities (hs : source.HoldsObjects) (hm : source.snapshot.entities.get? id = some m) :
    source.payloads.manifest.entities.get? id = some m.summary := by
  obtain ⟨text, hget, hread, hid⟩ := get?_decodeTable.1 hm
  exact get?_decodeTable.2
    ⟨text, hget, EntitySummary.decode?_eq_summary (hs .entity id text hget) hread, hid⟩

/-- A location whose memento can be read has been seen in the manifest. -/
theorem HoldsObjects.get?_locationTypes (hs : source.HoldsObjects) (hm : source.snapshot.locations.get? id = some m) :
    source.payloads.manifest.locationTypes.get? id = some m.type := by
  obtain ⟨text, hget, hread, hid⟩ := get?_decodeTable.1 hm
  have hprobe := LocationProbe.decode?_eq_probe (hs .location id text hget) hread
  have hseen : (decodeTable LocationProbe.decode? LocationProbe.id .location source.payloads.location).get? id =
      some m.probe := get?_decodeTable.2 ⟨text, hget, hprobe, hid⟩
  rw [OrderedMap.get?_eq_some_iff] at hseen ⊢
  exact List.mem_map.2 ⟨(id, m.probe), hseen, rfl⟩

end Source

end ManagementPlane
