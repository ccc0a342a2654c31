import ManagementPlane.Proofs.Records
import ManagementPlane.Store.File

/-!
# Envelopes open as they were closed

The contents of a file that a store wrote are accepted as an envelope, and the payload in it is the compact text of
the sorted value that was put there.

* `Envelope.decode?_encode` : an envelope is read from its contents, if it was made of a sorted value;
* `Envelope.payload_encode` : the payload that a store shows of it.
-/

namespace ManagementPlane.Envelope

open Json (Value Tree Record depthLimit)

/-- The fields of an envelope. -/
def fields (e : Envelope) : List (String × Value) :=
  match e.toValue with
  | .object fields => fields
  | _ => []

theorem keys_fields (e : Envelope) : e.fields.map Prod.fst = fieldNames := rfl

variable {e : Envelope} (hversion : e.version < 65536) (hint : e.memento.isIntegral = true)

include hversion hint

/-- An envelope is read from its contents as it was, with its payload sorted. -/
theorem decode?_encode (hnow : Text.isTimestamp e.writtenAt = true) (hnest : e.memento.nesting ≤ depthLimit - 1) :
    decode? (Text.bytesOf e.encode) = some { e with memento := e.memento.sorted } := by
  have hnd : (e.fields.map Prod.fst).Nodup := by
    rw [keys_fields]
    decide
  obtain ⟨r, hr, h⟩ := Value.exists_record?_tree fieldNames hnd
  have hparse : Tree.parse? e.encode = some (Value.object e.fields).tree :=
    Value.parse?_pretty e.toValue
  have hver : r.required? "version" version? = some e.version := by
    have hfield : Value.field e.fields "version" = some (.number (.int e.version)) := by simp [fields, toValue]
    have hread : (Decimal.Numeral.ofInt e.version).integer? = some (e.version : Int) :=
      Decimal.Numeral.integer?_ofInt (by omega) (by omega)
    rw [Record.required?, h _ (by decide), hfield]
    show version? (.number (Json.Number.int e.version).numeral) = _
    rw [Json.Number.numeral_int, version?, hread, Option.bind_some, if_pos (by omega), Int.toNat_natCast]
  have hwritten : r.required? "written_at" writtenAt? = some e.writtenAt := by
    have hfield : Value.field e.fields "written_at" = some (.string e.writtenAt) := by simp [fields, toValue]
    rw [Record.required?, h _ (by decide), hfield]
    show (some e.writtenAt).filter Text.isTimestamp = _
    rw [Option.filter_some, if_pos hnow]
  have hhash : r.required? "hash" Tree.text? = some e.hash := by
    have hfield : Value.field e.fields "hash" = some (.string e.hash) := by simp [fields, toValue]
    rw [Record.required?, h _ (by decide), hfield]
    rfl
  have hmemento : r.required? "memento" (Tree.value? (depthLimit - 1)) = some e.memento.sorted := by
    have hfield : Value.field e.fields "memento" = some e.memento := by simp [fields, toValue]
    rw [Record.required?, h _ (by decide), hfield]
    exact Value.value?_tree hint hnest
  simp only [decode?, Tree.ofBytes?_bytesOf, hparse, hr, ofRecord?, hver, hwritten, hhash, hmemento, Option.bind_eq_bind,
    Option.bind_some]

omit hversion hint in
/-- What a store shows of a file that it wrote. -/
theorem payload_encode {now : String} (hnow : Text.isTimestamp now = true) {v : Value}
    (hint : v.isIntegral = true) (hnest : v.nesting ≤ depthLimit - 1) (kind : ObjectKind) (id : String) :
    payload kind id (Text.bytesOf (Envelope.of now v.sorted).encode) = .ok v.sorted.compact := by
  have hdecode := decode?_encode (e := Envelope.of now v.sorted) (by decide : currentVersion < 65536)
    (Value.isIntegral_sorted hint) hnow (Nat.le_trans (Value.nesting_sorted_le v) hnest)
  have hsame : (Envelope.of now v.sorted).memento.sorted = v.sorted := Value.sorted_sorted v
  rw [payload, hdecode]
  dsimp only
  rw [hsame]
  exact if_pos rfl

end ManagementPlane.Envelope
