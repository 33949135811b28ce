import Hysj.Ratchet.Calls
import Hysj.Ratchet.Wire

set_option autoImplicit false

/- Ratchet states as JSON. -/
namespace Hysj.Ratchet

open Crypto

/-- An index of the store as an array of two. -/
def indexToJson (index : String × UInt32) : Json.Value :=
  .arr [.str index.1, Serde.word index.2]

def indexOfJson : Json.Value → Option (String × UInt32)
  | .arr [hex, n] => do some (← Serde.readStr hex, ← Serde.readWord n)
  | _ => none

namespace SkippedKeys

abbrev ByteStore := SkippedKeys (String × UInt32) (ByteArr 32)

/-- `serde_json` writes the keys of a map as member names and refuses a key that is not a
string, number, bool or char. Every key of this map is a pair, so one entry is enough
for the error. -/
def keysToJson (store : ByteStore) : Option Json.Value :=
  if store.isEmpty then some (.obj []) else none

/-- Reading is as strict: a member name is no pair. -/
def keysOfJson : Json.Value → Option (Finmap fun _ : String × UInt32 => ByteArr 32)
  | .obj [] => some ∅
  | _ => none

def toJson (store : ByteStore) : Option Json.Value := do
  some (.obj
    [("keys", ← store.keysToJson),
      ("insertion_order", .arr (store.insertionOrder.map indexToJson))])

def ofJson (value : Json.Value) : Option ByteStore := do
  match ← Serde.fields ["keys", "insertion_order"] value with
  | [keys, insertionOrder] =>
      some
        { keys := ← Serde.required keysOfJson keys
          insertionOrder := ← Serde.required (Serde.readArr indexOfJson) insertionOrder }
  | _ => none

end SkippedKeys

namespace RatchetState

def toJson (s : ByteState) : Option Json.Value := do
  some (.obj
    [("root_key", Serde.bytes s.rootKey),
      ("sending_chain_key", Serde.optional Serde.bytes s.sendingChainKey),
      ("receiving_chain_key", Serde.optional Serde.bytes s.receivingChainKey),
      ("dh_send_secret", Serde.bytes s.dhSendSecret),
      ("dh_send_public", Serde.bytes s.dhSendPublic),
      ("dh_receive_public", Serde.optional Serde.bytes s.dhReceivePublic),
      ("send_message_number", Serde.word s.sendMessageNumber),
      ("recv_message_number", Serde.word s.recvMessageNumber),
      ("previous_sending_chain_length", Serde.word s.previousSendingChainLength),
      ("skipped_keys", ← s.skippedKeys.toJson)])

def ofJson (value : Json.Value) : Option ByteState := do
  match ← Serde.fields ["root_key", "sending_chain_key", "receiving_chain_key",
      "dh_send_secret", "dh_send_public", "dh_receive_public", "send_message_number",
      "recv_message_number", "previous_sending_chain_length", "skipped_keys"] value with
  | [rootKey, sendingChainKey, receivingChainKey, dhSendSecret, dhSendPublic, dhReceivePublic,
      sendMessageNumber, recvMessageNumber, previousSendingChainLength, skippedKeys] =>
      some
        { rootKey := ← Serde.required Serde.readBytes rootKey
          sendingChainKey := ← Serde.readOptional Serde.readBytes sendingChainKey
          receivingChainKey := ← Serde.readOptional Serde.readBytes receivingChainKey
          dhSendSecret := ← Serde.required Serde.readBytes dhSendSecret
          dhSendPublic := ← Serde.required Serde.readBytes dhSendPublic
          dhReceivePublic := ← Serde.readOptional Serde.readBytes dhReceivePublic
          sendMessageNumber := ← Serde.required Serde.readWord sendMessageNumber
          recvMessageNumber := ← Serde.required Serde.readWord recvMessageNumber
          previousSendingChainLength :=
            ← Serde.required Serde.readWord previousSendingChainLength
          skippedKeys := ← Serde.required SkippedKeys.ofJson skippedKeys }
  | _ => none

/-- Serialize the ratchet state to JSON bytes; `none` is the panic of its `expect`. -/
def serialize (s : ByteState) : Option Bytes := (toJson s).map Json.toVec

end RatchetState

/-- What the ratchet writes is read back as the value it was written from. -/
structure ReadsBack (serde : SerdeJson) : Prop where
  state : ∀ s value, RatchetState.toJson s = some value →
    serde.fromSlice (Json.toVec value) = .ok value
  header : ∀ header : MessageHeader Bytes, serde.fromSlice header.toBytes = .ok header.toJson

theorem sample_readsBack : ReadsBack .sample where
  state _ value _ := SerdeJson.sample_fromSlice value
  header header := SerdeJson.sample_fromSlice header.toJson

/-- Deserialize ratchet state from JSON bytes. -/
def RatchetState.deserialize (serde : SerdeJson) (data : Bytes) : Except CryptoError ByteState :=
  match serde.fromSlice data with
  | .error text => .error (.deserializationError text)
  | .ok value =>
      match ofJson value with
      | none => .error (.deserializationError (serde.mismatch data))
      | some s => .ok s

theorem indexOfJson_indexToJson (index : String × UInt32) :
    indexOfJson (indexToJson index) = some index := by
  simp only [indexToJson, indexOfJson, Serde.readStr, Serde.readWord_word, Option.bind_eq_bind,
    Option.bind_some]

theorem SkippedKeys.isEmpty_iff (store : ByteStore) : store.isEmpty = true ↔ store.keys = ∅ := by
  simp only [isEmpty, len, decide_eq_true_eq, Finset.card_eq_zero]
  constructor
  · intro none_left
    apply Finmap.ext_lookup
    intro index
    rw [Finmap.lookup_empty, Finmap.lookup_eq_none, ← Finmap.mem_keys, none_left]
    exact Finset.notMem_empty index
  · intro empty
    rw [empty]
    rfl

/-- A store without keys is written and read back, whatever its insertion order. -/
theorem SkippedKeys.ofJson_toJson {store : ByteStore} (empty : store.isEmpty = true) :
    ∃ value, store.toJson = some value ∧ ofJson value = some store := by
  refine ⟨_, by rw [toJson, keysToJson, if_pos empty]; rfl, ?_⟩
  have found (keys order : Json.Value) : Serde.fields ["keys", "insertion_order"]
      (.obj [("keys", keys), ("insertion_order", order)]) = some [some keys, some order] := by
    simp [Serde.fields]
  have order := Serde.readArr_map indexOfJson_indexToJson store.insertionOrder
  rw [ofJson, found]
  simp only [Option.bind_eq_bind, Option.bind_some, Serde.required, keysOfJson, order,
    Option.some.injEq]
  exact SkippedKeys.ext ((SkippedKeys.isEmpty_iff store).mp empty).symm rfl

theorem RatchetState.serialize_none_iff (s : ByteState) :
    s.serialize = none ↔ s.skippedKeys.isEmpty = false := by
  cases empty : s.skippedKeys.isEmpty with
  | true => simp [serialize, toJson, SkippedKeys.toJson, SkippedKeys.keysToJson, empty]
  | false => simp [serialize, toJson, SkippedKeys.toJson, SkippedKeys.keysToJson, empty]

theorem RatchetState.ofJson_toJson {s : ByteState} (empty : s.skippedKeys.isEmpty = true) :
    ∃ value, toJson s = some value ∧ ofJson value = some s := by
  obtain ⟨store, written, read⟩ := SkippedKeys.ofJson_toJson empty
  refine ⟨_, by rw [toJson, written]; rfl, ?_⟩
  have found (a b c d e f g h i j : Json.Value) : Serde.fields ["root_key", "sending_chain_key",
      "receiving_chain_key", "dh_send_secret", "dh_send_public", "dh_receive_public",
      "send_message_number", "recv_message_number", "previous_sending_chain_length",
      "skipped_keys"] (.obj [("root_key", a), ("sending_chain_key", b),
        ("receiving_chain_key", c), ("dh_send_secret", d), ("dh_send_public", e),
        ("dh_receive_public", f), ("send_message_number", g), ("recv_message_number", h),
        ("previous_sending_chain_length", i), ("skipped_keys", j)]) =
      some [some a, some b, some c, some d, some e, some f, some g, some h, some i, some j] := by
    simp [Serde.fields]
  have storeField : Serde.required SkippedKeys.ofJson (some store) = some s.skippedKeys := by
    rw [Serde.required, Option.bind_some, read]
  rw [ofJson, found]
  simp only [Option.bind_eq_bind, Option.bind_some, Serde.required_bytes, Serde.required_word,
    Serde.readOptional_bytes, storeField]

/-- A state is written and read back unchanged exactly when its store holds no key. -/
theorem RatchetState.deserialize_serialize_iff {serde : SerdeJson} (reads : ReadsBack serde)
    (s : ByteState) :
    (∃ data, s.serialize = some data ∧ deserialize serde data = .ok s) ↔
      s.skippedKeys.isEmpty = true := by
  constructor
  · rintro ⟨data, written, -⟩
    cases empty : s.skippedKeys.isEmpty with
    | true => rfl
    | false =>
        rw [(serialize_none_iff s).mpr empty] at written
        cases written
  · intro empty
    obtain ⟨value, written, read⟩ := ofJson_toJson empty
    refine ⟨Json.toVec value, by rw [serialize, written, Option.map_some], ?_⟩
    simp only [deserialize, reads.state s value written, read]

end Hysj.Ratchet
