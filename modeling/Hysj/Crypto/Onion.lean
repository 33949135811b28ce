import Hysj.Base.Result
import Hysj.Base.Serde
import Hysj.Crypto.Primitives

set_option autoImplicit false

namespace Hysj.Crypto

/-- A relay node in the onion route. `β` is `Vec<u8>`. -/
structure RelayNode (β : Type) where
  address : String
  publicKey : β
  deriving DecidableEq

/-- A peeled onion layer, revealing the next hop and inner payload. -/
structure OnionLayer (β : Type) where
  nextHop : String
  payload : β
  deriving DecidableEq

/-- What the onion functions call outside their own file, on `Vec<u8>` (`β`), `[u8; 32]` (`κ`) and
nonces (`ν`), so that one transcription runs on bytes and on symbolic terms. -/
structure OnionOps (β κ ν : Type) where
  length : β → Nat
  /-- `copy_from_slice` behind the check of the length, which is `none` -/
  toKey : β → Option κ
  publicKey : κ → κ
  diffieHellman : κ → κ → κ
  /-- `hkdf_derive(dh, b"", b"hysj-onion-layer", 32)` -/
  layerKey : κ → κ
  /-- `serde_json::to_vec` -/
  layerToVec : OnionLayer β → β
  /-- `serde_json::from_slice`, with the text of the error -/
  layerFromSlice : β → Except String (OnionLayer β)
  cipherEncrypt : ν → β → κ → Except CryptoError β
  cipherDecrypt : β → κ → Except CryptoError β
  /-- `ephemeral_public || encrypted_layer` -/
  join : κ → β → β
  /-- `packet.split_at(32)` behind the check of the length, which is `none` -/
  splitAt : β → Option (κ × β)

namespace Onion

variable {β κ ν : Type} (ops : OnionOps β κ ν)

/-- The address of the next node, or "FINAL" for the innermost layer. The index is only used when
there is a next node. -/
def nextHop (route : List (RelayNode β)) (i : Nat) : String :=
  if i = route.length - 1 then "FINAL"
  else ((route[i + 1]?).map RelayNode.address).getD ""

/-- The steps 1 to 6 for one node. `draw` is the ephemeral secret and the nonce. -/
def sealLayer (draw : κ × ν) (hop : String) (currentPacket : β) (node : RelayNode β) :
    Except CryptoError β :=
  match ops.toKey node.publicKey with
  | none => .error (.invalidKeyLength 32 (ops.length node.publicKey))
  | some nodePublic =>
      let dhShared := ops.diffieHellman draw.1 nodePublic
      let key := ops.layerKey dhShared
      match ops.cipherEncrypt draw.2 (ops.layerToVec ⟨hop, currentPacket⟩) key with
      | .error e => .error e
      | .ok encryptedLayer => .ok (ops.join (ops.publicKey draw.1) encryptedLayer)

/-- Wrap a payload in multiple layers of onion encryption, from inside out. `draws i` is what is
drawn for the node at index `i`. -/
def wrapOnion (draws : Nat → κ × ν) (payload : β) (route : List (RelayNode β)) :
    Except CryptoError β :=
  if route.isEmpty then .error (.onionError "route must have at least one node")
  else
    route.zipIdx.reverse.foldlM
      (fun currentPacket node =>
        sealLayer ops (draws node.2) (nextHop route node.2) currentPacket node.1)
      payload

/-- Unwrap one layer of onion encryption. -/
def unwrapLayer (packet mySecret : β) : Except CryptoError (OnionLayer β) :=
  match ops.splitAt packet with
  | none => .error (.onionError "packet too short")
  | some (ephemeralPublic, encryptedLayer) =>
      match ops.toKey mySecret with
      | none => .error (.invalidKeyLength 32 (ops.length mySecret))
      | some myStaticSecret =>
          let dhShared := ops.diffieHellman myStaticSecret ephemeralPublic
          let key := ops.layerKey dhShared
          match ops.cipherDecrypt encryptedLayer key with
          | .error e => .error e
          | .ok layerBytes =>
              match ops.layerFromSlice layerBytes with
              | .error text => .error (.deserializationError text)
              | .ok layer => .ok layer

/-- The address that a layer around these nodes names. -/
def hopTo : List (RelayNode β) → String
  | [] => "FINAL"
  | next :: _ => next.address

/-- The packet for the last nodes of a route, the first of them at index `i`. -/
def wrapFrom (draws : Nat → κ × ν) (payload : β) : List (RelayNode β) → Nat → Except CryptoError β
  | [], _ => .ok payload
  | node :: rest, i => do
      let inner ← wrapFrom draws payload rest (i + 1)
      sealLayer ops (draws i) (hopTo rest) inner node

variable {ops}

theorem nextHop_append (before rest : List (RelayNode β)) (node : RelayNode β) :
    nextHop (before ++ node :: rest) before.length = hopTo rest := by
  unfold nextHop
  cases rest with
  | nil => simp [hopTo]
  | cons next rest =>
      have inside : ¬ before.length = (before ++ node :: next :: rest).length - 1 := by
        simp only [List.length_append, List.length_cons]
        omega
      rw [if_neg inside, List.getElem?_append_right (by omega)]
      simp [hopTo]

/-- The loop over the last nodes of a route makes their packet. -/
theorem foldlM_eq_wrapFrom (draws : Nat → κ × ν) (payload : β) (before rest : List (RelayNode β)) :
    (rest.zipIdx before.length).reverse.foldlM
    (fun currentPacket node => sealLayer ops (draws node.2)
        (nextHop (before ++ rest) node.2) currentPacket node.1) payload =
      wrapFrom ops draws payload rest before.length := by
  induction rest generalizing before with
  | nil => rfl
  | cons node rest ih =>
      have later := ih (before ++ [node])
      rw [List.length_append, List.length_singleton, List.append_assoc,
        List.singleton_append] at later
      rw [List.zipIdx_cons, List.reverse_cons, List.foldlM_append, later, wrapFrom]
      congr 1
      funext inner
      rw [List.foldlM_cons]
      show (sealLayer ops (draws before.length)
          (nextHop (before ++ node :: rest) before.length) inner
        node >>= pure) = _
      rw [bind_pure, nextHop_append]

theorem wrapOnion_eq (draws : Nat → κ × ν) (payload : β) {route : List (RelayNode β)}
    (nodes : route ≠ []) :
    wrapOnion ops draws payload route = wrapFrom ops draws payload route 0 := by
  have some : route.isEmpty = false := by simpa using nodes
  rw [wrapOnion, some]
  exact foldlM_eq_wrapFrom draws payload [] route

/-- What the cryptography and `serde_json` have to do for a layer to be read back. -/
structure Lawful (ops : OnionOps β κ ν) (toVec : κ → β) : Prop where
  toKey_toVec : ∀ key, ops.toKey (toVec key) = some key
  commutes : ∀ a b, ops.diffieHellman a (ops.publicKey b) = ops.diffieHellman b (ops.publicKey a)
  opens : ∀ nonce msg key sealed,
    ops.cipherEncrypt nonce msg key = .ok sealed → ops.cipherDecrypt sealed key = .ok msg
  splits : ∀ nonce msg key sealed publicKey,
    ops.cipherEncrypt nonce msg key = .ok sealed → ops.splitAt (ops.join publicKey sealed) =
      some (publicKey, sealed)
  reads : ∀ layer, ops.layerFromSlice (ops.layerToVec layer) = .ok layer

theorem sealLayer_eq_ok {draw : κ × ν} {hop : String} {inner packet : β} {node : RelayNode β} :
    sealLayer ops draw hop inner node = .ok packet ↔ ∃ nodePublic encryptedLayer,
      ops.toKey node.publicKey = some nodePublic ∧
      ops.cipherEncrypt draw.2 (ops.layerToVec ⟨hop, inner⟩)
        (ops.layerKey (ops.diffieHellman draw.1 nodePublic)) = .ok encryptedLayer ∧
      packet = ops.join (ops.publicKey draw.1) encryptedLayer := by
  unfold sealLayer
  cases ops.toKey node.publicKey with
  | none => simp
  | some nodePublic =>
      cases sealed : ops.cipherEncrypt draw.2 (ops.layerToVec ⟨hop, inner⟩)
          (ops.layerKey (ops.diffieHellman draw.1 nodePublic)) with
      | error e => simp [sealed]
      | ok encryptedLayer => simp [sealed, eq_comm]

theorem unwrapLayer_sealLayer {toVec : κ → β} (lawful : Lawful ops toVec)
    {draw : κ × ν} {hop : String}
    {inner packet : β} {node : RelayNode β} {secret : κ}
    (own : node.publicKey = toVec (ops.publicKey secret))
    (sealed : sealLayer ops draw hop inner node = .ok packet) :
    unwrapLayer ops packet (toVec secret) = .ok ⟨hop, inner⟩ := by
  obtain ⟨nodePublic, encryptedLayer, decoded, encrypted, rfl⟩ := sealLayer_eq_ok.mp sealed
  rw [own, lawful.toKey_toVec] at decoded
  obtain rfl := Option.some.inj decoded
  have split := lawful.splits _ _ _ _ (ops.publicKey draw.1) encrypted
  have key := lawful.commutes secret draw.1
  simp only [unwrapLayer, split, lawful.toKey_toVec, key,
    lawful.opens _ _ _ _ encrypted, lawful.reads]

end Onion

namespace OnionLayer

def toJson (layer : OnionLayer Bytes) : Json.Value :=
  .obj [("next_hop", .str layer.nextHop), ("payload", Serde.bytes layer.payload)]

def ofJson (value : Json.Value) : Option (OnionLayer Bytes) := do
  match ← Serde.fields ["next_hop", "payload"] value with
  | [nextHop, payload] =>
      some
        { nextHop := ← Serde.required Serde.readStr nextHop
          payload := ← Serde.required Serde.readBytes payload }
  | _ => none

theorem ofJson_toJson (layer : OnionLayer Bytes) : ofJson layer.toJson = some layer := by
  have found (a b : Json.Value) : Serde.fields ["next_hop", "payload"]
      (.obj [("next_hop", a), ("payload", b)]) = some [some a, some b] := by
    simp [Serde.fields]
  have nextHop :
      Serde.required Serde.readStr (some (.str layer.nextHop)) = some layer.nextHop := rfl
  rw [ofJson, toJson, found]
  simp only [Option.bind_eq_bind, Option.bind_some, Serde.required_bytes, nextHop]

end OnionLayer

namespace Onion

theorem length_ephemeral {packet : Bytes} (long : ¬ packet.length < 32 + 24 + 16) :
    (packet.take 32).length = 32 := by
  simp only [List.length_take]
  omega

variable (p : Primitives) (serde : SerdeJson)

def onionOps : OnionOps Bytes (ByteArr 32) (ByteArr 24) where
  length := List.length
  toKey := tryInto 32
  publicKey := p.x25519Public
  diffieHellman := p.x25519
  layerKey dhShared := Kdf.hkdfDerive p dhShared.toList [] (strBytes "hysj-onion-layer") 32
  layerToVec layer := Json.toVec layer.toJson
  layerFromSlice layerBytes :=
    match serde.fromSlice layerBytes with
    | .error text => .error text
    | .ok value =>
        match OnionLayer.ofJson value with
        | none => .error (serde.mismatch layerBytes)
        | some layer => .ok layer
  cipherEncrypt nonce layerBytes key := Cipher.encrypt p nonce layerBytes key []
  cipherDecrypt encryptedLayer key := Cipher.decrypt p encryptedLayer key []
  join ephemeralPublic encryptedLayer := ephemeralPublic.toList ++ encryptedLayer
  splitAt packet :=
    if short : packet.length < 32 + 24 + 16 then none
    else some (⟨packet.take 32, length_ephemeral short⟩, packet.drop 32)

/-- `serde_json` reads back the layers that `wrap_onion` writes. -/
def ReadsBack : Prop :=
  ∀ layer : OnionLayer Bytes, serde.fromSlice (Json.toVec layer.toJson) = .ok layer.toJson

variable {p serde}

theorem lawful_onionOps (commutes : DhCommutes p) (aead : AeadOpens p) (reads : ReadsBack serde) :
    Lawful (onionOps p serde) List.Vector.toList where
  toKey_toVec := tryInto_toList 32
  commutes := commutes
  opens nonce msg key sealed encrypted := Cipher.decrypt_encrypt aead encrypted
  splits nonce msg key sealed publicKey encrypted := by
    have long := Cipher.length_of_encrypt aead encrypted
    have size : ¬ (publicKey.toList ++ sealed).length < 32 + 24 + 16 := by
      simp only [List.length_append, List.Vector.toList_length]
      omega
    have front : (⟨(publicKey.toList ++ sealed).take 32, by simp⟩ : ByteArr 32) = publicKey :=
      Subtype.ext (List.take_left' (by simp))
    have back : (publicKey.toList ++ sealed).drop 32 = sealed := List.drop_left' (by simp)
    simp only [onionOps, size, ↓reduceDIte, front, back]
  reads layer := by
    simp only [onionOps, reads layer, OnionLayer.ofJson_toJson]

end Onion

end Hysj.Crypto
