import Hysj.Base.Serde
import Hysj.Ratchet.Delivery

set_option autoImplicit false

/- The ratchet on bytes, as `hysj-crypto` runs it. -/
namespace Hysj.Ratchet

open Crypto

/-- `format!("{:02x}", byte)` for each byte. -/
def hexEncode (bytes : Bytes) : String :=
  String.ofList (bytes.flatMap fun b =>
    [Json.hexChar (b.toNat / 16), Json.hexChar (b.toNat % 16)])

theorem hexEncode_injective : Function.Injective hexEncode := by
  intro left right same
  replace same := String.ofList_injective same
  induction left generalizing right with
  | nil =>
      cases right with
      | nil => rfl
      | cons b right => cases same
  | cons a left ih =>
      cases right with
      | nil => cases same
      | cons b right =>
          simp only [List.flatMap_cons, List.cons_append, List.nil_append,
            List.cons.injEq] at same
          obtain ⟨high, low, rest⟩ := same
          have aSmall := a.toNat_lt
          have bSmall := b.toNat_lt
          have highSame := congrArg Json.hexValue high
          have lowSame := congrArg Json.hexValue low
          rw [Json.hexValue_hexChar _ (by omega), Json.hexValue_hexChar _ (by omega),
            Option.some.injEq] at highSame lowSame
          have byte : a = b := UInt8.toNat.inj (by omega)
          rw [byte, ih rest]

namespace MessageHeader

def toJson (header : MessageHeader Bytes) : Json.Value :=
  .obj
    [("dh_public", Serde.bytes header.dhPublic),
      ("previous_chain_length", Serde.word header.previousChainLength),
      ("message_number", Serde.word header.messageNumber)]

def ofJson (value : Json.Value) : Option (MessageHeader Bytes) := do
  match ← Serde.fields ["dh_public", "previous_chain_length", "message_number"] value with
  | [dhPublic, previousChainLength, messageNumber] =>
      some
        { dhPublic := ← Serde.required Serde.readBytes dhPublic
          previousChainLength := ← Serde.required Serde.readWord previousChainLength
          messageNumber := ← Serde.required Serde.readWord messageNumber }
  | _ => none

theorem ofJson_toJson (header : MessageHeader Bytes) : ofJson header.toJson = some header := by
  have found : Serde.fields ["dh_public", "previous_chain_length", "message_number"]
      header.toJson = some
        [some (Serde.bytes header.dhPublic), some (Serde.word header.previousChainLength),
          some (Serde.word header.messageNumber)] := by
    simp [Serde.fields, toJson]
  rw [ofJson, found]
  simp only [Option.bind_eq_bind, Option.bind_some, Serde.required_bytes, Serde.required_word]

/-- Serialize the header to bytes (for use as AAD in encryption). -/
def toBytes (header : MessageHeader Bytes) : Bytes := Json.toVec header.toJson

theorem toBytes_injective : Function.Injective toBytes := by
  intro left right same
  have value := congrArg ofJson (Json.toVec_injective same)
  rw [ofJson_toJson, ofJson_toJson] at value
  exact Option.some.inj value

end MessageHeader

/-- What the byte-level ratchet calls. -/
def ratchetOps (p : Primitives) : Ops Bytes (ByteArr 32) (ByteArr 24) String where
  toVec := List.Vector.toList
  copy32 := copy32
  publicKey := p.x25519Public
  diffieHellman := p.x25519
  deriveRootKey := Kdf.deriveRootKey p
  deriveChainKey := Kdf.deriveChainKey p
  hexEncode := hexEncode
  emptyString := ""
  headerToBytes := MessageHeader.toBytes
  cipherEncrypt := Cipher.encrypt p
  cipherDecrypt := Cipher.decrypt p

theorem ratchetOps_lawful {p : Primitives} (commutes : DhCommutes p) (aead : AeadOpens p) :
    (ratchetOps p).Lawful where
  copy32_toVec := copy32_toList
  commutes := commutes
  opens _ _ _ _ _ sealed := Cipher.decrypt_encrypt aead sealed
  hexInjective := hexEncode_injective

/-- The state of a party on bytes. -/
abbrev ByteState := RatchetState Bytes (ByteArr 32) String

/-- A session on bytes. -/
abbrev ByteConversation := Conversation Bytes (ByteArr 32) String

/-- In any run of a session, with messages of either side reordered and lost, `decrypt`
returns the plaintext of every packet that arrives within the limits. -/
theorem decrypt_of_run {p : Primitives} (commutes : DhCommutes p) (aead : AeadOpens p)
    {sharedSecret : Bytes} {bobSecret aliceSecret : ByteArr 32}
    (apart : p.x25519Public aliceSecret ≠ p.x25519Public bobSecret) {w₀ w : ByteConversation}
    (started : Conversation.start (ratchetOps p) sharedSecret bobSecret aliceSecret = some w₀)
    (run : Conversation.Run (ratchetOps p) w₀ w) {party : Party} {packet : Packet Bytes}
    (member : packet ∈ w.inFlight party)
    (limits : Conversation.WithinLimits (ratchetOps p) (w.state party) packet.header)
    {keypair : ByteArr 32}
    (fresh : (w.state party).needRatchet packet.header = true →
      (p.x25519Public keypair).toList ∉ w.publics) :
    ∃ s, RatchetState.decrypt (ratchetOps p) keypair (w.state party) packet.ciphertext
      packet.header = .returns s (.ok packet.plaintext) := by
  apply delivers_of_run (ratchetOps_lawful commutes aead) ?_ started run member limits fresh
  intro same
  exact apart (Subtype.ext same)

/-- Bob ratchets onto Alice's first chain and reads her second message. -/
theorem decrypt_of_run_second :
    ∃ w₀ w : ByteConversation,
      Conversation.start (ratchetOps .sample) (List.replicate 32 9) (.replicate 32 2)
        (.replicate 32 1) = some w₀ ∧
      Conversation.Run (ratchetOps .sample) w₀ w ∧
      ∃ packet ∈ w.inFlight .bob, packet.header.messageNumber = 1 ∧ ∃ s,
        RatchetState.decrypt (ratchetOps .sample) (.replicate 32 3) (w.state .bob)
          packet.ciphertext packet.header = .returns s (.ok packet.plaintext) := by
  let w₀ : ByteConversation := (Conversation.start (ratchetOps .sample) (List.replicate 32 9)
    (.replicate 32 2) (.replicate 32 1)).get rfl
  have started : Conversation.start (ratchetOps .sample) (List.replicate 32 9)
    (.replicate 32 2) (.replicate 32 1) = some w₀ := rfl
  have first : Conversation.Step (ratchetOps .sample) w₀ _ :=
    .encrypt .alice (.replicate 24 0) [104, 105] _ _ _ (by decide) rfl
  have second := (Relation.ReflTransGen.single first).tail
    (.encrypt .alice (.replicate 24 0) [33] _ _ _ (by decide) rfl)
  have apart : Primitives.sample.x25519Public (.replicate 32 1) ≠
      Primitives.sample.x25519Public (.replicate 32 2) := by decide
  refine ⟨w₀, _, started, second, _, List.mem_cons_self, rfl, ?_⟩
  exact decrypt_of_run Primitives.sample_commutes Primitives.sample_aead apart started second
    List.mem_cons_self (by decide) (by decide)

end Hysj.Ratchet
