import Hysj.Native.Api
import Hysj.Native.X3dh
import Hysj.Ratchet.InOrder
import Hysj.Ratchet.Sending

set_option autoImplicit false

/- Two apps that talk through the native bridge: the handshake, the two sessions made from
its secret, and messages that arrive in the order in which they were sent. -/
namespace Hysj.Native

open Crypto X3dh Ratchet

/-- What travels between the apps for one message. -/
structure Letter where
  headerJson : String
  ciphertextB64 : String

/-- Both apps with their stored sessions. `letters q` are addressed to `q`, oldest first;
`written q` and `read q` are the plaintexts that the app of `q` encrypted and decrypted so
far, and `drawn` the public keys of all ratchet key pairs. -/
structure Exchange where
  session : Party → String
  letters : Party → List Letter
  written : Party → List Bytes
  read : Party → List Bytes
  drawn : List Bytes

namespace Exchange

/-- Before the first message. -/
def start (aliceSession bobSession : String) (drawn : List Bytes) : Exchange where
  session
    | .alice => aliceSession
    | .bob => bobSession
  letters _ := []
  written _ := []
  read _ := []
  drawn := drawn

variable (p : Primitives) (kem : MlKem768) (b64 : Base64Engine) (serde : SerdeJson)

/-- One call of the bridge that returns: an app encrypts a message, or it decrypts the oldest
letter addressed to it with a key pair that was never drawn before. -/
inductive Step : Exchange → Exchange → Prop where
  | write {w : Exchange} (q : Party) (nonce : ByteArr 24) {plaintextB64 session : String}
      {plaintext : Bytes} {letter : Letter} (text : b64.decode plaintextB64 = .ok plaintext)
      (room : (w.written q).length + 1 < 2 ^ 32)
      (made : ratchetEncrypt p b64 serde nonce (w.session q) plaintextB64 =
        some (.ok (session, letter.headerJson, letter.ciphertextB64))) :
      Step w
        { w with
          session := Function.update w.session q session
          letters := Function.update w.letters q.peer (w.letters q.peer ++ [letter])
          written := Function.update w.written q (w.written q ++ [plaintext]) }
  | read {w : Exchange} (q : Party) {letter : Letter} {rest : List Letter} {keypair : ByteArr 32}
      {session plaintextB64 : String} {plaintext : Bytes} (oldest : w.letters q = letter :: rest)
      (fresh : (p.x25519Public keypair).toList ∉ w.drawn)
      (opened : ratchetDecrypt p b64 serde keypair (w.session q) letter.headerJson
        letter.ciphertextB64 = some (.ok (session, plaintextB64)))
      (text : b64.decode plaintextB64 = .ok plaintext) :
      Step w
        { w with
          session := Function.update w.session q session
          letters := Function.update w.letters q rest
          read := Function.update w.read q (w.read q ++ [plaintext])
          drawn := (p.x25519Public keypair).toList :: w.drawn }

/-- Any number of calls. -/
def Run : Exchange → Exchange → Prop := Relation.ReflTransGen (Step p b64 serde)

variable {p kem b64 serde}

/-- The exchange of texts stands for a session in memory: the stored texts are its two states,
the letters its packets, and what was written but not yet read is in flight. -/
structure Stands (p : Primitives) (b64 : Base64Engine) (v : ByteConversation) (w : Exchange) :
    Prop where
  aligned : ∃ links sent top depth recv, Aligned (ratchetOps p) links sent top depth recv v
  sessions : ∀ q, ∃ data, (v.state q).serialize = some data ∧ w.session q = b64.encode data
  letters : ∀ q, w.letters q = (v.inFlight q).map fun packet =>
    ⟨headerToString packet.header, b64.encode packet.ciphertext⟩
  pending : ∀ q, w.written q.peer = w.read q ++ (v.inFlight q).map Packet.plaintext
  drawn : w.drawn = v.publics
  counted : ∀ q, (v.state q).sendMessageNumber.toNat ≤ (w.written q).length
  speaks : ∀ q, (v.state q).sendingChainKey.isSome = true ↔ q = .alice ∨ w.read q ≠ []

theorem Stands.write (commutes : DhCommutes p) (aead : AeadOpens p) (inverse : b64.Inverse)
    (reads : ReadsBack serde) {v : ByteConversation} {w : Exchange} (stands : Stands p b64 v w)
    {q : Party} {nonce : ByteArr 24} {plaintextB64 session : String} {plaintext : Bytes}
    {letter : Letter} (text : b64.decode plaintextB64 = .ok plaintext)
    (room : (w.written q).length + 1 < 2 ^ 32)
    (made : ratchetEncrypt p b64 serde nonce (w.session q) plaintextB64 =
      some (.ok (session, letter.headerJson, letter.ciphertextB64))) :
    ∃ v, Stands p b64 v
      { w with
        session := Function.update w.session q session
        letters := Function.update w.letters q.peer (w.letters q.peer ++ [letter])
        written := Function.update w.written q (w.written q ++ [plaintext]) } := by
  obtain ⟨links, sent, top, depth, recv, aligned⟩ := stands.aligned
  obtain ⟨data, stored, encoded⟩ := stands.sessions q
  obtain ⟨-, loads⟩ := loads_of_serialize reads stored
  rw [encoded, ratchetEncrypt_eq_ok inverse loads text] at made
  obtain ⟨left, ciphertext, header, after, sealed, written, rfl, headerText, cipherText⟩ := made
  have counted := stands.counted q
  obtain ⟨more, next⟩ := aligned.encrypt (ratchetOps_lawful commutes aead) (by omega) sealed
  have number : left.sendMessageNumber.toNat ≤ (v.state q).sendMessageNumber.toNat + 1 ∧
      left.sendingChainKey.isSome = true ∧ (v.state q).sendingChainKey.isSome = true := by
    have spec := RatchetState.sending_encrypt (ratchetOps p) nonce (v.state q) plaintext
    rw [sealed] at spec
    obtain ⟨⟨e, wrong⟩, -⟩ | ⟨_, _, -, -, -, chain, sends⟩ := spec
    · cases wrong
    · simp only [RatchetState.sending, Prod.mk.injEq] at sends
      refine ⟨?_, sends.2.2.2, chain⟩
      rw [sends.2.2.1, UInt32.toNat_add]
      exact Nat.mod_le _ _
  refine ⟨_, ⟨links, more, top, depth, recv, next⟩, ?_, ?_, ?_, stands.drawn, ?_, ?_⟩
  · intro party
    rcases Party.eq_or_eq_peer q party with rfl | rfl
    · exact ⟨after, by simpa using written, by simp⟩
    · simpa using stands.sessions q.peer
  · intro party
    rcases Party.eq_or_eq_peer q party with rfl | rfl
    · simpa [Function.update_of_ne (Ne.symm (Party.peer_ne party))] using stands.letters party
    · simp [stands.letters, ← headerText, ← cipherText]
  · intro party
    rcases Party.eq_or_eq_peer q party with rfl | rfl
    · simpa [Function.update_of_ne (Ne.symm (Party.peer_ne party))] using stands.pending party
    · have before := stands.pending q.peer
      rw [Party.peer_peer] at before
      simp [before]
  · intro party
    rcases Party.eq_or_eq_peer q party with rfl | rfl
    · simp
      omega
    · simpa using stands.counted q.peer
  · intro party
    rcases Party.eq_or_eq_peer q party with rfl | rfl
    · have speaks := stands.speaks party
      rw [number.2.2] at speaks
      simpa [number.2.1] using speaks
    · simpa using stands.speaks q.peer

/-- The oldest letter can be read, and it says what its writer wrote next. -/
theorem Stands.opens (commutes : DhCommutes p) (aead : AeadOpens p) (inverse : b64.Inverse)
    (reads : ReadsBack serde) {v : ByteConversation} {w : Exchange} (stands : Stands p b64 v w)
    {q : Party} {letter : Letter} {rest : List Letter} {keypair : ByteArr 32}
    (oldest : w.letters q = letter :: rest)
    (fresh : (p.x25519Public keypair).toList ∉ w.drawn) :
    ∃ session plaintext, ratchetDecrypt p b64 serde keypair (w.session q) letter.headerJson
        letter.ciphertextB64 = some (.ok (session, b64.encode plaintext)) ∧
      ∃ v, Stands p b64 v
        { w with
          session := Function.update w.session q session
          letters := Function.update w.letters q rest
          read := Function.update w.read q (w.read q ++ [plaintext])
          drawn := (p.x25519Public keypair).toList :: w.drawn } := by
  obtain ⟨links, sent, top, depth, recv, aligned⟩ := stands.aligned
  obtain ⟨data, stored, encoded⟩ := stands.sessions q
  obtain ⟨-, loads⟩ := loads_of_serialize reads stored
  have letters := stands.letters q
  rw [oldest, eq_comm, List.map_eq_cons_iff] at letters
  obtain ⟨packet, packets, arrives, rfl, rfl⟩ := letters
  rw [stands.drawn] at fresh
  obtain ⟨left, opened, sends, number, next⟩ :=
    aligned.open_oldest (ratchetOps_lawful commutes aead) arrives fresh
  have store : left.skippedKeys.isEmpty = true := by
    obtain ⟨_, _, _, _, _, after⟩ := next
    simpa [Conversation.opened] using after.stores q
  obtain ⟨after, written, -⟩ := (RatchetState.deserialize_serialize_iff reads left).mpr store
  refine ⟨b64.encode after, packet.plaintext, ?_, _, next, ?_, ?_, ?_, ?_, ?_, ?_⟩
  · rw [encoded]
    exact ratchetDecrypt_of_returns inverse reads loads opened written
  · intro party
    rcases Party.eq_or_eq_peer q party with rfl | rfl
    · exact ⟨after, by simpa [Conversation.opened] using written, by simp⟩
    · simpa [Conversation.opened] using stands.sessions q.peer
  · intro party
    rcases Party.eq_or_eq_peer q party with rfl | rfl
    · simp [Conversation.opened]
    · simpa [Conversation.opened] using stands.letters q.peer
  · intro party
    rcases Party.eq_or_eq_peer q party with rfl | rfl
    · simpa [Conversation.opened, arrives] using stands.pending party
    · simpa [Conversation.opened] using stands.pending q.peer
  · simp [Conversation.opened, stands.drawn, ratchetOps]
  · intro party
    rcases Party.eq_or_eq_peer q party with rfl | rfl
    · have counted := stands.counted party
      simp only [Conversation.opened, Function.update_self]
      omega
    · simpa [Conversation.opened] using stands.counted q.peer
  · intro party
    rcases Party.eq_or_eq_peer q party with rfl | rfl
    · simp [Conversation.opened, sends]
    · simpa [Conversation.opened] using stands.speaks q.peer

theorem Stands.run (commutes : DhCommutes p) (aead : AeadOpens p) (inverse : b64.Inverse)
    (reads : ReadsBack serde) {w w' : Exchange} (stands : ∃ v, Stands p b64 v w)
    (run : Run p b64 serde w w') : ∃ v, Stands p b64 v w' := by
  induction run with
  | refl => exact stands
  | tail _ step ih =>
      obtain ⟨v, stands⟩ := ih
      cases step with
      | write q nonce text room made =>
          exact stands.write commutes aead inverse reads text room made
      | read q oldest fresh opened text =>
          obtain ⟨session, plaintext, opens, next⟩ :=
            stands.opens commutes aead inverse reads oldest fresh
          rw [opens, Option.some.injEq, Except.ok.injEq, Prod.mk.injEq] at opened
          obtain ⟨rfl, rfl⟩ := opened
          rw [inverse] at text
          cases text
          exact next

end Exchange

end Hysj.Native
