import Hysj.Crypto.Primitives
import Hysj.Ratchet.SkippedKeys

set_option autoImplicit false

namespace Hysj.Ratchet

open Crypto (CryptoError)

/-- Maximum number of message keys to skip when catching up. -/
def MAX_SKIP : UInt32 := 1000

/-- `β` is `Vec<u8>`; on the wire it is a byte string. -/
structure MessageHeader (β : Type) where
  dhPublic : β
  previousChainLength : UInt32
  messageNumber : UInt32
  deriving DecidableEq

/-- What the ratchet calls outside its own file. The types stand for `Vec<u8>`
(`β`), `[u8; 32]` (`κ`), a nonce drawn from `OsRng` (`ν`) and `String` (`ℓ`), so
that one transcription runs on bytes and on symbolic terms. Message keys are
`κ` throughout: `derive_chain_key` yields exactly 32 bytes, so the copies
`message_key.copy_from_slice(&message_key_vec[..32])` are the identity. -/
structure Ops (β κ ν ℓ : Type) where
  /-- `as_bytes().to_vec()` -/
  toVec : κ → β
  /-- `arr.copy_from_slice(&bytes[..32])`; `none` is the slice panic -/
  copy32 : β → Option κ
  publicKey : κ → κ
  diffieHellman : κ → κ → κ
  deriveRootKey : β → β → β × β
  deriveChainKey : β → β × κ
  hexEncode : β → ℓ
  /-- `String::default()` -/
  emptyString : ℓ
  /-- `MessageHeader::to_bytes` -/
  headerToBytes : MessageHeader β → β
  cipherEncrypt : ν → β → κ → β → Except CryptoError β
  cipherDecrypt : β → κ → β → Except CryptoError β

/-- The core Double Ratchet state. -/
structure RatchetState (β κ ℓ : Type) [DecidableEq ℓ] where
  rootKey : β
  sendingChainKey : Option β
  receivingChainKey : Option β
  dhSendSecret : β
  dhSendPublic : β
  dhReceivePublic : Option β
  sendMessageNumber : UInt32
  recvMessageNumber : UInt32
  previousSendingChainLength : UInt32
  skippedKeys : SkippedKeys (ℓ × UInt32) κ

/-- How a method on `&mut self` ends: it returns and leaves a state behind, or
it panics. -/
inductive Call (σ α : Type) where
  | returns (state : σ) (result : Except CryptoError α)
  | panics

namespace RatchetState

variable {β κ ν ℓ : Type} [DecidableEq ℓ] (ops : Ops β κ ν ℓ)

/-- Alice's side. `keypair` is the secret drawn by `generate_x25519_keypair`;
`none` is the panic of a recipient key shorter than 32 bytes. -/
def initSender (keypair : κ) (sharedSecret recipientDhPublic : β) :
    Option (RatchetState β κ ℓ) := do
  let theirPublic ← ops.copy32 recipientDhPublic
  let dhOutput := ops.diffieHellman keypair theirPublic
  let derived := ops.deriveRootKey sharedSecret (ops.toVec dhOutput)
  some
    { rootKey := derived.1
      sendingChainKey := some derived.2
      receivingChainKey := none
      dhSendSecret := ops.toVec keypair
      dhSendPublic := ops.toVec (ops.publicKey keypair)
      dhReceivePublic := some recipientDhPublic
      sendMessageNumber := 0
      recvMessageNumber := 0
      previousSendingChainLength := 0
      skippedKeys := .new }

/-- Bob's side: his signed pre-key is the first ratchet keypair. -/
def initReceiver (sharedSecret secretBytes publicBytes : β) : RatchetState β κ ℓ :=
  { rootKey := sharedSecret
    sendingChainKey := none
    receivingChainKey := none
    dhSendSecret := secretBytes
    dhSendPublic := publicBytes
    dhReceivePublic := none
    sendMessageNumber := 0
    recvMessageNumber := 0
    previousSendingChainLength := 0
    skippedKeys := .new }

/-- Counters are `u32` and wrap, as in the release profile. -/
def encrypt (nonce : ν) (s : RatchetState β κ ℓ) (plaintext : β) :
    RatchetState β κ ℓ × Except CryptoError (β × MessageHeader β) :=
  match s.sendingChainKey with
  | none => (s, .error (.ratchetError "no sending chain key established"))
  | some sendingCk =>
      let derived := ops.deriveChainKey sendingCk
      let advanced := { s with sendingChainKey := some derived.1 }
      let header : MessageHeader β :=
        ⟨s.dhSendPublic, s.previousSendingChainLength, s.sendMessageNumber⟩
      match ops.cipherEncrypt nonce plaintext derived.2 (ops.headerToBytes header) with
      | .error e => (advanced, .error e)
      | .ok ciphertext =>
          ({ advanced with sendMessageNumber := s.sendMessageNumber + 1 },
            .ok (ciphertext, header))

/-- The loop of `skip_missed_messages`: `count` steps of the receiving chain,
each message key stored under its number. -/
def skipLoop (dhHex : ℓ) : Nat → UInt32 → β → SkippedKeys (ℓ × UInt32) κ →
    β × SkippedKeys (ℓ × UInt32) κ
  | 0, _, currentCk, skipped => (currentCk, skipped)
  | count + 1, n, currentCk, skipped =>
      let derived := ops.deriveChainKey currentCk
      skipLoop dhHex count (n + 1) derived.1 (skipped.insert (dhHex, n) derived.2)

/-- Skip missed messages by advancing the receiving chain and storing keys. -/
def skipMissedMessages (s : RatchetState β κ ℓ) (until_ : UInt32) :
    RatchetState β κ ℓ × Except CryptoError Unit :=
  if s.recvMessageNumber > until_ then (s, .ok ())
  else
    let skipCount := until_ - s.recvMessageNumber
    if skipCount > MAX_SKIP then
      (s, .error (.ratchetError s!"too many skipped messages: {skipCount}"))
    else
      match s.receivingChainKey with
      | none => (s, .ok ())
      | some receivingCk =>
          let dhHex := (s.dhReceivePublic.map ops.hexEncode).getD ops.emptyString
          let skipped := skipLoop ops dhHex skipCount.toNat s.recvMessageNumber receivingCk
            s.skippedKeys
          ({ s with
              receivingChainKey := some skipped.1
              recvMessageNumber := until_
              skippedKeys := skipped.2 }, .ok ())

/-- A DH ratchet step with a new public key of the other party. `keypair` is the
freshly drawn secret; `none` is a slice panic. -/
def dhRatchet (keypair : κ) (s : RatchetState β κ ℓ) (theirDhPublic : β) :
    Option (RatchetState β κ ℓ) := do
  let theirPublic ← ops.copy32 theirDhPublic
  let currentSecret ← ops.copy32 s.dhSendSecret
  let dhOutput := ops.diffieHellman currentSecret theirPublic
  let received := ops.deriveRootKey s.rootKey (ops.toVec dhOutput)
  let dhOutput2 := ops.diffieHellman keypair theirPublic
  let sending := ops.deriveRootKey received.1 (ops.toVec dhOutput2)
  some
    { rootKey := sending.1
      sendingChainKey := some sending.2
      receivingChainKey := some received.2
      dhSendSecret := ops.toVec keypair
      dhSendPublic := ops.toVec (ops.publicKey keypair)
      dhReceivePublic := some theirDhPublic
      sendMessageNumber := 0
      recvMessageNumber := 0
      previousSendingChainLength := s.sendMessageNumber
      skippedKeys := s.skippedKeys }

/-- Step 2 of `decrypt`: the header names another key than the current one. -/
def needRatchet [DecidableEq β] (s : RatchetState β κ ℓ) (header : MessageHeader β) : Bool :=
  match s.dhReceivePublic with
  | some current => current ≠ header.dhPublic
  | none => true

/-- Step 2: close the current receiving chain and ratchet. -/
def ratchetStep (keypair : κ) (s : RatchetState β κ ℓ) (header : MessageHeader β) :
    Call (RatchetState β κ ℓ) Unit :=
  match skipMissedMessages ops s header.previousChainLength with
  | (closed, .error e) => .returns closed (.error e)
  | (closed, .ok ()) =>
      match dhRatchet ops keypair closed header.dhPublic with
      | none => .panics
      | some ratcheted => .returns ratcheted (.ok ())

/-- Steps 3 to 6 of `decrypt`, on the receiving chain the header belongs to. -/
def receiveOnChain (s : RatchetState β κ ℓ) (ciphertext : β) (header : MessageHeader β) :
    RatchetState β κ ℓ × Except CryptoError β :=
  match skipMissedMessages ops s header.messageNumber with
  | (caughtUp, .error e) => (caughtUp, .error e)
  | (caughtUp, .ok ()) =>
      match caughtUp.receivingChainKey with
      | none => (caughtUp, .error (.ratchetError "no receiving chain key"))
      | some receivingCk =>
          let derived := ops.deriveChainKey receivingCk
          let advanced := { caughtUp with receivingChainKey := some derived.1 }
          match ops.cipherDecrypt ciphertext derived.2 (ops.headerToBytes header) with
          | .error e => (advanced, .error e)
          | .ok plaintext =>
              ({ advanced with recvMessageNumber := advanced.recvMessageNumber + 1 },
                .ok plaintext)

/-- Decrypt a received ciphertext using the provided header. -/
def decrypt [DecidableEq β] (keypair : κ) (s : RatchetState β κ ℓ) (ciphertext : β)
    (header : MessageHeader β) : Call (RatchetState β κ ℓ) β :=
  match s.skippedKeys.take (ops.hexEncode header.dhPublic, header.messageNumber) with
  -- 1. a message that arrives out of order has its key in the store
  | (some messageKey, skipped) =>
      .returns { s with skippedKeys := skipped }
        (ops.cipherDecrypt ciphertext messageKey (ops.headerToBytes header))
  | (none, _) =>
      if s.needRatchet header then
        match ratchetStep ops keypair s header with
        | .panics => .panics
        | .returns left (.error e) => .returns left (.error e)
        | .returns ratcheted (.ok ()) =>
            let received := receiveOnChain ops ratcheted ciphertext header
            .returns received.1 received.2
      else
        let received := receiveOnChain ops s ciphertext header
        .returns received.1 received.2

end RatchetState

end Hysj.Ratchet
