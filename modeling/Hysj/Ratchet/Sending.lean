import Hysj.Ratchet.Calls
import Hysj.Ratchet.Chains

set_option autoImplicit false

/- What the calls on a session do to the keypair it sends with and to its counter. -/
namespace Hysj.Ratchet

/-- The call returned without an error. -/
def Call.succeeds {σ α : Type} : Call σ α → Bool
  | .returns _ (.ok _) => true
  | _ => false

namespace RatchetState

variable {β κ ν ℓ : Type} [DecidableEq ℓ] (ops : Ops β κ ν ℓ)

/-- The ratchet secret, its public key, the number of the next message, and whether there is a
chain to send on. -/
def sending (s : RatchetState β κ ℓ) : β × β × UInt32 × Bool :=
  (s.dhSendSecret, s.dhSendPublic, s.sendMessageNumber, s.sendingChainKey.isSome)

/-- What a keypair just drawn is sent with. -/
def freshSending (keypair : κ) : β × β × UInt32 × Bool :=
  (ops.toVec keypair, ops.toVec (ops.publicKey keypair), 0, true)

theorem sending_skip (s : RatchetState β κ ℓ) (until_ : UInt32) :
    (skipMissedMessages ops s until_).1.sending = s.sending := by
  rcases skip_cases ops s until_ with ⟨-, skips⟩ | ⟨-, -, e, skips⟩ | ⟨-, -, chain, -, skips⟩
  · rw [skips]
  · rw [skips]
  · rw [skips]
    rfl

theorem sending_receiveOnChain (s : RatchetState β κ ℓ) (ciphertext : β)
    (header : MessageHeader β) :
    (receiveOnChain ops s ciphertext header).1.sending = s.sending := by
  have kept := sending_skip ops s header.messageNumber
  unfold receiveOnChain
  cases skipped : skipMissedMessages ops s header.messageNumber with
  | mk caught outcome =>
      rw [skipped] at kept
      cases outcome with
      | error e => exact kept
      | ok _ =>
          cases chain : caught.receivingChainKey with
          | none =>
              simp only [chain]
              exact kept
          | some receivingCk =>
              simp only [chain]
              cases ops.cipherDecrypt ciphertext (ops.deriveChainKey receivingCk).2
                (ops.headerToBytes header) with
              | error e => exact kept
              | ok plaintext => exact kept

theorem sending_dhRatchet {keypair : κ} {s ratcheted : RatchetState β κ ℓ} {theirDhPublic : β}
    (ratchets : dhRatchet ops keypair s theirDhPublic = some ratcheted) :
    ratcheted.sending = freshSending ops keypair := by
  unfold dhRatchet at ratchets
  rw [Option.bind_eq_bind, Option.bind_eq_some_iff] at ratchets
  obtain ⟨theirPublic, -, ratchets⟩ := ratchets
  rw [Option.bind_eq_some_iff] at ratchets
  obtain ⟨currentSecret, -, made⟩ := ratchets
  rw [← Option.some.inj made]
  rfl

/-- A ratchet step that ends well sends with the keypair drawn, one that is refused as before. -/
theorem sending_ratchetStep {keypair : κ} {s left : RatchetState β κ ℓ}
    {header : MessageHeader β} {result : Except Crypto.CryptoError Unit}
    (returned : ratchetStep ops keypair s header = .returns left result) :
    left.sending = if result.isOk then freshSending ops keypair else s.sending := by
  have kept := sending_skip ops s header.previousChainLength
  unfold ratchetStep at returned
  cases skipped : skipMissedMessages ops s header.previousChainLength with
  | mk closed outcome =>
      rw [skipped] at kept returned
      cases outcome with
      | error e =>
          obtain ⟨rfl, rfl⟩ := Call.returns.inj returned
          exact kept
      | ok _ =>
          cases ratchets : dhRatchet ops keypair closed header.dhPublic with
          | none =>
              simp only [ratchets] at returned
              cases returned
          | some ratcheted =>
              simp only [ratchets, Call.returns.injEq] at returned
              obtain ⟨rfl, rfl⟩ := returned
              exact sending_dhRatchet ops ratchets

/-- `decrypt` draws a keypair: it gets to the end of a ratchet step. -/
def draws [DecidableEq β] (keypair : κ) (s : RatchetState β κ ℓ)
    (header : MessageHeader β) : Bool :=
  (s.skippedKeys.lookup (ops.hexEncode header.dhPublic, header.messageNumber)).isNone &&
    s.needRatchet header && (ratchetStep ops keypair s header).succeeds

/-- A decryption sends on as before or, after a ratchet, from zero with the keypair drawn. -/
theorem sending_decrypt [DecidableEq β] {keypair : κ} {s left : RatchetState β κ ℓ}
    {ciphertext : β} {header : MessageHeader β} {result : Except Crypto.CryptoError β}
    (returned : decrypt ops keypair s ciphertext header = .returns left result) :
    left.sending = if draws ops keypair s header then freshSending ops keypair else s.sending := by
  unfold decrypt at returned
  unfold draws
  cases stored : s.skippedKeys.lookup (ops.hexEncode header.dhPublic, header.messageNumber) with
  | some messageKey =>
      rw [SkippedKeys.take_of_some stored] at returned
      cases returned
      rfl
  | none =>
      simp only [SkippedKeys.take_of_none stored] at returned
      cases newKey : s.needRatchet header with
      | false =>
          rw [newKey] at returned
          rw [← (Call.returns.inj returned).1, sending_receiveOnChain]
          rfl
      | true =>
          rw [newKey] at returned
          cases stepped : ratchetStep ops keypair s header with
          | panics =>
              simp only [↓reduceIte, stepped] at returned
              cases returned
          | returns ratcheted outcome =>
              have sends := sending_ratchetStep ops stepped
              cases outcome with
              | error e =>
                  simp only [↓reduceIte, stepped, Call.returns.injEq] at returned
                  rw [← returned.1]
                  exact sends
              | ok _ =>
                  simp only [↓reduceIte, stepped, Call.returns.injEq] at returned
                  rw [← returned.1, sending_receiveOnChain]
                  exact sends

/-- An encryption that succeeds counts one message; one that fails counts none. -/
theorem sending_encrypt (nonce : ν) (s : RatchetState β κ ℓ) (plaintext : β) :
    ((∃ e, (encrypt ops nonce s plaintext).2 = .error e) ∧
      (encrypt ops nonce s plaintext).1.sending = s.sending) ∨
    ∃ ciphertext header, (encrypt ops nonce s plaintext).2 = .ok (ciphertext, header) ∧
      header.dhPublic = s.dhSendPublic ∧ header.messageNumber = s.sendMessageNumber ∧
      s.sendingChainKey.isSome = true ∧
      (encrypt ops nonce s plaintext).1.sending =
        (s.dhSendSecret, s.dhSendPublic, s.sendMessageNumber + 1, true) := by
  unfold encrypt
  cases chain : s.sendingChainKey with
  | none => exact Or.inl ⟨⟨_, rfl⟩, rfl⟩
  | some sendingCk =>
      dsimp only
      cases ops.cipherEncrypt nonce plaintext (ops.deriveChainKey sendingCk).2
          (ops.headerToBytes
            ⟨s.dhSendPublic, s.previousSendingChainLength, s.sendMessageNumber⟩) with
      | error e =>
          refine Or.inl ⟨⟨e, rfl⟩, ?_⟩
          unfold sending
          rw [chain]
          rfl
      | ok ciphertext => exact Or.inr ⟨ciphertext, _, rfl, rfl, rfl, rfl, rfl⟩

/-- What a call of `decrypt` leaves is what `decrypt` leaves. -/
theorem decrypt_of_perform [DecidableEq β] {s left : RatchetState β κ ℓ} {keypair : κ}
    {ciphertext : β} {header : MessageHeader β}
    {result : Except Crypto.CryptoError (Output β)}
    (returned : s.perform (ν := ν) ops
    (.decrypt keypair ciphertext header) = .returns left result) :
    ∃ outcome, decrypt ops keypair s ciphertext header = .returns left outcome ∧
      result = outcome.map Output.decrypted := by
  cases decrypts : decrypt ops keypair s ciphertext header with
  | panics =>
      simp only [perform, decrypts] at returned
      cases returned
  | returns after outcome =>
      simp only [perform, decrypts] at returned
      obtain ⟨rfl, rfl⟩ := Call.returns.inj returned
      exact ⟨outcome, rfl, rfl⟩

/-- Whatever the call, the secret is the one there was or the one drawn. -/
theorem secret_perform_cases [DecidableEq β] {s left : RatchetState β κ ℓ}
    {call : Operation β κ ν} {result : Except Crypto.CryptoError (Output β)}
    (returned : s.perform ops call = .returns left result) :
    left.dhSendSecret = s.dhSendSecret ∨ ∃ keypair, left.dhSendSecret = ops.toVec keypair := by
  cases call with
  | encrypt nonce plaintext =>
      obtain ⟨rfl, -⟩ := Call.returns.inj returned
      rcases sending_encrypt ops nonce s plaintext with ⟨-, kept⟩ | ⟨_, _, -, -, -, -, kept⟩
      · exact Or.inl (congrArg Prod.fst kept)
      · exact Or.inl (congrArg Prod.fst kept)
  | decrypt keypair ciphertext header =>
      obtain ⟨outcome, decrypts, -⟩ := decrypt_of_perform ops returned
      have sends := sending_decrypt ops decrypts
      split at sends
      · exact Or.inr ⟨keypair, congrArg Prod.fst sends⟩
      · exact Or.inl (congrArg Prod.fst sends)

end RatchetState

end Hysj.Ratchet
