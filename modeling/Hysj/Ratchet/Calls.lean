import Hysj.Ratchet.Conversation

set_option autoImplicit false

/- Sequences of calls on one session, in any order and with any arguments. -/
namespace Hysj.Ratchet

open Crypto (CryptoError)

/-- A call on a session, with the randomness it draws. -/
inductive Operation (β κ ν : Type) where
  | encrypt (nonce : ν) (plaintext : β)
  | decrypt (keypair : κ) (ciphertext : β) (header : MessageHeader β)

inductive Output (β : Type) where
  | encrypted (ciphertext : β) (header : MessageHeader β)
  | decrypted (plaintext : β)
  deriving DecidableEq

/-- What the caller sees of a call; `none` is a panic. -/
def Call.result {σ α : Type} : Call σ α → Option (Except CryptoError α)
  | .returns _ result => some result
  | .panics => none

variable {β κ ν ℓ : Type} [DecidableEq β] [DecidableEq ℓ] (ops : Ops β κ ν ℓ)

namespace RatchetState

def perform (s : RatchetState β κ ℓ) : Operation β κ ν → Call (RatchetState β κ ℓ) (Output β)
  | .encrypt nonce plaintext =>
      let done := encrypt ops nonce s plaintext
      .returns done.1 (done.2.map fun made => .encrypted made.1 made.2)
  | .decrypt keypair ciphertext header =>
      match decrypt ops keypair s ciphertext header with
      | .panics => .panics
      | .returns left result => .returns left (result.map .decrypted)

/-- The state after all calls and the result of each; `none` after a panic. -/
def performAll (s : RatchetState β κ ℓ) :
    List (Operation β κ ν) → Option (RatchetState β κ ℓ × List (Except CryptoError (Output β)))
  | [] => some (s, [])
  | call :: calls =>
      match s.perform ops call with
      | .panics => none
      | .returns left result =>
          (performAll left calls).map fun rest => (rest.1, result :: rest.2)

/-- Every call of a sequence, in the state it is made in, has property `P`. -/
def EachCall (P : RatchetState β κ ℓ → Operation β κ ν → Prop) (s : RatchetState β κ ℓ) :
    List (Operation β κ ν) → Prop
  | [] => True
  | call :: calls =>
      P s call ∧ ∀ left result, s.perform ops call = .returns left result → EachCall P left calls

theorem EachCall.congr {P Q : RatchetState β κ ℓ → Operation β κ ν → Prop}
    (same : ∀ s call, P s call ↔ Q s call) (s : RatchetState β κ ℓ)
    (calls : List (Operation β κ ν)) : EachCall ops P s calls ↔ EachCall ops Q s calls := by
  induction calls generalizing s with
  | nil => exact Iff.rfl
  | cons call calls ih =>
      unfold EachCall
      apply and_congr (same s call)
      constructor
      · intro each left result returned
        exact (ih left).mp (each left result returned)
      · intro each left result returned
        exact (ih left).mpr (each left result returned)

/-- Every state of a sequence of calls, the first and the last included. -/
def EachState (P : RatchetState β κ ℓ → Prop) (s : RatchetState β κ ℓ) :
    List (Operation β κ ν) → Prop
  | [] => P s
  | call :: calls =>
      P s ∧ ∀ left result, s.perform ops call = .returns left result → EachState P left calls

/-- The calls of a sequence that do not return an error. -/
def accepted (s : RatchetState β κ ℓ) : List (Operation β κ ν) → List (Operation β κ ν)
  | [] => []
  | call :: calls =>
      match s.perform ops call with
      | .panics => call :: calls
      | .returns left (.error _) => accepted left calls
      | .returns left (.ok _) => call :: accepted left calls

end RatchetState

end Hysj.Ratchet
