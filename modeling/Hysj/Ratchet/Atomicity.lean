import Hysj.Ratchet.Calls
import Hysj.Ratchet.Wire

set_option autoImplicit false

/- Which calls leave the state as it was when they return an error. -/
namespace Hysj.Ratchet

open Crypto

variable {β κ ν ℓ : Type} [DecidableEq β] [DecidableEq ℓ] (ops : Ops β κ ν ℓ)

namespace RatchetState

def AtomicOnError (s : RatchetState β κ ℓ) (call : Operation β κ ν) : Prop :=
  ∀ left e, s.perform ops call = .returns left (.error e) → left = s

/-- The receiving chain that a ratchet onto the header's key derives. -/
def ratchetChain (s : RatchetState β κ ℓ) (header : MessageHeader β) : Option β := do
  let theirPublic ← ops.copy32 header.dhPublic
  let currentSecret ← ops.copy32 s.dhSendSecret
  some (ops.deriveRootKey s.rootKey
    (ops.toVec (ops.diffieHellman currentSecret theirPublic))).2

/-- The AEAD accepts the packet under `key`. -/
def Opens (ciphertext : β) (header : MessageHeader β) (key : κ) : Prop :=
  ∃ plaintext, ops.cipherDecrypt ciphertext key (ops.headerToBytes header) = .ok plaintext

/-- A chain key that the symmetric ratchet maps to itself. -/
def Stalls (chain : β) : Prop := (ops.deriveChainKey chain).1 = chain

/-- The calls that are accepted, or refused before anything is written. -/
def RejectsCleanly (s : RatchetState β κ ℓ) : Operation β κ ν → Prop
  | .encrypt nonce plaintext =>
      ∀ chain, s.sendingChainKey = some chain →
        (∃ ciphertext, ops.cipherEncrypt nonce plaintext (messageKeyAt ops chain 0)
          (ops.headerToBytes
            ⟨s.dhSendPublic, s.previousSendingChainLength, s.sendMessageNumber⟩) =
          .ok ciphertext) ∨ Stalls ops chain
  | .decrypt _ ciphertext header =>
      match s.skippedKeys.lookup (ops.hexEncode header.dhPublic, header.messageNumber) with
      | some key => Opens ops ciphertext header key
      | none =>
          if s.needRatchet header then
            MAX_SKIP.toNat < Conversation.gap s header.previousChainLength ∨
            ∀ chain, ratchetChain ops s header = some chain →
              header.messageNumber.toNat ≤ MAX_SKIP.toNat ∧
              Opens ops ciphertext header (messageKeyAt ops chain header.messageNumber.toNat)
          else
            MAX_SKIP.toNat < Conversation.gap s header.messageNumber ∨
            ∀ chain, s.receivingChainKey = some chain →
              Opens ops ciphertext header
                (messageKeyAt ops chain (Conversation.gap s header.messageNumber)) ∨
              (header.messageNumber ≤ s.recvMessageNumber ∧ Stalls ops chain)

end RatchetState

omit [DecidableEq β] in
/-- Steps 3 to 6 of `decrypt`: a refusal that changes nothing, or one step of the
receiving chain past the number asked for, whatever the AEAD says. -/
theorem RatchetState.receiveOnChain_cases (s : RatchetState β κ ℓ) (ciphertext : β)
    (header : MessageHeader β) :
    (MAX_SKIP.toNat < Conversation.gap s header.messageNumber ∧
      ∃ e, receiveOnChain ops s ciphertext header = (s, .error e)) ∨
    (Conversation.gap s header.messageNumber ≤ MAX_SKIP.toNat ∧ s.receivingChainKey = none ∧
      ∃ e, receiveOnChain ops s ciphertext header = (s, .error e)) ∨
    (Conversation.gap s header.messageNumber ≤ MAX_SKIP.toNat ∧
      ∃ chain left, s.receivingChainKey = some chain ∧
        left.receivingChainKey =
          some (chainKeyAt ops chain (Conversation.gap s header.messageNumber + 1)) ∧
        left.dhReceivePublic = s.dhReceivePublic ∧
        (s.recvMessageNumber < header.messageNumber →
          left.recvMessageNumber = header.messageNumber) ∧
        (header.messageNumber ≤ s.recvMessageNumber →
          left = { s with receivingChainKey := some (chainKeyAt ops chain 1) }) ∧
        (∀ e, ops.cipherDecrypt ciphertext
            (messageKeyAt ops chain (Conversation.gap s header.messageNumber))
            (ops.headerToBytes header) = .error e →
          receiveOnChain ops s ciphertext header = (left, .error e)) ∧
        ∀ plaintext, ops.cipherDecrypt ciphertext
            (messageKeyAt ops chain (Conversation.gap s header.messageNumber))
            (ops.headerToBytes header) = .ok plaintext →
          receiveOnChain ops s ciphertext header =
            ({ left with recvMessageNumber := left.recvMessageNumber + 1 }, .ok plaintext)) := by
  rcases UInt32.lt_or_le header.messageNumber s.recvMessageNumber with past | ahead
  · have none_skipped : Conversation.gap s header.messageNumber = 0 :=
      Nat.sub_eq_zero_of_le (Nat.le_of_lt (UInt32.lt_iff_toNat_lt.mp past))
    have skipped := skip_past ops past
    cases chain : s.receivingChainKey with
    | none =>
        refine Or.inr (Or.inl ⟨by omega, rfl, ?_⟩)
        simp only [receiveOnChain, skipped, chain]
        exact ⟨_, rfl⟩
    | some chainKey =>
        refine Or.inr (Or.inr ⟨by omega, chainKey,
          { s with receivingChainKey := some (chainKeyAt ops chainKey 1) }, rfl, ?_, rfl, ?_,
          fun _ => rfl, ?_, ?_⟩)
        · rw [none_skipped]
        · intro later
          exact absurd (UInt32.lt_trans past later) (UInt32.lt_irrefl _)
        all_goals
          intro outcome opened
          rw [none_skipped] at opened
          rw [receiveOnChain, skipped]
          dsimp only
          rw [chain]
          dsimp only
          rw [show (ops.deriveChainKey chainKey).2 = messageKeyAt ops chainKey 0 from rfl, opened]
          rfl
  · have distance : (header.messageNumber - s.recvMessageNumber).toNat =
        Conversation.gap s header.messageNumber := UInt32.toNat_sub_of_le _ _ ahead
    rcases UInt32.lt_or_le MAX_SKIP (header.messageNumber - s.recvMessageNumber) with wide | narrow
    · refine Or.inl ⟨?_, ?_⟩
      · rw [← distance]
        exact UInt32.lt_iff_toNat_lt.mp wide
      · simp only [receiveOnChain, skip_refused ops ahead wide]
        exact ⟨_, rfl⟩
    · have close : Conversation.gap s header.messageNumber ≤ MAX_SKIP.toNat := by
        rw [← distance]
        exact UInt32.le_iff_toNat_le.mp narrow
      cases chain : s.receivingChainKey with
      | none =>
          refine Or.inr (Or.inl ⟨close, rfl, ?_⟩)
          simp only [receiveOnChain, skip_noChain ops ahead narrow chain, chain]
          exact ⟨_, rfl⟩
      | some chainKey =>
          refine Or.inr (Or.inr ⟨close, chainKey,
            { caughtUp ops s header.messageNumber chainKey with
              receivingChainKey :=
                some (chainKeyAt ops chainKey (Conversation.gap s header.messageNumber + 1)) },
            rfl, rfl, rfl, fun _ => rfl, ?_, ?_, ?_⟩)
          · intro reached
            have same : header.messageNumber = s.recvMessageNumber :=
              UInt32.le_antisymm reached ahead
            have zero : Conversation.gap s s.recvMessageNumber = 0 := Nat.sub_self _
            have still : (s.recvMessageNumber - s.recvMessageNumber).toNat = 0 := by
              rw [UInt32.sub_self]
              rfl
            rw [same, zero]
            simp only [caughtUp, still, skipLoop]
          all_goals
            intro outcome opened
            have current : (caughtUp ops s header.messageNumber chainKey).receivingChainKey =
                some (chainKeyAt ops chainKey (Conversation.gap s header.messageNumber)) := by
              rw [← distance, caughtUp]
            rw [receiveOnChain, skip_onChain ops ahead narrow chain, chainKeyAt_succ]
            dsimp only
            rw [current]
            dsimp only
            rw [show (ops.deriveChainKey (chainKeyAt ops chainKey
              (Conversation.gap s header.messageNumber))).2 = messageKeyAt ops chainKey
                (Conversation.gap s header.messageNumber) from rfl, opened]

theorem RatchetState.encrypt_atomic_iff (s : RatchetState β κ ℓ) (nonce : ν) (plaintext : β) :
    AtomicOnError ops s (.encrypt nonce plaintext) ↔
      RejectsCleanly ops s (.encrypt nonce plaintext) := by
  unfold AtomicOnError RejectsCleanly
  cases sending : s.sendingChainKey with
  | none =>
      constructor
      · intro _ chain present
        cases present
      · intro _ left e returned
        simp only [perform, encrypt, sending, Call.returns.injEq] at returned
        exact returned.1.symm
  | some chain =>
      simp only [perform, encrypt, sending, Option.some.injEq, forall_eq']
      cases sealed : ops.cipherEncrypt nonce plaintext (messageKeyAt ops chain 0)
          (ops.headerToBytes
            ⟨s.dhSendPublic, s.previousSendingChainLength, s.sendMessageNumber⟩) with
      | ok ciphertext =>
          rw [show (ops.deriveChainKey chain).2 = messageKeyAt ops chain 0 from rfl, sealed]
          constructor
          · intro _
            exact Or.inl ⟨ciphertext, rfl⟩
          · intro _ left e returned
            cases returned
      | error failure =>
          rw [show (ops.deriveChainKey chain).2 = messageKeyAt ops chain 0 from rfl, sealed]
          constructor
          · intro atomic
            have same := atomic _ _ rfl
            exact Or.inr (Option.some.inj ((congrArg sendingChainKey same).trans sending))
          · rintro (⟨ciphertext, accepted⟩ | stalls) left e returned
            · cases accepted
            · cases returned
              rw [show (ops.deriveChainKey chain).1 = chain from stalls, ← sending]

omit [DecidableEq β] in
/-- A skip is refused exactly when its gap is too wide, and writes neither the root key
nor the ratchet secret. -/
theorem RatchetState.skip_gap_cases (s : RatchetState β κ ℓ) (until_ : UInt32) :
    (MAX_SKIP.toNat < Conversation.gap s until_ ∧
      ∃ e, skipMissedMessages ops s until_ = (s, .error e)) ∨
    (Conversation.gap s until_ ≤ MAX_SKIP.toNat ∧
      ∃ closed, skipMissedMessages ops s until_ = (closed, .ok ()) ∧
        closed.rootKey = s.rootKey ∧ closed.dhSendSecret = s.dhSendSecret) := by
  rcases UInt32.lt_or_le until_ s.recvMessageNumber with past | ahead
  · have zero : Conversation.gap s until_ = 0 :=
      Nat.sub_eq_zero_of_le (Nat.le_of_lt (UInt32.lt_iff_toNat_lt.mp past))
    exact Or.inr ⟨by omega, s, skip_past ops past, rfl, rfl⟩
  · have distance : (until_ - s.recvMessageNumber).toNat = Conversation.gap s until_ :=
      UInt32.toNat_sub_of_le _ _ ahead
    rw [← distance]
    rcases UInt32.lt_or_le MAX_SKIP (until_ - s.recvMessageNumber) with wide | narrow
    · exact Or.inl ⟨UInt32.lt_iff_toNat_lt.mp wide, _, skip_refused ops ahead wide⟩
    · apply Or.inr
      refine ⟨UInt32.le_iff_toNat_le.mp narrow, ?_⟩
      cases chain : s.receivingChainKey with
      | none => exact ⟨s, skip_noChain ops ahead narrow chain, rfl, rfl⟩
      | some chainKey => exact ⟨_, skip_onChain ops ahead narrow chain, rfl, rfl⟩

omit [DecidableEq β] in
/-- A ratchet installs the header's key and the chain derived from it. -/
theorem RatchetState.dhRatchet_cases (keypair : κ) {s closed : RatchetState β κ ℓ}
    (header : MessageHeader β) (root : closed.rootKey = s.rootKey)
    (secret : closed.dhSendSecret = s.dhSendSecret) :
    (ratchetChain ops s header = none ∧ dhRatchet ops keypair closed header.dhPublic = none) ∨
    ∃ chain ratcheted, ratchetChain ops s header = some chain ∧
      dhRatchet ops keypair closed header.dhPublic = some ratcheted ∧
      ratcheted.receivingChainKey = some chain ∧
      ratcheted.dhReceivePublic = some header.dhPublic ∧ ratcheted.recvMessageNumber = 0 := by
  unfold ratchetChain dhRatchet
  rw [root, secret]
  cases ops.copy32 header.dhPublic with
  | none => exact Or.inl ⟨rfl, rfl⟩
  | some theirPublic =>
      cases ops.copy32 s.dhSendSecret with
      | none => exact Or.inl ⟨rfl, rfl⟩
      | some currentSecret => exact Or.inr ⟨_, _, rfl, rfl, rfl, rfl, rfl⟩

/-- A stored key is gone after the call, so only an accepted packet leaves no trace of a
refusal. -/
theorem RatchetState.decrypt_stored_atomic_iff (s : RatchetState β κ ℓ) (keypair : κ)
    (ciphertext : β) (header : MessageHeader β) {key : κ}
    (stored : s.skippedKeys.lookup (ops.hexEncode header.dhPublic, header.messageNumber) =
      some key) :
    AtomicOnError ops s (.decrypt keypair ciphertext header) ↔
      Opens ops ciphertext header key := by
  unfold AtomicOnError Opens
  simp only [perform, decrypt_stored ops keypair ciphertext stored]
  cases ops.cipherDecrypt ciphertext key (ops.headerToBytes header) with
  | ok plaintext =>
      constructor
      · intro _
        exact ⟨plaintext, rfl⟩
      · intro _ left e returned
        cases returned
  | error failure =>
      constructor
      · intro atomic
        have same := congrArg skippedKeys (atomic _ _ rfl)
        exact absurd same (SkippedKeys.take_ne stored)
      · rintro ⟨plaintext, accepted⟩
        cases accepted

/-- Without a ratchet the refusals before the AEAD are clean; the AEAD's own are not, as
the receiving chain has moved on. -/
theorem RatchetState.decrypt_chain_atomic_iff (s : RatchetState β κ ℓ) (keypair : κ)
    (ciphertext : β) (header : MessageHeader β)
    (absent : s.skippedKeys.lookup (ops.hexEncode header.dhPublic, header.messageNumber) = none)
    (sameKey : s.needRatchet header = false) :
    AtomicOnError ops s (.decrypt keypair ciphertext header) ↔
      MAX_SKIP.toNat < Conversation.gap s header.messageNumber ∨
      ∀ chain, s.receivingChainKey = some chain →
        Opens ops ciphertext header
          (messageKeyAt ops chain (Conversation.gap s header.messageNumber)) ∨
        (header.messageNumber ≤ s.recvMessageNumber ∧ Stalls ops chain) := by
  unfold AtomicOnError
  simp only [perform, decrypt, SkippedKeys.take_of_none absent, sameKey, Bool.false_eq_true,
    ↓reduceIte]
  rcases receiveOnChain_cases ops s ciphertext header with
    ⟨wide, e, refused⟩ | ⟨narrow, noChain, e, refused⟩ |
      ⟨narrow, chain, left, current, moved, -, later, earlier, refuses, accepts⟩
  · rw [refused]
    constructor
    · intro _
      exact Or.inl wide
    · intro _ left e returned
      exact (Call.returns.inj returned).1.symm
  · rw [refused, noChain]
    constructor
    · intro _
      apply Or.inr
      intro chain present
      cases present
    · intro _ left e returned
      exact (Call.returns.inj returned).1.symm
  · have notWide : ¬ MAX_SKIP.toNat < Conversation.gap s header.messageNumber := by omega
    simp only [current, notWide, false_or, Option.some.injEq, forall_eq', Opens]
    cases opened : ops.cipherDecrypt ciphertext
        (messageKeyAt ops chain (Conversation.gap s header.messageNumber))
        (ops.headerToBytes header) with
    | ok plaintext =>
        rw [accepts plaintext opened]
        constructor
        · intro _
          exact Or.inl ⟨plaintext, rfl⟩
        · intro _ left e returned
          cases returned
    | error failure =>
        rw [refuses failure opened]
        constructor
        · intro atomic
          have same : left = s := atomic _ _ rfl
          rw [same] at later moved
          apply Or.inr
          rcases UInt32.lt_or_le s.recvMessageNumber header.messageNumber with beyond | reached
          · exact absurd (later beyond) (fun equal =>
              UInt32.lt_irrefl _ (equal ▸ beyond : header.messageNumber < header.messageNumber))
          · refine ⟨reached, ?_⟩
            have zero : Conversation.gap s header.messageNumber = 0 :=
              Nat.sub_eq_zero_of_le (UInt32.le_iff_toNat_le.mp reached)
            rw [zero, current, Option.some.injEq] at moved
            exact moved.symm
        · rintro (⟨plaintext, accepted⟩ | ⟨reached, stalls⟩) left' e returned
          · cases accepted
          · obtain ⟨rfl, -⟩ := Call.returns.inj returned
            rw [earlier reached, show chainKeyAt ops chain 1 = chain from stalls, ← current]

/-- A ratchet that goes through has installed the header's key, so every later refusal
changes the state. -/
theorem RatchetState.decrypt_ratchet_atomic_iff (s : RatchetState β κ ℓ) (keypair : κ)
    (ciphertext : β) (header : MessageHeader β)
    (absent : s.skippedKeys.lookup (ops.hexEncode header.dhPublic, header.messageNumber) = none)
    (newKey : s.needRatchet header = true) :
    AtomicOnError ops s (.decrypt keypair ciphertext header) ↔
      MAX_SKIP.toNat < Conversation.gap s header.previousChainLength ∨
      ∀ chain, ratchetChain ops s header = some chain →
        header.messageNumber.toNat ≤ MAX_SKIP.toNat ∧
        Opens ops ciphertext header (messageKeyAt ops chain header.messageNumber.toNat) := by
  have other : s.dhReceivePublic ≠ some header.dhPublic := by
    intro same
    simp only [needRatchet, same, ne_eq, not_true_eq_false, decide_false,
      Bool.false_eq_true] at newKey
  unfold AtomicOnError
  simp only [perform, decrypt, SkippedKeys.take_of_none absent, newKey, ↓reduceIte, ratchetStep]
  rcases skip_gap_cases ops s header.previousChainLength with
    ⟨wide, e, refused⟩ | ⟨narrow, closed, skipped, root, secret⟩
  · rw [refused]
    constructor
    · intro _
      exact Or.inl wide
    · intro _ left e returned
      exact (Call.returns.inj returned).1.symm
  · have notWide : ¬ MAX_SKIP.toNat < Conversation.gap s header.previousChainLength := by omega
    simp only [skipped, notWide, false_or]
    rcases dhRatchet_cases ops keypair header root secret with
      ⟨noChain, panics⟩ | ⟨chain, ratcheted, derived, ratchets, current, installed, fromZero⟩
    · rw [panics, noChain]
      constructor
      · intro _ chain present
        cases present
      · intro _ left e returned
        cases returned
    · have distance : Conversation.gap ratcheted header.messageNumber =
          header.messageNumber.toNat := by
        rw [Conversation.gap, fromZero]
        rfl
      have changed : ∀ left : RatchetState β κ ℓ,
          left.dhReceivePublic = ratcheted.dhReceivePublic → left ≠ s := by
        intro left kept same
        rw [same, installed] at kept
        exact other kept
      simp only [ratchets, derived, Option.some.injEq, forall_eq']
      rcases receiveOnChain_cases ops ratcheted ciphertext header with
        ⟨wide, e, refused⟩ | ⟨_, noChain, _⟩ |
          ⟨small, chain', left, current', -, kept, -, -, refuses, accepts⟩
      · rw [refused]
        constructor
        · intro atomic
          exact absurd (atomic _ _ rfl) (changed ratcheted rfl)
        · rintro ⟨small, -⟩
          omega
      · rw [current] at noChain
        cases noChain
      · obtain rfl : chain = chain' := Option.some.inj (current.symm.trans current')
        rw [distance] at refuses accepts small
        simp only [small, true_and, Opens]
        cases opened : ops.cipherDecrypt ciphertext
            (messageKeyAt ops chain header.messageNumber.toNat) (ops.headerToBytes header) with
        | ok plaintext =>
            rw [accepts plaintext opened]
            constructor
            · intro _
              exact ⟨plaintext, rfl⟩
            · intro _ left e returned
              cases returned
        | error failure =>
            rw [refuses failure opened]
            constructor
            · intro atomic
              exact absurd (atomic _ _ rfl) (changed left kept)
            · rintro ⟨plaintext, accepted⟩
              cases accepted

theorem RatchetState.atomic_iff (s : RatchetState β κ ℓ) (call : Operation β κ ν) :
    AtomicOnError ops s call ↔ RejectsCleanly ops s call := by
  cases call with
  | encrypt nonce plaintext => exact encrypt_atomic_iff ops s nonce plaintext
  | decrypt keypair ciphertext header =>
      cases stored : s.skippedKeys.lookup
          (ops.hexEncode header.dhPublic, header.messageNumber) with
      | some key =>
          simp only [RejectsCleanly, stored]
          exact decrypt_stored_atomic_iff ops s keypair ciphertext header stored
      | none =>
          cases newKey : s.needRatchet header with
          | true =>
              simp only [RejectsCleanly, stored, newKey, ↓reduceIte]
              exact decrypt_ratchet_atomic_iff ops s keypair ciphertext header stored newKey
          | false =>
              simp only [RejectsCleanly, stored, newKey, Bool.false_eq_true, ↓reduceIte]
              exact decrypt_chain_atomic_iff ops s keypair ciphertext header stored newKey

/-- Where every refusal is clean, the refused calls can be left out: the others return
the same results and lead to the same state. -/
theorem RatchetState.performAll_accepted (s : RatchetState β κ ℓ)
    (calls : List (Operation β κ ν)) (clean : EachCall ops (RejectsCleanly ops) s calls) :
    performAll ops s (accepted ops s calls) =
      (performAll ops s calls).map fun done => (done.1, done.2.filter Except.isOk) := by
  induction calls generalizing s with
  | nil => rfl
  | cons call calls ih =>
      obtain ⟨now, rest⟩ := clean
      cases made : s.perform ops call with
      | panics => simp only [accepted, performAll, made, Option.map_none]
      | returns left result =>
          have following := ih left (rest left result made)
          cases result with
          | error e =>
              obtain rfl : left = s := (atomic_iff ops s call).mpr now left e made
              simp only [accepted, made, following, performAll, Option.map_map]
              rfl
          | ok output =>
              simp only [accepted, made, performAll, following, Option.map_map]
              rfl

/-- In any sequence of calls, every error leaves the state unchanged exactly when every
call is accepted or refused before anything is written; the refused calls then have no
effect on the others. -/
theorem atomic_run_iff (p : Primitives) (s : ByteState)
    (calls : List (Operation Bytes (ByteArr 32) (ByteArr 24))) :
    (RatchetState.EachCall (ratchetOps p) (RatchetState.AtomicOnError (ratchetOps p)) s calls ↔
      RatchetState.EachCall (ratchetOps p) (RatchetState.RejectsCleanly (ratchetOps p)) s
        calls) ∧
    (RatchetState.EachCall (ratchetOps p) (RatchetState.RejectsCleanly (ratchetOps p)) s calls →
      RatchetState.performAll (ratchetOps p) s (RatchetState.accepted (ratchetOps p) s calls) =
        (RatchetState.performAll (ratchetOps p) s calls).map fun done =>
          (done.1, done.2.filter Except.isOk)) := by
  constructor
  · exact RatchetState.EachCall.congr (ratchetOps p)
      (RatchetState.atomic_iff (ratchetOps p)) s calls
  · exact RatchetState.performAll_accepted (ratchetOps p) s calls

/-- Bob asks to send before he has a chain: the refusal is clean. -/
theorem atomic_run_iff_no_chain :
    let ops := ratchetOps .sample
    let bob : ByteState := .initReceiver (List.replicate 32 9) (List.replicate 32 2)
      (List.replicate 32 2)
    let calls := [.encrypt (.replicate 24 0) [104, 105]]
    RatchetState.performAll ops bob (RatchetState.accepted ops bob calls) =
      (RatchetState.performAll ops bob calls).map fun done =>
        (done.1, done.2.filter Except.isOk) := by
  intro ops bob calls
  apply (atomic_run_iff .sample bob calls).2
  refine ⟨?_, fun _ _ _ => trivial⟩
  intro chain present
  cases present

/-- Bob's first packet arrives with an empty body. The error leaves him one step down
Alice's chain, and the honest packet can no longer be read. -/
theorem tampered_packet_blocks_session :
    ∃ (alice alice' left : ByteState) (ciphertext : Bytes) (header : MessageHeader Bytes)
      (e : CryptoError),
      let ops := ratchetOps .sample
      let bob : ByteState := .initReceiver (List.replicate 32 9) (List.replicate 32 2)
        (List.replicate 32 2)
      RatchetState.initSender ops (.replicate 32 1) (List.replicate 32 9) (List.replicate 32 2) =
        some alice ∧
      RatchetState.encrypt ops (.replicate 24 0) alice [104, 105] =
        (alice', .ok (ciphertext, header)) ∧
      RatchetState.decrypt ops (.replicate 32 3) bob [] header = .returns left (.error e) ∧
      left ≠ bob ∧
      (RatchetState.decrypt ops (.replicate 32 3) bob ciphertext header).result =
        some (.ok [104, 105]) ∧
      (RatchetState.decrypt ops (.replicate 32 3) left ciphertext header).result =
        some (.error (.decryptionFailed "aead::Error")) := by
  refine ⟨_, _, _, _, _, _, rfl, rfl, rfl, ?_, by decide +kernel, by decide +kernel⟩
  intro same
  exact absurd (congrArg RatchetState.dhReceivePublic same) (by decide)

end Hysj.Ratchet
