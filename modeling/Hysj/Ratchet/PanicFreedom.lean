import Hysj.Ratchet.Atomicity
import Hysj.Ratchet.Sending

set_option autoImplicit false

/- `decrypt` with every partial operation in its place: slices that are too short, and
counters under checked arithmetic. -/
namespace Hysj.Ratchet

open Crypto

/-- `a - b` under checked arithmetic; `none` is the overflow panic. -/
def checkedSub (a b : UInt32) : Option UInt32 := if b ≤ a then some (a - b) else none

/-- `n += 1` under checked arithmetic. -/
def checkedIncrement (n : UInt32) : Option UInt32 :=
  if n.toNat + 1 < 2 ^ 32 then some (n + 1) else none

/-- A call that did not panic: the state it leaves, what it returns, and how many times its
skip loops went round. -/
structure Finished (σ α : Type) where
  state : σ
  result : Except CryptoError α
  rounds : Nat

variable {β κ ν ℓ : Type} [DecidableEq ℓ] (ops : Ops β κ ν ℓ)

namespace RatchetState

def skipChecked (s : RatchetState β κ ℓ) (until_ : UInt32) :
    Option (Finished (RatchetState β κ ℓ) Unit) :=
  if s.recvMessageNumber > until_ then some ⟨s, .ok (), 0⟩
  else do
    let skipCount ← checkedSub until_ s.recvMessageNumber
    if skipCount > MAX_SKIP then
      some ⟨s, .error (.ratchetError s!"too many skipped messages: {skipCount}"), 0⟩
    else
      match s.receivingChainKey with
      | none => some ⟨s, .ok (), 0⟩
      | some receivingCk =>
          let dhHex := (s.dhReceivePublic.map ops.hexEncode).getD ops.emptyString
          let skipped := skipLoop ops dhHex skipCount.toNat s.recvMessageNumber receivingCk
            s.skippedKeys
          some ⟨{ s with
            receivingChainKey := some skipped.1
            recvMessageNumber := until_
            skippedKeys := skipped.2 }, .ok (), skipCount.toNat⟩

def receiveChecked (s : RatchetState β κ ℓ) (ciphertext : β) (header : MessageHeader β) :
    Option (Finished (RatchetState β κ ℓ) β) := do
  let caughtUp ← skipChecked ops s header.messageNumber
  match caughtUp.result with
  | .error e => some ⟨caughtUp.state, .error e, caughtUp.rounds⟩
  | .ok () =>
      match caughtUp.state.receivingChainKey with
      | none =>
          some ⟨caughtUp.state, .error (.ratchetError "no receiving chain key"), caughtUp.rounds⟩
      | some receivingCk =>
          let derived := ops.deriveChainKey receivingCk
          let advanced := { caughtUp.state with receivingChainKey := some derived.1 }
          match ops.cipherDecrypt ciphertext derived.2 (ops.headerToBytes header) with
          | .error e => some ⟨advanced, .error e, caughtUp.rounds⟩
          | .ok plaintext => do
              let number ← checkedIncrement advanced.recvMessageNumber
              some ⟨{ advanced with recvMessageNumber := number }, .ok plaintext, caughtUp.rounds⟩

def decryptChecked [DecidableEq β] (keypair : κ) (s : RatchetState β κ ℓ) (ciphertext : β)
    (header : MessageHeader β) : Option (Finished (RatchetState β κ ℓ) β) :=
  match s.skippedKeys.take (ops.hexEncode header.dhPublic, header.messageNumber) with
  | (some messageKey, skipped) =>
      some ⟨{ s with skippedKeys := skipped },
        ops.cipherDecrypt ciphertext messageKey (ops.headerToBytes header), 0⟩
  | (none, _) =>
      if s.needRatchet header then do
        let closed ← skipChecked ops s header.previousChainLength
        match closed.result with
        | .error e => some ⟨closed.state, .error e, closed.rounds⟩
        | .ok () =>
            -- both slices of 32 bytes are taken here
            let ratcheted ← dhRatchet ops keypair closed.state header.dhPublic
            let received ← receiveChecked ops ratcheted ciphertext header
            some ⟨received.state, received.result, closed.rounds + received.rounds⟩
      else receiveChecked ops s ciphertext header

/-- The subtraction is guarded, and the loop goes round `MAX_SKIP` times at most. -/
theorem skipChecked_eq (s : RatchetState β κ ℓ) (until_ : UInt32) :
    ∃ rounds ≤ MAX_SKIP.toNat, skipChecked ops s until_ =
      some ⟨(skipMissedMessages ops s until_).1, (skipMissedMessages ops s until_).2, rounds⟩ := by
  unfold skipChecked
  rcases UInt32.lt_or_le until_ s.recvMessageNumber with past | ahead
  · refine ⟨0, Nat.zero_le _, ?_⟩
    rw [if_pos past, skip_past ops past]
  · have guarded : checkedSub until_ s.recvMessageNumber = some (until_ - s.recvMessageNumber) :=
      if_pos ahead
    have notPast : ¬ s.recvMessageNumber > until_ := UInt32.not_lt.mpr ahead
    rw [if_neg notPast, guarded, Option.bind_eq_bind, Option.bind_some]
    rcases UInt32.lt_or_le MAX_SKIP (until_ - s.recvMessageNumber) with wide | narrow
    · refine ⟨0, Nat.zero_le _, ?_⟩
      rw [if_pos wide, skip_refused ops ahead wide]
    · have notWide : ¬ until_ - s.recvMessageNumber > MAX_SKIP := UInt32.not_lt.mpr narrow
      rw [if_neg notWide]
      cases chain : s.receivingChainKey with
      | none => exact ⟨0, Nat.zero_le _, by rw [skip_noChain ops ahead narrow chain]⟩
      | some receivingCk =>
          refine ⟨(until_ - s.recvMessageNumber).toNat, UInt32.le_iff_toNat_le.mp narrow, ?_⟩
          rw [skip_onChain ops ahead narrow chain, caughtUp, ← skipLoop_fst]

/-- What a skip leaves: the chain and the counter are caught up with the number asked for. -/
theorem skip_reached (s : RatchetState β κ ℓ) (until_ : UInt32) :
    (MAX_SKIP.toNat < Conversation.gap s until_ ∧
      ∃ e, skipMissedMessages ops s until_ = (s, .error e)) ∨
    (Conversation.gap s until_ ≤ MAX_SKIP.toNat ∧
      ∃ caught, skipMissedMessages ops s until_ = (caught, .ok ()) ∧
        caught.receivingChainKey = s.receivingChainKey.map
          (fun chain => chainKeyAt ops chain (Conversation.gap s until_)) ∧
        (s.receivingChainKey ≠ none →
          caught.recvMessageNumber.toNat = max s.recvMessageNumber.toNat until_.toNat)) := by
  rcases UInt32.lt_or_le until_ s.recvMessageNumber with past | ahead
  · have behind := UInt32.lt_iff_toNat_lt.mp past
    have zero : Conversation.gap s until_ = 0 := Nat.sub_eq_zero_of_le (Nat.le_of_lt behind)
    refine Or.inr ⟨by omega, s, skip_past ops past, ?_, fun _ => by omega⟩
    rw [zero]
    cases s.receivingChainKey <;> rfl
  · have beyond := UInt32.le_iff_toNat_le.mp ahead
    have distance : (until_ - s.recvMessageNumber).toNat = Conversation.gap s until_ :=
      UInt32.toNat_sub_of_le _ _ ahead
    rcases UInt32.lt_or_le MAX_SKIP (until_ - s.recvMessageNumber) with wide | narrow
    · rw [← distance]
      exact Or.inl ⟨UInt32.lt_iff_toNat_lt.mp wide, _, skip_refused ops ahead wide⟩
    · have close : Conversation.gap s until_ ≤ MAX_SKIP.toNat := by
        rw [← distance]
        exact UInt32.le_iff_toNat_le.mp narrow
      cases chain : s.receivingChainKey with
      | none =>
          exact Or.inr ⟨close, s, skip_noChain ops ahead narrow chain, by rw [chain]; rfl,
            fun present => absurd rfl present⟩
      | some chainKey =>
          refine Or.inr ⟨close, _, skip_onChain ops ahead narrow chain, ?_, fun _ => ?_⟩
          · rw [← distance]
            rfl
          · exact (Nat.max_eq_right beyond).symm

/-- The packet is accepted on the current chain when the receive counter, once caught up, is
the last `u32`. -/
def Overflows (s : RatchetState β κ ℓ) (ciphertext : β) (header : MessageHeader β) : Prop :=
  Conversation.gap s header.messageNumber ≤ MAX_SKIP.toNat ∧
    max s.recvMessageNumber.toNat header.messageNumber.toNat + 1 = 2 ^ 32 ∧
    ∃ chain, s.receivingChainKey = some chain ∧
      Opens ops ciphertext header
        (messageKeyAt ops chain (Conversation.gap s header.messageNumber))

/-- The only panic on the current chain is the overflow of its counter. -/
theorem receiveChecked_cases (s : RatchetState β κ ℓ) (ciphertext : β) (header : MessageHeader β) :
    (Overflows ops s ciphertext header ∧ receiveChecked ops s ciphertext header = none) ∨
    (¬ Overflows ops s ciphertext header ∧ ∃ rounds ≤ MAX_SKIP.toNat,
      receiveChecked ops s ciphertext header =
        some ⟨(receiveOnChain ops s ciphertext header).1,
          (receiveOnChain ops s ciphertext header).2, rounds⟩) := by
  obtain ⟨rounds, few, skips⟩ := skipChecked_eq ops s header.messageNumber
  unfold receiveChecked receiveOnChain Overflows
  rw [skips, Option.bind_eq_bind, Option.bind_some]
  rcases skip_reached ops s header.messageNumber with
    ⟨wide, e, refused⟩ | ⟨narrow, caught, reached, chain, number⟩
  · rw [refused]
    exact Or.inr ⟨fun overflows => by omega, rounds, few, rfl⟩
  · rw [reached]
    cases current : s.receivingChainKey with
    | none =>
        rw [current, Option.map_none] at chain
        simp only [chain]
        refine Or.inr ⟨?_, rounds, few, rfl⟩
        rintro ⟨-, -, _, present, -⟩
        cases present
    | some chainKey =>
        rw [current, Option.map_some] at chain
        have last := number (by rw [current]; exact Option.some_ne_none chainKey)
        simp only [chain, narrow, true_and, Option.some.injEq, exists_eq_left', Opens]
        rw [show (ops.deriveChainKey (chainKeyAt ops chainKey
          (Conversation.gap s header.messageNumber))).2 = messageKeyAt ops chainKey
            (Conversation.gap s header.messageNumber) from rfl]
        cases opened : ops.cipherDecrypt ciphertext (messageKeyAt ops chainKey
            (Conversation.gap s header.messageNumber)) (ops.headerToBytes header) with
        | error e =>
            refine Or.inr ⟨?_, rounds, few, rfl⟩
            rintro ⟨-, _, accepted⟩
            cases accepted
        | ok plaintext =>
            unfold checkedIncrement
            by_cases room : caught.recvMessageNumber.toNat + 1 < 2 ^ 32
            · refine Or.inr ⟨fun overflows => by omega, rounds, few, ?_⟩
              simp only [room, ↓reduceIte, Option.bind_eq_bind, Option.bind_some]
            · have bounded := caught.recvMessageNumber.toNat_lt
              refine Or.inl ⟨⟨by omega, plaintext, rfl⟩, ?_⟩
              simp only [room, ↓reduceIte, Option.bind_eq_bind, Option.bind_none]

/-- The headers and packets that `decrypt` survives: the key is stored; or the header names a
new ratchet key, which is long enough or never looked at; or the counter does not overflow. -/
def Survives [DecidableEq β] (s : RatchetState β κ ℓ) (ciphertext : β)
    (header : MessageHeader β) : Prop :=
  match s.skippedKeys.lookup (ops.hexEncode header.dhPublic, header.messageNumber) with
  | some _ => True
  | none =>
      if s.needRatchet header then
        MAX_SKIP.toNat < Conversation.gap s header.previousChainLength ∨
          ops.copy32 header.dhPublic ≠ none
      else ¬ Overflows ops s ciphertext header

/-- With a ratchet secret of 32 bytes, `decrypt` ends in `Ok` or `Err` exactly on the packets
it survives, and then as the release build does. -/
theorem decryptChecked_cases [DecidableEq β] (keypair : κ) (s : RatchetState β κ ℓ)
    (ciphertext : β) (header : MessageHeader β) (secret : ops.copy32 s.dhSendSecret ≠ none) :
    (¬ Survives ops s ciphertext header ∧ decryptChecked ops keypair s ciphertext header = none) ∨
    (Survives ops s ciphertext header ∧ ∃ state result, ∃ rounds ≤ 2 * MAX_SKIP.toNat,
      decryptChecked ops keypair s ciphertext header = some ⟨state, result, rounds⟩ ∧
        decrypt ops keypair s ciphertext header = .returns state result) := by
  unfold Survives decryptChecked decrypt
  cases stored : s.skippedKeys.lookup (ops.hexEncode header.dhPublic, header.messageNumber) with
  | some messageKey =>
      rw [SkippedKeys.take_of_some stored]
      exact Or.inr ⟨trivial, _, _, 0, Nat.zero_le _, rfl, rfl⟩
  | none =>
      simp only [SkippedKeys.take_of_none stored]
      cases newKey : s.needRatchet header with
      | false =>
          simp only [Bool.false_eq_true, ↓reduceIte]
          rcases receiveChecked_cases ops s ciphertext header with
            ⟨overflows, panics⟩ | ⟨safe, rounds, few, returns⟩
          · exact Or.inl ⟨fun survives => survives overflows, panics⟩
          · exact Or.inr ⟨safe, _, _, rounds, by omega, returns, rfl⟩
      | true =>
          obtain ⟨first, few, skips⟩ := skipChecked_eq ops s header.previousChainLength
          simp only [↓reduceIte, ratchetStep, skips, Option.bind_eq_bind, Option.bind_some]
          rcases skip_gap_cases ops s header.previousChainLength with
            ⟨wide, e, refused⟩ | ⟨narrow, closed, skipped, root, kept⟩
          · rw [refused]
            exact Or.inr ⟨Or.inl wide, _, _, first, by omega, rfl, rfl⟩
          · have notWide :
                ¬ MAX_SKIP.toNat < Conversation.gap s header.previousChainLength := by omega
            simp only [skipped, notWide, false_or]
            rcases dhRatchet_cases ops keypair header root kept with
              ⟨noChain, panics⟩ | ⟨chain, ratcheted, derived, ratchets, -, -, fromZero⟩
            · rw [panics]
              have short : ops.copy32 header.dhPublic = none := by
                unfold ratchetChain at noChain
                cases copied : ops.copy32 header.dhPublic with
                | none => rfl
                | some theirPublic =>
                    rw [copied] at noChain
                    cases own : ops.copy32 s.dhSendSecret with
                    | none => exact absurd own secret
                    | some currentSecret =>
                        rw [own] at noChain
                        cases noChain
              exact Or.inl ⟨fun long => long short, rfl⟩
            · have long : ops.copy32 header.dhPublic ≠ none := by
                intro short
                rw [ratchetChain, short] at derived
                cases derived
              rw [ratchets]
              rcases receiveChecked_cases ops ratcheted ciphertext header with
                ⟨⟨close, full, -⟩, -⟩ | ⟨-, rounds, bounded, returns⟩
              · have small : MAX_SKIP.toNat = 1000 := rfl
                rw [Conversation.gap, fromZero] at close
                rw [fromZero] at full
                have zero : (0 : UInt32).toNat = 0 := rfl
                omega
              · rw [Option.bind_some, returns]
                exact Or.inr ⟨long, _, _, first + rounds, by omega, rfl, rfl⟩

end RatchetState

/-- A session that begins with keys of 32 bytes. -/
def Started (p : Primitives) (s : ByteState) : Prop :=
  (∃ keypair sharedSecret recipientDhPublic, recipientDhPublic.length = 32 ∧
    RatchetState.initSender (ratchetOps p) keypair sharedSecret recipientDhPublic = some s) ∨
  ∃ sharedSecret secretBytes publicBytes, secretBytes.length = 32 ∧ publicBytes.length = 32 ∧
    s = RatchetState.initReceiver sharedSecret secretBytes publicBytes

theorem copy32_ne_none {bytes : Bytes} : copy32 bytes ≠ none ↔ 32 ≤ bytes.length := by
  unfold copy32
  split <;> simp_all

theorem Started.secret {p : Primitives} {s : ByteState} (started : Started p s) :
    s.dhSendSecret.length = 32 := by
  rcases started with ⟨keypair, sharedSecret, recipientDhPublic, -, made⟩ |
    ⟨sharedSecret, secretBytes, publicBytes, exact_, -, rfl⟩
  · unfold RatchetState.initSender at made
    rw [Option.bind_eq_bind, Option.bind_eq_some_iff] at made
    obtain ⟨theirPublic, -, made⟩ := made
    rw [← Option.some.inj made]
    exact keypair.toList_length
  · exact exact_

theorem secret_perform {p : Primitives} {s left : ByteState}
    {call : Operation Bytes (ByteArr 32) (ByteArr 24)}
    {result : Except CryptoError (Output Bytes)} (secret : s.dhSendSecret.length = 32)
    (returned : s.perform (ratchetOps p) call = .returns left result) :
    left.dhSendSecret.length = 32 := by
  rcases RatchetState.secret_perform_cases (ratchetOps p) returned with kept | ⟨keypair, fresh⟩
  · rw [kept]
    exact secret
  · rw [fresh]
    exact keypair.toList_length

theorem secret_performAll {p : Primitives} {s left : ByteState}
    {calls : List (Operation Bytes (ByteArr 32) (ByteArr 24))}
    {results : List (Except CryptoError (Output Bytes))} (secret : s.dhSendSecret.length = 32)
    (reached : s.performAll (ratchetOps p) calls = some (left, results)) :
    left.dhSendSecret.length = 32 := by
  induction calls generalizing s results with
  | nil =>
      obtain ⟨rfl, -⟩ := Prod.mk.inj (Option.some.inj reached)
      exact secret
  | cons call calls ih =>
      unfold RatchetState.performAll at reached
      cases made : s.perform (ratchetOps p) call with
      | panics =>
          rw [made] at reached
          cases reached
      | returns next result =>
          rw [made] at reached
          obtain ⟨rest, continued, same⟩ := Option.map_eq_some_iff.mp reached
          obtain ⟨rfl, -⟩ := Prod.mk.inj same
          exact ih (secret_perform secret made) continued

/-- In every state that a session reaches, a call of `decrypt` returns, with at most two full
skip loops behind it and as in the release build, exactly on the packets it survives. -/
theorem decrypt_returns_iff (p : Primitives) {start s : ByteState} (started : Started p start)
    (calls : List (Operation Bytes (ByteArr 32) (ByteArr 24)))
    (results : List (Except CryptoError (Output Bytes)))
    (reached : start.performAll (ratchetOps p) calls = some (s, results))
    (keypair : ByteArr 32) (ciphertext : Bytes) (header : MessageHeader Bytes) :
    (∃ state result, ∃ rounds ≤ 2 * MAX_SKIP.toNat,
      RatchetState.decryptChecked (ratchetOps p) keypair s ciphertext header =
        some ⟨state, result, rounds⟩ ∧
      RatchetState.decrypt (ratchetOps p) keypair s ciphertext header = .returns state result) ↔
    RatchetState.Survives (ratchetOps p) s ciphertext header := by
  have secret : copy32 s.dhSendSecret ≠ none := by
    rw [copy32_ne_none, secret_performAll started.secret reached]
  rcases RatchetState.decryptChecked_cases (ratchetOps p) keypair s ciphertext header secret with
    ⟨against, panics⟩ | ⟨safe, returns⟩
  · rw [panics]
    apply iff_of_false _ against
    rintro ⟨_, _, _, -, returned, -⟩
    cases returned
  · exact iff_of_true returns safe

/-- Bob reads nothing of a packet without a body, on a chain that Alice's key starts. -/
theorem decrypt_returns_iff_empty :
    let bob : ByteState := .initReceiver (List.replicate 32 9) (List.replicate 32 2)
      (List.replicate 32 2)
    ∃ state result rounds, rounds ≤ 2 * MAX_SKIP.toNat ∧
      RatchetState.decryptChecked (ratchetOps .sample) (.replicate 32 3) bob []
        ⟨List.replicate 32 1, 0, 0⟩ = some ⟨state, result, rounds⟩ := by
  intro bob
  have started : Started .sample bob :=
    Or.inr ⟨_, _, _, List.length_replicate, List.length_replicate, rfl⟩
  obtain ⟨state, result, rounds, few, returns, -⟩ :=
    (decrypt_returns_iff .sample started [] [] rfl (.replicate 32 3) []
      ⟨List.replicate 32 1, 0, 0⟩).mpr (Or.inr (by decide))
  exact ⟨state, result, rounds, few, returns⟩

/-- A header whose key is empty parses, and the first packet that carries it makes Bob panic. -/
theorem decrypt_panics_on_short_key :
    let bob : ByteState := .initReceiver (List.replicate 32 9) (List.replicate 32 2)
      (List.replicate 32 2)
    Started .sample bob ∧
    MessageHeader.ofJson (.obj [("dh_public", .arr []), ("previous_chain_length", Serde.word 0),
      ("message_number", Serde.word 0)]) = some ⟨[], 0, 0⟩ ∧
    RatchetState.decryptChecked (ratchetOps .sample) (.replicate 32 3) bob [] ⟨[], 0, 0⟩ = none ∧
    (RatchetState.decrypt (ratchetOps .sample) (.replicate 32 3) bob []
      ⟨[], 0, 0⟩).result = none := by
  intro bob
  have started : Started .sample bob :=
    Or.inr ⟨_, _, _, List.length_replicate, List.length_replicate, rfl⟩
  exact ⟨started, MessageHeader.ofJson_toJson ⟨[], 0, 0⟩,
    Option.isNone_iff_eq_none.mp (by decide +kernel), by decide +kernel⟩

end Hysj.Ratchet
