import Mathlib.Data.List.Nodup
import Hysj.Ratchet.Sending
import Hysj.Ratchet.Wire

set_option autoImplicit false

/- The headers of a whole run, under the wrapping counter of the release build. -/
namespace Hysj.Ratchet

open Crypto

section

variable {β κ ν ℓ : Type} [DecidableEq β] [DecidableEq ℓ] (ops : Ops β κ ν ℓ)

/-- The header that a successful `encrypt` returns. -/
def sentHeader : Except CryptoError (Output β) → List (MessageHeader β)
  | .ok (.encrypted _ header) => [header]
  | _ => []

def Operation.isEncrypt : Operation β κ ν → Bool
  | .encrypt _ _ => true
  | .decrypt _ _ _ => false

/-- The keypair that a call draws. -/
def Operation.drawn (s : RatchetState β κ ℓ) : Operation β κ ν → List κ
  | .encrypt _ _ => []
  | .decrypt keypair _ header => if RatchetState.draws ops keypair s header then [keypair] else []

namespace RatchetState

/-- The headers of all successful `encrypt` calls of a run, in their order; a panic ends it. -/
def headers (s : RatchetState β κ ℓ) : List (Operation β κ ν) → List (MessageHeader β)
  | [] => []
  | call :: calls =>
      match s.perform ops call with
      | .panics => []
      | .returns left result => sentHeader result ++ headers left calls

/-- The keypairs a run draws. -/
def drawn (s : RatchetState β κ ℓ) : List (Operation β κ ν) → List κ
  | [] => []
  | call :: calls =>
      match s.perform ops call with
      | .panics => []
      | .returns left _ => call.drawn ops s ++ drawn left calls

/-- How many `encrypt` calls of a run succeed while the ratchet key is `key`. -/
def sentWith (key : β) (s : RatchetState β κ ℓ) : List (Operation β κ ν) → Nat
  | [] => 0
  | call :: calls =>
      match s.perform ops call with
      | .panics => 0
      | .returns left result =>
          (if call.isEncrypt ∧ result.isOk ∧ s.dhSendPublic = key then 1 else 0) +
            sentWith key left calls

/-- A call counts a message, or draws a keypair, or does neither. -/
theorem perform_cases {s left : RatchetState β κ ℓ} {call : Operation β κ ν}
    {result : Except CryptoError (Output β)}
    (returned : s.perform ops call = .returns left result) :
    (sentHeader result = [] ∧ call.drawn ops s = [] ∧ (call.isEncrypt && result.isOk) = false ∧
      left.sending = s.sending) ∨
    (∃ header, sentHeader result = [header] ∧ header.dhPublic = s.dhSendPublic ∧
      header.messageNumber = s.sendMessageNumber ∧ s.sendingChainKey.isSome = true ∧
      call.drawn ops s = [] ∧ (call.isEncrypt && result.isOk) = true ∧
      left.sending = (s.dhSendSecret, s.dhSendPublic, s.sendMessageNumber + 1, true)) ∨
    (∃ keypair, sentHeader result = [] ∧ call.drawn ops s = [keypair] ∧
      (call.isEncrypt && result.isOk) = false ∧ left.sending = freshSending ops keypair) := by
  cases call with
  | encrypt nonce plaintext =>
      obtain ⟨rfl, rfl⟩ := Call.returns.inj returned
      rcases sending_encrypt ops nonce s plaintext with
        ⟨⟨e, failed⟩, kept⟩ | ⟨ciphertext, header, sealed, key, number, chain, counted⟩
      · rw [failed]
        exact Or.inl ⟨rfl, rfl, rfl, kept⟩
      · rw [sealed]
        exact Or.inr (Or.inl ⟨header, rfl, key, number, chain, rfl, rfl, counted⟩)
  | decrypt keypair ciphertext header =>
      obtain ⟨outcome, decrypts, rfl⟩ := decrypt_of_perform ops returned
      have sends := sending_decrypt ops decrypts
      have silent : sentHeader (outcome.map Output.decrypted) = [] := by
        cases outcome <;> rfl
      simp only [Operation.drawn]
      split at sends
      · rename_i drew
        rw [if_pos drew]
        exact Or.inr (Or.inr ⟨keypair, silent, rfl, rfl, sends⟩)
      · rename_i kept
        rw [if_neg kept]
        exact Or.inl ⟨silent, rfl, rfl, sends⟩

/-- The ratchet key, if there is a chain to send with it. -/
def livePublic (s : RatchetState β κ ℓ) : List β :=
  if s.sendingChainKey.isSome then [s.dhSendPublic] else []

/-- The public keys that the headers of a run can carry, one for each of its sending chains. -/
def publics (s : RatchetState β κ ℓ) (calls : List (Operation β κ ν)) : List β :=
  s.livePublic ++ (s.drawn ops calls).map fun keypair => ops.toVec (ops.publicKey keypair)

section

variable {s left : RatchetState β κ ℓ} {call : Operation β κ ν} {calls : List (Operation β κ ν)}
variable {result : Except CryptoError (Output β)}

omit [DecidableEq β] in
theorem livePublic_of_sending (same : left.sending = s.sending) :
    left.livePublic = s.livePublic := by
  have key : left.dhSendPublic = s.dhSendPublic := congrArg (fun t => t.2.1) same
  have chain : left.sendingChainKey.isSome = s.sendingChainKey.isSome :=
    congrArg (fun t => t.2.2.2) same
  unfold livePublic
  rw [key, chain]

omit [DecidableEq β] in
theorem livePublic_of_chain {secret key : β} {number : UInt32}
    (sends : s.sending = (secret, key, number, true)) : s.livePublic = [key] := by
  have same : s.dhSendPublic = key := congrArg (fun t => t.2.1) sends
  have chain : s.sendingChainKey.isSome = true := congrArg (fun t => t.2.2.2) sends
  unfold livePublic
  rw [if_pos chain, same]

theorem headers_cons (returned : s.perform ops call = .returns left result) :
    s.headers ops (call :: calls) = sentHeader result ++ left.headers ops calls := by
  rw [headers, returned]

theorem publics_cons (returned : s.perform ops call = .returns left result) :
    s.publics ops (call :: calls) = s.livePublic ++
      (call.drawn ops s ++ left.drawn ops calls).map fun keypair =>
        ops.toVec (ops.publicKey keypair) := by
  rw [publics, drawn, returned]

theorem sentWith_silent {key : β} (returned : s.perform ops call = .returns left result)
    (silent : (call.isEncrypt && result.isOk) = false) :
    s.sentWith ops key (call :: calls) = left.sentWith ops key calls := by
  rw [sentWith, returned]
  dsimp only
  rw [if_neg, Nat.zero_add]
  rintro ⟨encrypts, ok, -⟩
  rw [encrypts, ok] at silent
  cases silent

theorem sentWith_counted {key : β} (returned : s.perform ops call = .returns left result)
    (counted : (call.isEncrypt && result.isOk) = true) :
    s.sentWith ops key (call :: calls) =
      (if s.dhSendPublic = key then 1 else 0) + left.sentWith ops key calls := by
  obtain ⟨encrypts, ok⟩ := Bool.and_eq_true_iff.mp counted
  rw [sentWith, returned]
  simp only [encrypts, ok, true_and]

theorem publics_kept (returned : s.perform ops call = .returns left result)
    (undrawn : call.drawn ops s = []) (same : left.livePublic = s.livePublic) :
    s.publics ops (call :: calls) = left.publics ops calls := by
  rw [publics_cons ops returned, undrawn, List.nil_append, publics, same]

theorem publics_ratchet {keypair : κ} (returned : s.perform ops call = .returns left result)
    (drew : call.drawn ops s = [keypair]) (sends : left.sending = freshSending ops keypair) :
    s.publics ops (call :: calls) = s.livePublic ++ left.publics ops calls := by
  rw [publics_cons ops returned, drew, publics, livePublic_of_chain sends]
  rfl

theorem sentWith_eq_zero {key : β} (unused : key ∉ s.publics ops calls) :
    s.sentWith ops key calls = 0 := by
  induction calls generalizing s with
  | nil => rfl
  | cons call calls ih =>
      cases returned : s.perform ops call with
      | panics => rw [sentWith, returned]
      | returns left result =>
          rcases perform_cases ops returned with
            ⟨-, undrawn, silent, same⟩ | ⟨header, -, -, -, chain, undrawn, counted, sends⟩ |
              ⟨keypair, -, drew, silent, sends⟩
          · rw [publics_kept ops returned undrawn (livePublic_of_sending same)] at unused
            rw [sentWith_silent ops returned silent]
            exact ih unused
          · have live : s.livePublic = [s.dhSendPublic] := if_pos chain
            rw [publics_kept ops returned undrawn ((livePublic_of_chain sends).trans live.symm)]
              at unused
            have other : s.dhSendPublic ≠ key := by
              rintro rfl
              apply unused
              rw [publics, livePublic_of_chain sends]
              exact List.mem_cons_self
            rw [sentWith_counted ops returned counted, if_neg other, Nat.zero_add]
            exact ih unused
          · rw [publics_ratchet ops returned drew sends] at unused
            rw [sentWith_silent ops returned silent]
            exact ih fun later => unused (List.mem_append_right _ later)

theorem sentWith_le (key : β) (s : RatchetState β κ ℓ) (calls : List (Operation β κ ν)) :
    s.sentWith ops key calls ≤ calls.length := by
  induction calls generalizing s with
  | nil => exact Nat.le_refl 0
  | cons call calls ih =>
      rw [sentWith, List.length_cons]
      cases s.perform ops call with
      | panics => exact Nat.zero_le _
      | returns left result =>
          have rest := ih left
          dsimp only
          split <;> omega

/-- If no key comes twice, the messages sent with one key are numbered from zero on, or from
the present counter on if the key is in use, each number modulo `2 ^ 32`. -/
theorem numbers_headers (key : β) {sent : Nat} (number : s.sendMessageNumber = UInt32.ofNat sent)
    (fresh : (s.publics ops calls).Nodup) :
    ((s.headers ops calls).filter fun h => h.dhPublic = key).map MessageHeader.messageNumber =
      (List.range (s.sentWith ops key calls)).map fun i =>
        UInt32.ofNat ((if key ∈ s.livePublic then sent else 0) + i) := by
  induction calls generalizing s sent with
  | nil => rfl
  | cons call calls ih =>
      cases returned : s.perform ops call with
      | panics =>
          rw [sentWith, headers, returned]
          rfl
      | returns left result =>
          rw [headers_cons ops returned]
          rcases perform_cases ops returned with
            ⟨silentHeader, undrawn, silent, same⟩ |
              ⟨header, sentOne, public_, numbered, chain, undrawn, counted, sends⟩ |
              ⟨keypair, silentHeader, drew, silent, sends⟩
          · have kept := livePublic_of_sending same
            rw [publics_kept ops returned undrawn kept] at fresh
            have still : left.sendMessageNumber = UInt32.ofNat sent :=
              (congrArg (fun t => t.2.2.1) same).trans number
            rw [silentHeader, List.nil_append, sentWith_silent ops returned silent, ← kept]
            exact ih still fresh
          · have live : s.livePublic = [s.dhSendPublic] := if_pos chain
            have kept := (livePublic_of_chain sends).trans live.symm
            rw [publics_kept ops returned undrawn kept] at fresh
            have next : left.sendMessageNumber = UInt32.ofNat (sent + 1) := by
              rw [show left.sendMessageNumber = s.sendMessageNumber + 1 from
                congrArg (fun t => t.2.2.1) sends, number, UInt32.ofNat_add]
              rfl
            have rest := ih next fresh
            rw [kept, live] at rest
            rw [sentOne, sentWith_counted ops returned counted, live, List.singleton_append]
            by_cases here : s.dhSendPublic = key
            · subst here
              rw [List.filter_cons_of_pos (by simpa using public_), List.map_cons, rest, numbered,
                number]
              simp only [List.mem_singleton, if_true, Nat.add_comm 1]
              rw [List.range_succ_eq_map, List.map_cons, List.map_map]
              congr 1
              apply List.map_congr_left
              intro i _
              show UInt32.ofNat (sent + 1 + i) = UInt32.ofNat (sent + (i + 1))
              rw [Nat.add_assoc, Nat.add_comm 1]
            · have other : ¬ header.dhPublic = key := public_ ▸ here
              have apart : key ∉ [s.dhSendPublic] := fun member =>
                here (List.mem_singleton.mp member).symm
              rw [if_neg apart] at rest
              rw [List.filter_cons_of_neg (by simpa using other), rest, if_neg here, if_neg apart,
                Nat.zero_add]
          · rw [publics_ratchet ops returned drew sends] at fresh
            have start : left.sendMessageNumber = UInt32.ofNat 0 :=
              congrArg (fun t => t.2.2.1) sends
            have rest := ih start (List.nodup_append.mp fresh).2.1
            rw [ite_self] at rest
            rw [silentHeader, List.nil_append, sentWith_silent ops returned silent, rest]
            by_cases live : key ∈ s.livePublic
            · -- the run never sends with the old key again
              have unused : key ∉ left.publics ops calls :=
                List.disjoint_of_nodup_append fresh live
              rw [sentWith_eq_zero ops unused]
              rfl
            · rw [if_neg live]

end

/-- A session as it begins, with the keypairs drawn for it. -/
inductive Begun : List κ → RatchetState β κ ℓ → Prop where
  | sender {keypair : κ} {sharedSecret recipientDhPublic : β} {s : RatchetState β κ ℓ}
      (made : initSender ops keypair sharedSecret recipientDhPublic = some s) : Begun [keypair] s
  | receiver (sharedSecret secretBytes publicBytes : β) :
      Begun [] (initReceiver sharedSecret secretBytes publicBytes)

omit [DecidableEq β] in
theorem sending_initSender {keypair : κ} {sharedSecret recipientDhPublic : β}
    {s : RatchetState β κ ℓ}
    (made : initSender ops keypair sharedSecret recipientDhPublic = some s) :
    s.sending = freshSending ops keypair := by
  unfold initSender at made
  rw [Option.bind_eq_bind, Option.bind_eq_some_iff] at made
  obtain ⟨theirPublic, -, made⟩ := made
  rw [← Option.some.inj made]
  rfl

/-- A session begins at zero, with nothing but the keys drawn for it in use. -/
theorem Begun.publics_eq {first : List κ} {s : RatchetState β κ ℓ} (begun : Begun ops first s)
    (calls : List (Operation β κ ν)) :
    s.sendMessageNumber = 0 ∧ s.publics ops calls =
      (first ++ s.drawn ops calls).map fun keypair => ops.toVec (ops.publicKey keypair) := by
  cases begun with
  | sender made =>
      have sends := sending_initSender ops made
      refine ⟨congrArg (fun t => t.2.2.1) sends, ?_⟩
      rw [publics, livePublic_of_chain sends]
      rfl
  | receiver sharedSecret secretBytes publicBytes => exact ⟨rfl, rfl⟩

end RatchetState

/-- The words of the first numbers are these numbers as long as they fit. -/
theorem words_eq_range (count : Nat) :
    ((List.range count).map fun i => (UInt32.ofNat i).toNat) = List.range count ↔
      count ≤ 2 ^ 32 := by
  constructor
  · intro same
    by_contra more
    have wraps : 2 ^ 32 ∈ (List.range count).map fun i => (UInt32.ofNat i).toNat := by
      rw [same, List.mem_range]
      omega
    obtain ⟨i, -, word⟩ := List.mem_map.mp wraps
    have small := (UInt32.ofNat i).toNat_lt
    omega
  · intro fits
    calc (List.range count).map (fun i => (UInt32.ofNat i).toNat)
        = (List.range count).map id := by
          apply List.map_congr_left
          intro i inside
          have below := List.mem_range.mp inside
          exact UInt32.toNat_ofNat_of_lt' (Nat.lt_of_lt_of_le below fits)
      _ = List.range count := List.map_id _

/-- No two headers agree in key and number, and the numbers of each key count from zero. -/
def NumberedOnce (headers : List (MessageHeader β)) : Prop :=
  (headers.map fun h => (h.dhPublic, h.messageNumber)).Nodup ∧
    ∀ key, (headers.filter fun h => h.dhPublic = key).map (fun h => h.messageNumber.toNat) =
      List.range (headers.filter fun h => h.dhPublic = key).length

theorem labels_nodup {headers : List (MessageHeader β)}
    (each : ∀ key, ((headers.filter fun h => h.dhPublic = key).map
      MessageHeader.messageNumber).Nodup) :
    (headers.map fun h => (h.dhPublic, h.messageNumber)).Nodup := by
  induction headers with
  | nil => exact List.nodup_nil
  | cons header headers ih =>
      rw [List.map_cons, List.nodup_cons]
      constructor
      · intro member
        obtain ⟨other, inside, same⟩ := List.mem_map.mp member
        obtain ⟨key, number⟩ := Prod.mk.inj same
        have own := each header.dhPublic
        rw [List.filter_cons_of_pos (by simp), List.map_cons, List.nodup_cons] at own
        apply own.1
        rw [← number]
        exact List.mem_map_of_mem (List.mem_filter.mpr ⟨inside, by simpa using key⟩)
      · apply ih
        intro key
        exact (each key).sublist (((List.sublist_cons_self header headers).filter _).map _)

namespace RatchetState

variable {s : RatchetState β κ ℓ} {first : List κ} {calls : List (Operation β κ ν)}

theorem Begun.numbers_headers (begun : Begun ops first s)
    (fresh : ((first ++ s.drawn ops calls).map fun keypair =>
      ops.toVec (ops.publicKey keypair)).Nodup) (key : β) :
    ((s.headers ops calls).filter fun h => h.dhPublic = key).map MessageHeader.messageNumber =
      (List.range (s.sentWith ops key calls)).map UInt32.ofNat := by
  obtain ⟨number, used⟩ := begun.publics_eq ops calls
  rw [← used] at fresh
  have zero : s.sendMessageNumber = UInt32.ofNat 0 := number
  rw [RatchetState.numbers_headers ops key zero fresh]
  apply List.map_congr_left
  intro i _
  rw [ite_self, Nat.zero_add]

theorem Begun.numbers_eq_range_iff (begun : Begun ops first s)
    (fresh : ((first ++ s.drawn ops calls).map fun keypair =>
      ops.toVec (ops.publicKey keypair)).Nodup) (key : β) :
    ((s.headers ops calls).filter fun h => h.dhPublic = key).map
        (fun h => h.messageNumber.toNat) =
      List.range ((s.headers ops calls).filter fun h => h.dhPublic = key).length ↔
    s.sentWith ops key calls ≤ 2 ^ 32 := by
  have numbers := begun.numbers_headers ops fresh key
  have count := congrArg List.length numbers
  rw [List.length_map, List.length_map, List.length_range] at count
  rw [count, ← words_eq_range, ← Function.comp_def UInt32.toNat, ← List.map_map, numbers,
    List.map_map]
  exact Iff.rfl

theorem drawn_encrypts (s : RatchetState β κ ℓ) (nonce : ν) (plaintext : β) (count : Nat) :
    s.drawn ops (List.replicate count (.encrypt nonce plaintext)) = [] := by
  induction count generalizing s with
  | zero => rfl
  | succ count ih => exact ih _

/-- With a cipher that never fails, every encryption on a chain counts. -/
theorem sentWith_encrypts
    (seals : ∀ nonce plaintext key aad, ∃ ciphertext,
      ops.cipherEncrypt nonce plaintext key aad = .ok ciphertext)
    (s : RatchetState β κ ℓ) (chain : s.sendingChainKey.isSome = true) (nonce : ν) (plaintext : β)
    (count : Nat) :
    s.sentWith ops s.dhSendPublic (List.replicate count (.encrypt nonce plaintext)) = count := by
  induction count generalizing s with
  | zero => rfl
  | succ count ih =>
      obtain ⟨sendingCk, present⟩ := Option.isSome_iff_exists.mp chain
      obtain ⟨ciphertext, sealed⟩ := seals nonce plaintext (ops.deriveChainKey sendingCk).2
        (ops.headerToBytes ⟨s.dhSendPublic, s.previousSendingChainLength, s.sendMessageNumber⟩)
      have returned : s.perform ops (.encrypt nonce plaintext) = .returns
          { s with
            sendingChainKey := some (ops.deriveChainKey sendingCk).1
            sendMessageNumber := s.sendMessageNumber + 1 }
          (.ok (.encrypted ciphertext
            ⟨s.dhSendPublic, s.previousSendingChainLength, s.sendMessageNumber⟩)) := by
        simp only [perform, encrypt, present, sealed]
        rfl
      rw [List.replicate_succ, sentWith_counted ops returned rfl, if_pos rfl]
      have rest := ih { s with
        sendingChainKey := some (ops.deriveChainKey sendingCk).1
        sendMessageNumber := s.sendMessageNumber + 1 } rfl
      dsimp only at rest ⊢
      omega

end RatchetState

end

/-- If the keypairs drawn never repeat, the headers of a run of any length are numbered once
exactly if no more than `2 ^ 32` messages are sent with any one ratchet key. -/
theorem headers_numbered_once_iff (p : Primitives) {first : List (ByteArr 32)} {s : ByteState}
    (begun : RatchetState.Begun (ratchetOps p) first s)
    (calls : List (Operation Bytes (ByteArr 32) (ByteArr 24)))
    (fresh : ((first ++ s.drawn (ratchetOps p) calls).map fun keypair =>
      (p.x25519Public keypair).toList).Nodup) :
    NumberedOnce (s.headers (ratchetOps p) calls) ↔
      ∀ key, s.sentWith (ratchetOps p) key calls ≤ 2 ^ 32 := by
  have each := begun.numbers_eq_range_iff (ratchetOps p) fresh
  constructor
  · rintro ⟨-, counted⟩ key
    exact (each key).mp (counted key)
  · intro fits
    refine ⟨labels_nodup fun key => ?_, fun key => (each key).mpr (fits key)⟩
    have counted := (each key).mpr (fits key)
    have distinct := List.nodup_range (n := ((s.headers (ratchetOps p) calls).filter
      fun h => h.dhPublic = key).length)
    rw [← counted, ← Function.comp_def UInt32.toNat, ← List.map_map] at distinct
    exact distinct.of_map

/-- Alice's first three messages carry the numbers 0, 1 and 2. -/
theorem headers_numbered_once_iff_three :
    ∃ alice : ByteState,
      RatchetState.initSender (ratchetOps .sample) (.replicate 32 1) (List.replicate 32 9)
        (List.replicate 32 2) = some alice ∧
      NumberedOnce (alice.headers (ratchetOps .sample)
        (List.replicate 3 (.encrypt (.replicate 24 0) [104, 105]))) := by
  obtain ⟨alice, made⟩ : ∃ alice, RatchetState.initSender (ratchetOps .sample) (.replicate 32 1)
      (List.replicate 32 9) (List.replicate 32 2) = some alice := ⟨_, rfl⟩
  refine ⟨alice, made, ?_⟩
  apply (headers_numbered_once_iff .sample (.sender made) _ ?_).mpr
  · intro key
    refine Nat.le_trans (RatchetState.sentWith_le (ratchetOps .sample) key _ _) ?_
    rw [List.length_replicate]
    decide
  · rw [RatchetState.drawn_encrypts]
    exact List.nodup_singleton _

/-- After `2 ^ 32` messages Alice's counter wraps: the next header has the number 0 again. -/
theorem header_numbers_wrap :
    ∃ (alice : ByteState) (calls : List (Operation Bytes (ByteArr 32) (ByteArr 24))),
      RatchetState.initSender (ratchetOps .sample) (.replicate 32 1) (List.replicate 32 9)
        (List.replicate 32 2) = some alice ∧
      (([List.Vector.replicate 32 1] ++ alice.drawn (ratchetOps .sample) calls).map fun keypair =>
        (Primitives.sample.x25519Public keypair).toList).Nodup ∧
      ¬ NumberedOnce (alice.headers (ratchetOps .sample) calls) := by
  obtain ⟨alice, made⟩ : ∃ alice, RatchetState.initSender (ratchetOps .sample) (.replicate 32 1)
      (List.replicate 32 9) (List.replicate 32 2) = some alice := ⟨_, rfl⟩
  have chain : alice.sendingChainKey.isSome = true :=
    congrArg (fun t => t.2.2.2) (RatchetState.sending_initSender _ made)
  have fresh : (([List.Vector.replicate 32 1] ++ alice.drawn (ratchetOps .sample)
      (List.replicate (2 ^ 32 + 1) (.encrypt (.replicate 24 0) []))).map fun keypair =>
        (Primitives.sample.x25519Public keypair).toList).Nodup := by
    rw [RatchetState.drawn_encrypts]
    exact List.nodup_singleton _
  refine ⟨alice, List.replicate (2 ^ 32 + 1) (.encrypt (.replicate 24 0) []), made, fresh, ?_⟩
  rintro ⟨-, counted⟩
  have fits := (RatchetState.Begun.numbers_eq_range_iff (ratchetOps .sample) (.sender made) fresh
    alice.dhSendPublic).mp (counted alice.dhSendPublic)
  have all := RatchetState.sentWith_encrypts (ratchetOps .sample) (fun _ _ _ _ => ⟨_, rfl⟩) alice
    chain (.replicate 24 0) [] (2 ^ 32 + 1)
  omega

end Hysj.Ratchet
