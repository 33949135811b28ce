import Mathlib.Logic.Function.Iterate
import Hysj.Ratchet.DoubleRatchet

set_option autoImplicit false

namespace Hysj.Ratchet

variable {β κ ν ℓ : Type} (ops : Ops β κ ν ℓ)

/-- The chain key after `n` steps of the symmetric ratchet. -/
def chainKeyAt (chainKey : β) (n : Nat) : β :=
  (fun ck => (ops.deriveChainKey ck).1)^[n] chainKey

/-- The key of message number `n` on the chain that starts at `chainKey`. -/
def messageKeyAt (chainKey : β) (n : Nat) : κ := (ops.deriveChainKey (chainKeyAt ops chainKey n)).2

@[simp] theorem chainKeyAt_zero (chainKey : β) : chainKeyAt ops chainKey 0 = chainKey := rfl

theorem chainKeyAt_succ (chainKey : β) (n : Nat) :
    chainKeyAt ops chainKey (n + 1) = (ops.deriveChainKey (chainKeyAt ops chainKey n)).1 :=
  Function.iterate_succ_apply' _ n chainKey

theorem chainKeyAt_next (chainKey : β) (n : Nat) :
    chainKeyAt ops (ops.deriveChainKey chainKey).1 n = chainKeyAt ops chainKey (n + 1) :=
  (Function.iterate_succ_apply _ n chainKey).symm

theorem chainKeyAt_add (chainKey : β) (first second : Nat) :
    chainKeyAt ops (chainKeyAt ops chainKey first) second =
      chainKeyAt ops chainKey (first + second) := by
  rw [Nat.add_comm]
  exact (Function.iterate_add_apply _ second first chainKey).symm

theorem messageKeyAt_add (chainKey : β) (first second : Nat) :
    messageKeyAt ops (chainKeyAt ops chainKey first) second =
      messageKeyAt ops chainKey (first + second) := by
  simp only [messageKeyAt, chainKeyAt_add]

namespace RatchetState

variable [DecidableEq ℓ]

theorem skipLoop_fst (dhHex : ℓ) (count : Nat) (n : UInt32) (ck : β)
    (skipped : SkippedKeys (ℓ × UInt32) κ) :
    (skipLoop ops dhHex count n ck skipped).1 = chainKeyAt ops ck count := by
  induction count generalizing n ck skipped with
  | zero => rfl
  | succ count ih => rw [skipLoop, ih, chainKeyAt_next]

theorem toNat_succ {n : UInt32} (below : n.toNat + 1 < 2 ^ 32) : (n + 1).toNat = n.toNat + 1 := by
  rw [UInt32.toNat_add]
  exact Nat.mod_eq_of_lt below

/-- With room for every skipped key, the loop stores exactly the keys of the
numbers it passes and leaves all other entries alone. -/
theorem lookup_skipLoop (dhHex : ℓ) (count : Nat) (n : UInt32) (ck : β)
    (skipped : SkippedKeys (ℓ × UInt32) κ) (room : skipped.len + count ≤ MAX_SKIPPED_KEYS)
    (noWrap : n.toNat + count < 2 ^ 32) (hex : ℓ) (m : UInt32) :
    (skipLoop ops dhHex count n ck skipped).2.lookup (hex, m) =
      if hex = dhHex ∧ n.toNat ≤ m.toNat ∧ m.toNat < n.toNat + count then
        some (messageKeyAt ops ck (m.toNat - n.toNat))
      else skipped.lookup (hex, m) := by
  induction count generalizing n ck skipped with
  | zero =>
      have empty : ¬ (hex = dhHex ∧ n.toNat ≤ m.toNat ∧ m.toNat < n.toNat + 0) := by omega
      rw [if_neg empty, skipLoop]
  | succ count ih =>
      have next := toNat_succ (n := n) (by omega)
      have smaller := SkippedKeys.len_insert_le_of_room skipped (dhHex, n)
        (ops.deriveChainKey ck).2 (by omega)
      rw [skipLoop, ih (n + 1) _ _ (by omega) (by omega),
        SkippedKeys.lookup_insert_of_room _ _ _ _ (by omega), next]
      by_cases here : hex = dhHex
      · subst here
        by_cases current : m = n
        · subst current
          simp [messageKeyAt]
        · have apart : m.toNat ≠ n.toNat := fun same => current (UInt32.toNat.inj same)
          by_cases later : n.toNat + 1 ≤ m.toNat ∧ m.toNat < n.toNat + 1 + count
          · have inside : n.toNat ≤ m.toNat ∧ m.toNat < n.toNat + (count + 1) := by omega
            have index : m.toNat - n.toNat = 1 + (m.toNat - (n.toNat + 1)) := by omega
            rw [if_pos ⟨rfl, later⟩, if_pos ⟨rfl, inside⟩, index, ← messageKeyAt_add]
            rfl
          · have outside : ¬ (hex = hex ∧ n.toNat ≤ m.toNat ∧ m.toNat < n.toNat + (count + 1)) := by
              omega
            have passed : ¬ (hex = hex ∧ n.toNat + 1 ≤ m.toNat ∧ m.toNat < n.toNat + 1 + count) :=
              fun both => later both.2
            have other : (hex, m) ≠ (hex, n) := fun same => current (congrArg Prod.snd same)
            rw [if_neg passed, if_neg outside, if_neg other]
      · have passed : ¬ (hex = dhHex ∧ n.toNat + 1 ≤ m.toNat ∧ m.toNat < n.toNat + 1 + count) :=
          fun both => here both.1
        have outside : ¬ (hex = dhHex ∧ n.toNat ≤ m.toNat ∧ m.toNat < n.toNat + (count + 1)) :=
          fun both => here both.1
        have other : (hex, m) ≠ (dhHex, n) := fun same => here (congrArg Prod.fst same)
        rw [if_neg passed, if_neg outside, if_neg other]

theorem len_skipLoop_le (dhHex : ℓ) (count : Nat) (n : UInt32) (ck : β)
    (skipped : SkippedKeys (ℓ × UInt32) κ) (room : skipped.len + count ≤ MAX_SKIPPED_KEYS) :
    (skipLoop ops dhHex count n ck skipped).2.len ≤ skipped.len + count := by
  induction count generalizing n ck skipped with
  | zero => exact Nat.le_refl _
  | succ count ih =>
      have smaller := SkippedKeys.len_insert_le_of_room skipped (dhHex, n)
        (ops.deriveChainKey ck).2 (by omega)
      have rest := ih (n + 1) (ops.deriveChainKey ck).1
        (skipped.insert (dhHex, n) (ops.deriveChainKey ck).2) (by omega)
      rw [skipLoop]
      omega

theorem mentions_skipLoop (dhHex : ℓ) (count : Nat) {n : UInt32} {ck : β}
    {skipped : SkippedKeys (ℓ × UInt32) κ} {index : ℓ × UInt32}
    (mentioned : (skipLoop ops dhHex count n ck skipped).2.Mentions index) :
    index.1 = dhHex ∨ skipped.Mentions index := by
  induction count generalizing n ck skipped with
  | zero => exact Or.inr mentioned
  | succ count ih =>
      rcases ih mentioned with label | before
      · exact Or.inl label
      · rcases SkippedKeys.mentions_insert before with rfl | old
        · exact Or.inl rfl
        · exact Or.inr old

/-- The chain the next message arrives on, caught up to number `until_`. -/
def caughtUp (s : RatchetState β κ ℓ) (until_ : UInt32) (receivingCk : β) : RatchetState β κ ℓ :=
  let dhHex := (s.dhReceivePublic.map ops.hexEncode).getD ops.emptyString
  let count := (until_ - s.recvMessageNumber).toNat
  { s with
    receivingChainKey := some (chainKeyAt ops receivingCk count)
    recvMessageNumber := until_
    skippedKeys := (skipLoop ops dhHex count s.recvMessageNumber receivingCk s.skippedKeys).2 }

/-- Nothing is skipped when the chain is already past the number asked for. -/
theorem skip_past {s : RatchetState β κ ℓ} {until_ : UInt32}
    (past : until_ < s.recvMessageNumber) :
    skipMissedMessages ops s until_ = (s, .ok ()) := by
  rw [skipMissedMessages, if_pos past]

theorem skip_refused {s : RatchetState β κ ℓ} {until_ : UInt32}
    (ahead : s.recvMessageNumber ≤ until_) (wide : MAX_SKIP < until_ - s.recvMessageNumber) :
    skipMissedMessages ops s until_ =
      (s, .error (.ratchetError
        s!"too many skipped messages: {until_ - s.recvMessageNumber}")) := by
  have notPast : ¬ s.recvMessageNumber > until_ := UInt32.not_lt.mpr ahead
  simp only [skipMissedMessages, if_neg notPast]
  rw [if_pos wide]

theorem skip_noChain {s : RatchetState β κ ℓ} {until_ : UInt32}
    (ahead : s.recvMessageNumber ≤ until_) (narrow : until_ - s.recvMessageNumber ≤ MAX_SKIP)
    (noChain : s.receivingChainKey = none) :
    skipMissedMessages ops s until_ = (s, .ok ()) := by
  have notPast : ¬ s.recvMessageNumber > until_ := UInt32.not_lt.mpr ahead
  have notWide : ¬ until_ - s.recvMessageNumber > MAX_SKIP := UInt32.not_lt.mpr narrow
  simp only [skipMissedMessages, if_neg notPast, if_neg notWide, noChain]

theorem skip_onChain {s : RatchetState β κ ℓ} {until_ : UInt32} {receivingCk : β}
    (ahead : s.recvMessageNumber ≤ until_) (narrow : until_ - s.recvMessageNumber ≤ MAX_SKIP)
    (chain : s.receivingChainKey = some receivingCk) :
    skipMissedMessages ops s until_ = (caughtUp ops s until_ receivingCk, .ok ()) := by
  have notPast : ¬ s.recvMessageNumber > until_ := UInt32.not_lt.mpr ahead
  have notWide : ¬ until_ - s.recvMessageNumber > MAX_SKIP := UInt32.not_lt.mpr narrow
  simp only [skipMissedMessages, if_neg notPast, if_neg notWide, chain, caughtUp, skipLoop_fst]

/-- Everything `skip_missed_messages` can do. -/
theorem skip_cases (s : RatchetState β κ ℓ) (until_ : UInt32) :
    ((until_ < s.recvMessageNumber ∨ s.receivingChainKey = none) ∧
      skipMissedMessages ops s until_ = (s, .ok ())) ∨
    (s.recvMessageNumber ≤ until_ ∧ MAX_SKIP < until_ - s.recvMessageNumber ∧
      ∃ e, skipMissedMessages ops s until_ = (s, .error e)) ∨
    (s.recvMessageNumber ≤ until_ ∧ until_ - s.recvMessageNumber ≤ MAX_SKIP ∧
      ∃ receivingCk, s.receivingChainKey = some receivingCk ∧
        skipMissedMessages ops s until_ = (caughtUp ops s until_ receivingCk, .ok ())) := by
  rcases UInt32.lt_or_le until_ s.recvMessageNumber with past | ahead
  · exact Or.inl ⟨Or.inl past, skip_past ops past⟩
  · rcases UInt32.lt_or_le MAX_SKIP (until_ - s.recvMessageNumber) with wide | narrow
    · exact Or.inr (Or.inl ⟨ahead, wide, _, skip_refused ops ahead wide⟩)
    · cases chain : s.receivingChainKey with
      | none => exact Or.inl ⟨Or.inr rfl, skip_noChain ops ahead narrow chain⟩
      | some receivingCk =>
          exact Or.inr
            (Or.inr ⟨ahead, narrow, receivingCk, rfl, skip_onChain ops ahead narrow chain⟩)

theorem decrypt_stored [DecidableEq β] {s : RatchetState β κ ℓ} (keypair : κ) (ciphertext : β)
    {header : MessageHeader β} {key : κ}
    (stored : s.skippedKeys.lookup (ops.hexEncode header.dhPublic, header.messageNumber) =
      some key) :
    decrypt ops keypair s ciphertext header =
      .returns
        { s with
          skippedKeys :=
            (s.skippedKeys.take (ops.hexEncode header.dhPublic, header.messageNumber)).2 }
        (ops.cipherDecrypt ciphertext key (ops.headerToBytes header)) := by
  rw [decrypt, SkippedKeys.take_of_some stored]

end RatchetState

end Hysj.Ratchet
