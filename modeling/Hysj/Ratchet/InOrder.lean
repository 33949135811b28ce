import Mathlib.Data.List.Forall2
import Hysj.Ratchet.Delivery

set_option autoImplicit false

/- A session whose packets arrive in the order in which they were sent: no key is ever
skipped, and every delivery opens its packet. -/
namespace Hysj.Ratchet

variable {β κ ν ℓ : Type} [DecidableEq ℓ]

/-- The messages still ahead of a party that sends on chain `d` and has received up to
number `r` of chain `d - 1`, each by its chain and number, oldest first. -/
def ahead (sent : Nat → Nat) (d r : Nat) : List (Nat × Nat) :=
  (List.range' r (sent (d - 1) - r)).map (fun n => (d - 1, n)) ++
    (List.range' 0 (sent (d + 1))).map (fun n => (d + 1, n))

theorem ahead_of_received {sent : Nat → Nat} {d r : Nat} (received : r = sent (d - 1)) :
    ahead sent d r = (List.range' 0 (sent (d + 1))).map (fun n => (d + 1, n)) := by
  rw [ahead, received, Nat.sub_self, List.range'_zero, List.map_nil, List.nil_append]

theorem ahead_of_unsent {sent : Nat → Nat} {d r : Nat} (unsent : sent (d + 1) = 0) :
    ahead sent d r = (List.range' r (sent (d - 1) - r)).map (fun n => (d - 1, n)) := by
  rw [ahead, unsent, List.range'_zero, List.map_nil, List.append_nil]

theorem ahead_congr {sent more : Nat → Nat} {d r : Nat} (current : more (d - 1) = sent (d - 1))
    (next : more (d + 1) = sent (d + 1)) : ahead more d r = ahead sent d r := by
  rw [ahead, ahead, current, next]

/-- The next message is the next one of the current chain, or the first one of the chain
after it. -/
theorem ahead_cases {sent : Nat → Nat} {d r : Nat} {place : Nat × Nat} {places : List (Nat × Nat)}
    (received : r ≤ sent (d - 1)) (next : ahead sent d r = place :: places) :
    (place = (d - 1, r) ∧ r < sent (d - 1) ∧ places = ahead sent d (r + 1)) ∨
    (place = (d + 1, 0) ∧ r = sent (d - 1) ∧ 0 < sent (d + 1) ∧
      places = (List.range' 1 (sent (d + 1) - 1)).map (fun n => (d + 1, n))) := by
  by_cases more : r < sent (d - 1)
  · obtain ⟨count, counted⟩ : ∃ count, sent (d - 1) - r = count + 1 :=
      ⟨sent (d - 1) - r - 1, by omega⟩
    rw [ahead, counted, List.range'_succ, List.map_cons, List.cons_append, List.cons.injEq] at next
    refine Or.inl ⟨next.1.symm, more, ?_⟩
    rw [ahead, ← next.2, show sent (d - 1) - (r + 1) = count by omega]
  · have last : r = sent (d - 1) := by omega
    rw [ahead_of_received last] at next
    cases first : sent (d + 1) with
    | zero =>
        rw [first] at next
        cases next
    | succ count =>
        rw [first, List.range'_succ, List.map_cons, List.cons.injEq] at next
        exact Or.inr ⟨next.1.symm, last, Nat.succ_pos _, next.2.symm⟩

theorem ahead_append {sent : Nat → Nat} {d d' r : Nat} (received : r ≤ sent (d' - 1))
    (side : d' = d + 1 ∧ sent (d' + 1) = 0 ∨ d = d' + 1) :
    ahead (Function.update sent d (sent d + 1)) d' r = ahead sent d' r ++ [(d, sent d)] := by
  rcases side with ⟨rfl, unsent⟩ | rfl
  · have unsent' : Function.update sent d (sent d + 1) (d + 1 + 1) = 0 := by
      rw [Function.update_of_ne (by omega), unsent]
    rw [Nat.add_sub_cancel] at received
    rw [ahead_of_unsent unsent, ahead_of_unsent unsent', Nat.add_sub_cancel, Function.update_self,
      Nat.succ_sub received, List.range'_concat, List.map_append, Nat.one_mul,
      Nat.add_sub_of_le received]
    rfl
  · rw [ahead, ahead, Function.update_self, Function.update_of_ne (by omega), List.range'_concat,
      List.map_append, Nat.one_mul, Nat.zero_add, List.append_assoc]
    rfl

/-- The packet holds message `place.2` of chain `place.1`. -/
structure Carries (ops : Ops β κ ν ℓ) (links : Nat → Link β κ) (sent : Nat → Nat)
    (packet : Packet β) (place : Nat × Nat) : Prop where
  publicKey : packet.header.dhPublic = (links place.1).publicKey ops
  previous : packet.header.previousChainLength.toNat = sent (place.1 - 2)
  number : packet.header.messageNumber.toNat = place.2
  below : place.2 < sent place.1
  opens : ops.cipherDecrypt packet.ciphertext (messageKeyAt ops (links place.1).chain place.2)
    (ops.headerToBytes packet.header) = .ok packet.plaintext

omit [DecidableEq ℓ] in
theorem Carries.congr {ops : Ops β κ ν ℓ} {links other : Nat → Link β κ} {sent more : Nat → Nat}
    {packet : Packet β} {place : Nat × Nat} (carries : Carries ops links sent packet place)
    (same : other place.1 = links place.1) (previous : more (place.1 - 2) = sent (place.1 - 2))
    (grows : sent place.1 ≤ more place.1) : Carries ops other more packet place := by
  refine ⟨?_, ?_, carries.number, Nat.lt_of_lt_of_le carries.below grows, ?_⟩
  · rw [same, carries.publicKey]
  · rw [previous, carries.previous]
  · rw [same]
    exact carries.opens

/-- What is true of an ordered session between any two events: both parties stand in one
history of `top` root steps, no key is stored, and the packets in flight are the messages
still ahead of their addressee. -/
structure Aligned (ops : Ops β κ ν ℓ) (links : Nat → Link β κ) (sent : Nat → Nat) (top : Nat)
    (depth recv : Party → Nat) (w : Conversation β κ ℓ) : Prop where
  preKey : sent 0 = 0
  bounded : ∀ i, sent i < 2 ^ 32
  turns : ∀ p, (depth p + depth p.peer) % 2 = 1
  near : ∀ p, depth p ≤ top ∧ top ≤ depth p + 1
  linked : ∀ i < top, Linked ops links i
  distinct : Distinct ops links top
  known : ∀ i ≤ top, (links i).publicKey ops ∈ w.publics
  unsent : ∀ i, top < i → sent i = 0
  parties : ∀ p, PartyAt ops links sent (depth p) (recv p) (w.state p)
  stores : ∀ p, (w.state p).skippedKeys.isEmpty = true
  queues : ∀ p, List.Forall₂ (Carries ops links sent) (w.inFlight p)
    (ahead sent (depth p) (recv p))

theorem Aligned.side {ops : Ops β κ ν ℓ} {links : Nat → Link β κ} {sent : Nat → Nat} {top : Nat}
    {depth recv : Party → Nat} {w : Conversation β κ ℓ}
    (aligned : Aligned ops links sent top depth recv w) (p : Party) :
    depth p.peer = depth p + 1 ∧ top = depth p + 1 ∨
    depth p = depth p.peer + 1 ∧ top = depth p := by
  have turn := aligned.turns p
  have near := aligned.near p
  have nearPeer := aligned.near p.peer
  omega

theorem Aligned.chain_le {ops : Ops β κ ν ℓ} {links : Nat → Link β κ} {sent : Nat → Nat}
    {top : Nat} {depth recv : Party → Nat} {w : Conversation β κ ℓ}
    (aligned : Aligned ops links sent top depth recv w) {packet : Packet β} {place : Nat × Nat}
    (carries : Carries ops links sent packet place) : place.1 ≤ top := by
  by_contra above
  have number := carries.below
  rw [aligned.unsent _ (by omega)] at number
  omega

theorem Aligned.start {ops : Ops β κ ν ℓ} (lawful : ops.Lawful) {sharedSecret : β}
    {bobSecret aliceSecret : κ}
    (apart : ops.toVec (ops.publicKey aliceSecret) ≠ ops.toVec (ops.publicKey bobSecret))
    {w : Conversation β κ ℓ}
    (started : Conversation.start ops sharedSecret bobSecret aliceSecret = some w) :
    ∃ links sent top depth recv, Aligned ops links sent top depth recv w := by
  obtain ⟨links, sent, top, depth, recv, synced⟩ := Synced.start lawful apart started
  have agreed := lawful.copy32_toVec (ops.publicKey bobSecret)
  simp only [Conversation.start, RatchetState.initSender, agreed, Option.bind_eq_bind,
    Option.bind_some, Option.some.injEq] at started
  subst started
  refine ⟨links, sent, top, depth, recv, synced.preKey, synced.bounded, synced.turns, synced.near,
    synced.linked, synced.distinct, synced.known, synced.unsent, synced.parties, ?_, ?_⟩
  · intro p
    cases p <;> rfl
  · intro p
    have turn := synced.turns p
    have near := synced.near p
    have nearPeer := synced.near p.peer
    have received := (synced.parties p).received
    -- all counters of both parties are zero
    have own : sent (depth p.peer) = 0 := by
      rw [← (synced.parties p.peer).sendNumber]
      cases p <;> rfl
    have before : sent (depth p.peer - 2) = 0 := by
      rw [← (synced.parties p.peer).previousLength]
      cases p <;> rfl
    have last : sent (depth p - 1) = 0 := by
      by_cases behind : depth p = depth p.peer + 1
      · rw [behind, Nat.add_sub_cancel, own]
      · rw [show depth p - 1 = depth p.peer - 2 by omega, before]
    have next : sent (depth p + 1) = 0 := by
      by_cases behind : depth p = depth p.peer + 1
      · exact synced.unsent _ (by omega)
      · rw [show depth p + 1 = depth p.peer by omega, own]
    rw [ahead_of_unsent next, last, Nat.zero_sub, List.range'_zero, List.map_nil]
    exact List.Forall₂.nil

theorem Aligned.encrypt {ops : Ops β κ ν ℓ} (lawful : ops.Lawful) {links : Nat → Link β κ}
    {sent : Nat → Nat} {top : Nat} {depth recv : Party → Nat} {w : Conversation β κ ℓ}
    (aligned : Aligned ops links sent top depth recv w) {p : Party} {nonce : ν} {plaintext : β}
    {s : RatchetState β κ ℓ} {ciphertext : β} {header : MessageHeader β}
    (room : (w.state p).sendMessageNumber.toNat + 1 < 2 ^ 32)
    (ok : RatchetState.encrypt ops nonce (w.state p) plaintext = (s, .ok (ciphertext, header))) :
    ∃ more, Aligned ops links more top depth recv
      { w with
        state := Function.update w.state p s
        inFlight := Function.update w.inFlight p.peer
          (w.inFlight p.peer ++ [⟨ciphertext, header, plaintext⟩]) } := by
  obtain ⟨started, rfl, sealed, moved, sameStore⟩ := (aligned.parties p).encrypts room ok
  have sentNow := (aligned.parties p).sendNumber
  have side := aligned.side p
  have received := (aligned.parties p.peer).received
  obtain ⟨more, isMore⟩ : ∃ more, more = Function.update sent (depth p) (sent (depth p) + 1) :=
    ⟨_, rfl⟩
  rw [← isMore] at moved
  have here : more (depth p) = sent (depth p) + 1 := by rw [isMore, Function.update_self]
  have elsewhere : ∀ i, i ≠ depth p → more i = sent i := by
    intro i other
    rw [isMore, Function.update_of_ne other]
  have grows : ∀ i, sent i ≤ more i := by
    intro i
    by_cases same : i = depth p
    · rw [same, here]
      exact Nat.le_succ _
    · rw [elsewhere i same]
  have keeps : ∀ packet place, Carries ops links sent packet place →
      Carries ops links more packet place := by
    intro packet place carries
    have inside := aligned.chain_le carries
    exact carries.congr rfl (elsewhere _ (by omega)) (grows _)
  refine ⟨more, ?_, ?_, aligned.turns, aligned.near, aligned.linked, aligned.distinct,
    aligned.known, ?_, ?_, ?_, ?_⟩
  · rw [elsewhere 0 (Ne.symm started), aligned.preKey]
  · intro i
    by_cases same : i = depth p
    · rw [same, here, ← sentNow]
      exact room
    · rw [elsewhere i same]
      exact aligned.bounded i
  · intro i above
    rw [elsewhere i (by omega)]
    exact aligned.unsent i above
  · intro q
    rcases Party.eq_or_eq_peer p q with rfl | rfl
    · dsimp only
      rw [Function.update_self]
      exact moved
    · dsimp only
      rw [Function.update_of_ne (Party.peer_ne p)]
      exact (aligned.parties p.peer).mono (elsewhere _ (by omega)) (grows _)
        (elsewhere _ (by omega))
  · intro q
    rcases Party.eq_or_eq_peer p q with rfl | rfl
    · dsimp only
      rw [Function.update_self, sameStore]
      exact aligned.stores q
    · dsimp only
      rw [Function.update_of_ne (Party.peer_ne p)]
      exact aligned.stores p.peer
  · intro q
    rcases Party.eq_or_eq_peer p q with rfl | rfl
    · -- the chain of `q` itself is not ahead of it
      dsimp only
      rw [Function.update_of_ne (Ne.symm (Party.peer_ne q)), ahead_congr (elsewhere _ (by omega))
        (elsewhere _ (by omega))]
      exact (aligned.queues q).imp keeps
    · dsimp only
      rw [Function.update_self, isMore, ahead_append received ?_, ← isMore]
      · apply List.rel_append ((aligned.queues p.peer).imp keeps)
        refine List.Forall₂.cons ⟨rfl, ?_, sentNow, ?_, ?_⟩ List.Forall₂.nil
        · rw [elsewhere _ (by omega)]
          exact (aligned.parties p).previousLength
        · rw [here]
          exact Nat.lt_succ_self _
        · exact lawful.opens _ _ _ _ _ sealed
      · rcases side with ⟨next, last⟩ | ⟨next, last⟩
        · exact Or.inl ⟨next, aligned.unsent _ (by omega)⟩
        · exact Or.inr next

/-- The world after `p` opened its oldest packet and went on to state `s`. -/
def Conversation.opened (w : Conversation β κ ℓ) (p : Party) (rest : List (Packet β))
    (s : RatchetState β κ ℓ) (drawn : β) : Conversation β κ ℓ :=
  { state := Function.update w.state p s
    inFlight := Function.update w.inFlight p rest
    publics := drawn :: w.publics }

/-- The session stays aligned when a party moves along its own chains, by at most one new
link, and what was ahead of it stays in its queue. -/
theorem Aligned.arrive {ops : Ops β κ ν ℓ} {links next : Nat → Link β κ} {sent : Nat → Nat}
    {top top' d' r' : Nat} {depth recv : Party → Nat} {w : Conversation β κ ℓ}
    (aligned : Aligned ops links sent top depth recv w) {p : Party} {rest : List (Packet β)}
    {s : RatchetState β κ ℓ} {drawn : β} (longer : top ≤ top')
    (same : ∀ i ≤ top, next i = links i)
    (sameTurn : d' % 2 = depth p % 2) (near : d' ≤ top' ∧ top' ≤ d' + 1)
    (nearPeer : top' ≤ depth p.peer + 1) (linked : ∀ i < top', Linked ops next i)
    (distinct : Distinct ops next top')
    (known : ∀ i ≤ top', (next i).publicKey ops ∈ drawn :: w.publics)
    (at_ : PartyAt ops next sent d' r' s) (store : s.skippedKeys.isEmpty = true)
    (queue : List.Forall₂ (Carries ops links sent) rest (ahead sent d' r')) :
    Aligned ops next sent top' (Function.update depth p d') (Function.update recv p r')
      (w.opened p rest s drawn) := by
  have peerBelow := (aligned.near p.peer).1
  have keeps : ∀ packet place, Carries ops links sent packet place →
      Carries ops next sent packet place := by
    intro packet place carries
    exact carries.congr (same _ (aligned.chain_le carries)) rfl (Nat.le_refl _)
  refine ⟨aligned.preKey, aligned.bounded, ?_, ?_, linked, distinct, known,
    fun i above => aligned.unsent i (by omega), ?_, ?_, ?_⟩
  · intro q
    have turn := aligned.turns p
    rcases Party.eq_or_eq_peer p q with rfl | rfl
    · rw [Function.update_self, Function.update_of_ne (Party.peer_ne q)]
      omega
    · rw [Party.peer_peer, Function.update_self, Function.update_of_ne (Party.peer_ne p)]
      omega
  · intro q
    rcases Party.eq_or_eq_peer p q with rfl | rfl
    · rw [Function.update_self]
      exact near
    · rw [Function.update_of_ne (Party.peer_ne p)]
      omega
  · intro q
    dsimp only [Conversation.opened]
    rcases Party.eq_or_eq_peer p q with rfl | rfl
    · rw [Function.update_self, Function.update_self, Function.update_self]
      exact at_
    · rw [Function.update_of_ne (Party.peer_ne p), Function.update_of_ne (Party.peer_ne p),
        Function.update_of_ne (Party.peer_ne p)]
      exact (aligned.parties p.peer).congr fun i below => same i (by omega)
  · intro q
    dsimp only [Conversation.opened]
    rcases Party.eq_or_eq_peer p q with rfl | rfl
    · rw [Function.update_self]
      exact store
    · rw [Function.update_of_ne (Party.peer_ne p)]
      exact aligned.stores p.peer
  · intro q
    dsimp only [Conversation.opened]
    rcases Party.eq_or_eq_peer p q with rfl | rfl
    · rw [Function.update_self, Function.update_self, Function.update_self]
      exact queue.imp keeps
    · rw [Function.update_of_ne (Party.peer_ne p), Function.update_of_ne (Party.peer_ne p),
        Function.update_of_ne (Party.peer_ne p)]
      exact (aligned.queues p.peer).imp keeps

theorem RatchetState.skip_none (ops : Ops β κ ν ℓ) (s : RatchetState β κ ℓ) :
    RatchetState.skipMissedMessages ops s s.recvMessageNumber = (s, .ok ()) := by
  have reached : ¬ s.recvMessageNumber > s.recvMessageNumber := UInt32.lt_irrefl _
  have short : ¬ (0 : UInt32) > MAX_SKIP := by decide
  cases chain : s.receivingChainKey with
  | none => simp only [RatchetState.skipMissedMessages, reached, short, chain, UInt32.sub_self,
      ↓reduceIte]
  | some receivingCk =>
      simp only [RatchetState.skipMissedMessages, reached, short, chain, UInt32.sub_self,
        ↓reduceIte, UInt32.toNat_zero, RatchetState.skipLoop]
      rw [← chain]

theorem RatchetState.skippedKeys_receiveOnChain (ops : Ops β κ ν ℓ) {s : RatchetState β κ ℓ}
    {header : MessageHeader β} (next : header.messageNumber = s.recvMessageNumber)
    (ciphertext : β) :
    (RatchetState.receiveOnChain ops s ciphertext header).1.skippedKeys = s.skippedKeys := by
  simp only [RatchetState.receiveOnChain, next, RatchetState.skip_none]
  split
  · rfl
  · split <;> rfl

theorem SkippedKeys.lookup_of_isEmpty {ι : Type} [DecidableEq ι] {store : SkippedKeys ι κ}
    (empty : store.isEmpty = true) (index : ι) : store.lookup index = none := by
  simp only [SkippedKeys.isEmpty, SkippedKeys.len, decide_eq_true_eq, Finset.card_eq_zero] at empty
  rw [SkippedKeys.lookup, Finmap.lookup_eq_none, ← Finmap.mem_keys, empty]
  exact Finset.notMem_empty index

section

variable [DecidableEq β]
variable {ops : Ops β κ ν ℓ} {links : Nat → Link β κ} {sent : Nat → Nat} {top : Nat}
variable {depth recv : Party → Nat} {w : Conversation β κ ℓ} {p : Party} {packet : Packet β}
variable {rest : List (Packet β)} {places : List (Nat × Nat)}

/-- `decrypt` opens the oldest packet and leaves an aligned session. -/
def Opens (ops : Ops β κ ν ℓ) (w : Conversation β κ ℓ) (p : Party) (packet : Packet β)
    (rest : List (Packet β)) (keypair : κ) : Prop :=
  ∃ s, RatchetState.decrypt ops keypair (w.state p) packet.ciphertext packet.header =
      .returns s (.ok packet.plaintext) ∧
    s.sendingChainKey.isSome = true ∧
    s.sendMessageNumber.toNat ≤ (w.state p).sendMessageNumber.toNat ∧
    ∃ links sent top depth recv, Aligned ops links sent top depth recv
      (w.opened p rest s (ops.toVec (ops.publicKey keypair)))

theorem Aligned.open_current (lawful : ops.Lawful)
    (aligned : Aligned ops links sent top depth recv w)
    (carries : Carries ops links sent packet (depth p - 1, recv p))
    (queue : List.Forall₂ (Carries ops links sent) rest (ahead sent (depth p) (recv p + 1)))
    (keypair : κ) : Opens ops w p packet rest keypair := by
  have party := aligned.parties p
  have near := aligned.near p
  have below : recv p < sent (depth p - 1) := carries.below
  have started : 2 ≤ depth p := by
    by_contra early
    rw [show depth p - 1 = 0 by omega, aligned.preKey] at below
    omega
  have next : packet.header.messageNumber = (w.state p).recvMessageNumber := by
    apply UInt32.toNat.inj
    rw [carries.number, party.recvNumber]
  have noGap : Conversation.gap (w.state p) packet.header.messageNumber = 0 := by
    rw [Conversation.gap, next, Nat.sub_self]
  have noKeys : (w.state p).skippedKeys.len = 0 := of_decide_eq_true (aligned.stores p)
  have sameChain : (w.state p).needRatchet packet.header = false := by
    simp only [RatchetState.needRatchet, party.peerPublic, if_neg (show depth p ≠ 0 by omega),
      carries.publicKey, ne_eq, not_true_eq_false, decide_false]
  have absent := SkippedKeys.take_of_none (SkippedKeys.lookup_of_isEmpty (aligned.stores p)
    (ops.hexEncode packet.header.dhPublic, packet.header.messageNumber))
  obtain ⟨s, received, moved, -⟩ := party.receive lawful aligned.distinct near.1 started
    (Nat.le_of_eq carries.number.symm) (by rw [carries.number]; exact below) (aligned.bounded _)
    (by rw [noGap]; exact Nat.zero_le _) (by rw [noGap, noKeys]; exact Nat.zero_le _)
    (by rw [carries.number]; exact carries.opens)
  rw [carries.number] at moved
  have store := RatchetState.skippedKeys_receiveOnChain ops next packet.ciphertext
  rw [received] at store
  refine ⟨s, ?_, ?_, ?_, links, sent, top, _, _, aligned.arrive (Nat.le_refl _) (fun _ _ => rfl) rfl
    near (aligned.near p.peer).2 aligned.linked aligned.distinct
    (fun i inside => List.mem_cons_of_mem _ (aligned.known i inside)) moved ?_ queue⟩
  · simp only [RatchetState.decrypt, absent, sameChain, Bool.false_eq_true, ↓reduceIte, received]
  · rw [moved.sending, if_neg (by omega)]
    rfl
  · rw [moved.sendNumber, party.sendNumber]
  · rw [store]
    exact aligned.stores p

/-- The first packet of the peer's next chain, once the current one is used up. -/
theorem Aligned.open_next (lawful : ops.Lawful)
    (aligned : Aligned ops links sent top depth recv w)
    (carries : Carries ops links sent packet (depth p + 1, 0)) (last : recv p = sent (depth p - 1))
    (queue : List.Forall₂ (Carries ops links sent) rest
      ((List.range' 1 (sent (depth p + 1) - 1)).map (fun n => (depth p + 1, n))))
    {keypair : κ} (fresh : ops.toVec (ops.publicKey keypair) ∉ w.publics) :
    Opens ops w p packet rest keypair := by
  have party := aligned.parties p
  have near := aligned.near p
  have nearPeer := aligned.near p.peer
  have side := aligned.side p
  have topHere : top = depth p + 1 := by
    have inside := aligned.chain_le carries
    omega
  have first : packet.header.messageNumber = 0 := UInt32.toNat.inj carries.number
  have previous : packet.header.previousChainLength = (w.state p).recvMessageNumber := by
    apply UInt32.toNat.inj
    rw [carries.previous, party.recvNumber, last]
    rfl
  have newChain : (w.state p).needRatchet packet.header = true := by
    simp only [RatchetState.needRatchet, party.peerPublic, carries.publicKey]
    by_cases start : depth p = 0
    · rw [if_pos start]
    · rw [if_neg start]
      refine decide_eq_true fun same => ?_
      have index := aligned.distinct _ _ (by omega) (by omega) same
      omega
  have absent := SkippedKeys.take_of_none (SkippedKeys.lookup_of_isEmpty (aligned.stores p)
    (ops.hexEncode packet.header.dhPublic, packet.header.messageNumber))
  -- ratchet onto the peer's link and open the next one
  rw [last] at party
  obtain ⟨ratcheted, ratchets, ratchetedAt, sameStore⟩ := party.ratchet lawful
    (aligned.linked _ (by omega)) (aligned.unsent _ (by omega)) keypair
  have linked := linked_extend keypair aligned.linked
  have distinct : Distinct ops (Function.update links (top + 1) (nextLink ops links top keypair))
      (top + 1) := aligned.distinct.extend fun i below repeated =>
        fresh (repeated ▸ aligned.known i below)
  rw [topHere] at linked distinct
  obtain ⟨next, isNext⟩ : ∃ next, next =
    Function.update links (depth p + 2) (nextLink ops links (depth p + 1) keypair) := ⟨_, rfl⟩
  rw [← isNext] at ratchetedAt linked distinct
  have same : ∀ i ≤ top, next i = links i := by
    intro i below
    rw [isNext, Function.update_of_ne (by omega)]
  have newest : (next (depth p + 2)).publicKey ops = ops.toVec (ops.publicKey keypair) := by
    rw [isNext, Function.update_self]
    rfl
  -- receive the first message of the new chain
  have chainAhead : depth p + 2 - 1 = depth p + 1 := rfl
  have start : packet.header.messageNumber = ratcheted.recvMessageNumber := by
    apply UInt32.toNat.inj
    rw [carries.number, ratchetedAt.recvNumber]
  have noGap : Conversation.gap ratcheted packet.header.messageNumber = 0 := by
    rw [Conversation.gap, start, Nat.sub_self]
  have noKeys : ratcheted.skippedKeys.len = 0 := by
    rw [sameStore]
    exact of_decide_eq_true (aligned.stores p)
  obtain ⟨s, received, moved, -⟩ := ratchetedAt.receive lawful distinct (Nat.le_refl _)
    (by omega) (Nat.zero_le _) (by rw [carries.number]; exact carries.below) (aligned.bounded _)
    (by rw [noGap]; exact Nat.zero_le _) (by rw [noGap, noKeys]; exact Nat.zero_le _)
    (by rw [carries.number, chainAhead, same _ (by omega)]; exact carries.opens)
  rw [carries.number] at moved
  have store := RatchetState.skippedKeys_receiveOnChain ops start packet.ciphertext
  rw [received] at store
  have aheadNow : ahead sent (depth p + 2) 1 =
      (List.range' 1 (sent (depth p + 1) - 1)).map (fun n => (depth p + 1, n)) :=
    ahead_of_unsent (aligned.unsent _ (by omega))
  refine ⟨s, ?_, ?_, ?_, next, sent, depth p + 2, _, _, aligned.arrive (by omega) same (by omega)
    (by omega) (by omega) linked distinct ?_ moved ?_ (by rw [aheadNow]; exact queue)⟩
  · rw [RatchetState.decrypt, absent]
    simp only [newChain, ↓reduceIte, RatchetState.ratchetStep, previous, RatchetState.skip_none]
    rw [carries.publicKey, ratchets]
    simp only [received]
  · rw [moved.sending, if_neg (by omega)]
    rfl
  · rw [moved.sendNumber, aligned.unsent _ (by omega)]
    exact Nat.zero_le _
  · intro i below
    by_cases newer : i = depth p + 2
    · rw [newer, newest]
      exact List.mem_cons_self
    · rw [same i (by omega)]
      exact List.mem_cons_of_mem _ (aligned.known i (by omega))
  · rw [store, sameStore]
    exact aligned.stores p

theorem Aligned.open_oldest (lawful : ops.Lawful)
    (aligned : Aligned ops links sent top depth recv w) (arrives : w.inFlight p = packet :: rest)
    {keypair : κ} (fresh : ops.toVec (ops.publicKey keypair) ∉ w.publics) :
    Opens ops w p packet rest keypair := by
  have queue := aligned.queues p
  rw [arrives] at queue
  cases next : ahead sent (depth p) (recv p) with
  | nil =>
      rw [next] at queue
      cases queue
  | cons place places =>
      rw [next, List.forall₂_cons] at queue
      obtain ⟨rfl, -, rfl⟩ | ⟨rfl, last, -, rfl⟩ :=
        ahead_cases (aligned.parties p).received next
      · exact aligned.open_current lawful queue.1 queue.2 keypair
      · exact aligned.open_next lawful queue.1 last queue.2 fresh

end

end Hysj.Ratchet
