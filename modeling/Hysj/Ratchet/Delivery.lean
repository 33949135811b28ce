import Mathlib.Data.List.Nodup
import Hysj.Ratchet.Synchronised

set_option autoImplicit false

/- The invariant of a session with packets in flight, and that every delivery
within the limits opens its packet. -/
namespace Hysj.Ratchet

variable {β κ ν ℓ : Type} [DecidableEq ℓ]

/-- A packet of chain `e` on its way to a party that sends on chain `d` and has
received up to number `r` of chain `d - 1`. -/
structure InTransit (ops : Ops β κ ν ℓ) (links : Nat → Link β κ) (sent : Nat → Nat) (d r : Nat)
    (s : RatchetState β κ ℓ) (packet : Packet β) (e : Nat) : Prop where
  turn : (e + d) % 2 = 1
  publicKey : packet.header.dhPublic = (links e).publicKey ops
  previous : packet.header.previousChainLength.toNat = sent (e - 2)
  number : packet.header.messageNumber.toNat < sent e
  opens : ops.cipherDecrypt packet.ciphertext
    (messageKeyAt ops (links e).chain packet.header.messageNumber.toNat)
    (ops.headerToBytes packet.header) = .ok packet.plaintext
  holds : Holds ops links d r s e packet.header.messageNumber

/-- The header fields that name a message key. -/
def Packet.label (packet : Packet β) : β × UInt32 :=
  (packet.header.dhPublic, packet.header.messageNumber)

/-- What is true of a session between any two events: both parties stand in one
history of `top` root steps, and every packet in flight can still be opened. -/
structure Synced (ops : Ops β κ ν ℓ) (links : Nat → Link β κ) (sent : Nat → Nat) (top : Nat)
    (depth recv : Party → Nat) (w : Conversation β κ ℓ) : Prop where
  preKey : sent 0 = 0
  bounded : ∀ i, sent i < 2 ^ 32
  turns : ∀ p, (depth p + depth p.peer) % 2 = 1
  near : ∀ p, depth p ≤ top ∧ top ≤ depth p + 1
  linked : ∀ i < top, Linked ops links i
  distinct : Distinct ops links top
  known : ∀ i ≤ top, (links i).publicKey ops ∈ w.publics
  unsent : ∀ i, top < i → sent i = 0
  parties : ∀ p, PartyAt ops links sent (depth p) (recv p) (w.state p)
  packets : ∀ p, ∀ packet ∈ w.inFlight p,
    ∃ e, InTransit ops links sent (depth p) (recv p) (w.state p) packet e
  once : ∀ p, ((w.inFlight p).map Packet.label).Nodup

/-- A packet in flight belongs to a chain that exists and is not Bob's pre-key. -/
theorem Synced.chain_of {ops : Ops β κ ν ℓ} {links : Nat → Link β κ} {sent : Nat → Nat}
    {top : Nat} {depth recv : Party → Nat} {w : Conversation β κ ℓ}
    (synced : Synced ops links sent top depth recv w) {p : Party} {packet : Packet β} {e : Nat}
    (transit : InTransit ops links sent (depth p) (recv p) (w.state p) packet e) :
    1 ≤ e ∧ e ≤ top := by
  have number := transit.number
  constructor
  · by_contra small
    have zero : e = 0 := by omega
    rw [zero, synced.preKey] at number
    omega
  · by_contra large
    rw [synced.unsent e (by omega)] at number
    omega

theorem Synced.label_unused {ops : Ops β κ ν ℓ} {links : Nat → Link β κ} {sent : Nat → Nat}
    {top d : Nat} {depth recv : Party → Nat} {w : Conversation β κ ℓ}
    (synced : Synced ops links sent top depth recv w) (p : Party) (below : d ≤ top) {n : UInt32}
    (next : n.toNat = sent d) :
    ((links d).publicKey ops, n) ∉ (w.inFlight p).map Packet.label := by
  intro repeated
  obtain ⟨packet, member, label⟩ := List.mem_map.mp repeated
  obtain ⟨e, transit⟩ := synced.packets p packet member
  have range := synced.chain_of transit
  have number := transit.number
  simp only [Packet.label, transit.publicKey, Prod.mk.injEq] at label
  have sameChain := synced.distinct e d range.2 below label.1
  rw [label.2, sameChain, next] at number
  exact Nat.lt_irrefl _ number

/-- A packet stays deliverable when links and sent counts only grow behind it. -/
theorem InTransit.congr {ops : Ops β κ ν ℓ} {links other : Nat → Link β κ}
    {sent more : Nat → Nat} {d d' r r' : Nat} {s s' : RatchetState β κ ℓ} {packet : Packet β}
    {e : Nat} (transit : InTransit ops links sent d r s packet e) (sameTurn : d' % 2 = d % 2)
    (sameLink : other e = links e) (previous : more (e - 2) = sent (e - 2))
    (number : sent e ≤ more e)
    (holds : Holds ops other d' r' s' e packet.header.messageNumber) :
    InTransit ops other more d' r' s' packet e := by
  have turn := transit.turn
  refine ⟨by omega, ?_, ?_, Nat.lt_of_lt_of_le transit.number number, ?_, holds⟩
  · rw [sameLink, transit.publicKey]
  · rw [previous, transit.previous]
  · rw [sameLink]
    exact transit.opens

/-- Alice starts on chain 1 and Bob on his pre-key. -/
def startDepth : Party → Nat
  | .alice => 1
  | .bob => 0

/-- A session starts synchronised: the shared secret and Bob's pre-key are link 0,
and `init_sender` opened link 1. -/
theorem Synced.start {ops : Ops β κ ν ℓ} (lawful : ops.Lawful) {sharedSecret : β}
    {bobSecret aliceSecret : κ}
    (apart : ops.toVec (ops.publicKey aliceSecret) ≠ ops.toVec (ops.publicKey bobSecret))
    {w : Conversation β κ ℓ}
    (started : Conversation.start ops sharedSecret bobSecret aliceSecret = some w) :
    ∃ links sent top depth recv, Synced ops links sent top depth recv w := by
  have agreed := lawful.copy32_toVec (ops.publicKey bobSecret)
  simp only [Conversation.start, RatchetState.initSender, agreed, Option.bind_eq_bind,
    Option.bind_some, Option.some.injEq] at started
  subst started
  let preKey : Link β κ := ⟨bobSecret, sharedSecret, sharedSecret⟩
  let links : Nat → Link β κ :=
    Function.update (fun _ => preKey) 1 (nextLink ops (fun _ => preKey) 0 aliceSecret)
  have first : links 0 = preKey := Function.update_of_ne (by omega) _ _
  have second : links 1 = nextLink ops (fun _ => preKey) 0 aliceSecret := Function.update_self _ _ _
  refine ⟨links, fun _ => 0, 1, startDepth, fun _ => 0,
    rfl, fun _ => by omega, ?_, ?_, ?_, ?_, ?_, fun _ _ => rfl, ?_, ?_, ?_⟩
  · intro p
    cases p <;> rfl
  · intro p
    cases p <;> simp [startDepth]
  · intro i below
    have zero : i = 0 := by omega
    subst zero
    exact linked_nextLink ops (fun _ => preKey) 0 aliceSecret
  · intro i j iBelow jBelow same
    have cases_i : i = 0 ∨ i = 1 := by omega
    have cases_j : j = 0 ∨ j = 1 := by omega
    rcases cases_i with rfl | rfl <;> rcases cases_j with rfl | rfl
    · rfl
    · rw [first, second] at same
      exact absurd same.symm apart
    · rw [first, second] at same
      exact absurd same apart
    · rfl
  · intro i below
    have cases_i : i = 0 ∨ i = 1 := by omega
    rcases cases_i with rfl | rfl
    · rw [first]
      exact List.mem_cons_of_mem _ (List.mem_singleton.mpr rfl)
    · rw [second]
      exact List.mem_cons_self
  · intro p
    cases p with
    | alice =>
        refine ⟨?_, ?_, rfl, ?_, ?_, ?_, rfl, rfl, rfl, fun _ => rfl, Nat.le_refl _, ?_⟩
        · show _ = (links 1).root
          rw [second]
          rfl
        · show _ = some (links 1).chain
          rw [second]
          rfl
        · show _ = ops.toVec (links 1).secret
          rw [second]
          rfl
        · show _ = (links 1).publicKey ops
          rw [second]
          rfl
        · show _ = some ((links 0).publicKey ops)
          rw [first]
          rfl
        · intro index key present
          cases present
    | bob =>
        refine ⟨?_, rfl, rfl, ?_, ?_, rfl, rfl, rfl, rfl, fun _ => rfl, Nat.le_refl _, ?_⟩
        · show _ = (links 0).root
          rw [first]
          rfl
        · show _ = ops.toVec (links 0).secret
          rw [first]
          rfl
        · show _ = (links 0).publicKey ops
          rw [first]
          rfl
        · intro index key present
          cases present
  · intro p packet member
    cases member
  · intro p
    exact List.nodup_nil

theorem Synced.encrypt {ops : Ops β κ ν ℓ} (lawful : ops.Lawful) {links : Nat → Link β κ}
    {sent : Nat → Nat} {top : Nat} {depth recv : Party → Nat} {w : Conversation β κ ℓ}
    (synced : Synced ops links sent top depth recv w) {p : Party} {nonce : ν} {plaintext : β}
    {s : RatchetState β κ ℓ} {ciphertext : β} {header : MessageHeader β}
    (room : (w.state p).sendMessageNumber.toNat + 1 < 2 ^ 32)
    (ok : RatchetState.encrypt ops nonce (w.state p) plaintext =
      (s, .ok (ciphertext, header))) :
    ∃ more, Synced ops links more top depth recv
      { w with
        state := Function.update w.state p s
        inFlight := Function.update w.inFlight p.peer
          (⟨ciphertext, header, plaintext⟩ :: w.inFlight p.peer) } := by
  obtain ⟨started, rfl, sealed, moved, sameStore⟩ := (synced.parties p).encrypts room ok
  have sentNow := (synced.parties p).sendNumber
  have turn := synced.turns p
  have near := synced.near p
  have nearPeer := synced.near p.peer
  let more := Function.update sent (depth p) (sent (depth p) + 1)
  have here : more (depth p) = sent (depth p) + 1 := Function.update_self _ _ _
  have elsewhere : ∀ i, i ≠ depth p → more i = sent i :=
    fun i other => Function.update_of_ne other _ _
  have grows : ∀ i, sent i ≤ more i := by
    intro i
    by_cases same : i = depth p
    · rw [same, here]
      exact Nat.le_succ _
    · rw [elsewhere i same]
  refine ⟨more, ?_, ?_, synced.turns, synced.near, synced.linked, synced.distinct, synced.known,
    ?_, ?_, ?_, ?_⟩
  · rw [elsewhere 0 (Ne.symm started), synced.preKey]
  · intro i
    by_cases same : i = depth p
    · rw [same, here, ← sentNow]
      exact room
    · rw [elsewhere i same]
      exact synced.bounded i
  · intro i above
    rw [elsewhere i (by omega)]
    exact synced.unsent i above
  · intro q
    rcases Party.eq_or_eq_peer p q with rfl | rfl
    · dsimp only
      rw [Function.update_self]
      exact moved
    · dsimp only
      rw [Function.update_of_ne (Party.peer_ne p)]
      exact (synced.parties p.peer).mono (elsewhere _ (by omega)) (grows _) (elsewhere _ (by omega))
  · intro q packet member
    rcases Party.eq_or_eq_peer p q with rfl | rfl
    · dsimp only at member ⊢
      rw [Function.update_of_ne (Ne.symm (Party.peer_ne q))] at member
      rw [Function.update_self]
      obtain ⟨e, transit⟩ := synced.packets q packet member
      have range := synced.chain_of transit
      have chainTurn := transit.turn
      refine ⟨e, transit.congr rfl rfl (elsewhere _ (by omega)) (grows _) ?_⟩
      intro seen
      rw [sameStore]
      exact transit.holds seen
    · dsimp only at member ⊢
      rw [Function.update_self] at member
      rw [Function.update_of_ne (Party.peer_ne p)]
      rcases List.mem_cons.mp member with rfl | old
      · refine ⟨depth p, turn, rfl, ?_, ?_, ?_, ?_⟩
        · rw [elsewhere _ (by omega)]
          exact (synced.parties p).previousLength
        · rw [here]
          show (w.state p).sendMessageNumber.toNat < _
          omega
        · dsimp only
          rw [sentNow]
          exact lawful.opens _ _ _ _ _ sealed
        · -- the peer has not received more of this chain than was sent
          intro seen
          dsimp only [Seen] at seen
          rw [sentNow] at seen
          have received := (synced.parties p.peer).received
          rcases seen with below | ⟨last, early⟩
          · omega
          · have index : depth p.peer - 1 = depth p := by omega
            rw [index] at received
            omega
      · obtain ⟨e, transit⟩ := synced.packets p.peer packet old
        have range := synced.chain_of transit
        have chainTurn := transit.turn
        exact ⟨e, transit.congr rfl rfl (elsewhere _ (by omega)) (grows _) transit.holds⟩
  · intro q
    rcases Party.eq_or_eq_peer p q with rfl | rfl
    · dsimp only
      rw [Function.update_of_ne (Ne.symm (Party.peer_ne q))]
      exact synced.once q
    · dsimp only
      rw [Function.update_self, List.map_cons, List.nodup_cons]
      exact ⟨synced.label_unused p.peer near.1 sentNow, synced.once p.peer⟩

theorem Synced.lose {ops : Ops β κ ν ℓ} {links : Nat → Link β κ} {sent : Nat → Nat} {top : Nat}
    {depth recv : Party → Nat} {w : Conversation β κ ℓ}
    (synced : Synced ops links sent top depth recv w) {p : Party} {before after : List (Packet β)}
    {packet : Packet β} (lost : w.inFlight p = before ++ packet :: after) :
    Synced ops links sent top depth recv
      { w with inFlight := Function.update w.inFlight p (before ++ after) } := by
  have fewer : (before ++ after).Sublist (w.inFlight p) := by
    rw [lost]
    exact (List.sublist_cons_self packet after).append_left before
  have shrinks : ∀ q, (Function.update w.inFlight p (before ++ after) q).Sublist
      (w.inFlight q) := by
    intro q
    by_cases same : q = p
    · subst same
      rw [Function.update_self]
      exact fewer
    · rw [Function.update_of_ne same]
  refine ⟨synced.preKey, synced.bounded, synced.turns, synced.near, synced.linked,
    synced.distinct, synced.known, synced.unsent, synced.parties, ?_, ?_⟩
  · intro q other member
    exact synced.packets q other ((shrinks q).subset member)
  · intro q
    exact (synced.once q).sublist ((shrinks q).map _)

/-- The world after `p` took `packet` off the network and went on to state `s`. -/
def Conversation.arrived (w : Conversation β κ ℓ) (p : Party) (before after : List (Packet β))
    (s : RatchetState β κ ℓ) : Conversation β κ ℓ :=
  { state := Function.update w.state p s
    inFlight := Function.update w.inFlight p (before ++ after)
    publics := s.dhSendPublic :: w.publics }

/-- The session stays synchronised when a party moves along its own chains, by at most
one new link, and keeps the stored keys of every packet but the one it took. -/
theorem Synced.arrive {ops : Ops β κ ν ℓ} {links next : Nat → Link β κ} {sent : Nat → Nat}
    {top top' d' r' : Nat} {depth recv : Party → Nat} {w : Conversation β κ ℓ}
    (synced : Synced ops links sent top depth recv w) {p : Party} {before after : List (Packet β)}
    {packet : Packet β} (arrives : w.inFlight p = before ++ packet :: after)
    {s : RatchetState β κ ℓ} (longer : top ≤ top') (same : ∀ i ≤ top, next i = links i)
    (sameTurn : d' % 2 = depth p % 2) (near : d' ≤ top' ∧ top' ≤ d' + 1)
    (nearPeer : top' ≤ depth p.peer + 1) (linked : ∀ i < top', Linked ops next i)
    (distinct : Distinct ops next top')
    (known : ∀ i ≤ top', (next i).publicKey ops ∈ s.dhSendPublic :: w.publics)
    (at_ : PartyAt ops next sent d' r' s)
    (kept : ∀ e n, 1 ≤ e → e ≤ top → (e + depth p) % 2 = 1 → n.toNat < sent e →
      ((links e).publicKey ops, n) ≠ packet.label →
        Holds ops links (depth p) (recv p) (w.state p) e n → Holds ops next d' r' s e n) :
    Synced ops next sent top' (Function.update depth p d') (Function.update recv p r')
      (w.arrived p before after s) := by
  have others := synced.once p
  rw [arrives, List.map_append, List.map_cons, List.nodup_middle, List.nodup_cons,
    ← List.map_append] at others
  have peerBelow := (synced.near p.peer).1
  refine ⟨synced.preKey, synced.bounded, ?_, ?_, linked, distinct, known,
    fun i above => synced.unsent i (by omega), ?_, ?_, ?_⟩
  · intro q
    have turn := synced.turns q
    rcases Party.eq_or_eq_peer p q with rfl | rfl
    · rw [Function.update_self, Function.update_of_ne (Party.peer_ne q)]
      omega
    · rw [Function.update_of_ne (Party.peer_ne p), Party.peer_peer, Function.update_self]
      rw [Party.peer_peer] at turn
      omega
  · intro q
    rcases Party.eq_or_eq_peer p q with rfl | rfl
    · rw [Function.update_self]
      exact near
    · rw [Function.update_of_ne (Party.peer_ne p)]
      omega
  · intro q
    dsimp only [Conversation.arrived]
    rcases Party.eq_or_eq_peer p q with rfl | rfl
    · rw [Function.update_self, Function.update_self, Function.update_self]
      exact at_
    · rw [Function.update_of_ne (Party.peer_ne p), Function.update_of_ne (Party.peer_ne p),
        Function.update_of_ne (Party.peer_ne p)]
      exact (synced.parties p.peer).congr fun i below => same i (by omega)
  · intro q other member
    dsimp only [Conversation.arrived] at member ⊢
    rcases Party.eq_or_eq_peer p q with rfl | rfl
    · rw [Function.update_self] at member
      rw [Function.update_self, Function.update_self, Function.update_self]
      have old : other ∈ w.inFlight q := by
        rw [arrives]
        exact ((List.sublist_cons_self packet after).append_left before).subset member
      obtain ⟨e, transit⟩ := synced.packets q other old
      have range := synced.chain_of transit
      refine ⟨e, transit.congr sameTurn (same e range.2) rfl (Nat.le_refl _) ?_⟩
      apply kept e _ range.1 range.2 transit.turn transit.number ?_ transit.holds
      intro label
      apply others.1
      rw [← label, ← transit.publicKey]
      exact List.mem_map_of_mem member
    · rw [Function.update_of_ne (Party.peer_ne p)] at member
      rw [Function.update_of_ne (Party.peer_ne p), Function.update_of_ne (Party.peer_ne p),
        Function.update_of_ne (Party.peer_ne p)]
      obtain ⟨e, transit⟩ := synced.packets p.peer other member
      have range := synced.chain_of transit
      exact ⟨e, transit.congr rfl (same e range.2) rfl (Nat.le_refl _)
        (transit.holds.congr (same e range.2))⟩
  · intro q
    dsimp only [Conversation.arrived]
    rcases Party.eq_or_eq_peer p q with rfl | rfl
    · rw [Function.update_self]
      exact others.2
    · rw [Function.update_of_ne (Party.peer_ne p)]
      exact synced.once p.peer

/-- A party that takes a packet and stays on its chains leaves the session synchronised. -/
theorem Synced.arrive_same {ops : Ops β κ ν ℓ} {links : Nat → Link β κ} {sent : Nat → Nat}
    {top : Nat} {depth recv : Party → Nat} {w : Conversation β κ ℓ}
    (synced : Synced ops links sent top depth recv w) {p : Party} {before after : List (Packet β)}
    {packet : Packet β} (arrives : w.inFlight p = before ++ packet :: after)
    {s : RatchetState β κ ℓ} {r : Nat}
    (moved : PartyAt ops links sent (depth p) r s)
    (kept : ∀ e n, e ≤ top → ((links e).publicKey ops, n) ≠ packet.label →
      Holds ops links (depth p) (recv p) (w.state p) e n → Holds ops links (depth p) r s e n) :
    ∃ links sent top depth recv,
      Synced ops links sent top depth recv (w.arrived p before after s) := by
  have nearPeer := synced.near p.peer
  have near := synced.near p
  have turn := synced.turns p
  refine ⟨links, sent, top, Function.update depth p (depth p), Function.update recv p r, ?_⟩
  apply synced.arrive arrives (Nat.le_refl _) (fun _ _ => rfl) rfl near (by omega)
    synced.linked synced.distinct
      (fun i below => List.mem_cons_of_mem _ (synced.known i below)) moved
  intro e n _ below _ _ label holds
  exact kept e n below label holds

variable [DecidableEq β]

/-- `decrypt` opens the packet and leaves a synchronised session. -/
def Delivers (ops : Ops β κ ν ℓ) (w : Conversation β κ ℓ) (p : Party)
    (before after : List (Packet β)) (packet : Packet β) (keypair : κ) : Prop :=
  ∃ s, RatchetState.decrypt ops keypair (w.state p) packet.ciphertext packet.header =
      .returns s (.ok packet.plaintext) ∧
    ∃ links sent top depth recv, Synced ops links sent top depth recv (w.arrived p before after s)

section

variable {ops : Ops β κ ν ℓ} {links : Nat → Link β κ} {sent : Nat → Nat} {top e : Nat}
variable {depth recv : Party → Nat} {w : Conversation β κ ℓ} {p : Party}
variable {before after : List (Packet β)} {packet : Packet β}

/-- A packet the party has passed is opened by its key in the store. -/
theorem Synced.deliver_stored (lawful : ops.Lawful)
    (synced : Synced ops links sent top depth recv w)
    (arrives : w.inFlight p = before ++ packet :: after)
    (transit : InTransit ops links sent (depth p) (recv p) (w.state p) packet e)
    (seen : Seen (depth p) (recv p) e packet.header.messageNumber.toNat) (keypair : κ) :
    Delivers ops w p before after packet keypair := by
  have stored := transit.holds seen
  rw [← transit.publicKey] at stored
  obtain ⟨moved, kept⟩ := (synced.parties p).take lawful synced.distinct
    (synced.chain_of transit).2 (n := packet.header.messageNumber)
  rw [← transit.publicKey] at moved kept
  refine ⟨{ w.state p with skippedKeys := ((w.state p).skippedKeys.take
    (ops.hexEncode packet.header.dhPublic, packet.header.messageNumber)).2 }, ?_, ?_⟩
  · rw [RatchetState.decrypt_stored ops keypair _ stored, transit.opens]
  · refine synced.arrive_same arrives moved fun e' n' below label holds => ?_
    apply kept e' n' below ?_ holds
    rintro ⟨rfl, rfl⟩
    apply label
    rw [Packet.label, transit.publicKey]

/-- A packet of the current receiving chain is opened after skipping to its number. -/
theorem Synced.deliver_current (lawful : ops.Lawful)
    (synced : Synced ops links sent top depth recv w)
    (arrives : w.inFlight p = before ++ packet :: after)
    (transit : InTransit ops links sent (depth p) (recv p) (w.state p) packet e)
    (limits : Conversation.WithinLimits ops (w.state p) packet.header)
    (current : e + 1 = depth p) (ahead : recv p ≤ packet.header.messageNumber.toNat)
    (keypair : κ) : Delivers ops w p before after packet keypair := by
  have near := synced.near p
  have range := synced.chain_of transit
  have chain : depth p - 1 = e := by omega
  have absent := (synced.parties p).lookup_ahead lawful synced.distinct near.1 range.2
    (n := packet.header.messageNumber) (fun seen => by unfold Seen at seen; omega)
  rw [← transit.publicKey] at absent
  have sameChain : (w.state p).needRatchet packet.header = false := by
    simp only [RatchetState.needRatchet, (synced.parties p).peerPublic,
      if_neg (show depth p ≠ 0 by omega), chain, transit.publicKey, ne_eq, not_true_eq_false,
      decide_false]
  simp only [Conversation.WithinLimits, absent, sameChain, Option.isSome_none, Bool.false_eq_true,
    ↓reduceIte] at limits
  obtain ⟨s, received, moved, kept⟩ := (synced.parties p).receive lawful synced.distinct near.1
    (by omega) ahead (by rw [chain]; exact transit.number) (synced.bounded _) limits.1 limits.2
    (by rw [chain]; exact transit.opens)
  refine ⟨s, ?_, ?_⟩
  · simp only [RatchetState.decrypt, SkippedKeys.take_of_none absent, sameChain,
      Bool.false_eq_true, ↓reduceIte, received]
  · refine synced.arrive_same arrives moved fun e' n' below label holds => ?_
    apply kept e' n' below ?_ holds
    rintro ⟨same, rfl⟩
    apply label
    rw [Packet.label, transit.publicKey, same, chain]

/-- A packet of the peer's next chain makes the party close its receiving chain, ratchet
and skip to the packet's number. -/
theorem Synced.deliver_ratchet (lawful : ops.Lawful)
    (synced : Synced ops links sent top depth recv w)
    (arrives : w.inFlight p = before ++ packet :: after)
    (transit : InTransit ops links sent (depth p) (recv p) (w.state p) packet e)
    (limits : Conversation.WithinLimits ops (w.state p) packet.header)
    (ahead : e = depth p + 1) {keypair : κ}
    (fresh : (w.state p).needRatchet packet.header = true →
      ops.toVec (ops.publicKey keypair) ∉ w.publics) :
    Delivers ops w p before after packet keypair := by
  subst ahead
  have near := synced.near p
  have nearPeer := synced.near p.peer
  have turn := synced.turns p
  have range := synced.chain_of transit
  have topHere : top = depth p + 1 := by omega
  have party := synced.parties p
  have absent := party.lookup_ahead lawful synced.distinct near.1 range.2
    (n := packet.header.messageNumber) (fun seen => by unfold Seen at seen; omega)
  rw [← transit.publicKey] at absent
  have newChain : (w.state p).needRatchet packet.header = true := by
    simp only [RatchetState.needRatchet, party.peerPublic, transit.publicKey]
    by_cases first : depth p = 0
    · rw [if_pos first]
    · rw [if_neg first]
      refine decide_eq_true fun same => ?_
      have index := synced.distinct _ _ (by omega) range.2 same
      omega
  simp only [Conversation.WithinLimits, absent, newChain, Option.isSome_none, Bool.false_eq_true,
    ↓reduceIte] at limits
  have previous : packet.header.previousChainLength.toNat = sent (depth p - 1) := by
    rw [transit.previous]
    rfl
  -- close the current receiving chain
  obtain ⟨closed, skipped, closedAt, fits, kept⟩ := party.skip lawful synced.distinct near.1
    packet.header.previousChainLength (by rw [previous]; exact party.received)
    (Nat.le_of_eq previous) limits.1
    (fun small => by rw [show depth p - 1 = 0 by omega]; exact synced.preKey) (by omega)
  -- ratchet onto the peer's link and open the next one
  rw [previous] at closedAt
  obtain ⟨ratcheted, ratchets, ratchetedAt, sameStore⟩ := closedAt.ratchet lawful
    (synced.linked _ (by omega)) (synced.unsent _ (by omega)) keypair
  have linked := linked_extend keypair synced.linked
  have distinct : Distinct ops (Function.update links (top + 1) (nextLink ops links top keypair))
      (top + 1) := synced.distinct.extend fun i below repeated =>
        fresh newChain (repeated ▸ synced.known i below)
  rw [topHere] at linked distinct
  obtain ⟨next, isNext⟩ : ∃ next, next =
    Function.update links (depth p + 2) (nextLink ops links (depth p + 1) keypair) := ⟨_, rfl⟩
  rw [← isNext] at ratchetedAt linked distinct
  have same : ∀ i ≤ top, next i = links i := by
    intro i below
    rw [isNext, Function.update_of_ne (by omega)]
  -- receive the message on the new chain
  have chainAhead : depth p + 2 - 1 = depth p + 1 := rfl
  have fromZero : Conversation.gap ratcheted packet.header.messageNumber =
      packet.header.messageNumber.toNat := by
    rw [Conversation.gap, ratchetedAt.recvNumber, Nat.sub_zero]
  obtain ⟨s, received, moved, stored⟩ := ratchetedAt.receive lawful distinct (Nat.le_refl _)
    (by omega) (Nat.zero_le _) (by rw [chainAhead]; exact transit.number) (synced.bounded _)
    (by rw [fromZero]; exact limits.2.1) (by rw [fromZero, sameStore]; omega)
    (by rw [chainAhead, same _ range.2]; exact transit.opens)
  refine ⟨s, ?_, ?_⟩
  · rw [RatchetState.decrypt, SkippedKeys.take_of_none absent]
    simp only [newChain, ↓reduceIte, RatchetState.ratchetStep, skipped]
    rw [transit.publicKey, ratchets]
    simp only [received]
  · refine ⟨next, sent, depth p + 2, Function.update depth p (depth p + 2),
      Function.update recv p (packet.header.messageNumber.toNat + 1), ?_⟩
    apply synced.arrive arrives (by omega) same (by omega) (by omega) (by omega) linked distinct
      ?_ moved
    · intro e' n' _ below chainTurn number label holds
      apply stored e' n' (by omega)
      · rintro ⟨index, rfl⟩
        apply label
        rw [Packet.label, transit.publicKey, index, chainAhead]
      · intro seen
        have behind : e' + 1 < depth p ∨ e' + 1 = depth p := by
          rcases seen with below | here <;> omega
        have passed : Seen (depth p) packet.header.previousChainLength.toNat e' n'.toNat := by
          rcases behind with older | last
          · exact Or.inl older
          · refine Or.inr ⟨last, ?_⟩
            rw [previous, show depth p - 1 = e' by omega]
            exact number
        rw [sameStore, same e' below]
        exact kept e' n' below holds passed
    · intro i below
      by_cases last : i = depth p + 2
      · rw [last, moved.publicKey]
        exact List.mem_cons_self
      · rw [same i (by omega)]
        exact List.mem_cons_of_mem _ (synced.known i (by omega))

/-- Every delivery within the limits opens its packet: its key is in the store, on the
current receiving chain, or on the peer's next chain. -/
theorem Synced.deliver (lawful : ops.Lawful) (synced : Synced ops links sent top depth recv w)
    (arrives : w.inFlight p = before ++ packet :: after)
    (limits : Conversation.WithinLimits ops (w.state p) packet.header) {keypair : κ}
    (fresh : (w.state p).needRatchet packet.header = true →
      ops.toVec (ops.publicKey keypair) ∉ w.publics) :
    Delivers ops w p before after packet keypair := by
  have member : packet ∈ w.inFlight p := by
    rw [arrives]
    exact List.mem_append_right _ List.mem_cons_self
  obtain ⟨e, transit⟩ := synced.packets p packet member
  have near := synced.near p
  have range := synced.chain_of transit
  have turn := transit.turn
  by_cases seen : Seen (depth p) (recv p) e packet.header.messageNumber.toNat
  · exact synced.deliver_stored lawful arrives transit seen keypair
  · unfold Seen at seen
    by_cases current : e + 1 = depth p
    · exact synced.deliver_current lawful arrives transit limits current (by omega) keypair
    · exact synced.deliver_ratchet lawful arrives transit limits (by omega) fresh

end

theorem Synced.step {ops : Ops β κ ν ℓ} (lawful : ops.Lawful) {w w' : Conversation β κ ℓ}
    (synced : ∃ links sent top depth recv, Synced ops links sent top depth recv w)
    (step : Conversation.Step ops w w') :
    ∃ links sent top depth recv, Synced ops links sent top depth recv w' := by
  obtain ⟨links, sent, top, depth, recv, synced⟩ := synced
  cases step with
  | encrypt p nonce plaintext s ciphertext header room ok =>
      obtain ⟨more, after⟩ := synced.encrypt lawful room ok
      exact ⟨links, more, top, depth, recv, after⟩
  | deliver p before after packet keypair s result arrives limits fresh call =>
      obtain ⟨s', delivered, still⟩ := synced.deliver lawful arrives limits fresh
      rw [delivered, Call.returns.injEq] at call
      rw [← call.1]
      exact still
  | lose p before after packet lost =>
      exact ⟨links, sent, top, depth, recv, synced.lose lost⟩

theorem Synced.run {ops : Ops β κ ν ℓ} (lawful : ops.Lawful) {w w' : Conversation β κ ℓ}
    (synced : ∃ links sent top depth recv, Synced ops links sent top depth recv w)
    (run : Conversation.Run ops w w') :
    ∃ links sent top depth recv, Synced ops links sent top depth recv w' := by
  induction run with
  | refl => exact synced
  | tail _ step ih => exact Synced.step lawful ih step

/-- Along every run of a session, whatever is in flight can be delivered. -/
theorem delivers_of_run {ops : Ops β κ ν ℓ} (lawful : ops.Lawful) {sharedSecret : β}
    {bobSecret aliceSecret : κ}
    (apart : ops.toVec (ops.publicKey aliceSecret) ≠ ops.toVec (ops.publicKey bobSecret))
    {w₀ w : Conversation β κ ℓ}
    (started : Conversation.start ops sharedSecret bobSecret aliceSecret = some w₀)
    (run : Conversation.Run ops w₀ w) {p : Party} {packet : Packet β}
    (member : packet ∈ w.inFlight p)
    (limits : Conversation.WithinLimits ops (w.state p) packet.header) {keypair : κ}
    (fresh : (w.state p).needRatchet packet.header = true →
      ops.toVec (ops.publicKey keypair) ∉ w.publics) :
    ∃ s, RatchetState.decrypt ops keypair (w.state p) packet.ciphertext packet.header =
      .returns s (.ok packet.plaintext) := by
  obtain ⟨links, sent, top, depth, recv, synced⟩ :=
    Synced.run lawful (Synced.start lawful apart started) run
  obtain ⟨before, after, arrives⟩ := List.append_of_mem member
  obtain ⟨s, delivered, -⟩ := synced.deliver lawful arrives limits fresh
  exact ⟨s, delivered⟩

end Hysj.Ratchet
