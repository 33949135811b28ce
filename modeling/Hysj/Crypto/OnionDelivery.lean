import Mathlib.Data.List.Nodup
import Hysj.Crypto.Onion

set_option autoImplicit false

/- The way of a packet through the network. -/
namespace Hysj.Crypto.Onion

/-- A node of the network, with its private key. -/
structure Relay where
  address : String
  secret : ByteArr 32
  deriving DecidableEq

variable (p : Primitives) (serde : SerdeJson)

/-- What a route says of the node. -/
def Relay.node (relay : Relay) : RelayNode Bytes :=
  ⟨relay.address, (p.x25519Public relay.secret).toList⟩

/-- The node peels its layer of the packet. -/
abbrev Relay.peel (relay : Relay) (packet : Bytes) : Except CryptoError (OnionLayer Bytes) :=
  unwrapLayer (onionOps p serde) packet relay.secret.toList

/-- The nodes that a packet visits from a node on, and the payload that the last one finds: each
node peels its layer and forwards what is inside to the node with the address of the next hop. -/
inductive Visits (relays : List Relay) : Relay → Bytes → List Relay → Bytes → Prop where
  | ends {relay : Relay} {packet payload : Bytes}
      (peeled : relay.peel p serde packet = .ok ⟨"FINAL", payload⟩) :
      Visits relays relay packet [relay] payload
  | forwards {relay next : Relay} {packet inner payload : Bytes} {visited : List Relay}
      (peeled : relay.peel p serde packet = .ok ⟨next.address, inner⟩)
      (further : next.address ≠ "FINAL") (there : next ∈ relays)
      (rest : Visits relays next inner visited payload) :
      Visits relays relay packet (relay :: visited) payload

section

variable {p serde} {relays rest visited : List Relay} {relay first : Relay}
variable {packet inner payload out : Bytes} {draws : Nat → ByteArr 32 × ByteArr 24} {i : Nat}

theorem visits_of_final (peeled : relay.peel p serde packet = .ok ⟨"FINAL", inner⟩) :
    Visits p serde relays relay packet visited out ↔ visited = [relay] ∧ out = inner := by
  constructor
  · intro visits
    cases visits with
    | ends other =>
        rw [peeled] at other
        cases other
        exact ⟨rfl, rfl⟩
    | forwards other further _ _ =>
        rw [peeled] at other
        injection other with same
        injection same with hop _
        exact (further hop.symm).elim
  · rintro ⟨rfl, rfl⟩
    exact .ends peeled

theorem visits_of_hop (distinct : (relays.map Relay.address).Nodup) {next : Relay}
    (there : next ∈ relays) (further : next.address ≠ "FINAL")
    (peeled : relay.peel p serde packet = .ok ⟨next.address, inner⟩) :
    Visits p serde relays relay packet visited out ↔
      ∃ later, visited = relay :: later ∧ Visits p serde relays next inner later out := by
  constructor
  · intro visits
    cases visits with
    | ends other =>
        rw [peeled] at other
        injection other with same
        injection same with hop _
        exact (further hop).elim
    | forwards other _ known later =>
        rw [peeled] at other
        injection other with same
        injection same with hop inside
        rw [List.inj_on_of_nodup_map distinct there known hop, inside]
        exact ⟨_, rfl, later⟩
  · rintro ⟨later, rfl, visits⟩
    exact .forwards peeled further there visits

theorem peel_wrapFrom (lawful : Lawful (onionOps p serde) List.Vector.toList)
    (wrapped : wrapFrom (onionOps p serde) draws payload ((first :: rest).map (Relay.node p)) i =
      .ok packet) :
    ∃ inner, wrapFrom (onionOps p serde) draws payload (rest.map (Relay.node p))
    (i + 1) = .ok inner ∧
      first.peel p serde packet = .ok ⟨hopTo (rest.map (Relay.node p)), inner⟩ := by
  rw [List.map_cons, wrapFrom, Result.bind_eq_ok] at wrapped
  obtain ⟨inner, later, sealed⟩ := wrapped
  exact ⟨inner, later, unwrapLayer_sealLayer lawful rfl sealed⟩

/-- A packet visits the nodes of its route, if none but the first has the reserved address. -/
theorem visits_wrapFrom (lawful : Lawful (onionOps p serde) List.Vector.toList)
    (distinct : (relays.map Relay.address).Nodup) (known : ∀ relay ∈ rest, relay ∈ relays)
    (ordinary : ∀ relay ∈ rest, relay.address ≠ "FINAL")
    (wrapped : wrapFrom (onionOps p serde) draws payload ((first :: rest).map (Relay.node p)) i =
      .ok packet) :
    Visits p serde relays first packet visited out ↔ visited = first :: rest ∧ out = payload := by
  induction rest generalizing first i packet visited with
  | nil =>
      obtain ⟨inner, later, peeled⟩ := peel_wrapFrom lawful wrapped
      cases later
      exact visits_of_final peeled
  | cons next rest ih =>
      rw [List.forall_mem_cons] at known ordinary
      obtain ⟨inner, later, peeled⟩ := peel_wrapFrom lawful wrapped
      rw [visits_of_hop distinct known.1 ordinary.1 peeled]
      constructor
      · rintro ⟨after, rfl, visits⟩
        obtain ⟨rfl, rfl⟩ := (ih known.2 ordinary.2 later).mp visits
        exact ⟨rfl, rfl⟩
      · rintro ⟨rfl, rfl⟩
        exact ⟨_, rfl, (ih known.2 ordinary.2 later).mpr ⟨rfl, rfl⟩⟩

/-- A packet does not come to a node with the reserved address, nor to those behind it. -/
theorem visits_short (lawful : Lawful (onionOps p serde) List.Vector.toList)
    (known : ∀ relay ∈ rest, relay ∈ relays) (reserved : ∃ relay ∈ rest, relay.address = "FINAL")
    (wrapped : wrapFrom (onionOps p serde) draws payload ((first :: rest).map (Relay.node p)) i =
      .ok packet) :
    ∃ visited out, Visits p serde relays first packet visited out ∧
    visited.length < (first :: rest).length := by
  induction rest generalizing first i packet with
  | nil =>
      obtain ⟨relay, member, -⟩ := reserved
      cases member
  | cons next rest ih =>
      rw [List.forall_mem_cons] at known
      obtain ⟨inner, later, peeled⟩ := peel_wrapFrom lawful wrapped
      by_cases final : next.address = "FINAL"
      · have hop : hopTo ((next :: rest).map (Relay.node p)) = "FINAL" := final
        rw [hop] at peeled
        exact ⟨[first], inner, .ends peeled, by simp⟩
      · have beyond : ∃ relay ∈ rest, relay.address = "FINAL" := by
          obtain ⟨relay, member, is⟩ := reserved
          rcases List.mem_cons.mp member with rfl | behind
          · exact (final is).elim
          · exact ⟨relay, behind, is⟩
        obtain ⟨visited, out, visits, shorter⟩ := ih known.2 beyond later
        refine ⟨first :: visited, out, .forwards peeled final known.1 visits, ?_⟩
        rw [List.length_cons, List.length_cons]
        omega

end

/-- A packet visits exactly the nodes of its route, in their order, and ends at the last of them
with the payload, exactly if no node after the first has the address that marks the last hop. -/
theorem onion_delivered_iff (commutes : DhCommutes p) (aead : AeadOpens p) (reads : ReadsBack serde)
    (relays : List Relay) (distinct : (relays.map Relay.address).Nodup) (first : Relay)
    (rest : List Relay) (known : ∀ relay ∈ first :: rest, relay ∈ relays)
    (draws : Nat → ByteArr 32 × ByteArr 24) (payload packet : Bytes)
    (wrapped : wrapOnion (onionOps p serde) draws payload ((first :: rest).map (Relay.node p)) =
      .ok packet) :
    (∀ visited out, Visits p serde relays first packet visited out ↔
        visited = first :: rest ∧ out = payload) ↔
      ∀ relay ∈ rest, relay.address ≠ "FINAL" := by
  have lawful := lawful_onionOps commutes aead reads
  have some : (first :: rest).map (Relay.node p) ≠ [] := List.cons_ne_nil _ _
  rw [wrapOnion_eq draws payload some] at wrapped
  rw [List.forall_mem_cons] at known
  constructor
  · intro delivered relay member final
    obtain ⟨visited, out, visits, shorter⟩ :=
      visits_short lawful known.2 ⟨relay, member, final⟩ wrapped
    obtain ⟨rfl, -⟩ := (delivered visited out).mp visits
    omega
  · intro ordinary visited out
    exact visits_wrapFrom lawful distinct known.2 ordinary wrapped

theorem sample_readsBack : ReadsBack .sample :=
  fun layer => SerdeJson.sample_fromSlice layer.toJson

def relayOne : Relay := ⟨"relay1:9001", .replicate 32 1⟩

def relayTwo : Relay := ⟨"relay2:9002", .replicate 32 2⟩

/-- A relay with the reserved address. -/
def relayFinal : Relay := ⟨"FINAL", .replicate 32 2⟩

/-- For the node at each index the same ephemeral secret and nonce. -/
def sampleDraws (_ : Nat) : ByteArr 32 × ByteArr 24 := (.replicate 32 3, .replicate 24 0)

theorem onion_delivered : ∃ packet,
    wrapOnion (onionOps .sample .sample) sampleDraws [7]
    ([relayOne, relayTwo].map (Relay.node .sample)) =
        .ok packet ∧
      Visits .sample .sample [relayOne, relayTwo] relayOne packet [relayOne, relayTwo] [7] := by
  obtain ⟨packet, wrapped⟩ : ∃ packet, wrapOnion (onionOps .sample .sample) sampleDraws [7]
      ([relayOne, relayTwo].map (Relay.node .sample)) = .ok packet := ⟨_, rfl⟩
  refine ⟨packet, wrapped, ?_⟩
  have delivered :=
    (onion_delivered_iff .sample .sample Primitives.sample_commutes Primitives.sample_aead
    sample_readsBack [relayOne, relayTwo] (by decide) relayOne [relayTwo]
    (by decide) sampleDraws [7]
    packet wrapped).mpr (by decide)
  exact (delivered _ _).mpr ⟨rfl, rfl⟩

/-- The packet ends before the relay with the reserved address. -/
theorem onion_stops_early : ∃ packet visited out,
    wrapOnion (onionOps .sample .sample) sampleDraws [7]
    ([relayOne, relayFinal].map (Relay.node .sample)) =
        .ok packet ∧ ([relayOne, relayFinal].map Relay.address).Nodup ∧
      Visits .sample .sample [relayOne, relayFinal] relayOne packet visited out ∧
      visited ≠ [relayOne, relayFinal] := by
  obtain ⟨packet, wrapped⟩ : ∃ packet, wrapOnion (onionOps .sample .sample) sampleDraws [7]
      ([relayOne, relayFinal].map (Relay.node .sample)) = .ok packet := ⟨_, rfl⟩
  have lawful : Lawful (onionOps .sample .sample) List.Vector.toList :=
    lawful_onionOps Primitives.sample_commutes Primitives.sample_aead sample_readsBack
  have nested := wrapped
  rw [wrapOnion_eq sampleDraws [7] (by decide)] at nested
  obtain ⟨visited, out, visits, shorter⟩ :=
    @visits_short _ _ [relayOne, relayFinal] [relayFinal] relayOne
    packet [7] sampleDraws 0 lawful (by decide) ⟨relayFinal, by decide, rfl⟩ nested
  refine ⟨packet, visited, out, wrapped, by decide, visits, ?_⟩
  rintro rfl
  exact Nat.lt_irrefl _ shorter

end Hysj.Crypto.Onion
