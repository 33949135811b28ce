import Mathlib.Data.Set.Basic
import Mathlib.Data.Sym.Sym2
import Hysj.Crypto.Onion

set_option autoImplicit false

/- Onion packets as terms, with ideal primitives, and what a coalition of relays can derive. -/
namespace Hysj.Symbolic.Onion

open Crypto Crypto.Onion

/-- A private key: that of a node, the one drawn for the node at an index, or the adversary's. -/
inductive PrivateKey where
  | node (n : Nat)
  | ephemeral (i : Nat)
  | adversary (n : Nat)
  deriving DecidableEq

/-- Values of the onion functions. `blank n` is a value of the adversary's choice. -/
inductive Term where
  | text (s : String)
  | data (n : Nat)
  | blank (n : Nat)
  | secret (key : PrivateKey)
  | pub (key : PrivateKey)
  | dh (keys : Sym2 PrivateKey)
  | rawPub (x : Term)
  | rawDh (x y : Term)
  | layerKey (d : Term)
  | layer (nextHop payload : Term)
  | aead (key : Term) (nonce : Nat) (msg : Term)
  | packet (ephemeralPublic encryptedLayer : Term)
  deriving DecidableEq

def publicKey : Term → Term
  | .secret key => .pub key
  | other => .rawPub other

/-- The secret of two key pairs does not depend on who computes it. Values that are no keys give a
term of their own. -/
def diffieHellman : Term → Term → Term
  | .secret key, .pub key' => .dh s(key, key')
  | x, y => .rawDh x y

/-- The primitives on terms: JSON is a pair, and a ciphertext opens under its own key only. -/
def symbolicOps : OnionOps Term Term Nat where
  length _ := 32
  toKey := some
  publicKey := publicKey
  diffieHellman := diffieHellman
  layerKey := .layerKey
  layerToVec layer := .layer (.text layer.nextHop) layer.payload
  layerFromSlice layerBytes :=
    match layerBytes with
    | .layer (.text nextHop) payload => .ok ⟨nextHop, payload⟩
    | _ => .error "expected value"
  cipherEncrypt nonce layerBytes key := .ok (.aead key nonce layerBytes)
  cipherDecrypt encryptedLayer key :=
    match encryptedLayer with
    | .aead key' _ layerBytes =>
        if key' = key then .ok layerBytes else .error (.decryptionFailed "aead::Error")
    | _ => .error (.decryptionFailed "aead::Error")
  join := .packet
  splitAt packet :=
    match packet with
    | .packet ephemeralPublic encryptedLayer => some (ephemeralPublic, encryptedLayer)
    | _ => none

/-- What the adversary can compute from `known`: every primitive forward, the parts of a packet and
of a layer, and decryption with the key. -/
inductive Derivable (known : Set Term) : Term → Prop where
  | known {t : Term} (member : t ∈ known) : Derivable known t
  | final : Derivable known (.text "FINAL")
  | blank (n : Nat) : Derivable known (.blank n)
  | own (n : Nat) : Derivable known (.secret (.adversary n))
  | pub {key : PrivateKey} : Derivable known (.secret key) → Derivable known (.pub key)
  | dh {key key' : PrivateKey} : Derivable known (.secret key) → Derivable known (.pub key') →
      Derivable known (.dh s(key, key'))
  | rawPub {x : Term} : Derivable known x → Derivable known (.rawPub x)
  | rawDh {x y : Term} : Derivable known x → Derivable known y → Derivable known (.rawDh x y)
  | layerKey {d : Term} : Derivable known d → Derivable known (.layerKey d)
  | layer {nextHop payload : Term} : Derivable known nextHop → Derivable known payload →
      Derivable known (.layer nextHop payload)
  | nextHop {nextHop payload : Term} : Derivable known (.layer nextHop payload) →
      Derivable known nextHop
  | payload {nextHop payload : Term} : Derivable known (.layer nextHop payload) →
      Derivable known payload
  | packet {ephemeralPublic encryptedLayer : Term} : Derivable known ephemeralPublic →
      Derivable known encryptedLayer → Derivable known (.packet ephemeralPublic encryptedLayer)
  | ephemeralPublic {ephemeralPublic encryptedLayer : Term} :
      Derivable known (.packet ephemeralPublic encryptedLayer) → Derivable known ephemeralPublic
  | encryptedLayer {ephemeralPublic encryptedLayer : Term} :
      Derivable known (.packet ephemeralPublic encryptedLayer) → Derivable known encryptedLayer
  | encrypt {key msg : Term} (nonce : Nat) : Derivable known key → Derivable known msg →
      Derivable known (.aead key nonce msg)
  | decrypt {key msg : Term} {nonce : Nat} : Derivable known (.aead key nonce msg) →
      Derivable known key → Derivable known msg

/-- A node of the network and the number of its key. -/
structure Relay where
  address : String
  key : Nat
  deriving DecidableEq

def Relay.node (relay : Relay) : RelayNode Term := ⟨relay.address, .pub (.node relay.key)⟩

/-- Fresh ephemeral keys, and any nonces. -/
def draws (nonces : Nat → Nat) (i : Nat) : Term × Nat := (.secret (.ephemeral i), nonces i)

/-- The private keys of the coalition, and the public keys of all nodes. -/
def coalition (C : Set Nat) : Set Term :=
  {t | (∃ n ∈ C, t = .secret (.node n)) ∨ ∃ n, t = .pub (.node n)}

/-- What a coalition is meant to learn of a packet: the ephemeral public keys and some addresses. -/
def told (C : Set Nat) (addresses : List String) : Set Term :=
  coalition C ∪ {t | (∃ i, t = .pub (.ephemeral i)) ∨ ∃ s ∈ addresses, t = .text s}

/-- The key of the layer at an index, for the node with the key of this number. -/
def layerKeyOf (i n : Nat) : Term := .layerKey (.dh s(.ephemeral i, .node n))

/-- The ciphertext of the layer at an index. -/
def sealed (nonces : Nat → Nat) (i n : Nat) (hop : String) (inner : Term) : Term :=
  .aead (layerKeyOf i n) (nonces i) (.layer (.text hop) inner)

section

variable {C : Set Nat} {known base : Set Term}
    {c t payload packet inner : Term} {nonces : Nat → Nat}
variable {relay target : Relay} {before after rest : List Relay} {i j m n : Nat}

theorem wrapFrom_cons (wrapped : wrapFrom symbolicOps (draws nonces) payload
    ((relay :: rest).map Relay.node) i = .ok packet) :
    ∃ inner, wrapFrom symbolicOps (draws nonces) payload (rest.map Relay.node) (i + 1) = .ok inner ∧
      packet = .packet (.pub (.ephemeral i))
        (sealed nonces i relay.key (hopTo (rest.map Relay.node)) inner) := by
  rw [List.map_cons, wrapFrom, Result.bind_eq_ok] at wrapped
  obtain ⟨inner, later, made⟩ := wrapped
  exact ⟨inner, later, (Except.ok.inj made).symm⟩

theorem Derivable.hop {hop : String} (packet : Derivable known (.packet (.pub (.ephemeral i))
    (sealed nonces i n hop inner))) (own : Derivable known (.secret (.node n))) :
    Derivable known (.text hop) := by
  have shared := Derivable.dh own packet.ephemeralPublic
  rw [Sym2.eq_swap] at shared
  have layer := Derivable.decrypt packet.encryptedLayer (.layerKey shared)
  exact layer.nextHop

/-- The coalition has the private key. -/
def Held (C : Set Nat) : PrivateKey → Prop
  | .node n => n ∈ C
  | .ephemeral _ => False
  | .adversary _ => True

/-- An upper bound of what the coalition can derive: of a ciphertext it can open, the message. -/
def Opens (C : Set Nat) : Term → Prop
  | .secret key => Held C key
  | .dh keys => ∃ key ∈ keys, Held C key
  | .layerKey d => Opens C d
  | .layer nextHop payload => Opens C nextHop ∧ Opens C payload
  | .packet ephemeralPublic encryptedLayer => Opens C ephemeralPublic ∧ Opens C encryptedLayer
  | .aead key _ msg => Opens C key → Opens C msg
  | _ => True

theorem Derivable.opens (start : ∀ t ∈ known, Opens C t) (derivable : Derivable known t) :
    Opens C t := by
  induction derivable with
  | known member => exact start _ member
  | final => trivial
  | blank n => trivial
  | own n => trivial
  | pub _ _ => trivial
  | @dh key key' _ _ ih _ => exact ⟨key, Sym2.mem_mk_left key key', ih⟩
  | rawPub _ _ => trivial
  | rawDh _ _ _ _ => trivial
  | layerKey _ ih => exact ih
  | layer _ _ ihn ihp => exact ⟨ihn, ihp⟩
  | nextHop _ ih => exact ih.1
  | payload _ ih => exact ih.2
  | packet _ _ ihe ihl => exact ⟨ihe, ihl⟩
  | ephemeralPublic _ ih => exact ih.1
  | encryptedLayer _ ih => exact ih.2
  | encrypt _ _ _ _ ihm => exact fun _ => ihm
  | decrypt _ _ ihc ihk => exact ihc ihk

theorem opens_coalition (member : t ∈ coalition C) : Opens C t := by
  rcases member with ⟨n, held, rfl⟩ | ⟨n, rfl⟩
  · exact held
  · trivial

theorem opens_layerKeyOf : Opens C (layerKeyOf i n) ↔ n ∈ C := by
  constructor
  · rintro ⟨key, member, held⟩
    rcases Sym2.mem_iff.mp member with rfl | rfl
    · exact held.elim
    · exact held
  · exact fun held => ⟨.node n, Sym2.mem_mk_right _ _, held⟩

theorem layerKeyOf_inj (same : layerKeyOf i n = layerKeyOf j m) : i = j := by
  injection same with same
  injection same with same
  rcases Sym2.eq_iff.mp same with ⟨first, -⟩ | ⟨other, -⟩
  · exact PrivateKey.ephemeral.inj first
  · cases other

/-- No layer inside one that the coalition cannot open adds to what it can derive. -/
theorem opens_wrapFrom (apart : target.key ∉ C)
    (wrapped : wrapFrom symbolicOps (draws nonces) payload
    ((before ++ target :: after).map Relay.node) i = .ok packet) : Opens C packet := by
  induction before generalizing i packet with
  | nil =>
      obtain ⟨inner, -, rfl⟩ := wrapFrom_cons wrapped
      exact ⟨trivial, fun open_ => (apart (opens_layerKeyOf.mp open_)).elim⟩
  | cons relay before ih =>
      obtain ⟨inner, later, rfl⟩ := wrapFrom_cons wrapped
      exact ⟨trivial, fun _ => ⟨trivial, ih later⟩⟩

/-- The term, with a value of the adversary's choice for a ciphertext. -/
def redact (c : Term) : Term → Term
  | .aead key nonce msg =>
      if .aead key nonce msg = c then .blank 0 else .aead (redact c key) nonce (redact c msg)
  | .rawPub x => .rawPub (redact c x)
  | .rawDh x y => .rawDh (redact c x) (redact c y)
  | .layerKey d => .layerKey (redact c d)
  | .layer nextHop payload => .layer (redact c nextHop) (redact c payload)
  | .packet ephemeralPublic encryptedLayer =>
      .packet (redact c ephemeralPublic) (redact c encryptedLayer)
  | other => other

theorem redact_of_sizeOf_lt (smaller : sizeOf t < sizeOf c) : redact c t = t := by
  induction t with
  | aead key nonce msg ihk ihm =>
      have different : Term.aead key nonce msg ≠ c := by
        rintro rfl
        exact Nat.lt_irrefl _ smaller
      simp only [Term.aead.sizeOf_spec] at smaller
      rw [redact, if_neg different, ihk (by omega), ihm (by omega)]
  | rawPub x ih =>
      simp only [Term.rawPub.sizeOf_spec] at smaller
      rw [redact, ih (by omega)]
  | rawDh x y ihx ihy =>
      simp only [Term.rawDh.sizeOf_spec] at smaller
      rw [redact, ihx (by omega), ihy (by omega)]
  | layerKey d ih =>
      simp only [Term.layerKey.sizeOf_spec] at smaller
      rw [redact, ih (by omega)]
  | layer nextHop payload ihn ihp =>
      simp only [Term.layer.sizeOf_spec] at smaller
      rw [redact, ihn (by omega), ihp (by omega)]
  | packet ephemeralPublic encryptedLayer ihe ihl =>
      simp only [Term.packet.sizeOf_spec] at smaller
      rw [redact, ihe (by omega), ihl (by omega)]
  | _ => rfl

/-- Whoever cannot open the ciphertext derives the same with another value in its place. -/
theorem Derivable.redacted (start : ∀ t ∈ known, Derivable base (redact c t))
    (closed : ∀ key nonce msg, .aead key nonce msg = c → ¬ Derivable known key)
    (derivable : Derivable known t) : Derivable base (redact c t) := by
  induction derivable with
  | known member => exact start _ member
  | final => exact .final
  | blank n => exact .blank n
  | own n => exact .own n
  | pub _ ih => exact .pub ih
  | dh _ _ ihs ihp => exact .dh ihs ihp
  | rawPub _ ih => exact .rawPub ih
  | rawDh _ _ ihx ihy => exact .rawDh ihx ihy
  | layerKey _ ih => exact .layerKey ih
  | layer _ _ ihn ihp => exact .layer ihn ihp
  | nextHop _ ih => exact .nextHop ih
  | payload _ ih => exact .payload ih
  | packet _ _ ihe ihl => exact .packet ihe ihl
  | ephemeralPublic _ ih => exact .ephemeralPublic ih
  | encryptedLayer _ ih => exact .encryptedLayer ih
  | @encrypt key msg nonce _ _ ihk ihm =>
      rw [redact]
      split
      · exact .blank 0
      · exact .encrypt nonce ihk ihm
  | @decrypt key msg nonce _ opened ihc ihk =>
      have different : Term.aead key nonce msg ≠ c := fun same => closed key nonce msg same opened
      rw [redact, if_neg different] at ihc
      exact .decrypt ihc ihk

theorem sizeOf_wrapFrom (wrapped : wrapFrom symbolicOps (draws nonces) payload
    (rest.map Relay.node) i = .ok packet) : sizeOf payload ≤ sizeOf packet := by
  induction rest generalizing i packet with
  | nil =>
      cases wrapped
      exact Nat.le_refl _
  | cons relay rest ih =>
      obtain ⟨inner, later, rfl⟩ := wrapFrom_cons wrapped
      have least := ih later
      simp only [sealed, Term.packet.sizeOf_spec, Term.aead.sizeOf_spec, Term.layer.sizeOf_spec]
      omega

theorem redact_of_coalition (member : t ∈ coalition C) : redact c t = t := by
  rcases member with ⟨n, -, rfl⟩ | ⟨n, rfl⟩
  · rfl
  · rfl

theorem redact_self {hop : String} :
    redact (sealed nonces i n hop inner) (sealed nonces i n hop inner) = .blank 0 := if_pos rfl

theorem redact_sealed {hop : String} (other : sealed nonces i n hop inner ≠ c) :
    redact c (sealed nonces i n hop inner) = sealed nonces i n hop (redact c inner) := if_neg other

theorem sealed_ne {hop hop' : String} {inner inner' : Term} (other : i ≠ j) :
    sealed nonces i n hop inner ≠ sealed nonces j m hop' inner' := by
  intro same
  injection same with keys
  exact other (layerKeyOf_inj keys)

theorem derivable_ephemeral {addresses : List String} :
    Derivable (told C addresses) (.pub (.ephemeral i)) :=
  .known (Or.inr (Or.inl ⟨i, rfl⟩))

theorem derivable_layerKeyOf {addresses : List String} (held : n ∈ C) :
    Derivable (told C addresses) (layerKeyOf i n) := by
  have own : Derivable (told C addresses) (.secret (.node n)) :=
    .known (Or.inl (Or.inl ⟨n, held, rfl⟩))
  have shared := Derivable.dh own (derivable_ephemeral (i := i))
  rw [Sym2.eq_swap] at shared
  exact .layerKey shared

/-- The coalition makes up its part of the packet from what it is told. -/
theorem redact_wrapFrom {addresses : List String} (held : ∀ relay ∈ before, relay.key ∈ C)
    (hops : ∀ relay ∈ (before ++ [target]).tail, relay.address ∈ addresses)
    (wrapped : wrapFrom symbolicOps (draws nonces) payload
      ((before ++ target :: after).map Relay.node) i = .ok packet) :
    ∃ inner, wrapFrom symbolicOps (draws nonces) payload (after.map Relay.node)
        (i + before.length + 1) = .ok inner ∧
      Derivable (told C addresses) (redact (sealed nonces (i + before.length) target.key
        (hopTo (after.map Relay.node)) inner) packet) := by
  induction before generalizing i packet with
  | nil =>
      obtain ⟨inner, later, rfl⟩ := wrapFrom_cons wrapped
      refine ⟨inner, later, ?_⟩
      apply Derivable.packet derivable_ephemeral
      rw [List.length_nil, Nat.add_zero, redact_self]
      exact .blank 0
  | cons relay before ih =>
      obtain ⟨outer, later, rfl⟩ := wrapFrom_cons wrapped
      rw [List.forall_mem_cons] at held
      rw [List.cons_append, List.tail_cons] at hops
      have inside : ∀ relay ∈ (before ++ [target]).tail, relay.address ∈ addresses :=
        fun relay member => hops relay (List.mem_of_mem_tail member)
      obtain ⟨inner, deeper, derivable⟩ := ih held.2 inside later
      have index : i + 1 + before.length = i + (relay :: before).length := by
        rw [List.length_cons]
        omega
      rw [index] at deeper derivable
      refine ⟨inner, deeper, ?_⟩
      have next : Derivable (told C addresses)
          (.text (hopTo ((before ++ target :: after).map Relay.node))) := by
        refine .known (Or.inr (Or.inr ⟨_, ?_, rfl⟩))
        cases before with
        | nil => exact hops target List.mem_cons_self
        | cons following before => exact hops following List.mem_cons_self
      have other : i ≠ i + (relay :: before).length := by
        rw [List.length_cons]
        omega
      rw [redact]
      apply Derivable.packet derivable_ephemeral
      rw [redact_sealed (sealed_ne other)]
      exact .encrypt _ (derivable_layerKeyOf held.1) (.layer next derivable)

/-- An upper bound of the texts in what can be derived from the addresses that are told. No data
comes from them. -/
def Names (addresses : List String) : Term → Prop
  | .text s => s = "FINAL" ∨ s ∈ addresses
  | .data _ => False
  | .layer nextHop payload => Names addresses nextHop ∧ Names addresses payload
  | .packet ephemeralPublic encryptedLayer =>
      Names addresses ephemeralPublic ∧ Names addresses encryptedLayer
  | .aead _ _ msg => Names addresses msg
  | _ => True

theorem Derivable.names {addresses : List String} (derivable : Derivable (told C addresses) t) :
    Names addresses t := by
  induction derivable with
  | known member =>
      rcases member with (⟨n, -, rfl⟩ | ⟨n, rfl⟩) | ⟨i, rfl⟩ | ⟨s, listed, rfl⟩
      · trivial
      · trivial
      · trivial
      · exact Or.inr listed
  | final => exact Or.inl rfl
  | layer _ _ ihn ihp => exact ⟨ihn, ihp⟩
  | nextHop _ ih => exact ih.1
  | payload _ ih => exact ih.2
  | packet _ _ ihe ihl => exact ⟨ihe, ihl⟩
  | ephemeralPublic _ ih => exact ih.1
  | encryptedLayer _ ih => exact ih.2
  | encrypt _ _ _ _ ihm => exact ihm
  | decrypt _ _ ihc _ => exact ihc
  | _ => trivial

end

/-- A coalition without the key of the target, the first such node of a route, derives from the
packet no address of a later node that is not one of those up to the target, and of the payload only
what it can derive from those addresses and public keys. -/
theorem onion_secrecy (C : Set Nat) (before after : List Relay) (target : Relay)
    (held : ∀ relay ∈ before, relay.key ∈ C) (apart : target.key ∉ C) (nonces : Nat → Nat)
    (payload packet : Term) (wrapped : wrapOnion symbolicOps (draws nonces) payload
      ((before ++ target :: after).map Relay.node) = .ok packet) :
    (Derivable (insert packet (coalition C)) payload →
      Derivable (told C ((before ++ [target]).tail.map Relay.address)) payload) ∧
    ∀ relay ∈ after, Derivable (insert packet (coalition C)) (.text relay.address) →
      relay.address = "FINAL" ∨ relay.address ∈ (before ++ [target]).tail.map Relay.address := by
  have some : (before ++ target :: after).map Relay.node ≠ [] := by simp
  rw [wrapOnion_eq (draws nonces) payload some] at wrapped
  obtain ⟨inner, later, made⟩ :=
    redact_wrapFrom held (fun relay member => List.mem_map_of_mem member)
    wrapped
  have opens : ∀ t ∈ insert packet (coalition C), Opens C t := by
    rintro t (rfl | member)
    · exact opens_wrapFrom apart wrapped
    · exact opens_coalition member
  -- with another value in place of the closed layer, the packet is one of the coalition's making
  have simulated {t : Term} (derivable : Derivable (insert packet (coalition C)) t) :
      Derivable (told C ((before ++ [target]).tail.map Relay.address)) (redact (sealed nonces
        (0 + before.length) target.key (hopTo (after.map Relay.node)) inner) t) := by
    apply derivable.redacted
    · rintro t (rfl | member)
      · exact made
      · rw [redact_of_coalition member]
        exact .known (Or.inl member)
    · intro key nonce msg same derivesKey
      injection same with isKey
      rw [isKey] at derivesKey
      exact apart (opens_layerKeyOf.mp (derivesKey.opens opens))
  constructor
  · intro derivable
    have small : sizeOf payload < sizeOf (sealed nonces (0 + before.length) target.key
        (hopTo (after.map Relay.node)) inner) := by
      have least := sizeOf_wrapFrom later
      simp only [sealed, Term.aead.sizeOf_spec, Term.layer.sizeOf_spec]
      omega
    have result := simulated derivable
    rw [redact_of_sizeOf_lt small] at result
    exact result
  · intro relay _ derivable
    exact (simulated derivable).names

def relayOne : Relay := ⟨"relay1:9001", 1⟩

def relayTwo : Relay := ⟨"relay2:9002", 2⟩

def relayThree : Relay := ⟨"relay3:9003", 3⟩

/-- The first of three relays cannot tell the third, nor the data. -/
theorem onion_secret : ∃ packet,
    wrapOnion symbolicOps (draws id) (.data 0) ([relayOne, relayTwo, relayThree].map Relay.node) =
        .ok packet ∧
      ¬ Derivable (insert packet (coalition {1})) (.data 0) ∧
      ¬ Derivable (insert packet (coalition {1})) (.text relayThree.address) := by
  obtain ⟨packet, wrapped⟩ : ∃ packet, wrapOnion symbolicOps (draws id) (.data 0)
      ([relayOne, relayTwo, relayThree].map Relay.node) = .ok packet := ⟨_, rfl⟩
  have secrecy := onion_secrecy {1} [relayOne] [relayThree] relayTwo (by simp [relayOne])
    (by simp [relayTwo]) id (.data 0) packet wrapped
  refine ⟨packet, wrapped, ?_, ?_⟩
  · intro derivable
    exact (secrecy.1 derivable).names
  · intro derivable
    have named := secrecy.2 relayThree (List.mem_singleton_self _) derivable
    revert named
    decide

/-- The third relay has the address of the second, which is the payload, too. -/
theorem onion_reveals : ∃ packet,
    wrapOnion symbolicOps (draws id) (.text relayTwo.address)
        ([relayOne, relayTwo, ⟨relayTwo.address, 3⟩].map Relay.node) = .ok packet ∧
      relayOne.key ∈ ({1} : Set Nat) ∧ relayTwo.key ∉ ({1} : Set Nat) ∧
      Derivable (insert packet (coalition {1})) (.text relayTwo.address) := by
  obtain ⟨packet, wrapped⟩ : ∃ packet, wrapOnion symbolicOps (draws id) (.text relayTwo.address)
      ([relayOne, relayTwo, ⟨relayTwo.address, 3⟩].map Relay.node) = .ok packet := ⟨_, rfl⟩
  refine ⟨packet, wrapped, rfl, by simp [relayTwo], ?_⟩
  rw [wrapOnion_eq (draws id) _ (by simp)] at wrapped
  obtain ⟨inner, -, rfl⟩ := wrapFrom_cons wrapped
  have own (t : Term) : Derivable (insert t (coalition {1})) (.secret (.node relayOne.key)) :=
    .known (Or.inr (Or.inl ⟨1, rfl, rfl⟩))
  exact (Derivable.known (Set.mem_insert _ _)).hop (own _)

end Hysj.Symbolic.Onion
