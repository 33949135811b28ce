import Mathlib.Data.Set.Basic
import Mathlib.Tactic.DeriveEncodable
import Hysj.Ratchet.Conversation

set_option autoImplicit false

/- Messages as terms, with ideal primitives, and what an adversary can derive. -/
namespace Hysj.Symbolic

open Ratchet

deriving instance Encodable for Party

/-- Values of the ratchet. `secret p n` is the `n`-th private key of a party,
`adversary n` a private key of the adversary, and `sharedSecret` the output of the
handshake. -/
inductive Term where
  | atom (n : Nat)
  | adversary (n : Nat)
  | sharedSecret
  | secret (p : Party) (n : Nat)
  | pub (x : Term)
  | dh (x y : Term)
  | rawDh (x y : Term)
  | rootKey (rk d : Term)
  | chainKey (rk d : Term)
  | nextChain (ck : Term)
  | messageKey (ck : Term)
  | header (dhPublic : Term) (previousChainLength messageNumber : Nat)
  | aead (key : Term) (nonce : Nat) (aad msg : Term)
  deriving DecidableEq, Encodable

/-- The secret of two key pairs does not depend on who computes it. A value that is no
public key gives a term of its own. -/
def diffieHellman (x : Term) : Term → Term
  | .pub y => if Encodable.encode x ≤ Encodable.encode y then .dh x y else .dh y x
  | other => .rawDh x other

theorem diffieHellman_pub (x y : Term) :
    diffieHellman x (.pub y) =
      if Encodable.encode x ≤ Encodable.encode y then .dh x y else .dh y x := rfl

theorem diffieHellman_comm (x y : Term) : diffieHellman x (.pub y) = diffieHellman y (.pub x) := by
  rw [diffieHellman_pub, diffieHellman_pub]
  rcases Nat.lt_trichotomy (Encodable.encode x) (Encodable.encode y) with less | same | more
  · rw [if_pos (by omega), if_neg (by omega)]
  · obtain rfl := Encodable.encode_injective same
    rfl
  · rw [if_neg (by omega), if_pos (by omega)]

theorem diffieHellman_pub_cases (x y : Term) :
    diffieHellman x (.pub y) = .dh x y ∨ diffieHellman x (.pub y) = .dh y x := by
  rw [diffieHellman_pub]
  by_cases order : Encodable.encode x ≤ Encodable.encode y
  · rw [if_pos order]
    exact Or.inl rfl
  · rw [if_neg order]
    exact Or.inr rfl

/-- The ratchet's primitives on terms: hashes have no collision and no inverse, and a
ciphertext opens under its own key and associated data only. -/
def symbolicOps : Ops Term Term Nat Term where
  toVec := id
  copy32 := some
  publicKey := .pub
  diffieHellman := diffieHellman
  deriveRootKey rk d := (.rootKey rk d, .chainKey rk d)
  deriveChainKey ck := (.nextChain ck, .messageKey ck)
  hexEncode := id
  emptyString := .atom 0
  headerToBytes header :=
    .header header.dhPublic header.previousChainLength.toNat header.messageNumber.toNat
  cipherEncrypt nonce plaintext key aad := .ok (.aead key nonce aad plaintext)
  cipherDecrypt ciphertext key aad :=
    match ciphertext with
    | .aead key' _ aad' msg =>
        if key' = key ∧ aad' = aad then .ok msg else .error (.decryptionFailed "aead::Error")
    | _ => .error (.decryptionFailed "aead::Error")

theorem symbolicOps_lawful : symbolicOps.Lawful where
  copy32_toVec _ := rfl
  commutes := diffieHellman_comm
  opens nonce plaintext key aad ciphertext sealed := by
    cases sealed
    exact if_pos ⟨rfl, rfl⟩
  hexInjective := Function.injective_id

theorem headerToBytes_injective : Function.Injective symbolicOps.headerToBytes := by
  intro left right same
  cases left
  cases right
  simp only [symbolicOps, Term.header.injEq] at same
  rw [same.1, UInt32.toNat.inj same.2.1, UInt32.toNat.inj same.2.2]

theorem cipherDecrypt_eq_ok {ciphertext key aad plaintext : Term}
    (opened : symbolicOps.cipherDecrypt ciphertext key aad = .ok plaintext) :
    ∃ nonce, ciphertext = .aead key nonce aad plaintext := by
  simp only [symbolicOps] at opened
  split at opened
  · split at opened
    · rename_i nonce _ _ same
      cases opened
      exact ⟨nonce, by rw [same.1, same.2]⟩
    · cases opened
  · cases opened

/-- What the adversary can compute from `known`: every primitive forward, decryption with
the key, and the parts of a header. -/
inductive Derivable (known : Set Term) : Term → Prop where
  | known {t : Term} : t ∈ known → Derivable known t
  | atom (n : Nat) : Derivable known (.atom n)
  | adversary (n : Nat) : Derivable known (.adversary n)
  | pub {x : Term} : Derivable known x → Derivable known (.pub x)
  | dh {x y : Term} : Derivable known x → Derivable known y →
      Derivable known (diffieHellman x y)
  | rootKey {rk d : Term} : Derivable known rk → Derivable known d →
      Derivable known (.rootKey rk d)
  | chainKey {rk d : Term} : Derivable known rk → Derivable known d →
      Derivable known (.chainKey rk d)
  | nextChain {ck : Term} : Derivable known ck → Derivable known (.nextChain ck)
  | messageKey {ck : Term} : Derivable known ck → Derivable known (.messageKey ck)
  | header {dhPublic : Term} (previousChainLength messageNumber : Nat) :
      Derivable known dhPublic →
        Derivable known (.header dhPublic previousChainLength messageNumber)
  | dhPublic {dhPublic : Term} {previousChainLength messageNumber : Nat} :
      Derivable known (.header dhPublic previousChainLength messageNumber) →
        Derivable known dhPublic
  | encrypt {key aad msg : Term} (nonce : Nat) : Derivable known key → Derivable known aad →
      Derivable known msg → Derivable known (.aead key nonce aad msg)
  | decrypt {key aad msg : Term} {nonce : Nat} : Derivable known (.aead key nonce aad msg) →
      Derivable known key → Derivable known msg

theorem Derivable.mono {known more : Set Term} (subset : known ⊆ more) {t : Term}
    (derivable : Derivable known t) : Derivable more t := by
  induction derivable with
  | known member => exact .known (subset member)
  | atom n => exact .atom n
  | adversary n => exact .adversary n
  | pub _ ih => exact .pub ih
  | dh _ _ ihx ihy => exact .dh ihx ihy
  | rootKey _ _ ihr ihd => exact .rootKey ihr ihd
  | chainKey _ _ ihr ihd => exact .chainKey ihr ihd
  | nextChain _ ih => exact .nextChain ih
  | messageKey _ ih => exact .messageKey ih
  | header previous number _ ih => exact .header previous number ih
  | dhPublic _ ih => exact .dhPublic ih
  | encrypt nonce _ _ _ ihk iha ihm => exact .encrypt nonce ihk iha ihm
  | decrypt _ _ ihc ihk => exact .decrypt ihc ihk

/-- An upper bound of what can be derived once `leaked` is known, `observed` being the
ciphertexts of the honest parties. A key derivation needs both its inputs, a secret of two
key pairs one of the private keys. -/
def Exposed (leaked observed : Set Term) : Term → Prop
  | .atom _ => True
  | .adversary _ => True
  | .sharedSecret => .sharedSecret ∈ leaked
  | .secret p n => .secret p n ∈ leaked
  | .pub _ => True
  | .dh x y => Exposed leaked observed x ∨ Exposed leaked observed y
  | .rawDh _ _ => True
  | .rootKey rk d =>
      .rootKey rk d ∈ leaked ∨ (Exposed leaked observed rk ∧ Exposed leaked observed d)
  | .chainKey rk d =>
      .chainKey rk d ∈ leaked ∨ (Exposed leaked observed rk ∧ Exposed leaked observed d)
  | .nextChain ck => .nextChain ck ∈ leaked ∨ Exposed leaked observed ck
  | .messageKey ck => .messageKey ck ∈ leaked ∨ Exposed leaked observed ck
  | .header dhPublic _ _ => Exposed leaked observed dhPublic
  | .aead key nonce aad msg =>
      Exposed leaked observed msg ∧
        (.aead key nonce aad msg ∈ observed ∨
          (Exposed leaked observed key ∧ Exposed leaked observed aad))

theorem Derivable.exposed {known leaked observed : Set Term}
    (start : ∀ t ∈ known, Exposed leaked observed t) {t : Term} (derivable : Derivable known t) :
    Exposed leaked observed t := by
  induction derivable with
  | known member => exact start _ member
  | atom n => trivial
  | adversary n => trivial
  | pub _ ih => trivial
  | @dh x y _ _ ihx ihy =>
      cases y with
      | pub z =>
          rcases diffieHellman_pub_cases x z with shape | shape
          · rw [shape]
            exact Or.inl ihx
          · rw [shape]
            exact Or.inr ihx
      | _ => trivial
  | rootKey _ _ ihr ihd => exact Or.inr ⟨ihr, ihd⟩
  | chainKey _ _ ihr ihd => exact Or.inr ⟨ihr, ihd⟩
  | nextChain _ ih => exact Or.inr ih
  | messageKey _ ih => exact Or.inr ih
  | header previous number _ ih => exact ih
  | dhPublic _ ih => exact ih
  | encrypt nonce _ _ _ ihk iha ihm => exact ⟨ihm, Or.inr ⟨ihk, iha⟩⟩
  | decrypt _ _ ihc _ => exact ihc.1

theorem Exposed.mono {leaked more observed wider : Set Term} (subset : leaked ⊆ more)
    (widens : observed ⊆ wider) (t : Term) (exposed : Exposed leaked observed t) :
    Exposed more wider t := by
  induction t with
  | atom n => trivial
  | adversary n => trivial
  | sharedSecret => exact subset exposed
  | secret p n => exact subset exposed
  | pub x _ => trivial
  | dh x y ihx ihy => exact exposed.imp ihx ihy
  | rawDh x y _ _ => trivial
  | rootKey rk d ihr ihd => exact exposed.imp (fun member => subset member) (And.imp ihr ihd)
  | chainKey rk d ihr ihd => exact exposed.imp (fun member => subset member) (And.imp ihr ihd)
  | nextChain ck ih => exact exposed.imp (fun member => subset member) ih
  | messageKey ck ih => exact exposed.imp (fun member => subset member) ih
  | header dhPublic previous number ih => exact ih exposed
  | aead key nonce aad msg ihk iha ihm =>
      exact ⟨ihm exposed.1, exposed.2.imp (fun member => widens member) (And.imp ihk iha)⟩

end Hysj.Symbolic
