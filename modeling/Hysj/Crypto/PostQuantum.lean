import Hysj.Crypto.Primitives

set_option autoImplicit false

namespace Hysj.Crypto

/-- `MlKem768` on its encodings. A `seed` and `coins` are the draws from `OsRng`; `none`
is the error `()`. -/
structure MlKem768 where
  /-- the decapsulation and the encapsulation key -/
  generate : (seed : ByteArr 64) → ByteArr 2400 × ByteArr 1184
  encapsulate : ByteArr 1184 → (coins : ByteArr 32) → Option (ByteArr 1088 × ByteArr 32)
  decapsulate : ByteArr 2400 → ByteArr 1088 → Option (ByteArr 32)

namespace PostQuantum

variable (kem : MlKem768)

/-- `(ciphertext, shared_secret)` -/
def kyberEncapsulate (coins : ByteArr 32) (publicKey : Bytes) :
    Except CryptoError (Bytes × Bytes) :=
  match tryInto 1184 publicKey with
  | none => .error (.postQuantumError s!"invalid public key length: got {publicKey.length}")
  | some ek =>
      match kem.encapsulate ek coins with
      | none => .error (.postQuantumError "encapsulation failed: ()")
      | some (ct, ss) => .ok (ct.toList, ss.toList)

def kyberDecapsulate (ciphertext secretKey : Bytes) : Except CryptoError Bytes :=
  match tryInto 2400 secretKey with
  | none => .error (.postQuantumError s!"invalid secret key length: got {secretKey.length}")
  | some dk =>
      match tryInto 1088 ciphertext with
      | none => .error (.postQuantumError s!"invalid ciphertext length: got {ciphertext.length}")
      | some ct =>
          match kem.decapsulate dk ct with
          | none => .error (.postQuantumError "decapsulation failed: ()")
          | some ss => .ok ss.toList

end PostQuantum

namespace MlKem768

variable (kem : MlKem768)

/-- The two keys were generated together. -/
def KeyPair (secretKey publicKey : Bytes) : Prop :=
  ∃ seed, secretKey = (kem.generate seed).1.toList ∧ publicKey = (kem.generate seed).2.toList

/-- The secret of a ciphertext comes out under the key of its pair, and under no other. -/
structure Binding : Prop where
  opens : ∀ seed coins ct ss, kem.encapsulate (kem.generate seed).2 coins = some (ct, ss) →
    kem.decapsulate (kem.generate seed).1 ct = some ss
  rejects : ∀ dk ek coins ct ss, kem.encapsulate ek coins = some (ct, ss) →
    ¬ kem.KeyPair dk.toList ek.toList → kem.decapsulate dk ct ≠ some ss

end MlKem768

namespace PostQuantum

variable {kem : MlKem768}

theorem kyberEncapsulate_eq_ok {coins : ByteArr 32} {publicKey ciphertext sharedSecret : Bytes} :
    kyberEncapsulate kem coins publicKey = .ok (ciphertext, sharedSecret) ↔
      ∃ ek ct ss, publicKey = ek.toList ∧ kem.encapsulate ek coins = some (ct, ss) ∧
        ciphertext = ct.toList ∧ sharedSecret = ss.toList := by
  constructor
  · intro done
    unfold kyberEncapsulate at done
    split at done
    · cases done
    · rename_i ek encoded
      split at done
      · cases done
      · rename_i ct ss encapsulated
        cases done
        exact ⟨ek, ct, ss, tryInto_eq_some.mp encoded, encapsulated, rfl, rfl⟩
  · rintro ⟨ek, ct, ss, rfl, encapsulated, rfl, rfl⟩
    simp only [kyberEncapsulate, tryInto_toList, encapsulated]

theorem kyberDecapsulate_eq_ok {ciphertext secretKey sharedSecret : Bytes} :
    kyberDecapsulate kem ciphertext secretKey = .ok sharedSecret ↔
      ∃ dk ct ss, secretKey = dk.toList ∧ ciphertext = ct.toList ∧
        kem.decapsulate dk ct = some ss ∧ sharedSecret = ss.toList := by
  constructor
  · intro done
    unfold kyberDecapsulate at done
    split at done
    · cases done
    · rename_i dk encodedKey
      split at done
      · cases done
      · rename_i ct encoded
        cases decapsulated : kem.decapsulate dk ct with
        | none => simp [decapsulated] at done
        | some ss =>
            simp only [decapsulated, Except.ok.injEq] at done
            exact ⟨dk, ct, ss, tryInto_eq_some.mp encodedKey, tryInto_eq_some.mp encoded,
              decapsulated, done.symm⟩
  · rintro ⟨dk, ct, ss, rfl, rfl, decapsulated, rfl⟩
    simp only [kyberDecapsulate, tryInto_toList, decapsulated]

theorem length_of_encapsulate {coins : ByteArr 32} {publicKey ciphertext sharedSecret : Bytes}
    (encapsulated : kyberEncapsulate kem coins publicKey = .ok (ciphertext, sharedSecret)) :
    sharedSecret.length = 32 := by
  obtain ⟨-, -, ss, -, -, -, rfl⟩ := kyberEncapsulate_eq_ok.mp encapsulated
  exact ss.toList_length

theorem length_of_decapsulate {ciphertext secretKey sharedSecret : Bytes}
    (decapsulated : kyberDecapsulate kem ciphertext secretKey = .ok sharedSecret) :
    sharedSecret.length = 32 := by
  obtain ⟨-, -, ss, -, -, -, rfl⟩ := kyberDecapsulate_eq_ok.mp decapsulated
  exact ss.toList_length

/-- What was encapsulated comes out under the key of the pair, and under no other. -/
theorem kyberDecapsulate_iff (binding : kem.Binding) {coins : ByteArr 32}
    {publicKey ciphertext sharedSecret : Bytes}
    (encapsulated : kyberEncapsulate kem coins publicKey = .ok (ciphertext, sharedSecret))
    (secretKey : Bytes) :
    kyberDecapsulate kem ciphertext secretKey = .ok sharedSecret ↔
      kem.KeyPair secretKey publicKey := by
  obtain ⟨ek, ct, ss, rfl, made, rfl, rfl⟩ := kyberEncapsulate_eq_ok.mp encapsulated
  rw [kyberDecapsulate_eq_ok]
  constructor
  · rintro ⟨dk, ct', ss', rfl, sameText, opened, same⟩
    obtain rfl := Subtype.ext sameText
    obtain rfl := Subtype.ext same
    by_contra unpaired
    exact binding.rejects dk ek coins ct ss made unpaired opened
  · rintro ⟨seed, rfl, own⟩
    obtain rfl := Subtype.ext own
    exact ⟨_, ct, ss, rfl, rfl, binding.opens seed coins ct ss made, rfl⟩

end PostQuantum

namespace MlKem768

/-- The first `n` bytes of a longer array. -/
def front {m : Nat} (n : Nat) (short : n ≤ m) (array : ByteArr m) : ByteArr n :=
  .ofFn fun i => array.get (i.castLE short)

/-- A short array filled up with zeros. -/
def pad {n : Nat} (m : Nat) (array : ByteArr n) : ByteArr m :=
  .ofFn fun i => if inside : i.val < n then array.get ⟨i, inside⟩ else 0

/-- A stand-in whose laws hold: a key is its seed, a ciphertext shows everything. A wrong
key yields a different secret, as with implicit rejection. -/
def sample : MlKem768 where
  generate seed := (pad 2400 seed, pad 1184 seed)
  encapsulate ek coins :=
    if ek = pad 1184 (front 64 (by decide) ek) then
      some (.ofFn fun i => if inside : i.val < 32 then coins.get ⟨i, inside⟩
        else ek.get ⟨i.val - 32, by omega⟩, coins)
    else none
  decapsulate dk ct :=
    let coins : ByteArr 32 := front 32 (by decide) ct
    let seed : ByteArr 64 := .ofFn fun i => ct.get ⟨i.val + 32, by omega⟩
    some (if dk = pad 2400 seed then coins else coins.map (· + 1))

theorem front_pad {n m : Nat} (fits : n ≤ m) (array : ByteArr n) :
    front n fits (pad m array) = array := by
  apply List.Vector.ext
  intro i
  simp [front, pad]

theorem sample_encapsulate {ek : ByteArr 1184} {coins ss : ByteArr 32} {ct : ByteArr 1088}
    (made : sample.encapsulate ek coins = some (ct, ss)) :
    ss = coins ∧ ∃ seed : ByteArr 64, ek = pad 1184 seed ∧
      ∀ dk, sample.decapsulate dk ct =
        some (if dk = pad 2400 seed then coins else coins.map (· + 1)) := by
  simp only [sample] at made
  split at made
  · rename_i padded
    simp only [Option.some.injEq, Prod.mk.injEq] at made
    obtain ⟨shown, same⟩ := made
    refine ⟨same.symm, front 64 (by decide) ek, padded, ?_⟩
    intro dk
    have coinsShown : front 32 (by decide) ct = coins := by
      apply List.Vector.ext
      intro i
      simp [← shown, front]
    have seedShown : (.ofFn fun i : Fin 64 => ct.get ⟨i.val + 32, by omega⟩ : ByteArr 64) =
        front 64 (by decide) ek := by
      apply List.Vector.ext
      intro i
      have beyond : ¬ i.val + 32 < 32 := by omega
      simp only [← shown, front, List.Vector.get_ofFn, beyond, ↓reduceDIte]
      rfl
    simp only [sample, coinsShown, seedShown]
  · cases made

theorem sample_generate (seed : ByteArr 64) :
    sample.generate seed = (pad 2400 seed, pad 1184 seed) := by simp only [sample]

theorem sample_encapsulates (seed : ByteArr 64) (coins : ByteArr 32) :
    ∃ ct, sample.encapsulate (sample.generate seed).2 coins = some (ct, coins) := by
  simp only [sample, front_pad, ↓reduceIte]
  exact ⟨_, rfl⟩

theorem sample_binding : sample.Binding where
  opens seed coins ct ss made := by
    simp only [sample_generate] at made ⊢
    obtain ⟨rfl, seed', own, shown⟩ := sample_encapsulate made
    have same : seed = seed' := by
      rw [← front_pad (m := 1184) (by decide) seed, ← front_pad (m := 1184) (by decide) seed', own]
    rw [shown, same, if_pos rfl]
  rejects dk ek coins ct ss made unpaired := by
    obtain ⟨rfl, seed, own, shown⟩ := sample_encapsulate made
    have wrong : dk ≠ pad 2400 seed := by
      intro right
      apply unpaired
      exact ⟨seed, by rw [sample_generate, right], by rw [sample_generate, own]⟩
    rw [shown, if_neg wrong]
    intro same
    have first := congrArg (fun array : ByteArr 32 => (array.get 0).toNat) (Option.some.inj same)
    simp only [List.Vector.get_map, UInt8.toNat_add, UInt8.reduceToNat] at first
    omega

end MlKem768

end Hysj.Crypto
