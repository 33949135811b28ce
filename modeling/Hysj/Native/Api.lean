import Hysj.Base.Base64
import Hysj.Ratchet.Persistence

set_option autoImplicit false

/- The ratchet functions of the native bridge: the session travels as base64 text and is
decoded, used and encoded again on every call. -/
namespace Hysj.Native

open Crypto Ratchet

variable (p : Primitives) (b64 : Base64Engine) (serde : SerdeJson)

/-- `serde_json::to_string(&header)`. -/
def headerToString (header : MessageHeader Bytes) : String :=
  String.ofList (Json.render header.toJson)

/-- `(updated_session_b64, header_json, ciphertext_b64)`; `none` is the panic of
`serialize`. -/
def ratchetEncrypt (nonce : ByteArr 24) (sessionB64 plaintextB64 : String) :
    Option (Except String (String × String × String)) :=
  match b64.decode sessionB64 with
  | .error e => some (.error e)
  | .ok sessionBytes =>
    match b64.decode plaintextB64 with
    | .error e => some (.error e)
    | .ok plaintext =>
      match RatchetState.deserialize serde sessionBytes with
      | .error e => some (.error e.display)
      | .ok session =>
        match RatchetState.encrypt (ratchetOps p) nonce session plaintext with
        | (_, .error e) => some (.error e.display)
        | (session, .ok made) =>
            session.serialize.map fun data =>
              .ok (b64.encode data, headerToString made.2, b64.encode made.1)

/-- `serde_json::from_str` at `MessageHeader`. -/
def headerFromStr (text : String) : Except String (MessageHeader Bytes) :=
  match serde.fromSlice (strBytes text) with
  | .error e => .error e
  | .ok value =>
      match MessageHeader.ofJson value with
      | none => .error (serde.mismatch (strBytes text))
      | some header => .ok header

/-- `(updated_session_b64, plaintext_b64)`; `none` is a panic of `decrypt` or
`serialize`. -/
def ratchetDecrypt (keypair : ByteArr 32) (sessionB64 headerJson ciphertextB64 : String) :
    Option (Except String (String × String)) :=
  match b64.decode sessionB64 with
  | .error e => some (.error e)
  | .ok sessionBytes =>
    match b64.decode ciphertextB64 with
    | .error e => some (.error e)
    | .ok ciphertext =>
      match RatchetState.deserialize serde sessionBytes with
      | .error e => some (.error e.display)
      | .ok session =>
        match headerFromStr serde headerJson with
        | .error e => some (.error e)
        | .ok header =>
          match RatchetState.decrypt (ratchetOps p) keypair session ciphertext header with
          | .panics => none
          | .returns _ (.error e) => some (.error e.display)
          | .returns session (.ok plaintext) =>
              session.serialize.map fun data => .ok (b64.encode data, b64.encode plaintext)

/-- The reply of the bridge beside the session. -/
inductive Reply where
  | encrypted (headerJson ciphertextB64 : String)
  | decrypted (plaintextB64 : String)

def reply : Output Bytes → Reply
  | .encrypted ciphertext header => .encrypted (headerToString header) (b64.encode ciphertext)
  | .decrypted plaintext => .decrypted (b64.encode plaintext)

/-- One call on the session through the bridge. -/
def drive (sessionB64 : String) :
    Operation Bytes (ByteArr 32) (ByteArr 24) → Option (Except String (String × Reply))
  | .encrypt nonce plaintext =>
      (ratchetEncrypt p b64 serde nonce sessionB64 (b64.encode plaintext)).map fun result =>
        result.map fun made => (made.1, .encrypted made.2.1 made.2.2)
  | .decrypt keypair ciphertext header =>
      (ratchetDecrypt p b64 serde keypair sessionB64 (headerToString header)
        (b64.encode ciphertext)).map fun result =>
          result.map fun made => (made.1, .decrypted made.2)

/-- A sequence of calls through the bridge, up to the first error or panic. -/
def driveAll (sessionB64 : String) :
    List (Operation Bytes (ByteArr 32) (ByteArr 24)) → Option (Except String (String × List Reply))
  | [] => some (.ok (sessionB64, []))
  | call :: calls =>
      match drive p b64 serde sessionB64 call with
      | none => none
      | some (.error e) => some (.error e)
      | some (.ok (session, first)) =>
          (driveAll session calls).map fun result =>
            result.map fun done => (done.1, first :: done.2)

theorem strBytes_headerToString (header : MessageHeader Bytes) :
    strBytes (headerToString header) = header.toBytes := by
  rw [strBytes, headerToString, String.toList_ofList, MessageHeader.toBytes, Json.toVec]

variable {p b64 serde}

theorem headerFromStr_headerToString (reads : ReadsBack serde) (header : MessageHeader Bytes) :
    headerFromStr serde (headerToString header) = .ok header := by
  simp only [headerFromStr, strBytes_headerToString, reads.header, MessageHeader.ofJson_toJson]

/-- Through the bridge, a stored session encrypts as it does in memory. -/
theorem ratchetEncrypt_eq_ok (inverse : b64.Inverse) {s : ByteState} {data plaintext : Bytes}
    {nonce : ByteArr 24} {plaintextB64 session headerJson ciphertextB64 : String}
    (loads : RatchetState.deserialize serde data = .ok s)
    (text : b64.decode plaintextB64 = .ok plaintext) :
    ratchetEncrypt p b64 serde nonce (b64.encode data) plaintextB64 =
        some (.ok (session, headerJson, ciphertextB64)) ↔
      ∃ left ciphertext header after,
        RatchetState.encrypt (ratchetOps p) nonce s plaintext = (left, .ok (ciphertext, header)) ∧
        left.serialize = some after ∧ session = b64.encode after ∧
        headerJson = headerToString header ∧ ciphertextB64 = b64.encode ciphertext := by
  cases made : RatchetState.encrypt (ratchetOps p) nonce s plaintext with
  | mk left result =>
      cases result with
      | error e => simp [ratchetEncrypt, inverse data, text, loads, made]
      | ok pair =>
          obtain ⟨ciphertext, header⟩ := pair
          cases written : left.serialize with
          | none => simp [ratchetEncrypt, inverse data, text, loads, made, written]
          | some after => simp [ratchetEncrypt, inverse data, text, loads, made, written, eq_comm]

/-- Through the bridge, a stored session decrypts as it does in memory. -/
theorem ratchetDecrypt_of_returns (inverse : b64.Inverse) (reads : ReadsBack serde)
    {s left : ByteState} {data after ciphertext plaintext : Bytes} {keypair : ByteArr 32}
    {header : MessageHeader Bytes} (loads : RatchetState.deserialize serde data = .ok s)
    (opened : RatchetState.decrypt (ratchetOps p) keypair s ciphertext header =
      .returns left (.ok plaintext)) (written : left.serialize = some after) :
    ratchetDecrypt p b64 serde keypair (b64.encode data) (headerToString header)
        (b64.encode ciphertext) = some (.ok (b64.encode after, b64.encode plaintext)) := by
  simp only [ratchetDecrypt, inverse data, inverse ciphertext, loads,
    headerFromStr_headerToString reads, opened, written, Option.map_some]

/-- A call that succeeds in memory succeeds through the bridge, up to the serialisation
of the state it leaves. -/
theorem drive_of_perform (inverse : b64.Inverse) (reads : ReadsBack serde) {s left : ByteState}
    {data : Bytes} {call : Operation Bytes (ByteArr 32) (ByteArr 24)} {output : Output Bytes}
    (loads : RatchetState.deserialize serde data = .ok s)
    (performed : s.perform (ratchetOps p) call = .returns left (.ok output)) :
    drive p b64 serde (b64.encode data) call =
      left.serialize.map fun data => .ok (b64.encode data, reply b64 output) := by
  cases call with
  | encrypt nonce plaintext =>
      simp only [RatchetState.perform, Call.returns.injEq] at performed
      cases made : RatchetState.encrypt (ratchetOps p) nonce s plaintext with
      | mk after result =>
          rw [made] at performed
          obtain ⟨rfl, mapped⟩ := performed
          cases result with
          | error e => cases mapped
          | ok pair =>
              cases mapped
              simp only [drive, ratchetEncrypt, inverse data, inverse plaintext, loads, made,
                Option.map_map]
              rfl
  | decrypt keypair ciphertext header =>
      simp only [RatchetState.perform] at performed
      cases made : RatchetState.decrypt (ratchetOps p) keypair s ciphertext header with
      | panics =>
          rw [made] at performed
          cases performed
      | returns after result =>
          rw [made] at performed
          obtain ⟨rfl, mapped⟩ := Call.returns.inj performed
          cases result with
          | error e => cases mapped
          | ok plaintext =>
              cases mapped
              simp only [drive, ratchetDecrypt, inverse data, inverse ciphertext, loads,
                headerFromStr_headerToString reads, made, Option.map_map]
              rfl

theorem loads_of_serialize (reads : ReadsBack serde) {s : ByteState} {data : Bytes}
    (written : s.serialize = some data) :
    s.skippedKeys.isEmpty = true ∧ RatchetState.deserialize serde data = .ok s := by
  cases empty : s.skippedKeys.isEmpty with
  | false =>
      rw [(RatchetState.serialize_none_iff s).mpr empty] at written
      cases written
  | true =>
      obtain ⟨again, same, loads⟩ := (RatchetState.deserialize_serialize_iff reads s).mpr empty
      rw [written, Option.some.injEq] at same
      rw [same]
      exact ⟨rfl, loads⟩

theorem tail_of_consed {first : Reply} {outcome : Option (Except String (String × List Reply))}
    {session : String} {replies : List Reply}
    (consed : (outcome.map fun result => result.map fun done => (done.1, first :: done.2)) =
      some (.ok (session, first :: replies))) : outcome = some (.ok (session, replies)) := by
  cases outcome with
  | none => cases consed
  | some result =>
      cases result with
      | error e => cases consed
      | ok done =>
          simp only [Option.map_some, Except.map, Option.some.injEq, Except.ok.injEq,
            Prod.mk.injEq, List.cons.injEq, true_and] at consed
          rw [← consed.1, ← consed.2]

/-- The bridge gives the results of an error-free sequence of calls exactly when no state
of it holds a skipped key: the induction follows the calls, and a state with a skipped
key panics where the bridge encodes it. -/
theorem driveAll_iff (inverse : b64.Inverse) (reads : ReadsBack serde) {s left : ByteState}
    {calls : List (Operation Bytes (ByteArr 32) (ByteArr 24))} {outputs : List (Output Bytes)}
    (errorFree : s.performAll (ratchetOps p) calls = some (left, outputs.map .ok)) :
    (∃ data after, s.serialize = some data ∧ left.serialize = some after ∧
      driveAll p b64 serde (b64.encode data) calls =
        some (.ok (b64.encode after, outputs.map (reply b64)))) ↔
    RatchetState.EachState (ratchetOps p) (fun s => s.skippedKeys.isEmpty = true) s calls := by
  induction calls generalizing s outputs with
  | nil =>
      simp only [RatchetState.performAll, Option.some.injEq, Prod.mk.injEq] at errorFree
      obtain ⟨rfl, noOutput⟩ := errorFree
      obtain rfl : outputs = [] := List.map_eq_nil_iff.mp noOutput.symm
      rw [RatchetState.EachState]
      constructor
      · rintro ⟨data, _, written, -, -⟩
        exact (loads_of_serialize reads written).1
      · intro empty
        obtain ⟨data, written, -⟩ := (RatchetState.deserialize_serialize_iff reads s).mpr empty
        exact ⟨data, data, written, written, rfl⟩
  | cons call calls ih =>
      cases performed : s.perform (ratchetOps p) call with
      | panics => simp only [RatchetState.performAll, performed, reduceCtorEq] at errorFree
      | returns mid result =>
          simp only [RatchetState.performAll, performed, Option.map_eq_some_iff,
            Prod.mk.injEq] at errorFree
          obtain ⟨done, rest, rfl, results⟩ := errorFree
          cases outputs with
          | nil => cases results
          | cons output outputs =>
              obtain ⟨rfl, others⟩ := List.cons.inj results
              have following := ih (s := mid) (by rw [rest, ← others])
              constructor
              · rintro ⟨data, after, written, finished, driven⟩
                obtain ⟨empty, loads⟩ := loads_of_serialize reads written
                rw [driveAll, drive_of_perform inverse reads loads performed] at driven
                refine ⟨empty, ?_⟩
                intro left result again
                rw [performed, Call.returns.injEq] at again
                rw [← again.1]
                apply following.mp
                cases encoded : mid.serialize with
                | none =>
                    rw [encoded] at driven
                    cases driven
                | some midData =>
                    rw [encoded] at driven
                    exact ⟨midData, after, rfl, finished, tail_of_consed driven⟩
              · rintro ⟨empty, onward⟩
                obtain ⟨midData, after, encoded, finished, driven⟩ :=
                  following.mpr (onward mid (.ok output) performed)
                obtain ⟨data, written, loads⟩ :=
                  (RatchetState.deserialize_serialize_iff reads s).mpr empty
                refine ⟨data, after, written, finished, ?_⟩
                rw [driveAll, drive_of_perform inverse reads loads performed, encoded,
                  Option.map_some]
                simp only [driven, Option.map_some]
                rfl

/-- Persistence loses nothing exactly where no skipped key is stored: for a single state,
and along an error-free session driven through the bridge. -/
theorem persistence_iff (inverse : b64.Inverse) (reads : ReadsBack serde) :
    (∀ s : ByteState,
      (∃ data, s.serialize = some data ∧ RatchetState.deserialize serde data = .ok s) ↔
        s.skippedKeys.isEmpty = true) ∧
    ∀ (s left : ByteState) (calls : List (Operation Bytes (ByteArr 32) (ByteArr 24)))
      (outputs : List (Output Bytes)),
      s.performAll (ratchetOps p) calls = some (left, outputs.map .ok) →
      ((∃ data after, s.serialize = some data ∧ left.serialize = some after ∧
        driveAll p b64 serde (b64.encode data) calls =
          some (.ok (b64.encode after, outputs.map (reply b64)))) ↔
      RatchetState.EachState (ratchetOps p) (fun s => s.skippedKeys.isEmpty = true) s calls) := by
  constructor
  · exact RatchetState.deserialize_serialize_iff reads
  · intro s left calls outputs errorFree
    exact driveAll_iff inverse reads errorFree

/-- Alice's state after her first message survives the bridge. -/
theorem persistence_iff_first :
    ∃ (alice left : ByteState) (outputs : List (Output Bytes)) (data after : Bytes),
      RatchetState.initSender (ratchetOps .sample) (.replicate 32 1) (List.replicate 32 9)
        (List.replicate 32 2) = some alice ∧
      alice.performAll (ratchetOps .sample) [.encrypt (.replicate 24 0) [104, 105]] =
        some (left, outputs.map .ok) ∧
      alice.serialize = some data ∧ left.serialize = some after ∧
      driveAll .sample .sample .sample (Base64.encode data)
          [.encrypt (.replicate 24 0) [104, 105]] =
        some (.ok (Base64.encode after, outputs.map (reply .sample))) := by
  let alice : ByteState := (RatchetState.initSender (ratchetOps .sample) (.replicate 32 1)
    (List.replicate 32 9) (List.replicate 32 2)).get rfl
  have errorFree : alice.performAll (ratchetOps .sample) [.encrypt (.replicate 24 0) [104, 105]] =
      some (_, [.encrypted _ _].map .ok) := rfl
  obtain ⟨data, after, written, finished, driven⟩ :=
    ((persistence_iff Base64Engine.sample_inverse sample_readsBack).2 alice _ _ _
      errorFree).mpr ⟨rfl, by rintro left result ⟨⟩; rfl⟩
  exact ⟨alice, _, _, data, after, rfl, errorFree, written, finished, driven⟩

/-- Bob reads Alice's second message first. The key of the first one goes to the store, and
the state can no longer be serialised. -/
theorem serialize_panics_out_of_order :
    ∃ (alice once twice : ByteState) (first second : Bytes × MessageHeader Bytes),
      let ops := ratchetOps .sample
      let bob : ByteState := .initReceiver (List.replicate 32 9) (List.replicate 32 2)
        (List.replicate 32 2)
      RatchetState.initSender ops (.replicate 32 1) (List.replicate 32 9) (List.replicate 32 2) =
        some alice ∧
      RatchetState.encrypt ops (.replicate 24 0) alice [104, 105] = (once, .ok first) ∧
      RatchetState.encrypt ops (.replicate 24 0) once [33] = (twice, .ok second) ∧
      (bob.performAll ops [.decrypt (.replicate 32 3) second.1 second.2]).map
        (fun done => (done.2, done.1.serialize)) = some ([.ok (.decrypted [33])], none) := by
  exact ⟨_, _, _, (_, _), (_, _), rfl, rfl, rfl, by decide +kernel⟩

end Hysj.Native
