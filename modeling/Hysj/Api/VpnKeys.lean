import Hysj.Api.EndpointRuns

set_option autoImplicit false

/- The keys that a VPN connect hands out, whatever the order of the statements of all requests. -/
namespace Hysj.Api

open Crypto Shared Auth Messaging Program

/-- All keys are pairs that the server can decrypt, and the servers are the ones there were. -/
structure Provisioned (x : Platform) (first t : Db.Tables) : Prop where
  paired : ∀ key ∈ t.userVpnKeys, Paired x.primitives x.base64 x.certSigningSeed key
  servers : t.vpnServers.map Db.VpnServer.settled = first.vpnServers.map Db.VpnServer.settled

/-- A new session is inserted. -/
def InsertsRow (row : Db.VpnSession) (s s' : Server) : Prop :=
  (∀ old ∈ s.db.vpnSessions, old.id ≠ row.id) ∧ s'.db.vpnSessions = s.db.vpnSessions ++ [row]

/-- What a connect hands out fits the session it has inserted: the private key is the one behind
the public key of the session, and the peer is the server of the session. -/
structure Handed (x : Platform) (first : Db.Tables) (auth : AuthUser) (request : VpnConnectRequest)
    (row : Db.VpnSession) (response : VpnConnectResponse) : Prop where
  session : response.sessionId = row.id
  address : response.assignedIp = row.assignedIp
  user : row.userId = auth.userId
  onServer : row.serverId = request.serverId
  running : row.endedAt = none
  config : ∃ (secret : ByteArr 32) (server : Db.VpnServer), server ∈ first.vpnServers ∧
    server.id = request.serverId ∧ server.isActive = true ∧
    row.clientPublicKey = x.base64.encode (x.primitives.x25519Public secret).toList ∧
    response.config = (⟨x.base64.encode secret.toList, row.assignedIp, "1.1.1.1",
      server.publicKey, server.endpoint, "0.0.0.0/0"⟩ : Vpn.WireGuardConfig).toJson

section

variable {x : Platform} {first t : Db.Tables} {auth : AuthUser} {request : VpnConnectRequest}
variable {userId serverId : Uuid} {μ : Type} {H : μ → Server → Server → Prop}

theorem Provisioned.write {call : Endpoint} {write : Db.Write} (may : call.May x write)
    (holds : Provisioned x first t) : Provisioned x first (write.apply t) := by
  constructor
  · intro key member
    obtain old | rfl := Db.Write.mem_userVpnKeys member
    · exact holds.paired key old
    · obtain plain | special := may
      · exact plain.elim
      · cases special with
        | storeKeys paired => exact paired
  · rw [write.settled, holds.servers]

/-- The tables a statement works on are provisioned. -/
abbrev InProvisioned (x : Platform) (first : Db.Tables) (_ : Chance) (s : Server) : Prop :=
  Provisioned x first s.db

theorem comes_onOk {α ε : Type} {t : Task ε α} :
    Comes (InProvisioned x first) (OnOk fun _ => True) t.run :=
  Secures.mono comes_any (fun _ _ _ _ => trivial) fun _ _ _ _ => trivial

theorem comes_query {α : Type} {statement : Nat → Db.Statement α} {Q : α → Prop}
    (answers : ∀ now t a, Provisioned x first t → (statement now t).1 = .ok a → Q a) :
    Comes (InProvisioned x first) (OnOk Q) (query statement).run := by
  refine comes_act fun c s holds a same => ?_
  cases fault : c.fault with
  | some e =>
      simp only [fault] at same
      cases same
  | none =>
      simp only [fault] at same
      exact answers _ _ a holds same

theorem comes_found {α : Type} {statement : Nat → Db.Statement α} {Q : α → Prop}
    (answers : ∀ now t a, Provisioned x first t → (statement now t).1 = .ok a → Q a) :
    Comes (InProvisioned x first) (OnOk Q) (ExceptT.adapt HysjError.ofDb (query statement)).run :=
  Secures.adapt (comes_query answers)

theorem comes_vpnKeys (aead : AeadOpens x.primitives) :
    Comes (InProvisioned x first) (OnOk fun keys : String × String => ∃ secret : ByteArr 32,
        keys = (x.base64.encode secret.toList,
          x.base64.encode (x.primitives.x25519Public secret).toList))
      (vpnKeys x.primitives x.base64 x.certSigningSeed userId).run := by
  refine Secures.run_bind (P := fun found : Option Db.UserVpnKey => ∀ key, found = some key →
    key.userId = userId ∧ Paired x.primitives x.base64 x.certSigningSeed key) (comes_found ?_) ?_
  · intro _ t found holds answer key same
    obtain rfl := Except.ok.inj answer
    have is := List.find?_some same
    exact ⟨of_decide_eq_true is, holds.paired key (List.mem_of_find?_eq_some same)⟩
  · intro found pair
    cases found with
    | some key =>
        obtain ⟨rfl, secret, publicKey, nonce, encrypted⟩ := pair key rfl
        have decrypts := Cipher.decrypt_encrypt aead encrypted
        have text : Utf8.fromUtf8 (strBytes (x.base64.encode secret.toList)) =
            some (x.base64.encode secret.toList) := fromUtf8_strBytes _
        refine Secures.run_bind (P := fun decrypted =>
          decrypted = strBytes (x.base64.encode secret.toList)) ?_ ?_
        · refine secures_pure fun decrypted same => ?_
          rw [Result.mapError_eq_ok, decrypts] at same
          exact (Except.ok.inj same).symm
        · rintro decrypted rfl
          simp only [text]
          exact secures_run_pure ⟨secret, by rw [publicKey]⟩
    | none =>
        refine Secures.run_bind (P := fun _ => True) comes_onOk fun secret _ => ?_
        refine Secures.run_bind (P := fun _ => True) comes_onOk fun nonce _ => ?_
        refine Secures.run_bind (P := fun _ => True) comes_onOk fun encrypted _ => ?_
        refine Secures.run_bind (P := fun _ => True) comes_onOk fun _ _ => ?_
        exact secures_run_pure ⟨secret, rfl⟩

theorem marks_createSession {clientPublicKey assignedIp : String} :
    Marks (InProvisioned x first) InsertsRow (OnOk fun _ => False) (fun row => OnOk fun answer =>
        answer = row ∧ row.userId = userId ∧ row.serverId = serverId ∧ row.endedAt = none ∧
          row.clientPublicKey = clientPublicKey ∧ row.assignedIp = assignedIp)
      (createSession userId serverId clientPublicKey assignedIp).run := by
  refine Comes.run_bind_marks (P := fun _ => True) comes_onOk fun id _ => ?_
  refine Marks.run_bind (P := fun _ => False) (S := fun row answer => answer = row ∧
    row.userId = userId ∧ row.serverId = serverId ∧ row.endedAt = none ∧
      row.clientPublicKey = clientPublicKey ∧ row.assignedIp = assignedIp) ?_ ?_ ?_
  · refine marks_act fun c s _ => ?_
    cases c.fault with
    | some e => exact Or.inl fun a same => by cases same
    | none =>
        dsimp only
        cases answer : (Db.insertSession
          ⟨id, userId, serverId, clientPublicKey, assignedIp, s.redis.now, none, 0, 0⟩ s.db).1 with
        | error e => exact Or.inl fun a same => by cases same
        | ok row =>
            obtain ⟨is, -, fresh, added⟩ := Db.insertSession_eq_ok answer
            refine Or.inr ⟨row, ⟨?_, ?_⟩, ?_⟩
            · rw [is]
              exact fresh
            · rw [added, is]
            · intro a same
              obtain rfl := Except.ok.inj same
              rw [is]
              exact ⟨rfl, rfl, rfl, rfl, rfl, rfl⟩
  · exact fun _ wrong => wrong.elim
  · intro row answer inserted
    refine Secures.run_bind (P := fun _ => True) comes_onOk fun _ _ => ?_
    exact secures_run_pure inserted

/-- A connect that answers has inserted the session of its answer. -/
theorem marks_openSession (aead : AeadOpens x.primitives) {server : Db.VpnServer}
    (is : server.id = request.serverId)
    (listed : ∃ known ∈ first.vpnServers, known.settled = server.settled ∧ known.isActive = true) :
    Marks (InProvisioned x first) InsertsRow (OnOk fun _ => False)
        (fun row => OnOk (Handed x first auth request row))
      (openSession x.primitives x.base64 x.certSigningSeed auth request server).run := by
  refine Comes.run_bind_marks (comes_vpnKeys aead) fun keys pair => ?_
  obtain ⟨secret, rfl⟩ := pair
  refine Comes.run_bind_marks (P := fun _ => True) comes_onOk fun count _ => ?_
  refine Marks.run_bind (marks_createSession.adapt) (fun _ wrong => wrong.elim) ?_
  rintro row session ⟨rfl, user, onServer, running, publicKey, address⟩
  refine secures_run_pure ⟨rfl, address.symm, user, onServer.trans is, running, ?_⟩
  obtain ⟨known, there, same, active⟩ := listed
  simp only [Db.VpnServer.settled, Db.VpnServer.mk.injEq] at same
  refine ⟨secret, known, there, same.1.trans is, active, publicKey, ?_⟩
  rw [address, same.2.2.2.1, same.2.2.2.2.1]

theorem marks_connect (aead : AeadOpens x.primitives) :
    Marks (InProvisioned x first) InsertsRow (OnOk fun _ => False)
        (fun row => OnOk (Handed x first auth request row))
      (Vpn.connect x.primitives x.base64 x.certSigningSeed auth request).run := by
  have refused {e : HysjError} : Marks (InProvisioned x first) InsertsRow (OnOk fun _ => False)
      (fun row => OnOk (Handed x first auth request row))
      (throw e : Task HysjError VpnConnectResponse).run := by
    intro a same
    cases same
  refine Comes.run_bind_marks (P := fun servers : List Db.VpnServer => ∀ server ∈ servers,
    ∃ known ∈ first.vpnServers, known.settled = server.settled ∧ known.isActive = true)
    (comes_found ?_) fun servers listed => ?_
  · intro _ t servers holds answer server member
    obtain ⟨there, active⟩ := Db.mem_of_listServers answer member
    have settled : server.settled ∈ first.vpnServers.map Db.VpnServer.settled := by
      rw [← holds.servers]
      exact List.mem_map_of_mem there
    obtain ⟨known, present, same⟩ := List.mem_map.mp settled
    refine ⟨known, present, same, ?_⟩
    have kept : known.settled.isActive = server.settled.isActive := by rw [same]
    exact kept.trans active
  · split
    · exact refused
    · rename_i server found
      have is : server.id = request.serverId := by simpa using List.find?_some found
      split
      · exact refused
      · refine Comes.run_bind_marks (P := fun _ => True) comes_onOk fun _ _ => ?_
        exact marks_openSession aead is (listed server (List.mem_of_find?_eq_some found))

variable {start : Server} {q : EndpointCalls}
variable {steps : List (EndpointCalls × EndpointEvent × EndpointCalls)}

theorem provisioned_of_run (run : EndpointRun x start steps q)
    (paired : ∀ key ∈ start.db.userVpnKeys, Paired x.primitives x.base64 x.certSigningSeed key) :
    Provisioned x start.db q.state.db :=
  run.keeps (fun _ _ may _ holds => holds.write may) ⟨paired, rfl⟩

/-- Every connect that is answered, whatever other requests ran meanwhile, has itself inserted a
session with the answered id and address; and the config it hands out has the private key behind
that session's public key, and the key and endpoint of the server that was asked for. -/
theorem connect_hands_out (aead : AeadOpens x.primitives) (run : EndpointRun x start steps q)
    (paired : ∀ key ∈ start.db.userVpnKeys, Paired x.primitives x.base64 x.certSigningSeed key)
    {i : Nat} {response : VpnConnectResponse}
    (answered : q.threads[i]? =
      some ⟨.connect auth request, .done (.connected (.ok response))⟩) :
    ∃ row s s', Pool.Stepped steps i s s' ∧ InsertsRow row s s' ∧
      Handed x start.db auth request row response := by
  have all : ∀ step ∈ steps, ∀ i c, step.2.1 = .run i c →
      InProvisioned x start.db c step.1.state := by
    intro step member _ c _
    obtain ⟨before, after, rfl⟩ := List.append_of_mem member
    obtain ⟨m, earlier, later⟩ := run.append_inv
    have same := later.cons_inv.1
    rw [same]
    exact provisioned_of_run earlier paired
  have marks (call : Endpoint) (is : call = .connect auth request) :
      Marks (InProvisioned x start.db) InsertsRow
        (fun reply => ∀ response, reply ≠ .connected (.ok response))
        (fun row reply => ∀ response, reply = .connected (.ok response) →
          Handed x start.db auth request row response) (call.program x) := by
    subst is
    refine (marks_connect aead).map ?_ ?_
    · intro result none_answered response same
      exact none_answered response (Reply.connected.inj same)
    · intro row result handed response same
      exact handed response (Reply.connected.inj same)
  obtain missing | ⟨row, s, s', stepped, inserted, handed⟩ := Pool.marked
    (C := fun call => call = .connect auth request) (H := fun _ => InsertsRow)
    (B := fun _ reply => ∀ response, reply ≠ .connected (.ok response))
    (R := fun _ row reply => ∀ response, reply = .connected (.ok response) →
      Handed x start.db auth request row response) marks run all i _ answered rfl
  · exact absurd rfl (missing response)
  · exact ⟨row, s, s', stepped, inserted, handed response rfl⟩

end

/-- The first connect of a user, who has no keys yet. -/
theorem connect_hands_out_oslo : ∃ (steps : _) (q : EndpointCalls) (response : VpnConnectResponse)
    (row : Db.VpnSession) (s s' : Server), EndpointRun .sample (oslo 0 [] []) steps q ∧
      Pool.Stepped steps 0 s s' ∧ InsertsRow row s s' ∧
      Handed .sample (oslo 0 [] []).db (osloUser 1) ⟨.replicate 16 9⟩ row response := by
  obtain ⟨response, connected⟩ : ∃ response,
      (Pool.follow (Endpoint.program .sample) (fun seconds s => s.wait seconds) ⟨oslo 0 [] [], []⟩
        (.call (.connect (osloUser 1) ⟨.replicate 16 9⟩) :: List.replicate 12 (.run 0 {}))).map
          (fun q => q.threads[0]?) =
        some (some ⟨.connect (osloUser 1) ⟨.replicate 16 9⟩, .done (.connected (.ok response))⟩) :=
    ⟨_, rfl⟩
  obtain ⟨q, followed, answered⟩ := Option.map_eq_some_iff.mp connected
  obtain ⟨steps, run⟩ := Pool.trail_of_follow _ followed
  obtain ⟨row, s, s', handed⟩ := connect_hands_out Primitives.sample_aead run
    (fun key member => by cases member) answered
  exact ⟨steps, q, response, row, s, s', run, handed⟩

end Hysj.Api
