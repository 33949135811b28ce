import Hysj.Api.VpnAddresses
import Hysj.Base.PoolRuns

set_option autoImplicit false

/- How many active VPN sessions a user has, whatever the order of the statements of the calls. -/
namespace Hysj.Db

open Crypto Shared

/-- The sessions of a user that have not ended. -/
def Tables.activeOf (t : Tables) (u : Uuid) : List VpnSession :=
  t.vpnSessions.filter fun row => row.userId = u ∧ row.endedAt = none

section

variable {t : Tables} {u id : Uuid} {row : VpnSession} {now : Nat}

theorem mem_activeOf : row ∈ t.activeOf u ↔
    row ∈ t.vpnSessions ∧ row.userId = u ∧ row.endedAt = none := by
  rw [Tables.activeOf, List.mem_filter, decide_eq_true_iff]

theorem latestSession_eq_none {rows : List VpnSession} : latestSession rows = none ↔ rows = [] := by
  cases rows with
  | nil => exact ⟨fun _ => rfl, fun _ => rfl⟩
  | cons row rows =>
      constructor
      · intro absent
        unfold latestSession at absent
        split at absent
        · cases absent
        · split at absent <;> cases absent
      · intro none_left
        cases none_left

theorem getActiveSession_eq_none : (getActiveSession u t).1 = .ok none ↔ t.activeOf u = [] := by
  constructor
  · intro answer
    exact latestSession_eq_none.mp (Except.ok.inj answer)
  · intro none_left
    exact congrArg Except.ok (latestSession_eq_none.mpr none_left)

/-- What ends is the session with the identifier, if it is active. -/
theorem activeOf_markEnded : (markEnded id now t).2.activeOf u =
    (t.activeOf u).filter fun row => row.id ≠ id :=
  filter_markEnded (P := fun row => row.userId = u)

/-- Ending a session changes neither its identifier nor its user. -/
theorem owners_markEnded :
    (markEnded id now t).2.vpnSessions.map (fun row => (row.id, row.userId)) =
      t.vpnSessions.map fun row => (row.id, row.userId) := by
  unfold markEnded
  split
  · dsimp only
    rw [List.map_map]
    apply List.map_congr_left
    intro row _
    by_cases is : row.id = id ∧ row.endedAt = none
    · simp [is]
    · simp [is]
  · rfl

theorem markEnded_eq_error {e : DbError} (failed : (markEnded id now t).1 = .error e) :
    (markEnded id now t).2 = t := by
  unfold markEnded at failed ⊢
  split at failed
  · cases failed
  · rename_i absent
    rw [if_neg absent]

theorem of_markEnded (ended : (markEnded id now t).1 = .ok ()) :
    ∃ row ∈ t.vpnSessions, row.id = id ∧ row.endedAt = none := by
  unfold markEnded at ended
  split at ended
  · rename_i known
    obtain ⟨row, there, is⟩ := List.any_eq_true.mp known
    exact ⟨row, there, of_decide_eq_true is⟩
  · cases ended

end

end Hysj.Db

namespace Hysj.Api

open Crypto Shared Auth Messaging Program

inductive VpnCall where
  | connect (auth : AuthUser) (request : VpnConnectRequest)
  | disconnect (auth : AuthUser)

inductive VpnReply where
  | connected (result : Except HysjError VpnConnectResponse)
  | disconnected (result : Except HysjError Json.Value)

/-- Whose request it is. -/
def VpnCall.user : VpnCall → Uuid
  | .connect auth _ | .disconnect auth => auth.userId

abbrev VpnRest := Program Chance Server VpnReply

abbrev VpnThread := Thread Chance Server VpnCall VpnReply

abbrev VpnCalls := Pool Chance Server VpnCall VpnReply

abbrev VpnEvent := Pool.Event Chance VpnCall

section

variable (p : Primitives) (b64 : Base64Engine) (seed : ByteArr 32)

def VpnCall.program : VpnCall → VpnRest
  | .connect auth request => .connected <$> (Vpn.connect p b64 seed auth request).run
  | .disconnect auth => .disconnected <$> (Vpn.disconnect auth).run

/-- A call is made, a call executes its next statement, or time passes. -/
def VpnCalls.step (q : VpnCalls) (e : VpnEvent) : Option VpnCalls :=
  Pool.step (VpnCall.program p b64 seed) (fun seconds s => s.wait seconds) q e

abbrev VpnRun (first : Server) (steps : List (VpnCalls × VpnEvent × VpnCalls))
    (q : VpnCalls) : Prop :=
  Trail (fun q e q' => VpnCalls.step p b64 seed q e = some q') ⟨first, []⟩ steps q

/-- A connect that has found its server with room and is about to look for an active session. -/
def looking (auth : AuthUser) (request : VpnConnectRequest) (server : Db.VpnServer) : VpnRest :=
  .connected <$>
    (endExisting auth.userId >>= fun _ => openSession p b64 seed auth request server).run

/-- A connect that has found an active session and is about to end it. -/
def ending (auth : AuthUser) (request : VpnConnectRequest) (server : Db.VpnServer) (own : Uuid) :
    VpnRest :=
  .connected <$> (ExceptT.adapt .ofDb (endSession own) >>= fun _ =>
    openSession p b64 seed auth request server).run

/-- With this statement a connect passes its look-up: it finds no active session, or ends the one
it has found. -/
def Passes (u : Uuid) (s : Server) (c : Chance) (rest : VpnRest) : Prop :=
  c.fault = none ∧ ∃ auth request server, auth.userId = u ∧
    (rest = looking p b64 seed auth request server ∧ s.db.activeOf u = [] ∨
      ∃ row ∈ s.db.vpnSessions, row.endedAt = none ∧
        rest = ending p b64 seed auth request server row.id)

end

/-- The sessions are the same. -/
abbrev SameSessions (s s' : Server) : Prop := s'.db.vpnSessions = s.db.vpnSessions

/-- A session of the user is inserted. -/
def Inserts (u : Uuid) (s s' : Server) : Prop :=
  ∃ row : Db.VpnSession, row.userId = u ∧ row.endedAt = none ∧
    (∀ old ∈ s.db.vpnSessions, old.id ≠ row.id) ∧ s'.db.vpnSessions = s.db.vpnSessions ++ [row]

/-- What is left of the call leaves the sessions alone but for one that it can still insert: a
connect is here from when it has passed its look-up. -/
def Committed (thread : VpnThread) : Prop :=
  KeepsButOne SameSessions (Inserts thread.call.user) thread.rest ∧ ¬ Keeps SameSessions thread.rest

/-- No connect passes its look-up while another one of the same user has passed its own and not
yet inserted its session. -/
def InTurn (p : Primitives) (b64 : Base64Engine) (seed : ByteArr 32)
    (q : VpnCalls) : VpnEvent → Prop
  | .run i c => ∀ thread, q.threads[i]? = some thread →
      Passes p b64 seed thread.call.user q.state c thread.rest →
      ∀ j other, j ≠ i → q.threads[j]? = some other → other.call.user = thread.call.user →
        ¬ Committed other
  | _ => True

/-- Sessions may end. -/
structure OnlyEnds (s s' : Server) : Prop where
  owners : s'.db.vpnSessions.map (fun row => (row.id, row.userId)) =
    s.db.vpnSessions.map fun row => (row.id, row.userId)
  active : ∀ u, (s'.db.activeOf u).Sublist (s.db.activeOf u)

section

variable {p : Primitives} {b64 : Base64Engine} {seed : ByteArr 32} {s s' : Server} {u : Uuid}
variable {rest : VpnRest} {auth : AuthUser} {request : VpnConnectRequest} {server : Db.VpnServer}

/-- What a statement answers and leaves behind. -/
def queried {α : Type} (statement : Nat → Db.Statement α) (c : Chance) (s : Server) :
    Except DbError α × Server :=
  match c.fault with
  | some e => (.error (.queryFailed e), s)
  | none => ((statement s.redis.now s.db).1, { s with db := (statement s.redis.now s.db).2 })

theorem queried_cases {α : Type} (statement : Nat → Db.Statement α) (c : Chance) (s : Server) :
    (∃ e, queried statement c s = (.error (.queryFailed e), s)) ∨
      c.fault = none ∧ queried statement c s =
        ((statement s.redis.now s.db).1, { s with db := (statement s.redis.now s.db).2 }) := by
  unfold queried
  cases c.fault with
  | some e => exact Or.inl ⟨e, rfl⟩
  | none => exact Or.inr ⟨rfl, rfl⟩

/-- What follows the answer to a statement. -/
def afterAnswer {α β : Type} (f : α → Task HysjError β) : Except DbError α → Task HysjError β
  | .ok a => f a
  | .error e => throw (.ofDb e)

theorem run_query_bind {α β γ : Type} (statement : Nat → Db.Statement α) (f : α → Task HysjError β)
    (g : Except HysjError β → γ) :
    g <$> (ExceptT.adapt HysjError.ofDb (query statement) >>= f).run =
      .step (fun c s => (queried statement c s).2) fun c s =>
        g <$> (afterAnswer f (queried statement c s).1).run := by
  have starts : query statement = ExceptT.mk (.act (queried statement)) := rfl
  rw [starts]
  generalize queried statement = h
  show Program.step _ _ = Program.step _ _
  congr 1
  funext c s
  show (((Program.done (h c s).1).bind _).bind _).bind _ = _
  cases (h c s).1 with
  | error e => rfl
  | ok a => rfl

theorem onlyEnds_of_same (same : SameSessions s s') : OnlyEnds s s' := by
  refine ⟨by rw [same], fun u => ?_⟩
  rw [Db.Tables.activeOf, same]
  exact List.Sublist.refl _

theorem onlyEnds_markEnded (id : Uuid) (s : Server) :
    OnlyEnds s { s with db := (Db.markEnded id s.redis.now s.db).2 } := by
  refine ⟨Db.owners_markEnded, fun u => ?_⟩
  show ((Db.markEnded id s.redis.now s.db).2.activeOf u).Sublist _
  rw [Db.activeOf_markEnded]
  exact List.filter_sublist

theorem not_onlyEnds_of_inserts (inserts : Inserts u s s') : ¬ OnlyEnds s s' := by
  obtain ⟨row, -, -, -, added⟩ := inserts
  intro ends
  have lengths := congrArg List.length ends.owners
  simp [added] at lengths

/-- End the session that was found, if any. -/
def endFound : Option Db.VpnSession → Task HysjError Unit
  | some existing => ExceptT.adapt .ofDb (endSession existing.id)
  | none => return ()

theorem endExisting_eq (u : Uuid) : endExisting u =
    ExceptT.adapt .ofDb (query fun _ => Db.getActiveSession u) >>= endFound := rfl

theorem looking_eq : looking p b64 seed auth request server =
    .step (fun c s => (queried (fun _ => Db.getActiveSession auth.userId) c s).2) fun c s =>
      .connected <$> (afterAnswer (fun found => endFound found >>= fun _ =>
          openSession p b64 seed auth request server)
        (queried (fun _ => Db.getActiveSession auth.userId) c s).1).run := by
  unfold looking
  rw [endExisting_eq, LawfulMonad.bind_assoc, run_query_bind]

theorem ending_eq {own : Uuid} : ending p b64 seed auth request server own =
    .step (fun c s => (queried (Db.markEnded own) c s).2) fun c s =>
      .connected <$> (afterAnswer (fun _ => ExceptT.adapt .ofDb
          (query fun _ => Db.decrementConnections own) >>= fun _ =>
            openSession p b64 seed auth request server)
        (queried (Db.markEnded own) c s).1).run := by
  unfold ending endSession
  rw [adapt_bind, LawfulMonad.bind_assoc, run_query_bind]

/-- A connect that knows the servers. -/
def afterListing (p : Primitives) (b64 : Base64Engine) (seed : ByteArr 32) (auth : AuthUser)
    (request : VpnConnectRequest) (servers : List Db.VpnServer) :
    Task HysjError VpnConnectResponse :=
  match servers.find? fun server => server.id = request.serverId with
  | none => throw (.validationError "Server not found")
  | some server =>
      if server.maxConnections ≤ server.currentConnections then
        throw (.validationError "Server is full")
      else
        endExisting auth.userId >>= fun _ => openSession p b64 seed auth request server

theorem connect_eq : VpnCall.program p b64 seed (.connect auth request) =
    .step (fun c s => (queried (fun _ => Db.listServers) c s).2) fun c s =>
      .connected <$> (afterAnswer (afterListing p b64 seed auth request)
        (queried (fun _ => Db.listServers) c s).1).run := by
  have starts : Vpn.connect p b64 seed auth request =
    ExceptT.adapt .ofDb (query fun _ => Db.listServers) >>=
      afterListing p b64 seed auth request := rfl
  rw [VpnCall.program, starts, run_query_bind]

theorem afterListing_cases (servers : List Db.VpnServer) :
    (∃ e, afterListing p b64 seed auth request servers = throw e) ∨
      ∃ server, afterListing p b64 seed auth request servers =
        endExisting auth.userId >>= fun _ => openSession p b64 seed auth request server := by
  unfold afterListing
  split
  · exact Or.inl ⟨_, rfl⟩
  · split
    · exact Or.inl ⟨_, rfl⟩
    · exact Or.inr ⟨_, rfl⟩

theorem sameSessions_query {α : Type} {statement : Nat → Db.Statement α}
    (reads : ∀ now t, (statement now t).2.vpnSessions = t.vpnSessions) :
    Keeps SameSessions (query statement).run :=
  keeps_query (fun _ => rfl) fun s => reads s.redis.now s.db

/-- What is left of a connect after its look-up inserts a session at most once. -/
theorem butOne_openSession :
    KeepsButOne SameSessions (Inserts auth.userId)
    (openSession p b64 seed auth request server).run := by
  have keys : Keeps SameSessions (vpnKeys p b64 seed auth.userId).run := by
    refine onlyKeys_vpnKeys.mono fun s s' only => ?_
    obtain ⟨keys, rfl⟩ := only
    rfl
  refine keys.run_bind_butOne fun keys => ?_
  refine (sameSessions_query fun _ _ => rfl).adapt.run_bind_butOne fun count => ?_
  refine KeepsButOne.run_bind (KeepsButOne.adapt ?_) fun session => keeps_pure _
  have draws : Keeps SameSessions (random : Task DbError Uuid).run := keeps_random fun _ => rfl
  refine draws.run_bind_butOne fun id => ?_
  refine KeepsButOne.run_bind ?_ fun session =>
    Keeps.run_bind (sameSessions_query fun _ _ => rfl) fun _ => keeps_pure _
  refine keepsButOne_act fun c s => ?_
  cases c.fault with
  | some e => exact Or.inl rfl
  | none =>
      dsimp only
      cases inserted : (Db.insertSession _ s.db).1 with
      | error e =>
          refine Or.inl ?_
          show (Db.insertSession _ s.db).2.vpnSessions = _
          rw [Db.insertSession_eq_error inserted]
      | ok row =>
          obtain ⟨-, -, fresh, added⟩ := Db.insertSession_eq_ok inserted
          exact Or.inr ⟨_, rfl, rfl, fresh, congrArg Db.Tables.vpnSessions added⟩

theorem onlyEnds_disconnect : Keeps OnlyEnds (Vpn.disconnect auth).run := by
  have reads {α : Type} {statement : Nat → Db.Statement α}
      (same : ∀ now t, (statement now t).2.vpnSessions = t.vpnSessions) :
      Keeps OnlyEnds (query statement).run :=
    (sameSessions_query same).mono fun _ _ => onlyEnds_of_same
  refine Keeps.run_bind (reads fun _ _ => rfl).adapt fun found => ?_
  cases found with
  | none => exact keeps_pure _
  | some session =>
      refine Keeps.run_bind (Keeps.adapt ?_) fun _ => keeps_pure _
      refine Keeps.run_bind ?_ fun _ => reads fun _ _ => rfl
      exact keeps_query (fun _ => onlyEnds_of_same rfl) fun s => onlyEnds_markEnded session.id s

/-- A connect of the user up to where it passes its look-up. A session that it is to end is one of
the user's. -/
inductive Before (p : Primitives) (b64 : Base64Engine) (seed : ByteArr 32) (u : Uuid) (s : Server) :
    VpnRest → Prop where
  | starting (auth : AuthUser) (request : VpnConnectRequest) (is : auth.userId = u) :
      Before p b64 seed u s (VpnCall.program p b64 seed (.connect auth request))
  | looking (auth : AuthUser) (request : VpnConnectRequest) (server : Db.VpnServer)
      (is : auth.userId = u) : Before p b64 seed u s (looking p b64 seed auth request server)
  | ending (auth : AuthUser) (request : VpnConnectRequest) (server : Db.VpnServer) (own : Uuid)
      (is : auth.userId = u)
        (ofUser : (own, u) ∈ s.db.vpnSessions.map fun row => (row.id, row.userId)) :
      Before p b64 seed u s (ending p b64 seed auth request server own)

/-- No session has the identifier of another one, and no user has two active ones. -/
structure Single (s : Server) : Prop where
  ids : (s.db.vpnSessions.map Db.VpnSession.id).Nodup
  single : ∀ u, (s.db.activeOf u).length ≤ 1

/-- Ending an active session of a user that has but one leaves none. -/
theorem activeOf_ended {own : Uuid} {now : Nat} (single : Single s)
    (ofUser : (own, u) ∈ s.db.vpnSessions.map fun row => (row.id, row.userId))
    (active : ∃ row ∈ s.db.vpnSessions, row.id = own ∧ row.endedAt = none) :
    (Db.markEnded own now s.db).2.activeOf u = [] := by
  obtain ⟨row, there, is, running⟩ := active
  obtain ⟨row', there', same⟩ := List.mem_map.mp ofUser
  obtain ⟨is', owner⟩ := Prod.mk.inj same
  obtain rfl := List.inj_on_of_nodup_map single.ids there there' (is.trans is'.symm)
  have member : row ∈ s.db.activeOf u := Db.mem_activeOf.mpr ⟨there, owner, running⟩
  have only : s.db.activeOf u = [row] := by
    obtain ⟨other, is⟩ := List.length_eq_one_iff.mp
      (Nat.le_antisymm (single.single u) (List.length_pos_of_mem member))
    rw [is, List.mem_singleton] at member
    rw [is, member]
  rw [Db.activeOf_markEnded, only]
  simp [is]

theorem Before.step {effect : Chance → Server → Server} {next : Chance → Server → VpnRest}
    (before : Before p b64 seed u s rest) (is : rest = .step effect next) (c : Chance)
    (single : Single s) :
    SameSessions s (effect c s) ∧
        (Before p b64 seed u (effect c s) (next c s) ∨ ∃ reply, next c s = .done reply) ∨
      Passes p b64 seed u s c rest ∧ OnlyEnds s (effect c s) ∧ (effect c s).db.activeOf u = [] ∧
        KeepsButOne SameSessions (Inserts u) (next c s) := by
  cases before with
  | starting auth request ofUser =>
      rw [connect_eq] at is
      obtain ⟨rfl, rfl⟩ := Program.step.inj is
      rcases queried_cases (fun _ => Db.listServers) c s with ⟨e, answer⟩ | ⟨fault, answer⟩
      · dsimp only
        rw [answer]
        exact Or.inl ⟨rfl, Or.inr ⟨_, rfl⟩⟩
      · dsimp only
        rw [answer]
        refine Or.inl ⟨rfl, ?_⟩
        dsimp only [Db.listServers, afterAnswer]
        rcases @afterListing_cases p b64 seed auth request _ with
          ⟨e, refused⟩ | ⟨server, goes⟩
        · rw [refused]
          exact Or.inr ⟨_, rfl⟩
        · rw [goes]
          exact Or.inl (.looking auth request server ofUser)
  | looking auth request server ofUser =>
      subst ofUser
      rw [looking_eq] at is
      obtain ⟨rfl, rfl⟩ := Program.step.inj is
      rcases queried_cases (fun _ => Db.getActiveSession auth.userId) c s with
        ⟨e, answer⟩ | ⟨fault, answer⟩
      · dsimp only
        rw [answer]
        exact Or.inl ⟨rfl, Or.inr ⟨_, rfl⟩⟩
      · dsimp only
        rw [answer]
        dsimp only
        cases found : (Db.getActiveSession auth.userId s.db).1 with
        | error e => cases found
        | ok own =>
            cases own with
            | none =>
                have empty := Db.getActiveSession_eq_none.mp found
                refine Or.inr ⟨⟨fault, auth, request, server, rfl, Or.inl ⟨rfl, empty⟩⟩,
                  onlyEnds_of_same rfl, empty, ?_⟩
                exact butOne_openSession.map _
            | some own =>
                obtain ⟨there, owner, -⟩ := Db.mem_of_getActiveSession found
                refine Or.inl ⟨rfl, Or.inl (.ending auth request server own.id rfl ?_)⟩
                exact List.mem_map.mpr ⟨own, there, by rw [owner]⟩
  | ending auth request server own owner ofUser =>
      subst owner
      rw [ending_eq] at is
      obtain ⟨rfl, rfl⟩ := Program.step.inj is
      rcases queried_cases (Db.markEnded own) c s with ⟨e, answer⟩ | ⟨fault, answer⟩
      · dsimp only
        rw [answer]
        exact Or.inl ⟨rfl, Or.inr ⟨_, rfl⟩⟩
      · dsimp only
        rw [answer]
        dsimp only
        cases ended : (Db.markEnded own s.redis.now s.db).1 with
        | error e =>
            refine Or.inl ⟨?_, Or.inr ⟨_, rfl⟩⟩
            show (Db.markEnded own s.redis.now s.db).2.vpnSessions = _
            rw [Db.markEnded_eq_error ended]
        | ok _ =>
            obtain ⟨row, there, rfl, running⟩ := Db.of_markEnded ended
            refine Or.inr ⟨⟨fault, auth, request, server, rfl,
              Or.inr ⟨row, there, running, rfl⟩⟩, onlyEnds_markEnded row.id s,
              activeOf_ended single ofUser ⟨row, there, rfl, running⟩, ?_⟩
            refine KeepsButOne.map (Keeps.run_bind_butOne ?_ fun _ => butOne_openSession) _
            exact (sameSessions_query fun _ _ => rfl).adapt

/-- A VPN server with room for one. -/
def vacant (serverId : Uuid) : Db.VpnServer := ⟨serverId, "", none, "", "", true, 1, 0⟩

/-- A server with one active session. -/
def occupied (id u : Uuid) (servers : List Db.VpnServer) : Server :=
  .start 0
    { vpnServers := servers
      vpnSessions := [⟨id, u, id, "", "", 0, none, 0, 0⟩] }

theorem not_butOne_ending {own : Uuid} :
    ¬ KeepsButOne SameSessions (Inserts u) (ending p b64 seed auth request server own) := by
  rw [ending_eq]
  intro butOne
  have ended : (queried (Db.markEnded own) {} (occupied own u [])).2.db.vpnSessions =
      [⟨own, u, own, "", "", 0, some 0, 0, 0⟩] := by
    simp [queried, occupied, Server.start, Db.markEnded, Store.empty]
  rcases butOne {} (occupied own u []) with ⟨same, -⟩ | ⟨⟨row, -, -, -, added⟩, -⟩
  · have same : _ = _ := same
    rw [ended] at same
    simp [occupied, Server.start] at same
  · have lengths := congrArg List.length added
    rw [ended] at lengths
    simp [occupied, Server.start] at lengths

theorem not_inserts_self (s : Server) : ¬ Inserts u s s := by
  rintro ⟨row, -, -, -, added⟩
  have lengths := congrArg List.length added
  simp at lengths

theorem not_butOne_looking :
    ¬ KeepsButOne SameSessions (Inserts u) (looking p b64 seed auth request server) := by
  intro butOne
  rw [looking_eq] at butOne
  rcases butOne {} (occupied auth.userId auth.userId []) with ⟨-, rest⟩ | ⟨inserts, -⟩
  · have found : (queried (fun _ => Db.getActiveSession auth.userId) {}
        (occupied auth.userId auth.userId [])).1 =
        .ok (some ⟨auth.userId, auth.userId, auth.userId, "", "", 0, none, 0, 0⟩) := by
      simp [queried, occupied, Server.start, Db.getActiveSession, Db.latestSession]
    dsimp only at rest
    rw [found] at rest
    exact not_butOne_ending rest
  · exact not_inserts_self _ inserts

theorem not_butOne_connect :
    ¬ KeepsButOne SameSessions (Inserts u)
    (VpnCall.program p b64 seed (.connect auth request)) := by
  intro butOne
  rw [connect_eq] at butOne
  rcases butOne {} (occupied u u [vacant request.serverId]) with ⟨-, rest⟩ | ⟨inserts, -⟩
  · have listed : (queried (fun _ => Db.listServers) {}
        (occupied u u [vacant request.serverId])).1 = .ok [vacant request.serverId] := by
      simp [queried, occupied, vacant, Server.start, Db.listServers]
    have goes : afterListing p b64 seed auth request [vacant request.serverId] =
        endExisting auth.userId >>= fun _ =>
          openSession p b64 seed auth request (vacant request.serverId) := by
      simp [afterListing, vacant]
    dsimp only at rest
    rw [listed] at rest
    dsimp only [afterAnswer] at rest
    rw [goes] at rest
    exact not_butOne_looking rest
  · exact not_inserts_self _ inserts

/-- A connect that has not passed its look-up is not committed. -/
theorem Before.not_committed {thread : VpnThread}
    (before : Before p b64 seed thread.call.user s thread.rest) : ¬ Committed thread := by
  rintro ⟨butOne, -⟩
  generalize thread.rest = rest at before butOne
  cases before with
  | starting auth request is => exact not_butOne_connect butOne
  | looking auth request server is => exact not_butOne_looking butOne
  | ending auth request server own is ofUser => exact not_butOne_ending butOne

theorem not_committed_of_onlyEnds {thread : VpnThread} (ends : Keeps OnlyEnds thread.rest) :
    ¬ Committed thread :=
  fun committed => committed.2
    (committed.1.keeps ends fun _ _ => not_onlyEnds_of_inserts)

/-- Where a call of the user is. -/
inductive VpnPhase (p : Primitives) (b64 : Base64Engine) (seed : ByteArr 32) (u : Uuid) (s : Server)
    (rest : VpnRest) : Prop where
  | before (before : Before p b64 seed u s rest)
  | passed (butOne : KeepsButOne SameSessions (Inserts u) rest)
  | quiet (ends : Keeps OnlyEnds rest)

/-- A user has at most one active session, and none while a connect of the user is committed to
insert one; at most one connect of a user is. -/
structure OneOpen (p : Primitives) (b64 : Base64Engine) (seed : ByteArr 32) (q : VpnCalls) :
    Prop where
  sessions : Single q.state
  phases : q.Each fun _ thread => VpnPhase p b64 seed thread.call.user q.state thread.rest
  alone : ∀ (i j : Nat) (thread other : VpnThread), q.threads[i]? = some thread →
    q.threads[j]? = some other → Committed thread → Committed other →
    thread.call.user = other.call.user → i = j
  empty : q.Each fun _ thread => Committed thread → q.state.db.activeOf thread.call.user = []

/-- Every session stays with its user. -/
def Remains (s s' : Server) : Prop :=
  ∀ owner ∈ s.db.vpnSessions.map (fun row => (row.id, row.userId)),
    owner ∈ s'.db.vpnSessions.map fun row => (row.id, row.userId)

theorem VpnPhase.remains (phase : VpnPhase p b64 seed u s rest) (remains : Remains s s') :
    VpnPhase p b64 seed u s' rest := by
  cases phase with
  | passed butOne => exact .passed butOne
  | quiet ends => exact .quiet ends
  | before before =>
      apply VpnPhase.before
      cases before with
      | starting auth request is => exact .starting auth request is
      | looking auth request server is => exact .looking auth request server is
      | ending auth request server own is ofUser =>
          exact .ending auth request server own is (remains _ ofUser)

theorem OnlyEnds.remains (ends : OnlyEnds s s') : Remains s s' := by
  intro owner member
  rw [ends.owners]
  exact member

theorem OnlyEnds.single (ends : OnlyEnds s s') (single : Single s) : Single s' := by
  constructor
  · have ids := congrArg (List.map Prod.fst) ends.owners
    rw [List.map_map, List.map_map] at ids
    have same :
        s'.db.vpnSessions.map Db.VpnSession.id = s.db.vpnSessions.map Db.VpnSession.id := ids
    rw [same]
    exact single.ids
  · exact fun u => Nat.le_trans (ends.active u).length_le (single.single u)

theorem OnlyEnds.empty (ends : OnlyEnds s s') (none_left : s.db.activeOf u = []) :
    s'.db.activeOf u = [] := by
  have left := ends.active u
  rw [none_left] at left
  exact List.sublist_nil.mp left

theorem Inserts.activeOf_other {v : Uuid} (inserts : Inserts u s s') (other : v ≠ u) :
    s'.db.activeOf v = s.db.activeOf v := by
  obtain ⟨row, owner, -, -, added⟩ := inserts
  rw [Db.Tables.activeOf, added, List.filter_append, Db.Tables.activeOf]
  have differs : row.userId ≠ v := by
    rw [owner]
    exact other.symm
  simp [differs]

theorem Inserts.single (inserts : Inserts u s s') (single : Single s)
    (none_left : s.db.activeOf u = []) : Single s' := by
  have other {v : Uuid} := @Inserts.activeOf_other _ _ _ v inserts
  obtain ⟨row, owner, running, fresh, added⟩ := inserts
  constructor
  · rw [added, List.map_append, List.map_singleton]
    refine single.ids.append (List.nodup_singleton _) ?_
    intro id member same
    obtain ⟨old, there, is⟩ := List.mem_map.mp member
    exact fresh old there (is.trans (List.mem_singleton.mp same))
  · intro v
    by_cases is : v = u
    · subst is
      rw [Db.Tables.activeOf] at none_left ⊢
      rw [added, List.filter_append, none_left]
      exact List.length_filter_le _ _
    · rw [other is]
      exact single.single v

theorem Inserts.remains (inserts : Inserts u s s') : Remains s s' := by
  obtain ⟨row, -, -, -, added⟩ := inserts
  intro owner member
  rw [added, List.map_append]
  exact List.mem_append_left _ member

/-- A call has executed a statement: the sessions are still single, its connect is committed only if
no other one of the user is, and whoever is committed has no active session. -/
theorem OneOpen.moved {q : VpnCalls} (oneOpen : OneOpen p b64 seed q) {i : Nat}
    {call : VpnCall} {rest' : VpnRest} (found : q.threads[i]? = some ⟨call, rest⟩)
    (sessions : Single s') (remains : Remains q.state s')
    (phase : VpnPhase p b64 seed call.user s' rest')
    (alone : Committed ⟨call, rest'⟩ → ∀ (j : Nat) (other : VpnThread),
    j ≠ i → q.threads[j]? = some other →
      other.call.user = call.user → ¬ Committed other)
    (empty : Committed ⟨call, rest'⟩ → s'.db.activeOf call.user = [])
    (others : ∀ (j : Nat) (other : VpnThread),
    j ≠ i → q.threads[j]? = some other → Committed other →
      s'.db.activeOf other.call.user = []) :
    OneOpen p b64 seed ⟨s', q.threads.set i ⟨call, rest'⟩⟩ := by
  refine ⟨sessions, ?_, ?_, ?_⟩
  · intro j thread there
    rcases of_getElem?_set there with ⟨rfl, rfl⟩ | ⟨differ, old⟩
    · exact phase
    · exact (oneOpen.phases j thread old).remains remains
  · intro j k thread other there there' committed committed' same
    rcases of_getElem?_set there with ⟨rfl, rfl⟩ | ⟨differ, old⟩
    · rcases of_getElem?_set there' with ⟨rfl, rfl⟩ | ⟨differ', old'⟩
      · rfl
      · exact absurd committed' (alone committed k other differ' old' same.symm)
    · rcases of_getElem?_set there' with ⟨rfl, rfl⟩ | ⟨differ', old'⟩
      · exact absurd committed (alone committed' j thread differ old same)
      · exact oneOpen.alone j k thread other old old' committed committed' same
  · intro j thread there committed
    rcases of_getElem?_set there with ⟨rfl, rfl⟩ | ⟨differ, old⟩
    · exact empty committed
    · exact others j thread differ old committed

/-- A statement after which the connect is committed only if it was before, and at which sessions
may only end. -/
theorem OneOpen.onlyEnds {q : VpnCalls} (oneOpen : OneOpen p b64 seed q) {i : Nat}
    {call : VpnCall} {rest' : VpnRest} (found : q.threads[i]? = some ⟨call, rest⟩)
    (ends : OnlyEnds q.state s') (phase : VpnPhase p b64 seed call.user s' rest')
    (still : Committed ⟨call, rest'⟩ → Committed ⟨call, rest⟩) :
    OneOpen p b64 seed ⟨s', q.threads.set i ⟨call, rest'⟩⟩ := by
  refine oneOpen.moved found (ends.single oneOpen.sessions) ends.remains phase ?_ ?_ ?_
  · intro committed j other differ there same committed'
    exact differ (oneOpen.alone j i other _ there found committed' (still committed) same)
  · exact fun committed => ends.empty (oneOpen.empty i _ found (still committed))
  · exact fun j other _ there committed => ends.empty (oneOpen.empty j other there committed)

theorem OneOpen.run {q : VpnCalls} (oneOpen : OneOpen p b64 seed q) {i : Nat} {c : Chance}
    {call : VpnCall} {effect : Chance → Server → Server} {next : Chance → Server → VpnRest}
    (found : q.threads[i]? = some ⟨call, .step effect next⟩)
    (inTurn : InTurn p b64 seed q (.run i c)) :
    OneOpen p b64 seed ⟨effect c q.state, q.threads.set i ⟨call, next c q.state⟩⟩ := by
  cases oneOpen.phases i _ found with
  | before before =>
      rcases before.step rfl c oneOpen.sessions with ⟨same, goes⟩ | ⟨passes, ends, empty, butOne⟩
      · have phase : VpnPhase p b64 seed call.user (effect c q.state) (next c q.state) ∧
            ¬ Committed ⟨call, next c q.state⟩ := by
          rcases goes with before | ⟨reply, done⟩
          · exact ⟨.before before, Before.not_committed before⟩
          · rw [done]
            exact ⟨.quiet trivial, not_committed_of_onlyEnds trivial⟩
        refine oneOpen.onlyEnds found (onlyEnds_of_same same) phase.1 ?_
        exact fun committed => absurd committed phase.2
      · refine oneOpen.moved found (ends.single oneOpen.sessions) ends.remains
          (.passed butOne) ?_ (fun _ => empty) ?_
        · exact fun _ => inTurn _ found passes
        · exact fun j other _ there committed => ends.empty (oneOpen.empty j other there committed)
  | passed butOne =>
      rcases butOne c q.state with ⟨same, rest⟩ | ⟨inserts, rest⟩
      · refine oneOpen.onlyEnds found (onlyEnds_of_same same) (.passed rest) ?_
        exact fun committed => ⟨butOne, fun keeps => committed.2 (keeps c q.state).2⟩
      · have committed : Committed ⟨call, .step effect next⟩ := by
          refine ⟨butOne, fun keeps => ?_⟩
          exact not_onlyEnds_of_inserts inserts (onlyEnds_of_same (keeps c q.state).1)
        have empty := oneOpen.empty i _ found committed
        refine oneOpen.moved found (inserts.single oneOpen.sessions empty) inserts.remains
          (.passed rest.butOne) ?_ ?_ ?_
        · exact fun committed' => absurd rest committed'.2
        · exact fun committed' => absurd rest committed'.2
        · intro j other differ there committed'
          have another : other.call.user ≠ call.user := fun same =>
            differ (oneOpen.alone j i other _ there found committed' committed same)
          rw [inserts.activeOf_other another]
          exact oneOpen.empty j other there committed'
  | quiet ends =>
      refine oneOpen.onlyEnds found (ends c q.state).1 (.quiet (ends c q.state).2) ?_
      exact fun committed => absurd committed (not_committed_of_onlyEnds (ends c q.state).2)

theorem OneOpen.step {q q' : VpnCalls} {e : VpnEvent} (oneOpen : OneOpen p b64 seed q)
    (stepped : VpnCalls.step p b64 seed q e = some q') (inTurn : InTurn p b64 seed q e) :
    OneOpen p b64 seed q' := by
  cases e with
  | run i c =>
      obtain ⟨call, effect, next, found, rfl⟩ := Pool.step_run.mp stepped
      exact oneOpen.run found inTurn
  | pass seconds =>
      obtain rfl := Option.some.inj stepped
      have remains : Remains q.state (q.state.wait seconds) := fun _ member => member
      refine ⟨⟨oneOpen.sessions.ids, oneOpen.sessions.single⟩, fun j thread there => ?_,
        oneOpen.alone, oneOpen.empty⟩
      exact (oneOpen.phases j thread there).remains remains
  | call call =>
      obtain rfl := Option.some.inj stepped
      have phase : VpnPhase p b64 seed call.user q.state (call.program p b64 seed) ∧
          ¬ Committed ⟨call, call.program p b64 seed⟩ := by
        cases call with
        | connect auth request =>
            have before := @Before.starting p b64 seed _ q.state auth request rfl
            exact ⟨.before before, Before.not_committed before⟩
        | disconnect auth =>
            have ends : Keeps OnlyEnds (VpnCall.program p b64 seed (.disconnect auth)) :=
              onlyEnds_disconnect.map _
            exact ⟨.quiet ends, not_committed_of_onlyEnds ends⟩
      obtain ⟨phase, uncommitted⟩ := phase
      refine ⟨oneOpen.sessions, ?_, ?_, ?_⟩
      · intro j thread there
        rcases of_getElem?_append there with old | ⟨-, rfl⟩
        · exact oneOpen.phases j thread old
        · exact phase
      · intro j k thread other there there' committed committed' same
        rcases of_getElem?_append there with old | ⟨-, rfl⟩
        · rcases of_getElem?_append there' with old' | ⟨-, rfl⟩
          · exact oneOpen.alone j k thread other old old' committed committed' same
          · exact absurd committed' uncommitted
        · exact absurd committed uncommitted
      · intro j thread there committed
        rcases of_getElem?_append there with old | ⟨-, rfl⟩
        · exact oneOpen.empty j thread old committed
        · exact absurd committed uncommitted

theorem oneOpen_start {first : Server} (single : Single first) :
    OneOpen p b64 seed ⟨first, []⟩ := by
  refine ⟨single, ?_, ?_, ?_⟩
  · intro j thread there
    cases there
  · intro i j thread other there
    cases there
  · intro j thread there
    cases there

end

/-- In every run in which no connect passes its look-up while another one of the user is committed,
no user ever has two active sessions. -/
theorem one_session_per_user {p : Primitives} {b64 : Base64Engine} {seed : ByteArr 32}
    {first : Server} {steps : List (VpnCalls × VpnEvent × VpnCalls)} {q : VpnCalls}
    (single : Single first) (run : VpnRun p b64 seed first steps q)
    (inTurn : ∀ x ∈ steps, InTurn p b64 seed x.1 x.2.1) (u : Uuid) :
    (q.state.db.activeOf u).length ≤ 1 := by
  have oneOpen : OneOpen p b64 seed q := by
    refine run.keeps (I := OneOpen p b64 seed) (C := fun q e _ => InTurn p b64 seed q e)
      (oneOpen_start single) ?_ inTurn
    exact fun q e q' stepped turn oneOpen => oneOpen.step stepped turn
  exact oneOpen.sessions.single u

/-- A call that has come to its answer. -/
def VpnThread.ended (thread : VpnThread) : Bool :=
  match thread.rest with
  | .done _ => true
  | _ => false

/-- All calls but one have been answered. -/
def OthersEnded (q : VpnCalls) (i : Nat) : Prop :=
  ∀ j other, j ≠ i → q.threads[j]? = some other → VpnThread.ended other = true

section

variable {p : Primitives} {b64 : Base64Engine} {seed : ByteArr 32} {first : Server}
variable {steps : List (VpnCalls × VpnEvent × VpnCalls)} {m q : VpnCalls}

theorem not_committed_of_ended {thread : VpnThread} (ended : VpnThread.ended thread = true) :
    ¬ Committed thread := by
  intro committed
  apply committed.2
  unfold VpnThread.ended at ended
  split at ended
  · rename_i answered
    rw [answered]
    trivial
  · cases ended

theorem inTurn_of_othersEnded {i : Nat} (ended : OthersEnded q i) (c : Chance) :
    InTurn p b64 seed q (.run i c) := by
  intro thread _ _ j other differ there _
  exact not_committed_of_ended (ended j other differ there)

/-- The statements of one call, one after the other, while the others have been answered. -/
theorem inTurn_follow {i : Nat} {cs : List Chance} (run : VpnRun p b64 seed first steps m)
    (turns : ∀ x ∈ steps, InTurn p b64 seed x.1 x.2.1) (ended : OthersEnded m i)
    (followed : Pool.follow (VpnCall.program p b64 seed) (fun seconds s => s.wait seconds) m
      (cs.map fun c => .run i c) = some q) :
    ∃ steps, VpnRun p b64 seed first steps q ∧ ∀ x ∈ steps, InTurn p b64 seed x.1 x.2.1 := by
  induction cs generalizing steps m with
  | nil =>
      obtain rfl := Option.some.inj followed
      exact ⟨steps, run, turns⟩
  | cons c cs ih =>
      obtain ⟨m', stepped, rest⟩ := Pool.follow_cons.mp followed
      have ended' : OthersEnded m' i := by
        obtain ⟨call, effect, next, -, rfl⟩ := Pool.step_run.mp stepped
        intro j other differ there
        rw [List.getElem?_set_ne (Ne.symm differ)] at there
        exact ended j other differ there
      refine ih (run.next stepped) ?_ ended' rest
      simp only [List.forall_mem_append, List.forall_mem_singleton]
      exact ⟨turns, inTurn_of_othersEnded ended c⟩

/-- A request that begins when all others have been answered, and is handled on its own. -/
theorem inTurn_request {call : VpnCall} {cs : List Chance} (run : VpnRun p b64 seed first steps m)
    (turns : ∀ x ∈ steps, InTurn p b64 seed x.1 x.2.1)
    (ended : m.threads.all VpnThread.ended = true)
    (followed : Pool.follow (VpnCall.program p b64 seed) (fun seconds s => s.wait seconds) m
      (.call call :: cs.map fun c => .run m.threads.length c) = some q) :
    ∃ steps, VpnRun p b64 seed first steps q ∧ ∀ x ∈ steps, InTurn p b64 seed x.1 x.2.1 := by
  obtain ⟨m', stepped, rest⟩ := Pool.follow_cons.mp followed
  refine inTurn_follow (run.next stepped) ?_ ?_ rest
  · simp only [List.forall_mem_append, List.forall_mem_singleton]
    exact ⟨turns, trivial⟩
  · obtain rfl := Option.some.inj stepped
    intro j other differ there
    rcases of_getElem?_append there with old | ⟨last, -⟩
    · exact List.all_eq_true.mp ended other (List.mem_of_getElem? old)
    · exact absurd last differ

end

def osloConnect : VpnCall := .connect (osloUser 1) ⟨.replicate 16 9⟩

theorem single_oslo : Single (oslo 0 [] []) := ⟨List.nodup_nil, fun _ => Nat.zero_le _⟩

/-- The events of a connect that is handled on its own, drawing the same bytes. -/
def connectAlone (i n : Nat) (byte : UInt8) : List VpnEvent :=
  .call osloConnect ::
    (List.replicate n ({ uuid := .replicate 16 byte } : Chance)).map fun c => .run i c

abbrev osloFollow (events : List VpnEvent) : Option VpnCalls :=
  Pool.follow (VpnCall.program .sample .sample (.replicate 32 0)) (fun seconds s => s.wait seconds)
    ⟨oslo 0 [] [], []⟩ events

/-- A user connects, and when that has been answered connects again. -/
theorem one_session_of_oslo : ∃ steps q,
    VpnRun .sample .sample (.replicate 32 0) (oslo 0 [] []) steps q ∧
      q.threads.map VpnThread.ended = [true, true] ∧ q.state.db.vpnSessions.length = 2 ∧
      (q.state.db.activeOf (.replicate 16 1)).length ≤ 1 := by
  have first : (osloFollow (connectAlone 0 12 1)).map (fun q => q.threads.map VpnThread.ended) =
      some [true] := by decide +kernel
  have second : (osloFollow (connectAlone 0 12 1 ++ connectAlone 1 9 2)).map (fun q =>
      (q.threads.map VpnThread.ended, q.state.db.vpnSessions.length)) = some ([true, true], 2) := by
    decide +kernel
  obtain ⟨m, followed, ended⟩ := Option.map_eq_some_iff.mp first
  obtain ⟨q, whole, are⟩ := Option.map_eq_some_iff.mp second
  obtain ⟨allEnded, sessions⟩ := Prod.mk.inj are
  rw [osloFollow, Pool.follow_append] at whole
  obtain ⟨m', again, rest⟩ := Option.bind_eq_some_iff.mp whole
  obtain rfl := Option.some.inj (followed.symm.trans again)
  have one : m.threads.length = 1 := by
    have lengths := congrArg List.length ended
    rwa [List.length_map] at lengths
  have answered : m.threads.all VpnThread.ended = true := by
    have all : (m.threads.map VpnThread.ended).all id = true := by
      rw [ended]
      rfl
    rwa [List.all_map] at all
  obtain ⟨steps, run, turns⟩ := inTurn_request (m := ⟨oslo 0 [] [], []⟩) .start
    (fun x member => by cases member) rfl followed
  rw [connectAlone, ← one] at rest
  obtain ⟨steps, run, turns⟩ := inTurn_request run turns answered rest
  exact ⟨steps, q, run, allEnded, sessions, one_session_per_user single_oslo run turns _⟩

/-- Two connects of a user look for an active session before either inserts one. -/
def overlappingConnects : List VpnEvent :=
  [.call osloConnect, .call osloConnect, .run 0 {}, .run 0 {}, .run 1 {}, .run 1 {}] ++
    List.replicate 10 (.run 0 { uuid := .replicate 16 1 }) ++
    List.replicate 5 (.run 1 { uuid := .replicate 16 2 })

/-- Both have been answered, and the user has two active sessions. -/
theorem two_sessions_of_one_user : ∃ steps q,
    VpnRun .sample .sample (.replicate 32 0) (oslo 0 [] []) steps q ∧ Single (oslo 0 [] []) ∧
      q.threads.all VpnThread.ended = true ∧
      (q.state.db.activeOf (.replicate 16 1)).length = 2 := by
  have connected : (Pool.follow (VpnCall.program .sample .sample (.replicate 32 0))
      (fun seconds s => s.wait seconds) ⟨oslo 0 [] [], []⟩ overlappingConnects).map
      (fun q => (q.threads.all VpnThread.ended, (q.state.db.activeOf (.replicate 16 1)).length)) =
        some (true, 2) := by decide +kernel
  obtain ⟨q, followed, ends⟩ := Option.map_eq_some_iff.mp connected
  obtain ⟨ended, two⟩ := Prod.mk.inj ends
  obtain ⟨steps, run⟩ := Pool.trail_of_follow overlappingConnects followed
  exact ⟨steps, q, run, single_oslo, ended, two⟩

end Hysj.Api
