import Hysj.Api.AccountDeletion
import Hysj.Api.TwoFactor
import Hysj.Api.VpnAddresses

set_option autoImplicit false

/- Whether the connections of a VPN server are counted right. -/
namespace Hysj.Api

open Crypto Shared Auth Messaging Program

inductive CapacityRequest where
  | connect (auth : AuthUser) (request : VpnConnectRequest)
  | disconnect (auth : AuthUser)
  | account (request : AuthRequest)
  | other

section

variable (p : Primitives) (jwt : Jwt) (argon2 : Argon2) (b64 : Base64Engine) (config : AppConfig)
variable (seed : ByteArr 32)

/-- A request in which no statement fails, or anything that leaves servers and sessions alone. -/
def CapacityRequest.step (s : Server) (request : CapacityRequest) (s' : Server) : Prop :=
  match request with
  | .connect auth request => ∃ r, Runs Clean (Vpn.connect p b64 seed auth request).run s r s'
  | .disconnect auth => ∃ r, Runs Clean (Vpn.disconnect auth).run s r s'
  | .account request => ∃ r, Runs Clean (request.handle jwt argon2 b64 config).run s r s'
  | .other => SameVpn s s'

/-- The user can be deleted. -/
def Deletable (s : Server) (u : Uuid) : Prop :=
  (∃ user ∈ s.db.users, user.id = u) ∧ ∀ pack ∈ s.db.emojiPacks, pack.creatorId ≠ some u

/-- Whoever deletes an account has no active session. -/
def CapacityRequest.Idle (s : Server) (request : CapacityRequest) (_ : Server) : Prop :=
  match request with
  | .account (.deleteAccount headers) =>
      ∀ auth, extract jwt config s.redis.now headers = .ok auth → Deletable s auth.userId →
        ∀ row ∈ s.db.vpnSessions, row.userId = auth.userId → row.endedAt ≠ none
  | _ => True

end

/-- Every server has as many connections as active sessions, and no more than it may have. -/
def Counted (s : Server) : Prop :=
  ∀ server ∈ s.db.vpnServers,
    server.currentConnections = ((s.db.active server.id).length : Int) ∧
      server.currentConnections ≤ server.maxConnections

/-- The connections are counted right, the keys of both tables are keys, and sessions are on
servers that there are. -/
structure Accounted (s : Server) : Prop where
  counted : Counted s
  servers : (s.db.vpnServers.map Db.VpnServer.id).Nodup
  sessions : (s.db.vpnSessions.map Db.VpnSession.id).Nodup
  hosted : ∀ row ∈ s.db.vpnSessions, ∃ server ∈ s.db.vpnServers, server.id = row.serverId

section

variable {s s' : Server} {u serverId : Uuid} {p : Primitives} {jwt : Jwt} {argon2 : Argon2}
variable {b64 : Base64Engine} {config : AppConfig} {seed : ByteArr 32} {request : CapacityRequest}

theorem Accounted.same (accounted : Accounted s) (same : SameVpn s s') : Accounted s' := by
  obtain ⟨servers, sessions⟩ := same
  constructor
  · intro server member
    rw [servers] at member
    rw [Db.active_congr sessions]
    exact accounted.counted server member
  · rw [servers]
    exact accounted.servers
  · rw [sessions]
    exact accounted.sessions
  · rw [sessions, servers]
    exact accounted.hosted

theorem Accounted.update {f : Db.VpnServer → Db.VpnServer} (accounted : Accounted s)
    (ids : ∀ server, (f server).id = server.id)
    (servers : s'.db.vpnServers = s.db.vpnServers.map f)
    (sessions : (s'.db.vpnSessions.map Db.VpnSession.id).Nodup)
    (hosted : ∀ row ∈ s'.db.vpnSessions, ∃ server ∈ s.db.vpnServers, server.id = row.serverId)
    (counted : ∀ server ∈ s.db.vpnServers,
      (f server).currentConnections = ((s'.db.active server.id).length : Int) ∧
        (f server).currentConnections ≤ (f server).maxConnections) : Accounted s' := by
  have same : (Db.VpnServer.id ∘ f) = Db.VpnServer.id := funext ids
  constructor
  · intro server member
    rw [servers] at member
    obtain ⟨old, listed, rfl⟩ := List.mem_map.mp member
    rw [ids]
    exact counted old listed
  · rw [servers, List.map_map, same]
    exact accounted.servers
  · exact sessions
  · intro row member
    obtain ⟨server, listed, is⟩ := hosted row member
    rw [servers]
    exact ⟨f server, List.mem_map_of_mem listed, (ids server).trans is⟩

theorem vpnServers_ending {own : Db.VpnSession}
    (distinct : (s.db.vpnSessions.map Db.VpnSession.id).Nodup) (there : own ∈ s.db.vpnSessions) :
    (s.ending own.id).db.vpnServers = s.db.vpnServers.map fun server =>
      if server.id = own.serverId then
        { server with currentConnections := max (server.currentConnections - 1) 0 }
        else server := by
  have told : ((Db.markEnded own.id s.redis.now s.db).2.vpnSessions.find? fun row =>
      row.id = own.id).map Db.VpnSession.serverId = some own.serverId :=
    Db.serverOf_markEnded distinct there
  unfold Server.ending Server.after Db.decrementConnections
  dsimp only
  rw [told, Db.vpnServers_markEnded]
  simp only [Option.some.injEq]

/-- The session that ends is told of by its server, and by no other. -/
theorem Accounted.ending {own : Db.VpnSession} (accounted : Accounted s)
    (there : own ∈ s.db.vpnSessions) (running : own.endedAt = none) :
    Accounted (s.ending own.id) := by
  have servers := vpnServers_ending accounted.sessions there
  have sessions : (s.ending own.id).db.vpnSessions =
      (Db.markEnded own.id s.redis.now s.db).2.vpnSessions := rfl
  have active (serverId : Uuid) : (s.ending own.id).db.active serverId =
      (s.db.active serverId).filter fun row => row.id ≠ own.id := Db.active_markEnded
  refine accounted.update ?_ servers ?_ ?_ ?_
  · intro server
    split <;> rfl
  · rw [sessions, Db.ids_markEnded]
    exact accounted.sessions
  · intro row member
    rw [sessions] at member
    obtain ⟨old, listed, is⟩ := Db.serverId_of_markEnded member
    rw [← is]
    exact accounted.hosted old listed
  · intro server listed
    obtain ⟨count, bound⟩ := accounted.counted server listed
    by_cases is : server.id = own.serverId
    · have member : own ∈ s.db.active server.id := Db.mem_active.mpr ⟨there, is.symm, running⟩
      have length : ((s.ending own.id).db.active server.id).length + 1 =
          (s.db.active server.id).length := Db.length_active_markEnded accounted.sessions member
      rw [if_pos is]
      dsimp only
      omega
    · have untouched : (s.db.active server.id).filter (fun row => row.id ≠ own.id) =
          s.db.active server.id := by
        apply List.filter_eq_self.mpr
        intro row member
        obtain ⟨listed, at_, -⟩ := Db.mem_active.mp member
        apply decide_eq_true
        intro same
        rw [List.inj_on_of_nodup_map accounted.sessions listed there same] at at_
        exact is at_.symm
      rw [active, untouched, if_neg is]
      exact ⟨count, bound⟩

theorem Accounted.withoutSession (accounted : Accounted s) : Accounted (s.withoutSession u) := by
  rcases active_withoutSession (s := s) (u := u) with ⟨own, found, is, -⟩ | ⟨-, same⟩
  · obtain ⟨there, -, running⟩ := Db.mem_of_getActiveSession found
    rw [is]
    exact accounted.ending there running
  · rw [same]
    exact accounted

/-- Where there is room there is still room after a session of the user has ended. -/
theorem Accounted.room (accounted : Accounted s) (room : Room s.db serverId) :
    (∃ server ∈ (s.withoutSession u).db.vpnServers, server.id = serverId) ∧
      ∀ server ∈ (s.withoutSession u).db.vpnServers, server.id = serverId →
        server.currentConnections < server.maxConnections := by
  obtain ⟨free, listed, -, is, less⟩ := room
  have only {server : Db.VpnServer} (member : server ∈ s.db.vpnServers)
      (at_ : server.id = serverId) :
      server = free :=
    List.inj_on_of_nodup_map accounted.servers member listed (at_.trans is.symm)
  rcases active_withoutSession (s := s) (u := u) with ⟨own, found, same, -⟩ | ⟨-, same⟩
  · obtain ⟨there, -, -⟩ := Db.mem_of_getActiveSession found
    rw [same, vpnServers_ending accounted.sessions there]
    constructor
    · refine ⟨_, List.mem_map_of_mem listed, ?_⟩
      split <;> exact is
    · intro server member at_
      obtain ⟨old, listed, rfl⟩ := List.mem_map.mp member
      have count := (accounted.counted old listed).1
      by_cases told : old.id = own.serverId
      · rw [if_pos told] at at_ ⊢
        rw [only listed at_] at count ⊢
        dsimp only
        omega
      · rw [if_neg told] at at_ ⊢
        rw [only listed at_]
        exact less
  · rw [same]
    refine ⟨⟨free, listed, is⟩, fun server member at_ => ?_⟩
    rw [only member at_]
    exact less

theorem Accounted.opens {q : Chance → Prop} {address : String} {row : Db.VpnSession}
    (accounted : Accounted s) (clean : ∀ c, q c → c.fault = none)
    (opens : Opens q s u serverId address row s')
    (there : ∃ server ∈ s.db.vpnServers, server.id = serverId)
    (room : ∀ server ∈ s.db.vpnServers, server.id = serverId →
      server.currentConnections < server.maxConnections) : Accounted s' := by
  have servers : s'.db.vpnServers = s.db.vpnServers.map fun server =>
      if server.id = serverId then
        { server with currentConnections := server.currentConnections + 1 } else server := by
    rcases opens.servers with told | ⟨-, c, allowed, fault⟩
    · exact told
    · exact (fault (clean c allowed)).elim
  have active (id : Uuid) : s'.db.active id =
      s.db.active id ++ if row.serverId = id then [row] else [] :=
    Db.active_append opens.running opens.sessions
  refine accounted.update ?_ servers ?_ ?_ ?_
  · intro server
    split <;> rfl
  · rw [opens.sessions, List.map_append, List.nodup_append]
    refine ⟨accounted.sessions, List.nodup_singleton _, ?_⟩
    intro id known id' new same
    obtain ⟨old, listed, rfl⟩ := List.mem_map.mp known
    rw [List.map_singleton, List.mem_singleton] at new
    exact opens.fresh old listed (same.trans new)
  · intro row' member
    rw [opens.sessions, List.mem_append, List.mem_singleton] at member
    rcases member with old | rfl
    · exact accounted.hosted row' old
    · rw [opens.onServer]
      exact there
  · intro server listed
    obtain ⟨count, bound⟩ := accounted.counted server listed
    rw [active, opens.onServer]
    by_cases is : server.id = serverId
    · have free := room server listed is
      rw [if_pos is, if_pos is.symm, List.length_append]
      dsimp only
      simp only [List.length_singleton]
      omega
    · rw [if_neg is, if_neg (Ne.symm is), List.append_nil]
      exact ⟨count, bound⟩

theorem Accounted.connect {auth : AuthUser} {request : VpnConnectRequest}
    {r : Except HysjError VpnConnectResponse} (accounted : Accounted s)
    (run : Runs Clean (Vpn.connect p b64 seed auth request).run s r s') : Accounted s' := by
  rcases under_connect (p := fun c => c.fault = none) run with
    same | ⟨⟨c, clean, fault⟩, -⟩ | ⟨room, same | ⟨-, row, opens⟩⟩
  · exact accounted.same same
  · exact (fault clean).elim
  · exact accounted.withoutSession.same same
  · obtain ⟨there, free⟩ := accounted.room room
    exact accounted.withoutSession.opens (fun _ clean => clean) opens there free

theorem Accounted.disconnect {auth : AuthUser} {r : Except HysjError Json.Value}
    (accounted : Accounted s) (run : Runs Clean (Vpn.disconnect auth).run s r s') :
    Accounted s' := by
  rcases under_disconnect
    (p := fun c => c.fault = none) run with same | ⟨⟨c, clean, fault⟩, -⟩ | done
  · exact accounted.same same
  · exact (fault clean).elim
  · rw [done]
    exact accounted.withoutSession

theorem sameVpn_registerWrites : RegisterWrites SameVpn := by
  refine ⟨sameVpn_refl, fun _ _ => ⟨rfl, rfl⟩, fun s user => ?_, fun s device => ?_,
    fun s d key => ?_⟩
  · unfold Db.createUser
    split
    · exact sameVpn_refl s
    · split
      · exact sameVpn_refl s
      · split <;> exact ⟨rfl, rfl⟩
  · unfold Db.registerDevice
    split
    · exact sameVpn_refl s
    · split <;> exact ⟨rfl, rfl⟩
  · obtain ⟨rows, serial, same⟩ := Db.storePreKey_snd d key s.db
    rw [same]
    exact ⟨rfl, rfl⟩

theorem sameVpn_loginWrites : LoginWrites SameVpn := by
  refine ⟨sameVpn_refl, fun _ _ => ⟨rfl, rfl⟩, fun s ip u success now => ?_, fun s u now => ?_⟩
  · obtain ⟨rows, serial, same⟩ := Db.recordAttempt_snd ip u success now s.db
    rw [same]
    exact ⟨rfl, rfl⟩
  · unfold Db.updateLastSeen Db.updateUser
    split <;> exact ⟨rfl, rfl⟩

theorem sameVpn_deleteDevice (auth : AuthUser) (d : Uuid) :
    Keeps SameVpn (deleteDevice auth d).run := by
  apply keeps_deleteDevice sameVpn_refl
  · intro _ s
    unfold Server.after Db.deleteDevice
    split <;> exact ⟨rfl, rfl⟩
  · exact fun _ => ⟨rfl, rfl⟩

theorem sameVpn_account {request : AuthRequest}
    (stays : ∀ headers, request ≠ .deleteAccount headers) :
    Keeps SameVpn (request.handle jwt argon2 b64 config).run := by
  cases request with
  | register headers request =>
      exact Keeps.run_bind (sameVpn_registerWrites.register headers request) fun _ => keeps_pure _
  | login headers request =>
      exact Keeps.run_bind (sameVpn_loginWrites.login headers request) fun _ => keeps_pure _
  | refresh request =>
      exact Keeps.run_bind (keeps_refresh sameVpn_refl request) fun _ => keeps_pure _
  | deleteDevice headers d =>
      refine Keeps.run_bind (keeps_fromRequestParts sameVpn_refl headers) fun auth => ?_
      exact Keeps.run_bind (sameVpn_deleteDevice auth d) fun _ => keeps_pure _
  | deleteAccount headers => exact (stays headers rfl).elim

/-- The deletion of an account is the one statement for the user of the token. -/
theorem clean_deleteAccount {headers : HeaderMap} {r : Except HysjError (Option LoginResponse)}
    (run : Runs Clean
    (AuthRequest.handle jwt argon2 b64 config (.deleteAccount headers)).run s r s') :
    (∃ auth, extract jwt config s.redis.now headers = .ok auth ∧
      s' = s.after (Db.deleteUser auth.userId)) ∨
    (∃ e, extract jwt config s.redis.now headers = .error e) ∧ s' = s := by
  have possible : ∃ c : Chance, c.fault = none := ⟨{}, rfl⟩
  rcases (under_authorised (p := fun c => c.fault = none) possible).mp run with
    ⟨auth, extracted, run⟩ | ⟨e, refused, -, same⟩
  · refine Or.inl ⟨auth, extracted, ?_⟩
    rcases runs_run_bind.mp run with ⟨answer, m, ran, rest⟩ | ⟨e, -, ran⟩
    · obtain ⟨-, rfl⟩ := runs_run_pure.mp rest
      exact (runs_deleteAccount_iff.mp ran).1.symm
    · exact (runs_deleteAccount_iff.mp ran).1.symm
  · exact Or.inr ⟨⟨e, refused⟩, same.symm⟩

theorem after_deleteUser : Deletable s u ∧ (s.after (Db.deleteUser u)).db = s.db.withoutUser u ∨
    ¬ Deletable s u ∧ s.after (Db.deleteUser u) = s := by
  unfold Server.after Db.deleteUser Deletable
  by_cases there : s.db.users.any (fun row => row.id = u) = true
  · rw [if_pos there]
    simp only [List.any_eq_true, decide_eq_true_iff] at there
    by_cases blocked : s.db.emojiPacks.any (fun row => row.creatorId = some u) = true
    · rw [if_pos blocked]
      simp only [List.any_eq_true, decide_eq_true_iff] at blocked
      obtain ⟨pack, member, own⟩ := blocked
      exact Or.inr ⟨fun deletable => deletable.2 pack member own, rfl⟩
    · rw [if_neg blocked]
      refine Or.inl ⟨⟨there, fun pack member own => blocked ?_⟩, rfl⟩
      exact List.any_eq_true.mpr ⟨pack, member, decide_eq_true own⟩
  · rw [if_neg there]
    refine Or.inr ⟨fun deletable => there ?_, rfl⟩
    obtain ⟨⟨user, member, is⟩, -⟩ := deletable
    exact List.any_eq_true.mpr ⟨user, member, decide_eq_true is⟩

theorem active_withoutUser {t : Db.Tables} : (t.withoutUser u).active serverId =
    (t.active serverId).filter fun row => row.userId ≠ u := by
  unfold Db.Tables.active
  rw [List.filter_filter]
  show (t.vpnSessions.filter fun row => row.userId ≠ u).filter _ = _
  rw [List.filter_filter]
  apply List.filter_congr
  intro row _
  exact Bool.and_comm _ _

/-- The sessions of someone who has none that is active go unnoticed. -/
theorem Accounted.deleteUser (accounted : Accounted s)
    (idle : Deletable s u → ∀ row ∈ s.db.vpnSessions, row.userId = u → row.endedAt ≠ none) :
    Accounted (s.after (Db.deleteUser u)) := by
  rcases after_deleteUser (s := s) (u := u) with ⟨deletable, gone⟩ | ⟨-, same⟩
  swap
  · rw [same]
    exact accounted
  have sessions : (s.after (Db.deleteUser u)).db.vpnSessions =
      s.db.vpnSessions.filter fun row => row.userId ≠ u := by
    rw [gone]
    rfl
  have servers : (s.after (Db.deleteUser u)).db.vpnServers = s.db.vpnServers := by
    rw [gone]
    rfl
  constructor
  · intro server member
    rw [servers] at member
    have untouched : (s.db.active server.id).filter (fun row => row.userId ≠ u) =
        s.db.active server.id := by
      apply List.filter_eq_self.mpr
      intro row active
      obtain ⟨listed, -, running⟩ := Db.mem_active.mp active
      exact decide_eq_true fun own => idle deletable row listed own running
    rw [gone, active_withoutUser, untouched]
    exact accounted.counted server member
  · rw [servers]
    exact accounted.servers
  · rw [sessions]
    exact accounted.sessions.sublist (List.filter_sublist.map _)
  · intro row member
    rw [sessions] at member
    rw [servers]
    exact accounted.hosted row (List.mem_filter.mp member).1

theorem Accounted.not_counted (accounted : Accounted s) (deletable : Deletable s u)
    {row : Db.VpnSession} (listed : row ∈ s.db.vpnSessions) (own : row.userId = u)
    (running : row.endedAt = none) : ¬ Counted (s.after (Db.deleteUser u)) := by
  intro counted
  rcases after_deleteUser (s := s) (u := u) with ⟨-, gone⟩ | ⟨not, -⟩
  swap
  · exact not deletable
  obtain ⟨server, there, is⟩ := accounted.hosted row listed
  have before := (accounted.counted server there).1
  have after : server.currentConnections =
      (((s.db.active server.id).filter fun row => row.userId ≠ u).length : Int) := by
    have there' : server ∈ (s.after (Db.deleteUser u)).db.vpnServers := by
      rw [gone]
      exact there
    have count := (counted server there').1
    rw [gone, active_withoutUser] at count
    exact count
  have fewer : ((s.db.active server.id).filter fun row => row.userId ≠ u).length <
      (s.db.active server.id).length := by
    apply List.length_filter_lt_length_iff_exists.mpr
    exact ⟨row, Db.mem_active.mpr ⟨listed, is.symm, running⟩, by simp [own]⟩
  omega

theorem Accounted.step (accounted : Accounted s)
    (taken : request.step p jwt argon2 b64 config seed s s')
    (idle : request.Idle jwt config s s') : Accounted s' := by
  cases request with
  | connect auth request =>
      obtain ⟨r, run⟩ := taken
      exact accounted.connect run
  | disconnect auth =>
      obtain ⟨r, run⟩ := taken
      exact accounted.disconnect run
  | other => exact accounted.same taken
  | account request =>
      obtain ⟨r, run⟩ := taken
      by_cases deletes : ∃ headers, request = .deleteAccount headers
      · obtain ⟨headers, rfl⟩ := deletes
        rcases clean_deleteAccount run with ⟨auth, extracted, rfl⟩ | ⟨-, rfl⟩
        · exact accounted.deleteUser (idle auth extracted)
        · exact accounted
      · have keeps : Keeps SameVpn (request.handle jwt argon2 b64 config).run :=
          sameVpn_account fun headers is => deletes ⟨headers, is⟩
        exact accounted.same (run.keeps keeps sameVpn_refl fun _ _ _ => sameVpn_trans)

theorem Accounted.step_against (accounted : Accounted s)
    (taken : request.step p jwt argon2 b64 config seed s s')
    (against : ¬ request.Idle jwt config s s') : ¬ Counted s' := by
  cases request with
  | connect auth request => exact (against trivial).elim
  | disconnect auth => exact (against trivial).elim
  | other => exact (against trivial).elim
  | account request =>
      cases request with
      | register headers request => exact (against trivial).elim
      | login headers request => exact (against trivial).elim
      | refresh request => exact (against trivial).elim
      | deleteDevice headers d => exact (against trivial).elim
      | deleteAccount headers =>
          obtain ⟨r, run⟩ := taken
          intro counted
          apply against
          intro auth extracted deletable row listed own running
          rcases clean_deleteAccount run with ⟨auth', extracted', rfl⟩ | ⟨⟨e, refused⟩, -⟩
          · rw [extracted] at extracted'
            obtain rfl := Except.ok.inj extracted'
            exact accounted.not_counted deletable listed own running counted
          · rw [extracted] at refused
            cases refused

end

/-- Nobody is connected, and no two servers have one identifier. -/
structure Vacant (s : Server) : Prop where
  sessions : s.db.vpnSessions = []
  connections : ∀ server ∈ s.db.vpnServers,
    server.currentConnections = 0 ∧ 0 ≤ server.maxConnections
  servers : (s.db.vpnServers.map Db.VpnServer.id).Nodup

/-- Connections are counted right throughout a run exactly if nobody deletes an account with an
active session. -/
theorem connections_counted_iff (p : Primitives) (jwt : Jwt) (argon2 : Argon2) (b64 : Base64Engine)
    (config : AppConfig) (seed : ByteArr 32) (first s : Server) (vacant : Vacant first)
    (steps : List (Server × CapacityRequest × Server))
    (run : Trail
    (fun s request s' => CapacityRequest.step p jwt argon2 b64 config seed s request s')
      first steps s) :
    (Counted first ∧ ∀ x ∈ steps, Counted x.2.2) ↔
      ∀ x ∈ steps, CapacityRequest.Idle jwt config x.1 x.2.1 x.2.2 := by
  have start : Accounted first := by
    constructor
    · intro server member
      obtain ⟨none, least⟩ := vacant.connections server member
      rw [none, Db.Tables.active, vacant.sessions]
      exact ⟨rfl, least⟩
    · exact vacant.servers
    · rw [vacant.sessions]
      exact List.nodup_nil
    · rw [vacant.sessions]
      intro row member
      cases member
  rw [and_iff_right start.counted]
  apply Trail.good_iff start _ _ _ run
  · intro s request s' taken idle accounted
    exact accounted.step taken idle
  · intro s accounted
    exact accounted.counted
  · intro s request s' taken accounted against
    exact accounted.step_against taken against

theorem vacant_oslo : Vacant (oslo 0 [] []) := by
  constructor
  · rfl
  · intro server member
    rw [List.mem_singleton.mp member]
    exact ⟨rfl, by decide⟩
  · exact List.nodup_singleton _

theorem connected_oslo :
    ∃ k e, CapacityRequest.step .sample .sample .sample .sample ⟨none, "secret"⟩
    (.replicate 32 0) (oslo 0 [] []) (.connect (osloUser 1) ⟨.replicate 16 9⟩)
    (oslo 1 [osloSession 1 k 0 none] [⟨.replicate 16 1, k, e, 0⟩]) :=
  ⟨_, _, _, runs_of_exec (clean_drawing 1) rfl⟩

/-- It is counted. -/
theorem connections_counted_iff_connected : ∃ s, Trail (fun s request s' =>
      CapacityRequest.step .sample .sample .sample .sample ⟨none, "secret"⟩
      (.replicate 32 0) s request s')
      (oslo 0 [] []) [(oslo 0 [] [], .connect (osloUser 1) ⟨.replicate 16 9⟩, s)] s ∧
    s.db.vpnSessions.length = 1 ∧ Counted s := by
  obtain ⟨k, e, taken⟩ := connected_oslo
  have run := Trail.start.next taken
  have counted := connections_counted_iff .sample .sample .sample .sample ⟨none, "secret"⟩
    (.replicate 32 0) _ _ vacant_oslo _ run
  refine ⟨_, run, rfl, (counted.mpr ?_).2 _ List.mem_cons_self⟩
  intro x member
  rw [List.mem_singleton.mp member]
  trivial

/-- A user connects and deletes the account, and the server still counts the connection. -/
theorem connection_of_nobody : ∃ headers steps s, Trail (fun s request s' =>
      CapacityRequest.step .sample .sample .sample .sample ⟨none, "secret"⟩
      (.replicate 32 0) s request s')
      (oslo 0 [] []) steps s ∧ (steps.map fun x => x.2.1) =
        [.connect (osloUser 1) ⟨.replicate 16 9⟩, .account (.deleteAccount headers)] ∧
    Vacant (oslo 0 [] []) ∧ s.db.vpnSessions = [] ∧ ¬ Counted s := by
  obtain ⟨token, made⟩ : ∃ token, createAccessToken .sample 0 (.replicate 16 1) (.replicate 16 1)
      "alice" "secret" = .ok token := ⟨_, rfl⟩
  have minted : Minted .sample ⟨none, "secret"⟩ token (.replicate 16 1) (.replicate 16 1)
      (0 + ACCESS_TOKEN_EXPIRY_SECONDS) := ⟨_, createToken_eq_ok.mp made, rfl, rfl, rfl⟩
  obtain ⟨⟨u, d, name⟩, extracted, is, -⟩ :=
    extract_of_minted Jwt.sample_lawful minted (Nat.zero_le _)
  dsimp only at is
  rw [is] at extracted
  obtain ⟨k, e, connected⟩ := connected_oslo
  let m := oslo 1 [osloSession 1 k 0 none] [⟨.replicate 16 1, k, e, 0⟩]
  have deleted : CapacityRequest.step .sample .sample .sample .sample ⟨none, "secret"⟩
      (.replicate 32 0) m (.account (.deleteAccount fun _ => some ("Bearer " ++ token)))
      (m.after (Db.deleteUser (.replicate 16 1))) := by
    have possible : ∃ c : Chance, c.fault = none := ⟨{}, rfl⟩
    refine ⟨.ok none, (under_authorised (p := fun c => c.fault = none) possible).mpr ?_⟩
    refine Or.inl ⟨_, extracted, ?_⟩
    apply runs_run_bind_ok.mpr
    exact ⟨_, _, runs_deleteAccount_iff.mpr ⟨rfl, rfl⟩, runs_run_pure.mpr ⟨rfl, rfl⟩⟩
  refine ⟨_, _, _, (Trail.start.next connected).next deleted, rfl, vacant_oslo, rfl, ?_⟩
  intro counted
  have none : (1 : Int) = 0 := (counted _ List.mem_cons_self).1
  cases none

end Hysj.Api
