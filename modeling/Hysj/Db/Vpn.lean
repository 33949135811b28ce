import Mathlib.Data.List.Sort
import Hysj.Db.Tables

set_option autoImplicit false

/- The statements over VPN servers, sessions and keys, and what they do to the sessions that are
active. -/
namespace Hysj.Db

open Crypto Shared

/-- `ORDER BY country, city`; a server without a city comes last. -/
def VpnServer.precedes (a b : VpnServer) : Bool :=
  if a.country = b.country then
    match a.city, b.city with
    | some city, some city' => city ≤ city'
    | _, none => true
    | none, some _ => false
  else a.country < b.country

/-- List all active VPN servers. -/
def listServers : Statement (List VpnServer) := fun t =>
  (.ok ((t.vpnServers.filter fun row => row.isActive).insertionSort fun a b => a.precedes b), t)

/-- The first statement of `create_session`. -/
def insertSession (row : VpnSession) : Statement VpnSession := fun t =>
  if t.vpnSessions.any fun old =>
    old.id = row.id then (.error (duplicateKey "vpn_sessions_pkey"), t)
  else if ¬ t.users.any fun user => user.id = row.userId then
    (.error (.queryFailed "vpn_sessions_user_id_fkey"), t)
  else if ¬ t.vpnServers.any fun server => server.id = row.serverId then
    (.error (.queryFailed "vpn_sessions_server_id_fkey"), t)
  else (.ok row, { t with vpnSessions := t.vpnSessions ++ [row] })

/-- Increment server connection count -/
def incrementConnections (serverId : Uuid) : Statement Unit := fun t =>
  (.ok (), { t with
    vpnServers := t.vpnServers.map fun server =>
      if server.id = serverId then
        { server with currentConnections := server.currentConnections + 1 } else server })

/-- The first statement of `end_session`, which has to affect a row. -/
def markEnded (sessionId : Uuid) (now : Nat) : Statement Unit := fun t =>
  if t.vpnSessions.any fun row => row.id = sessionId ∧ row.endedAt = none then
    (.ok (), { t with
      vpnSessions := t.vpnSessions.map fun row =>
        if row.id = sessionId ∧ row.endedAt = none then { row with endedAt := some now } else row })
  else (.error .notFound, t)

/-- Decrement server connection count -/
def decrementConnections (sessionId : Uuid) : Statement Unit := fun t =>
  let serverId := (t.vpnSessions.find? fun row => row.id = sessionId).map VpnSession.serverId
  (.ok (), { t with
    vpnServers := t.vpnServers.map fun server =>
      if some server.id = serverId then
        { server with currentConnections := max (server.currentConnections - 1) 0 } else server })

/-- `ORDER BY started_at DESC LIMIT 1` -/
def latestSession : List VpnSession → Option VpnSession
  | [] => none
  | row :: rows =>
      match latestSession rows with
      | none => some row
      | some other => if row.startedAt < other.startedAt then some other else some row

/-- Get the user's currently active VPN session, if any. -/
def getActiveSession (userId : Uuid) : Statement (Option VpnSession) := fun t =>
  (.ok (latestSession
    (t.vpnSessions.filter fun row => row.userId = userId ∧ row.endedAt = none)), t)

/-- Store (or replace) VPN keys for a user. -/
def storeVpnKeys (key : UserVpnKey) : Statement Unit := fun t =>
  if ¬ t.users.any fun user => user.id = key.userId then
    (.error (.queryFailed "user_vpn_keys_user_id_fkey"), t)
  else if t.userVpnKeys.any fun row => row.userId = key.userId then
    (.ok (), { t with
      userVpnKeys := t.userVpnKeys.map fun row => if row.userId = key.userId then key else row })
  else (.ok (), { t with userVpnKeys := t.userVpnKeys ++ [key] })

/-- The sessions on a server that have not ended. -/
def Tables.active (t : Tables) (serverId : Uuid) : List VpnSession :=
  t.vpnSessions.filter fun row => row.serverId = serverId ∧ row.endedAt = none

/-- Count active sessions on a server (for IP allocation). -/
def countSessions (serverId : Uuid) : Statement Nat := fun t => (.ok (t.active serverId).length, t)

/-- Get the stored VPN keys for a user. -/
def getVpnKeys (userId : Uuid) : Statement (Option UserVpnKey) := fun t =>
  (.ok (t.userVpnKeys.find? fun row => row.userId = userId), t)

section

variable {t : Tables} {row session : VpnSession} {server : VpnServer}
    {serverId u : Uuid} {now : Nat}
variable {rows : List VpnSession}

theorem mem_active : row ∈ t.active serverId ↔
    row ∈ t.vpnSessions ∧ row.serverId = serverId ∧ row.endedAt = none := by
  rw [Tables.active, List.mem_filter, decide_eq_true_iff]

theorem mem_of_listServers {servers : List VpnServer} (listed : (listServers t).1 = .ok servers)
    (member : server ∈ servers) : server ∈ t.vpnServers ∧ server.isActive = true := by
  obtain rfl := Except.ok.inj listed
  rw [List.mem_insertionSort] at member
  exact List.mem_filter.mp member

theorem mem_of_latestSession (found : latestSession rows = some row) : row ∈ rows := by
  induction rows generalizing row with
  | nil => cases found
  | cons first rows ih =>
      rw [latestSession] at found
      split at found
      · obtain rfl := Option.some.inj found
        exact List.mem_cons_self
      · rename_i other later
        split at found
        · obtain rfl := Option.some.inj found
          exact List.mem_cons_of_mem _ (ih later)
        · obtain rfl := Option.some.inj found
          exact List.mem_cons_self

/-- The session that is found is one of the user's, and active. -/
theorem mem_of_getActiveSession (found : (getActiveSession u t).1 = .ok (some row)) :
    row ∈ t.vpnSessions ∧ row.userId = u ∧ row.endedAt = none := by
  have member := mem_of_latestSession (Except.ok.inj found)
  rw [List.mem_filter, decide_eq_true_iff] at member
  exact member

theorem insertSession_eq_ok {answer : VpnSession}
    (inserted : (insertSession row t).1 = .ok answer) :
    answer = row ∧ t.users.any (fun user => user.id = row.userId) = true ∧
      (∀ old ∈ t.vpnSessions, old.id ≠ row.id) ∧
      (insertSession row t).2 = { t with vpnSessions := t.vpnSessions ++ [row] } := by
  unfold insertSession at inserted ⊢
  split at inserted
  · cases inserted
  · rename_i fresh
    split at inserted
    · cases inserted
    · rename_i user
      split at inserted
      · cases inserted
      · rename_i server
        rw [if_neg fresh, if_neg user, if_neg server]
        refine ⟨(Except.ok.inj inserted).symm, by simpa using user, ?_, rfl⟩
        intro old member same
        exact fresh (List.any_eq_true.mpr ⟨old, member, decide_eq_true same⟩)

theorem insertSession_eq_error {e : DbError} (failed : (insertSession row t).1 = .error e) :
    (insertSession row t).2 = t := by
  unfold insertSession at failed ⊢
  split at failed
  · rename_i known
    rw [if_pos known]
  · rename_i fresh
    split at failed
    · rename_i user
      rw [if_neg fresh, if_pos user]
    · rename_i user
      split at failed
      · rename_i server
        rw [if_neg fresh, if_neg user, if_pos server]
      · cases failed

theorem active_congr {t' : Tables} (same : t'.vpnSessions = t.vpnSessions) :
    t'.active serverId = t.active serverId := by
  rw [Tables.active, same, Tables.active]

theorem active_append {t' : Tables} (running : row.endedAt = none)
    (added : t'.vpnSessions = t.vpnSessions ++ [row]) :
    t'.active serverId =
      t.active serverId ++ if row.serverId = serverId then [row] else [] := by
  rw [Tables.active, added, List.filter_append, Tables.active]
  by_cases is : row.serverId = serverId
  · simp [is, running]
  · simp [is]

/-- A session that has ended is no longer among the active ones of any kind, and the others are as
before. -/
theorem filter_markEnded {id : Uuid} {P : VpnSession → Prop} [DecidablePred P] :
    (markEnded id now t).2.vpnSessions.filter (fun row => P row ∧ row.endedAt = none) =
      (t.vpnSessions.filter fun row => P row ∧ row.endedAt = none).filter
      fun row => row.id ≠ id := by
  unfold markEnded
  rw [List.filter_filter]
  split
  · dsimp only
    rw [List.filter_map]
    have same : ((fun row : VpnSession => decide (P row ∧ row.endedAt = none)) ∘
        fun row =>
        if row.id = id ∧ row.endedAt = none then { row with endedAt := some now } else row) =
        fun row => decide (row.id ≠ id) && decide (P row ∧ row.endedAt = none) := by
      funext row
      by_cases is : row.id = id
      · by_cases on : row.endedAt = none
        · simp [is, on]
        · simp [is, on]
      · simp [is]
    rw [same]
    refine (List.map_congr_left fun row member => ?_).trans (List.map_id _)
    have other : row.id ≠ id := by
      simp only [List.mem_filter, Bool.and_eq_true, decide_eq_true_iff] at member
      exact member.2.1
    simp [other]
  · rename_i absent
    apply List.filter_congr
    intro row member
    by_cases is : row.id = id
    · have ended : row.endedAt ≠ none := fun on =>
        absent (List.any_eq_true.mpr ⟨row, member, decide_eq_true ⟨is, on⟩⟩)
      simp [ended]
    · simp [is]

/-- A session that has ended is no longer active on its server. -/
theorem active_markEnded {id : Uuid} : (markEnded id now t).2.active serverId =
    (t.active serverId).filter fun row => row.id ≠ id :=
  filter_markEnded (P := fun row => row.serverId = serverId)

theorem vpnServers_markEnded {id : Uuid} : (markEnded id now t).2.vpnServers = t.vpnServers := by
  unfold markEnded
  split <;> rfl

theorem serverId_of_markEnded {id : Uuid} (member : row ∈ (markEnded id now t).2.vpnSessions) :
    ∃ old ∈ t.vpnSessions, old.serverId = row.serverId := by
  unfold markEnded at member
  split at member
  · obtain ⟨old, listed, rfl⟩ := List.mem_map.mp member
    refine ⟨old, listed, ?_⟩
    split <;> rfl
  · exact ⟨row, member, rfl⟩

theorem ids_markEnded {id : Uuid} :
    (markEnded id now t).2.vpnSessions.map VpnSession.id = t.vpnSessions.map VpnSession.id := by
  unfold markEnded
  split
  · dsimp only
    rw [List.map_map]
    apply List.map_congr_left
    intro row _
    by_cases is : row.id = id ∧ row.endedAt = none
    · simp [is]
    · simp [is]
  · rfl

/-- Ending a session changes neither its identifier nor its server. -/
theorem serverOf_markEnded (distinct : (t.vpnSessions.map VpnSession.id).Nodup)
    (member : session ∈ t.vpnSessions) :
    ((markEnded session.id now t).2.vpnSessions.find? fun row => row.id = session.id).map
      VpnSession.serverId = some session.serverId := by
  have found : t.vpnSessions.find? (fun row => row.id = session.id) = some session := by
    cases search : t.vpnSessions.find? fun row => row.id = session.id with
    | none =>
        have absent := List.find?_eq_none.mp search session member
        simp at absent
    | some row =>
        have is : row.id = session.id := by simpa using List.find?_some search
        rw [List.inj_on_of_nodup_map distinct (List.mem_of_find?_eq_some search) member is]
  unfold markEnded
  split
  · dsimp only
    rw [List.find?_map]
    have same : ((fun row : VpnSession => decide (row.id = session.id)) ∘
        fun row =>
        if row.id = session.id ∧
        row.endedAt = none then { row with endedAt := some now } else row) =
        fun row => decide (row.id = session.id) := by
      funext row
      by_cases is : row.id = session.id ∧ row.endedAt = none
      · simp [is]
      · simp [is]
    rw [same, found]
    by_cases on : session.endedAt = none
    · simp [on]
    · simp [on]
  · rw [found]
    rfl

/-- A session that ends was one of the active sessions of its server. -/
theorem length_active_markEnded (distinct : (t.vpnSessions.map VpnSession.id).Nodup)
    (member : session ∈ t.active serverId) :
    ((markEnded session.id now t).2.active serverId).length + 1 = (t.active serverId).length := by
  rw [active_markEnded]
  have distinct : ((t.active serverId).map VpnSession.id).Nodup :=
    distinct.sublist (List.filter_sublist.map _)
  have member := List.mem_map_of_mem (f := VpnSession.id) member
  have rest : ((t.active serverId).map VpnSession.id).filter (fun id => id != session.id) =
      ((t.active serverId).filter fun row => row.id ≠ session.id).map VpnSession.id := by
    rw [List.filter_map]
    congr 1
    apply List.filter_congr
    intro row _
    by_cases is : row.id = session.id
    · simp [is]
    · simp [is]
  have removed := List.length_erase_of_mem member
  have positive := List.length_pos_of_mem member
  rw [distinct.erase_eq_filter, rest, List.length_map, List.length_map] at removed
  rw [List.length_map] at positive
  omega

end

end Hysj.Db
