import Hysj.Api.Vpn
import Hysj.Base.Trail

set_option autoImplicit false

/- Which addresses the active sessions of a VPN server have. -/
namespace Hysj.Api

open Crypto Shared Auth Messaging Program

/-- The last two numbers of the address. -/
def slot (sessionCount : Nat) : Nat × Nat :=
  ((sessionCount + 2) / 256 % 256, max ((sessionCount + 2) % 256) 2)

theorem toNat_and_ff (x : UInt32) : (x &&& 0xFF).toNat = x.toNat % 256 := by
  rw [UInt32.toNat_and]
  exact Nat.and_two_pow_sub_one_eq_mod x.toNat 8

theorem toList_assignIp (n : Nat) : (assignIp n).toList = "10.0.".toList ++
    (Nat.toDigits 10 (slot n).1 ++ '.' :: (Nat.toDigits 10 (slot n).2 ++ "/32".toList)) := by
  have count : (UInt32.ofNat n + 2).toNat = (n + 2) % 2 ^ 32 := by simp
  have third : ((((UInt32.ofNat n + 2) >>> 8) &&& 0xFF).toUInt8).toNat = (slot n).1 := by
    rw [UInt32.toNat_toUInt8, toNat_and_ff, UInt32.toNat_shiftRight, count]
    simp only [slot, UInt32.reduceToNat, Nat.reduceMod, Nat.shiftRight_eq_div_pow]
    omega
  have fourth : ((max ((UInt32.ofNat n + 2) &&& 0xFF) 2).toUInt8).toNat = (slot n).2 := by
    have low := toNat_and_ff (UInt32.ofNat n + 2)
    rw [count] at low
    rw [UInt32.toNat_toUInt8, UInt32.max_def]
    split
    · rename_i small
      rw [UInt32.le_iff_toNat_le, low] at small
      simp only [slot, UInt32.reduceToNat] at small ⊢
      omega
    · rename_i large
      rw [UInt32.le_iff_toNat_le, low] at large
      rw [low]
      simp only [slot, UInt32.reduceToNat] at large ⊢
      omega
  unfold assignIp
  simp only [toString, third, fourth, String.toList_append, Nat.toList_repr, List.append_assoc]
  rfl

/-- Two numbers of sessions come to the same address exactly if they have the same slot. -/
theorem assignIp_inj {m n : Nat} : assignIp m = assignIp n ↔ slot m = slot n := by
  constructor
  · intro same
    have texts := congrArg String.toList same
    rw [toList_assignIp, toList_assignIp] at texts
    have texts := List.append_cancel_left texts
    have dot (rest : List Char) : Json.NumberEnds ('.' :: rest) := by
      intro c is
      obtain rfl := Option.some.inj is
      rfl
    have slash : Json.NumberEnds "/32".toList := by
      intro c is
      obtain rfl := Option.some.inj is
      rfl
    have first := congrArg Json.readNat texts
    rw [Json.readNat_toDigits _ _ (dot _), Json.readNat_toDigits _ _ (dot _), Option.some.injEq,
      Prod.mk.injEq, List.cons.injEq] at first
    have second := congrArg Json.readNat first.2.2
    rw [Json.readNat_toDigits _ _ slash, Json.readNat_toDigits _ _ slash, Option.some.injEq,
      Prod.mk.injEq] at second
    exact Prod.ext first.1 second.1
  · intro same
    apply String.toList_inj.mp
    rw [toList_assignIp, toList_assignIp, same]

/-- The server, and for each session how many sessions its server had when it began. -/
structure VpnState where
  server : Server
  begun : Uuid → Nat

inductive VpnRequest where
  | connect (auth : AuthUser) (request : VpnConnectRequest)
  | disconnect (auth : AuthUser)
  | other

section

variable (p : Primitives) (b64 : Base64Engine) (seed : ByteArr 32)

/-- The sessions that a new session of the user will find on the server. -/
def VpnState.others (m : VpnState) (auth : AuthUser) (request : VpnConnectRequest) :
    List Db.VpnSession :=
  (m.server.withoutSession auth.userId).db.active request.serverId

/-- A request, whatever fails in it, or anything that leaves the sessions alone. -/
def VpnState.step (m : VpnState) (request : VpnRequest) (m' : VpnState) : Prop :=
  match request with
  | .connect auth request =>
      (∃ r, Runs Any (Vpn.connect p b64 seed auth request).run m.server r m'.server) ∧
        m'.begun = fun id =>
          if m.server.db.vpnSessions.any fun row => row.id = id then m.begun id
          else (m.others auth request).length
  | .disconnect auth =>
      (∃ r, Runs Any (Vpn.disconnect auth).run m.server r m'.server) ∧ m'.begun = m.begun
  | .other => m'.server.db.vpnSessions = m.server.db.vpnSessions ∧ m'.begun = m.begun

/-- Whoever is let in finds no session that began at a number of sessions with the same slot. -/
def Apart (m : VpnState) (request : VpnRequest) (_ : VpnState) : Prop :=
  match request with
  | .connect auth request =>
      Room m.server.db request.serverId →
      (m.server.withoutSession auth.userId).db.users.any
        (fun user => user.id = auth.userId) = true →
      UsableKeys p seed (m.server.withoutSession auth.userId) auth.userId →
      ∀ row ∈ m.others auth request, slot (m.begun row.id) ≠ slot (m.others auth request).length
  | _ => True

end

/-- Any two active sessions on a server have different addresses. -/
def UniqueAddresses (s : Server) : Prop :=
  ∀ serverId, ((s.db.active serverId).map Db.VpnSession.assignedIp).Nodup

/-- The addresses are unique, and each is the one for the number at which the session began. -/
structure Assigned (m : VpnState) : Prop where
  unique : UniqueAddresses m.server
  address : ∀ serverId, ∀ row ∈ m.server.db.active serverId,
    row.assignedIp = assignIp (m.begun row.id)

section

variable {s s' : Server} {u serverId : Uuid} {m m' : VpnState} {p : Primitives}
variable {b64 : Base64Engine} {seed : ByteArr 32} {request : VpnRequest}

/-- No session becomes active, and none that stays active changes. -/
def Shrinks (s s' : Server) : Prop :=
  ∀ serverId, (s'.db.active serverId).Sublist (s.db.active serverId)

theorem shrinks_of_same (same : s'.db.vpnSessions = s.db.vpnSessions) : Shrinks s s' := by
  intro serverId
  rw [Db.active_congr same]

theorem shrinks_markEnded {id : Uuid} {now : Nat} : Shrinks s (s.after (Db.markEnded id now)) := by
  intro serverId
  have active : (s.after (Db.markEnded id now)).db.active serverId =
      (s.db.active serverId).filter fun row => row.id ≠ id := Db.active_markEnded
  rw [active]
  exact List.filter_sublist

theorem shrinks_withoutSession : Shrinks s (s.withoutSession u) := by
  rcases active_withoutSession (s := s) (u := u) with ⟨own, -, -, active⟩ | ⟨-, same⟩
  · intro serverId
    rw [active]
    exact List.filter_sublist
  · rw [same]
    exact shrinks_of_same rfl

theorem Assigned.shrinks (assigned : Assigned m) (shrinks : Shrinks m.server m'.server)
    (begun : ∀ serverId, ∀ row ∈ m.server.db.active serverId, m'.begun row.id = m.begun row.id) :
    Assigned m' := by
  constructor
  · intro serverId
    exact (assigned.unique serverId).sublist ((shrinks serverId).map _)
  · intro serverId row member
    have old := (shrinks serverId).subset member
    rw [begun serverId row old]
    exact assigned.address serverId row old

/-- A session that opens at a number of sessions with a slot of its own. -/
theorem Assigned.opens {q : Chance → Prop} {n : Nat} {row : Db.VpnSession} (assigned : Assigned m)
    (known : ∀ serverId, ∀ old ∈ m.server.db.active serverId, m'.begun old.id = m.begun old.id)
    (opens : Opens q m.server u serverId (assignIp n) row m'.server) (begun : m'.begun row.id = n)
    (apart : ∀ old ∈ m.server.db.active serverId, slot (m.begun old.id) ≠ slot n) :
    Assigned m' := by
  have active (id : Uuid) : m'.server.db.active id =
      m.server.db.active id ++ if row.serverId = id then [row] else [] :=
    Db.active_append opens.running opens.sessions
  constructor
  · intro id
    rw [active]
    by_cases is : row.serverId = id
    · rw [if_pos is, List.map_append, List.nodup_append]
      refine ⟨assigned.unique id, List.nodup_singleton _, ?_⟩
      intro address old address' new same
      obtain ⟨session, member, rfl⟩ := List.mem_map.mp old
      rw [List.map_singleton, List.mem_singleton] at new
      rw [new, opens.address, assigned.address id session member, assignIp_inj] at same
      rw [← is, opens.onServer] at member
      exact apart session member same
    · rw [if_neg is, List.append_nil]
      exact assigned.unique id
  · intro id session member
    rw [active, List.mem_append] at member
    rcases member with old | new
    · rw [known id session old]
      exact assigned.address id session old
    · by_cases is : row.serverId = id
      · rw [if_pos is, List.mem_singleton] at new
        rw [new, begun, opens.address]
      · rw [if_neg is] at new
        cases new

theorem Assigned.step (assigned : Assigned m) (taken : m.step p b64 seed request m')
    (apart : Apart p seed m request m') : Assigned m' := by
  cases request with
  | connect auth request =>
      obtain ⟨⟨r, run⟩, begun⟩ := taken
      have known (serverId : Uuid) (row : Db.VpnSession)
          (member : row ∈ m.server.db.active serverId) : m'.begun row.id = m.begun row.id := by
        rw [begun]
        exact if_pos (List.any_eq_true.mpr ⟨row, (Db.mem_active.mp member).1, decide_eq_true rfl⟩)
      rcases under_connect run with same | ⟨-, own, -, half⟩ | ⟨room, same | ⟨usable, row, opens⟩⟩
      · exact assigned.shrinks (shrinks_of_same same.2) known
      · apply assigned.shrinks _ known
        rw [half]
        exact shrinks_markEnded
      · apply assigned.shrinks _ known
        intro serverId
        rw [Db.active_congr same.2]
        exact shrinks_withoutSession serverId
      · have rest : Assigned ⟨m.server.withoutSession auth.userId, m.begun⟩ :=
          assigned.shrinks shrinks_withoutSession fun _ _ _ => rfl
        apply rest.opens _ opens
        · rw [begun]
          apply if_neg
          intro there
          obtain ⟨old, member, is⟩ := List.any_eq_true.mp there
          have listed := List.mem_map_of_mem (f := Db.VpnSession.id) member
          rw [← ids_withoutSession (u := auth.userId)] at listed
          obtain ⟨old', member', is'⟩ := List.mem_map.mp listed
          exact opens.fresh old' member' (is'.trans (of_decide_eq_true is))
        · exact apart room opens.owner usable
        · intro serverId old member
          exact known serverId old ((shrinks_withoutSession serverId).subset member)
  | disconnect auth =>
      obtain ⟨⟨r, run⟩, begun⟩ := taken
      apply assigned.shrinks
      · rcases under_disconnect run with same | ⟨-, own, -, half⟩ | done
        · exact shrinks_of_same same.2
        · rw [half]
          exact shrinks_markEnded
        · rw [done]
          exact shrinks_withoutSession
      · intro serverId row _
        rw [begun]
  | other =>
      apply assigned.shrinks (shrinks_of_same taken.1)
      intro serverId row _
      rw [taken.2]

/-- Whoever is let in against the rule, and gets a session, gets the address of another. -/
theorem Assigned.step_against (assigned : Assigned m) (taken : m.step p b64 seed request m')
    (against : ¬ Apart p seed m request m')
    (opened : m.server.db.vpnSessions.length < m'.server.db.vpnSessions.length) :
    ¬ UniqueAddresses m'.server := by
  cases request with
  | disconnect auth => exact (against trivial).elim
  | other => exact (against trivial).elim
  | connect auth request =>
      obtain ⟨⟨r, run⟩, begun⟩ := taken
      have lengths := congrArg List.length (ids_withoutSession (s := m.server) (u := auth.userId))
      rw [List.length_map, List.length_map] at lengths
      rcases under_connect run with same | ⟨-, own, -, half⟩ | ⟨room, same | ⟨usable, row, opens⟩⟩
      · rw [same.2] at opened
        exact (Nat.lt_irrefl _ opened).elim
      · have ids : m'.server.db.vpnSessions.map Db.VpnSession.id =
            m.server.db.vpnSessions.map Db.VpnSession.id := by
          rw [half]
          exact Db.ids_markEnded
        have ids := congrArg List.length ids
        rw [List.length_map, List.length_map] at ids
        rw [ids] at opened
        exact (Nat.lt_irrefl _ opened).elim
      · rw [same.2, lengths] at opened
        exact (Nat.lt_irrefl _ opened).elim
      · intro unique
        apply against
        intro _ _ _ old member same
        have active : m'.server.db.active request.serverId =
            m.others auth request ++ if row.serverId = request.serverId then [row] else [] :=
          Db.active_append opens.running opens.sessions
        have distinct := unique request.serverId
        rw [active, if_pos opens.onServer, List.map_append, List.nodup_append] at distinct
        have old' := assigned.address request.serverId old
          ((shrinks_withoutSession request.serverId).subset member)
        apply distinct.2.2 _ (List.mem_map_of_mem member) _ (List.mem_map_of_mem List.mem_cons_self)
        rw [old', opens.address]
        exact assignIp_inj.mpr same

end

/-- As long as everyone who is let in finds no session on the server that began at a number of
sessions with the same slot, any two active sessions on a server have different addresses. The
first session that is opened against the rule has the address of another. -/
theorem addresses_unique (p : Primitives) (b64 : Base64Engine) (seed : ByteArr 32)
    (first m : VpnState) (steps : List (VpnState × VpnRequest × VpnState))
    (empty : first.server.db.vpnSessions = [])
    (run : Trail (VpnState.step p b64 seed) first steps m)
    (apart : ∀ x ∈ steps, Apart p seed x.1 x.2.1 x.2.2) :
    UniqueAddresses m.server ∧ ∀ request m', m.step p b64 seed request m' →
      ¬ Apart p seed m request m' →
      m.server.db.vpnSessions.length < m'.server.db.vpnSessions.length →
      ¬ UniqueAddresses m'.server := by
  have none (serverId : Uuid) : first.server.db.active serverId = [] := by
    rw [Db.Tables.active, empty, List.filter_nil]
  have start : Assigned first := by
    constructor
    · intro serverId
      rw [none]
      exact List.nodup_nil
    · intro serverId row member
      rw [none] at member
      cases member
  have assigned : Assigned m :=
    run.keeps start (fun m request m' taken apart assigned => assigned.step taken apart) apart
  constructor
  · exact assigned.unique
  · intro request m' taken against opened
    exact assigned.step_against taken against opened

/-- Three users, and a VPN server in Oslo with some connections. -/
def oslo (connections : Int) (sessions : List Db.VpnSession) (keys : List Db.UserVpnKey) : Server :=
  .start 0
    { users := [.sample (.replicate 16 1), .sample (.replicate 16 2), .sample (.replicate 16 3)]
      vpnServers :=
        [⟨.replicate 16 9, "NO", some "Oslo", "oslo:51820", "key", true, 100, connections⟩]
      vpnSessions := sessions
      userVpnKeys := keys }

def osloUser (byte : UInt8) : AuthUser := ⟨.replicate 16 byte, .replicate 16 byte, "alice"⟩

/-- The session of a user there, begun at a number of sessions. -/
def osloSession (byte : UInt8) (key : String) (n : Nat) (endedAt : Option Nat) : Db.VpnSession :=
  ⟨.replicate 16 byte, .replicate 16 byte, .replicate 16 9, key, assignIp n, 0, endedAt, 0, 0⟩

/-- Requests from a time when nobody was connected. -/
abbrev OsloRun (s : Server) : Prop :=
  ∃ steps begun, Trail (VpnState.step .sample .sample (.replicate 32 0))
    ⟨oslo 0 [] [], fun _ => 0⟩ steps ⟨s, begun⟩

theorem OsloRun.connect {s s' : Server} {r : Except HysjError VpnConnectResponse} (run : OsloRun s)
    (byte : UInt8) (ran : exec (drawing byte) (Vpn.connect .sample .sample (.replicate 32 0)
      (osloUser byte) ⟨.replicate 16 9⟩).run s = some (r, s')) : OsloRun s' := by
  obtain ⟨steps, begun, run⟩ := run
  have taken : VpnState.step .sample .sample (.replicate 32 0) ⟨s, begun⟩
      (.connect (osloUser byte) ⟨.replicate 16 9⟩) ⟨s', _⟩ :=
    ⟨⟨r, runs_of_exec (may_any _) ran⟩, rfl⟩
  exact ⟨_, _, run.next taken⟩

theorem OsloRun.disconnect {s s' : Server} {r : Except HysjError Json.Value} (run : OsloRun s)
    (byte : UInt8)
    (ran : exec (drawing byte) (Vpn.disconnect (osloUser byte)).run s = some (r, s')) :
    OsloRun s' := by
  obtain ⟨steps, begun, run⟩ := run
  have taken : VpnState.step .sample .sample (.replicate 32 0) ⟨s, begun⟩
      (.disconnect (osloUser byte)) ⟨s', begun⟩ := ⟨⟨r, runs_of_exec (may_any _) ran⟩, rfl⟩
  exact ⟨_, _, run.next taken⟩

/-- Two users connect, one after the other. -/
theorem addresses_unique_both : ∃ s, OsloRun s ∧ (s.db.active (.replicate 16 9)).length = 2 ∧
    UniqueAddresses s := by
  obtain ⟨k₁, e₁, first⟩ : ∃ k₁ e₁, VpnState.step .sample .sample (.replicate 32 0)
      ⟨oslo 0 [] [], fun _ => 0⟩ (.connect (osloUser 1) ⟨.replicate 16 9⟩)
      ⟨oslo 1 [osloSession 1 k₁ 0 none] [⟨.replicate 16 1, k₁, e₁, 0⟩], fun _ => 0⟩ := by
    refine ⟨_, _, ⟨_, runs_of_exec (may_any (drawing 1)) rfl⟩, ?_⟩
    funext id
    exact (ite_self _).symm
  obtain ⟨k₂, e₂, begun, second⟩ : ∃ k₂ e₂ begun,
      VpnState.step .sample .sample (.replicate 32 0)
        ⟨oslo 1 [osloSession 1 k₁ 0 none] [⟨.replicate 16 1, k₁, e₁, 0⟩], fun _ => 0⟩
        (.connect (osloUser 2) ⟨.replicate 16 9⟩)
        ⟨oslo 2 [osloSession 1 k₁ 0 none, osloSession 2 k₂ 1 none]
          [⟨.replicate 16 1, k₁, e₁, 0⟩, ⟨.replicate 16 2, k₂, e₂, 0⟩], begun⟩ :=
    ⟨_, _, _, ⟨_, runs_of_exec (may_any (drawing 2)) rfl⟩, rfl⟩
  have run := (Trail.start.next first).next second
  refine ⟨_, ⟨_, _, run⟩, rfl, (addresses_unique _ _ _ _ _ _ rfl run ?_).1⟩
  simp only [List.nil_append, List.forall_mem_append, List.forall_mem_singleton]
  constructor
  · intro _ _ _ row other
    cases other
  · intro _ _ _ row _
    exact show slot 0 ≠ slot 1 by decide

/-- Two users connect, the first disconnects, and a third gets the address of the second. -/
theorem address_reused : ∃ s, OsloRun s ∧ ¬ UniqueAddresses s := by
  have start : OsloRun (oslo 0 [] []) := ⟨_, _, .start⟩
  obtain ⟨k₁, e₁, first⟩ : ∃ k₁ e₁, OsloRun (oslo 1 [osloSession 1 k₁ 0 none]
      [⟨.replicate 16 1, k₁, e₁, 0⟩]) := ⟨_, _, start.connect 1 rfl⟩
  obtain ⟨k₂, e₂, second⟩ :
      ∃ k₂ e₂, OsloRun (oslo 2 [osloSession 1 k₁ 0 none, osloSession 2 k₂ 1 none]
      [⟨.replicate 16 1, k₁, e₁, 0⟩, ⟨.replicate 16 2, k₂, e₂, 0⟩]) := ⟨_, _, first.connect 2 rfl⟩
  have third : OsloRun (oslo 1 [osloSession 1 k₁ 0 (some 0), osloSession 2 k₂ 1 none]
      [⟨.replicate 16 1, k₁, e₁, 0⟩, ⟨.replicate 16 2, k₂, e₂, 0⟩]) := second.disconnect 1 rfl
  obtain ⟨k₃, e₃, fourth⟩ : ∃ k₃ e₃, OsloRun (oslo 2
      [osloSession 1 k₁ 0 (some 0), osloSession 2 k₂ 1 none, osloSession 3 k₃ 1 none]
      [⟨.replicate 16 1, k₁, e₁, 0⟩, ⟨.replicate 16 2, k₂, e₂, 0⟩, ⟨.replicate 16 3, k₃, e₃, 0⟩]) :=
    ⟨_, _, third.connect 3 rfl⟩
  refine ⟨_, fourth, ?_⟩
  intro unique
  have distinct : [assignIp 1, assignIp 1].Nodup := unique (.replicate 16 9)
  simp at distinct

end Hysj.Api
