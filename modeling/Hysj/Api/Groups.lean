import Hysj.Api.Registration
import Hysj.Db.Groups

set_option autoImplicit false

/- The endpoints over groups, and what each of them does to groups and their members. -/
namespace Hysj.Shared

structure CreateGroupRequest where
  name : String
  isAnonymous : Bool
  memberIds : List Uuid

structure GroupMemberDto where
  userId : Uuid
  aliasName : Option String
  aliasColor : Option String
  role : String
  joinedAt : Nat

structure GroupResponse where
  id : Uuid
  name : String
  isAnonymous : Bool
  members : List GroupMemberDto
  createdAt : Nat

structure AddMemberRequest where
  userId : Uuid

structure UpdateGroupNameRequest where
  name : String

/-- Query parameters for paginated list endpoints. -/
structure PaginationParams where
  limit : Int := 50
  offset : Int := 0

end Hysj.Shared

namespace Hysj.Api

open Crypto Shared Auth Messaging Program

namespace Groups

/-- `hysj_db::groups::delete_group` -/
def deleteGroupRows (groupId : Uuid) : Task DbError Bool := do
  query fun _ => Db.Groups.deleteMembers groupId
  query fun _ => Db.Groups.deleteRow groupId

def memberDto (row : Db.GroupMember) : GroupMemberDto :=
  ⟨row.userId, row.aliasName, row.aliasColor, row.role, row.joinedAt⟩

def buildGroupResponse (groupId : Uuid) : Task HysjError GroupResponse := do
  let group ← ExceptT.adapt (fun _ => .groupNotFound groupId)
    (query fun _ => Db.Groups.findById groupId)
  let members ← ExceptT.adapt .ofDb (query fun _ => Db.getMembers groupId)
  return ⟨group.id, group.name, group.isAnonymous, members.map memberDto, group.createdAt⟩

def checkName (name : String) : Except HysjError Unit :=
  if name = "" ∨ 64 < name.utf8ByteSize then
    .error (.validationError "Group name must be 1-64 characters")
  else .ok ()

/-- What the endpoints for admins begin with. -/
def requireAdmin (auth : AuthUser) (groupId : Uuid) (forbidden : String) :
    Task HysjError Unit := do
  match ← ExceptT.adapt .ofDb (query fun _ => Db.Groups.getMemberRole groupId auth.userId) with
  | some role => if role = "admin" then return () else throw (.forbidden forbidden)
  | none => throw (.groupNotFound groupId)

/-- One of the members that the creator of a group names. -/
def addNamed (auth : AuthUser) (groupId memberId : Uuid) : Task HysjError Unit := do
  if memberId ≠ auth.userId then
    let _ ← ExceptT.adapt .ofDb (query fun now => Db.Groups.addMember groupId memberId "member" now)

/-- `POST /api/groups` -/
def createGroup (auth : AuthUser) (request : CreateGroupRequest) :
    Task HysjError GroupResponse := do
  ofResult (checkName request.name)
  let id ← random
  let group ← ExceptT.adapt .ofDb (query fun now =>
    Db.Groups.createGroup id request.name auth.userId request.isAnonymous now)
  let _ ← ExceptT.adapt .ofDb (query fun now =>
    Db.Groups.addMember group.id auth.userId "admin" now)
  forM request.memberIds fun memberId => addNamed auth group.id memberId
  buildGroupResponse group.id

/-- `GET /api/groups` -/
def listGroups (auth : AuthUser) (pagination : PaginationParams) :
    Task HysjError (List GroupResponse) := do
  let groups ← ExceptT.adapt .ofDb (query fun _ =>
    Db.Groups.listGroupsForUserPaginated auth.userId pagination.limit pagination.offset)
  groups.mapM fun group => buildGroupResponse group.id

/-- `GET /api/groups/:group_id` -/
def getGroup (auth : AuthUser) (groupId : Uuid) : Task HysjError GroupResponse := do
  if ← ExceptT.adapt .ofDb (query fun _ => Db.isMember groupId auth.userId) then
    buildGroupResponse groupId
  else throw (.groupNotFound groupId)

/-- `POST /api/groups/:group_id/members` -/
def addMember (auth : AuthUser) (groupId : Uuid) (request : AddMemberRequest) :
    Task HysjError Json.Value := do
  requireAdmin auth groupId "Only group admins can add members"
  let _ ← ExceptT.adapt .ofDb (query fun now =>
    Db.Groups.addMember groupId request.userId "member" now)
  return .obj [("added", .bool true)]

/-- `DELETE /api/groups/:group_id/members/:user_id` -/
def removeMember (auth : AuthUser) (groupId userId : Uuid) : Task HysjError Json.Value := do
  requireAdmin auth groupId "Only group admins can remove members"
  if userId = auth.userId then
    throw (.validationError "Cannot remove yourself; use leave instead")
  else
    if ← ExceptT.adapt .ofDb (query fun _ => Db.Groups.removeMember groupId userId) then
      return .obj [("removed", .bool true)]
    else throw (.validationError "User is not a member of this group")

/-- `POST /api/groups/:group_id/leave` -/
def leaveGroup (auth : AuthUser) (groupId : Uuid) : Task HysjError Json.Value := do
  if ← ExceptT.adapt .ofDb (query fun _ => Db.Groups.removeMember groupId auth.userId) then
    return .obj [("left", .bool true)]
  else throw (.groupNotFound groupId)

/-- `DELETE /api/groups/:group_id` -/
def deleteGroup (auth : AuthUser) (groupId : Uuid) : Task HysjError Json.Value := do
  requireAdmin auth groupId "Only group admins can delete the group"
  if ← ExceptT.adapt .ofDb (deleteGroupRows groupId) then return .obj [("deleted", .bool true)]
  else throw (.groupNotFound groupId)

/-- `PUT /api/groups/:group_id` -/
def updateGroup (auth : AuthUser) (groupId : Uuid) (request : UpdateGroupNameRequest) :
    Task HysjError Json.Value := do
  ofResult (checkName request.name)
  requireAdmin auth groupId "Only group admins can update the group"
  ExceptT.adapt .ofDb (query fun _ => Db.Groups.updateGroupName groupId request.name)
  return .obj [("status", .str "group_updated")]

end Groups

/-- The requests that may touch groups or members. -/
inductive GroupRequest where
  | createGroup (request : CreateGroupRequest)
  | listGroups (pagination : PaginationParams)
  | getGroup (groupId : Uuid)
  | addMember (groupId : Uuid) (request : AddMemberRequest)
  | removeMember (groupId userId : Uuid)
  | leaveGroup (groupId : Uuid)
  | deleteGroup (groupId : Uuid)
  | updateGroup (groupId : Uuid) (request : UpdateGroupNameRequest)
  | deleteAccount

def GroupRequest.handle (auth : AuthUser) : GroupRequest → Task HysjError Unit
  | .createGroup request => do let _ ← Groups.createGroup auth request
  | .listGroups pagination => do let _ ← Groups.listGroups auth pagination
  | .getGroup groupId => do let _ ← Groups.getGroup auth groupId
  | .addMember groupId request => do let _ ← Groups.addMember auth groupId request
  | .removeMember groupId userId => do let _ ← Groups.removeMember auth groupId userId
  | .leaveGroup groupId => do let _ ← Groups.leaveGroup auth groupId
  | .deleteGroup groupId => do let _ ← Groups.deleteGroup auth groupId
  | .updateGroup groupId request => do let _ ← Groups.updateGroup auth groupId request
  | .deleteAccount => do let _ ← Api.deleteAccount auth

/-- Groups and their members are left alone. -/
abbrev SameGroups (t t' : Db.Tables) : Prop :=
  t'.groups = t.groups ∧ t'.groupMembers = t.groupMembers

/-- A request of a user, or anything that leaves groups and members alone. -/
inductive GroupEvent where
  | call (auth : AuthUser) (request : GroupRequest)
  | other

/-- One event. What may fail in a request, and what it draws, the predicate says. -/
def GroupEvent.step (p : Chance → Prop) (s : Server) (event : GroupEvent) (s' : Server) : Prop :=
  match event with
  | .call auth request => ∃ r, Runs (Under p) (request.handle auth).run s r s'
  | .other => SameGroups s.db s'.db

/-- The rows of users who join one after the other. -/
structure Enrols (p : Chance → Prop) (t : Db.Tables) (groupId : Uuid) (users : List Uuid)
    (rows : List Db.GroupMember) : Prop where
  ofGroup : ∀ row ∈ rows, row.groupId = groupId ∧ row.role = "member"
  front : rows.map Db.GroupMember.userId <+: users
  distinct : (rows.map Db.GroupMember.userId).Nodup
  admitted : ∀ row ∈ rows, ¬ Db.Refused t groupId row.userId
  /-- while nothing fails, only a user who cannot join keeps the next from joining -/
  stops : (∀ c, p c → c.fault = none) → ∀ u, rows.map Db.GroupMember.userId ++ [u] <+: users →
    u ∈ rows.map Db.GroupMember.userId ∨ Db.Refused t groupId u

section

variable {p : Chance → Prop} {s s' : Server} {t t' : Db.Tables} {auth : AuthUser}
variable {groupId u : Uuid} {users : List Uuid} {rows : List Db.GroupMember} {row : Db.GroupMember}

theorem enrols_nil : Enrols p t groupId [] [] := by
  refine ⟨by simp, List.prefix_rfl, List.nodup_nil, by simp, fun _ u front => ?_⟩
  simp at front

theorem enrols_refused (refused : (∃ c, p c ∧ c.fault ≠ none) ∨ Db.Refused t groupId u) :
    Enrols p t groupId (u :: users) [] := by
  refine ⟨by simp, List.nil_prefix, List.nodup_nil, by simp, fun clean next front => ?_⟩
  obtain rfl : next = u := by simpa using front
  rcases refused with ⟨c, allowed, fault⟩ | refused
  · exact (fault (clean c allowed)).elim
  · exact Or.inr refused

theorem Enrols.cons (joins : Db.Joins t groupId u row t') (role : row.role = "member")
    (enrols : Enrols p t' groupId users rows) : Enrols p t groupId (u :: users) (row :: rows) := by
  have listed {x : Uuid} : x ∈ (row :: rows).map Db.GroupMember.userId ↔
      x = u ∨ x ∈ rows.map Db.GroupMember.userId := by
    rw [List.map_cons, joins.ofUser, List.mem_cons]
  have later (other : Db.GroupMember) (member : other ∈ rows) :
      other.userId ≠ u ∧ ¬ Db.Refused t groupId other.userId := by
    have admitted := enrols.admitted other member
    rw [joins.refused_iff, not_or] at admitted
    exact admitted
  constructor
  · simpa [joins.ofGroup, role] using enrols.ofGroup
  · rw [List.map_cons, joins.ofUser]
    exact List.cons_prefix_cons.mpr ⟨rfl, enrols.front⟩
  · rw [List.map_cons, joins.ofUser, List.nodup_cons]
    refine ⟨fun member => ?_, enrols.distinct⟩
    obtain ⟨other, there, is⟩ := List.mem_map.mp member
    exact (later other there).1 is
  · intro other member
    rcases List.mem_cons.mp member with rfl | member
    · rw [joins.ofUser]
      exact joins.admitted
    · exact (later other member).2
  · intro clean x front
    rw [List.map_cons, joins.ofUser, List.cons_append, List.cons_prefix_cons] at front
    rw [listed, or_assoc, or_left_comm, ← joins.refused_iff]
    exact enrols.stops clean x front.2

theorem Enrols.listed {first : Db.GroupMember} (enrols : Enrols p t' groupId users rows)
    (joins : Db.Joins t groupId u first t') : ∀ row ∈ first :: rows, row.groupId = groupId := by
  rw [List.forall_mem_cons]
  exact ⟨joins.ofGroup, fun row member => (enrols.ofGroup row member).1⟩

theorem under_addMember {ε : Type} {f : DbError → ε} {role : String}
    {r : Except ε Db.GroupMember} (run : Runs (Under p) (ExceptT.adapt f
      (query fun now => Db.Groups.addMember groupId u role now)).run s r s') :
    (∃ row, r = .ok row ∧ row.role = role ∧ Db.Joins s.db groupId u row s'.db) ∨
      (∃ e, r = .error e) ∧ s' = s ∧ ((∃ c, p c ∧ c.fault ≠ none) ∨ Db.Refused s.db groupId u) := by
  obtain ⟨answer, ran, rfl⟩ := runs_adapt.mp run
  rcases under_query.mp ran with ⟨c, -, -, rfl, rfl⟩ | ⟨c, e, allowed, fault, rfl, rfl⟩
  · cases added : (Db.Groups.addMember groupId u role s.redis.now s.db).1 with
    | ok row =>
        obtain ⟨joins, is⟩ := Db.addMember_eq_ok added
        exact Or.inl ⟨row, rfl, is, joins⟩
    | error e =>
        obtain ⟨same, refused⟩ := Db.addMember_eq_error added
        refine Or.inr ⟨⟨_, rfl⟩, ?_, Or.inr refused⟩
        rw [same]
  · refine Or.inr ⟨⟨_, rfl⟩, rfl, Or.inl ⟨c, allowed, ?_⟩⟩
    rw [fault]
    exact Option.some_ne_none e

theorem under_addNamed {named : List Uuid} {r : Except HysjError PUnit}
    (run : Runs (Under p) (forM named fun id => Groups.addNamed auth groupId id).run s r s') :
    ∃ rows, Enrols p s.db groupId (named.filter fun id => id ≠ auth.userId) rows ∧
      s'.db = { s.db with groupMembers := s.db.groupMembers ++ rows } := by
  have nobody {t : Db.Tables} : t = { t with groupMembers := t.groupMembers ++ [] } := by
    rw [List.append_nil]
  induction named generalizing s with
  | nil =>
      obtain ⟨-, rfl⟩ := runs_run_pure.mp run
      exact ⟨[], enrols_nil, nobody⟩
  | cons id named ih =>
      rw [List.forM_cons] at run
      by_cases own : id = auth.userId
      · have skipped (m : Server) (r : Except HysjError PUnit)
            (ran : Runs (Under p) (Groups.addNamed auth groupId id).run s r m) :
              r = .ok () ∧ m = s := by
          rw [Groups.addNamed, if_neg (not_not.mpr own)] at ran
          obtain ⟨rfl, rfl⟩ := runs_run_pure.mp ran
          exact ⟨rfl, rfl⟩
        rw [List.filter_cons_of_neg (by simpa using own)]
        rcases runs_run_bind.mp run with ⟨_, m, first, rest⟩ | ⟨e, -, failed⟩
        · obtain ⟨-, rfl⟩ := skipped m _ first
          exact ih rest
        · cases (skipped s' _ failed).1
      · rw [List.filter_cons_of_pos (by simpa using own)]
        rw [Groups.addNamed, if_pos own] at run
        rcases runs_run_bind.mp run with ⟨_, m, first, rest⟩ | ⟨e, -, failed⟩
        · obtain ⟨_, m', ran, done⟩ := runs_run_bind_ok.mp first
          obtain ⟨-, rfl⟩ := runs_run_pure.mp done
          rcases under_addMember ran with ⟨row, -, role, joins⟩ | ⟨⟨e, other⟩, -⟩
          swap
          · cases other
          obtain ⟨rows, enrols, after⟩ := ih rest
          refine ⟨row :: rows, enrols.cons joins role, ?_⟩
          rw [after, joins.after]
          simp
        · rcases runs_run_bind.mp failed with ⟨_, m', ran, done⟩ | ⟨e, -, ran⟩
          · cases (runs_run_pure.mp done).1
          · rcases under_addMember ran with ⟨row, other, -⟩ | ⟨-, rfl, refused⟩
            · cases other
            · exact ⟨[], enrols_refused refused, nobody⟩

end

/-- A new group of a user. -/
structure NewGroup (t : Db.Tables) (u : Uuid) (group : Db.Group) : Prop where
  new : ∀ old ∈ t.groups, old.id ≠ group.id
  creator : group.creatorId = u
  known : ∃ user ∈ t.users, user.id = u
  size : group.maxMembers = 50

/-- What a request of a user may do to groups and their members. -/
inductive GroupChange (p : Chance → Prop) (t : Db.Tables) (u : Uuid) :
    GroupRequest → Db.Tables → Prop where
  | none {request : GroupRequest} {t' : Db.Tables} (same : SameGroups t t') :
      GroupChange p t u request t'
  /-- the creator could not be made a member -/
  | bare {request : CreateGroupRequest} {group : Db.Group} (founds : NewGroup t u group)
      (refused : (∃ c, p c ∧ c.fault ≠ .none) ∨ Db.Refused (t.withGroup group) group.id u) :
      GroupChange p t u (.createGroup request) (t.withGroup group)
  | created {request : CreateGroupRequest} {group : Db.Group} {first : Db.GroupMember}
      {rows : List Db.GroupMember} {t₁ : Db.Tables} (founds : NewGroup t u group)
      (joins : Db.Joins (t.withGroup group) group.id u first t₁) (role : first.role = "admin")
      (enrols : Enrols p t₁ group.id (request.memberIds.filter fun id => id ≠ u) rows) :
      GroupChange p t u (.createGroup request)
        { t₁ with groupMembers := t₁.groupMembers ++ rows }
  | joined {groupId : Uuid} {request : AddMemberRequest} {row : Db.GroupMember} {t' : Db.Tables}
      (admin : t.IsAdmin groupId u) (role : row.role = "member")
      (joins : Db.Joins t groupId request.userId row t') :
      GroupChange p t u (.addMember groupId request) t'
  | removed {groupId userId : Uuid} (admin : t.IsAdmin groupId u) (other : userId ≠ u) :
      GroupChange p t u (.removeMember groupId userId) (Db.Groups.removeMember groupId userId t).2
  | left {groupId : Uuid} :
      GroupChange p t u (.leaveGroup groupId) (Db.Groups.removeMember groupId u t).2
  /-- the statement for the group itself has failed -/
  | emptied {groupId : Uuid} (admin : t.IsAdmin groupId u) :
      GroupChange p t u (.deleteGroup groupId) (Db.Groups.deleteMembers groupId t).2
  | dismantled {groupId : Uuid} (admin : t.IsAdmin groupId u) :
      GroupChange p t u (.deleteGroup groupId)
        (Db.Groups.deleteRow groupId (Db.Groups.deleteMembers groupId t).2).2
  | renamed {groupId : Uuid} {request : UpdateGroupNameRequest} (admin : t.IsAdmin groupId u) :
      GroupChange p t u (.updateGroup groupId request)
        (Db.Groups.updateGroupName groupId request.name t).2
  | deleted : GroupChange p t u .deleteAccount (Db.deleteUser u t).2

section

variable {p : Chance → Prop} {s s' : Server} {auth : AuthUser} {groupId u : Uuid}

theorem GroupChange.same {request : GroupRequest} (same : s' = s) :
    GroupChange p s.db u request s'.db := by
  subst same
  exact .none ⟨rfl, rfl⟩

theorem under_requireAdmin {forbidden : String} {r : Except HysjError Unit}
    (run : Runs (Under p) (Groups.requireAdmin auth groupId forbidden).run s r s') :
    s' = s ∧ (r = .ok () → s.db.IsAdmin groupId auth.userId) := by
  rcases runs_run_bind.mp run with ⟨found, m, ran, run⟩ | ⟨e, rfl, failed⟩
  · obtain ⟨answer, rfl⟩ := under_query_ok ran
    cases found with
    | none =>
        obtain ⟨rfl, rfl⟩ := runs_run_throw.mp run
        exact ⟨rfl, fun other => by cases other⟩
    | some role =>
        dsimp only at run
        split at run
        · rename_i is
          subst is
          obtain ⟨-, rfl⟩ := runs_run_pure.mp run
          exact ⟨rfl, fun _ => Db.isAdmin_of_getMemberRole answer⟩
        · obtain ⟨rfl, rfl⟩ := runs_run_throw.mp run
          exact ⟨rfl, fun other => by cases other⟩
  · exact ⟨(under_read (fun _ _ => rfl) failed).symm, fun other => by cases other⟩

/-- An endpoint for admins does something only if an admin asks for it. -/
theorem under_admin {α : Type} {forbidden : String} {t : Task HysjError α} {r : Except HysjError α}
    (run : Runs (Under p) (Groups.requireAdmin auth groupId forbidden >>= fun _ => t).run s r s') :
    s' = s ∨ s.db.IsAdmin groupId auth.userId ∧ Runs (Under p) t.run s r s' := by
  rcases runs_run_bind.mp run with ⟨⟨⟩, m, ran, rest⟩ | ⟨e, rfl, failed⟩
  · obtain ⟨rfl, admin⟩ := under_requireAdmin ran
    exact Or.inr ⟨admin rfl, rest⟩
  · exact Or.inl (under_requireAdmin failed).1

theorem under_answered {α β : Type} {statement : Nat → Db.Statement α} {f : DbError → HysjError}
    {next : α → Task HysjError β} {r : Except HysjError β}
    (returns : ∀ a m r m', Runs (Under p) (next a).run m r m' → m' = m)
    (run : Runs (Under p) (ExceptT.adapt f (query statement) >>= next).run s r s') :
    s' = s ∨ s'.db = (statement s.redis.now s.db).2 := by
  have ran {r : Except HysjError α} {m : Server}
      (run : Runs (Under p) (ExceptT.adapt f (query statement)).run s r m) :
      m = s ∨ m.db = (statement s.redis.now s.db).2 := by
    obtain ⟨answer, run, -⟩ := runs_adapt.mp run
    rcases under_query.mp run with ⟨c, -, -, -, rfl⟩ | ⟨c, e, -, -, -, rfl⟩
    · exact Or.inr rfl
    · exact Or.inl rfl
  rcases runs_run_bind.mp run with ⟨a, m, first, rest⟩ | ⟨e, -, failed⟩
  · rw [returns a m r s' rest]
    exact ran first
  · exact ran failed

theorem same_of_answer {α : Type} {found : Bool} {answer : α} {e : HysjError}
    {r : Except HysjError α}
    (run : Runs (Under p) (if found then pure answer else throw e : Task HysjError α).run s r s') :
    s' = s := by
  split at run
  · exact (runs_run_pure.mp run).2.symm
  · exact (runs_run_throw.mp run).2.symm

theorem keeps_buildGroupResponse :
    Keeps Eq (Groups.buildGroupResponse groupId).run := by
  refine Keeps.run_bind (keeps_query (fun _ => rfl) fun s => ?_).adapt fun group => ?_
  · unfold Db.Groups.findById
    split <;> rfl
  · exact Keeps.run_bind (keeps_query (fun _ => rfl) fun s => rfl).adapt fun members => keeps_pure _

theorem keeps_listGroups {pagination : PaginationParams} :
    Keeps Eq (Groups.listGroups auth pagination).run := by
  refine Keeps.run_bind (keeps_query (fun _ => rfl) fun s => ?_).adapt fun groups => ?_
  · unfold Db.Groups.listGroupsForUserPaginated
    dsimp only
    split
    · rfl
    · split <;> rfl
  · induction groups with
    | nil => exact keeps_pure _
    | cons group groups ih =>
        rw [List.mapM_cons]
        refine Keeps.run_bind keeps_buildGroupResponse fun response => ?_
        exact Keeps.run_bind ih fun responses => keeps_pure _

theorem keeps_getGroup : Keeps Eq (Groups.getGroup auth groupId).run := by
  refine Keeps.run_bind (keeps_query (fun _ => rfl) fun s => rfl).adapt fun found => ?_
  split
  · exact keeps_buildGroupResponse
  · exact keeps_pure _

theorem same_of_keeps {α : Type} {t : Task HysjError α} {r : Except HysjError α}
    (keeps : Keeps Eq t.run) (run : Runs (Under p) t.run s r s') : s' = s :=
  (run.keeps keeps (fun _ => rfl) fun _ _ _ => Eq.trans).symm

/-- A group is created with those who join, until something fails. -/
theorem under_createGroup {request : CreateGroupRequest} {r : Except HysjError GroupResponse}
    (run : Runs (Under p) (Groups.createGroup auth request).run s r s') :
    GroupChange p s.db auth.userId (.createGroup request) s'.db := by
  rcases runs_run_bind.mp run with ⟨⟨⟩, m, checked, run⟩ | ⟨e, -, failed⟩
  swap
  · exact .same (under_ofResult.mp failed).2.symm
  obtain ⟨-, rfl⟩ := under_ofResult.mp checked
  obtain ⟨drawn, -, run⟩ := under_random_bind.mp run
  rcases runs_run_bind.mp run with ⟨group, m, inserted, run⟩ | ⟨e, -, failed⟩
  swap
  · obtain ⟨answer, ran, is⟩ := runs_adapt.mp failed
    rcases under_query.mp ran with ⟨c, -, -, rfl, rfl⟩ | ⟨c, e, -, -, -, rfl⟩
    · cases created : (Db.Groups.createGroup drawn.uuid request.name auth.userId request.isAnonymous
          s.redis.now s.db).1 with
      | ok group =>
          rw [created] at is
          cases is
      | error e =>
          rw [Db.createGroup_eq_error created]
          exact .same rfl
    · exact .same rfl
  obtain ⟨created, rfl⟩ := under_query_ok inserted
  obtain ⟨is, new, known, after⟩ := Db.createGroup_eq_ok created
  rw [after] at run
  have founds : NewGroup s.db auth.userId group := by
    rw [is]
    exact ⟨new, rfl, known, rfl⟩
  rcases runs_run_bind.mp run with ⟨first, m, ran, run⟩ | ⟨e, -, failed⟩
  swap
  · rcases under_addMember failed with ⟨row, other, -⟩ | ⟨-, rfl, refused⟩
    · cases other
    · exact .bare founds refused
  rcases under_addMember ran with ⟨row, -, role, joins⟩ | ⟨⟨e, other⟩, -⟩
  swap
  · cases other
  have enrolled {r : Except HysjError PUnit} {m' : Server} (run : Runs (Under p)
      (forM request.memberIds fun id => Groups.addNamed auth group.id id).run m r m') :
      GroupChange p s.db auth.userId (.createGroup request) m'.db := by
    obtain ⟨rows, enrols, after⟩ := under_addNamed run
    rw [after]
    exact .created founds joins role enrols
  rcases runs_run_bind.mp run with ⟨_, m', ran, run⟩ | ⟨e, -, failed⟩
  · rw [same_of_keeps keeps_buildGroupResponse run]
    exact enrolled ran
  · exact enrolled failed

theorem under_deleteGroupRows {r : Except DbError Bool}
    (run : Runs (Under p) (Groups.deleteGroupRows groupId).run s r s') :
    s' = s ∨ s'.db = (Db.Groups.deleteMembers groupId s.db).2 ∨
      s'.db = (Db.Groups.deleteRow groupId (Db.Groups.deleteMembers groupId s.db).2).2 := by
  rcases runs_run_bind.mp run with ⟨_, m, first, run⟩ | ⟨e, -, failed⟩
  · rcases under_query.mp first with ⟨c, -, -, -, rfl⟩ | ⟨c, e, -, -, other, -⟩
    swap
    · cases other
    rcases under_query.mp run with ⟨c, -, -, -, rfl⟩ | ⟨c, e, -, -, -, rfl⟩
    · exact Or.inr (Or.inr rfl)
    · exact Or.inr (Or.inl rfl)
  · rcases under_query.mp failed with ⟨c, -, -, other, -⟩ | ⟨c, e, -, -, -, rfl⟩
    · cases other
    · exact Or.inl rfl

theorem under_discard {α : Type} {t : Task HysjError α} {r : Except HysjError Unit}
    (run : Runs (Under p) (t >>= fun _ => pure ()).run s r s') :
    ∃ r, Runs (Under p) t.run s r s' := by
  rcases runs_run_bind.mp run with ⟨a, m, ran, done⟩ | ⟨e, -, failed⟩
  · obtain ⟨-, rfl⟩ := runs_run_pure.mp done
    exact ⟨_, ran⟩
  · exact ⟨_, failed⟩

theorem under_handle {request : GroupRequest} {r : Except HysjError Unit}
    (run : Runs (Under p) (request.handle auth).run s r s') :
    GroupChange p s.db auth.userId request s'.db := by
  cases request with
  | createGroup request =>
      obtain ⟨r, run⟩ := under_discard run
      exact under_createGroup run
  | listGroups pagination =>
      obtain ⟨r, run⟩ := under_discard run
      exact .same (same_of_keeps keeps_listGroups run)
  | getGroup groupId =>
      obtain ⟨r, run⟩ := under_discard run
      exact .same (same_of_keeps keeps_getGroup run)
  | addMember groupId request =>
      obtain ⟨r, run⟩ := under_discard run
      rcases under_admin run with same | ⟨admin, run⟩
      · exact .same same
      rcases runs_run_bind.mp run with ⟨_, m, ran, done⟩ | ⟨e, -, failed⟩
      · obtain ⟨-, rfl⟩ := runs_run_pure.mp done
        rcases under_addMember ran with ⟨row, -, role, joins⟩ | ⟨⟨e, other⟩, -⟩
        · exact .joined admin role joins
        · cases other
      · rcases under_addMember failed with ⟨row, other, -⟩ | ⟨-, same, -⟩
        · cases other
        · exact .same same
  | removeMember groupId userId =>
      obtain ⟨r, run⟩ := under_discard run
      rcases under_admin run with same | ⟨admin, run⟩
      · exact .same same
      split at run
      · exact .same (runs_run_throw.mp run).2.symm
      · rename_i other
        rcases under_answered (fun removed m r m' ran => same_of_answer ran) run with same | after
        · exact .same same
        · rw [after]
          exact .removed admin other
  | leaveGroup groupId =>
      obtain ⟨r, run⟩ := under_discard run
      rcases under_answered (fun removed m r m' ran => same_of_answer ran) run with same | after
      · exact .same same
      · rw [after]
        exact .left
  | deleteGroup groupId =>
      obtain ⟨r, run⟩ := under_discard run
      rcases under_admin run with same | ⟨admin, run⟩
      · exact .same same
      have deleted {r : Except HysjError Bool} {m : Server} (run : Runs (Under p)
          (ExceptT.adapt .ofDb (Groups.deleteGroupRows groupId)).run s r m) :
          GroupChange p s.db auth.userId (.deleteGroup groupId) m.db := by
        obtain ⟨answer, run, -⟩ := runs_adapt.mp run
        rcases under_deleteGroupRows run with same | after | after
        · exact .same same
        · rw [after]
          exact .emptied admin
        · rw [after]
          exact .dismantled admin
      rcases runs_run_bind.mp run with ⟨found, m, ran, done⟩ | ⟨e, -, failed⟩
      · rw [same_of_answer done]
        exact deleted ran
      · exact deleted failed
  | updateGroup groupId request =>
      obtain ⟨r, run⟩ := under_discard run
      rcases runs_run_bind.mp run with ⟨⟨⟩, m, checked, run⟩ | ⟨e, -, failed⟩
      swap
      · exact .same (under_ofResult.mp failed).2.symm
      obtain ⟨-, rfl⟩ := under_ofResult.mp checked
      rcases under_admin run with same | ⟨admin, run⟩
      · exact .same same
      rcases under_answered
        (fun _ m r m' ran => (runs_run_pure.mp ran).2.symm) run with same | after
      · exact .same same
      · rw [after]
        exact .renamed admin
  | deleteAccount =>
      obtain ⟨r, run⟩ := under_discard run
      rcases under_answered
        (fun _ m r m' ran => (runs_run_pure.mp ran).2.symm) run with same | after
      · exact .same same
      · rw [after]
        exact .deleted

end

end Hysj.Api
