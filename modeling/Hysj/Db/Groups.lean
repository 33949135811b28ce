import Mathlib.Data.List.Sort
import Hysj.Db.Tables

set_option autoImplicit false

/- The statements over groups and their members. That the database refuses a text that is too long
for its column, or has a NUL, is among the statements that fail. -/
namespace Hysj.Db

open Shared

namespace Groups

def createGroup (id : Uuid) (name : String) (creatorId : Uuid) (isAnonymous : Bool) (now : Nat) :
    Statement Group := fun t =>
  let group : Group := ⟨id, name, creatorId, isAnonymous, 50, now⟩
  if t.groups.any fun row => row.id = id then (.error (duplicateKey "groups_pkey"), t)
  else if t.users.any fun row => row.id = creatorId then
    (.ok group, { t with groups := t.groups ++ [group] })
  else (.error (.queryFailed "groups_creator_id_fkey"), t)

def addMember (groupId userId : Uuid) (role : String) (now : Nat) :
    Statement GroupMember := fun t =>
  let member : GroupMember := ⟨groupId, userId, none, none, role, now⟩
  if t.groupMembers.any fun row => row.groupId = groupId ∧ row.userId = userId then
    (.error (duplicateKey "group_members_pkey"), t)
  else if ¬ t.groups.any fun row => row.id = groupId then
    (.error (.queryFailed "group_members_group_id_fkey"), t)
  else if t.users.any fun row => row.id = userId then
    (.ok member, { t with groupMembers := t.groupMembers ++ [member] })
  else (.error (.queryFailed "group_members_user_id_fkey"), t)

def removeMember (groupId userId : Uuid) : Statement Bool := fun t =>
  (.ok (t.groupMembers.any fun row => row.groupId = groupId ∧ row.userId = userId),
    { t with groupMembers := t.groupMembers.filter fun row =>
      ¬ (row.groupId = groupId ∧ row.userId = userId) })

def findById (groupId : Uuid) : Statement Group := fun t =>
  match t.groups.find? fun row => row.id = groupId with
  | some row => (.ok row, t)
  | none => (.error .notFound, t)

/-- `ORDER BY created_at DESC LIMIT .. OFFSET ..` -/
def listGroupsForUserPaginated (userId : Uuid) (limit offset : Int) : Statement (List Group) :=
  fun t =>
    let joined := t.groups.filter fun row =>
      t.groupMembers.any fun member => member.groupId = row.id ∧ member.userId = userId
    if limit < 0 then (.error (.queryFailed "LIMIT must not be negative"), t)
    else if offset < 0 then (.error (.queryFailed "OFFSET must not be negative"), t)
    else
      let sorted := joined.insertionSort fun a b => b.createdAt ≤ a.createdAt
      (.ok ((sorted.drop offset.toNat).take limit.toNat), t)

/-- Get a member's role in a group, if the user is a member. -/
def getMemberRole (groupId userId : Uuid) : Statement (Option String) := fun t =>
  (.ok ((t.groupMembers.find? fun row => row.groupId = groupId ∧ row.userId = userId).map
    GroupMember.role), t)

/-- The first statement of `delete_group`. -/
def deleteMembers (groupId : Uuid) : Statement Unit := fun t =>
  (.ok (), { t with groupMembers := t.groupMembers.filter fun row => row.groupId ≠ groupId })

/-- The second statement of `delete_group`, with what refers to the group. -/
def deleteRow (groupId : Uuid) : Statement Bool := fun t =>
  (.ok (t.groups.any fun row => row.id = groupId), { t with
    groups := t.groups.filter fun row => row.id ≠ groupId
    groupMembers := t.groupMembers.filter fun row => row.groupId ≠ groupId
    pinnedMessages := t.pinnedMessages.filter fun row => row.groupId ≠ groupId })

/-- Update the name of a group. -/
def updateGroupName (groupId : Uuid) (name : String) : Statement Unit := fun t =>
  if t.groups.any fun row => row.id = groupId then
    (.ok (), { t with
      groups :=
      t.groups.map fun row => if row.id = groupId then { row with name := name } else row })
  else (.error .notFound, t)

end Groups

/-- The tables with a new group, which has no members. -/
def Tables.withGroup (t : Tables) (group : Group) : Tables :=
  { t with groups := t.groups ++ [group] }

/-- The members of a group. -/
def Tables.membersOf (t : Tables) (groupId : Uuid) : List GroupMember :=
  t.groupMembers.filter fun row => row.groupId = groupId

/-- What there is of a group: its row, and the rows of its members. -/
def Tables.roster (t : Tables) (groupId : Uuid) : List Group × List GroupMember :=
  (t.groups.filter fun row => row.id = groupId, t.membersOf groupId)

/-- The user is an admin of the group. -/
def Tables.IsAdmin (t : Tables) (groupId userId : Uuid) : Prop :=
  ∃ row ∈ t.groupMembers, row.groupId = groupId ∧ row.userId = userId ∧ row.role = "admin"

section

variable {t : Tables} {group : Group} {member row : GroupMember} {id groupId userId : Uuid}
variable {name role : String} {anonymous : Bool} {now : Nat} {e : DbError}

theorem mem_membersOf :
    row ∈ t.membersOf groupId ↔ row ∈ t.groupMembers ∧ row.groupId = groupId := by
  rw [Tables.membersOf, List.mem_filter, decide_eq_true_iff]

theorem roster_eq {t' : Tables} (groups : t'.groups = t.groups)
    (members : t'.groupMembers = t.groupMembers) : t'.roster groupId = t.roster groupId := by
  rw [Tables.roster, Tables.roster, Tables.membersOf, Tables.membersOf, groups, members]

theorem membersOf_append_of_ne {rows : List GroupMember}
    (others : ∀ row ∈ rows, row.groupId ≠ groupId) :
    (t.groupMembers ++ rows).filter (fun row => row.groupId = groupId) = t.membersOf groupId := by
  have none : rows.filter (fun row => row.groupId = groupId) = [] := by
    rw [List.filter_eq_nil_iff]
    intro row member
    simpa using others row member
  rw [List.filter_append, none, List.append_nil, Tables.membersOf]

/-- A group stays what it is when another one comes, with members or without. -/
theorem roster_withGroup {rows : List GroupMember} (other : group.id ≠ groupId)
    (others : ∀ row ∈ rows, row.groupId ≠ groupId) :
    { t.withGroup group with groupMembers := t.groupMembers ++ rows }.roster groupId =
      t.roster groupId := by
  have groups : (t.groups ++ [group]).filter (fun row => row.id = groupId) =
      t.groups.filter fun row => row.id = groupId := by
    rw [List.filter_append, List.filter_cons_of_neg (by simpa using other), List.filter_nil,
      List.append_nil]
  exact Prod.ext groups (membersOf_append_of_ne others)

theorem membersOf_filter {keep : GroupMember → Bool} {t' : Tables}
    (after : t'.groupMembers = t.groupMembers.filter keep) :
    t'.membersOf groupId = (t.membersOf groupId).filter keep := by
  rw [Tables.membersOf, Tables.membersOf, after, List.filter_filter, List.filter_filter]
  simp only [Bool.and_comm]

theorem membersOf_filter_of_all {keep : GroupMember → Bool} {t' : Tables}
    (after : t'.groupMembers = t.groupMembers.filter keep)
    (all : ∀ row ∈ t.membersOf groupId, keep row = true) :
    t'.membersOf groupId = t.membersOf groupId := by
  rw [membersOf_filter after, List.filter_eq_self]
  exact all

theorem isAdmin_of_getMemberRole
    (found : (Groups.getMemberRole groupId userId t).1 = .ok (some "admin")) :
    t.IsAdmin groupId userId := by
  obtain ⟨row, there, role⟩ := Option.map_eq_some_iff.mp (Except.ok.inj found)
  have is := List.find?_some there
  rw [decide_eq_true_iff] at is
  exact ⟨row, List.mem_of_find?_eq_some there, is.1, is.2, role⟩

theorem createGroup_eq_ok
    (created : (Groups.createGroup id name userId anonymous now t).1 = .ok group) :
    group = ⟨id, name, userId, anonymous, 50, now⟩ ∧ (∀ old ∈ t.groups, old.id ≠ id) ∧
      (∃ user ∈ t.users, user.id = userId) ∧
      (Groups.createGroup id name userId anonymous now t).2 = t.withGroup group := by
  unfold Groups.createGroup at created ⊢
  dsimp only at created ⊢
  split at created
  · cases created
  · rename_i fresh
    split at created
    · rename_i owner
      obtain rfl := Except.ok.inj created
      rw [if_neg fresh, if_pos owner]
      exact ⟨rfl, by simpa using fresh, by simpa using owner, rfl⟩
    · cases created

theorem createGroup_eq_error
    (failed : (Groups.createGroup id name userId anonymous now t).1 = .error e) :
    (Groups.createGroup id name userId anonymous now t).2 = t := by
  unfold Groups.createGroup at failed ⊢
  dsimp only at failed ⊢
  split
  · rfl
  · rename_i fresh
    rw [if_neg fresh] at failed
    split at failed
    · cases failed
    · rename_i owner
      rw [if_neg owner]

theorem mem_updateGroupName {row : Group}
    (there : row ∈ (Groups.updateGroupName groupId name t).2.groups) :
    ∃ group ∈ t.groups, group.id = row.id ∧ group.creatorId = row.creatorId ∧
      group.maxMembers = row.maxMembers := by
  unfold Groups.updateGroupName at there
  split at there
  · obtain ⟨group, old, rfl⟩ := List.mem_map.mp there
    refine ⟨group, old, ?_⟩
    split
    · exact ⟨rfl, rfl, rfl⟩
    · exact ⟨rfl, rfl, rfl⟩
  · exact ⟨row, there, rfl, rfl, rfl⟩

theorem ids_updateGroupName : (Groups.updateGroupName groupId name t).2.groups.map Group.id =
    t.groups.map Group.id := by
  unfold Groups.updateGroupName
  split
  · simp only [List.map_map]
    apply List.map_congr_left
    intro row _
    simp only [Function.comp]
    split
    · rfl
    · rfl
  · rfl

theorem members_updateGroupName :
    (Groups.updateGroupName groupId name t).2.groupMembers = t.groupMembers := by
  unfold Groups.updateGroupName
  split
  · rfl
  · rfl

/-- The user cannot become a member of the group. -/
def Refused (t : Tables) (groupId userId : Uuid) : Prop :=
  (∃ row ∈ t.groupMembers, row.groupId = groupId ∧ row.userId = userId) ∨
    (∀ row ∈ t.groups, row.id ≠ groupId) ∨ ∀ row ∈ t.users, row.id ≠ userId

/-- The user becomes a member of the group with the row. -/
structure Joins (t : Tables) (groupId userId : Uuid) (member : GroupMember)
    (t' : Tables) : Prop where
  ofGroup : member.groupId = groupId
  ofUser : member.userId = userId
  admitted : ¬ Refused t groupId userId
  after : t' = { t with groupMembers := t.groupMembers ++ [member] }

theorem addMember_eq_ok (added : (Groups.addMember groupId userId role now t).1 = .ok member) :
    Joins t groupId userId member (Groups.addMember groupId userId role now t).2 ∧
      member.role = role := by
  unfold Groups.addMember at added ⊢
  dsimp only at added ⊢
  split at added
  · cases added
  · rename_i new
    split at added
    · cases added
    · rename_i group
      split at added
      · rename_i user
        obtain rfl := Except.ok.inj added
        rw [if_neg new, if_neg group, if_pos user]
        refine ⟨⟨rfl, rfl, ?_, rfl⟩, rfl⟩
        simp only [List.any_eq_true, decide_eq_true_eq] at new group user
        rintro (there | none | none)
        · exact new there
        · exact group fun ⟨row, there, is⟩ => none row there is
        · obtain ⟨row, there, is⟩ := user
          exact none row there is
      · cases added

theorem addMember_eq_error (failed : (Groups.addMember groupId userId role now t).1 = .error e) :
    (Groups.addMember groupId userId role now t).2 = t ∧ Refused t groupId userId := by
  unfold Groups.addMember at failed ⊢
  dsimp only at failed ⊢
  split
  · rename_i there
    simp only [List.any_eq_true, decide_eq_true_eq] at there
    exact ⟨rfl, Or.inl there⟩
  · rename_i new
    rw [if_neg new] at failed
    split
    · rename_i none
      refine ⟨rfl, Or.inr (Or.inl ?_)⟩
      simpa using none
    · rename_i group
      rw [if_neg group] at failed
      split at failed
      · cases failed
      · rename_i none
        rw [if_neg none]
        refine ⟨rfl, Or.inr (Or.inr ?_)⟩
        simpa using none

/-- Who joins is one more member of the group, and of no other. -/
theorem Joins.membersOf {t' : Tables} (joins : Joins t groupId userId member t') :
    t'.membersOf groupId = t.membersOf groupId ++ [member] := by
  have ofGroup : [member].filter (fun row => row.groupId = groupId) = [member] :=
    List.filter_cons_of_pos (decide_eq_true joins.ofGroup)
  rw [Tables.membersOf, joins.after, List.filter_append, ofGroup, Tables.membersOf]

theorem Joins.membersOf_of_ne {t' : Tables} (joins : Joins t groupId userId member t')
    (other : groupId ≠ id) : t'.membersOf id = t.membersOf id := by
  rw [Tables.membersOf, joins.after]
  apply membersOf_append_of_ne
  rw [List.forall_mem_singleton, joins.ofGroup]
  exact other

theorem Joins.append {t' : Tables} (joins : Joins t groupId userId member t')
    (rows : List GroupMember) :
    { t' with groupMembers := t'.groupMembers ++ rows } =
      { t with groupMembers := t.groupMembers ++ member :: rows } := by
  rw [joins.after]
  simp only [List.append_assoc, List.singleton_append]

/-- Who has joined can no longer join, and nothing else is different. -/
theorem Joins.refused_iff {t' : Tables} {u : Uuid} (joins : Joins t groupId userId member t') :
    Refused t' groupId u ↔ u = userId ∨ Refused t groupId u := by
  rw [joins.after]
  simp only [Refused, List.mem_append, List.mem_singleton]
  constructor
  · rintro (⟨row, old | rfl, ofGroup, rfl⟩ | rest)
    · exact Or.inr (Or.inl ⟨row, old, ofGroup, rfl⟩)
    · exact Or.inl joins.ofUser
    · exact Or.inr (Or.inr rest)
  · rintro (rfl | ⟨row, old, is⟩ | rest)
    · exact Or.inl ⟨member, Or.inr rfl, joins.ofGroup, joins.ofUser⟩
    · exact Or.inl ⟨row, Or.inl old, is⟩
    · exact Or.inr rest

end

end Hysj.Db
