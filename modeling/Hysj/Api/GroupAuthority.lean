import Hysj.Api.Groups
import Hysj.Base.Trail

set_option autoImplicit false

/- Who changes a group, and who its admins are. -/
namespace Hysj.Api

open Crypto Shared Auth Messaging Program

/-- A group stays as it is, or an admin asks for the change, or the membership ends of the user
who asks for it. -/
inductive Permitted (t : Db.Tables) (g : Uuid) : GroupEvent → Db.Tables → Prop where
  | stays {event : GroupEvent} {t' : Db.Tables} (same : t'.roster g = t.roster g) :
      Permitted t g event t'
  | byAdmin {auth : AuthUser} {request : GroupRequest} {t' : Db.Tables}
      (admin : t.IsAdmin g auth.userId) : Permitted t g (.call auth request) t'
  | leaves {auth : AuthUser} {request : GroupRequest} {t' : Db.Tables}
      (own : request = .leaveGroup g ∨ request = .deleteAccount)
      (row : (t'.roster g).1 = (t.roster g).1)
      (members : t'.membersOf g = (t.membersOf g).filter fun row => row.userId ≠ auth.userId) :
      Permitted t g (.call auth request) t'

/-- The creator of the group deletes the account, and the group goes with its members. -/
def GoesWithCreator (t : Db.Tables) (g : Uuid) (event : GroupEvent) (t' : Db.Tables) : Prop :=
  ∃ auth, event = .call auth .deleteAccount ∧
    (∃ group ∈ t.groups, group.id = g ∧ group.creatorId = auth.userId) ∧ t'.roster g = ([], [])

section

variable {p : Chance → Prop} {t t' : Db.Tables} {g u : Uuid} {auth : AuthUser}
variable {request : GroupRequest} {s s' : Server} {event : GroupEvent}

theorem roster_withoutUser_of_ne (other : ∀ group ∈ t.groups, group.id = g → group.creatorId ≠ u) :
    ((t.withoutUser u).roster g).1 = (t.roster g).1 ∧
      (t.withoutUser u).membersOf g = (t.membersOf g).filter fun row => row.userId ≠ u := by
  have kept : (t.groups.any fun row => row.id = g ∧ row.creatorId = u) = false := by
    rw [List.any_eq_false]
    intro group member both
    obtain ⟨is, creator⟩ := of_decide_eq_true both
    exact other group member is creator
  constructor
  · show (t.groups.filter fun row => row.creatorId ≠ u).filter _ = t.groups.filter _
    rw [List.filter_filter]
    apply List.filter_congr
    intro group member
    by_cases is : group.id = g
    · simp [is, other group member is]
    · simp [is]
  · rw [Db.membersOf_filter (t := t) rfl]
    apply List.filter_congr
    intro row member
    obtain ⟨-, is⟩ := Db.mem_membersOf.mp member
    simp only [is, kept, Bool.not_false, Bool.true_and]

theorem roster_withoutUser (keys : (t.groups.map Db.Group.id).Nodup)
    (created : ∃ group ∈ t.groups, group.id = g ∧ group.creatorId = u) :
    (t.withoutUser u).roster g = ([], []) := by
  obtain ⟨group, there, is, creator⟩ := created
  have gone : (t.groups.any fun row => row.id = g ∧ row.creatorId = u) = true :=
    List.any_eq_true.mpr ⟨group, there, decide_eq_true ⟨is, creator⟩⟩
  apply Prod.ext
  · show (t.groups.filter fun row => row.creatorId ≠ u).filter _ = []
    rw [List.filter_filter, List.filter_eq_nil_iff]
    intro other member both
    rw [Bool.and_eq_true, decide_eq_true_iff, decide_eq_true_iff] at both
    apply both.2
    rw [List.inj_on_of_nodup_map keys member there (both.1.trans is.symm), creator]
  · show (t.withoutUser u).membersOf g = []
    rw [Db.membersOf_filter (t := t) rfl, List.filter_eq_nil_iff]
    intro row member kept
    obtain ⟨-, ofGroup⟩ := Db.mem_membersOf.mp member
    simp only [ofGroup, gone, Bool.not_true, Bool.false_and, Bool.false_eq_true] at kept

theorem deleteUser_cases (t : Db.Tables) (u : Uuid) :
    (Db.deleteUser u t).2 = t ∨ (Db.deleteUser u t).2 = t.withoutUser u := by
  unfold Db.deleteUser
  split
  · split
    · exact Or.inl rfl
    · exact Or.inr rfl
  · exact Or.inl rfl

theorem GroupChange.keys (change : GroupChange p t u request t')
    (keys : (t.groups.map Db.Group.id).Nodup) : (t'.groups.map Db.Group.id).Nodup := by
  have fresh {group : Db.Group} (founds : NewGroup t u group) :
      ((t.groups ++ [group]).map Db.Group.id).Nodup := by
    rw [List.map_append, List.nodup_append]
    refine ⟨keys, List.nodup_singleton _, ?_⟩
    intro id known id' new same
    obtain ⟨old, listed, rfl⟩ := List.mem_map.mp known
    rw [List.map_singleton, List.mem_singleton] at new
    exact founds.new old listed (same.trans new)
  have part (keep : Db.Group → Bool) : ((t.groups.filter keep).map Db.Group.id).Nodup :=
    keys.sublist (List.filter_sublist.map _)
  cases change with
  | none same =>
      rw [same.1]
      exact keys
  | bare founds _ => exact fresh founds
  | created founds joins _ _ =>
      rw [joins.after]
      exact fresh founds
  | joined _ _ joins =>
      rw [joins.after]
      exact keys
  | removed _ _ => exact keys
  | left => exact keys
  | emptied _ => exact keys
  | dismantled _ => exact part _
  | renamed _ =>
      rw [Db.ids_updateGroupName]
      exact keys
  | deleted =>
      rcases deleteUser_cases t u with same | gone
      · rw [same]
        exact keys
      · rw [gone]
        exact part _

/-- A user who is no member of another group is not taken out of it. -/
theorem roster_removeMember_of_ne {groupId : Uuid} (other : groupId ≠ g) :
    (Db.Groups.removeMember groupId u t).2.roster g = t.roster g := by
  apply Prod.ext
  · rfl
  · apply Db.membersOf_filter_of_all rfl
    intro row member
    obtain ⟨-, is⟩ := Db.mem_membersOf.mp member
    rw [is]
    simp [Ne.symm other]

theorem roster_deleteMembers_of_ne {groupId : Uuid} (other : groupId ≠ g) :
    (Db.Groups.deleteMembers groupId t).2.roster g = t.roster g := by
  apply Prod.ext
  · rfl
  · apply Db.membersOf_filter_of_all rfl
    intro row member
    obtain ⟨-, is⟩ := Db.mem_membersOf.mp member
    simpa [is] using Ne.symm other

theorem roster_deleteRow_of_ne {groupId : Uuid} (other : groupId ≠ g) :
    (Db.Groups.deleteRow groupId t).2.roster g = t.roster g := by
  apply Prod.ext
  · show (t.groups.filter fun row => row.id ≠ groupId).filter _ = t.groups.filter _
    rw [List.filter_filter]
    apply List.filter_congr
    intro row member
    by_cases is : row.id = g
    · simp [is, Ne.symm other]
    · simp [is]
  · have members := congrArg Prod.snd (roster_deleteMembers_of_ne (t := t) other)
    exact members

theorem roster_updateGroupName_of_ne {groupId : Uuid} {name : String} (other : groupId ≠ g) :
    (Db.Groups.updateGroupName groupId name t).2.roster g = t.roster g := by
  unfold Db.Groups.updateGroupName
  split
  · apply Prod.ext
    · show (t.groups.map fun row =>
          if row.id = groupId then { row with name := name } else row).filter
        (fun row => row.id = g) = t.groups.filter _
      induction t.groups with
      | nil => rfl
      | cons row rows ih =>
          rw [List.map_cons]
          by_cases is : row.id = groupId
          · rw [if_pos is, List.filter_cons_of_neg (by simp [is, other]), ih,
              List.filter_cons_of_neg (by simp [is, other])]
          · rw [if_neg is, List.filter_cons, List.filter_cons, ih]
    · rfl
  · rfl

/-- An admin changes the admin's own group, and leaves every other one alone. -/
theorem Permitted.of_admin {groupId : Uuid} (admin : t.IsAdmin groupId auth.userId)
    (others : groupId ≠ g → t'.roster g = t.roster g) : Permitted t g (.call auth request) t' := by
  by_cases is : groupId = g
  · subst is
    exact .byAdmin admin
  · exact .stays (others is)

/-- What a request does to a group that was there before is permitted, or its creator takes it
along. -/
theorem GroupChange.permitted (change : GroupChange p t auth.userId request t')
    (keys : (t.groups.map Db.Group.id).Nodup) (there : ∃ group ∈ t.groups, group.id = g) :
    Permitted t g (.call auth request) t' ∨ GoesWithCreator t g (.call auth request) t' := by
  have other {group : Db.Group} (founds : NewGroup t auth.userId group) : group.id ≠ g := by
    rintro rfl
    obtain ⟨old, listed, is⟩ := there
    exact founds.new old listed is
  cases change with
  | none same => exact Or.inl (.stays (Db.roster_eq same.1 same.2))
  | @bare request group founds _ =>
      have same := Db.roster_withGroup (t := t) (other founds) (List.forall_mem_nil fun row =>
        Db.GroupMember.groupId row ≠ g)
      rw [List.append_nil] at same
      exact Or.inl (.stays same)
  | @created request group first rows t₁ founds joins _ enrols =>
      have others : ∀ row ∈ first :: rows, row.groupId ≠ g := by
        intro row member
        rw [enrols.listed joins row member]
        exact other founds
      rw [joins.append]
      exact Or.inl (.stays (Db.roster_withGroup (other founds) others))
  | @joined groupId request row _ admin _ joins =>
      apply Or.inl
      apply Permitted.of_admin admin
      intro is
      rw [Db.Tables.roster, joins.membersOf_of_ne is, joins.after, Db.Tables.roster]
  | removed admin _ => exact Or.inl (.of_admin admin roster_removeMember_of_ne)
  | @left groupId =>
      by_cases is : groupId = g
      · subst is
        refine Or.inl (.leaves (Or.inl rfl) rfl ?_)
        rw [Db.membersOf_filter (t := t) rfl]
        apply List.filter_congr
        intro row member
        obtain ⟨-, ofGroup⟩ := Db.mem_membersOf.mp member
        simp [ofGroup]
      · exact Or.inl (.stays (roster_removeMember_of_ne is))
  | emptied admin => exact Or.inl (.of_admin admin roster_deleteMembers_of_ne)
  | dismantled admin =>
      apply Or.inl
      apply Permitted.of_admin admin
      intro is
      rw [roster_deleteRow_of_ne is, roster_deleteMembers_of_ne is]
  | renamed admin => exact Or.inl (.of_admin admin roster_updateGroupName_of_ne)
  | deleted =>
      rcases deleteUser_cases t auth.userId with same | gone
      · rw [same]
        exact Or.inl (.stays rfl)
      · rw [gone]
        by_cases created : ∃ group ∈ t.groups, group.id = g ∧ group.creatorId = auth.userId
        · exact Or.inr ⟨auth, rfl, created, roster_withoutUser keys created⟩
        · push Not at created
          obtain ⟨row, members⟩ := roster_withoutUser_of_ne created
          exact Or.inl (.leaves (Or.inr rfl) row members)

theorem GroupEvent.change (taken : GroupEvent.step p s (.call auth request) s') :
    GroupChange p s.db auth.userId request s'.db := by
  obtain ⟨r, run⟩ := taken
  exact under_handle run

theorem keys_step (taken : event.step p s s') (keys : (s.db.groups.map Db.Group.id).Nodup) :
    (s'.db.groups.map Db.Group.id).Nodup := by
  cases event with
  | call auth request => exact (GroupEvent.change taken).keys keys
  | other =>
      rw [taken.1]
      exact keys

end

/-- After its creation a group changes only through an admin, but that a user's own membership
ends when the user leaves or deletes the account, and that a group goes with the account of its
creator. -/
theorem group_changed_by_admin (p : Chance → Prop) (first s : Server)
    (steps : List (Server × GroupEvent × Server)) (keys : (first.db.groups.map Db.Group.id).Nodup)
    (run : Trail (GroupEvent.step p) first steps s) :
    ∀ x ∈ steps, ∀ g, (∃ group ∈ x.1.db.groups, group.id = g) →
      Permitted x.1.db g x.2.1 x.2.2.db ∨ GoesWithCreator x.1.db g x.2.1 x.2.2.db := by
  have before := (run.holds_before (I := fun s => (s.db.groups.map Db.Group.id).Nodup) keys
    fun s event s' taken keys => keys_step taken keys).2
  rintro ⟨s, event, s'⟩ member g there
  have taken := run.step_of_mem member
  cases event with
  | call auth request => exact (GroupEvent.change taken).permitted (before _ member) there
  | other => exact Or.inl (.stays (Db.roster_eq taken.1 taken.2))

/-- Alice and Bob, and the group 9. -/
def club (users : List Db.User) (groups : List Db.Group) (members : List Db.GroupMember) : Server :=
  .start 0 { users := users, groups := groups, groupMembers := members }

def clubUser (byte : UInt8) : AuthUser := ⟨.replicate 16 byte, .replicate 16 byte, "alice"⟩

def clubUsers : List Db.User :=
  [.sample (.replicate 16 1),
    { Db.User.sample (.replicate 16 2) with username := "bob", phoneNumber := "+4722222222" }]

def clubGroup : Db.Group := ⟨.replicate 16 9, "club", .replicate 16 1, false, 50, 0⟩

def clubMember (byte : UInt8) (role : String) : Db.GroupMember :=
  ⟨.replicate 16 9, .replicate 16 byte, none, none, role, 0⟩

theorem ClubRun.next {s₀ s s' : Server} {steps : List (Server × GroupEvent × Server)}
    (run : Trail (GroupEvent.step fun _ => True) s₀ steps s) (user byte : UInt8)
    (request : GroupRequest) {r : Except HysjError Unit}
    (ran : exec (drawing byte) (request.handle (clubUser user)).run s = some (r, s')) :
    Trail (GroupEvent.step fun _ => True) s₀
    (steps ++ [(s, .call (clubUser user) request, s')]) s' :=
  run.next ⟨r, runs_of_exec (fun _ _ _ => trivial) ran⟩

theorem club_created : ∃ steps, Trail (GroupEvent.step fun _ => True) (club clubUsers [] []) steps
    (club clubUsers [clubGroup] [clubMember 1 "admin", clubMember 2 "member"]) :=
  ⟨_, ClubRun.next .start 1 9 (.createGroup ⟨"club", false, [.replicate 16 2]⟩) rfl⟩

theorem club_left : ∃ steps, Trail (GroupEvent.step fun _ => True) (club clubUsers [] []) steps
    (club clubUsers [clubGroup] [clubMember 2 "member"]) := by
  obtain ⟨_, run⟩ := club_created
  exact ⟨_, ClubRun.next run 1 0 (.leaveGroup (.replicate 16 9)) rfl⟩

theorem club_dissolves : GroupEvent.step (fun _ => True)
    (club clubUsers [clubGroup] [clubMember 2 "member"]) (.call (clubUser 1) .deleteAccount)
    (club clubUsers.tail [] []) :=
  ⟨.ok (), runs_of_exec (may_any (drawing 0)) rfl⟩

/-- Bob's group goes with the account of Alice, who is no member of it any more. -/
theorem group_changed_by_nobody :
    ¬ ∀ (steps : List (Server × GroupEvent × Server)) (s : Server),
      Trail (GroupEvent.step fun _ => True) (club clubUsers [] []) steps s →
      ∀ x ∈ steps, ∀ g, (∃ group ∈ x.1.db.groups, group.id = g) →
        Permitted x.1.db g x.2.1 x.2.2.db := by
  intro always
  obtain ⟨steps, run⟩ := club_left
  have permitted := always _ _ (run.next club_dissolves) _ List.mem_concat_self clubGroup.id
    ⟨clubGroup, List.mem_cons_self, rfl⟩
  cases permitted with
  | stays same => exact absurd (congrArg (fun roster => roster.1.length) same) (by decide)
  | byAdmin admin =>
      obtain ⟨row, member, -, -, role⟩ := admin
      obtain rfl := List.mem_singleton.mp member
      exact absurd role (by decide)
  | leaves _ row _ => exact absurd (congrArg List.length row) (by decide)

theorem club_changed_by_admin : ∃ steps : List (Server × GroupEvent × Server),
    Trail (GroupEvent.step fun _ => True) (club clubUsers [] []) steps (club clubUsers.tail [] []) ∧
      ∀ x ∈ steps, ∀ g, (∃ group ∈ x.1.db.groups, group.id = g) →
        Permitted x.1.db g x.2.1 x.2.2.db ∨ GoesWithCreator x.1.db g x.2.1 x.2.2.db := by
  obtain ⟨steps, run⟩ := club_left
  have dissolved := run.next club_dissolves
  exact ⟨_, dissolved, group_changed_by_admin (fun _ => True) (club clubUsers [] [])
    (club clubUsers.tail [] []) _ List.nodup_nil dissolved⟩

end Hysj.Api
