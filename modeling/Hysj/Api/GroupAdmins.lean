import Hysj.Api.GroupAuthority

set_option autoImplicit false

/- Which groups have an admin. -/
namespace Hysj.Api

open Crypto Shared Auth Messaging Program

/-- The user is a member of the group. -/
def IsIn (t : Db.Tables) (groupId userId : Uuid) : Prop :=
  ∃ row ∈ t.groupMembers, row.groupId = groupId ∧ row.userId = userId

/-- Members are members of groups that are there, and the creators among them are the admins. -/
structure Governed (t : Db.Tables) : Prop where
  hosted : ∀ row ∈ t.groupMembers, ∃ group ∈ t.groups, group.id = row.groupId
  roles : ∀ row ∈ t.groupMembers, ∀ group ∈ t.groups, group.id = row.groupId →
    (row.role = "admin" ↔ row.userId = group.creatorId)

/-- Groups and members may go, but no group goes without its members. -/
structure GroupsShrink (t t' : Db.Tables) : Prop where
  members : ∀ row ∈ t'.groupMembers, row ∈ t.groupMembers
  groups : ∀ group' ∈ t'.groups, ∃ group ∈ t.groups,
    group.id = group'.id ∧ group.creatorId = group'.creatorId
  hosts : ∀ row ∈ t'.groupMembers, ∀ group ∈ t.groups, group.id = row.groupId →
    ∃ group' ∈ t'.groups, group'.id = row.groupId

/-- A group with members, of whom none is its creator. -/
def Forsaken (t : Db.Tables) (group : Db.Group) : Prop :=
  (∃ old ∈ t.groups, old.id = group.id ∧ old.creatorId = group.creatorId) ∧
    (∃ row ∈ t.groupMembers, row.groupId = group.id) ∧ ¬ IsIn t group.id group.creatorId

section

variable {p : Chance → Prop} {t t' : Db.Tables} {g u : Uuid} {request : GroupRequest}
variable {group : Db.Group} {row : Db.GroupMember}

theorem Governed.of_nobody (members : t.groupMembers = []) : Governed t := by
  constructor
  · rw [members]
    exact List.forall_mem_nil _
  · rw [members]
    exact List.forall_mem_nil _

theorem Governed.creator (governed : Governed t) (admin : t.IsAdmin g u) (there : group ∈ t.groups)
    (is : group.id = g) : u = group.creatorId := by
  obtain ⟨row, member, ofGroup, ofUser, role⟩ := admin
  have creates := (governed.roles row member group there (is.trans ofGroup.symm)).mp role
  rw [← ofUser, creates]

theorem shrinks_of_filter {keep : Db.GroupMember → Bool} {keepGroup : Db.Group → Bool}
    (members : t'.groupMembers = t.groupMembers.filter keep)
    (groups : t'.groups = t.groups.filter keepGroup)
    (hosts : ∀ row, keep row → ∀ group ∈ t.groups, group.id = row.groupId → keepGroup group) :
    GroupsShrink t t' := by
  constructor
  · intro row member
    rw [members] at member
    exact List.mem_of_mem_filter member
  · intro group there
    rw [groups] at there
    exact ⟨group, List.mem_of_mem_filter there, rfl, rfl⟩
  · intro row member group there is
    rw [members] at member
    rw [groups]
    have kept := hosts row (List.mem_filter.mp member).2 group there is
    exact ⟨group, List.mem_filter.mpr ⟨there, kept⟩, is⟩

theorem shrinks_of_members {keep : Db.GroupMember → Bool}
    (members : t'.groupMembers = t.groupMembers.filter keep) (groups : t'.groups = t.groups) :
    GroupsShrink t t' := by
  rw [← List.filter_true t.groups] at groups
  exact shrinks_of_filter members groups fun _ _ _ _ _ => rfl

theorem GroupsShrink.governed (shrinks : GroupsShrink t t')
    (governed : Governed t) : Governed t' := by
  constructor
  · intro row member
    have old := shrinks.members row member
    obtain ⟨group, there, is⟩ := governed.hosted row old
    exact shrinks.hosts row member group there is
  · intro row member group' there' is
    obtain ⟨group, there, sameId, creator⟩ := shrinks.groups group' there'
    rw [← creator]
    exact governed.roles row (shrinks.members row member) group there (sameId.trans is)

theorem shrinks_removeMember {groupId userId : Uuid} :
    GroupsShrink t (Db.Groups.removeMember groupId userId t).2 :=
  shrinks_of_members rfl rfl

theorem shrinks_deleteMembers {groupId : Uuid} :
    GroupsShrink t (Db.Groups.deleteMembers groupId t).2 :=
  shrinks_of_members rfl rfl

theorem shrinks_deleteGroup {groupId : Uuid} :
    GroupsShrink t (Db.Groups.deleteRow groupId (Db.Groups.deleteMembers groupId t).2).2 := by
  have members :
      (Db.Groups.deleteRow groupId (Db.Groups.deleteMembers groupId t).2).2.groupMembers =
      t.groupMembers.filter fun row => row.groupId ≠ groupId := by
    show (t.groupMembers.filter _).filter _ = _
    rw [List.filter_filter]
    simp only [Bool.and_self]
  apply shrinks_of_filter members rfl
  intro row kept group _ is
  simpa [is] using kept

theorem shrinks_updateGroupName {groupId : Uuid} {name : String} :
    GroupsShrink t (Db.Groups.updateGroupName groupId name t).2 := by
  constructor
  · intro row member
    rw [Db.members_updateGroupName] at member
    exact member
  · intro group' there'
    obtain ⟨group, there, sameId, creator, -⟩ := Db.mem_updateGroupName there'
    exact ⟨group, there, sameId, creator⟩
  · intro row _ group there is
    have listed := List.mem_map_of_mem (f := Db.Group.id) there
    have ids : (Db.Groups.updateGroupName groupId name t).2.groups.map Db.Group.id = _ :=
      Db.ids_updateGroupName
    rw [← ids] at listed
    obtain ⟨group', there', sameId⟩ := List.mem_map.mp listed
    exact ⟨group', there', sameId.trans is⟩

theorem shrinks_withoutUser : GroupsShrink t (t.withoutUser u) := by
  apply shrinks_of_filter rfl rfl
  intro row kept group there is
  rw [Bool.and_eq_true, Bool.not_eq_true', List.any_eq_false] at kept
  have other := kept.1 group there
  simpa [is] using other

theorem NewGroup.row_of_ne (founds : NewGroup t u group) (governed : Governed t)
    (member : row ∈ t.groupMembers) : row.groupId ≠ group.id := by
  obtain ⟨old, there, is⟩ := governed.hosted row member
  rw [← is]
  exact founds.new old there

theorem NewGroup.governed (founds : NewGroup t u group) (governed : Governed t)
    {rows : List Db.GroupMember} (ofGroup : ∀ row ∈ rows, row.groupId = group.id)
    (roles : ∀ row ∈ rows, row.role = "admin" ↔ row.userId = u) :
    Governed { t.withGroup group with groupMembers := t.groupMembers ++ rows } := by
  have there : group ∈ t.groups ++ [group] := List.mem_concat_self
  constructor
  · intro row member
    rcases List.mem_append.mp member with old | new
    · obtain ⟨host, known, is⟩ := governed.hosted row old
      exact ⟨host, List.mem_append_left _ known, is⟩
    · exact ⟨group, there, (ofGroup row new).symm⟩
  · intro row member host known is
    rcases List.mem_append.mp member with old | new
    · rcases List.mem_append.mp known with known | newest
      · exact governed.roles row old host known is
      · rw [List.mem_singleton.mp newest] at is
        exact (founds.row_of_ne governed old is.symm).elim
    · rcases List.mem_append.mp known with known | newest
      · exact (founds.new host known (is.trans (ofGroup row new))).elim
      · rw [List.mem_singleton.mp newest, founds.creator]
        exact roles row new

/-- Whom an admin adds is not the creator, who is in the group already. -/
theorem Governed.joined (governed : Governed t) (admin : t.IsAdmin g u) {userId : Uuid}
    (role : row.role = "member") (joins : Db.Joins t g userId row t') : Governed t' := by
  rw [joins.after]
  constructor
  · intro row' member
    rcases List.mem_append.mp member with old | new
    · exact governed.hosted row' old
    · rw [List.mem_singleton.mp new, joins.ofGroup]
      by_contra none
      push Not at none
      exact joins.admitted (Or.inr (Or.inl none))
  · intro row' member host there is
    rcases List.mem_append.mp member with old | new
    · exact governed.roles row' old host there is
    · rw [List.mem_singleton.mp new] at is ⊢
      rw [joins.ofGroup] at is
      rw [role, ← governed.creator admin there is, joins.ofUser]
      constructor
      · intro other
        exact absurd other (by decide)
      · rintro rfl
        obtain ⟨own, listed, ofGroup, ofUser, -⟩ := admin
        exact (joins.admitted (Or.inl ⟨own, listed, ofGroup, ofUser⟩)).elim

theorem Enrols.roles {users : List Uuid} {rows : List Db.GroupMember}
    (enrols : Enrols p t g (users.filter fun id => id ≠ u) rows) :
    ∀ row ∈ rows, row.role = "admin" ↔ row.userId = u := by
  intro row member
  rw [(enrols.ofGroup row member).2]
  have named := enrols.front.subset (List.mem_map_of_mem member)
  have other := of_decide_eq_true (List.mem_filter.mp named).2
  simpa using other

theorem Governed.same (governed : Governed t) (same : SameGroups t t') : Governed t' := by
  constructor
  · rw [same.1, same.2]
    exact governed.hosted
  · rw [same.1, same.2]
    exact governed.roles

theorem GroupChange.governed (change : GroupChange p t u request t') (governed : Governed t) :
    Governed t' := by
  cases change with
  | none same => exact governed.same same
  | bare founds _ =>
      have after := founds.governed governed (List.forall_mem_nil _) (List.forall_mem_nil _)
      rw [List.append_nil] at after
      exact after
  | @created request group first rows t₁ founds joins role enrols =>
      have roles : ∀ row ∈ first :: rows, row.role = "admin" ↔ row.userId = u := by
        rw [List.forall_mem_cons]
        exact ⟨iff_of_true role joins.ofUser, enrols.roles⟩
      rw [joins.append]
      exact founds.governed governed (enrols.listed joins) roles
  | joined admin role joins => exact governed.joined admin role joins
  | removed _ _ => exact shrinks_removeMember.governed governed
  | left => exact shrinks_removeMember.governed governed
  | emptied _ => exact shrinks_deleteMembers.governed governed
  | dismantled _ => exact shrinks_deleteGroup.governed governed
  | renamed _ => exact shrinks_updateGroupName.governed governed
  | deleted =>
      rcases deleteUser_cases t u with same | gone
      · rw [same]
        exact governed
      · rw [gone]
        exact shrinks_withoutUser.governed governed

/-- A creator who is in the group stays where no row of theirs is taken. -/
theorem IsIn.filter {keep : Db.GroupMember → Bool} (isIn : IsIn t g u)
    (members : t'.groupMembers = t.groupMembers.filter keep)
    (kept : ∀ row ∈ t.groupMembers, row.groupId = g → row.userId = u → keep row) : IsIn t' g u := by
  obtain ⟨row, member, ofGroup, ofUser⟩ := isIn
  have stays := List.mem_filter.mpr ⟨member, kept row member ofGroup ofUser⟩
  rw [← members] at stays
  exact ⟨row, stays, ofGroup, ofUser⟩

theorem IsIn.append {rows : List Db.GroupMember} (isIn : IsIn t g u)
    (members : t'.groupMembers = t.groupMembers ++ rows) : IsIn t' g u := by
  obtain ⟨row, member, is⟩ := isIn
  refine ⟨row, ?_, is⟩
  rw [members]
  exact List.mem_append_left _ member

theorem isIn_congr (members : t'.groupMembers = t.groupMembers) : IsIn t' g u ↔ IsIn t g u := by
  rw [IsIn, IsIn, members]

/-- A group that was there with a member still has its creator, unless the creator leaves, or had
none of it before. -/
theorem isIn_or_forsaken {left : Prop}
    (known : ∃ old ∈ t.groups, old.id = group.id ∧ old.creatorId = group.creatorId)
    (member : row ∈ t.groupMembers) (is : group.id = row.groupId)
    (stays : IsIn t group.id group.creatorId → IsIn t' group.id group.creatorId ∨ left) :
    IsIn t' group.id group.creatorId ∨ left ∨ Forsaken t group := by
  by_cases before : IsIn t group.id group.creatorId
  · rcases stays before with isIn | left
    · exact Or.inl isIn
    · exact Or.inr (Or.inl left)
  · exact Or.inr (Or.inr ⟨known, ⟨row, member, is.symm⟩, before⟩)

/-- The creator of a new group is the first in it, and the other groups are what they were. -/
theorem NewGroup.creatorIn {left : Prop} {founded : Db.Group} {rows : List Db.GroupMember}
    (founds : NewGroup t u founded) (governed : Governed t)
    (ofGroup : ∀ row ∈ rows, row.groupId = founded.id)
    (creates : ∀ row ∈ rows, ∃ first ∈ rows, first.userId = u)
    (member : row ∈ t.groupMembers ++ rows) (there : group ∈ t.groups ++ [founded])
    (is : group.id = row.groupId) :
    IsIn { t.withGroup founded with groupMembers := t.groupMembers ++ rows }
    group.id group.creatorId ∨
      left ∨ Forsaken t group := by
  rcases List.mem_append.mp there with old | new
  · rcases List.mem_append.mp member with other | later
    · apply isIn_or_forsaken ⟨group, old, rfl, rfl⟩ other is
      exact fun before => Or.inl (before.append rfl)
    · exact (founds.new group old (is.trans (ofGroup row later))).elim
  · rw [List.mem_singleton.mp new] at is ⊢
    rcases List.mem_append.mp member with other | later
    · exact (founds.row_of_ne governed other is.symm).elim
    · obtain ⟨first, listed, creator⟩ := creates row later
      rw [founds.creator]
      exact Or.inl ⟨first, List.mem_append_right _ listed, ofGroup first listed, creator⟩

/-- In a group with members the creator is one of them, unless it was so before, or unless it is
the creator who leaves. -/
theorem GroupChange.creatorIn (change : GroupChange p t u request t') (governed : Governed t)
    (member : row ∈ t'.groupMembers) (there : group ∈ t'.groups) (is : group.id = row.groupId) :
    IsIn t' group.id group.creatorId ∨
      (request = .leaveGroup group.id ∧ group.creatorId = u) ∨ Forsaken t group := by
  cases change with
  | none same =>
      rw [same.1] at there
      rw [same.2] at member
      apply isIn_or_forsaken ⟨group, there, rfl, rfl⟩ member is
      exact fun before => Or.inl ((isIn_congr same.2).mpr before)
  | @bare request founded founds _ =>
      have nobody (left : Prop) :
          IsIn { t.withGroup founded with groupMembers := t.groupMembers ++ [] }
          group.id group.creatorId ∨ left ∨ Forsaken t group :=
        founds.creatorIn governed (List.forall_mem_nil _) (List.forall_mem_nil _)
          (List.mem_append_left [] member) there is
      simp only [List.append_nil] at nobody
      exact nobody _
  | created founds joins role enrols =>
      rw [joins.append] at member there ⊢
      exact founds.creatorIn governed (enrols.listed joins)
        (fun _ _ => ⟨_, List.mem_cons_self, joins.ofUser⟩) member there is
  | @joined groupId request added _ admin role joins =>
      rw [joins.after] at member there ⊢
      by_cases same : group.id = groupId
      · obtain ⟨own, listed, ofGroup, ofUser, -⟩ := id admin
        rw [← governed.creator admin there same, same]
        exact Or.inl ⟨own, List.mem_append_left _ listed, ofGroup, ofUser⟩
      · have other : row ∈ t.groupMembers := by
          rcases List.mem_append.mp member with old | new
          · exact old
          · rw [List.mem_singleton.mp new, joins.ofGroup] at is
            exact absurd is same
        have known : group ∈ t.groups := there
        apply isIn_or_forsaken ⟨group, known, rfl, rfl⟩ other is
        exact fun before => Or.inl (before.append rfl)
  | @removed groupId userId admin other =>
      apply isIn_or_forsaken (shrinks_removeMember.groups group there)
        (shrinks_removeMember.members row member) is
      intro before
      refine Or.inl (before.filter rfl ?_)
      intro row₀ _ ofGroup ofUser
      rw [decide_eq_true_iff, ofGroup, ofUser]
      rintro ⟨same, rfl⟩
      exact other (governed.creator admin there same).symm
  | @left groupId =>
      apply isIn_or_forsaken (shrinks_removeMember.groups group there)
        (shrinks_removeMember.members row member) is
      intro before
      by_cases own : group.id = groupId ∧ group.creatorId = u
      · obtain ⟨rfl, creator⟩ := own
        exact Or.inr ⟨rfl, creator⟩
      · refine Or.inl (before.filter rfl ?_)
        intro row₀ _ ofGroup ofUser
        rw [decide_eq_true_iff, ofGroup, ofUser]
        exact own
  | @emptied groupId admin =>
      apply isIn_or_forsaken (shrinks_deleteMembers.groups group there)
        (shrinks_deleteMembers.members row member) is
      intro before
      refine Or.inl (before.filter rfl ?_)
      intro row₀ _ ofGroup _
      have kept := (List.mem_filter.mp member).2
      rw [ofGroup, is]
      exact kept
  | @dismantled groupId admin =>
      apply isIn_or_forsaken (shrinks_deleteGroup.groups group there)
        (shrinks_deleteGroup.members row member) is
      intro before
      have kept := (List.mem_filter.mp member).2
      rw [← is] at kept
      have emptied : IsIn (Db.Groups.deleteMembers groupId t).2 group.id group.creatorId :=
        before.filter rfl fun row₀ _ ofGroup _ => by rw [ofGroup]; exact kept
      exact Or.inl (emptied.filter rfl fun row₀ _ ofGroup _ => by rw [ofGroup]; exact kept)
  | @renamed groupId request admin =>
      apply isIn_or_forsaken (shrinks_updateGroupName.groups group there)
        (shrinks_updateGroupName.members row member) is
      exact fun before => Or.inl ((isIn_congr Db.members_updateGroupName).mpr before)
  | deleted =>
      rcases deleteUser_cases t u with same | gone
      · rw [same] at member there ⊢
        exact isIn_or_forsaken ⟨group, there, rfl, rfl⟩ member is Or.inl
      · rw [gone] at member there ⊢
        apply isIn_or_forsaken (shrinks_withoutUser.groups group there)
          (shrinks_withoutUser.members row member) is
        intro before
        have creator := of_decide_eq_true (List.mem_filter.mp there).2
        have kept := (List.mem_filter.mp member).2
        rw [Bool.and_eq_true] at kept
        refine Or.inl (before.filter rfl ?_)
        intro row₀ _ ofGroup ofUser
        rw [ofGroup, ofUser, is]
        simpa [creator] using kept.1

/-- The creator of the group has asked to leave it. -/
def CreatorLeft (steps : List (Server × GroupEvent × Server)) (group : Db.Group) : Prop :=
  ∃ x ∈ steps, ∃ auth, x.2.1 = .call auth (.leaveGroup group.id) ∧ auth.userId = group.creatorId

/-- What holds of groups throughout a run: unless it was the creator who has left, the creator is
in the group. -/
structure Led (steps : List (Server × GroupEvent × Server)) (t : Db.Tables) : Prop where
  governed : Governed t
  creators : ∀ row ∈ t.groupMembers, ∀ group ∈ t.groups, group.id = row.groupId →
    IsIn t group.id group.creatorId ∨ CreatorLeft steps group

theorem CreatorLeft.append {steps more : List (Server × GroupEvent × Server)}
    (left : CreatorLeft steps group) : CreatorLeft (steps ++ more) group := by
  obtain ⟨x, member, asks⟩ := left
  exact ⟨x, List.mem_append_left _ member, asks⟩

theorem Led.next {steps : List (Server × GroupEvent × Server)} {s s' : Server} {event : GroupEvent}
    (led : Led steps s.db) (taken : event.step p s s') :
    Led (steps ++ [(s, event, s')]) s'.db := by
  cases event with
  | other =>
      constructor
      · exact led.governed.same taken
      · intro row member group there is
        rw [taken.2] at member
        rw [taken.1] at there
        rw [isIn_congr taken.2]
        exact (led.creators row member group there is).imp_right CreatorLeft.append
  | call auth request =>
      have change := GroupEvent.change taken
      constructor
      · exact change.governed led.governed
      · intro row member group there is
        rcases change.creatorIn led.governed member there is with isIn | left | forsaken
        · exact Or.inl isIn
        · refine Or.inr ⟨_, List.mem_concat_self, auth, ?_, left.2.symm⟩
          rw [left.1]
        · obtain ⟨⟨old, listed, sameId, creator⟩, ⟨other, before, ofGroup⟩, gone⟩ := forsaken
          right
          rcases led.creators other before old listed (sameId.trans ofGroup.symm) with isIn | left
          · rw [sameId, creator] at isIn
            exact (gone isIn).elim
          · obtain ⟨x, taken, asker, asks, own⟩ := left
            rw [sameId] at asks
            exact ⟨x, List.mem_append_left _ taken, asker, asks, own.trans creator⟩

theorem led_run {steps : List (Server × GroupEvent × Server)} {first s : Server}
    (start : Governed first.db) (members : first.db.groupMembers = [])
    (run : Trail (GroupEvent.step p) first steps s) : Led steps s.db := by
  induction run with
  | start =>
      refine ⟨start, ?_⟩
      rw [members]
      exact List.forall_mem_nil _
  | next _ taken ih => exact ih.next taken

theorem Governed.isAdmin_iff (governed : Governed t) (there : group ∈ t.groups) :
    (∃ u, t.IsAdmin group.id u) ↔ IsIn t group.id group.creatorId := by
  constructor
  · rintro ⟨u, admin⟩
    have creator := governed.creator admin there rfl
    obtain ⟨row, member, ofGroup, ofUser, -⟩ := admin
    exact ⟨row, member, ofGroup, ofUser.trans creator⟩
  · rintro ⟨row, member, ofGroup, ofUser⟩
    have role := (governed.roles row member group there ofGroup.symm).mpr ofUser
    exact ⟨_, row, member, ofGroup, rfl, role⟩

end

/-- Every group with members has an admin exactly as long as its creator is one of them, which
only the creator's own request to leave the group ends. -/
theorem group_has_admin (p : Chance → Prop) (first s : Server)
    (steps : List (Server × GroupEvent × Server))
    (members : first.db.groupMembers = []) (run : Trail (GroupEvent.step p) first steps s) :
    ∀ row ∈ s.db.groupMembers, ∃ group ∈ s.db.groups, group.id = row.groupId ∧
      ((∃ u, s.db.IsAdmin group.id u) ↔ IsIn s.db group.id group.creatorId) ∧
      ((∃ u, s.db.IsAdmin group.id u) ∨ CreatorLeft steps group) := by
  have led := led_run (.of_nobody members) members run
  intro row member
  obtain ⟨group, there, is⟩ := led.governed.hosted row member
  have admins := led.governed.isAdmin_iff there
  refine ⟨group, there, is, admins, ?_⟩
  rw [admins]
  exact led.creators row member group there is

/-- Alice leaves the group that she has created, and Bob is alone in it. -/
theorem club_without_admin :
    ¬ ∀ (steps : List (Server × GroupEvent × Server)) (s : Server),
      Trail (GroupEvent.step fun _ => True) (club clubUsers [] []) steps s →
      ∀ row ∈ s.db.groupMembers, ∃ admin ∈ s.db.groupMembers,
        admin.groupId = row.groupId ∧ admin.role = "admin" := by
  intro always
  obtain ⟨steps, run⟩ := club_left
  obtain ⟨row, member, -, role⟩ := always steps _ run _ List.mem_cons_self
  rw [List.mem_singleton.mp member] at role
  exact absurd role (by decide)

theorem club_has_admin : ∃ steps : List (Server × GroupEvent × Server),
    Trail (GroupEvent.step fun _ => True) (club clubUsers [] []) steps
        (club clubUsers [clubGroup] [clubMember 2 "member"]) ∧
      ∀ row ∈ [clubMember 2 "member"], ∃ group ∈ [clubGroup], group.id = row.groupId ∧
        ((∃ u, (club clubUsers [clubGroup] [clubMember 2 "member"]).db.IsAdmin group.id u) ↔
          IsIn (club clubUsers [clubGroup] [clubMember 2 "member"]).db group.id group.creatorId) ∧
        ((∃ u, (club clubUsers [clubGroup] [clubMember 2 "member"]).db.IsAdmin group.id u) ∨
          CreatorLeft steps group) := by
  obtain ⟨steps, run⟩ := club_left
  exact ⟨steps, run, group_has_admin (fun _ => True) (club clubUsers [] []) _ steps rfl run⟩

end Hysj.Api
