import Hysj.Api.GroupAdmins

set_option autoImplicit false

/- How many members a group has. -/
namespace Hysj.Api

open Crypto Shared Auth Messaging Program

/-- No group has more members than its row allows. -/
def GroupsBounded (t : Db.Tables) : Prop :=
  ∀ group ∈ t.groups, ((t.membersOf group.id).length : Int) ≤ group.maxMembers

/-- Fifty different users, who all exist, are named before anyone else. -/
def Crowded (t : Db.Tables) (named : List Uuid) : Prop :=
  ∃ crowd, crowd <+: named ∧ crowd.length = 50 ∧ crowd.Nodup ∧
    ∀ u ∈ crowd, ∃ user ∈ t.users, user.id = u

/-- The request finds room for those whom it would let in. -/
def RoomFor (t : Db.Tables) (u : Uuid) : GroupRequest → Prop
  | .createGroup request => ¬ Crowded t (request.memberIds.filter fun id => id ≠ u)
  | .addMember groupId request => t.IsAdmin groupId u → ¬ Db.Refused t groupId request.userId →
      ∀ group ∈ t.groups, group.id = groupId →
        ((t.membersOf groupId).length : Int) < group.maxMembers
  | _ => True

def FindsRoom (s : Server) : GroupEvent → Prop
  | .call auth request => RoomFor s.db auth.userId request
  | .other => True

section

variable {p : Chance → Prop} {t t' : Db.Tables} {g u : Uuid} {request : GroupRequest}
variable {group : Db.Group} {row first : Db.GroupMember} {rows : List Db.GroupMember}
variable {users : List Uuid}

theorem NewGroup.nobody (founds : NewGroup t u group) (governed : Governed t) :
    (t.withGroup group).membersOf group.id = [] := by
  rw [Db.Tables.membersOf, List.filter_eq_nil_iff]
  intro row member
  simpa using founds.row_of_ne governed member

theorem NewGroup.membersOf (founds : NewGroup t u group) (governed : Governed t)
    (joins : Db.Joins (t.withGroup group) group.id u first t')
    (enrols : Enrols p t' group.id users rows) :
    Db.Tables.membersOf { t' with groupMembers := t'.groupMembers ++ rows } group.id =
      first :: rows := by
  have enrolled : rows.filter (fun row => row.groupId = group.id) = rows := by
    rw [List.filter_eq_self]
    intro row member
    exact decide_eq_true (enrols.ofGroup row member).1
  show (t'.groupMembers ++ rows).filter _ = _
  rw [List.filter_append, enrolled]
  have before := joins.membersOf
  rw [founds.nobody governed, List.nil_append, Db.Tables.membersOf] at before
  rw [before, List.singleton_append]

/-- Those who join a new group after its creator are users whom it names, and they are as many as
there is no crowd. -/
theorem Enrols.length_lt (enrols : Enrols p t g users rows) (few : ¬ Crowded t users) :
    rows.length < 50 := by
  by_contra many
  have enough : 50 ≤ rows.length := by omega
  apply few
  refine ⟨(rows.map Db.GroupMember.userId).take 50, ?_, ?_, ?_, ?_⟩
  · exact (List.take_prefix 50 _).trans enrols.front
  · rw [List.length_take, List.length_map]
    omega
  · exact enrols.distinct.sublist (List.take_sublist 50 _)
  · intro u member
    obtain ⟨row, there, rfl⟩ := List.mem_map.mp (List.mem_of_mem_take member)
    have admitted := enrols.admitted row there
    by_contra unknown
    push Not at unknown
    exact admitted (Or.inr (Or.inr unknown))

/-- While nothing fails, a crowd joins a group that knows none of it. -/
theorem Enrols.crowd_le (enrols : Enrols p t g users rows) (clean : ∀ c, p c → c.fault = none)
    (there : ∃ group ∈ t.groups, group.id = g) (crowded : Crowded t users)
    (outside : ∀ row ∈ t.groupMembers, row.groupId = g → row.userId ∉ users) :
    50 ≤ rows.length := by
  obtain ⟨crowd, front, size, distinct, known⟩ := crowded
  by_contra few
  have short : (rows.map Db.GroupMember.userId).length < crowd.length := by
    rw [List.length_map]
    omega
  -- both are fronts of the users, so the next of the crowd is the first who has not joined
  have inside : rows.map Db.GroupMember.userId <+: crowd :=
    List.prefix_of_prefix_length_le enrols.front front short.le
  obtain ⟨rest, split⟩ := inside
  cases rest with
  | nil =>
      rw [List.append_nil] at split
      rw [split] at short
      exact Nat.lt_irrefl _ short
  | cons next rest =>
      have named : next ∈ crowd := by
        rw [← split]
        exact List.mem_append_right _ List.mem_cons_self
      have shorter : rows.map Db.GroupMember.userId ++ [next] <+: users := by
        refine List.IsPrefix.trans ⟨rest, ?_⟩ front
        rw [← split, List.append_assoc, List.singleton_append]
      rcases enrols.stops clean next shorter with joined | member | none | unknown
      · rw [← split, List.nodup_append] at distinct
        exact distinct.2.2 next joined next List.mem_cons_self rfl
      · obtain ⟨row, listed, ofGroup, rfl⟩ := member
        exact outside row listed ofGroup (front.subset named)
      · obtain ⟨group, listed, is⟩ := there
        exact none group listed is
      · obtain ⟨user, listed, is⟩ := known next named
        exact unknown user listed is

/-- Groups that keep their limit and get no members stay within it. -/
theorem GroupsBounded.fewer (bounded : GroupsBounded t)
    (groups : ∀ group' ∈ t'.groups, ∃ group ∈ t.groups,
      group.id = group'.id ∧ group.maxMembers = group'.maxMembers)
    (fewer : ∀ id, (t'.membersOf id).length ≤ (t.membersOf id).length) : GroupsBounded t' := by
  intro group' there
  obtain ⟨group, old, sameId, sameLimit⟩ := groups group' there
  have before := bounded group old
  have after := fewer group'.id
  rw [sameId] at before
  rw [← sameLimit]
  omega

theorem GroupsBounded.filter {keep : Db.GroupMember → Bool} {keepGroup : Db.Group → Bool}
    (bounded : GroupsBounded t) (groups : t'.groups = t.groups.filter keepGroup)
    (members : t'.groupMembers = t.groupMembers.filter keep) : GroupsBounded t' := by
  apply bounded.fewer
  · intro group there
    rw [groups] at there
    exact ⟨group, List.mem_of_mem_filter there, rfl, rfl⟩
  · intro id
    rw [Db.membersOf_filter members]
    exact List.length_filter_le _ _

theorem GroupsBounded.filterMembers {keep : Db.GroupMember → Bool} (bounded : GroupsBounded t)
    (groups : t'.groups = t.groups) (members : t'.groupMembers = t.groupMembers.filter keep) :
    GroupsBounded t' := by
  rw [← List.filter_true t.groups] at groups
  exact bounded.filter groups members

theorem GroupsBounded.same (bounded : GroupsBounded t) (same : SameGroups t t') :
    GroupsBounded t' := by
  have members := same.2
  rw [← List.filter_true t.groupMembers] at members
  exact bounded.filterMembers same.1 members

theorem GroupsBounded.updateGroupName (bounded : GroupsBounded t) {groupId : Uuid} {name : String} :
    GroupsBounded (Db.Groups.updateGroupName groupId name t).2 := by
  apply bounded.fewer
  · intro group' there'
    obtain ⟨group, there, sameId, -, sameLimit⟩ := Db.mem_updateGroupName there'
    exact ⟨group, there, sameId, sameLimit⟩
  · intro id
    rw [Db.Tables.membersOf, Db.members_updateGroupName, Db.Tables.membersOf]

theorem GroupChange.bounded (change : GroupChange p t u request t') (room : RoomFor t u request)
    (governed : Governed t) (bounded : GroupsBounded t) : GroupsBounded t' := by
  cases change with
  | none same => exact bounded.same same
  | bare founds _ =>
      intro group there
      rcases List.mem_append.mp there with old | new
      · exact bounded group old
      · rw [List.mem_singleton.mp new, founds.nobody governed, founds.size]
        decide
  | @created request founded first rows t₁ founds joins role enrols =>
      have few := enrols.length_lt (by
        rintro ⟨crowd, front, size, distinct, known⟩
        rw [joins.after] at known
        exact room ⟨crowd, front, size, distinct, known⟩)
      intro group there
      rw [joins.append] at there
      rcases List.mem_append.mp there with old | new
      · have others : ∀ row ∈ first :: rows, row.groupId ≠ group.id := by
          intro row member
          rw [enrols.listed joins row member]
          exact (founds.new group old).symm
        have same := Db.membersOf_append_of_ne (t := t) others
        rw [joins.append]
        show (((t.groupMembers ++ first :: rows).filter _).length : Int) ≤ _
        rw [same]
        exact bounded group old
      · rw [List.mem_singleton.mp new, founds.membersOf governed joins enrols, founds.size,
          List.length_cons]
        omega
  | @joined groupId request row _ admin role joins =>
      intro group there
      rw [joins.after] at there
      by_cases same : groupId = group.id
      · have found := room admin joins.admitted group there same.symm
        rw [← same, joins.membersOf, List.length_append, List.length_singleton]
        omega
      · rw [joins.membersOf_of_ne same]
        exact bounded group there
  | removed _ _ => exact bounded.filterMembers rfl rfl
  | left => exact bounded.filterMembers rfl rfl
  | emptied _ => exact bounded.filterMembers rfl rfl
  | @dismantled groupId _ =>
      have emptied : GroupsBounded (Db.Groups.deleteMembers groupId t).2 :=
        bounded.filterMembers rfl rfl
      exact emptied.filter rfl rfl
  | renamed _ => exact bounded.updateGroupName
  | deleted =>
      rcases deleteUser_cases t u with same | gone
      · rw [same]
        exact bounded
      · rw [gone]
        exact bounded.filter rfl rfl

/-- Where nothing fails, a request that lets someone in without room goes beyond the limit. -/
theorem GroupChange.crowds (change : GroupChange p t u request t')
    (clean : ∀ c, p c → c.fault = .none) (governed : Governed t) (against : ¬ RoomFor t u request)
    (more : t.groupMembers.length < t'.groupMembers.length) : ¬ GroupsBounded t' := by
  have fewer (keep : Db.GroupMember → Bool) :
      ¬ t.groupMembers.length < (t.groupMembers.filter keep).length := by
    have length := List.length_filter_le keep t.groupMembers
    omega
  cases change with
  | none same =>
      rw [same.2] at more
      exact (Nat.lt_irrefl _ more).elim
  | bare _ _ => exact (Nat.lt_irrefl _ more).elim
  | @created request founded first rows t₁ founds joins role enrols =>
      intro bounded
      have there : founded ∈ t₁.groups := by
        rw [joins.after]
        exact List.mem_concat_self
      have crowded : Crowded t₁ (request.memberIds.filter fun id => id ≠ u) := by
        obtain ⟨crowd, front, size, distinct, known⟩ := not_not.mp against
        rw [joins.after]
        exact ⟨crowd, front, size, distinct, known⟩
      have many := enrols.crowd_le clean ⟨founded, there, rfl⟩ crowded (by
        intro row member ofGroup named
        rw [joins.after] at member
        rcases List.mem_append.mp member with old | new
        · exact founds.row_of_ne governed old ofGroup
        · rw [List.mem_singleton.mp new, joins.ofUser] at named
          exact absurd (List.mem_filter.mp named).2 (by simp))
      have within := bounded founded there
      rw [founds.membersOf governed joins enrols, founds.size, List.length_cons] at within
      omega
  | @joined groupId request row _ admin role joins =>
      intro bounded
      apply against
      intro _ _ group there is
      have within := bounded group (by rw [joins.after]; exact there)
      rw [is, joins.membersOf, List.length_append, List.length_singleton] at within
      omega
  | removed _ _ => exact (fewer _ more).elim
  | left => exact (fewer _ more).elim
  | emptied _ => exact (fewer _ more).elim
  | @dismantled groupId _ => exact (against trivial).elim
  | renamed _ => exact (against trivial).elim
  | deleted => exact (against trivial).elim

end

/-- As long as every request finds room for those whom it lets in, no group has more members than
its row allows. The first that lets someone in without room, while nothing fails, makes a group
too large. -/
theorem groups_bounded (p : Chance → Prop) (first s : Server)
    (steps : List (Server × GroupEvent × Server)) (groups : first.db.groups = [])
    (members : first.db.groupMembers = []) (run : Trail (GroupEvent.step p) first steps s)
    (room : ∀ x ∈ steps, FindsRoom x.1 x.2.1) :
    GroupsBounded s.db ∧ ∀ event s', (∀ c, p c → c.fault = none) → event.step p s s' →
      ¬ FindsRoom s event → s.db.groupMembers.length < s'.db.groupMembers.length →
      ¬ GroupsBounded s'.db := by
  have start : Governed first.db ∧ GroupsBounded first.db := by
    refine ⟨.of_nobody members, ?_⟩
    rw [GroupsBounded, groups]
    exact List.forall_mem_nil _
  have holds : Governed s.db ∧ GroupsBounded s.db := by
    apply run.keeps (C := fun s event _ => FindsRoom s event)
      (I := fun s => Governed s.db ∧ GroupsBounded s.db) start _ room
    rintro s event s' taken room ⟨governed, bounded⟩
    cases event with
    | call auth request =>
        have change := GroupEvent.change taken
        exact ⟨change.governed governed, change.bounded room governed bounded⟩
    | other => exact ⟨governed.same taken, bounded.same taken⟩
  refine ⟨holds.2, ?_⟩
  intro event s' clean taken against more
  cases event with
  | call auth request => exact (GroupEvent.change taken).crowds clean holds.1 against more
  | other => exact (against trivial).elim

/-- Everyone is in, and a group of all of them is asked for. -/
def hallGuest (i : Nat) : Uuid := .replicate 16 (.ofNat i)

def hall : Server :=
  .start 0 { users := (List.range 51).map fun i =>
    { Db.User.sample (hallGuest i) with username := toString i, phoneNumber := toString i } }

def hallEvent : GroupEvent :=
  .call (clubUser 0) (.createGroup ⟨"hall", false, (List.range 51).map hallGuest⟩)

theorem hall_filled : ∃ s, hallEvent.step (fun _ => True) hall s ∧ ¬ GroupsBounded s.db := by
  have ran : ((exec (List.replicate 60 { uuid := .replicate 16 9 })
      (GroupRequest.handle (clubUser 0)
      (.createGroup ⟨"hall", false, (List.range 51).map hallGuest⟩)).run
      hall).any fun x => x.2.db.groups.any fun group =>
        group.maxMembers < (x.2.db.membersOf group.id).length) = true := by
    decide +kernel
  obtain ⟨⟨r, s⟩, result, found⟩ := (Option.any_eq_true _ _).mp ran
  obtain ⟨group, there, larger⟩ := List.any_eq_true.mp found
  refine ⟨s, ⟨r, runs_of_exec (fun _ _ _ => trivial) result⟩, ?_⟩
  intro bounded
  have within := bounded group there
  have beyond : group.maxMembers < ((s.db.membersOf group.id).length : Int) :=
    of_decide_eq_true larger
  omega

theorem groups_unbounded :
    ¬ ∀ (steps : List (Server × GroupEvent × Server)) (s : Server),
      Trail (GroupEvent.step fun _ => True) hall steps s → GroupsBounded s.db := by
  intro always
  obtain ⟨s, taken, larger⟩ := hall_filled
  exact larger (always _ s (Trail.start.next taken))

/-- Alice makes a group, and then she lets Bob in: it is within its limit. -/
theorem club_bounded : GroupsBounded
    (club clubUsers [clubGroup] [clubMember 1 "admin", clubMember 2 "member"]).db := by
  have created : Trail (GroupEvent.step fun _ => True) (club clubUsers [] [])
      [(club clubUsers [] [], .call (clubUser 1) (.createGroup ⟨"club", false, []⟩),
        club clubUsers [clubGroup] [clubMember 1 "admin"])]
      (club clubUsers [clubGroup] [clubMember 1 "admin"]) :=
    ClubRun.next .start 1 9 (.createGroup ⟨"club", false, []⟩) rfl
  have joined : Trail (GroupEvent.step fun _ => True) (club clubUsers [] []) _
      (club clubUsers [clubGroup] [clubMember 1 "admin", clubMember 2 "member"]) :=
    ClubRun.next created 1 9 (.addMember (.replicate 16 9) ⟨.replicate 16 2⟩) rfl
  refine (groups_bounded (fun _ => True) (club clubUsers [] []) _ _ rfl rfl joined ?_).1
  simp only [List.forall_mem_append, List.forall_mem_singleton]
  constructor
  · rintro ⟨crowd, front, size, -⟩
    have short := front.length_le
    rw [size] at short
    exact absurd short (by decide)
  · intro _ _ group there _
    rw [List.mem_singleton.mp there]
    decide

end Hysj.Api
