import Mathlib.Data.List.Dedup
import Hysj.Api.GroupSize
import Hysj.Base.Exec

set_option autoImplicit false

/- Whether a group is created with all its members or not at all. -/
namespace Hysj.Api

open Crypto Shared Auth Messaging Program

/-- The users that the creator of a group names, but the creator. -/
def othersNamed (request : CreateGroupRequest) (u : Uuid) : List Uuid :=
  request.memberIds.filter fun id => id ≠ u

section

variable {cs left : List Chance} {s s' : Server} {auth : AuthUser} {groupId u : Uuid}

theorem execRest_adapt_query {α ε : Type} {f : DbError → ε} {statement : Nat → Db.Statement α}
    {r : Except ε α}
    (ran : execRest cs (ExceptT.adapt f (query statement)).run s = some (r, s', left)) :
    ∃ c, cs = c :: left ∧
      ((c.fault ≠ none ∧ (∃ e, r = .error e) ∧ s' = s) ∨
        c.fault = none ∧ r = (statement s.redis.now s.db).1.mapError f ∧
          s' = { s with db := (statement s.redis.now s.db).2 }) := by
  rw [execRest_adapt] at ran
  cases cs with
  | nil => cases ran
  | cons c cs =>
      rw [query, ExceptT.run_mk, execRest_act] at ran
      cases fault : c.fault with
      | some e =>
          rw [fault] at ran
          obtain ⟨rfl, rfl, rfl⟩ := rest_inj ran
          exact ⟨c, rfl, Or.inl ⟨fault ▸ Option.some_ne_none e, ⟨_, rfl⟩, rfl⟩⟩
      | none =>
          rw [fault] at ran
          obtain ⟨rfl, rfl, rfl⟩ := rest_inj ran
          exact ⟨c, rfl, Or.inr ⟨fault, rfl, rfl⟩⟩

/-- A user joins, unless the statement fails or the user cannot. -/
theorem execRest_addMember {ε : Type} {f : DbError → ε} {role : String}
    {r : Except ε Db.GroupMember}
    (ran : execRest cs (ExceptT.adapt f
      (query fun now => Db.Groups.addMember groupId u role now)).run s = some (r, s', left)) :
    ∃ c, cs = c :: left ∧
      ((∃ row, r = .ok row ∧ c.fault = none ∧ row.role = role ∧ Db.Joins s.db groupId u row s'.db) ∨
        (∃ e, r = .error e) ∧ s' = s ∧ ¬ (c.fault = none ∧ ¬ Db.Refused s.db groupId u)) := by
  obtain ⟨c, rfl, ⟨fault, failed, same⟩ | ⟨clean, rfl, rfl⟩⟩ := execRest_adapt_query ran
  · exact ⟨c, rfl, Or.inr ⟨failed, same, fun both => fault both.1⟩⟩
  · refine ⟨c, rfl, ?_⟩
    cases added : (Db.Groups.addMember groupId u role s.redis.now s.db).1 with
    | ok row =>
        obtain ⟨joins, is⟩ := Db.addMember_eq_ok added
        exact Or.inl ⟨row, rfl, clean, is, joins⟩
    | error e =>
        obtain ⟨same, refused⟩ := Db.addMember_eq_error added
        refine Or.inr ⟨⟨_, rfl⟩, ?_, fun both => both.2 refused⟩
        rw [same]

/-- What the loop over the named users comes to: it ends well exactly if no statement fails, and
everyone can join and is named once. -/
structure Enrolment (s : Server) (groupId : Uuid) (users : List Uuid) (used : List Chance)
    (r : Except HysjError PUnit) (s' : Server) : Prop where
  fails : (∃ e, r = .error e) ↔ ¬ ((∀ c ∈ used, c.fault = none) ∧ users.Nodup ∧
    ∀ u ∈ users, ¬ Db.Refused s.db groupId u)
  groups : s'.db.groups = s.db.groups
  rows : r = .ok () → ∃ rows : List Db.GroupMember,
    s'.db.groupMembers = s.db.groupMembers ++ rows ∧
    rows.map (fun row => (row.groupId, row.userId, row.role)) =
      users.map fun u => (groupId, u, "member")

theorem Enrolment.added {users : List Uuid} {used : List Chance} {r : Except HysjError PUnit}
    (enrolment : Enrolment s groupId users used r s') (done : r = .ok ()) :
    ∃ rows : List Db.GroupMember, s'.db.groupMembers = s.db.groupMembers ++ rows ∧
      (∀ row ∈ rows, row.groupId = groupId) ∧
      rows.map (fun row => (row.userId, row.role)) = users.map fun u => (u, "member") := by
  obtain ⟨rows, after, are⟩ := enrolment.rows done
  refine ⟨rows, after, ?_, ?_⟩
  · intro row member
    have listed := List.mem_map_of_mem (f := fun row : Db.GroupMember =>
      (row.groupId, row.userId, row.role)) member
    rw [are] at listed
    obtain ⟨u, -, same⟩ := List.mem_map.mp listed
    exact (Prod.mk.inj same).1.symm
  · have same := congrArg (List.map Prod.snd) are
    rwa [List.map_map, List.map_map] at same

theorem enrolment_nil : Enrolment s groupId [] [] (.ok ()) s where
  fails := by simp
  groups := rfl
  rows _ := ⟨[], by simp, rfl⟩

theorem enrolment_stops {c : Chance} {users : List Uuid} {r : Except HysjError PUnit}
    (failed : ∃ e, r = .error e) (why : ¬ (c.fault = none ∧ ¬ Db.Refused s.db groupId u)) :
    Enrolment s groupId (u :: users) [c] r s where
  fails := by
    refine iff_of_true failed fun all => why ⟨?_, ?_⟩
    · exact all.1 c List.mem_cons_self
    · exact all.2.2 u List.mem_cons_self
  groups := rfl
  rows ok := by
    obtain ⟨e, rfl⟩ := failed
    cases ok

theorem Enrolment.cons {c : Chance} {users : List Uuid} {used : List Chance} {m : Server}
    {row : Db.GroupMember} {r : Except HysjError PUnit} (clean : c.fault = none)
    (joins : Db.Joins s.db groupId u row m.db) (role : row.role = "member")
    (rest : Enrolment m groupId users used r s') :
    Enrolment s groupId (u :: users) (c :: used) r s' where
  fails := by
    rw [rest.fails, not_iff_not]
    simp only [joins.refused_iff, List.forall_mem_cons, List.nodup_cons, not_or]
    constructor
    · rintro ⟨cleans, once, admitted⟩
      exact ⟨⟨clean, cleans⟩, ⟨fun member => (admitted u member).1 rfl, once⟩, joins.admitted,
        fun v member => (admitted v member).2⟩
    · rintro ⟨⟨-, cleans⟩, ⟨new, once⟩, -, admitted⟩
      exact ⟨cleans, once, fun v member => ⟨fun same => new (same ▸ member), admitted v member⟩⟩
  groups := by
    rw [rest.groups, joins.after]
  rows ok := by
    obtain ⟨rows, after, are⟩ := rest.rows ok
    refine ⟨row :: rows, ?_, ?_⟩
    · rw [after, joins.after]
      simp
    · rw [List.map_cons, List.map_cons, are, joins.ofGroup, joins.ofUser, role]

theorem execRest_addNamed {named : List Uuid} {r : Except HysjError PUnit}
    (ran : execRest cs (forM named fun id => Groups.addNamed auth groupId id).run s =
      some (r, s', left)) :
    ∃ used, cs = used ++ left ∧
      Enrolment s groupId (named.filter fun id => id ≠ auth.userId) used r s' := by
  induction named generalizing cs s with
  | nil =>
      rw [List.forM_nil, execRest_run_pure] at ran
      obtain ⟨rfl, rfl, rfl⟩ := rest_inj ran
      exact ⟨[], rfl, enrolment_nil⟩
  | cons id named ih =>
      rw [List.forM_cons, execRest_run_bind] at ran
      obtain ⟨⟨outcome, m, cs'⟩, first, rest⟩ := Option.bind_eq_some_iff.mp ran
      by_cases own : id = auth.userId
      · rw [Groups.addNamed, if_neg (not_not.mpr own), execRest_run_pure] at first
        obtain ⟨rfl, rfl, rfl⟩ := rest_inj first
        rw [List.filter_cons_of_neg (by simpa using own)]
        exact ih rest
      · rw [List.filter_cons_of_pos (by simpa using own)]
        rw [Groups.addNamed, if_pos own, execRest_run_bind] at first
        obtain ⟨⟨added, m', cs''⟩, adds, done⟩ := Option.bind_eq_some_iff.mp first
        obtain ⟨c, rfl, ⟨row, rfl, clean, role, joins⟩ | ⟨⟨e, rfl⟩, rfl, why⟩⟩ :=
          execRest_addMember adds
        · rw [thenRun, execRest_run_pure] at done
          obtain ⟨rfl, rfl, rfl⟩ := rest_inj done
          obtain ⟨used, rfl, enrolment⟩ := ih rest
          exact ⟨c :: used, rfl, enrolment.cons clean joins role⟩
        · obtain ⟨rfl, rfl, rfl⟩ := rest_inj done
          obtain ⟨rfl, rfl, rfl⟩ := rest_inj rest
          exact ⟨[c], rfl, enrolment_stops ⟨e, rfl⟩ why⟩

theorem execRest_buildGroupResponse {r : Except HysjError GroupResponse}
    (there : ∃ group ∈ s.db.groups, group.id = groupId)
    (ran : execRest cs (Groups.buildGroupResponse groupId).run s = some (r, s', left)) :
    s' = s ∧ ∃ used, cs = used ++ left ∧ ((∃ e, r = .error e) ↔ ¬ ∀ c ∈ used, c.fault = none) ∧
      ∀ response, r = .ok response → response.id = groupId := by
  rw [Groups.buildGroupResponse, execRest_run_bind] at ran
  obtain ⟨⟨outcome, m, cs'⟩, finds, rest⟩ := Option.bind_eq_some_iff.mp ran
  obtain ⟨c, rfl, ⟨fault, ⟨e, rfl⟩, rfl⟩ | ⟨clean, is, after⟩⟩ := execRest_adapt_query finds
  · obtain ⟨rfl, rfl, rfl⟩ := rest_inj rest
    refine ⟨rfl, [c], rfl, iff_of_true ⟨e, rfl⟩ fun all => fault (all c List.mem_cons_self), ?_⟩
    intro response other
    cases other
  · have found : ∃ group, s.db.groups.find? (fun row => row.id = groupId) = some group ∧
        group.id = groupId := by
      obtain ⟨group, listed, same⟩ := there
      cases found : s.db.groups.find? (fun row => row.id = groupId) with
      | none => exact absurd (List.find?_eq_none.mp found group listed) (by simpa using same)
      | some group => exact ⟨group, rfl, by simpa using List.find?_some found⟩
    obtain ⟨group, found, same⟩ := found
    rw [Db.Groups.findById, found] at is after
    obtain rfl : m = s := after
    obtain rfl : outcome = .ok group := is
    rw [thenRun, execRest_run_bind] at rest
    obtain ⟨⟨outcome, m', cs''⟩, lists, last⟩ := Option.bind_eq_some_iff.mp rest
    obtain ⟨c', rfl, ⟨fault, ⟨e, rfl⟩, rfl⟩ | ⟨clean', is, after⟩⟩ := execRest_adapt_query lists
    · obtain ⟨rfl, rfl, rfl⟩ := rest_inj last
      refine ⟨rfl, [c, c'], rfl, iff_of_true ⟨e, rfl⟩ fun all => fault (all c' (by simp)), ?_⟩
      intro response other
      cases other
    · obtain rfl : m' = m := after
      obtain rfl : outcome = .ok (m'.db.groupMembers.filter fun row => row.groupId = groupId) := is
      rw [thenRun, execRest_run_pure] at last
      obtain ⟨rfl, rfl, rfl⟩ := rest_inj last
      refine ⟨rfl, [c, c'], rfl, iff_of_false ?_ fun all => all ?_, ?_⟩
      · rintro ⟨e, other⟩
        cases other
      · simp [clean, clean']
      · rintro response is
        rw [← Except.ok.inj is]
        exact same

variable {request : CreateGroupRequest}

/-- The request comes to nothing before the group is inserted, or in that statement. -/
def EndsEarly (s : Server) (auth : AuthUser) (request : CreateGroupRequest)
    (cs : List Chance) : Prop :=
  (∃ e, Groups.checkName request.name = .error e) ∨
    ∃ c c' rest, cs = c :: c' :: rest ∧
      (c'.fault ≠ none ∨ (∃ old ∈ s.db.groups, old.id = c.uuid) ∨
        ∀ user ∈ s.db.users, user.id ≠ auth.userId)

/-- No user but the creator is named twice, and everyone who is named exists. -/
def NamedWell (s : Server) (auth : AuthUser) (request : CreateGroupRequest) : Prop :=
  (othersNamed request auth.userId).Nodup ∧
    ∀ u ∈ othersNamed request auth.userId, ∃ user ∈ s.db.users, user.id = u

/-- The members that the group is to have, with their roles. -/
def wanted (auth : AuthUser) (request : CreateGroupRequest) : List (Uuid × String) :=
  (auth.userId, "admin") :: (othersNamed request auth.userId).dedup.map fun u => (u, "member")

/-- The group is there with just these members. -/
def Founded (auth : AuthUser) (request : CreateGroupRequest) (r : Except HysjError GroupResponse)
    (s' : Server) : Prop :=
  ∃ response, r = .ok response ∧
    ((s'.db.membersOf response.id).map fun row => (row.userId, row.role)).Perm (wanted auth request)

/-- Everything that comes after the group is inserted. -/
structure Late (s : Server) (auth : AuthUser) (request : CreateGroupRequest) (used : List Chance)
    (r : Except HysjError GroupResponse) (s' : Server) : Prop where
  inserted : ∃ group, s'.db.groups = s.db.groups ++ [group]
  fails : (∃ e, r = .error e) ↔ ¬ ((∀ c ∈ used, c.fault = none) ∧ NamedWell s auth request)
  founded : (¬ ∃ e, r = .error e) → Founded auth request r s'

theorem refused_of_new {group : Db.Group} {first : Db.GroupMember} {t : Db.Tables}
    (founds : NewGroup s.db auth.userId group) (governed : Governed s.db)
    (joins : Db.Joins (s.db.withGroup group) group.id auth.userId first t)
    (other : u ≠ auth.userId) :
    ¬ Db.Refused t group.id u ↔ ∃ user ∈ s.db.users, user.id = u := by
  rw [joins.refused_iff]
  simp only [other, false_or, Db.Refused, Db.Tables.withGroup]
  constructor
  · intro admitted
    by_contra unknown
    push Not at unknown
    exact admitted (Or.inr (Or.inr unknown))
  · rintro ⟨user, there, rfl⟩ (⟨row, member, ofGroup, -⟩ | none | unknown)
    · exact founds.row_of_ne governed member ofGroup
    · exact none group List.mem_concat_self rfl
    · exact unknown user there rfl

theorem admitted_of_new {group : Db.Group} (founds : NewGroup s.db auth.userId group)
    (governed : Governed s.db) : ¬ Db.Refused (s.db.withGroup group) group.id auth.userId := by
  obtain ⟨user, there, is⟩ := founds.known
  rintro (⟨row, member, ofGroup, -⟩ | none | unknown)
  · exact founds.row_of_ne governed member ofGroup
  · exact none group List.mem_concat_self rfl
  · exact unknown user there is

/-- The members of a new group are its creator and those who are added. -/
theorem membersOf_new {group : Db.Group} {first : Db.GroupMember} {rows : List Db.GroupMember}
    {t : Db.Tables} (founds : NewGroup s.db auth.userId group) (governed : Governed s.db)
    (joins : Db.Joins (s.db.withGroup group) group.id auth.userId first t)
    (ofGroup : ∀ row ∈ rows, row.groupId = group.id) {t' : Db.Tables}
    (after : t'.groupMembers = t.groupMembers ++ rows) : t'.membersOf group.id = first :: rows := by
  have none_before : s.db.groupMembers.filter (fun row => row.groupId = group.id) = [] := by
    rw [List.filter_eq_nil_iff]
    intro row member
    simpa using founds.row_of_ne governed member
  have all_after : rows.filter (fun row => row.groupId = group.id) = rows := by
    rw [List.filter_eq_self]
    intro row member
    exact decide_eq_true (ofGroup row member)
  have members : t.groupMembers = s.db.groupMembers ++ [first] := by
    rw [joins.after]
    rfl
  have one : [first].filter (fun row => row.groupId = group.id) = [first] :=
    List.filter_cons_of_pos (decide_eq_true joins.ofGroup)
  rw [Db.Tables.membersOf, after, members, List.filter_append, List.filter_append, none_before,
    all_after, one]
  rfl

theorem late_of_inserted {group : Db.Group} {m : Server} {r : Except HysjError GroupResponse}
    (founds : NewGroup s.db auth.userId group) (governed : Governed s.db)
    (is : m.db = s.db.withGroup group)
    (ran : execRest cs (do
      let _ ← ExceptT.adapt HysjError.ofDb (query fun now =>
        Db.Groups.addMember group.id auth.userId "admin" now)
      forM request.memberIds fun memberId => Groups.addNamed auth group.id memberId
      Groups.buildGroupResponse group.id :
      Task HysjError GroupResponse).run m = some (r, s', left)) :
    ∃ used, cs = used ++ left ∧ Late s auth request used r s' := by
  rw [execRest_run_bind] at ran
  obtain ⟨⟨outcome, m₁, cs₁⟩, adds, rest⟩ := Option.bind_eq_some_iff.mp ran
  obtain ⟨c, rfl, ⟨first, rfl, clean, role, joins⟩ | ⟨⟨e, rfl⟩, rfl, why⟩⟩ :=
    execRest_addMember adds
  swap
  · -- the creator could join, so the statement has failed
    obtain ⟨rfl, rfl, rfl⟩ := rest_inj rest
    refine ⟨[c], rfl, ⟨group, by rw [is]; rfl⟩, iff_of_true ⟨e, rfl⟩ fun both => why ⟨?_, ?_⟩, ?_⟩
    · exact both.1 c List.mem_cons_self
    · rw [is]
      exact admitted_of_new founds governed
    · exact fun fine => absurd ⟨e, rfl⟩ fine
  rw [is] at joins
  rw [thenRun, execRest_run_bind] at rest
  obtain ⟨⟨outcome, m₂, cs₂⟩, enrols, last⟩ := Option.bind_eq_some_iff.mp rest
  obtain ⟨used, rfl, enrolment⟩ := execRest_addNamed enrols
  have groups : m₂.db.groups = s.db.groups ++ [group] := by
    rw [enrolment.groups, joins.after]
    rfl
  have named : (request.memberIds.filter (fun id => id ≠ auth.userId)).Nodup ∧
      (∀ u ∈ request.memberIds.filter (fun id => id ≠ auth.userId),
        ¬ Db.Refused m₁.db group.id u) ↔ NamedWell s auth request := by
    refine and_congr_right fun _ => forall₂_congr fun u member => ?_
    exact refused_of_new founds governed joins (by simpa using (List.mem_filter.mp member).2)
  have fails := enrolment.fails
  rw [named] at fails
  cases outcome with
  | error e =>
      obtain ⟨rfl, rfl, rfl⟩ := rest_inj last
      refine ⟨c :: used, rfl, ⟨group, groups⟩, iff_of_true ⟨e, rfl⟩ fun both => ?_, ?_⟩
      · exact fails.mp ⟨e, rfl⟩ ⟨fun c' member => both.1 c' (List.mem_cons_of_mem c member), both.2⟩
      · exact fun fine => absurd ⟨e, rfl⟩ fine
  | ok done =>
      have well : (∀ c ∈ used, c.fault = none) ∧ NamedWell s auth request := by
        by_contra other
        obtain ⟨e, absurd_⟩ := fails.mpr other
        cases absurd_
      have there : ∃ group' ∈ m₂.db.groups, group'.id = group.id := by
        rw [groups]
        exact ⟨group, List.mem_concat_self, rfl⟩
      obtain ⟨rfl, used', rfl, ends, answer⟩ := execRest_buildGroupResponse there last
      refine ⟨c :: (used ++ used'), by simp, ⟨group, groups⟩, ?_, fun fine => ?_⟩
      · rw [ends, not_iff_not]
        simp only [List.forall_mem_cons, List.forall_mem_append]
        exact ⟨fun cleans => ⟨⟨clean, well.1, cleans⟩, well.2⟩, fun both => both.1.2.2⟩
      · cases r with
        | error e => exact absurd ⟨e, rfl⟩ fine
        | ok response =>
            obtain ⟨rows, after, ofGroup, are⟩ := enrolment.added rfl
            refine ⟨response, rfl, ?_⟩
            rw [answer response rfl, membersOf_new founds governed joins ofGroup after, wanted,
              List.map_cons, joins.ofUser, role, well.2.1.dedup]
            exact List.Perm.of_eq (congrArg _ are)

theorem refused_of_not_created {id : Uuid} {name : String} {anonymous : Bool}
    {now : Nat} {e : DbError}
    (failed : (Db.Groups.createGroup id name u anonymous now s.db).1 = .error e) :
    (∃ old ∈ s.db.groups, old.id = id) ∨ ∀ user ∈ s.db.users, user.id ≠ u := by
  unfold Db.Groups.createGroup at failed
  dsimp only at failed
  split at failed
  · rename_i taken
    exact Or.inl (by simpa using taken)
  · split at failed
    · cases failed
    · rename_i unknown
      exact Or.inr (by simpa using unknown)

theorem execRest_createGroup {r : Except HysjError GroupResponse} (governed : Governed s.db)
    (ran : execRest cs (Groups.createGroup auth request).run s = some (r, s', left)) :
    (EndsEarly s auth request cs ∧ (∃ e, r = .error e) ∧ SameGroups s.db s'.db) ∨
      ¬ EndsEarly s auth request cs ∧ ∃ c c' used, cs = c :: c' :: used ++ left ∧
        Late s auth request used r s' := by
  rw [Groups.createGroup, execRest_run_bind, ofResult, ExceptT.run_mk, execRest_pure] at ran
  cases named : Groups.checkName request.name with
  | error e =>
      rw [named] at ran
      obtain ⟨rfl, rfl, rfl⟩ := rest_inj ran
      exact Or.inl ⟨Or.inl ⟨e, named⟩, ⟨e, rfl⟩, rfl, rfl⟩
  | ok done =>
      rw [named, Option.bind_some, thenRun, execRest_run_bind, random, execRest_lift] at ran
      cases cs with
      | nil => cases ran
      | cons c cs =>
          rw [execRest_act, Option.map_some, Option.bind_some, thenRun, execRest_run_bind] at ran
          obtain ⟨⟨outcome, m, cs'⟩, inserts, rest⟩ := Option.bind_eq_some_iff.mp ran
          obtain ⟨c', rfl, ⟨fault, ⟨e, rfl⟩, rfl⟩ | ⟨clean, inserted, after⟩⟩ :=
            execRest_adapt_query inserts
          · obtain ⟨rfl, rfl, rfl⟩ := rest_inj rest
            exact Or.inl ⟨Or.inr ⟨c, c', _, rfl, Or.inl fault⟩, ⟨e, rfl⟩, rfl, rfl⟩
          · cases created : (Db.Groups.createGroup c.uuid request.name auth.userId
                request.isAnonymous s.redis.now s.db).1 with
            | error e =>
                rw [created] at inserted
                subst inserted
                rw [Db.createGroup_eq_error created] at after
                subst after
                obtain ⟨rfl, rfl, rfl⟩ := rest_inj rest
                exact Or.inl ⟨Or.inr ⟨c, c', _, rfl, Or.inr (refused_of_not_created created)⟩,
                  ⟨_, rfl⟩, rfl, rfl⟩
            | ok group =>
                obtain ⟨is, new, known, stored⟩ := Db.createGroup_eq_ok created
                rw [created] at inserted
                subst inserted
                rw [stored] at after
                have founds : NewGroup s.db auth.userId group := by
                  rw [is]
                  exact ⟨new, rfl, known, rfl⟩
                obtain ⟨used, rfl, late⟩ := late_of_inserted founds governed (by rw [after]) rest
                refine Or.inr ⟨?_, c, c', used, rfl, late⟩
                rintro (⟨e, other⟩ | ⟨_, _, _, same, why⟩)
                · rw [named] at other
                  cases other
                · simp only [List.cons.injEq] at same
                  obtain ⟨rfl, rfl, -⟩ := same
                  rcases why with fault | ⟨old, there, taken⟩ | unknown
                  · exact fault clean
                  · exact new old there taken
                  · obtain ⟨user, there, same⟩ := known
                    exact unknown user there same

/-- A request that asks for nothing wrong, however its list is written. -/
structure GoodRequest (s : Server) (auth : AuthUser) (request : CreateGroupRequest) : Prop where
  name : Groups.checkName request.name = .ok ()
  creator : ∃ user ∈ s.db.users, user.id = auth.userId
  members : ∀ u ∈ request.memberIds, ∃ user ∈ s.db.users, user.id = u
  size : 1 + (othersNamed request auth.userId).dedup.length ≤ 50

/-- No statement fails, and the identifier that is drawn is new. -/
def NothingFails (s : Server) (cs : List Chance) : Prop :=
  (∀ c ∈ cs, c.fault = none) ∧ ∀ c ∈ cs.head?, ∀ old ∈ s.db.groups, old.id ≠ c.uuid

/-- After an error groups and members are as before; and a good request succeeds if nothing fails.
-/
structure AllOrNothing (s : Server) (auth : AuthUser) (request : CreateGroupRequest)
    (cs : List Chance) (r : Except HysjError GroupResponse) (s' : Server) : Prop where
  atomic : (∃ e, r = .error e) → SameGroups s.db s'.db
  succeeds : GoodRequest s auth request → NothingFails s cs → Founded auth request r s'

/-- Once the group is inserted, no statement fails, no user but the creator is named twice and
everyone who is named exists. -/
def Settled (s : Server) (auth : AuthUser) (request : CreateGroupRequest)
    (cs : List Chance) : Prop :=
  EndsEarly s auth request cs ∨ (∀ c ∈ cs.drop 2, c.fault = none) ∧ NamedWell s auth request

theorem not_endsEarly_of_good (good : GoodRequest s auth request)
    (clean : NothingFails s cs) : ¬ EndsEarly s auth request cs := by
  rintro (⟨e, refused⟩ | ⟨c, c', rest, rfl, fault | ⟨old, there, taken⟩ | unknown⟩)
  · rw [good.name] at refused
    cases refused
  · exact fault (clean.1 c' (by simp))
  · exact clean.2 c rfl old there taken
  · obtain ⟨user, there, is⟩ := good.creator
    exact unknown user there is

/-- A request is all or nothing exactly if nothing can go wrong with it once the group is inserted.
The decisions are the ones that the run needs. -/
theorem creation_all_or_nothing_iff (first : Server) (steps : List (Server × GroupEvent × Server))
    (members : first.db.groupMembers = [])
    (run : Trail (GroupEvent.step fun _ => True) first steps s)
    (cs : List Chance) (r : Except HysjError GroupResponse)
    (ran : execRest cs (Groups.createGroup auth request).run s = some (r, s', [])) :
    AllOrNothing s auth request cs r s' ↔ Settled s auth request cs := by
  have governed : Governed s.db := (led_run (.of_nobody members) members run).governed
  rcases execRest_createGroup governed ran with
    ⟨early, failed, same⟩ | ⟨goes, c, c', used, rfl, late⟩
  · refine iff_of_true ⟨fun _ => same, fun good clean => ?_⟩ (Or.inl early)
    exact absurd early (not_endsEarly_of_good good clean)
  · have settled : Settled s auth request (c :: c' :: used ++ []) ↔ ¬ ∃ e, r = .error e := by
      rw [late.fails, not_not, Settled, or_iff_right goes, List.append_nil]
      rfl
    rw [settled]
    constructor
    · intro all failed
      obtain ⟨group, inserted⟩ := late.inserted
      have same := (all.atomic failed).1
      rw [inserted] at same
      exact absurd same (by simp)
    · exact fun fine => ⟨fun failed => absurd failed fine, fun _ _ => late.founded fine⟩

end

/-- Alice names Bob. -/
theorem club_all_or_nothing : ∃ r s',
    execRest (List.replicate 6 { uuid := .replicate 16 9 }) (Groups.createGroup (clubUser 1)
      ⟨"club", false, [.replicate 16 2]⟩).run (club clubUsers [] []) = some (r, s', []) ∧
    AllOrNothing (club clubUsers [] []) (clubUser 1) ⟨"club", false, [.replicate 16 2]⟩
      (List.replicate 6 { uuid := .replicate 16 9 }) r s' := by
  have ran :
      execRest (List.replicate 6 { uuid := .replicate 16 9 }) (Groups.createGroup (clubUser 1)
      ⟨"club", false, [.replicate 16 2]⟩).run (club clubUsers [] []) = some (_, _, []) := rfl
  refine ⟨_, _, ran, (creation_all_or_nothing_iff _ [] rfl .start _ _ ran).mpr (Or.inr ⟨?_, ?_⟩)⟩
  · intro c member
    rw [List.eq_of_mem_replicate (List.mem_of_mem_drop member)]
  · refine ⟨by decide, fun u member => ?_⟩
    have named : othersNamed ⟨"club", false, [.replicate 16 2]⟩ (clubUser 1).userId =
        [.replicate 16 2] := by decide
    rw [named] at member
    rw [List.mem_singleton.mp member]
    exact ⟨_, List.mem_cons_of_mem _ List.mem_cons_self, rfl⟩

/-- Alice names Bob twice, and is left with a group that she has been told there is not. -/
theorem club_half_created : ¬ ∀ (s s' : Server) (auth : AuthUser) (request : CreateGroupRequest)
    (cs : List Chance) (r : Except HysjError GroupResponse)
    (steps : List (Server × GroupEvent × Server)),
    Trail (GroupEvent.step fun _ => True) (club clubUsers [] []) steps s →
      execRest cs (Groups.createGroup auth request).run s = some (r, s', []) →
      AllOrNothing s auth request cs r s' := by
  intro all
  have ran :
      execRest (List.replicate 5 { uuid := .replicate 16 9 }) (Groups.createGroup (clubUser 1)
      ⟨"club", false, [.replicate 16 2, .replicate 16 2]⟩).run (club clubUsers [] []) =
        some (.error _, _, []) := rfl
  have same := ((all _ _ _ _ _ _ [] .start ran).atomic ⟨_, rfl⟩).1
  cases same

end Hysj.Api
