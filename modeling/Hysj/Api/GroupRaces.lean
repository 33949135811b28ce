import Hysj.Api.GroupAuthority
import Hysj.Base.PoolRuns

set_option autoImplicit false

/- Who changes a group, whatever the order of the statements of all requests. -/
namespace Hysj.Api

open Crypto Shared Auth Messaging Program

/-- A request of a user, or any program that leaves groups and members alone. -/
inductive GroupCall where
  | call (auth : AuthUser) (request : GroupRequest)
  | other (program : Program Chance Server Unit)
      (same : Keeps (fun s s' => SameGroups s.db s'.db) program)

def GroupCall.program : GroupCall → Program Chance Server Unit
  | .call auth request => (fun _ => ()) <$> (request.handle auth).run
  | .other program _ => program

abbrev GroupCalls := Pool Chance Server GroupCall Unit

abbrev GroupSteps := List (GroupCalls × Pool.Event Chance GroupCall × GroupCalls)

/-- Requests from the first state on, in any order of their statements. -/
abbrev GroupRun (first : Server) (steps : GroupSteps) (q : GroupCalls) : Prop :=
  Trail (fun q e q' => Pool.step GroupCall.program (fun seconds s => s.wait seconds) q e = some q')
    ⟨first, []⟩ steps q

/-- The request creates the group. -/
def Founds (u : Uuid) (request : GroupRequest) (g : Uuid) (t t' : Db.Tables) : Prop :=
  (∃ create, request = .createGroup create) ∧
    ∃ group, NewGroup t u group ∧ group.id = g ∧ t' = t.withGroup group

/-- What a request may do to a group for which it needs no admin. -/
inductive OfItself (u : Uuid) (request : GroupRequest) (t : Db.Tables) (g : Uuid) (t' : Db.Tables) :
    Prop where
  | founds (founds : Founds u request g t t')
  | leaves (is : request = .leaveGroup g) (after : t' = (Db.Groups.removeMember g u t).2)
  | deletes (is : request = .deleteAccount) (after : t' = t.withoutUser u)

/-- What takes a right. -/
inductive Power where
  | appoint (groupId userId : Uuid)
  | change (groupId : Uuid)

/-- A statement of the request that gives the right: it founds the group, or sees the user as an
admin. -/
def Entitles (u : Uuid) (request : GroupRequest) : Power → Db.Tables → Db.Tables → Prop
  | .appoint g v, t, t' => v = u ∧ Founds u request g t t'
  | .change g, t, t' => Founds u request g t t' ∨ t.IsAdmin g u ∧ t' = t

/-- A statement that takes the right. -/
def Takes (own : Db.Tables → Uuid → Db.Tables → Prop) : Power → Db.Tables → Db.Tables → Prop
  | .appoint g v, t, t' => t'.IsAdmin g v ∧ ¬ t.IsAdmin g v
  | .change g, t, t' => t'.roster g ≠ t.roster g ∧ ¬ own t g t'

namespace GroupCall

def Own : GroupCall → Db.Tables → Uuid → Db.Tables → Prop
  | .call auth request => OfItself auth.userId request
  | .other _ _ => fun _ _ _ => False

def Gains : GroupCall → Power → Server → Server → Prop
  | .call auth request, power, s, s' => Entitles auth.userId request power s.db s'.db
  | .other _ _, _, _, _ => False

def Uses (call : GroupCall) (power : Power) (s s' : Server) : Prop :=
  Takes call.Own power s.db s'.db

/-- No statement takes a right that none before has given. -/
abbrev Rightful {ε α : Type} (call : GroupCall) (Q : α → (Power → Prop) → Prop) (t : Task ε α)
    (asked : Power → Prop) : Prop :=
  Asks call.Gains call.Uses (OnAsked Q) t.run asked

end GroupCall

section

variable {own : Db.Tables → Uuid → Db.Tables → Prop} {power : Power}
    {t t' : Db.Tables} {g u v : Uuid}
variable {role name : String} {now : Nat}

theorem not_takes_same (same : SameGroups t t') : ¬ Takes own power t t' := by
  cases power with
  | appoint g v =>
      rintro ⟨⟨row, there, is⟩, new⟩
      rw [same.2] at there
      exact new ⟨row, there, is⟩
  | change g =>
      intro takes
      exact takes.1 (Db.roster_eq same.1 same.2)

theorem takes_change (members : ∀ row ∈ t'.groupMembers, row ∈ t.groupMembers)
    (others : ∀ g', g ≠ g' → t'.roster g' = t.roster g') (takes : Takes own power t t') :
    power = .change g ∧ ¬ own t g t' := by
  cases power with
  | appoint g' v =>
      obtain ⟨⟨row, there, is⟩, new⟩ := takes
      exact (new ⟨row, members row there, is⟩).elim
  | change g' =>
      by_cases same : g = g'
      · subst same
        exact ⟨rfl, takes.2⟩
      · exact (takes.1 (others g' same)).elim

theorem takes_addMember (takes : Takes own power t (Db.Groups.addMember g v role now t).2) :
    power = .change g ∨ power = .appoint g v ∧ role = "admin" := by
  cases added : (Db.Groups.addMember g v role now t).1 with
  | error e =>
      rw [(Db.addMember_eq_error added).1] at takes
      exact (not_takes_same ⟨rfl, rfl⟩ takes).elim
  | ok member =>
      obtain ⟨joins, is⟩ := Db.addMember_eq_ok added
      cases power with
      | appoint g' v' =>
          obtain ⟨⟨row, there, ofGroup, ofUser, admin⟩, new⟩ := takes
          rw [joins.after] at there
          rcases List.mem_append.mp there with old | last
          · exact (new ⟨row, old, ofGroup, ofUser, admin⟩).elim
          · obtain rfl := List.mem_singleton.mp last
            rw [← ofGroup, ← ofUser, joins.ofGroup, joins.ofUser, ← is]
            exact Or.inr ⟨rfl, admin⟩
      | change g' =>
          by_cases same : g = g'
          · exact Or.inl (congrArg Power.change same.symm)
          · refine (takes.1 ?_).elim
            rw [Db.Tables.roster, joins.membersOf_of_ne same, joins.after, Db.Tables.roster]

theorem takes_removeMember (takes : Takes own power t (Db.Groups.removeMember g v t).2) :
    power = .change g ∧ ¬ own t g (Db.Groups.removeMember g v t).2 :=
  takes_change (fun _ there => List.mem_of_mem_filter there)
    (fun _ => roster_removeMember_of_ne) takes

theorem takes_deleteMembers (takes : Takes own power t (Db.Groups.deleteMembers g t).2) :
    power = .change g :=
  (takes_change (fun _ there => List.mem_of_mem_filter there) (fun _ => roster_deleteMembers_of_ne)
    takes).1

theorem takes_deleteRow
    (takes : Takes own power t (Db.Groups.deleteRow g t).2) : power = .change g :=
  (takes_change (fun _ there => List.mem_of_mem_filter there)
    (fun _ => roster_deleteRow_of_ne) takes).1

theorem takes_updateGroupName (takes : Takes own power t (Db.Groups.updateGroupName g name t).2) :
    power = .change g := by
  refine (takes_change ?_ (fun _ => roster_updateGroupName_of_ne) takes).1
  rw [Db.members_updateGroupName]
  exact fun _ there => there

/-- With the account of a user go memberships, and the groups that the user has created. -/
theorem not_takes_deleteUser :
    ¬ Takes (OfItself u .deleteAccount) power t (Db.deleteUser u t).2 := by
  rcases deleteUser_cases t u with same | gone
  · rw [same]
    exact not_takes_same ⟨rfl, rfl⟩
  · rw [gone]
    cases power with
    | appoint g v =>
        rintro ⟨⟨row, there, is⟩, new⟩
        exact new ⟨row, List.mem_of_mem_filter there, is⟩
    | change g => exact fun takes => takes.2 (.deletes rfl rfl)

end

section

variable {ε α β : Type} {call : GroupCall} {asked : Power → Prop} {Q : α → (Power → Prop) → Prop}
variable {auth : AuthUser} {request : GroupRequest} {g v : Uuid} {role : String}

theorem rightful_same {t : Task ε α} (same : Keeps Eq t.run) :
    call.Rightful (fun _ asked' => ∀ power, asked power → asked' power) t asked := by
  refine (same.asks fun power s s' is => ?_).mono fun _ _ kept _ _ => kept
  rw [← is]
  exact not_takes_same ⟨rfl, rfl⟩

theorem rightful_query {statement : Nat → Db.Statement α}
    (each : ∀ now t, ∀ power, Takes call.Own power t (statement now t).2 → asked power)
    (gains : ∀ (s s' : Server) now a,
    (statement now s.db).1 = .ok a → s'.db = (statement now s.db).2 →
      Q a fun power => asked power ∨ call.Gains power s s') :
    call.Rightful Q (query statement) asked := by
  refine asks_act fun c s => ?_
  cases c.fault with
  | some e =>
      refine ⟨fun power takes => (not_takes_same ⟨rfl, rfl⟩ takes).elim, fun a same => ?_⟩
      cases same
  | none => exact ⟨each _ _, fun a same => gains _ _ _ a same rfl⟩

theorem rightful_change {statement : Nat → Db.Statement α}
    (each : ∀ now t power, Takes call.Own power t (statement now t).2 → power = .change g)
    (may : asked (.change g)) :
    call.Rightful (fun _ asked' => asked' (.change g)) (query statement) asked := by
  refine rightful_query (fun now t power takes => ?_) fun _ _ _ _ _ _ => Or.inl may
  rw [each now t power takes]
  exact may

theorem rightful_requireAdmin {forbidden : String} :
    (GroupCall.call auth request).Rightful (fun _ asked' => asked' (.change g))
      (Groups.requireAdmin auth g forbidden) asked := by
  refine Asks.run_bind (P := fun role asked' => role = some "admin" → asked' (.change g)) ?_ ?_
  · refine (rightful_query (fun _ _ _ takes => ?_) fun s s' now role found after admin => ?_).adapt
    · exact (not_takes_same ⟨rfl, rfl⟩ takes).elim
    rw [admin] at found
    have seen : Entitles auth.userId request (.change g) s.db s'.db :=
      Or.inr ⟨Db.isAdmin_of_getMemberRole found, after⟩
    exact Or.inr seen
  · intro role asked' may
    split
    · rename_i named
      split
      · rename_i is
        exact asks_run_pure (may (congrArg some is))
      · exact asks_run_throw
    · exact asks_run_throw

theorem rightful_addMember (may : asked (.change g)) :
    call.Rightful (fun _ asked' => asked' (.change g)) (ExceptT.adapt HysjError.ofDb
      (query fun now => Db.Groups.addMember g v "member" now)) asked := by
  refine (rightful_change (fun now t power takes => ?_) may).adapt
  rcases takes_addMember takes with is | ⟨-, other⟩
  · exact is
  · exact absurd other (by decide)

theorem rightful_addNamed (may : asked (.change g)) :
    call.Rightful (fun _ asked' => asked' (.change g)) (Groups.addNamed auth g v) asked := by
  unfold Groups.addNamed
  split
  · exact Asks.run_bind (rightful_addMember may) fun _ asked' may => asks_run_pure may
  · exact asks_run_pure may

/-- Who creates a group is the one who may appoint its admin, and fill it. -/
theorem rightful_createGroup {create : CreateGroupRequest} :
    (GroupCall.call auth (.createGroup create)).Rightful (fun _ _ => True)
      (Groups.createGroup auth create) asked := by
  refine Asks.run_bind (rightful_same (keeps_ofResult _)) fun _ asked _ => ?_
  refine Asks.run_bind (rightful_same (keeps_random fun _ => rfl)) fun id asked _ => ?_
  refine Asks.run_bind (P := fun group asked' =>
    asked' (.appoint group.id auth.userId) ∧ asked' (.change group.id)) ?_ ?_
  · have founds {now : Nat} {t : Db.Tables} {group : Db.Group}
        (created : (Db.Groups.createGroup id create.name auth.userId create.isAnonymous now t).1 =
          .ok group) : Founds auth.userId (.createGroup create) group.id t
            (Db.Groups.createGroup id create.name auth.userId create.isAnonymous now t).2 := by
      obtain ⟨rfl, new, known, after⟩ := Db.createGroup_eq_ok created
      exact ⟨⟨create, rfl⟩, _, ⟨new, rfl, known, rfl⟩, rfl, after⟩
    refine (rightful_query
      (fun now t power takes => ?_) fun s s' now group created after => ?_).adapt
    · cases created :
        (Db.Groups.createGroup id create.name auth.userId create.isAnonymous now t).1 with
      | error e =>
          rw [Db.createGroup_eq_error created] at takes
          exact (not_takes_same ⟨rfl, rfl⟩ takes).elim
      | ok group =>
          have own := founds created
          obtain ⟨-, -, -, after⟩ := Db.createGroup_eq_ok created
          refine ((takes_change (g := group.id) ?_ ?_ takes).2 (.founds own)).elim
          · rw [after]
            exact fun _ there => there
          · intro g' other
            rw [after]
            have same := Db.roster_withGroup (t := t) other (List.forall_mem_nil fun row =>
              Db.GroupMember.groupId row ≠ g')
            rw [List.append_nil] at same
            exact same
    · have own := founds created
      rw [← after] at own
      exact ⟨Or.inr ⟨rfl, own⟩, Or.inr (Or.inl own)⟩
  · rintro group asked ⟨appoints, changes⟩
    refine Asks.run_bind
      (P := fun _ asked' => asked' (.change group.id)) ?_ fun _ asked changes => ?_
    · refine (rightful_query (fun now t power takes => ?_) fun _ _ _ _ _ _ => Or.inl changes).adapt
      rcases takes_addMember takes with rfl | ⟨rfl, -⟩
      · exact changes
      · exact appoints
    · refine Asks.run_bind
        (Asks.run_forM changes fun memberId _ asked may => rightful_addNamed may) ?_
      intro _ asked _
      exact (rightful_same keeps_buildGroupResponse).mono fun _ _ _ _ _ => trivial

theorem rightful_handle : (GroupCall.call auth request).Rightful (fun _ _ => True)
    (request.handle auth) asked := by
  have done {α : Type} {P : α → (Power → Prop) → Prop} {t : Task HysjError α}
      (rightful : (GroupCall.call auth request).Rightful P t asked) :
      (GroupCall.call auth request).Rightful (fun _ _ => True) (do let _ ← t) asked :=
    Asks.run_bind rightful fun _ _ _ => asks_run_pure trivial
  cases request with
  | createGroup create => exact done rightful_createGroup
  | listGroups pagination => exact done (rightful_same keeps_listGroups)
  | getGroup groupId => exact done (rightful_same keeps_getGroup)
  | addMember groupId request =>
      refine done (P := fun _ _ => True) (Asks.run_bind rightful_requireAdmin fun _ asked may => ?_)
      exact Asks.run_bind (rightful_addMember may) fun _ _ _ => asks_run_pure trivial
  | removeMember groupId userId =>
      refine done (P := fun _ _ => True) (Asks.run_bind rightful_requireAdmin fun _ asked may => ?_)
      split
      · exact asks_run_throw
      · refine Asks.run_bind
          (rightful_change (fun _ _ _ takes => (takes_removeMember takes).1) may).adapt ?_
        intro removed asked _
        split
        · exact asks_run_pure trivial
        · exact asks_run_throw
  | leaveGroup groupId =>
      refine done (P := fun _ _ => True) (Asks.run_bind (P := fun _ _ => True) ?_ ?_)
      · refine (rightful_query (fun _ t power takes => ?_) fun _ _ _ _ _ _ => trivial).adapt
        exact ((takes_removeMember takes).2 (OfItself.leaves rfl rfl)).elim
      · intro left asked _
        split
        · exact asks_run_pure trivial
        · exact asks_run_throw
  | deleteGroup groupId =>
      refine done (P := fun _ _ => True) (Asks.run_bind rightful_requireAdmin fun _ asked may => ?_)
      refine Asks.run_bind (P := fun _ _ => True) (Asks.adapt ?_) fun deleted asked _ => ?_
      · refine Asks.run_bind (rightful_change (fun _ _ _ takes => takes_deleteMembers takes) may) ?_
        intro _ asked may
        exact (rightful_change (fun _ _ _ takes => takes_deleteRow takes) may).mono
          fun _ _ _ _ _ => trivial
      · split
        · exact asks_run_pure trivial
        · exact asks_run_throw
  | updateGroup groupId request =>
      refine done (P := fun _ _ => True) (Asks.run_bind (rightful_same (keeps_ofResult _)) ?_)
      intro _ asked _
      refine Asks.run_bind rightful_requireAdmin fun _ asked may => ?_
      refine Asks.run_bind
        (rightful_change (fun _ _ _ takes => takes_updateGroupName takes) may).adapt ?_
      exact fun _ _ _ => asks_run_pure trivial
  | deleteAccount =>
      refine done (P := fun _ _ => True) (Asks.run_bind (P := fun _ _ => True) ?_ ?_)
      · refine (rightful_query (fun _ t power takes => ?_) fun _ _ _ _ _ _ => trivial).adapt
        have takes :
            Takes (OfItself auth.userId .deleteAccount) power t (Db.deleteUser auth.userId t).2 :=
          takes
        exact (not_takes_deleteUser takes).elim
      · exact fun _ _ _ => asks_run_pure trivial

end

/-- A request of the user has founded the group. -/
def IsFounder (steps : GroupSteps) (q : GroupCalls) (g u : Uuid) : Prop :=
  ∃ i auth request rest s s', q.threads[i]? = some ⟨.call auth request, rest⟩ ∧ auth.userId = u ∧
    Pool.Stepped steps i s s' ∧ Founds u request g s.db s'.db

section

variable {first : Server} {steps before later : GroupSteps} {q q' p p' : GroupCalls} {g u : Uuid}
variable {e : Pool.Event Chance GroupCall} {i : Nat} {c : Chance}

theorem GroupCall.asks (call : GroupCall) :
    Asks call.Gains call.Uses (fun _ _ => True) call.program fun _ => False := by
  cases call with
  | call auth request =>
      change Asks _ _ _ ((fun _ => ()) <$> (request.handle auth).run) _
      rw [map_eq_pure_bind]
      exact Asks.bind rightful_handle fun _ _ _ => trivial
  | other program same =>
      refine (same.asks fun power s s' kept => ?_).mono fun _ _ _ => trivial
      exact not_takes_same kept

theorem IsFounder.after (founded : IsFounder steps q g u)
    (stepped : Pool.step GroupCall.program (fun seconds s => s.wait seconds) q e = some q') :
    IsFounder (steps ++ [(q, e, q')]) q' g u := by
  obtain ⟨i, auth, request, rest, s, s', found, own, there, founds⟩ := founded
  obtain ⟨rest', found'⟩ := Pool.call_after stepped found
  exact ⟨i, auth, request, rest', s, s', found', own, there.append, founds⟩

/-- An admin of a group has founded it, or has been its admin from the start. -/
theorem GroupRun.admin (run : GroupRun first steps q) (admin : q.state.db.IsAdmin g u) :
    first.db.IsAdmin g u ∨ IsFounder steps q g u := by
  induction run with
  | start => exact Or.inl admin
  | @next steps p p' e before stepped ih =>
      by_cases old : p.state.db.IsAdmin g u
      · exact (ih old).imp_right fun founded => founded.after stepped
      cases e with
      | call call =>
          obtain rfl := Option.some.inj stepped
          exact (old admin).elim
      | pass seconds =>
          obtain rfl := Option.some.inj stepped
          exact (old admin).elim
      | run i c =>
          obtain ⟨⟨call, rest⟩, found, asked⟩ :=
            Pool.asked_before GroupCall.asks (before.next stepped)
          obtain ⟨s, s', earlier, gained⟩ := asked (.appoint g u) ⟨admin, old⟩
          cases call with
          | call auth request =>
              obtain ⟨rfl, founds⟩ := gained
              obtain ⟨rest', found'⟩ := Pool.call_after stepped found
              exact Or.inr ⟨i, auth, request, rest', s, s', found', rfl, earlier.append, founds⟩
          | other program same => exact gained.elim

theorem GroupRun.admin_before (run : GroupRun first steps q) : ∀ x ∈ steps,
    x.1.state.db.IsAdmin g u → first.db.IsAdmin g u ∨ IsFounder steps q g u := by
  induction run with
  | start => exact fun x none => by cases none
  | @next steps p p' e before stepped ih =>
      intro x member admin
      suffices earlier : first.db.IsAdmin g u ∨ IsFounder steps p g u from
        earlier.imp_right fun founded => founded.after stepped
      rcases List.mem_append.mp member with old | last
      · exact ih x old admin
      · rw [List.mem_singleton.mp last] at admin
        exact GroupRun.admin before admin

end

/-- Whatever the order of the statements of all requests: the admins of a group are those it had at
the start, and the user who founded it; and a request that changes a group has seen, in an earlier
statement of its own, that its user is one of them, or has founded the group itself, but for leaving
it and deleting an account. -/
theorem groups_governed {first : Server} {steps : GroupSteps} {q : GroupCalls}
    (run : GroupRun first steps q) :
    (∀ g u, q.state.db.IsAdmin g u → first.db.IsAdmin g u ∨ IsFounder steps q g u) ∧
    ∀ before p i c p' later, steps = before ++ (p, .run i c, p') :: later →
      ∀ g, p'.state.db.roster g ≠ p.state.db.roster g →
        ∃ auth request rest, p.threads[i]? = some ⟨.call auth request, rest⟩ ∧
          (OfItself auth.userId request p.state.db g p'.state.db ∨ ∃ s s',
          Pool.Stepped before i s s' ∧
            (Founds auth.userId request g s.db s'.db ∨ s.db.IsAdmin g auth.userId ∧
              (first.db.IsAdmin g auth.userId ∨ IsFounder before p g auth.userId))) := by
  refine ⟨fun g u admin => run.admin admin, ?_⟩
  rintro before p i c p' later rfl g changed
  obtain ⟨⟨call, rest⟩, found, asked⟩ := Pool.asked_before GroupCall.asks run
  cases call with
  | call auth request =>
      refine ⟨auth, request, rest, found, or_iff_not_imp_left.mpr fun other => ?_⟩
      obtain ⟨s, s', earlier, gained⟩ := asked (.change g) ⟨changed, other⟩
      refine ⟨s, s', earlier, gained.imp_right fun seen => ⟨seen.1, ?_⟩⟩
      obtain ⟨m, front, back⟩ := run.append_inv
      have same : p = m := back.cons_inv.1
      rw [← same] at front
      obtain ⟨p₀, c₀, p₁, member, rfl, -⟩ := earlier
      exact GroupRun.admin_before front _ member seen.1
  | other program same =>
      obtain ⟨s, s', -, gained⟩ := asked (.change g) ⟨changed, not_false⟩
      exact gained.elim

/-- Alice creates a group, begins to add Bob, and leaves it. -/
def leavingEvents : List (Pool.Event Chance GroupCall) :=
  [.call (.call (clubUser 1) (.createGroup ⟨"club", false, []⟩)),
    .run 0 { uuid := .replicate 16 9 }, .run 0 {},
    .run 0 {},
    .call (.call (clubUser 1) (.addMember (.replicate 16 9) ⟨.replicate 16 2⟩)), .run 1 {},
    .call (.call (clubUser 1) (.leaveGroup (.replicate 16 9))), .run 2 {}]

/-- Bob is added by Alice, who is no admin any more when it happens, but was one when the request
looked. -/
theorem governed_after_leaving : ∃ (steps : GroupSteps) (p p' : GroupCalls),
    GroupRun (club clubUsers [] []) (steps ++ [(p, .run 1 {}, p')]) p' ∧
      (p.state.db.membersOf (.replicate 16 9)).length = 0 ∧
      (p'.state.db.membersOf (.replicate 16 9)).length = 1 ∧
      ∃ auth request rest, p.threads[1]? = some ⟨.call auth request, rest⟩ ∧
        (OfItself auth.userId request p.state.db (.replicate 16 9) p'.state.db ∨
          ∃ s s', Pool.Stepped steps 1 s s' ∧
            (Founds auth.userId request (.replicate 16 9) s.db s'.db ∨
              s.db.IsAdmin (.replicate 16 9) auth.userId ∧
                ((club clubUsers [] []).db.IsAdmin (.replicate 16 9) auth.userId ∨
                  IsFounder steps p (.replicate 16 9) auth.userId))) := by
  have lengths : ((Pool.follow GroupCall.program (fun seconds s => s.wait seconds)
      ⟨club clubUsers [] [], []⟩ leavingEvents).bind fun p =>
        (Pool.step GroupCall.program (fun seconds s => s.wait seconds) p (.run 1 {})).map fun p' =>
          ((p.state.db.membersOf (.replicate 16 9)).length,
            (p'.state.db.membersOf (.replicate 16 9)).length)) = some (0, 1) := by rfl
  obtain ⟨p, followed, last⟩ := Option.bind_eq_some_iff.mp lengths
  obtain ⟨p', stepped, are⟩ := Option.map_eq_some_iff.mp last
  obtain ⟨none, one⟩ := Prod.mk.inj are
  obtain ⟨steps, run⟩ := Pool.trail_of_follow leavingEvents followed
  have whole :
      GroupRun (club clubUsers [] []) (steps ++ [(p, .run 1 {}, p')]) p' := run.next stepped
  refine ⟨steps, p, p', whole, none, one, ?_⟩
  refine (groups_governed whole).2 steps p 1 {} p' [] rfl _ fun same => ?_
  have lengths := congrArg (fun roster => roster.2.length) same
  change (p'.state.db.membersOf _).length = (p.state.db.membersOf _).length at lengths
  rw [none, one] at lengths
  cases lengths

end Hysj.Api
