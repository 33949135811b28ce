import Hysj.Api.EndpointRuns
import Hysj.Api.VpnSessions

set_option autoImplicit false

/- Who comes to be in whose contacts, whatever the order of the statements of all requests. -/
namespace Hysj.Api

open Crypto Shared Auth Messaging Program

abbrev EndpointThread := Thread Chance Server Endpoint Reply

abbrev EndpointSteps := List (EndpointCalls × EndpointEvent × EndpointCalls)

/-- The user to whom a request was sent has accepted it: a step of the call has taken the row. -/
def Took (steps : EndpointSteps) (request : Db.ContactRequest) : Prop :=
  ∃ p i c p', (p, .run i c, p') ∈ steps ∧
    (∃ auth rest, p.threads[i]? = some ⟨.contact auth (.accept request.id), rest⟩ ∧
      auth.userId = request.toUserId) ∧
    request ∈ p.state.db.contactRequests ∧ request ∉ p'.state.db.contactRequests

/-- The sender of a request has asked for it. -/
def Asked (q : EndpointCalls) (fromUserId toUserId : Uuid) : Prop :=
  ∃ auth, auth.userId = fromUserId ∧ q.Made (.contact auth (.send toUserId))

/-- How someone comes to be in the contacts of a user. -/
inductive Consented (steps : EndpointSteps) (q : EndpointCalls) (u v : Uuid) : Prop where
  | added {auth : AuthUser} (own : auth.userId = u) (other : u ≠ v)
      (made : q.Made (.contact auth (.add v)))
  | blocked {auth : AuthUser} (own : auth.userId = u) (made : q.Made (.contact auth (.block v)))
  | asked {request : Db.ContactRequest} (from_ : request.fromUserId = u)
      (to_ : request.toUserId = v)
      (other : u ≠ v) (asked : Asked q u v) (took : Took steps request)
  | accepted {request : Db.ContactRequest} (from_ : request.fromUserId = v)
      (to_ : request.toUserId = u) (other : u ≠ v) (asked : Asked q v u) (took : Took steps request)

/-- The two rows of a mutual contact. -/
def Mutual (u v : Uuid) (write : Db.Write) : Prop :=
  ∃ now, write = .contact (.add u v now) ∨ write = .contact (.add v u now)

/-- Where a call is: those that accept a request take it first. -/
inductive ContactPhase (x : Platform) (steps : EndpointSteps) (thread : EndpointThread) : Prop where
  | plain (other : ∀ auth id, thread.call ≠ .contact auth (.accept id))
      (keeps : Keeps (Writes (thread.call.May x)) thread.rest)
  | taking {auth : AuthUser} {id : Uuid} (is : thread.call = .contact auth (.accept id))
      (rest : thread.rest = Endpoint.program x (.contact auth (.accept id)))
  | creating {auth : AuthUser} {request : Db.ContactRequest}
      (is : thread.call = .contact auth (.accept request.id)) (own : auth.userId = request.toUserId)
      (took : Took steps request)
      (keeps : Keeps (Writes (Mutual auth.userId request.fromUserId)) thread.rest)
  | refused (keeps : Keeps SameTables thread.rest)

/-- Every request was asked for, every contact consented to, and no one comes to ask themselves. -/
structure Consensual (x : Platform) (steps : EndpointSteps) (q : EndpointCalls) : Prop where
  requests : ∀ row ∈ q.state.db.contactRequests,
    Asked q row.fromUserId row.toUserId ∧ row.fromUserId ≠ row.toUserId
  contacts : ∀ row ∈ q.state.db.contacts, Consented steps q row.userId row.contactUserId
  took : ∀ row, Took steps row → Asked q row.fromUserId row.toUserId ∧ row.fromUserId ≠ row.toUserId
  phases : q.Each fun _ thread => ContactPhase x steps thread

section

variable {x : Platform} {steps later : EndpointSteps} {q q' : EndpointCalls} {e : EndpointEvent}
variable {u v : Uuid} {request : Db.ContactRequest} {thread : EndpointThread} {s s' : Server}

theorem Took.append (took : Took steps request) : Took (steps ++ later) request := by
  obtain ⟨p, i, c, p', member, rest⟩ := took
  exact ⟨p, i, c, p', List.mem_append_left _ member, rest⟩

theorem Asked.after (asked : Asked q u v) (stepped : EndpointCalls.step x q e = some q') :
    Asked q' u v := by
  obtain ⟨auth, own, made⟩ := asked
  exact ⟨auth, own, Pool.made_after stepped made⟩

theorem Consented.after (consented : Consented steps q u v)
    (stepped : EndpointCalls.step x q e = some q') : Consented (steps ++ later) q' u v := by
  cases consented with
  | added own other made => exact .added own other (Pool.made_after stepped made)
  | blocked own made => exact .blocked own (Pool.made_after stepped made)
  | asked from_ to_ other asked took =>
      exact .asked from_ to_ other (asked.after stepped) took.append
  | accepted from_ to_ other asked took =>
      exact .accepted from_ to_ other (asked.after stepped) took.append

theorem ContactPhase.append (phase : ContactPhase x steps thread) :
    ContactPhase x (steps ++ later) thread := by
  cases phase with
  | plain other keeps => exact .plain other keeps
  | taking is rest => exact .taking is rest
  | creating is own took keeps => exact .creating is own took.append keeps
  | refused keeps => exact .refused keeps

/-- The first statement of accepting a request takes it, or there is nothing more to do. -/
theorem accept_step {auth : AuthUser} {id : Uuid} {effect : Chance → Server → Server}
    {next : Chance → Server → Program Chance Server Reply}
    (is : Program.step effect next = Endpoint.program x (.contact auth (.accept id)))
    (c : Chance) (s : Server) :
    ((effect c s).db = s.db ∧ Keeps SameTables (next c s)) ∨
      ∃ request ∈ s.db.contactRequests, request.id = id ∧ request.toUserId = auth.userId ∧
        (effect c s).db = Db.ContactRequests.dropped s.db id auth.userId ∧
        Keeps (Writes (Mutual auth.userId request.fromUserId)) (next c s) := by
  have starts : Endpoint.program x (.contact auth (.accept id)) =
      .step (fun c s =>
        (queried (fun _ => Db.ContactRequests.accept id auth.userId) c s).2) fun c s =>
        (fun _ => Reply.other) <$> (afterAnswer
          (fun request : Db.ContactRequest =>
            ContactRequests.createContacts auth.userId request.fromUserId)
          (queried (fun _ => Db.ContactRequests.accept id auth.userId) c s).1).run :=
    run_query_bind _ _ _
  obtain ⟨rfl, rfl⟩ := Program.step.inj (is.trans starts)
  dsimp only
  obtain ⟨e, failed⟩ | ⟨-, answered⟩ :=
    queried_cases (fun _ => Db.ContactRequests.accept id auth.userId) c s
  · rw [failed]
    exact Or.inl ⟨rfl, trivial⟩
  · rw [answered]
    unfold Db.ContactRequests.accept
    cases found : s.db.contactRequests.find? fun row =>
        Db.ContactRequests.IsTo id auth.userId row with
    | none => exact Or.inl ⟨rfl, trivial⟩
    | some request =>
        obtain ⟨named, to_⟩ : request.id = id ∧ request.toUserId = auth.userId := by
          simpa using List.find?_some found
        refine Or.inr ⟨request, List.mem_of_find?_eq_some found, named, to_, rfl, Keeps.map ?_ _⟩
        refine Keeps.run_bind (Keeps.attempt ?_) fun _ =>
          Keeps.run_bind (Keeps.attempt ?_) fun _ => keeps_pure _
        · exact writes_query (fun now => .contact (.add auth.userId request.fromUserId now))
            (fun _ _ => rfl) fun now => ⟨now, Or.inl rfl⟩
        · exact writes_query (fun now => .contact (.add request.fromUserId auth.userId now))
            (fun _ _ => rfl) fun now => ⟨now, Or.inr rfl⟩

theorem contactPhase_program (call : Endpoint) :
    ContactPhase x steps ⟨call, call.program x⟩ := by
  by_cases accepts : ∃ auth id, call = .contact auth (.accept id)
  · obtain ⟨auth, id, rfl⟩ := accepts
    exact .taking rfl rfl
  · refine .plain (fun auth id is => accepts ⟨auth, id, is⟩) (writes_program call)

/-- What a step may bring: contacts that were consented to, and requests that were asked for. -/
structure Warranted (steps : EndpointSteps) (q : EndpointCalls) (t : Db.Tables) : Prop where
  requests : ∀ row ∈ t.contactRequests, row ∈ q.state.db.contactRequests ∨
    Asked q row.fromUserId row.toUserId ∧ row.fromUserId ≠ row.toUserId
  contacts : ∀ row ∈ t.contacts, (∃ old ∈ q.state.db.contacts,
    (old.userId, old.contactUserId) = (row.userId, row.contactUserId)) ∨
      Consented steps q row.userId row.contactUserId

theorem warranted_of_mem {t : Db.Tables} (contacts : ∀ row ∈ t.contacts, row ∈ q.state.db.contacts)
    (requests : ∀ row ∈ t.contactRequests, row ∈ q.state.db.contactRequests) :
    Warranted steps q t :=
  ⟨fun row there => Or.inl (requests row there), fun row there =>
    Or.inl ⟨row, contacts row there, rfl⟩⟩

theorem warranted_same : Warranted steps q q.state.db :=
  warranted_of_mem (fun _ there => there) fun _ there => there

/-- A change by a call of a user, but not by one that accepts a request. -/
theorem warranted_write {call : Endpoint} {write : Db.Write} (made : q.Made call)
    (other : ∀ auth id, call ≠ .contact auth (.accept id)) (may : call.May x write) :
    Warranted steps q (write.apply q.state.db) := by
  by_cases about : ∃ w, write = .contact w
  swap
  · obtain ⟨contacts, requests⟩ :=
      Db.Write.mem_of_other (t := q.state.db) fun w is => about ⟨w, is⟩
    exact warranted_of_mem contacts requests
  obtain ⟨w, rfl⟩ := about
  obtain plain | special := may
  · exact plain.elim
  cases special with
  | @contact auth call _ may =>
      constructor
      · intro row member
        refine (Db.ContactWrite.mem_contactRequests member).imp_right fun is => ?_
        subst is
        generalize own : auth.userId = u at may
        cases may with
        | send id now other => exact ⟨⟨auth, own, made⟩, other⟩
      · intro row member
        refine (Db.ContactWrite.mem_contacts member).imp_right fun is => ?_
        obtain ⟨now, rfl⟩ | ⟨now, rfl⟩ := is
        · generalize own : auth.userId = u at may
          cases may with
          | add _ differs => exact .added own differs made
          | @accepted id => exact (other auth id rfl).elim
          | @both id => exact (other auth id rfl).elim
        · generalize own : auth.userId = u at may
          cases may with
          | block _ => exact .blocked own made

/-- One of the two rows that follow on a request that was taken. -/
theorem warranted_mutual {write : Db.Write} (took : Took steps request)
    (asked : Asked q request.fromUserId request.toUserId ∧ request.fromUserId ≠ request.toUserId)
    (adds : Mutual request.toUserId request.fromUserId write) :
    Warranted steps q (write.apply q.state.db) := by
  obtain ⟨w, rfl, a, b, now, rfl, consented⟩ : ∃ w, write = .contact w ∧ ∃ a b now,
      w = .add a b now ∧ Consented steps q a b := by
    obtain ⟨now, rfl | rfl⟩ := adds
    · exact ⟨_, rfl, _, _, now, rfl, .accepted rfl rfl asked.2.symm asked.1 took⟩
    · exact ⟨_, rfl, _, _, now, rfl, .asked rfl rfl asked.2 asked.1 took⟩
  constructor
  · intro row member
    rcases Db.ContactWrite.mem_contactRequests member with there | is
    · exact Or.inl there
    · cases is
  · intro row member
    refine (Db.ContactWrite.mem_contacts member).imp_right fun is => ?_
    obtain ⟨_, is⟩ | ⟨_, is⟩ := is
    · obtain ⟨rfl, rfl, -⟩ := Db.ContactWrite.add.inj is
      exact consented
    · cases is

/-- A step of a call brings only what is warranted, and leaves the call in a phase. -/
theorem Consensual.run {i : Nat} {c : Chance} {call : Endpoint}
    {effect : Chance → Server → Server} {next : Chance → Server → Program Chance Server Reply}
    (consensual : Consensual x steps q) (found : q.threads[i]? = some ⟨call, .step effect next⟩)
    (q' : EndpointCalls) (after : q'.state = effect c q.state) :
    Warranted steps q (effect c q.state).db ∧
      ContactPhase x (steps ++ [(q, .run i c, q')]) ⟨call, next c q.state⟩ := by
  have made : q.Made call := ⟨_, List.mem_of_getElem? found, rfl⟩
  cases consensual.phases i _ found with
  | plain other keeps =>
      obtain ⟨writes, rest⟩ := keeps c q.state
      refine ⟨?_, .plain other rest⟩
      obtain same | ⟨write, may, same⟩ := writes
      · rw [same]
        exact warranted_same
      · rw [same]
        exact warranted_write made other may
  | @taking auth id is rest =>
      obtain rfl : call = .contact auth (.accept id) := is
      obtain ⟨same, left⟩ | ⟨request, there, named, to_, dropped, left⟩ :=
        accept_step rest c q.state
      · rw [same]
        exact ⟨warranted_same, .refused left⟩
      · subst named
        rw [dropped]
        refine ⟨warranted_of_mem (fun _ there => there) fun _ there =>
          List.mem_of_mem_filter there, ?_⟩
        refine .creating rfl to_.symm ⟨q, i, c, q', List.mem_append_right _ List.mem_cons_self,
          ⟨auth, _, found, to_.symm⟩, there, ?_⟩ left
        intro stays
        rw [after, dropped] at stays
        exact of_decide_eq_true (List.mem_filter.mp stays).2 ⟨rfl, to_⟩
  | @creating auth request is own took keeps =>
      obtain rfl : call = .contact auth (.accept request.id) := is
      obtain ⟨writes, rest⟩ := keeps c q.state
      refine ⟨?_, .creating rfl own took.append rest⟩
      obtain same | ⟨write, adds, same⟩ := writes
      · rw [same]
        exact warranted_same
      · rw [same]
        rw [own] at adds
        exact warranted_mutual took (consensual.took request took) adds
  | refused keeps =>
      obtain ⟨same, rest⟩ := keeps c q.state
      rw [same]
      exact ⟨warranted_same, .refused rest⟩

theorem Consensual.warranted (consensual : Consensual x steps q)
    (stepped : EndpointCalls.step x q e = some q') : Warranted steps q q'.state.db := by
  cases e with
  | call call =>
      obtain rfl := Option.some.inj stepped
      exact warranted_same
  | run i c =>
      obtain ⟨call, effect, next, found, rfl⟩ := Pool.step_run.mp stepped
      exact (consensual.run found ⟨effect c q.state, q.threads⟩ rfl).1
  | pass seconds =>
      obtain rfl := Option.some.inj stepped
      exact warranted_same

theorem Consensual.step (consensual : Consensual x steps q)
    (stepped : EndpointCalls.step x q e = some q') : Consensual x (steps ++ [(q, e, q')]) q' := by
  have warranted := consensual.warranted stepped
  constructor
  case requests =>
    intro row member
    obtain there | ⟨asked, other⟩ := warranted.requests row member
    · obtain ⟨asked, other⟩ := consensual.requests row there
      exact ⟨asked.after stepped, other⟩
    · exact ⟨asked.after stepped, other⟩
  case contacts =>
    intro row member
    obtain ⟨old, there, same⟩ | consented := warranted.contacts row member
    · obtain ⟨user, contact⟩ := Prod.mk.inj same
      have consented := consensual.contacts old there
      rw [user, contact] at consented
      exact consented.after stepped
    · exact consented.after stepped
  case took =>
    intro row took
    obtain ⟨asked, other⟩ :
        Asked q row.fromUserId row.toUserId ∧ row.fromUserId ≠ row.toUserId := by
      obtain ⟨p, i, c, p', member, called, there, gone⟩ := took
      rcases List.mem_append.mp member with old | new
      · exact consensual.took row ⟨p, i, c, p', old, called, there, gone⟩
      · obtain ⟨rfl, -⟩ := Prod.mk.inj (List.mem_singleton.mp new)
        exact consensual.requests row there
    exact ⟨asked.after stepped, other⟩
  case phases =>
    refine consensual.phases.step stepped (fun _ _ _ phase => phase.append)
      (fun call _ => contactPhase_program call) ?_
    rintro i c call effect next rfl found -
    obtain ⟨_, _, _, there, rfl⟩ := Pool.step_run.mp stepped
    obtain ⟨-, is⟩ := Thread.mk.inj (Option.some.inj (found.symm.trans there))
    obtain ⟨rfl, rfl⟩ := Program.step.inj is
    exact (consensual.run found _ rfl).2

theorem consensual_of_run {first : Server} (run : EndpointRun x first steps q)
    (fresh : first.db.contacts = []) (fresh' : first.db.contactRequests = []) :
    Consensual x steps q := by
  induction run with
  | start =>
      refine ⟨?_, ?_, ?_, ?_⟩
      · rw [fresh']
        exact fun _ there => absurd there List.not_mem_nil
      · rw [fresh]
        exact fun _ there => absurd there List.not_mem_nil
      · rintro row ⟨p, i, c, p', member, -⟩
        cases member
      · intro i thread found
        cases found
  | next _ taken ih => exact ih.step taken

/-- What a call may do to the contacts of a user: an endpoint of the user does what it is for to the
one contact it names, and one whom the user asked is added by accepting. -/
inductive ContactChange (q : EndpointCalls) (u : Uuid) : Endpoint → List Db.Contact →
    List Db.Contact → Prop where
  | added {auth : AuthUser} {v : Uuid} {rows : List Db.Contact} (now : Nat) (own : auth.userId = u)
      (other : u ≠ v) :
      ContactChange q u (.contact auth (.add v)) rows (rows ++ [⟨u, v, none, false, now⟩])
  | removed {auth : AuthUser} {v : Uuid} {rows : List Db.Contact} (own : auth.userId = u) :
      ContactChange q u (.contact auth (.remove v)) rows
        (rows.filter fun row => row.contactUserId ≠ v)
  | renamed {auth : AuthUser} {v : Uuid} {request : SetNicknameRequest} {rows : List Db.Contact}
      (own : auth.userId = u) : ContactChange q u (.contact auth (.nickname v request)) rows
        (rows.map fun row =>
          if row.contactUserId = v then { row with nickname := request.nickname } else row)
  | blocked {auth : AuthUser} {v : Uuid} {rows : List Db.Contact} (own : auth.userId = u) :
      ContactChange q u (.contact auth (.block v)) rows
        (rows.map fun row => if row.contactUserId = v then { row with isBlocked := true } else row)
  | shunned {auth : AuthUser} {v : Uuid} {rows : List Db.Contact} (now : Nat)
      (own : auth.userId = u) :
      ContactChange q u (.contact auth (.block v)) rows (rows ++ [⟨u, v, none, true, now⟩])
  | unblocked {auth : AuthUser} {v : Uuid} {rows : List Db.Contact} (own : auth.userId = u) :
      ContactChange q u (.contact auth (.unblock v)) rows
        (rows.map fun row => if row.contactUserId = v then { row with isBlocked := false } else row)
  | accepts {auth : AuthUser} {id v : Uuid} {rows : List Db.Contact} (now : Nat)
      (own : auth.userId = u) (asked : Asked q v u) : ContactChange q u (.contact auth (.accept id))
        rows (rows ++ [⟨u, v, none, false, now⟩])
  | accepted {auth : AuthUser} {id : Uuid} {rows : List Db.Contact} (now : Nat)
      (asked : Asked q u auth.userId) : ContactChange q u (.contact auth (.accept id)) rows
        (rows ++ [⟨u, auth.userId, none, false, now⟩])
  | deleted {auth : AuthUser} {rows : List Db.Contact} :
      ContactChange q u (.group auth .deleteAccount) rows
        (rows.filter fun row => row.userId ≠ auth.userId ∧ row.contactUserId ≠ auth.userId)

/-- The contacts of the user are as before, or the call may have changed them so. -/
def Allows (q : EndpointCalls) (u : Uuid) (call : Endpoint) (t : Db.Tables) : Prop :=
  t.contactsOf u = q.state.db.contactsOf u ∨
    ContactChange q u call (q.state.db.contactsOf u) (t.contactsOf u)

/-- Changes of a request about contacts are about those of its user, but where it accepts. -/
theorem owner_of_may {call : ContactCall} {write : Db.ContactWrite} (may : call.May u write)
    (other : ∀ id, call ≠ .accept id) : write.owner = some u ∨ write.owner = none := by
  cases may with
  | add now differs => exact Or.inl rfl
  | remove => exact Or.inl rfl
  | rename => exact Or.inl rfl
  | block now => exact Or.inl rfl
  | unblock => exact Or.inl rfl
  | send id now differs => exact Or.inr rfl
  | reject => exact Or.inr rfl
  | @accept id => exact (other id rfl).elim
  | @accepted id => exact (other id rfl).elim
  | @both id => exact (other id rfl).elim

theorem allows_same {call : Endpoint} {t : Db.Tables} (same : t = q.state.db) : Allows q u call t :=
  Or.inl (congrArg (Db.Tables.contactsOf · u) same)

theorem allows_change {call : Endpoint} {t : Db.Tables} {rows : List Db.Contact}
    (after : t.contactsOf u = rows)
    (change : ContactChange q u call (q.state.db.contactsOf u) rows) :
    Allows q u call t := by
  refine Or.inr ?_
  rw [after]
  exact change

theorem allows_update {call : Endpoint} {set : Db.Contact → Db.Contact}
    (kept : ∀ row, (set row).userId = row.userId)
    (change : ContactChange q u call (q.state.db.contactsOf u)
    ((q.state.db.contactsOf u).map fun row =>
      if row.contactUserId = v then set row else row)) :
    Allows q u call (Db.Contacts.updateContact u v set q.state.db).2 := by
  obtain same | changed := Db.updateContact_snd q.state.db u v set
  · exact allows_same same
  · rw [changed]
    exact allows_change (Db.contactsOf_changed_own kept) change

/-- What a request of the user does to the contacts of the user. -/
theorem allows_own {auth : AuthUser} {call : ContactCall} {write : Db.ContactWrite}
    (own : auth.userId = u) (other : ∀ id, call ≠ .accept id) (may : call.May u write) :
    Allows q u (.contact auth call) (write.apply q.state.db) := by
  cases may with
  | @add v now differs =>
      obtain same | inserted := Db.addContact_snd q.state.db u v now
      · exact allows_same same
      · rw [Db.ContactWrite.apply, inserted]
        exact allows_change (Db.contactsOf_append_own rfl rfl) (.added now own differs)
  | @remove v =>
      obtain same | removed := Db.removeContact_snd q.state.db u v
      · exact allows_same same
      · rw [Db.ContactWrite.apply, removed]
        exact allows_change (Db.contactsOf_removed rfl) (.removed own)
  | rename => exact allows_update (fun _ => rfl) (.renamed own)
  | @block v now =>
      obtain same | changed | inserted := Db.blockContact_snd q.state.db u v now
      · exact allows_same same
      · rw [Db.ContactWrite.apply, changed]
        exact allows_change (Db.contactsOf_changed_own fun _ => rfl) (.blocked own)
      · rw [Db.ContactWrite.apply, inserted]
        exact allows_change (Db.contactsOf_append_own rfl rfl) (.shunned now own)
  | unblock => exact allows_update (fun _ => rfl) (.unblocked own)
  | @send v id now differs =>
      refine Or.inl (Db.ContactWrite.contactsOf fun owner => ?_)
      cases owner
  | reject =>
      refine Or.inl (Db.ContactWrite.contactsOf fun owner => ?_)
      cases owner
  | @accept id => exact (other id rfl).elim
  | @accepted id => exact (other id rfl).elim
  | @both id => exact (other id rfl).elim

theorem allows_write {call : Endpoint} {write : Db.Write}
    (other : ∀ auth id, call ≠ .contact auth (.accept id)) (may : call.May x write) :
    Allows q u call (write.apply q.state.db) := by
  obtain plain | special := may
  · exact Or.inl (Db.contactsOf_congr plain.aside.1)
  cases special with
  | @contact auth call w may =>
      have other (id : Uuid) (is : call = .accept id) : False := other auth id (congrArg _ is)
      by_cases own : auth.userId = u
      · rw [own] at may
        exact allows_own own other may
      · refine Or.inl (Db.ContactWrite.contactsOf fun owner => ?_)
        obtain is | is := owner_of_may may other
        · exact own (Option.some.inj (is.symm.trans owner))
        · rw [is] at owner
          cases owner
  | @deleteAccount auth =>
      obtain same | gone := Db.deleteUser_snd q.state.db auth.userId
      · exact allows_same same
      · rw [Db.Write.apply, gone]
        exact allows_change Db.contactsOf_withoutUser .deleted
  | storeKeys paired => exact Or.inl (Db.contactsOf_congr (Db.contacts_storeVpnKeys _).1)

/-- One of the two rows that follow on accepting, in the contacts of whom it is for. -/
theorem allows_add {auth : AuthUser} {a b id : Uuid} {now : Nat}
    (change : a = u → ContactChange q u (.contact auth (.accept id)) (q.state.db.contactsOf u)
      (q.state.db.contactsOf u ++ [⟨u, b, none, false, now⟩])) :
    Allows q u (.contact auth (.accept id)) (Db.Contacts.addContact a b now q.state.db).2 := by
  obtain same | inserted := Db.addContact_snd q.state.db a b now
  · exact allows_same same
  · rw [inserted]
    by_cases own : a = u
    · subst own
      exact allows_change (Db.contactsOf_append_own rfl rfl) (change rfl)
    · exact Or.inl (Db.contactsOf_append_of_ne rfl own)

theorem allows_mutual {auth : AuthUser} {write : Db.Write}
    (asked : Asked q request.fromUserId auth.userId)
    (adds : Mutual auth.userId request.fromUserId write) :
    Allows q u (.contact auth (.accept request.id)) (write.apply q.state.db) := by
  obtain ⟨now, rfl | rfl⟩ := adds
  · refine allows_add fun own => .accepts now own ?_
    rw [← own]
    exact asked
  · refine allows_add fun own => .accepted now ?_
    rw [← own]
    exact asked

/-- What a step does to the contacts of each user is allowed to the call that takes it. -/
theorem Consensual.allows {i : Nat} {c : Chance} {call : Endpoint}
    {effect : Chance → Server → Server} {next : Chance → Server → Program Chance Server Reply}
    (consensual : Consensual x steps q) (found : q.threads[i]? = some ⟨call, .step effect next⟩)
    (u : Uuid) : Allows q u call (effect c q.state).db := by
  cases consensual.phases i _ found with
  | plain other keeps =>
      obtain same | ⟨write, may, same⟩ := (keeps c q.state).1
      · rw [same]
        exact Or.inl rfl
      · rw [same]
        exact allows_write other may
  | @taking auth id is rest =>
      obtain ⟨same, -⟩ | ⟨request, -, -, -, dropped, -⟩ := accept_step rest c q.state
      · rw [same]
        exact Or.inl rfl
      · rw [dropped]
        exact Or.inl rfl
  | @creating auth request is own took keeps =>
      obtain rfl : call = .contact auth (.accept request.id) := is
      obtain same | ⟨write, adds, same⟩ := (keeps c q.state).1
      · rw [same]
        exact Or.inl rfl
      · have asked := (consensual.took request took).1
        rw [← own] at asked
        rw [same]
        exact allows_mutual asked adds
  | refused keeps =>
      rw [(keeps c q.state).1]
      exact Or.inl rfl

end

/-- Whatever the order of the statements of all requests and whatever fails, someone is in the
contacts of a user only if the user added or blocked them, or one of the two accepted what the
other one asked for; and no one but by blocking themselves is in their own contacts. -/
theorem contacts_consented {x : Platform} {first : Server}
    {steps : EndpointSteps} {q : EndpointCalls}
    (run : EndpointRun x first steps q) (fresh : first.db.contacts = [])
    (fresh' : first.db.contactRequests = []) :
    ∀ row ∈ q.state.db.contacts, Consented steps q row.userId row.contactUserId :=
  (consensual_of_run run fresh fresh').contacts

/-- The one sends a request, which the other one accepts. -/
def askingEvents : List EndpointEvent :=
  [.call (.contact (osloUser 1) (.send (.replicate 16 2))), .run 0 {},
    .run 0 { uuid := .replicate 16 7 },
    .run 0 {}, .call (.contact (osloUser 2) (.accept (.replicate 16 7))), .run 1 {},
    .run 1 {}, .run 1 {}]

theorem exists_asking : ∃ steps q, EndpointRun .sample (.start 0 twoUsers) steps q ∧
    q.state.db.contacts = [⟨.replicate 16 2, .replicate 16 1, none, false, 0⟩,
      ⟨.replicate 16 1, .replicate 16 2, none, false, 0⟩] := by
  have added : (Pool.follow (Endpoint.program .sample) (fun seconds s => s.wait seconds)
      ⟨.start 0 twoUsers, []⟩ askingEvents).map (fun q => q.state.db.contacts) =
        some [⟨.replicate 16 2, .replicate 16 1, none, false, 0⟩,
          ⟨.replicate 16 1, .replicate 16 2, none, false, 0⟩] := by rfl
  obtain ⟨q, followed, both⟩ := Option.map_eq_some_iff.mp added
  obtain ⟨steps, run⟩ := Pool.trail_of_follow askingEvents followed
  exact ⟨steps, q, run, both⟩

theorem consented_after_asking : ∃ steps q, EndpointRun .sample (.start 0 twoUsers) steps q ∧
    Consented steps q (.replicate 16 2) (.replicate 16 1) := by
  obtain ⟨steps, q, run, both⟩ := exists_asking
  refine ⟨steps, q, run,
    contacts_consented run rfl rfl ⟨.replicate 16 2, .replicate 16 1, none, false, 0⟩ ?_⟩
  rw [both]
  exact List.mem_cons_self

end Hysj.Api
