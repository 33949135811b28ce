import Hysj.Api.Endpoints

set_option autoImplicit false

/- What holds of the tables whatever the order of the statements of all endpoints. -/
namespace Hysj.Db

theorem Keys.primaryKeys {t : Tables} (keys : Keys t) : Pagination.PrimaryKeys t :=
  ⟨keys.contacts, keys.groups, keys.groupMembers, keys.contactRequests, keys.mutedChats⟩

end Hysj.Db

namespace Hysj.Api

open Crypto Shared Auth Messaging Program

abbrev EndpointCalls := Pool Chance Server Endpoint Reply

abbrev EndpointEvent := Pool.Event Chance Endpoint

/-- A call is made, a call executes its next statement, or time passes. -/
def EndpointCalls.step (x : Platform) (q : EndpointCalls) (e : EndpointEvent) :
    Option EndpointCalls :=
  Pool.step (Endpoint.program x) (fun seconds s => s.wait seconds) q e

/-- Requests from the first state on, in any order of their statements. -/
abbrev EndpointRun (x : Platform) (first : Server)
    (steps : List (EndpointCalls × EndpointEvent × EndpointCalls)) (q : EndpointCalls) : Prop :=
  Trail (fun q e q' => EndpointCalls.step x q e = some q') ⟨first, []⟩ steps q

section

variable {x : Platform} {first : Server} {q q' : EndpointCalls} {e : EndpointEvent}
variable {steps : List (EndpointCalls × EndpointEvent × EndpointCalls)}

/-- What all changes that endpoints may make keep holds in every state. -/
theorem EndpointRun.keeps {I : Db.Tables → Prop}
    (each : ∀ call : Endpoint, ∀ write, call.May x write → ∀ t, I t → I (write.apply t))
    (start : I first.db) (run : EndpointRun x first steps q) : I q.state.db := by
  have secures (call : Endpoint) : Secures (fun _ _ => True) (fun s => I s.db)
      (Writes (call.May x)) (fun _ => True) (call.program x) := by
    refine (writes_program call).secures fun s s' holds writes => ?_
    obtain same | ⟨write, may, same⟩ := writes
    · rw [same]
      exact holds
    · rw [same]
      exact each call write may s.db holds
  have weaker (call : Endpoint) : Secures (fun _ _ => True) (fun s => I s.db)
      (fun _ _ => True) (fun _ => True) (call.program x) :=
    (secures call).mono (fun _ _ _ _ => trivial) fun _ _ => trivial
  have passes (seconds : Nat) (s : Server) (holds : I s.db) : I (s.wait seconds).db := holds
  exact (Pool.secured (M := fun _ => True) (I := fun s : Server => I s.db) start passes
    (fun call _ => weaker call) run fun _ _ _ _ => trivial).1

/-- In every state that any requests reach, in any order of their statements and whatever fails,
no two rows have one key, and no row refers to one that is gone. -/
theorem tables_keep_integrity (run : EndpointRun x first steps q) (holds : Db.Integrity first.db) :
    Db.Integrity q.state.db ∧ Db.Pagination.PrimaryKeys q.state.db ∧
      Db.schema.Consistent q.state.db.rows := by
  have kept : Db.Integrity q.state.db :=
    run.keeps (fun _ write _ _ kept => write.integrity kept) holds
  exact ⟨kept, kept.keys.primaryKeys, Db.references_iff.mp kept.references⟩

end

section

variable {s s' : Server} {u : Uuid} {limit offset : Int}

theorem find_of_hasUser {t : Db.Tables} {id : Uuid} (holds : Db.Keys t) (there : t.HasUser id) :
    ∃ user ∈ t.users, user.id = id ∧ t.users.find? (fun row => row.id = id) = some user := by
  obtain ⟨user, member, rfl⟩ := there
  exact ⟨user, member, rfl, holds.users.find? member⟩

theorem mem_of_paginated {α κ : Type} [LinearOrder κ] {key : α → κ}
    {rows answered : List α} {row : α}
    (picks : .ok answered ∈ Db.Pagination.paginated key rows limit offset)
    (member : row ∈ answered) :
    row ∈ rows := by
  unfold Db.Pagination.paginated at picks
  rw [Set.mem_ofPred_eq] at picks
  split at picks
  · cases picks
  · split at picks
    · cases picks
    · obtain ⟨order, legal, same⟩ := picks
      obtain rfl := Except.ok.inj same
      exact legal.perm.mem_iff.mp (List.mem_of_mem_drop (List.mem_of_mem_take member))

/-- What is shown of a contact. -/
structure Shows (t : Db.Tables) (row : Db.Contact) (dto : ContactDto) : Prop where
  userId : dto.userId = row.contactUserId
  names : ∃ user ∈ t.users, user.id = row.contactUserId ∧ dto.username = user.username ∧
    dto.displayName = user.displayName
  nickname : dto.nickname = row.nickname
  isBlocked : dto.isBlocked = row.isBlocked

/-- What a contact is shown as. -/
def shownAs (t : Db.Tables) (row : Db.Contact) : ContactDto :=
  let user := t.users.find? fun user => user.id = row.contactUserId
  ⟨row.contactUserId, (user.map Db.User.username).getD "",
    user.bind Db.User.displayName, row.nickname,
    row.isBlocked⟩

theorem runs_mapM_of_each {α β : Type} {f : α → Task HysjError β} {rows : List α} {dto : α → β}
    (each : ∀ row ∈ rows, ∀ r s', Runs Clean (f row).run s r s' ↔ .ok (dto row) = r ∧ s = s')
    {r : Except HysjError (List β)} :
    Runs Clean (rows.mapM f).run s r s' ↔ .ok (rows.map dto) = r ∧ s = s' := by
  induction rows generalizing r s' with
  | nil => exact runs_run_pure
  | cons row rows ih =>
      have first := each row List.mem_cons_self
      have rest (r : Except HysjError (List β)) (s' : Server) :
          Runs Clean (rows.mapM f).run s r s' ↔ .ok (rows.map dto) = r ∧ s = s' :=
        ih fun other member => each other (List.mem_cons_of_mem _ member)
      rw [List.mapM_cons]
      constructor
      · intro run
        rcases runs_run_bind.mp run with ⟨a, m, ran, inner⟩ | ⟨e, -, failed⟩
        · obtain ⟨same, rfl⟩ := (first _ _).mp ran
          obtain rfl := Except.ok.inj same
          rcases runs_run_bind.mp inner with ⟨b, m, ran, last⟩ | ⟨e, -, failed⟩
          · obtain ⟨same, rfl⟩ := (rest _ _).mp ran
            obtain rfl := Except.ok.inj same
            exact runs_run_pure.mp last
          · cases ((rest _ _).mp failed).1
        · cases ((first _ _).mp failed).1
      · rintro ⟨rfl, rfl⟩
        refine runs_run_bind.mpr (Or.inl ⟨_, _, (first _ _).mpr ⟨rfl, rfl⟩, ?_⟩)
        exact runs_run_bind.mpr
          (Or.inl ⟨_, _, (rest _ _).mpr ⟨rfl, rfl⟩, runs_run_pure.mpr ⟨rfl, rfl⟩⟩)

theorem runs_contactDto {row : Db.Contact} {user : Db.User} {r : Except HysjError ContactDto}
    (found : s.db.users.find? (fun old => old.id = row.contactUserId) = some user) :
    Runs Clean (Contacts.contactDto row).run s r s' ↔
      .ok ⟨row.contactUserId, user.username, user.displayName, row.nickname, row.isBlocked⟩ = r ∧
        s = s' := by
  have answer (r' : Except HysjError (Option Db.User)) (m : Server) :
      Runs Clean
        (ExceptT.adapt HysjError.ofDb (query fun _ => Db.findById row.contactUserId)).run s r' m ↔
        .ok (some user) = r' ∧ s = m := by
    simp only [runs_adapt, runs_query, Db.findById, found]
    constructor
    · rintro ⟨_, ⟨rfl, rfl⟩, rfl⟩
      exact ⟨rfl, rfl⟩
    · rintro ⟨rfl, rfl⟩
      exact ⟨_, ⟨rfl, rfl⟩, rfl⟩
  unfold Contacts.contactDto
  constructor
  · intro run
    rcases runs_run_bind.mp run with ⟨a, m, ran, rest⟩ | ⟨e, -, failed⟩
    · obtain ⟨same, rfl⟩ := (answer _ _).mp ran
      obtain rfl := Except.ok.inj same
      exact runs_run_pure.mp rest
    · cases ((answer _ _).mp failed).1
  · rintro ⟨rfl, rfl⟩
    exact runs_run_bind.mpr
      (Or.inl ⟨_, _, (answer _ _).mpr ⟨rfl, rfl⟩, runs_run_pure.mpr ⟨rfl, rfl⟩⟩)

/-- Every contact has its user, so that a page of contacts is shown whole. -/
theorem runs_listContacts (holds : Db.Integrity s.db) {page : Db.Statement (List Db.Contact)}
    {rows : List Db.Contact} (answers : page s.db = (.ok rows, s.db))
    (picks : .ok rows ∈ Db.Pagination.getContactsPaginated s.db u limit offset) :
    List.Forall₂ (Shows s.db) rows (rows.map (shownAs s.db)) ∧
      ∀ r s', Runs Clean (Contacts.listContacts page).run s r s' ↔
        .ok (rows.map (shownAs s.db)) = r ∧ s = s' := by
  have users (row : Db.Contact) (member : row ∈ rows) : ∃ user ∈ s.db.users,
      user.id = row.contactUserId ∧
        s.db.users.find? (fun old => old.id = row.contactUserId) = some user := by
    have listed := (List.mem_filter.mp (mem_of_paginated picks member)).1
    exact find_of_hasUser holds.keys (holds.references.contacts row listed).2
  constructor
  · rw [List.forall₂_map_right_iff, List.forall₂_same]
    intro row member
    obtain ⟨user, there, is, found⟩ := users row member
    refine ⟨rfl, ⟨user, there, is, ?_, ?_⟩, rfl, rfl⟩
    · simp only [shownAs, found, Option.map_some, Option.getD_some]
    · simp only [shownAs, found, Option.bind_some]
  · have each (row : Db.Contact) (member : row ∈ rows)
        (r : Except HysjError ContactDto) (s' : Server) :
        Runs Clean (Contacts.contactDto row).run s r s' ↔ .ok (shownAs s.db row) = r ∧ s = s' := by
      obtain ⟨user, -, -, found⟩ := users row member
      rw [runs_contactDto found]
      simp only [shownAs, found, Option.map_some, Option.getD_some, Option.bind_some]
    have picked (r' : Except HysjError (List Db.Contact)) (m : Server) :
        Runs Clean (ExceptT.adapt HysjError.ofDb (query fun _ => page)).run s r' m ↔
          .ok rows = r' ∧ s = m := by
      simp only [runs_adapt, runs_query, answers]
      constructor
      · rintro ⟨_, ⟨rfl, rfl⟩, rfl⟩
        exact ⟨rfl, rfl⟩
      · rintro ⟨rfl, rfl⟩
        exact ⟨_, ⟨rfl, rfl⟩, rfl⟩
    intro r s'
    unfold Contacts.listContacts
    constructor
    · intro run
      rcases runs_run_bind.mp run with ⟨a, m, ran, rest⟩ | ⟨e, -, failed⟩
      · obtain ⟨same, rfl⟩ := (picked _ _).mp ran
        obtain rfl := Except.ok.inj same
        exact (runs_mapM_of_each each).mp rest
      · cases ((picked _ _).mp failed).1
    · intro answer
      exact runs_run_bind.mpr (Or.inl ⟨_, _, (picked _ _).mpr ⟨rfl, rfl⟩,
        (runs_mapM_of_each each).mpr answer⟩)

/-- Whatever requests came before, a page of contacts that nothing disturbs is shown whole: none of
its users is missing. -/
theorem contacts_listed_whole {x : Platform} {first : Server} {q : EndpointCalls}
    {steps : List (EndpointCalls × EndpointEvent × EndpointCalls)}
    (run : EndpointRun x first steps q)
    (holds : Db.Integrity first.db) {page : Db.Statement (List Db.Contact)} {rows : List Db.Contact}
    (answers : page q.state.db = (.ok rows, q.state.db))
    (picks : .ok rows ∈ Db.Pagination.getContactsPaginated q.state.db u limit offset) :
    ∃ dtos, List.Forall₂ (Shows q.state.db) rows dtos ∧ ∀ r s',
      Runs Clean (Contacts.listContacts page).run q.state r s' ↔ .ok dtos = r ∧ q.state = s' := by
  have kept : Db.Integrity q.state.db :=
    run.keeps (fun _ write _ _ kept => write.integrity kept) holds
  exact ⟨_, runs_listContacts kept answers picks⟩

end

/-- Two users who have just registered. -/
def twoUsers : Db.Tables where
  users := [.sample (.replicate 16 1),
    { Db.User.sample (.replicate 16 2) with username := "bob", phoneNumber := "+4722222222" }]

theorem integrity_twoUsers : Db.Integrity twoUsers := by
  constructor
  · constructor
    case users => decide
    case usernames => decide
    case phoneNumbers => decide
    case preKeySerial => simp [twoUsers]
    case loginAttemptSerial => simp [twoUsers]
    all_goals exact Unique.nil
  · constructor
    all_goals simp [twoUsers]

/-- The one adds the other, who takes a display name meanwhile. -/
def addingEvents : List EndpointEvent :=
  [.call (.contact (osloUser 1) (.add (.replicate 16 2))), .run 0 {},
    .call (.setDisplayName (osloUser 2) ⟨"Bob"⟩), .run 1 {}, .run 0 {}]

theorem exists_adding : ∃ steps q, EndpointRun .sample (.start 0 twoUsers) steps q ∧
    q.state.db.contacts = [⟨.replicate 16 1, .replicate 16 2, none, false, 0⟩] ∧
    q.state.db.users.map (fun user => (user.id, user.displayName)) =
      [(.replicate 16 1, none), (.replicate 16 2, some "Bob")] := by
  have added : (Pool.follow (Endpoint.program .sample) (fun seconds s => s.wait seconds)
      ⟨.start 0 twoUsers, []⟩ addingEvents).map (fun q => (q.state.db.contacts,
        q.state.db.users.map fun user => (user.id, user.displayName))) =
      some ([⟨.replicate 16 1, .replicate 16 2, none, false, 0⟩],
        [(.replicate 16 1, none), (.replicate 16 2, some "Bob")]) := by rfl
  obtain ⟨q, followed, both⟩ := Option.map_eq_some_iff.mp added
  obtain ⟨steps, run⟩ := Pool.trail_of_follow addingEvents followed
  obtain ⟨one, named⟩ := Prod.mk.inj both
  exact ⟨steps, q, run, one, named⟩

theorem integrity_after_adding : ∃ q : EndpointCalls, q.state.db.contacts ≠ [] ∧
    Db.Integrity q.state.db ∧ Db.Pagination.PrimaryKeys q.state.db ∧
      Db.schema.Consistent q.state.db.rows := by
  obtain ⟨steps, q, run, one, -⟩ := exists_adding
  refine ⟨q, ?_, tables_keep_integrity run integrity_twoUsers⟩
  rw [one]
  exact List.cons_ne_nil _ _

theorem listed_after_adding :
    ∃ (q : EndpointCalls) (page : Db.Statement (List Db.Contact)) (dto : ContactDto),
    Shows q.state.db ⟨.replicate 16 1, .replicate 16 2, none, false, 0⟩ dto ∧
    dto.displayName = some "Bob" ∧ ∀ r s',
      Runs Clean (Contacts.listContacts page).run q.state r s' ↔ .ok [dto] = r ∧ q.state = s' := by
  obtain ⟨steps, q, run, one, named⟩ := exists_adding
  let row : Db.Contact := ⟨.replicate 16 1, .replicate 16 2, none, false, 0⟩
  let page : Db.Statement (List Db.Contact) := fun t => (.ok [row], t)
  have picks :
      .ok [row] ∈ Db.Pagination.getContactsPaginated q.state.db (.replicate 16 1) 50 0 := by
    unfold Db.Pagination.getContactsPaginated Db.Pagination.paginated
    rw [one]
    exact ⟨[row], ⟨List.Perm.refl _, List.pairwise_singleton _ _⟩, rfl⟩
  obtain ⟨dtos, shown, runs⟩ :=
    @contacts_listed_whole _ _ _ _ _ _ _ run integrity_twoUsers page _ rfl picks
  cases shown with
  | cons first rest =>
      cases rest with
      | nil =>
          refine ⟨q, page, _, first, ?_, runs⟩
          obtain ⟨user, there, is, -, shown⟩ := first.names
          have pair := List.mem_map_of_mem (f := fun user => (user.id, user.displayName)) there
          rw [named, is] at pair
          have second : user.displayName = some "Bob" := by
            rcases List.mem_pair.mp pair with other | same
            · exact absurd (Prod.mk.inj other).1 (by decide)
            · exact (Prod.mk.inj same).2
          exact shown.trans second

end Hysj.Api
