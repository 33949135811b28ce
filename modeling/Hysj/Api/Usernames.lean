import Hysj.Api.Registration

set_option autoImplicit false

/- Registrations without a username. The column of usernames admits no NULL, so a user without
one has the empty username, and of those there can be one only. -/
namespace Hysj.Api

open Crypto Shared Auth Messaging Program

/-- A text that a `VARCHAR` column of the length can hold. -/
def Storable (length : Nat) (text : String) : Prop :=
  text.length ≤ length ∧ Char.ofNat 0 ∉ text.toList

/-- No user has the empty username. -/
def Server.AllNamed (s : Server) : Prop := ∀ row ∈ s.db.users, row.username ≠ ""

structure SetUsernameRequest where
  username : String

/-- `POST /api/auth/set-username` -/
def setUsername (auth : AuthUser) (request : SetUsernameRequest) : Task HysjError Json.Value := do
  if request.username.utf8ByteSize < 3 ∨ 32 < request.username.utf8ByteSize then
    throw (.validationError "Username must be 3-32 characters")
  else
    ExceptT.adapt .ofDb (query fun _ => Db.setUsername auth.userId request.username)
    return .obj [("status", .str "username_set"), ("username", .str request.username)]

section

variable (jwt : Jwt) (argon2 : Argon2) (b64 : Base64Engine) (config : AppConfig)

/-- All that a registration needs beside its username: the checks pass, the texts fit their
columns, an id can be drawn, no user has the phone number, and what comes after the row of the
user completes. -/
structure OtherwiseValid (s : Server) (headers : HeaderMap) (request : RegisterRequest) : Prop where
  passes : (recent s
    ("register:" ++ extractIp headers) REGISTER_WINDOW_SECONDS).length < REGISTER_MAX
  lengths : ∃ username, checkLengths request = .ok username
  phoneFits : Storable 20 request.phoneNumber
  deviceFits : Storable 64 request.deviceName
  unused : ∃ id, s.Unused id
  hashes : ∀ salt, s.Unused salt → ∃ hashed, hashPassword argon2 salt request.password = .ok hashed
  identityPk : ∃ key, b64.decode request.identityPublicKey = .ok key
  phoneNumber : ∀ row ∈ s.db.users, row.phoneNumber ≠ request.phoneNumber
  completes : Completes jwt b64 config s request

/-- While nothing fails, the registration comes to an end, and never to an error. -/
def Registers (s : Server) (headers : HeaderMap) (request : RegisterRequest) : Prop :=
  (∃ r s', Runs (Under (Undisturbed s))
    (register jwt argon2 b64 config headers request).run s r s') ∧
    ∀ r s', Runs (Under (Undisturbed s))
      (register jwt argon2 b64 config headers request).run s r s' →
      ∃ response, r = .ok response

end

section

variable {p : Chance → Prop} {ε α : Type}

theorem total_under_atomically (possible : ∃ c, p c) {f : Server → α × Server} :
    Total (Under p) (atomically f : Task ε α).run :=
  Total.lift (total_act fun _ => possible)

theorem total_under_random (possible : ∃ c, p c) : Total (Under p) (random : Task ε Uuid).run :=
  Total.lift (total_act fun _ => possible)

theorem total_under_query (possible : ∃ c, p c) (statement : Nat → Db.Statement α) :
    Total (Under p) (query statement).run :=
  total_act fun _ => possible

theorem total_ofResult (result : Except ε α) : Total (Under p) (ofResult result).run :=
  total_pure _

variable {jwt : Jwt} {argon2 : Argon2} {b64 : Base64Engine} {config : AppConfig}
variable {headers : HeaderMap} {request : RegisterRequest}

theorem total_createUser (possible : ∃ c, p c) (username : String) :
    Total (Under p) (createUser argon2 b64 request username).run := by
  refine (total_under_random possible).run_bind fun salt => ?_
  refine (total_ofResult _).run_bind fun hashed => ?_
  refine (total_ofResult _).run_bind fun key => ?_
  refine (total_under_random possible).run_bind fun id => ?_
  exact (total_under_query possible _).adapt

theorem total_registerDevice (possible : ∃ c, p c) (u : Uuid) :
    Total (Under p) (registerDevice b64 request u).run := by
  refine (total_ofResult _).run_bind fun key => ?_
  refine (total_ofResult _).run_bind fun signature => ?_
  refine (total_ofResult _).run_bind fun kyber => ?_
  refine (total_under_random possible).run_bind fun id => ?_
  exact (total_under_query possible _).adapt

theorem total_storePreKeys (possible : ∃ c, p c) (d : Uuid) :
    Total (Under p) (storePreKeys b64 request d).run := by
  refine (total_ofResult _).run_bind fun keys => Total.adapt ?_
  exact total_run_forM _ fun key => total_under_query possible _

theorem total_createTokens (possible : ∃ c, p c) (u d : Uuid) (username : String) :
    Total (Under p) (createTokens jwt config u d username).run := by
  refine (total_under_atomically possible).run_bind fun now => ?_
  refine (total_ofResult _).run_bind fun access => ?_
  refine (total_under_atomically possible).run_bind fun now => ?_
  exact (total_ofResult _).run_bind fun refresh => total_pure _

theorem total_register (possible : ∃ c, p c) :
    Total (Under p) (register jwt argon2 b64 config headers request).run := by
  rw [register_eq]
  refine (total_under_atomically possible).run_bind fun passes => ?_
  cases passes with
  | false => exact total_pure _
  | true =>
      refine (total_ofResult _).run_bind fun username => ?_
      refine (total_createUser possible username).run_bind fun user => ?_
      refine (total_registerDevice possible user.id).run_bind fun device => ?_
      refine (total_storePreKeys possible device.id).run_bind fun _ => ?_
      exact (total_createTokens possible _ _ _).run_bind fun tokens => total_pure _

variable {s s' : Server} {username : String}

/-- A row that no constraint is against is written, whatever ids are drawn. -/
theorem createUser_ok (clean : ∀ c, p c → c.fault = none) (unused : ∀ c, p c → s.Unused c.uuid)
    (hashes : ∀ salt, s.Unused salt → ∃ hashed,
    hashPassword argon2 salt request.password = .ok hashed)
    (decodes : ∃ key, b64.decode request.identityPublicKey = .ok key)
    (free : ∀ row ∈ s.db.users, row.username ≠ username)
    (newPhone : ∀ row ∈ s.db.users, row.phoneNumber ≠ request.phoneNumber)
    {r : Except HysjError Db.User}
    (run : Runs (Under p) (createUser argon2 b64 request username).run s r s') :
    ∃ user, r = .ok user := by
  obtain ⟨key, decodes⟩ := decodes
  have read : decodeField b64 "Invalid identity_public_key base64: " request.identityPublicKey =
      .ok key := decodeField_eq_ok.mpr decodes
  rw [createUser, under_random_bind] at run
  obtain ⟨c, allowed, run⟩ := run
  obtain ⟨hashed, hashes⟩ := hashes c.uuid (unused c allowed)
  rw [hashes, read, runs_run_bind] at run
  rcases run with ⟨hashed', m, ran, run⟩ | ⟨e, rfl, ran⟩
  swap
  · cases (under_ofResult.mp ran).1
  obtain ⟨-, rfl⟩ := under_ofResult.mp ran
  rw [runs_run_bind] at run
  rcases run with ⟨key', m, ran, run⟩ | ⟨e, rfl, ran⟩
  swap
  · cases (under_ofResult.mp ran).1
  obtain ⟨-, rfl⟩ := under_ofResult.mp ran
  rw [under_random_bind] at run
  obtain ⟨c', allowed', run⟩ := run
  rw [runs_adapt] at run
  obtain ⟨answer, run, rfl⟩ := run
  rcases under_query.mp run with ⟨-, -, -, rfl, -⟩ | ⟨f, text, fails, fault, -, -⟩
  · rw [createUser_of_admissible ⟨(unused c' allowed').1, free, newPhone⟩]
    exact ⟨_, rfl⟩
  · rw [clean f fails] at fault
    cases fault

theorem under_checkRateLimit {key : String} {max window : Nat} {r : Except HysjError Bool}
    (passes : (recent s key window).length < max)
    (run : Runs (Under p) (checkRateLimit key max window : Task HysjError Bool).run s r s') :
    r = .ok true ∧ s'.db = s.db ∧ s'.redis = s.redis := by
  obtain ⟨answer, left⟩ := (under_atomically (possible_of_atomically run)).mp run
  rw [if_neg (Nat.not_le_of_lt passes)] at answer left
  rw [← left]
  exact ⟨answer.symm, rfl, rfl⟩

/-- Nothing but a username that is taken is in the way of a valid registration. -/
theorem register_ok (valid : OtherwiseValid jwt argon2 b64 config s headers request)
    (free : ∀ row ∈ s.db.users, row.username ≠ request.username.getD "")
    {r : Except HysjError LoginResponse}
    (run : Runs (Under (Undisturbed s))
    (register jwt argon2 b64 config headers request).run s r s') :
    ∃ response, r = .ok response := by
  have possible : ∃ c, Undisturbed s c :=
    valid.unused.elim fun id unused => ⟨{ uuid := id }, rfl, unused⟩
  obtain ⟨username, lengths⟩ := valid.lengths
  obtain rfl := checkLengths_eq_ok lengths
  rw [register_eq, runs_run_bind] at run
  rcases run with ⟨passes, m, limited, run⟩ | ⟨e, rfl, limited⟩
  swap
  · cases (under_checkRateLimit valid.passes limited).1
  obtain ⟨same, db, redis⟩ := under_checkRateLimit valid.passes limited
  obtain rfl := Except.ok.inj same
  rw [if_pos rfl, lengths, runs_run_bind] at run
  rcases run with ⟨username, m', checked, run⟩ | ⟨e, rfl, checked⟩
  swap
  · cases (under_ofResult.mp checked).1
  obtain ⟨same, rfl⟩ := under_ofResult.mp checked
  obtain rfl := Except.ok.inj same
  have unused : ∀ c, Undisturbed s c → m.Unused c.uuid := by
    intro c both
    unfold Server.Unused
    rw [db]
    exact both.2
  rw [runs_run_bind] at run
  rcases run with ⟨user, m₁, created, run⟩ | ⟨e, rfl, failed⟩
  swap
  · have rowFree := free
    have phoneFree := valid.phoneNumber
    rw [← db] at rowFree phoneFree
    have hashes : ∀ salt, m.Unused salt →
        ∃ hashed, hashPassword argon2 salt request.password = .ok hashed := by
      intro salt new
      unfold Server.Unused at new
      rw [db] at new
      exact valid.hashes salt new
    obtain ⟨user, other⟩ := createUser_ok (fun _ both => both.1) unused hashes valid.identityPk
      rowFree phoneFree failed
    cases other
  rcases under_createUser created
    with ⟨⟨e, other⟩, -⟩ | ⟨_, salt, is, rfl, -, name, -, -, -, drawn, -⟩
  · cases other
  obtain rfl := Except.ok.inj is
  obtain ⟨c, both, drew⟩ := drawn
  have new : s.Unused user.id := by
    rw [← drew]
    exact both.2
  have after : After s user (m.withUser user) := by
    refine ⟨?_, redis⟩
    unfold Server.withUser
    rw [db]
  exact afterUser_ok after new name valid.completes run

theorem registers_of_allNamed (unnamed : request.username.getD "" = "")
    (valid : OtherwiseValid jwt argon2 b64 config s headers request) (named : s.AllNamed) :
    Registers jwt argon2 b64 config s headers request := by
  obtain ⟨id, unused⟩ := valid.unused
  refine ⟨total_register ⟨{ uuid := id }, rfl, unused⟩ s, fun r s' run => register_ok valid ?_ run⟩
  rw [unnamed]
  exact named

/-- A registration without a username is refused while some user has the empty one, and writes
no row. -/
theorem unnamed_refused (draw : Draw s p) (unnamed : request.username.getD "" = "")
    (taken : ¬ s.AllNamed) {r : Except HysjError LoginResponse}
    (run : Runs (Under p) (register jwt argon2 b64 config headers request).run s r s') :
    (∃ e, r = .error e) ∧ SameAccounts s s' := by
  rcases under_register draw run with refused | ⟨accepted, -⟩
  · exact refused
  · have free := accepted.username
    rw [unnamed] at free
    exact (taken free).elim

theorem not_registers (unnamed : request.username.getD "" = "") (taken : ¬ s.AllNamed) :
    ¬ Registers jwt argon2 b64 config s headers request := by
  intro ⟨⟨r, s', run⟩, succeeds⟩
  obtain ⟨⟨e, rfl⟩, -⟩ := unnamed_refused (draw_undisturbed s) unnamed taken run
  obtain ⟨response, other⟩ := succeeds _ _ run
  cases other

theorem unnamed_left (draw : Draw s p) (unnamed : request.username.getD "" = "")
    {response : LoginResponse}
    (run : Runs (Under p)
    (register jwt argon2 b64 config headers request).run s (.ok response) s') :
    ¬ s'.AllNamed := by
  rcases under_register draw run with ⟨⟨e, other⟩, -⟩ | ⟨-, user, m, after, -, name, rest⟩
  · cases other
  · have kept := rest.keeps sameUsers_afterUser (fun _ => ⟨rfl, rfl⟩) fun _ _ _ => sameUsers_trans
    intro named
    apply named user
    · rw [kept.1, after.db]
      exact List.mem_append_right _ List.mem_cons_self
    · rw [name, unnamed]

/-- A username that was set is not empty, and who has the empty one after that had it before and
is another user. -/
theorem unnamed_setUsername {auth : AuthUser} {request : SetUsernameRequest} {answer : Json.Value}
    (run : Runs (Under p) (setUsername auth request).run s (.ok answer) s') :
    ∀ row ∈ s'.db.users, row.username = "" → row ∈ s.db.users ∧ row.id ≠ auth.userId := by
  unfold setUsername at run
  split at run
  · cases (runs_run_throw.mp run).1
  · rename_i lengths
    have proper : request.username ≠ "" := by
      intro empty
      rw [empty] at lengths
      exact lengths (Or.inl (by decide))
    obtain ⟨⟨⟩, m, ran, rest⟩ := runs_run_bind_ok.mp run
    obtain ⟨-, rfl⟩ := runs_run_pure.mp rest
    obtain ⟨set, rfl⟩ := under_query_ok ran
    unfold Db.setUsername Db.updateUser at set ⊢
    split at set
    · cases set
    · split at set
      · rename_i admitted found
        rw [if_neg admitted, if_pos found]
        intro row member empty
        obtain ⟨old, there, rfl⟩ := List.mem_map.mp member
        by_cases own : old.id = auth.userId
        · rw [if_pos own] at empty
          exact (proper empty).elim
        · rw [if_neg own]
          exact ⟨there, own⟩
      · cases set

/-- Once the user who had none has set a username, the next registration without one succeeds. -/
theorem registers_after_setUsername {auth : AuthUser} {named : SetUsernameRequest}
    {answer : Json.Value} (only : ∀ row ∈ s.db.users, row.username = "" → row.id = auth.userId)
    (run : Runs (Under p) (setUsername auth named).run s (.ok answer) s')
    (unnamed : request.username.getD "" = "")
    (valid : OtherwiseValid jwt argon2 b64 config s' headers request) :
    Registers jwt argon2 b64 config s' headers request := by
  refine registers_of_allNamed unnamed valid fun row member empty => ?_
  obtain ⟨there, other⟩ := unnamed_setUsername run row member empty
  exact other (only row there empty)

end

/-- An otherwise valid registration without a username, or with the empty one, succeeds exactly
if no user has the empty username. -/
theorem register_unnamed_iff (jwt : Jwt) (argon2 : Argon2) (b64 : Base64Engine) (config : AppConfig)
    (s : Server) (headers : HeaderMap) (request : RegisterRequest)
    (unnamed : request.username.getD "" = "")
    (valid : OtherwiseValid jwt argon2 b64 config s headers request) :
    Registers jwt argon2 b64 config s headers request ↔ s.AllNamed := by
  constructor
  · intro registers
    by_contra taken
    exact not_registers unnamed taken registers
  · exact registers_of_allNamed unnamed valid

/-- A registration without a username. -/
def unnamedRegistration (phoneNumber : String) : RegisterRequest :=
  { registration "" phoneNumber "password1" with username := none }

theorem decodes_sample {text : String} (is : text = "AAAA") :
    ∃ key, Base64Engine.sample.decode text = .ok key := by
  rw [is]
  exact ⟨_, rfl⟩

theorem otherwiseValid_unnamed {s : Server} {phoneNumber : String}
    (passes : (recent s "register:unknown" REGISTER_WINDOW_SECONDS).length < REGISTER_MAX)
    (fits : Storable 20 phoneNumber) (unused : ∃ id, s.Unused id)
    (new : ∀ row ∈ s.db.users, row.phoneNumber ≠ phoneNumber) :
    OtherwiseValid .sample .sample .sample ⟨none, "secret"⟩ s (fun _ => none)
      (unnamedRegistration phoneNumber) where
  passes := passes
  lengths := ⟨"", rfl⟩
  phoneFits := fits
  deviceFits := show Storable 64 "phone" from ⟨by decide, by decide⟩
  unused := unused
  hashes _ _ := ⟨_, rfl⟩
  identityPk := decodes_sample rfl
  phoneNumber := new
  completes :=
    ⟨⟨decodes_sample rfl, decodes_sample rfl, decodes_sample rfl⟩, fun _ member =>
    (List.not_mem_nil member).elim,
    fun _ _ _ _ => ⟨_, _, rfl, rfl⟩⟩

/-- With no user about it succeeds. -/
theorem first_unnamed_registers :
    Registers .sample .sample .sample ⟨none, "secret"⟩ (.start 0 {}) (fun _ => none)
      (unnamedRegistration "+4711111111") := by
  refine (register_unnamed_iff _ _ _ _ _ _ _ rfl
    (otherwiseValid_unnamed (by decide) ?_ ?_ ?_)).mpr ?_
  · exact ⟨by decide, by decide⟩
  · exact ⟨.nil, fun _ member => (List.not_mem_nil member).elim,
      fun _ member => (List.not_mem_nil member).elim⟩
  · exact fun _ member => (List.not_mem_nil member).elim
  · exact fun _ member => (List.not_mem_nil member).elim

/-- After that, the next one without a username fails, from another phone number. -/
theorem second_unnamed_fails : ∃ response s', Runs (Under (Undisturbed (.start 0 {})))
      (register .sample .sample .sample ⟨none, "secret"⟩ (fun _ => none)
        (unnamedRegistration "+4711111111")).run (.start 0 {}) (.ok response) s' ∧
    OtherwiseValid .sample .sample .sample ⟨none, "secret"⟩ s' (fun _ => none)
      (unnamedRegistration "+4722222222") ∧
    ¬ Registers .sample .sample .sample ⟨none, "secret"⟩ s' (fun _ => none)
      (unnamedRegistration "+4722222222") := by
  have first := runs_of_exec (t := (register .sample .sample .sample ⟨none, "secret"⟩
    (fun _ => none) (unnamedRegistration "+4711111111")).run) (s := .start 0 {})
    (undisturbed_drawing 1) rfl
  refine ⟨_, _, first, otherwiseValid_unnamed ?_ ?_ ?_ ?_, ?_⟩
  · decide
  · exact ⟨by decide, by decide⟩
  · exact ⟨.nil, by unfold Server.Unused; decide⟩
  · decide
  · exact not_registers rfl (unnamed_left (draw_undisturbed _) rfl first)

end Hysj.Api
