import Hysj.Api.TwoFactor

set_option autoImplicit false

/- What a client without a token can come to. -/
namespace Hysj.Api

open Crypto Shared Auth Messaging Program

section

variable (jwt : Jwt) (argon2 : Argon2) (b64 : Base64Engine) (config : AppConfig) (totp : Totp)

/-- The requests of a client one after the other, with the tokens it was handed. At first it holds
none, and it presents no other token that would ever be accepted. Whatever else happens, to other
endpoints or by others, leaves the second factors alone. -/
inductive Client (first : Server) : Circulation → Prop where
  | start : Client first ⟨first, []⟩
  | account {c : Circulation} {result : Except HysjError (Option LoginResponse)} {s : Server}
      (before : Client first c) (request : AuthRequest)
      (genuine : ∀ token ∈ request.token, c.Genuine jwt config token)
      (run : Runs Any (request.handle jwt argon2 b64 config).run c.server result s) :
      Client first ⟨s, c.minted ++ handedOut result⟩
  | setup2fa {c : Circulation} {result : Except HysjError TwoFactorSetupResponse} {s : Server}
      (before : Client first c) (headers : HeaderMap)
      (genuine : ∀ token ∈ bearerToken headers, c.Genuine jwt config token)
      (run : Runs Any
        (fromRequestParts jwt config headers >>= setup2fa totp).run c.server result s) :
      Client first ⟨s, c.minted⟩
  | verify2fa {c : Circulation} {result : Except HysjError Json.Value} {s : Server}
      (before : Client first c) (headers : HeaderMap) (request : TwoFactorVerifyRequest)
      (genuine : ∀ token ∈ bearerToken headers, c.Genuine jwt config token)
      (run : Runs Any (fromRequestParts jwt config headers >>= fun auth =>
        verify2fa totp auth request).run c.server result s) : Client first ⟨s, c.minted⟩
  | disable2fa {c : Circulation} {result : Except HysjError Json.Value} {s : Server}
      (before : Client first c) (headers : HeaderMap) (request : TwoFactorVerifyRequest)
      (genuine : ∀ token ∈ bearerToken headers, c.Genuine jwt config token)
      (run : Runs Any (fromRequestParts jwt config headers >>= fun auth =>
        disable2fa totp auth request).run c.server result s) : Client first ⟨s, c.minted⟩
  | other {c : Circulation} {s : Server} (before : Client first c)
      (same : s.secondFactors = c.server.secondFactors) : Client first ⟨s, c.minted⟩

/-- In the end the client holds a token that is accepted for the user. -/
def LogsIn (first : Server) (u : Uuid) : Prop :=
  ∃ c d, Client jwt argon2 b64 config totp first c ∧ c.Valid jwt config u d

end

/-- The user is there, and two-factor authentication is on. -/
structure Server.Secured (s : Server) (u : Uuid) : Prop where
  there : ∃ factor ∈ s.secondFactors, factor.userId = u
  enabled : ∀ factor ∈ s.secondFactors, factor.userId = u → factor.enabled = true

/-- No token that the client holds is ever accepted for the user. -/
structure Circulation.LockedOut (jwt : Jwt) (config : AppConfig) (c : Circulation) (u : Uuid) :
    Prop where
  secured : c.server.Secured u
  foreign : ∀ token ∈ c.minted, ∀ now d, ¬ Names jwt config now token u d

section

variable {s s' : Server} {u v : Uuid} {jwt : Jwt} {argon2 : Argon2} {b64 : Base64Engine}
variable {config : AppConfig} {totp : Totp} {c : Circulation}

theorem Server.Secured.same (secured : s.Secured u) (same : s'.secondFactors = s.secondFactors) :
    s'.Secured u := by
  constructor
  · rw [same]
    exact secured.there
  · rw [same]
    exact secured.enabled

theorem Server.Secured.append {factor : SecondFactor} (secured : s.Secured u)
    (new : ∀ factor' ∈ s.secondFactors, factor'.userId ≠ factor.userId)
    (added : s'.secondFactors = s.secondFactors ++ [factor]) : s'.Secured u := by
  obtain ⟨own, member, is⟩ := secured.there
  constructor
  · rw [added]
    exact ⟨own, List.mem_append_left _ member, is⟩
  · intro factor' member' is'
    rw [added, List.mem_append, List.mem_singleton] at member'
    rcases member' with old | rfl
    · exact secured.enabled factor' old is'
    · exact (new own member (is.trans is'.symm)).elim

theorem Server.Secured.filter (secured : s.Secured u) (other : u ≠ v)
    (removed : s'.secondFactors = s.secondFactors.filter fun factor => factor.userId ≠ v) :
    s'.Secured u := by
  obtain ⟨own, member, is⟩ := secured.there
  constructor
  · rw [removed]
    refine ⟨own, List.mem_filter.mpr ⟨member, decide_eq_true ?_⟩, is⟩
    rw [is]
    exact other
  · intro factor member is
    rw [removed] at member
    exact secured.enabled factor (List.mem_filter.mp member).1 is

/-- An update that keeps the users, and the second factor of this one on. -/
theorem Server.Secured.map {g : SecondFactor → SecondFactor} (secured : s.Secured u)
    (keeps : ∀ factor, (g factor).userId = factor.userId)
    (on : ∀ factor, factor.userId = u → factor.enabled = true → (g factor).enabled = true)
    (updated : s'.secondFactors = s.secondFactors.map g) : s'.Secured u := by
  obtain ⟨own, member, is⟩ := secured.there
  constructor
  · rw [updated]
    exact ⟨g own, List.mem_map_of_mem member, (keeps own).trans is⟩
  · intro factor member is
    rw [updated] at member
    obtain ⟨old, member', rfl⟩ := List.mem_map.mp member
    rw [keeps] at is
    exact on old is (secured.enabled old member' is)

/-- A request that acts for a user presents a token for the user, so for nobody who is locked
out. -/
theorem Circulation.LockedOut.other {now : Nat} {token : String} {d : Uuid}
    (locked : c.LockedOut jwt config u) (genuine : c.Genuine jwt config token)
    (named : Names jwt config now token v d) : u ≠ v := by
  rintro rfl
  obtain ⟨claims, decoded, -⟩ := id named
  exact locked.foreign token (genuine now claims decoded) now d named

theorem MintedFor.foreign (lawful : jwt.Lawful) {now : Nat} {d : Uuid} {response : LoginResponse}
    (minted : MintedFor jwt config now v d response) (other : u ≠ v) :
    ∀ token ∈ handedOut (.ok (some response)), ∀ now d, ¬ Names jwt config now token u d := by
  intro token member now d named
  obtain ⟨exp, -, made⟩ := minted token member
  exact other ((names_iff lawful made).mp named).2.1.symm

theorem Circulation.LockedOut.handed (lawful : jwt.Lawful) (locked : c.LockedOut jwt config u)
    {request : AuthRequest} (genuine : ∀ token ∈ request.token, c.Genuine jwt config token)
    {response : LoginResponse}
    (run : Runs Any (request.handle jwt argon2 b64 config).run c.server (.ok (some response)) s) :
    ∀ token ∈ handedOut (.ok (some response)), ∀ now d, ¬ Names jwt config now token u d := by
  obtain ⟨own, member, is⟩ := locked.secured.there
  rcases runs_handle_some run with ⟨headers, body, rfl, ran⟩ | ⟨headers, body, rfl, ran⟩ |
    ⟨body, rfl, ran⟩
  · rcases factors_register ran with ⟨⟨e, other⟩, -⟩ | ⟨id, new, -, -, minted⟩
    · cases other
    · obtain ⟨d, minted⟩ := minted _ rfl
      have other : u ≠ id := by
        rw [← is]
        exact new own member
      exact minted.foreign lawful other
  · obtain ⟨user, found, -, ⟨-, access, refresh⟩ | ⟨off, device, -, -, -, minted⟩⟩ := runs_login ran
    · rintro token member now d ⟨claims, decoded, -⟩
      rcases List.mem_pair.mp member with rfl | rfl
      · rw [access] at decoded
        exact lawful.decode_empty _ _ _ decoded
      · rw [refresh] at decoded
        exact lawful.decode_empty _ _ _ decoded
    · apply minted.foreign lawful
      rintro rfl
      have on := locked.secured.enabled _
        (List.mem_map_of_mem (List.mem_of_find?_eq_some found)) rfl
      rw [off] at on
      cases on
  · obtain ⟨rfl, v, d, named, minted⟩ := runs_refresh ran
    exact minted.foreign lawful (locked.other (genuine _ rfl) named)

theorem Circulation.LockedOut.account (lawful : jwt.Lawful) (locked : c.LockedOut jwt config u)
    {request : AuthRequest} {result : Except HysjError (Option LoginResponse)}
    (genuine : ∀ token ∈ request.token, c.Genuine jwt config token)
    (run : Runs Any (request.handle jwt argon2 b64 config).run c.server result s) :
    Circulation.LockedOut jwt config ⟨s, c.minted ++ handedOut result⟩ u := by
  constructor
  · rcases factors_account run
      with same | ⟨id, new, added⟩ | ⟨token, presented, v, d, named, removed⟩
    · exact locked.secured.same same
    · exact locked.secured.append new added
    · exact locked.secured.filter (locked.other (genuine token presented) named) removed
  · intro token member
    rcases List.mem_append.mp member with old | new
    · exact locked.foreign token old
    · obtain ⟨response, rfl⟩ := mem_handedOut new
      exact locked.handed lawful genuine run token new

theorem Circulation.LockedOut.setup2fa (locked : c.LockedOut jwt config u) {headers : HeaderMap}
    {result : Except HysjError TwoFactorSetupResponse}
    (run : Runs Any (fromRequestParts jwt config headers >>= setup2fa totp).run c.server result s) :
    s.Secured u := by
  rcases runs_authorised run with ⟨-, rfl⟩ | ⟨token, -, auth, -, run⟩
  · exact locked.secured
  rcases runs_setup2fa run with rfl | ⟨secret, rfl⟩
  · exact locked.secured
  · apply locked.secured.map _ _ (secondFactors_enable2fa secret)
    · intro factor
      split <;> rfl
    · intro factor _ on
      split
      · rfl
      · exact on

theorem Circulation.LockedOut.disable2fa (locked : c.LockedOut jwt config u) {headers : HeaderMap}
    {request : TwoFactorVerifyRequest} {result : Except HysjError Json.Value}
    (genuine : ∀ token ∈ bearerToken headers, c.Genuine jwt config token)
    (run : Runs Any (fromRequestParts jwt config headers >>= fun auth =>
      disable2fa totp auth request).run c.server result s) : s.Secured u := by
  rcases runs_authorised run with ⟨-, rfl⟩ | ⟨token, presented, auth, named, run⟩
  · exact locked.secured
  rcases runs_disable2fa run with rfl | ⟨rfl, -⟩
  · exact locked.secured
  · have other := locked.other (genuine token presented) named
    apply locked.secured.map _ _ secondFactors_disable2fa
    · intro factor
      split <;> rfl
    · intro factor is on
      rw [if_neg (by rw [is]; exact other)]
      exact on

theorem Client.lockedOut (lawful : jwt.Lawful) {first : Server} (secured : first.Secured u)
    (run : Client jwt argon2 b64 config totp first c) : c.LockedOut jwt config u := by
  induction run with
  | start =>
      refine ⟨secured, ?_⟩
      intro token member
      cases member
  | account _ request genuine run ih => exact ih.account lawful genuine run
  | setup2fa _ headers _ run ih => exact ⟨ih.setup2fa run, ih.foreign⟩
  | verify2fa _ headers request _ run ih =>
      refine ⟨?_, ih.foreign⟩
      rcases runs_authorised run with ⟨-, rfl⟩ | ⟨token, -, auth, -, run⟩
      · exact ih.secured
      · rw [← runs_verify2fa run]
        exact ih.secured
  | disable2fa _ headers request genuine run ih => exact ⟨ih.disable2fa genuine run, ih.foreign⟩
  | other _ same ih => exact ⟨ih.secured.same same, ih.foreign⟩

theorem Client.not_logsIn (lawful : jwt.Lawful) {first : Server} (secured : first.Secured u) :
    ¬ LogsIn jwt argon2 b64 config totp first u := by
  rintro ⟨c, d, run, token, member, named⟩
  exact (run.lockedOut lawful secured).foreign token member _ d named

end

/-- No user with two-factor authentication can log in: whatever a client without a token requests,
it comes to hold none that is accepted for the user. -/
theorem secured_not_logsIn (jwt : Jwt) (lawful : jwt.Lawful) (argon2 : Argon2) (b64 : Base64Engine)
    (config : AppConfig) (totp : Totp) (s : Server)
    (distinct : (s.db.users.map fun row => row.id).Nodup)
    (user : Db.User) (there : user ∈ s.db.users) (enabled : user.has2faEnabled = true) :
    ¬ LogsIn jwt argon2 b64 config totp s user.id := by
  apply Client.not_logsIn lawful
  constructor
  · exact ⟨_, List.mem_map_of_mem there, rfl⟩
  · intro factor member is
    obtain ⟨row, member', rfl⟩ := List.mem_map.mp member
    have same : row = user := List.inj_on_of_nodup_map distinct member' there is
    rw [same]
    exact enabled

/-- Alice, with two-factor authentication. -/
def securedAlice : Db.User := { Db.User.sample (.replicate 16 1) with has2faEnabled := true }

/-- She cannot log in. -/
theorem secured_not_logsIn_alice : ¬ LogsIn .sample .sample .sample ⟨none, "secret"⟩ .sample
    (.start 0 { users := [securedAlice] }) (.replicate 16 1) :=
  secured_not_logsIn .sample Jwt.sample_lawful .sample .sample ⟨none, "secret"⟩ .sample
    (.start 0 { users := [securedAlice] })
      (List.nodup_singleton _) securedAlice List.mem_cons_self rfl

/-- Alice registers with her phone and sets up two-factor authentication. From then on nobody who
holds no token comes to hold one for her. -/
theorem alice_locked_out : ∃ (response : LoginResponse) (s₁ s₂ : Server) (alice : Uuid)
    (headers : HeaderMap) (answer : TwoFactorSetupResponse),
    Runs Any (register .sample .sample .sample ⟨none, "secret"⟩ (fun _ => none)
      (registration "alice" "+4711111111" "password1")).run (.start 0 {}) (.ok response) s₁ ∧
    Runs Any (fromRequestParts .sample ⟨none, "secret"⟩ headers >>= setup2fa .sample).run s₁
      (.ok answer) s₂ ∧
    (∃ user ∈ s₂.db.users, user.id = alice ∧ user.has2faEnabled = true) ∧
    (∃ device ∈ s₂.db.devices, device.userId = alice) ∧
    ¬ LogsIn .sample .sample .sample ⟨none, "secret"⟩ .sample s₂ alice := by
  obtain ⟨response, s, ran, device, owned, columns⟩ : ∃ response s, Runs Any (register .sample
      .sample .sample ⟨none, "secret"⟩ (fun _ => none)
      (registration "alice" "+4711111111" "password1")).run
      (.start 0 {}) (.ok response) s ∧ ∃ device ∈ s.db.devices,
        s.secondFactors = [⟨device.userId, false, none⟩] :=
    ⟨_, _, runs_of_exec (may_any (drawing 1)) rfl, _, List.mem_cons_self, rfl⟩
  obtain ⟨auth, extracted, added⟩ := extract_of_registered Jwt.sample_lawful ran
  have alice : device.userId = auth.userId := by
    rw [columns] at added
    exact congrArg SecondFactor.userId (List.cons.inj added).1
  have found : s.secondFactor auth.userId = some ⟨auth.userId, false, none⟩ := by
    rw [Server.secondFactor, columns, alice]
    exact List.find?_cons_of_pos (decide_eq_true rfl)
  have clean : ({} : Chance).fault = none := rfl
  have run : Runs Any (fromRequestParts .sample ⟨none, "secret"⟩
      (fun _ => some ("Bearer " ++ response.accessToken)) >>= setup2fa .sample).run s (.ok _) _ :=
    setup2fa_runs trivial clean extracted found rfl
  have secured := secondFactors_enable2fa (s := s) (u := auth.userId)
    (strBytes (Totp.sample.generateSecret ({} : Chance).uuid))
  rw [columns, alice, List.map_singleton, if_pos rfl] at secured
  refine ⟨response, s, _, auth.userId, _, _, ran, run, ?_, ⟨device, ?_, alice⟩, ?_⟩
  · have member := List.mem_singleton.mpr (Eq.refl (⟨auth.userId, true, some (strBytes
      (Totp.sample.generateSecret ({} : Chance).uuid))⟩ : SecondFactor))
    rw [← secured] at member
    obtain ⟨user, there, is⟩ := List.mem_map.mp member
    exact ⟨user, there, congrArg SecondFactor.userId is, congrArg SecondFactor.enabled is⟩
  · unfold Server.after Db.enable2fa Db.updateUser
    split <;> exact owned
  · apply Client.not_logsIn Jwt.sample_lawful
    constructor
    · rw [secured]
      exact ⟨_, List.mem_cons_self, rfl⟩
    · intro factor member _
      rw [secured] at member
      rw [List.mem_singleton.mp member]

end Hysj.Api
