import Hysj.Api.TwoFactor
import Hysj.Base.Trail

set_option autoImplicit false

/- How long the credentials last that can be had from one access token. -/
namespace Hysj.Api

open Crypto Shared Auth Messaging Program

/-- What someone does who holds tokens: a request for new ones in exchange for one that is held,
or anything that hands out none while time passes. -/
inductive Exchange where
  | refresh (token : String)
  | other

section

variable (jwt : Jwt) (config : AppConfig)

/-- A step of the server and of the tokens that are held. -/
def Exchange.step (c : Circulation) (exchange : Exchange) (c' : Circulation) : Prop :=
  match exchange with
  | .refresh token => token ∈ c.minted ∧ ∃ result : Except HysjError LoginResponse,
      Runs Any (Api.refresh jwt config ⟨token⟩).run c.server result c'.server ∧
      c'.minted = c.minted ++ handedOut (result.map some)
  | .other => c.server.redis.now ≤ c'.server.redis.now ∧ c'.minted = c.minted

/-- Neither the extraction of a user nor the upgrade accepts the token. -/
def NoAccess (s : Server) (token : String) : Prop :=
  (∀ headers auth s', bearerToken headers = some token →
    ¬ Runs Any (fromRequestParts jwt config headers).run s (.ok auth) s') ∧
  ∀ params auth s', params "token" = some token →
    ¬ Runs Any (wsUpgrade jwt config params).run s (.ok auth) s'

/-- Nor can it be exchanged. -/
def Rejected (s : Server) (token : String) : Prop :=
  NoAccess jwt config s token ∧
    ∀ response s', ¬ Runs Any (refresh jwt config ⟨token⟩).run s (.ok response) s'

/-- Whatever is held, every request with it is rejected that comes after the expiry of an access
token of time `t`. -/
def Fleeting (t : Nat) (c : Circulation) : Prop :=
  ∀ token ∈ c.minted, ∀ s : Server, t + ACCESS_TOKEN_EXPIRY_SECONDS + LEEWAY < s.redis.now →
    Rejected jwt config s token

/-- What is exchanged is not accepted any more. -/
def Exchange.Spent (c : Circulation) (exchange : Exchange) (_ : Circulation) : Prop :=
  match exchange with
  | .refresh token => ∀ u d, ¬ Names jwt config c.server.redis.now token u d
  | .other => True

end

section

variable {s s' : Server} {jwt : Jwt} {config : AppConfig} {token : String} {u d : Uuid}
variable {t exp : Nat} {c c' : Circulation} {exchange : Exchange}

/-- The upgrade and the extraction accept a token as long as it names a user and a device. -/
theorem noAccess_iff :
    NoAccess jwt config s token ↔ ∀ u d, ¬ Names jwt config s.redis.now token u d := by
  constructor
  · rintro ⟨-, upgrade⟩ u d ⟨claims, decoded, sub, own⟩
    apply upgrade (fun _ => some token) ⟨u, d, claims.username⟩ s rfl
    exact runs_wsUpgrade.mpr
      ⟨token, rfl, runs_authenticate.mpr ⟨rfl, claims, decoded, sub, own, rfl⟩⟩
  · intro unnamed
    constructor
    · intro headers auth s' presented run
      obtain ⟨token', is, run⟩ := runs_fromRequestParts.mp run
      obtain rfl := Option.some.inj (presented.symm.trans is)
      obtain ⟨-, claims, decoded, sub, own, -⟩ := runs_authenticate.mp run
      exact unnamed _ _ ⟨claims, decoded, sub, own⟩
    · intro params auth s' presented run
      obtain ⟨token', is, run⟩ := runs_wsUpgrade.mp run
      obtain rfl := Option.some.inj (presented.symm.trans is)
      obtain ⟨-, claims, decoded, sub, own, -⟩ := runs_authenticate.mp run
      exact unnamed _ _ ⟨claims, decoded, sub, own⟩

theorem rejected_iff :
    Rejected jwt config s token ↔ ∀ u d, ¬ Names jwt config s.redis.now token u d := by
  rw [Rejected, noAccess_iff, and_iff_left_iff_imp]
  intro unnamed response s' run
  obtain ⟨-, u, d, named, -⟩ := runs_refresh run
  exact unnamed u d named

theorem not_names_iff (lawful : jwt.Lawful) (minted : Minted jwt config token u d exp) {now : Nat} :
    (∀ u d, ¬ Names jwt config now token u d) ↔ exp + LEEWAY < now := by
  rw [← Nat.not_le]
  constructor
  · intro unnamed current
    exact unnamed u d ((names_iff lawful minted).mpr ⟨current, rfl, rfl⟩)
  · intro expired u' d' named
    exact expired ((names_iff lawful minted).mp named).1

theorem runs_createTokens_any
    (encodes : ∀ claims secret, ∃ token, jwt.encode claims secret = .ok token)
    {username : String} {r : Except HysjError (String × String)}
    (run : Runs Any (createTokens jwt config u d username).run s r s') :
    ∃ tokens, r = .ok tokens ∧
      Minted jwt config tokens.1 u d (s.redis.now + ACCESS_TOKEN_EXPIRY_SECONDS) ∧
      Minted jwt config tokens.2 u d (s.redis.now + REFRESH_TOKEN_EXPIRY_SECONDS) := by
  have made (lifetime : Nat) : ∃ token, (createToken jwt lifetime s.redis.now u d username
      config.jwtSecret).mapError HysjError.ofAuth = .ok token ∧
      Minted jwt config token u d (s.redis.now + lifetime) := by
    obtain ⟨token, encoded⟩ := encodes ⟨u.display, d.display, username, s.redis.now + lifetime,
      s.redis.now⟩ config.jwtSecret
    refine ⟨token, ?_, _, encoded, rfl, rfl, rfl⟩
    rw [Result.mapError_eq_ok]
    exact createToken_eq_ok.mpr encoded
  obtain ⟨access, first, minted⟩ := made ACCESS_TOKEN_EXPIRY_SECONDS
  obtain ⟨refresh, second, minted'⟩ := made REFRESH_TOKEN_EXPIRY_SECONDS
  refine ⟨(access, refresh), ?_, minted, minted'⟩
  simp only [createTokens, createAccessToken, createRefreshToken, runs_run_bind, runs_timestamp,
    runs_ofResult, runs_run_pure, Except.ok.injEq, reduceCtorEq, false_and, and_false, exists_false,
    or_false] at run
  obtain ⟨_, _, ⟨rfl, rfl⟩,
      ⟨access', _, ⟨is, rfl⟩, _, _, ⟨rfl, rfl⟩, run⟩ | ⟨e, -, other, -⟩⟩ := run
  swap
  · rw [first] at other
    cases other
  rw [first] at is
  obtain rfl := Except.ok.inj is
  rcases run with ⟨refresh', _, ⟨is, rfl⟩, rfl, -⟩ | ⟨e, -, other, -⟩
  · rw [second] at is
    rw [Except.ok.inj is]
  · rw [second] at other
    cases other

/-- Where tokens can be encoded, a token that is accepted is exchanged for two that are as good as
new. -/
theorem runs_refresh_any (encodes : ∀ claims secret, ∃ token, jwt.encode claims secret = .ok token)
    (named : Names jwt config s.redis.now token u d) {r : Except HysjError LoginResponse}
    (run : Runs Any (refresh jwt config ⟨token⟩).run s r s') :
    ∃ response, r = .ok response ∧ s' = s ∧
      Minted jwt config response.refreshToken u d (s.redis.now + REFRESH_TOKEN_EXPIRY_SECONDS) := by
  have possible : ∃ c : Chance, (fun _ => True) c := ⟨{}, trivial⟩
  obtain ⟨claims, decoded, sub, own⟩ := named
  have accepted : accept jwt config s.redis.now token = .ok ⟨u, d, claims.username⟩ := by
    have valid : (validateToken jwt s.redis.now token config.jwtSecret).mapError HysjError.ofAuth =
        .ok claims := by
      rw [Result.mapError_eq_ok, validateToken_eq_ok]
      exact decoded
    simp only [accept, valid, sub, own]
  rcases runs_run_bind.mp run with ⟨auth, m, authenticated, run⟩ | ⟨e, -, failed⟩
  swap
  · have same := ((under_authenticate possible).mp failed).1
    rw [accepted] at same
    cases same
  obtain ⟨same, rfl⟩ := (under_authenticate possible).mp authenticated
  rw [accepted] at same
  obtain rfl := Except.ok.inj same
  rcases runs_run_bind.mp run with ⟨tokens, m, made, run⟩ | ⟨e, -, failed⟩
  · obtain ⟨rfl, rfl⟩ := runs_run_pure.mp run
    obtain ⟨tokens', is, -, minted⟩ := runs_createTokens_any encodes made
    obtain rfl := Except.ok.inj is
    exact ⟨_, rfl, (runs_createTokens made).1.symm, minted⟩
  · obtain ⟨tokens, other, -⟩ := runs_createTokens_any encodes failed
    cases other

/-- Only the one token is held, and time has not gone back. -/
def Alone (token : String) (t : Nat) (c : Circulation) : Prop :=
  c.minted = [token] ∧ t ≤ c.server.redis.now

theorem Alone.step (alone : Alone token t c) (taken : exchange.step jwt config c c')
    (spent : exchange.Spent jwt config c c') : Alone token t c' := by
  obtain ⟨single, later⟩ := alone
  cases exchange with
  | refresh token' =>
      obtain ⟨-, result, run, holds⟩ := taken
      have clock := run.keeps (sameRows_refresh _) sameRows_refl fun _ _ _ => SameRows.trans
      constructor
      · cases result with
        | error e => rw [holds, single]; rfl
        | ok response =>
            obtain ⟨-, u, d, named, -⟩ := runs_refresh run
            exact (spent u d named).elim
      · rw [clock.redis]
        exact later
  | other => exact ⟨taken.2.trans single, Nat.le_trans later taken.1⟩

theorem Alone.fleeting (lawful : jwt.Lawful) (alone : Alone token t c)
    (minted : Minted jwt config token u d (t + ACCESS_TOKEN_EXPIRY_SECONDS)) :
    Fleeting jwt config t c := by
  intro token' member s late
  rw [alone.1, List.mem_singleton] at member
  rw [member, rejected_iff, not_names_iff lawful minted]
  exact late

/-- After a token is exchanged that was still accepted, one is held that lasts for long. -/
theorem Alone.not_fleeting (lawful : jwt.Lawful)
    (encodes : ∀ claims secret, ∃ token, jwt.encode claims secret = .ok token)
    (alone : Alone token t c) (taken : exchange.step jwt config c c')
    (accepted : ¬ exchange.Spent jwt config c c') : ¬ Fleeting jwt config t c' := by
  intro fleeting
  cases exchange with
  | other => exact accepted trivial
  | refresh token' =>
      apply accepted
      intro u d named
      obtain ⟨-, result, run, holds⟩ := taken
      obtain ⟨response, rfl, -, minted⟩ := runs_refresh_any encodes named run
      have member : response.refreshToken ∈ c'.minted := by
        rw [holds]
        exact List.mem_append_right _ (List.mem_cons_of_mem _ List.mem_cons_self)
      let late : Server := .start (t + ACCESS_TOKEN_EXPIRY_SECONDS + LEEWAY + 1) {}
      have rejected := fleeting _ member late (Nat.lt_succ_self _)
      rw [rejected_iff, not_names_iff lawful minted] at rejected
      have expired : c.server.redis.now + REFRESH_TOKEN_EXPIRY_SECONDS + LEEWAY <
        t + ACCESS_TOKEN_EXPIRY_SECONDS + LEEWAY + 1 := rejected
      have later := alone.2
      simp only [ACCESS_TOKEN_EXPIRY_SECONDS, REFRESH_TOKEN_EXPIRY_SECONDS] at expired
      omega

end

/-- From one access token nothing is obtained that outlives it, exactly if no token is exchanged
that is still accepted. A refresh token gives no access exactly once it has expired. -/
theorem short_lived_iff (jwt : Jwt) (lawful : jwt.Lawful)
    (encodes : ∀ claims secret, ∃ token, jwt.encode claims secret = .ok token) (config : AppConfig)
    (t : Nat) (u d : Uuid) (username token : String)
    (made : createAccessToken jwt t u d username config.jwtSecret = .ok token) :
    (∀ server steps c, t ≤ server.redis.now →
      Trail (Exchange.step jwt config) ⟨server, [token]⟩ steps c →
      ((Fleeting jwt config t ⟨server, [token]⟩ ∧ ∀ x ∈ steps, Fleeting jwt config t x.2.2) ↔
        ∀ x ∈ steps, Exchange.Spent jwt config x.1 x.2.1 x.2.2)) ∧
    ∀ t u d username token, createRefreshToken jwt t u d username config.jwtSecret = .ok token →
      ∀ s, NoAccess jwt config s token ↔
        t + REFRESH_TOKEN_EXPIRY_SECONDS + LEEWAY < s.redis.now := by
  have minted : Minted jwt config token u d (t + ACCESS_TOKEN_EXPIRY_SECONDS) :=
    ⟨_, createToken_eq_ok.mp made, rfl, rfl, rfl⟩
  constructor
  · intro server steps c begun run
    have start : Alone token t ⟨server, [token]⟩ := ⟨rfl, begun⟩
    rw [and_iff_right (start.fleeting lawful minted)]
    apply Trail.good_iff start _ _ _ run
    · intro c exchange c' taken spent alone
      exact alone.step taken spent
    · intro c alone
      exact alone.fleeting lawful minted
    · intro c exchange c' taken alone accepted
      exact alone.not_fleeting lawful encodes taken accepted
  · intro t u d username token made s
    have minted : Minted jwt config token u d (t + REFRESH_TOKEN_EXPIRY_SECONDS) :=
      ⟨_, createToken_eq_ok.mp made, rfl, rfl, rfl⟩
    rw [noAccess_iff, not_names_iff lawful minted]

/-- The access token of Alice, of time 0. -/
theorem short_lived_iff_alice : ∃ token,
    createAccessToken .sample 0 (.replicate 16 1) (.replicate 16 2) "alice" "secret" = .ok token ∧
    ∀ server steps c, Trail (Exchange.step .sample ⟨none, "secret"⟩) ⟨server, [token]⟩ steps c →
      ((Fleeting .sample ⟨none, "secret"⟩ 0 ⟨server, [token]⟩ ∧
        ∀ x ∈ steps, Fleeting .sample ⟨none, "secret"⟩ 0 x.2.2) ↔
        ∀ x ∈ steps, Exchange.Spent .sample ⟨none, "secret"⟩ x.1 x.2.1 x.2.2) :=
  ⟨_, rfl, fun server steps c => (short_lived_iff .sample Jwt.sample_lawful (fun _ _ => ⟨_, rfl⟩)
    ⟨none, "secret"⟩ 0 _ _ "alice" _ rfl).1 server steps c (Nat.zero_le _)⟩

/-- Who holds the access token of Alice exchanges it at once, and is let in with the refresh token
at time 1000. -/
theorem access_token_escalates : ∃ token held steps c headers auth s,
    createAccessToken .sample 0 (.replicate 16 1) (.replicate 16 2) "alice" "secret" = .ok token ∧
    createRefreshToken .sample 0 (.replicate 16 1) (.replicate 16 2) "alice" "secret" = .ok held ∧
    Trail (Exchange.step .sample ⟨none, "secret"⟩) ⟨.start 0 {}, [token]⟩ steps c ∧
    0 + ACCESS_TOKEN_EXPIRY_SECONDS + LEEWAY < c.server.redis.now ∧ held ∈ c.minted ∧
    bearerToken headers = some held ∧
    Runs Any (fromRequestParts .sample ⟨none, "secret"⟩ headers).run c.server (.ok auth) s := by
  let alice : Uuid := .replicate 16 1
  let phone : Uuid := .replicate 16 2
  obtain ⟨token, access⟩ : ∃ token,
      createAccessToken .sample 0 alice phone "alice" "secret" = .ok token := ⟨_, rfl⟩
  obtain ⟨held, refresh⟩ : ∃ held,
      createRefreshToken .sample 0 alice phone "alice" "secret" = .ok held := ⟨_, rfl⟩
  have encoded := createToken_eq_ok.mp access
  have current : 0 ≤ 0 + ACCESS_TOKEN_EXPIRY_SECONDS + LEEWAY := Nat.zero_le _
  have decoded := (Jwt.sample_lawful.decode_eq_ok encoded).mpr ⟨current, rfl⟩
  have authenticated : Runs Any (authenticate .sample ⟨none, "secret"⟩ token).run (.start 0 {})
      (.ok ⟨alice, phone, "alice"⟩) (.start 0 {}) := runs_authenticate.mpr
    ⟨rfl, _, decoded, Uuid.parseStr_display _, Uuid.parseStr_display _, rfl⟩
  have created :
      Runs Any (createTokens .sample ⟨none, "secret"⟩ alice phone "alice").run (.start 0 {})
      (.ok (token, held)) (.start 0 {}) := by
    simp only [createTokens, runs_run_bind_ok, runs_timestamp, runs_ofResult, runs_run_pure]
    exact ⟨_, _, ⟨rfl, rfl⟩, token, _, ⟨Result.mapError_eq_ok.mpr access, rfl⟩, _,
      _, ⟨rfl, rfl⟩, held, _,
      ⟨Result.mapError_eq_ok.mpr refresh, rfl⟩, rfl, rfl⟩
  have exchanged : Exchange.step .sample ⟨none, "secret"⟩ ⟨.start 0 {}, [token]⟩ (.refresh token)
      ⟨.start 0 {}, [token, token, held]⟩ := by
    refine ⟨List.mem_cons_self, .ok ⟨token, held, alice, phone, false⟩, ?_, rfl⟩
    refine runs_run_bind_ok.mpr ⟨⟨alice, phone, "alice"⟩, _, authenticated, ?_⟩
    exact runs_run_bind_ok.mpr ⟨(token, held), _, created, runs_run_pure.mpr ⟨rfl, rfl⟩⟩
  have waited : Exchange.step .sample ⟨none, "secret"⟩ ⟨.start 0 {}, [token, token, held]⟩ .other
      ⟨.start 1000 {}, [token, token, held]⟩ := ⟨Nat.zero_le _, rfl⟩
  have late : 0 + ACCESS_TOKEN_EXPIRY_SECONDS + LEEWAY < 1000 := by decide
  have encoded' := createToken_eq_ok.mp refresh
  have current' : 1000 ≤ 0 + REFRESH_TOKEN_EXPIRY_SECONDS + LEEWAY := by decide
  have decoded' := (Jwt.sample_lawful.decode_eq_ok encoded').mpr ⟨current', rfl⟩
  have sent : bearerToken (fun _ => some ("Bearer " ++ held)) = some held := bearer_append held
  refine ⟨token, held, _, _, fun _ => some ("Bearer " ++ held),
    ⟨alice, phone, "alice"⟩, .start 1000 {},
    access, refresh, (Trail.start.next exchanged).next waited, late, ?_, sent, ?_⟩
  · exact List.mem_cons_of_mem _ (List.mem_cons_of_mem _ List.mem_cons_self)
  · apply runs_fromRequestParts.mpr
    refine ⟨held, sent, runs_authenticate.mpr ⟨rfl, _, decoded', ?_, ?_, rfl⟩⟩
    · exact Uuid.parseStr_display _
    · exact Uuid.parseStr_display _

end Hysj.Api
