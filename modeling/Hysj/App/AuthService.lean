import Hysj.Api.Registration
import Hysj.App.ApiClient
import Hysj.Base.Text
import Hysj.Base.Trail

set_option autoImplicit false

/- Who the app takes itself for: the names it reads out of its tokens, and what is left in the
preferences by logging in and out while a refresh may be under way. -/
namespace Hysj.Auth

open Crypto
open Json (Value)

/-- The claims as `serde_json` writes them. -/
def Claims.toJson (claims : Claims) : Value :=
  .obj [("sub", .str claims.sub), ("device_id", .str claims.deviceId),
    ("username", .str claims.username), ("exp", .num claims.exp), ("iat", .num claims.iat)]

/-- Three parts in base64 with dots between them. -/
def compact (header payload signature : Bytes) : String :=
  String.ofList (Base64.encodeUrl header ++ '.' ::
    (Base64.encodeUrl payload ++ '.' :: Base64.encodeUrl signature))

/-- A token is signed text, and the claims are in its middle. -/
def Jwt.Compact (jwt : Jwt) : Prop :=
  ∀ claims secret token, jwt.encode claims secret = .ok token →
    ∃ header signature, token = compact header (Json.toVec claims.toJson) signature

theorem splitOn_compact (header payload signature : Bytes) :
    (compact header payload signature).splitOn "." =
      [String.ofList (Base64.encodeUrl header), String.ofList (Base64.encodeUrl payload),
        String.ofList (Base64.encodeUrl signature)] := by
  have without (bytes : Bytes) : ∀ c ∈ Base64.encodeUrl bytes, c ≠ '.' :=
    fun c member => (Base64.ne_of_mem_encodeUrl member).2
  have dot : "." = String.ofList ['.'] := rfl
  rw [compact, dot, Text.splitOn_append_cons (without header),
    Text.splitOn_append_cons (without payload), Text.splitOn_of_ne (without signature)]

end Hysj.Auth

namespace Hysj.Api

open Shared Auth Program

/-- The token was made for the user and the device, with the name. -/
def Bears (jwt : Jwt) (config : AppConfig) (u d : Uuid) (name token : String) : Prop :=
  ∃ claims, jwt.encode claims config.jwtSecret = .ok token ∧ claims.sub = u.display ∧
    claims.deviceId = d.display ∧ claims.username = name

/-- Both tokens of an answer were. -/
def HandsOut (jwt : Jwt) (config : AppConfig) (u d : Uuid) (name : String)
    (response : LoginResponse) :
    Prop :=
  Bears jwt config u d name response.accessToken ∧ Bears jwt config u d name response.refreshToken

section

variable {s s' : Server} {jwt : Jwt} {argon2 : Argon2} {b64 : Base64Engine} {config : AppConfig}
variable {u d : Uuid} {name : String} {response : LoginResponse} {headers : HeaderMap}

theorem bears_createTokens {tokens : String × String}
    (run : Runs Any (createTokens jwt config u d name).run s (.ok tokens) s') :
    Bears jwt config u d name tokens.1 ∧ Bears jwt config u d name tokens.2 := by
  simp only [createTokens, runs_run_bind_ok, runs_timestamp, runs_ofResult, runs_run_pure,
    Except.ok.injEq] at run
  obtain ⟨_, _, -, access, _, ⟨first, -⟩, _, _, -, refresh, _, ⟨second, -⟩, rfl, -⟩ := run
  rw [Result.mapError_eq_ok] at first second
  exact ⟨⟨_, createToken_eq_ok.mp first, rfl, rfl, rfl⟩,
    ⟨_, createToken_eq_ok.mp second, rfl, rfl, rfl⟩⟩

theorem username_createUser {request : RegisterRequest} {user : Db.User}
    (run : Runs Any (createUser argon2 b64 request name).run s (.ok user) s') :
    user.username = name := by
  simp only [createUser, runs_run_bind_ok, runs_ofResult, runs_adapt_ok, runs_query_ok] at run
  obtain ⟨_, _, -, _, _, -, _, _, -, _, _, -, answer, -⟩ := run
  unfold Db.createUser at answer
  split at answer
  · cases answer
  · split at answer
    · cases answer
    · split at answer
      · cases answer
      · obtain rfl := Except.ok.inj answer
        rfl

theorem handsOut_register {request : RegisterRequest}
    (run : Runs Any (register jwt argon2 b64 config headers request).run s (.ok response) s') :
    HandsOut jwt config response.userId response.deviceId (request.username.getD "") response := by
  rw [register, runs_run_bind_ok] at run
  obtain ⟨passes, s₁, -, rest⟩ := run
  split at rest
  · simp only [runs_run_bind_ok, runs_ofResult, runs_run_pure, Except.ok.injEq] at rest
    obtain ⟨name, _, ⟨checked, -⟩, user, _, created, device, _, -, _, _, -, tokens, _, minted,
      rfl, -⟩ := rest
    have named := bears_createTokens minted
    rw [username_createUser created, checkLengths_eq_ok checked] at named
    exact named
  · cases (runs_run_throw.mp rest).1

/-- A login is for the user with the phone number, under the name that the row has. -/
theorem handsOut_login {request : LoginRequest}
    (run : Runs Any (login jwt argon2 config headers request).run s (.ok response) s') :
    ∃ user, s.db.users.find? (fun row => row.phoneNumber = request.phoneNumber) = some user ∧
      response.userId = user.id ∧ (response.accessToken = "" ∧ response.refreshToken = "" ∨
        HandsOut jwt config response.userId response.deviceId user.username response) := by
  simp only [login, runs_run_bind_ok] at run
  obtain ⟨passes, s₁, limited, rest⟩ := run
  obtain ⟨limits, rfl⟩ := runs_checkRateLimit limited
  split at rest
  swap
  · cases (runs_run_throw.mp rest).1
  simp only [runs_run_bind_ok, runs_adapt_ok, runs_query_ok] at rest
  obtain ⟨failures, _, ⟨-, rfl⟩, rest⟩ := rest
  split at rest
  · cases (runs_run_throw.mp rest).1
  simp only [runs_run_bind_ok, runs_adapt_ok, runs_query_ok] at rest
  obtain ⟨found, _, ⟨answer, rfl⟩, rest⟩ := rest
  split at rest
  swap
  · cases (runs_run_throw.mp rest).1
  rename_i user
  refine ⟨user, Except.ok.inj answer, ?_⟩
  simp only [loginUser, runs_run_bind_ok, runs_ofResult] at rest
  obtain ⟨valid, _, -, rest⟩ := rest
  split at rest
  swap
  · rw [runs_run_bind_ok] at rest
    obtain ⟨_, _, -, rest⟩ := rest
    cases (runs_run_throw.mp rest).1
  simp only [runs_run_bind_ok] at rest
  obtain ⟨_, _, -, rest⟩ := rest
  split at rest
  · obtain ⟨same, -⟩ := runs_run_pure.mp rest
    obtain rfl := Except.ok.inj same
    exact ⟨rfl, Or.inl ⟨rfl, rfl⟩⟩
  · simp only [runs_run_bind_ok, runs_run_pure, Except.ok.injEq] at rest
    obtain ⟨device, _, -, tokens, _, minted, _, _, -, rfl, -⟩ := rest
    exact ⟨rfl, Or.inr (bears_createTokens minted)⟩

/-- A refresh is for whom the token is for, under the name that the token has. -/
theorem handsOut_refresh (lawful : jwt.Lawful) {token : String}
    (bears : Bears jwt config u d name token)
    (run : Runs Any (refresh jwt config ⟨token⟩).run s (.ok response) s') :
    HandsOut jwt config u d name response := by
  obtain ⟨claims, encoded, sub, device, named⟩ := bears
  simp only [refresh, runs_run_bind_ok, runs_authenticate, runs_run_pure, Except.ok.injEq] at run
  obtain ⟨auth, _, ⟨-, claims', decoded, user, own, is⟩, tokens, _, created, rfl, -⟩ := run
  obtain ⟨-, rfl⟩ := (lawful.decode_eq_ok encoded).mp decoded
  rw [sub, Uuid.parseStr_display] at user
  rw [device, Uuid.parseStr_display] at own
  have minted := bears_createTokens created
  rw [← Option.some.inj user, ← Option.some.inj own, ← is, named] at minted
  exact minted

theorem refresh_empty (lawful : jwt.Lawful) :
    ¬ Runs Any (refresh jwt config ⟨""⟩).run s (.ok response) s' := by
  intro run
  simp only [refresh, runs_run_bind_ok, runs_authenticate] at run
  obtain ⟨_, _, ⟨-, claims, decoded, -⟩, -⟩ := run
  exact lawful.decode_empty _ _ _ decoded

end

end Hysj.Api

namespace Hysj.App

open Crypto Shared Auth Api Program
open Json (Value)
open Serde

/-- `payload.padRight(..)` -/
theorem base64Chars_payload (payload : Bytes) :
    Dart.base64Chars ((String.ofList (Base64.encodeUrl payload)).toList ++
      List.replicate (((String.ofList (Base64.encodeUrl payload)).length + 3) / 4 * 4 -
        (String.ofList (Base64.encodeUrl payload)).length) '=') = some payload := by
  rw [String.toList_ofList, String.length_ofList]
  exact Dart.base64Chars_encodeUrl payload

/-- What the server writes as claims is read. -/
def JsonDecoder.ReadsClaims (jsonDecode : JsonDecoder) : Prop :=
  ∀ claims : Claims, jsonDecode (String.ofList (Json.render claims.toJson)) = some claims.toJson

/-- The app finds the name that the server has put into the token. -/
theorem extractFromJwt_encode {jwt : Jwt} (compact : jwt.Compact) {jsonDecode : JsonDecoder}
    (reads : jsonDecode.ReadsClaims) {claims : Claims} {secret token : String}
    (encoded : jwt.encode claims secret = .ok token) :
    extractFromJwt jsonDecode token "username" = some claims.username := by
  obtain ⟨header, signature, rfl⟩ := compact claims secret token encoded
  have text : Utf8.fromUtf8 (Json.toVec claims.toJson) =
      some (String.ofList (Json.render claims.toJson)) := Utf8.fromUtf8_utf8 _
  rw [extractFromJwt, splitOn_compact]
  dsimp only
  rw [base64Chars_payload]
  simp only [Option.bind_eq_bind, Option.bind_some, text, reads claims]
  rfl

/-- The claims in the payload of a token. -/
def readClaims (payload : String) : Option Claims := do
  let padded := payload.toList ++ List.replicate ((payload.length + 3) / 4 * 4 - payload.length) '='
  match ← Json.ofSlice (← Dart.base64Chars padded) with
  | .obj [(_, .str sub), (_, .str deviceId), (_, .str username), (_, .num exp), (_, .num iat)] =>
      some ⟨sub, deviceId, username, exp.toNat, iat.toNat⟩
  | _ => none

/-- Tokens with the secret in place of the signature. -/
def compactSample : Jwt where
  encode claims secret :=
    .ok (compact (Json.toVec (.obj [("typ", .str "JWT"), ("alg", .str "HS256")]))
      (Json.toVec claims.toJson) (strBytes secret))
  decode now token secret :=
    match token.splitOn "." with
    | [_, payload, signature] =>
        if signature = String.ofList (Base64.encodeUrl (strBytes secret)) then
          match readClaims payload with
          | some claims =>
              if now ≤ claims.exp + LEEWAY then .ok claims else .error .expiredSignature
          | none => .error .invalidToken
        else .error (.other "InvalidSignature")
    | _ => .error .invalidToken

theorem compactSample_compact : compactSample.Compact := by
  intro claims secret token encoded
  obtain rfl := Except.ok.inj encoded
  exact ⟨_, _, rfl⟩

theorem readClaims_encodeUrl (claims : Claims) :
    readClaims (String.ofList (Base64.encodeUrl (Json.toVec claims.toJson))) = some claims := by
  rw [readClaims, base64Chars_payload]
  simp only [Option.bind_eq_bind, Option.bind_some, Json.ofSlice_toVec]
  rfl

theorem compactSample_lawful : compactSample.Lawful := by
  constructor
  · intro claims secret token encoded now
    obtain rfl := Except.ok.inj encoded
    simp only [compactSample, splitOn_compact, readClaims_encodeUrl, if_true]
  · intro now secret claims decoded
    have alone : "".splitOn "." = [String.ofList []] := by
      have empty : "" = String.ofList [] := rfl
      have dot : "." = String.ofList ['.'] := rfl
      rw [empty, dot, Text.splitOn_of_ne (List.forall_mem_nil _)]
    simp only [compactSample, alone] at decoded
    cases decoded

theorem JsonDecoder.sample_readsClaims : JsonDecoder.sample.ReadsClaims := by
  intro claims
  have bytes : Json.utf8 (String.ofList (Json.render claims.toJson)).toList =
      Json.toVec claims.toJson := by
    rw [String.toList_ofList, Json.toVec]
  rw [sample, bytes, Json.ofSlice_toVec]

/-- What `AuthService` keeps. -/
structure Preferences extends AuthService where
  userId : Option String
  deviceId : Option String

/-- `setString` of a key, or `remove`. -/
inductive PreferenceWrite where
  | accessToken (value : Option String)
  | refreshToken (value : Option String)
  | userId (value : Option String)
  | deviceId (value : Option String)
  | username (value : Option String)

namespace Preferences

/-- Nothing is kept, as after `logout`. -/
def blank : Preferences := ⟨⟨none, none, none⟩, none, none⟩

def write (p : Preferences) : PreferenceWrite → Preferences
  | .accessToken value => { p with accessToken := value }
  | .refreshToken value => { p with refreshToken := value }
  | .userId value => { p with userId := value }
  | .deviceId value => { p with deviceId := value }
  | .username value => { p with username := value }

/-- The writes of `saveTokens`, in their order. -/
def saveTokens (jsonDecode : JsonDecoder) (accessToken refreshToken : String) :
    List PreferenceWrite :=
  [.accessToken (some accessToken), .refreshToken (some refreshToken)] ++
    (extractFromJwt jsonDecode accessToken "username").toList.map fun name => .username (some name)

/-- The writes of `saveUserInfo`. -/
def saveUserInfo (userId deviceId : String) : List PreferenceWrite :=
  [.userId (some userId), .deviceId (some deviceId)]

/-- The writes of `logout`. -/
def logout : List PreferenceWrite :=
  [.accessToken none, .refreshToken none, .userId none, .deviceId none, .username none]

/-- Who the app says it is. -/
def identity (p : Preferences) : Option String × Option String × Option String :=
  (p.userId, p.deviceId, p.username)

/-- The tokens that are kept. -/
def tokens (p : Preferences) : List String := p.accessToken.toList ++ p.refreshToken.toList

end Preferences

/-- An answer on its way to the app: to a login or registration, or to a refresh. -/
inductive SessionAnswer where
  | entered (response : LoginResponse)
  | renewed (response : LoginResponse)

/-- What the screens write after a login or a registration, and `_tryRefresh` after the answer. -/
def SessionAnswer.writes (jsonDecode : JsonDecoder) : SessionAnswer → List PreferenceWrite
  | .entered response =>
      Preferences.saveTokens jsonDecode response.accessToken response.refreshToken ++
        Preferences.saveUserInfo response.userId.display response.deviceId.display
  | .renewed response =>
      Preferences.saveTokens jsonDecode response.accessToken response.refreshToken

/-- Writes that are awaited one after the other: of an answer, or of a logout. -/
structure Saving where
  answer : Option SessionAnswer
  rest : List PreferenceWrite

/-- What is saved comes of a refresh. -/
def Saving.Renews (saving : Saving) : Prop := ∃ response, saving.answer = some (.renewed response)

/-- The server and an app, with the refresh tokens, the answers and the writes that are under way.
-/
structure SessionWorld where
  server : Server
  preferences : Preferences
  asked : List String
  answers : List SessionAnswer
  savings : List Saving

inductive SessionEvent where
  /-- the server handles a request of the app -/
  | register (headers : HeaderMap) (request : RegisterRequest)
  | login (headers : HeaderMap) (request : LoginRequest)
  | refresh (i : Nat)
  /-- `_tryRefresh` sends the token that is kept -/
  | ask
  /-- the app has an answer -/
  | take (i : Nat)
  /-- a refresh is refused, or it or an answer is lost -/
  | refuse (i : Nat)
  | lose (i : Nat)
  | logout
  /-- the next write -/
  | write (i : Nat)
  /-- the last write has been awaited -/
  | saved (i : Nat)
  /-- whatever else the server does, and the time that passes -/
  | serve

namespace SessionWorld

section

variable (jwt : Jwt) (argon2 : Argon2) (b64 : Base64Engine) (config : AppConfig)
variable (jsonDecode : JsonDecoder)

inductive Step : SessionWorld → SessionEvent → SessionWorld → Prop where
  | register {w : SessionWorld} {headers : HeaderMap} {request : RegisterRequest}
      {response : LoginResponse} {s : Server}
      (run : Runs Any (Api.register jwt argon2 b64 config headers request).run w.server
        (.ok response) s) :
      Step w (.register headers request) { w with
        server := s
        answers := w.answers ++ [.entered response] }
  | login {w : SessionWorld} {headers : HeaderMap} {request : LoginRequest}
      {response : LoginResponse} {s : Server}
      (run : Runs Any (Api.login jwt argon2 config headers request).run w.server (.ok response) s) :
      Step w (.login headers request) { w with
        server := s
        answers := w.answers ++ [.entered response] }
  | refresh {w : SessionWorld} {i : Nat} {token : String} {response : LoginResponse} {s : Server}
      (sent : w.asked[i]? = some token)
      (run : Runs Any (Api.refresh jwt config ⟨token⟩).run w.server (.ok response) s) :
      Step w (.refresh i) { w with
        server := s
        asked := w.asked.eraseIdx i
        answers := w.answers ++ [.renewed response] }
  | ask {w : SessionWorld} {token : String} (kept : w.preferences.refreshToken = some token) :
      Step w .ask { w with asked := w.asked ++ [token] }
  | take {w : SessionWorld} {i : Nat} {answer : SessionAnswer}
      (came : w.answers[i]? = some answer) :
      Step w (.take i) { w with
        answers := w.answers.eraseIdx i
        savings := w.savings ++ [⟨some answer, answer.writes jsonDecode⟩] }
  | refuse (w : SessionWorld) (i : Nat) : Step w (.refuse i) { w with asked := w.asked.eraseIdx i }
  | lose (w : SessionWorld) (i : Nat) : Step w (.lose i) { w with answers := w.answers.eraseIdx i }
  | logout (w : SessionWorld) :
      Step w .logout { w with savings := w.savings ++ [⟨none, Preferences.logout⟩] }
  | write {w : SessionWorld} {i : Nat} {answer : Option SessionAnswer} {write : PreferenceWrite}
      {rest : List PreferenceWrite} (next : w.savings[i]? = some ⟨answer, write :: rest⟩) :
      Step w (.write i) { w with
        preferences := w.preferences.write write
        savings := w.savings.set i ⟨answer, rest⟩ }
  | saved {w : SessionWorld} {i : Nat} {answer : Option SessionAnswer}
      (done : w.savings[i]? = some ⟨answer, []⟩) :
      Step w (.saved i) { w with savings := w.savings.eraseIdx i }
  | serve (w : SessionWorld) (s : Server) : Step w .serve { w with server := s }

end

/-- No refresh is under way, and nothing is being saved. -/
def Calm (w : SessionWorld) : Prop :=
  w.asked = [] ∧ (∀ response, .renewed response ∉ w.answers) ∧ w.savings = []

/-- At the event somebody else begins to be logged in, or nobody. -/
def Enters (w : SessionWorld) (e : SessionEvent) : Prop :=
  e = .logout ∨ ∃ i response, e = .take i ∧ w.answers[i]? = some (.entered response)

/-- Nobody is logged in or out while a refresh, a login or a logout is under way, and meanwhile no
refresh is asked for. -/
def Separate (w : SessionWorld) (e : SessionEvent) : Prop :=
  (Enters w e → Calm w) ∧ (e = .ask → ∀ saving ∈ w.savings, saving.Renews)

/-- The step at which a user registers under the name, or has it at a login. -/
def Admits (u : Uuid) (name : String) (x : SessionWorld × SessionEvent × SessionWorld) : Prop :=
  (∃ headers request response, x.2.1 = .register headers request ∧
    x.2.2.answers = x.1.answers ++ [.entered response] ∧ response.userId = u ∧
    request.username.getD "" = name) ∨
  ∃ headers request user, x.2.1 = .login headers request ∧
    x.1.server.db.users.find? (fun row => row.phoneNumber = request.phoneNumber) = some user ∧
    user.id = u ∧ user.username = name

section

variable (jwt : Jwt) (config : AppConfig) (jsonDecode : JsonDecoder)
variable (steps : List (SessionWorld × SessionEvent × SessionWorld))

/-- The token is for whom the app says it is, who has come in under that name. -/
def Fits (p : Preferences) (token : String) : Prop :=
  ∃ u d name, Bears jwt config u d name token ∧
    p.identity = (some u.display, some d.display, some name) ∧ ∃ x ∈ steps, Admits u name x

/-- What is kept is for whom the app says it is. A login with a second factor has come with empty
tokens. -/
def Kept (p : Preferences) : Prop := ∀ token ∈ p.tokens, token = "" ∨ Fits jwt config steps p token

/-- Both tokens of an answer are. -/
def FitsBoth (p : Preferences) (response : LoginResponse) : Prop :=
  Fits jwt config steps p response.accessToken ∧ Fits jwt config steps p response.refreshToken

/-- Whoever the app says it is stays; only refreshes may be under way. -/
structure Steady (w : SessionWorld) : Prop where
  kept : Kept jwt config steps w.preferences
  asked : ∀ token ∈ w.asked, token = "" ∨ Fits jwt config steps w.preferences token
  renewed :
    ∀ response, .renewed response ∈ w.answers → FitsBoth jwt config steps w.preferences response
  savings : ∀ saving ∈ w.savings, ∃ response, saving.answer = some (.renewed response) ∧
    FitsBoth jwt config steps w.preferences response ∧
    ∀ write ∈ saving.rest, write ∈ (SessionAnswer.renewed response).writes jsonDecode

/-- No refresh is under way, and only the one thing is being saved. -/
structure Alone (w : SessionWorld) (saving : Saving) : Prop where
  asked : w.asked = []
  answers : ∀ response, .renewed response ∉ w.answers
  savings : w.savings = [saving]

/-- The access token goes first, the refresh token second, and then the rest. -/
inductive Leaving (p : Preferences) : List PreferenceWrite → Prop where
  | starts : Leaving p Preferences.logout
  | first (gone : p.accessToken = none) : Leaving p (Preferences.logout.drop 1)
  | both {rest : List PreferenceWrite} (part : ∀ write ∈ rest, write ∈ Preferences.logout)
      (gone : p.tokens = []) : Leaving p rest

/-- The answer to a login or registration was handed out by the server, or it has empty tokens. -/
def Welcome (response : LoginResponse) : Prop :=
  response.accessToken = "" ∧ response.refreshToken = "" ∨
    ∃ name, HandsOut jwt config response.userId response.deviceId name response ∧
      ∃ x ∈ steps, Admits response.userId name x

/-- Refreshes may be under way, or somebody is coming in, or leaving. -/
inductive Phase (w : SessionWorld) : Prop where
  | steady (steady : Steady jwt config jsonDecode steps w)
  | entering {response : LoginResponse} {done rest : List PreferenceWrite} {p : Preferences}
      (alone : Alone w ⟨some (.entered response), rest⟩)
        (welcome : Welcome jwt config steps response)
      (split : (SessionAnswer.entered response).writes jsonDecode = done ++ rest)
      (is : w.preferences = done.foldl Preferences.write p)
  | leaving {rest : List PreferenceWrite} (alone : Alone w ⟨none, rest⟩)
      (kept : Kept jwt config steps w.preferences) (leaving : Leaving w.preferences rest)

structure Agrees (w : SessionWorld) : Prop where
  entered : ∀ response, .entered response ∈ w.answers → Welcome jwt config steps response
  phase : Phase jwt config jsonDecode steps w

end

section

variable {jwt : Jwt} {argon2 : Argon2} {b64 : Base64Engine} {config : AppConfig}
variable {jsonDecode : JsonDecoder} {w w' : SessionWorld} {e : SessionEvent} {token : String}
variable {steps later : List (SessionWorld × SessionEvent × SessionWorld)} {p p' : Preferences}
variable {response : LoginResponse} {u d : Uuid} {name : String} {i : Nat}
variable {change : PreferenceWrite} {rest : List PreferenceWrite}

theorem Fits.next (fits : Fits jwt config steps p token) (same : p'.identity = p.identity) :
    Fits jwt config (steps ++ later) p' token := by
  obtain ⟨u, d, name, bears, is, x, member, admits⟩ := fits
  exact ⟨u, d, name, bears, same.trans is, x, List.mem_append_left _ member, admits⟩

theorem FitsBoth.next (fits : FitsBoth jwt config steps p response)
    (same : p'.identity = p.identity) : FitsBoth jwt config (steps ++ later) p' response :=
  ⟨fits.1.next same, fits.2.next same⟩

theorem Welcome.next (welcome : Welcome jwt config steps response) :
    Welcome jwt config (steps ++ later) response := by
  refine welcome.imp_right ?_
  rintro ⟨name, handsOut, x, listed, admits⟩
  exact ⟨name, handsOut, x, List.mem_append_left _ listed, admits⟩

theorem Steady.of_same (same : w'.preferences.identity = p.identity)
    (kept : ∀ token ∈ w'.preferences.tokens, token = "" ∨ Fits jwt config steps p token)
    (asked : ∀ token ∈ w'.asked, token = "" ∨ Fits jwt config steps p token)
    (renewed : ∀ response, .renewed response ∈ w'.answers → FitsBoth jwt config steps p response)
    (savings : ∀ saving ∈ w'.savings, ∃ response, saving.answer = some (.renewed response) ∧
      FitsBoth jwt config steps p response ∧
      ∀ write ∈ saving.rest, write ∈ (SessionAnswer.renewed response).writes jsonDecode) :
    Steady jwt config jsonDecode (steps ++ later) w' := by
  constructor
  · intro token member
    exact (kept token member).imp_right fun fits => fits.next same
  · intro token member
    exact (asked token member).imp_right fun fits => fits.next same
  · intro response member
    exact (renewed response member).next same
  · intro saving member
    obtain ⟨response, is, fits, rest⟩ := savings saving member
    exact ⟨response, is, fits.next same, rest⟩

theorem Kept.next (kept : Kept jwt config steps p) (same : p'.identity = p.identity)
    (tokens : ∀ token ∈ p'.tokens, token ∈ p.tokens) : Kept jwt config (steps ++ later) p' :=
  fun token member => (kept token (tokens token member)).imp_right fun fits => fits.next same

theorem Alone.of_same {saving : Saving} (alone : Alone w saving)
    (asked : ∀ token ∈ w'.asked, token ∈ w.asked)
    (answers : ∀ response, .renewed response ∈ w'.answers → .renewed response ∈ w.answers)
    (savings : w'.savings = w.savings) : Alone w' saving := by
  refine ⟨List.eq_nil_iff_forall_not_mem.mpr fun token member => ?_, ?_,
    savings.trans alone.savings⟩
  · have before := asked token member
    rw [alone.asked] at before
    cases before
  · exact fun response member => alone.answers response (answers response member)

/-- A step that saves nothing, while what is under way is at most what was. -/
theorem Phase.next (phase : Phase jwt config jsonDecode steps w)
    (preferences : w'.preferences = w.preferences) (asked : ∀ token ∈ w'.asked, token ∈ w.asked)
    (answers : ∀ response, .renewed response ∈ w'.answers → .renewed response ∈ w.answers)
    (savings : w'.savings = w.savings) : Phase jwt config jsonDecode (steps ++ later) w' := by
  cases phase with
  | steady steady =>
      refine .steady (Steady.of_same (congrArg _ preferences) ?_ ?_ ?_ ?_)
      · rw [preferences]
        exact steady.kept
      · exact fun token member => steady.asked token (asked token member)
      · exact fun response member => steady.renewed response (answers response member)
      · rw [savings]
        exact steady.savings
  | entering alone welcome split is =>
      exact .entering (alone.of_same asked answers savings) welcome.next split
        (preferences.trans is)
  | leaving alone kept leaving =>
      refine .leaving (alone.of_same asked answers savings) ?_ ?_
      · rw [preferences]
        exact kept.next rfl fun _ => id
      · rw [preferences]
        exact leaving

/-- What happens while a refresh is under way happens to somebody who stays. -/
theorem Phase.steady_of_renewed (phase : Phase jwt config jsonDecode steps w)
    (member : .renewed response ∈ w.answers) : Steady jwt config jsonDecode steps w := by
  cases phase with
  | steady steady => exact steady
  | entering alone => exact absurd member (alone.answers response)
  | leaving alone => exact absurd member (alone.answers response)

theorem Phase.steady_of_asked (phase : Phase jwt config jsonDecode steps w)
    (member : token ∈ w.asked) :
    Steady jwt config jsonDecode steps w := by
  cases phase with
  | steady steady => exact steady
  | entering alone =>
      rw [alone.asked] at member
      cases member
  | leaving alone =>
      rw [alone.asked] at member
      cases member

theorem Phase.steady_of_renews (phase : Phase jwt config jsonDecode steps w)
    (renews : ∀ saving ∈ w.savings, saving.Renews) : Steady jwt config jsonDecode steps w := by
  cases phase with
  | steady steady => exact steady
  | entering alone =>
      obtain ⟨response, other⟩ := renews _ (by rw [alone.savings]; exact List.mem_cons_self)
      cases other
  | leaving alone =>
      obtain ⟨response, other⟩ := renews _ (by rw [alone.savings]; exact List.mem_cons_self)
      cases other

theorem Phase.steady_of_calm (phase : Phase jwt config jsonDecode steps w) (calm : Calm w) :
    Steady jwt config jsonDecode steps w := by
  apply phase.steady_of_renews
  rw [calm.2.2]
  exact List.forall_mem_nil _

/-- The writes of new tokens bring the name that the access token bears. -/
theorem saveTokens_eq (compact : jwt.Compact) (reads : jsonDecode.ReadsClaims)
    (bears : Bears jwt config u d name response.accessToken) :
    Preferences.saveTokens jsonDecode response.accessToken response.refreshToken =
      [.accessToken (some response.accessToken), .refreshToken (some response.refreshToken),
        .username (some name)] := by
  obtain ⟨claims, encoded, -, -, named⟩ := bears
  rw [Preferences.saveTokens, extractFromJwt_encode compact reads encoded, named]
  rfl

theorem renewed_write (compact : jwt.Compact) (reads : jsonDecode.ReadsClaims)
    (fits : FitsBoth jwt config steps p response)
    (member : change ∈ (SessionAnswer.renewed response).writes jsonDecode) :
    (p.write change).identity = p.identity ∧ ∀ token ∈ (p.write change).tokens,
      token ∈ p.tokens ∨ token = response.accessToken ∨ token = response.refreshToken := by
  obtain ⟨u, d, name, bears, is, -⟩ := fits.1
  rw [SessionAnswer.writes, saveTokens_eq compact reads bears] at member
  simp only [List.mem_cons, List.not_mem_nil, or_false] at member
  rcases member with rfl | rfl | rfl
  · refine ⟨rfl, fun token member => ?_⟩
    rcases List.mem_append.mp member with new | old
    · exact Or.inr (Or.inl (List.mem_singleton.mp new))
    · exact Or.inl (List.mem_append_right _ old)
  · refine ⟨rfl, fun token member => ?_⟩
    rcases List.mem_append.mp member with old | new
    · exact Or.inl (List.mem_append_left _ old)
    · exact Or.inr (Or.inr (List.mem_singleton.mp new))
  · refine ⟨?_, fun token member => Or.inl member⟩
    obtain ⟨user, rest⟩ := Prod.mk.inj is
    obtain ⟨device, -⟩ := Prod.mk.inj rest
    rw [is, ← user, ← device]
    rfl

theorem Steady.write (compact : jwt.Compact) (reads : jsonDecode.ReadsClaims)
    {answer : Option SessionAnswer} (steady : Steady jwt config jsonDecode steps w)
    (next : w.savings[i]? = some ⟨answer, change :: rest⟩) :
    Steady jwt config jsonDecode (steps ++ later) { w with
      preferences := w.preferences.write change
      savings := w.savings.set i ⟨answer, rest⟩ } := by
  obtain ⟨response, is, fits, part⟩ := steady.savings _ (List.mem_of_getElem? next)
  obtain ⟨same, tokens⟩ := renewed_write compact reads fits (part change List.mem_cons_self)
  refine Steady.of_same same
    (fun token member => ?_) steady.asked steady.renewed fun saving member => ?_
  · rcases tokens token member with old | rfl | rfl
    · exact steady.kept token old
    · exact Or.inr fits.1
    · exact Or.inr fits.2
  · rcases List.mem_or_eq_of_mem_set member with old | rfl
    · exact steady.savings saving old
    · exact ⟨response, is, fits, fun write member => part write (List.mem_cons_of_mem _ member)⟩

theorem Leaving.write (leaving : Leaving p (change :: rest)) (kept : Kept jwt config steps p) :
    Kept jwt config (steps ++ later) (p.write change) ∧ Leaving (p.write change) rest := by
  generalize all : change :: rest = writes at leaving
  cases leaving with
  | starts =>
      obtain ⟨rfl, rfl⟩ := List.cons.inj all
      exact ⟨kept.next rfl fun token member => List.mem_append_right _ member, .first rfl⟩
  | first gone =>
      obtain ⟨rfl, rfl⟩ := List.cons.inj all
      have none_left : (p.write (.refreshToken none)).tokens = [] := by
        simp [Preferences.write, Preferences.tokens, gone]
      refine ⟨fun token member => ?_,
        .both (fun write member => List.drop_subset 2 Preferences.logout member) none_left⟩
      rw [none_left] at member
      cases member
  | both part gone =>
      subst all
      have none_left : (p.write change).tokens = [] := by
        have member := part change List.mem_cons_self
        simp only [Preferences.tokens, List.append_eq_nil_iff, Option.toList_eq_nil_iff] at gone ⊢
        simp only [Preferences.logout, List.mem_cons, List.not_mem_nil, or_false] at member
        rcases member with rfl | rfl | rfl | rfl | rfl <;> simp [Preferences.write, gone]
      refine ⟨fun token member => ?_,
        .both (fun write member => part write (List.mem_cons_of_mem _ member)) none_left⟩
      rw [none_left] at member
      cases member

/-- When everything is saved, the app keeps the tokens beside whom they are for. -/
theorem kept_entered (compact : jwt.Compact) (reads : jsonDecode.ReadsClaims)
    (welcome : Welcome jwt config steps response) :
    Kept jwt config steps
      (((SessionAnswer.entered response).writes jsonDecode).foldl Preferences.write p) := by
  intro token member
  have tokens : token = response.accessToken ∨ token = response.refreshToken := by
    rw [SessionAnswer.writes, Preferences.saveTokens] at member
    cases named : extractFromJwt jsonDecode response.accessToken "username" with
    | none =>
        rw [named] at member
        simpa [Preferences.write, Preferences.tokens, Preferences.saveUserInfo] using member
    | some name =>
        rw [named] at member
        simpa [Preferences.write, Preferences.tokens, Preferences.saveUserInfo] using member
  rcases welcome with ⟨noAccess, noRefresh⟩ | ⟨name, handsOut, x, listed, admits⟩
  · left
    rcases tokens with rfl | rfl
    · exact noAccess
    · exact noRefresh
  · right
    have is :
        (((SessionAnswer.entered response).writes jsonDecode).foldl Preferences.write p).identity =
        (some response.userId.display, some response.deviceId.display, some name) := by
      rw [SessionAnswer.writes, saveTokens_eq compact reads handsOut.1]
      rfl
    rcases tokens with rfl | rfl
    · exact ⟨_, _, name, handsOut.1, is, x, listed, admits⟩
    · exact ⟨_, _, name, handsOut.2, is, x, listed, admits⟩

theorem Alone.write {answer answer' : Option SessionAnswer} {rest' : List PreferenceWrite}
    (alone : Alone w ⟨answer', rest'⟩) (next : w.savings[i]? = some ⟨answer, change :: rest⟩) :
    answer = answer' ∧ rest' = change :: rest ∧ Alone { w with
      preferences := w.preferences.write change
      savings := w.savings.set i ⟨answer, rest⟩ } ⟨answer, rest⟩ := by
  rw [alone.savings] at next
  have first : i = 0 := by
    have inside := (List.getElem?_eq_some_iff.mp next).1
    simpa using inside
  subst first
  obtain ⟨rfl, rfl⟩ := Saving.mk.inj (Option.some.inj next)
  refine ⟨rfl, rfl, alone.asked, alone.answers, ?_⟩
  show w.savings.set 0 _ = _
  rw [alone.savings]
  rfl

theorem Phase.write (compact : jwt.Compact) (reads : jsonDecode.ReadsClaims)
    {answer : Option SessionAnswer} (phase : Phase jwt config jsonDecode steps w)
    (next : w.savings[i]? = some ⟨answer, change :: rest⟩) :
    Phase jwt config jsonDecode (steps ++ later) { w with
      preferences := w.preferences.write change
      savings := w.savings.set i ⟨answer, rest⟩ } := by
  cases phase with
  | steady steady => exact .steady (steady.write compact reads next)
  | @entering response done rest' p alone welcome split is =>
      obtain ⟨rfl, rfl, after⟩ := alone.write next
      refine @Phase.entering _ _ _ _ _ response (done ++ [change]) _ p after welcome.next ?_ ?_
      · rw [split, List.append_assoc]
        rfl
      · rw [List.foldl_append, ← is]
        rfl
  | leaving alone kept leaving =>
      obtain ⟨rfl, rfl, after⟩ := alone.write next
      obtain ⟨kept, left⟩ := leaving.write kept
      exact .leaving after kept left

theorem Phase.saved (compact : jwt.Compact) (reads : jsonDecode.ReadsClaims)
    {answer : Option SessionAnswer} (phase : Phase jwt config jsonDecode steps w)
    (done : w.savings[i]? = some ⟨answer, []⟩) :
    Phase jwt config jsonDecode (steps ++ later) { w with savings := w.savings.eraseIdx i } := by
  have quiet {saving : Saving} (alone : Alone w saving)
      (kept : Kept jwt config steps w.preferences) :
      Phase jwt config jsonDecode (steps ++ later) { w with savings := w.savings.eraseIdx i } := by
    have first : i = 0 := by
      rw [alone.savings] at done
      simpa using (List.getElem?_eq_some_iff.mp done).1
    refine .steady ⟨kept.next rfl fun _ => id, ?_, ?_, ?_⟩
    · intro token member
      rw [alone.asked] at member
      cases member
    · exact fun response member => absurd member (alone.answers response)
    · intro saving member
      rw [alone.savings, first] at member
      cases member
  cases phase with
  | steady steady =>
      exact .steady (Steady.of_same rfl steady.kept steady.asked steady.renewed fun saving member =>
        steady.savings saving (List.mem_of_mem_eraseIdx member))
  | @entering response written rest p alone welcome split is =>
      refine quiet alone ?_
      have empty : rest = [] := by
        rw [alone.savings] at done
        have member := List.mem_singleton.mp (List.mem_of_getElem? done)
        exact (Saving.mk.inj member).2.symm
      rw [empty, List.append_nil] at split
      rw [is, ← split]
      exact kept_entered compact reads welcome
  | leaving alone kept => exact quiet alone kept

theorem Agrees.next (agrees : Agrees jwt config jsonDecode steps w)
    (preferences : w'.preferences = w.preferences) (asked : ∀ token ∈ w'.asked, token ∈ w.asked)
    (answers : ∀ answer ∈ w'.answers, answer ∈ w.answers) (savings : w'.savings = w.savings) :
    Agrees jwt config jsonDecode (steps ++ later) w' :=
  ⟨fun response member => (agrees.entered response (answers _ member)).next,
    agrees.phase.next preferences asked (fun _ => answers _) savings⟩

theorem Agrees.admitted (agrees : Agrees jwt config jsonDecode steps w) (s : Server)
    {x : SessionWorld × SessionEvent × SessionWorld}
    (admits : response.accessToken = "" ∧ response.refreshToken = "" ∨
      ∃ name, HandsOut jwt config response.userId response.deviceId name response ∧
        Admits response.userId name x) :
    Agrees jwt config jsonDecode (steps ++ [x]) { w with
      server := s
      answers := w.answers ++ [.entered response] } := by
  constructor
  · intro other member
    rcases List.mem_append.mp member with before | new
    · exact (agrees.entered other before).next
    · obtain rfl := SessionAnswer.entered.inj (List.mem_singleton.mp new)
      refine admits.imp_right ?_
      rintro ⟨name, handsOut, admits⟩
      exact ⟨name, handsOut, x, List.mem_append_right _ List.mem_cons_self, admits⟩
  · refine agrees.phase.next rfl (fun _ => id) (fun other member => ?_) rfl
    rcases List.mem_append.mp member with before | new
    · exact before
    · cases List.mem_singleton.mp new

theorem fits_refresh (lawful : jwt.Lawful) {s s' : Server} (fits : Fits jwt config steps p token)
    (run : Runs Any (Api.refresh jwt config ⟨token⟩).run s (.ok response) s') :
    FitsBoth jwt config steps p response := by
  obtain ⟨u, d, name, bears, is, came⟩ := fits
  obtain ⟨access, refresh⟩ := handsOut_refresh lawful bears run
  exact ⟨⟨u, d, name, access, is, came⟩, ⟨u, d, name, refresh, is, came⟩⟩

theorem Agrees.refreshed (lawful : jwt.Lawful) {s : Server}
    (agrees : Agrees jwt config jsonDecode steps w) (sent : w.asked[i]? = some token)
    (run : Runs Any (Api.refresh jwt config ⟨token⟩).run w.server (.ok response) s) :
    Agrees jwt config jsonDecode (steps ++ later) { w with
      server := s
      asked := w.asked.eraseIdx i
      answers := w.answers ++ [.renewed response] } := by
  have steady := agrees.phase.steady_of_asked (List.mem_of_getElem? sent)
  constructor
  · intro other member
    rcases List.mem_append.mp member with before | new
    · exact (agrees.entered other before).next
    · cases List.mem_singleton.mp new
  · refine .steady (Steady.of_same rfl steady.kept ?_ (fun other member => ?_) steady.savings)
    · exact fun token member => steady.asked token (List.mem_of_mem_eraseIdx member)
    · rcases List.mem_append.mp member with before | new
      · exact steady.renewed other before
      · obtain rfl := SessionAnswer.renewed.inj (List.mem_singleton.mp new)
        rcases steady.asked token (List.mem_of_getElem? sent) with rfl | fits
        · exact absurd run (refresh_empty lawful)
        · exact fits_refresh lawful fits run

theorem Agrees.ask (agrees : Agrees jwt config jsonDecode steps w)
    (renews : ∀ saving ∈ w.savings, saving.Renews)
    (kept : w.preferences.refreshToken = some token) :
    Agrees jwt config jsonDecode (steps ++ later) { w with asked := w.asked ++ [token] } := by
  have steady := agrees.phase.steady_of_renews renews
  refine ⟨fun response member => (agrees.entered response member).next, .steady ?_⟩
  refine Steady.of_same rfl steady.kept (fun other member => ?_) steady.renewed steady.savings
  rcases List.mem_append.mp member with asked | new
  · exact steady.asked other asked
  · refine steady.kept other (List.mem_append_right _ ?_)
    rw [List.mem_singleton.mp new, kept]
    exact List.mem_cons_self

theorem Agrees.take (agrees : Agrees jwt config jsonDecode steps w) {answer : SessionAnswer}
    (came : w.answers[i]? = some answer) (calm : ∀ response, answer = .entered response → Calm w) :
    Agrees jwt config jsonDecode (steps ++ later) { w with
      answers := w.answers.eraseIdx i
      savings := w.savings ++ [⟨some answer, answer.writes jsonDecode⟩] } := by
  refine ⟨fun response member =>
    (agrees.entered response (List.mem_of_mem_eraseIdx member)).next, ?_⟩
  cases answer with
  | entered response =>
      obtain ⟨asked, answers, savings⟩ := calm response rfl
      refine @Phase.entering _ _ _ _ _ response [] _ w.preferences
        ⟨asked, fun other member => ?_, ?_⟩
        (agrees.entered response (List.mem_of_getElem? came)).next rfl rfl
      · exact answers other (List.mem_of_mem_eraseIdx member)
      · show w.savings ++ _ = _
        rw [savings]
        rfl
  | renewed response =>
      have steady := agrees.phase.steady_of_renewed (List.mem_of_getElem? came)
      refine .steady (Steady.of_same rfl steady.kept steady.asked ?_ fun saving member => ?_)
      · exact fun other member => steady.renewed other (List.mem_of_mem_eraseIdx member)
      · rcases List.mem_append.mp member with before | new
        · exact steady.savings saving before
        · obtain rfl := List.mem_singleton.mp new
          exact ⟨response, rfl, steady.renewed response (List.mem_of_getElem? came), fun _ => id⟩

theorem Agrees.logout (agrees : Agrees jwt config jsonDecode steps w) (calm : Calm w) :
    Agrees jwt config jsonDecode (steps ++ later) { w with
      savings := w.savings ++ [⟨none, Preferences.logout⟩] } := by
  refine ⟨fun response member => (agrees.entered response member).next, ?_⟩
  refine .leaving ⟨calm.1, calm.2.1, ?_⟩ ?_ .starts
  · show w.savings ++ _ = _
    rw [calm.2.2]
    rfl
  · exact (agrees.phase.steady_of_calm calm).kept.next rfl fun _ => id

theorem agrees_step (lawful : jwt.Lawful) (compact : jwt.Compact) (reads : jsonDecode.ReadsClaims)
    (step : Step jwt argon2 b64 config jsonDecode w e w') (separate : Separate w e)
    (agrees : Agrees jwt config jsonDecode steps w) :
    Agrees jwt config jsonDecode (steps ++ [(w, e, w')]) w' := by
  cases step with
  | @register headers request response s run =>
      exact agrees.admitted s (Or.inr ⟨_, handsOut_register run,
        Or.inl ⟨headers, request, response, rfl, rfl, rfl, rfl⟩⟩)
  | @login headers request response s run =>
      obtain ⟨user, found, own, handsOut⟩ := handsOut_login run
      refine agrees.admitted s (handsOut.imp_right fun both => ?_)
      exact ⟨_, both, Or.inr ⟨headers, request, user, rfl, found, own.symm, rfl⟩⟩
  | refresh sent run => exact agrees.refreshed lawful sent run
  | ask kept => exact agrees.ask (separate.2 rfl) kept
  | @take i answer came =>
      refine agrees.take came fun response is => separate.1 (Or.inr ⟨i, response, rfl, ?_⟩)
      rw [came, is]
  | refuse i =>
      exact agrees.next rfl (fun _ member => List.mem_of_mem_eraseIdx member) (fun _ => id) rfl
  | lose i =>
      exact agrees.next rfl (fun _ => id) (fun _ member => List.mem_of_mem_eraseIdx member) rfl
  | logout => exact agrees.logout (separate.1 (Or.inl rfl))
  | write next =>
      exact ⟨fun response member => (agrees.entered response member).next,
        agrees.phase.write compact reads next⟩
  | saved done =>
      exact ⟨fun response member => (agrees.entered response member).next,
        agrees.phase.saved compact reads done⟩
  | serve s => exact agrees.next rfl (fun _ => id) (fun _ => id) rfl

end

/-- While no login or registration is being saved: whatever token the app keeps, the server takes
it, until it expires, for the user, the device and the name that the app keeps beside it, and it is
the name under which this user has registered or that the row had at a login. -/
theorem preferences_agree {jwt : Jwt} (lawful : jwt.Lawful)
    (compact : jwt.Compact) {argon2 : Argon2}
    {b64 : Base64Engine} {config : AppConfig} {jsonDecode : JsonDecoder}
    (reads : jsonDecode.ReadsClaims)
    {steps : List (SessionWorld × SessionEvent × SessionWorld)} {s : Server} {w : SessionWorld}
    (run : Trail (Step jwt argon2 b64 config jsonDecode) ⟨s, .blank, [], [], []⟩ steps w)
    (separate : ∀ x ∈ steps, Separate x.1 x.2.1)
    (saved : ∀ saving ∈ w.savings, ∀ response, saving.answer ≠ some (.entered response)) :
    ∀ token ∈ w.preferences.tokens, token = "" ∨ ∃ claims u,
      (∀ now, jwt.decode now token config.jwtSecret =
        if now ≤ claims.exp + LEEWAY then .ok claims else .error .expiredSignature) ∧
      w.preferences.identity = (some claims.sub, some claims.deviceId, some claims.username) ∧
      claims.sub = u.display ∧ ∃ x ∈ steps, Admits u claims.username x := by
  have agrees : Agrees jwt config jsonDecode steps w := by
    clear saved
    induction run with
    | start =>
        refine ⟨?_, .steady ⟨?_, ?_, ?_, ?_⟩⟩ <;> intro _ member <;> cases member
    | next _ taken ih =>
        have earlier := ih fun x member => separate x (List.mem_append_left _ member)
        have last := separate _ (List.mem_append_right _ List.mem_cons_self)
        exact agrees_step lawful compact reads taken last earlier
  have kept : Kept jwt config steps w.preferences := by
    cases agrees.phase with
    | steady steady => exact steady.kept
    | @entering response _ rest _ alone =>
        refine (saved ⟨some (.entered response), rest⟩ ?_ response rfl).elim
        rw [alone.savings]
        exact List.mem_cons_self
    | leaving _ kept => exact kept
  intro token member
  refine (kept token member).imp_right ?_
  rintro ⟨u, d, name, ⟨claims, encoded, sub, device, named⟩, is, came⟩
  refine ⟨claims, u, lawful.decode_encode encoded, ?_, sub, ?_⟩
  · rw [is, sub, device, named]
  · rw [named]
    exact came

theorem runs_refresh_sample {config : AppConfig} {s : Server} {token : String} {u d : Uuid}
    (names : Names compactSample config s.redis.now token u d) :
    ∃ response, Runs Any (Api.refresh compactSample config ⟨token⟩).run s (.ok response) s := by
  obtain ⟨claims, decoded, sub, own⟩ := names
  simp only [Api.refresh, createTokens, runs_run_bind_ok, runs_authenticate, runs_timestamp,
    runs_ofResult, runs_run_pure, Except.ok.injEq]
  exact ⟨_, ⟨u, d, claims.username⟩, s, ⟨rfl, claims, decoded, sub, own, rfl⟩, (_, _), s,
    ⟨_, s, ⟨rfl, rfl⟩, _, s, ⟨rfl, rfl⟩, _, s, ⟨rfl, rfl⟩, _, s, ⟨rfl, rfl⟩, rfl, rfl⟩, rfl, rfl⟩

section

variable {jwt : Jwt} {argon2 : Argon2} {b64 : Base64Engine} {config : AppConfig}
variable {jsonDecode : JsonDecoder} {w w₀ w' : SessionWorld} {e : SessionEvent}

/-- A run comes there in which everybody is alone. -/
def Reaches (jwt : Jwt) (argon2 : Argon2) (b64 : Base64Engine) (config : AppConfig)
    (jsonDecode : JsonDecoder) (w w' : SessionWorld) : Prop :=
  ∃ steps, Trail (Step jwt argon2 b64 config jsonDecode) w steps w' ∧
    ∀ x ∈ steps, Separate x.1 x.2.1

theorem Reaches.next (reaches : Reaches jwt argon2 b64 config jsonDecode w₀ w)
    (step : Step jwt argon2 b64 config jsonDecode w e w') (separate : Separate w e) :
    Reaches jwt argon2 b64 config jsonDecode w₀ w' := by
  obtain ⟨steps, run, all⟩ := reaches
  refine ⟨_, run.next step, fun x member => ?_⟩
  rcases List.mem_append.mp member with before | last
  · exact all x before
  · rw [List.mem_singleton.mp last]
    exact separate

theorem separate_of_ne (other : e ≠ .logout) (ask : e ≠ .ask)
    (take : ∀ i response, e = .take i → w.answers[i]? ≠ some (.entered response)) :
    Separate w e := by
  refine ⟨fun enters => ?_, fun is => absurd is ask⟩
  rcases enters with is | ⟨i, response, is, came⟩
  · exact absurd is other
  · exact absurd came (take i response is)

theorem Reaches.writes {answer : Option SessionAnswer} {done rest : List PreferenceWrite}
    (reaches : Reaches jwt argon2 b64 config jsonDecode w₀ w)
    (only : w.savings = [⟨answer, done ++ rest⟩]) :
    Reaches jwt argon2 b64 config jsonDecode w₀ { w with
      preferences := done.foldl Preferences.write w.preferences
      savings := [⟨answer, rest⟩] } := by
  induction done generalizing w with
  | nil =>
      have same : { w with savings := [⟨answer, rest⟩] } = w := by
        rw [← show w.savings = [⟨answer, rest⟩] from only]
      exact same ▸ reaches
  | cons change done ih =>
      have next : w.savings[0]? = some ⟨answer, change :: (done ++ rest)⟩ := by
        rw [only]
        rfl
      have wrote := reaches.next (.write next)
        (separate_of_ne (by nofun) (by nofun) fun _ _ is => by cases is)
      refine ih wrote ?_
      show w.savings.set 0 _ = _
      rw [only]
      rfl

end

/-- What is kept of an answer to somebody of the name. -/
def ofAnswer (response : LoginResponse) (name : String) : Preferences :=
  ⟨⟨some response.accessToken, some response.refreshToken, some name⟩,
    some response.userId.display, some response.deviceId.display⟩

theorem reaches_registered {jwt : Jwt} (compact : jwt.Compact)
    {argon2 : Argon2} {b64 : Base64Engine}
    {config : AppConfig} {jsonDecode : JsonDecoder} (reads : jsonDecode.ReadsClaims) {s s' : Server}
    {headers : HeaderMap} {request : RegisterRequest} {response : LoginResponse}
    (ran : Runs Any (Api.register jwt argon2 b64 config headers request).run s (.ok response) s') :
    Reaches jwt argon2 b64 config jsonDecode ⟨s, .blank, [], [], []⟩
      ⟨s', ofAnswer response (request.username.getD ""), [], [], []⟩ := by
  have writes : (SessionAnswer.entered response).writes jsonDecode =
      [.accessToken (some response.accessToken), .refreshToken (some response.refreshToken),
        .username (some (request.username.getD "")), .userId (some response.userId.display),
        .deviceId (some response.deviceId.display)] ++ [] := by
    rw [SessionAnswer.writes, saveTokens_eq compact reads (handsOut_register ran).1]
    rfl
  have came : Reaches jwt argon2 b64 config jsonDecode ⟨s, .blank, [], [], []⟩
      ⟨s', .blank, [], [.entered response], []⟩ :=
    Reaches.next ⟨[], .start, List.forall_mem_nil _⟩ (.register ran)
      (separate_of_ne (by nofun) (by nofun) fun _ _ is => by cases is)
  have taken : Reaches jwt argon2 b64 config jsonDecode ⟨s, .blank, [], [], []⟩
      ⟨s', .blank, [], [],
        [⟨some (.entered response), (SessionAnswer.entered response).writes jsonDecode⟩]⟩ := by
    refine came.next (.take (i := 0) rfl) ⟨fun _ => ⟨rfl, fun _ member => ?_, rfl⟩, by nofun⟩
    cases List.mem_singleton.mp member
  rw [writes] at taken
  have wrote := taken.writes rfl
  exact wrote.next (.saved (i := 0) rfl)
    (separate_of_ne (by nofun) (by nofun) fun _ _ is => by cases is)

theorem reaches_renewed {jwt : Jwt} (compact : jwt.Compact) {argon2 : Argon2} {b64 : Base64Engine}
    {config : AppConfig} {jsonDecode : JsonDecoder} (reads : jsonDecode.ReadsClaims)
    {w₀ : SessionWorld} {s s' : Server} {p : Preferences} {token name : String} {u d : Uuid}
    {response : LoginResponse}
    (reaches : Reaches jwt argon2 b64 config jsonDecode w₀ ⟨s, p, [], [], []⟩)
    (kept : p.refreshToken = some token) (bears : Bears jwt config u d name response.accessToken)
    (ran : Runs Any (Api.refresh jwt config ⟨token⟩).run s (.ok response) s') :
    Reaches jwt argon2 b64 config jsonDecode w₀
      ⟨s', p.write (.accessToken (some response.accessToken)), [], [],
        [⟨some (.renewed response),
        [.refreshToken (some response.refreshToken), .username (some name)]⟩]⟩ := by
  have asked : Reaches jwt argon2 b64 config jsonDecode w₀ ⟨s, p, [token], [], []⟩ := by
    refine reaches.next (.ask kept) ⟨fun enters => ?_, fun _ => List.forall_mem_nil _⟩
    rcases enters with is | ⟨_, _, is, _⟩ <;> cases is
  have answered :
      Reaches jwt argon2 b64 config jsonDecode w₀ ⟨s', p, [], [.renewed response], []⟩ :=
    asked.next (.refresh (i := 0) rfl ran)
      (separate_of_ne (by nofun) (by nofun) fun _ _ is => by cases is)
  have taken : Reaches jwt argon2 b64 config jsonDecode w₀ ⟨s', p, [], [],
      [⟨some (.renewed response), (SessionAnswer.renewed response).writes jsonDecode⟩]⟩ := by
    refine answered.next (.take (i := 0) rfl) (separate_of_ne (by nofun) (by nofun) ?_)
    intro i other is came
    obtain rfl := SessionEvent.take.inj is
    cases came
  rw [SessionAnswer.writes, saveTokens_eq compact reads bears] at taken
  exact taken.next (.write (i := 0) rfl)
    (separate_of_ne (by nofun) (by nofun) fun _ _ is => by cases is)

/-- Alice registers, and what comes of a refresh is being saved: the new access token stands beside
the old refresh token. -/
theorem preferences_agree_refreshed : ∃ (steps : List (SessionWorld × SessionEvent × SessionWorld))
    (w : SessionWorld), Trail (Step compactSample .sample .sample ⟨none, "secret"⟩ .sample)
      ⟨.start 0 {}, .blank, [], [], []⟩ steps w ∧ w.savings ≠ [] ∧ w.preferences.tokens.length = 2 ∧
      ∀ token ∈ w.preferences.tokens,
        token = "" ∨ ∃ claims u,
          (∀ now, compactSample.decode now token "secret" =
            if now ≤ claims.exp + LEEWAY then .ok claims else .error .expiredSignature) ∧
          w.preferences.identity = (some claims.sub, some claims.deviceId, some claims.username) ∧
          claims.sub = u.display ∧ ∃ x ∈ steps, Admits u claims.username x := by
  obtain ⟨response, s, ran⟩ : ∃ response s,
      Runs Any (Api.register compactSample .sample .sample ⟨none, "secret"⟩ (fun _ => none)
        (registration "alice" "+4711111111" "password1")).run (.start 0 {}) (.ok response) s :=
    ⟨_, _, runs_of_exec (may_any (drawing 1)) rfl⟩
  obtain ⟨u, d, -, minted⟩ := runs_register ran
  obtain ⟨exp, current, made⟩ :=
    minted response.refreshToken (List.mem_cons_of_mem _ List.mem_cons_self)
  obtain ⟨renewed, again⟩ := runs_refresh_sample ((names_iff compactSample_lawful made).mpr
    ⟨Nat.le_trans current (Nat.le_add_right _ _), rfl, rfl⟩)
  have bears := (handsOut_refresh compactSample_lawful (handsOut_register ran).2 again).1
  have registered := reaches_registered compactSample_compact JsonDecoder.sample_readsClaims ran
  obtain ⟨steps, run, separate⟩ := reaches_renewed compactSample_compact
    JsonDecoder.sample_readsClaims registered rfl bears again
  have quiet : ∀ saving ∈ [(⟨some (.renewed renewed),
      [.refreshToken (some renewed.refreshToken), .username (some "alice")]⟩ : Saving)],
      ∀ response, saving.answer ≠ some (.entered response) := by
    intro saving member other is
    rw [List.mem_singleton.mp member] at is
    cases is
  have agree := preferences_agree compactSample_lawful compactSample_compact
    JsonDecoder.sample_readsClaims run separate quiet
  exact ⟨steps, _, run, List.cons_ne_nil _ _, rfl, agree⟩

end SessionWorld

end Hysj.App
