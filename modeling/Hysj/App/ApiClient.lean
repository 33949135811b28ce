import Hysj.App.Dart
import Hysj.App.WsMessage

set_option autoImplicit false

/- The HTTP requests of the app, and how often one call of its client can make them. -/
namespace Hysj.App

open Crypto Shared
open Json (Value)
open Serde

/-- What the server answers a request with. -/
structure Response where
  statusCode : Nat
  body : String
  bodyBytes : Bytes

abbrev Headers := List (String × String)

inductive Request where
  | get (url : String) (headers : Headers)
  | post (url : String) (headers : Headers) (body : String)
  | put (url : String) (headers : Headers) (body : Bytes)

inductive Failure where
  | apiException (statusCode : Nat) (message : String)
  | clientException
  | formatException
  | typeError

/-- A call ends with what it throws. One whose bound on retries is used up has not ended. -/
inductive Stop where
  | thrown (failure : Failure)
  | unfinished

/-- The preferences that the client reads and writes. -/
structure AuthService where
  accessToken : Option String
  refreshToken : Option String
  username : Option String

/-- What all calls of the client share. -/
structure ApiClient where
  isRefreshing : Bool
  authService : AuthService

/-- The client in the middle of a call, and the requests that were made for the call. -/
structure Ongoing where
  client : ApiClient
  requests : List Request

/-- What comes of a request: the answer, if there is one, and what the rest of the app does with
the client meanwhile. -/
structure Moment where
  answer : Option Response
  meanwhile : ApiClient → ApiClient

abbrev Call := ExceptT Stop (StateM Ongoing)

/-- A contact from the API. -/
structure Contact where
  userId : String
  username : String
  displayName : Option String
  nickname : Option String

section

variable (jsonDecode : JsonDecoder)

/-- `jsonDecode(..) as Map<String, dynamic>` -/
def decodeMap (text : String) : Except Failure JsonMap :=
  match jsonDecode text with
  | some (.obj json) => .ok json
  | some _ => .error .typeError
  | none => .error .formatException

/-- `as String` -/
def asString : Value → Except Failure String
  | .str text => .ok text
  | _ => .error .typeError

/-- `as String?` -/
def asStringOrNull : Value → Except Failure (Option String)
  | .str text => .ok (some text)
  | .null => .ok none
  | _ => .error .typeError

def Contact.fromJson : Value → Except Failure Contact
  | .obj json => do
      let userId ← asString (JsonMap.index json "user_id")
      let username ← asString (JsonMap.index json "username")
      let displayName ← asStringOrNull (JsonMap.index json "display_name")
      let nickname ← asStringOrNull (JsonMap.index json "nickname")
      return ⟨userId, username, displayName, nickname⟩
  | _ => .error .typeError

def checkStatus (response : Response) : Except Failure PUnit :=
  if response.statusCode < 200 ∨ 300 ≤ response.statusCode then
    .error (.apiException response.statusCode response.body)
  else .ok ()

/-- The end of `_handleResponse`. -/
def readMap (response : Response) : Except Failure JsonMap := do
  checkStatus response
  if response.body = "" then return [] else decodeMap jsonDecode response.body

/-- The end of `_getBytes`. -/
def readBytes (response : Response) : Except Failure Bytes := do
  checkStatus response
  return response.bodyBytes

/-- The end of `getContactsList`. -/
def readContacts (response : Response) : Except Failure (List Contact) := do
  checkStatus response
  match jsonDecode response.body with
  | some (.arr list) => list.mapM Contact.fromJson
  | some _ => .error .typeError
  | none => .error .formatException

/-- The elements of a list are only cast when they are read. -/
def readDevices (response : Response) : Except Failure (List Value) :=
  if response.statusCode < 200 ∨ 300 ≤ response.statusCode then .ok []
  else
    match jsonDecode response.body with
    | some (.obj json) => .ok [.obj json]
    | some (.arr list) => .ok list
    | some _ => .ok []
    | none => .error .formatException

def readAvailable (response : Response) : Except Failure Bool :=
  if response.statusCode ≠ 200 then .ok false
  else do
    match (← decodeMap jsonDecode response.body).index "available" with
    | .bool available => return available
    | _ => return false

/-- The tokens that a refresh hands out. -/
def readTokens (response : Response) : Except Failure (String × String) := do
  let data ← decodeMap jsonDecode response.body
  let accessToken ← asString (data.index "access_token")
  let refreshToken ← asString (data.index "refresh_token")
  return (accessToken, refreshToken)

/-- Extract a field from a JWT token payload (base64 decoded). -/
def extractFromJwt (token field : String) : Option String :=
  match token.splitOn "." with
  | [_, payload, _] => do
      -- `(length + 3) & ~3` is the next multiple of four
      let padded :=
        payload.toList ++ List.replicate ((payload.length + 3) / 4 * 4 - payload.length) '='
      let decoded ← Utf8.fromUtf8 (← Dart.base64Chars padded)
      match ← jsonDecode decoded with
      | .obj json => readStr (JsonMap.index json field)
      | _ => none
  | _ => none

def AuthService.saveTokens (auth : AuthService) (accessToken refreshToken : String) : AuthService :=
  { accessToken := some accessToken
    refreshToken := some refreshToken
    username := (extractFromJwt jsonDecode accessToken "username").or auth.username }

end

section

variable (jsonDecode : JsonDecoder) (baseUrl : String) (world : Nat → Moment)

/-- The value, or what is thrown. -/
def orThrow {α : Type} : Except Failure α → Call α
  | .ok a => pure a
  | .error failure => throw (.thrown failure)

/-- What awaiting the answer gives. -/
def received : Option Response → Except Stop Response
  | some response => .ok response
  | none => .error (.thrown .clientException)

/-- The next request of the call. -/
def send (request : Request) : Call Response :=
  ExceptT.mk fun s =>
    let moment := world s.requests.length
    (received moment.answer, ⟨moment.meanwhile s.client, s.requests ++ [request]⟩)

def headersOf (withAuth : Bool) (token : Option String) : Headers :=
  let headers := [("Content-Type", "application/json")]
  if withAuth then
    match token with
    | some token => headers ++ [("Authorization", "Bearer " ++ token)]
    | none => headers
  else headers

/-- `_headers` -/
def headers (withAuth : Bool) : Call Headers := do
  return headersOf withAuth (← get).client.authService.accessToken

def setRefreshing (isRefreshing : Bool) : Call PUnit :=
  modify fun s => { s with client := { s.client with isRefreshing := isRefreshing } }

/-- What `_tryRefresh` does between setting the flag and resetting it. -/
def refreshTokens : Call Bool := do
  match (← get).client.authService.refreshToken with
  | none => return false
  | some rt =>
      let response ← send world (.post (baseUrl ++ "/api/auth/refresh")
        [("Content-Type", "application/json")] (jsonEncode [("refresh_token", .str rt)]))
      if response.statusCode = 200 then
        let tokens ← orThrow (readTokens jsonDecode response)
        modify fun s => { s with
          client := { s.client with
            authService := s.client.authService.saveTokens jsonDecode tokens.1 tokens.2 } }
        return true
      else return false

/-- `_tryRefresh`: whether or not it throws, the flag is reset at the end. -/
def tryRefresh : Call Bool := do
  setRefreshing true
  tryCatch
    (do
      let refreshed ← refreshTokens jsonDecode baseUrl world
      setRefreshing false
      return refreshed)
    fun stop => do
      setRefreshing false
      throw stop

/-- An answer is read, or after a refresh the request is made again. -/
def handle {α : Type} (finish : Response → Except Failure α) (retry : Call α)
    (response : Response) : Call α := do
  if response.statusCode = 401 && !(← get).client.isRefreshing then
    if ← tryRefresh jsonDecode baseUrl world then retry
    else orThrow (finish response)
  else orThrow (finish response)

/-- A request with the headers of the moment, and again after each refresh. -/
def retrying {α : Type} (request : Headers → Request) (finish : Response → Except Failure α) :
    Nat → Call α
  | 0 => throw .unfinished
  | fuel + 1 => do
      let headers ← headers true
      let response ← send world (request headers)
      handle jsonDecode baseUrl world finish (retrying request finish fuel) response

/-- `_get` -/
def get' (fuel : Nat) (path : String) : Call JsonMap :=
  retrying jsonDecode baseUrl world (.get (baseUrl ++ path)) (readMap jsonDecode) fuel

/-- `_getBytes` -/
def getBytes (fuel : Nat) (path : String) : Call Bytes :=
  retrying jsonDecode baseUrl world (.get (baseUrl ++ path)) readBytes fuel

/-- `_post` -/
def post (fuel : Nat) (path : String) (body : JsonMap) : Call JsonMap :=
  retrying jsonDecode baseUrl world
    (fun headers => .post (baseUrl ++ path) headers (jsonEncode body))
    (readMap jsonDecode) fuel

/-- `_putBytes` -/
def putBytes (fuel : Nat) (path : String) (bytes : Bytes) : Call JsonMap :=
  retrying jsonDecode baseUrl world
    (fun headers => .put (baseUrl ++ path)
      (headers.map fun header =>
        if header.1 = "Content-Type" then (header.1, "application/octet-stream") else header) bytes)
    (readMap jsonDecode) fuel

/-- A request whose answer is read as it is. -/
def once {α : Type} (path : String) (finish : Response → Except Failure α) : Call α := do
  let headers ← headers true
  let response ← send world (.get (baseUrl ++ path) headers)
  orThrow (finish response)

def sendOtp (fuel : Nat) (phoneNumber : String) : Call JsonMap :=
  post jsonDecode baseUrl world fuel "/api/auth/otp/send" [("phone_number", .str phoneNumber)]

def verifyOtp (fuel : Nat) (phoneNumber code : String) : Call JsonMap :=
  post jsonDecode baseUrl world fuel "/api/auth/otp/verify"
    [("phone_number", .str phoneNumber), ("code", .str code)]

def register (fuel : Nat) (registerRequest : JsonMap) : Call JsonMap :=
  post jsonDecode baseUrl world fuel "/api/auth/register" registerRequest

def login (fuel : Nat) (phoneNumber password : String) : Call JsonMap :=
  post jsonDecode baseUrl world fuel "/api/auth/login"
    [("phone_number", .str phoneNumber), ("password", .str password)]

def refresh (fuel : Nat) (refreshToken : String) : Call JsonMap :=
  post jsonDecode baseUrl world fuel "/api/auth/refresh" [("refresh_token", .str refreshToken)]

def getContacts (fuel : Nat) : Call JsonMap :=
  get' jsonDecode baseUrl world fuel "/api/contacts"

/-- Add a user as contact. -/
def addContact (fuel : Nat) (userId : String) : Call JsonMap :=
  post jsonDecode baseUrl world fuel ("/api/contacts/" ++ userId) []

/-- Get contacts as a typed list. -/
def getContactsList (fuel : Nat) : Call (List Contact) :=
  retrying jsonDecode baseUrl world (.get (baseUrl ++ "/api/contacts"))
    (readContacts jsonDecode) fuel

/-- Get a user's devices (to find recipient_device_id for messaging). -/
def getUserDevices (userId : String) : Call (List Value) :=
  once baseUrl world ("/api/keys/" ++ userId) (readDevices jsonDecode)

/-- Check username availability. -/
def checkUsername (username : String) : Call Bool :=
  once baseUrl world ("/api/auth/username-available/" ++ username) (readAvailable jsonDecode)

def getPreKeyBundle (fuel : Nat) (userId : String) : Call JsonMap :=
  get' jsonDecode baseUrl world fuel ("/api/keys/" ++ userId)

def uploadAudioInit (fuel : Nat) (recipientDeviceId : String) (duration size : Int64) :
    Call JsonMap :=
  post jsonDecode baseUrl world fuel "/api/audio/upload-init"
    [("recipient_device_id", .str recipientDeviceId), ("duration", .num duration.toInt),
      ("size", .num size.toInt)]

def uploadAudioBlob (fuel : Nat) (audioId : String) (bytes : Bytes) : Call JsonMap :=
  putBytes jsonDecode baseUrl world fuel ("/api/audio/" ++ audioId ++ "/upload") bytes

def downloadAudio (fuel : Nat) (audioId : String) : Call Bytes :=
  getBytes jsonDecode baseUrl world fuel ("/api/audio/" ++ audioId)

def registerPushToken (fuel : Nat) (token platform : String) : Call JsonMap :=
  post jsonDecode baseUrl world fuel "/api/push/register"
    [("token", .str token), ("platform", .str platform)]

end

/-- A call of a method of `ApiClient`. -/
inductive Method where
  | sendOtp (phoneNumber : String)
  | verifyOtp (phoneNumber code : String)
  | register (registerRequest : JsonMap)
  | login (phoneNumber password : String)
  | refresh (refreshToken : String)
  | getContacts
  | addContact (userId : String)
  | getContactsList
  | getUserDevices (userId : String)
  | checkUsername (username : String)
  | getPreKeyBundle (userId : String)
  | uploadAudioInit (recipientDeviceId : String) (duration size : Int64)
  | uploadAudioBlob (audioId : String) (bytes : Bytes)
  | downloadAudio (audioId : String)
  | registerPushToken (token platform : String)

/-- The methods that look at no status of 401. -/
def Method.Single : Method → Prop
  | .getUserDevices _ => True
  | .checkUsername _ => True
  | _ => False

section

variable (jsonDecode : JsonDecoder) (baseUrl : String) (world : Nat → Moment)

/-- What the call does, with a bound on its retries. -/
def Method.call (fuel : Nat) : Method → Call PUnit
  | .sendOtp phoneNumber => discard (App.sendOtp jsonDecode baseUrl world fuel phoneNumber)
  | .verifyOtp phoneNumber code =>
      discard (App.verifyOtp jsonDecode baseUrl world fuel phoneNumber code)
  | .register registerRequest =>
      discard (App.register jsonDecode baseUrl world fuel registerRequest)
  | .login phoneNumber password =>
      discard (App.login jsonDecode baseUrl world fuel phoneNumber password)
  | .refresh refreshToken => discard (App.refresh jsonDecode baseUrl world fuel refreshToken)
  | .getContacts => discard (App.getContacts jsonDecode baseUrl world fuel)
  | .addContact userId => discard (App.addContact jsonDecode baseUrl world fuel userId)
  | .getContactsList => discard (App.getContactsList jsonDecode baseUrl world fuel)
  | .getUserDevices userId => discard (App.getUserDevices jsonDecode baseUrl world userId)
  | .checkUsername username => discard (App.checkUsername jsonDecode baseUrl world username)
  | .getPreKeyBundle userId => discard (App.getPreKeyBundle jsonDecode baseUrl world fuel userId)
  | .uploadAudioInit recipientDeviceId duration size =>
      discard (App.uploadAudioInit jsonDecode baseUrl world fuel recipientDeviceId duration size)
  | .uploadAudioBlob audioId bytes =>
      discard (App.uploadAudioBlob jsonDecode baseUrl world fuel audioId bytes)
  | .downloadAudio audioId => discard (App.downloadAudio jsonDecode baseUrl world fuel audioId)
  | .registerPushToken token platform =>
      discard (App.registerPushToken jsonDecode baseUrl world fuel token platform)

end

section

variable {α β : Type}

/-- The outcome of a call, and the client and the requests after it. -/
def final (call : Call α) (s : Ongoing) : Except Stop α × Ongoing := call.run.run s

/-- What follows on an outcome: the rest on a value, nothing on what was thrown. -/
def andThen (next : α → Call β) : Except Stop α × Ongoing → Except Stop β × Ongoing
  | (.ok a, s) => final (next a) s
  | (.error stop, s) => (.error stop, s)

/-- What catching makes of an outcome. -/
def orElse (handler : Stop → Call α) : Except Stop α × Ongoing → Except Stop α × Ongoing
  | (.ok a, s) => (.ok a, s)
  | (.error stop, s) => final (handler stop) s

theorem final_bind (call : Call α) (next : α → Call β) (s : Ongoing) :
    final (call >>= next) s = andThen next (final call s) := by
  unfold final
  rw [ExceptT.run_bind, StateT.run_bind]
  cases call.run.run s with
  | mk outcome s' => cases outcome <;> rfl

theorem final_tryCatch (call : Call α) (handler : Stop → Call α) (s : Ongoing) :
    final (tryCatch call handler) s = orElse handler (final call s) := by
  unfold final
  change (ExceptT.tryCatch call handler).run.run s = _
  rw [ExceptT.tryCatch, ExceptT.run_mk, StateT.run_bind]
  change _ = orElse handler (StateT.run call s)
  cases StateT.run call s with
  | mk outcome s' => cases outcome <;> rfl

theorem final_bind_ok {call : Call α} {next : α → Call β} {a : α} {s s' : Ongoing}
    (first : final call s = (.ok a, s')) : final (call >>= next) s = final (next a) s' := by
  rw [final_bind, first]
  rfl

theorem final_bind_error {call : Call α} {next : α → Call β} {stop : Stop} {s s' : Ongoing}
    (first : final call s = (.error stop, s')) : final (call >>= next) s = (.error stop, s') := by
  rw [final_bind, first]
  rfl

/-- The requests made by the end of a call. -/
def sent (call : Call α) (s : Ongoing) : Nat := (final call s).2.requests.length

theorem final_discard (call : Call α) (s : Ongoing) :
    final (discard call) s = andThen (fun _ => pure ()) (final call s) :=
  final_bind call (fun _ => pure ()) s

theorem sent_discard (call : Call α) (s : Ongoing) : sent (discard call) s = sent call s := by
  unfold sent
  rw [final_discard]
  cases final call s with
  | mk outcome s' => cases outcome <;> rfl

theorem final_get (s : Ongoing) : final (get : Call Ongoing) s = (.ok s, s) := rfl

/-- The call came to its end, with a value or with what it throws. -/
def Ended (outcome : Except Stop α) : Prop := outcome ≠ .error .unfinished

theorem ended_discard {call : Call α} {s : Ongoing} (ended : Ended (final call s).1) :
    Ended (final (discard call) s).1 := by
  rw [final_discard]
  cases outcome : final call s with
  | mk result s' =>
      rw [outcome] at ended
      cases result with
      | ok a => exact nofun
      | error stop => exact fun same => ended (congrArg Except.error (Except.error.inj same))

theorem final_orThrow (result : Except Failure α) (s : Ongoing) :
    ∃ outcome, final (orThrow result) s = (outcome, s) ∧ Ended outcome := by
  cases result with
  | ok a => exact ⟨.ok a, rfl, nofun⟩
  | error failure => exact ⟨.error (.thrown failure), rfl, nofun⟩

theorem final_headers (withAuth : Bool) (s : Ongoing) :
    final (headers withAuth) s =
    (.ok (headersOf withAuth s.client.authService.accessToken), s) := rfl

end

section

variable {α : Type} {jsonDecode : JsonDecoder} {baseUrl : String} {world : Nat → Moment}
variable {s : Ongoing}

/-- The answer to an attempt that lets the client refresh its tokens. -/
def Refuses (answer : Option Response) : Prop :=
  ∃ response, answer = some response ∧ response.statusCode = 401

/-- The answer to a refresh that lets the client try again. -/
def Renews (jsonDecode : JsonDecoder) (answer : Option Response) : Prop :=
  ∃ response tokens, answer = some response ∧ response.statusCode = 200 ∧
    readTokens jsonDecode response = .ok tokens

theorem final_send (world : Nat → Moment) (s : Ongoing) (request : Request) :
    final (send world request) s =
    (received (world s.requests.length).answer,
      ⟨(world s.requests.length).meanwhile s.client, s.requests ++ [request]⟩) := rfl

/-- What a refresh comes to: it makes no request if no token is stored, and else one, and succeeds
if that is answered with tokens. -/
structure Refreshed (jsonDecode : JsonDecoder) (answer : Option Response) (s : Ongoing)
    (outcome : Except Stop Bool) (s' : Ongoing) : Prop where
  ended : Ended outcome
  cases : (outcome = .ok false ∧ s'.requests.length = s.requests.length ∧
      s.client.authService.refreshToken = none) ∨
    s'.requests.length = s.requests.length + 1 ∧ (outcome = .ok true ↔ Renews jsonDecode answer) ∧
      (outcome = .ok true → s'.client.authService.refreshToken.isSome)

theorem not_renews_none : ¬ Renews jsonDecode none := fun ⟨_, _, other, _⟩ => nomatch other

variable (jsonDecode baseUrl world s) in
theorem refreshed_refreshTokens : ∃ outcome s',
    final (refreshTokens jsonDecode baseUrl world) s = (outcome, s') ∧
      Refreshed jsonDecode (world s.requests.length).answer s outcome s' := by
  unfold refreshTokens
  rw [final_bind_ok (final_get s)]
  dsimp only
  cases stored : s.client.authService.refreshToken with
  | none => exact ⟨_, s, rfl, nofun, Or.inl ⟨rfl, rfl, stored⟩⟩
  | some rt =>
      have asked := final_send world s (.post (baseUrl ++ "/api/auth/refresh")
        [("Content-Type", "application/json")] (jsonEncode [("refresh_token", .str rt)]))
      cases answer : (world s.requests.length).answer with
      | none =>
          rw [answer] at asked
          rw [final_bind_error asked]
          exact ⟨_, _, rfl, nofun,
            Or.inr ⟨List.length_append, iff_of_false nofun not_renews_none, nofun⟩⟩
      | some response =>
          rw [answer] at asked
          rw [final_bind_ok asked]
          by_cases renewed : response.statusCode = 200
          · rw [if_pos renewed]
            cases read : readTokens jsonDecode response with
            | error failure =>
                refine ⟨_, _, rfl, nofun, Or.inr ⟨List.length_append, iff_of_false nofun ?_, nofun⟩⟩
                rintro ⟨_, tokens, same, -, other⟩
                rw [← Option.some.inj same, read] at other
                cases other
            | ok tokens =>
                exact ⟨_, _, rfl, nofun, Or.inr ⟨List.length_append,
                  iff_of_true rfl ⟨response, tokens, rfl, renewed, read⟩, fun _ => rfl⟩⟩
          · rw [if_neg renewed]
            refine ⟨_, _, rfl, nofun, Or.inr ⟨List.length_append, iff_of_false nofun ?_, nofun⟩⟩
            rintro ⟨_, tokens, same, status, -⟩
            rw [← Option.some.inj same] at status
            exact renewed status

theorem final_tryRefresh : final (tryRefresh jsonDecode baseUrl world) s =
    let after := final (refreshTokens jsonDecode baseUrl world)
      { s with client := { s.client with isRefreshing := true } }
    (after.1, { after.2 with client := { after.2.client with isRefreshing := false } }) := by
  have flagged (value : Bool) (m : Ongoing) : final (setRefreshing value) m =
      (.ok (), { m with client := { m.client with isRefreshing := value } }) := rfl
  unfold tryRefresh
  rw [final_bind_ok (flagged true s), final_tryCatch, final_bind]
  cases final (refreshTokens jsonDecode baseUrl world)
      { s with client := { s.client with isRefreshing := true } } with
  | mk outcome s' =>
      cases outcome with
      | ok refreshed => rfl
      | error stop => rfl

variable (jsonDecode baseUrl world s) in
theorem refreshed_tryRefresh : ∃ outcome s',
    final (tryRefresh jsonDecode baseUrl world) s = (outcome, s') ∧
      s'.client.isRefreshing = false ∧
      Refreshed jsonDecode (world s.requests.length).answer s outcome s' := by
  rw [final_tryRefresh]
  obtain ⟨outcome, s', ran, ended, cases⟩ := refreshed_refreshTokens jsonDecode baseUrl world
    { s with client := { s.client with isRefreshing := true } }
  rw [ran]
  exact ⟨outcome, _, rfl, rfl, ended, cases⟩

variable {request : Headers → Request} {finish : Response → Except Failure α} {fuel : Nat}

variable (jsonDecode baseUrl world s request finish fuel) in
/-- One round of a call: it ends with the attempt or with the refresh, or it was refused, the
refresh has renewed the tokens, and all begins again. -/
theorem retrying_cases :
    (∃ outcome s', final (retrying jsonDecode baseUrl world request finish (fuel + 1)) s =
        (outcome, s') ∧ Ended outcome ∧ (s'.requests.length = s.requests.length + 1 ∨
          s'.requests.length = s.requests.length + 2 ∧
            Refuses (world s.requests.length).answer)) ∨
      Refuses (world s.requests.length).answer ∧
        Renews jsonDecode (world (s.requests.length + 1)).answer ∧
          ∃ s', s'.requests.length = s.requests.length + 2 ∧
            final (retrying jsonDecode baseUrl world request finish (fuel + 1)) s =
              final (retrying jsonDecode baseUrl world request finish fuel) s' := by
  rw [retrying, final_bind_ok (final_headers true s)]
  have asked := final_send world s
    (request (headersOf true s.client.authService.accessToken))
  cases answer : (world s.requests.length).answer with
  | none =>
      rw [answer] at asked
      rw [final_bind_error asked]
      exact Or.inl ⟨_, _, rfl, nofun, Or.inl List.length_append⟩
  | some response =>
      rw [answer] at asked
      rw [final_bind_ok asked, handle, final_bind_ok (final_get _)]
      split
      · rename_i refused
        have status : response.statusCode = 401 :=
          of_decide_eq_true (Bool.and_eq_true_iff.mp refused).1
        have refuses : Refuses (some response) := ⟨response, rfl, status⟩
        obtain ⟨outcome, s', tried, -, ended, cases⟩ :=
          refreshed_tryRefresh jsonDecode baseUrl world
          ⟨(world s.requests.length).meanwhile s.client,
            s.requests ++ [request (headersOf true s.client.authService.accessToken)]⟩
        rw [List.length_append, List.length_singleton] at cases
        cases outcome with
        | error stop =>
            rw [final_bind_error tried]
            rcases cases with ⟨other, -⟩ | ⟨length, -⟩
            · cases other
            · refine Or.inl ⟨_, s', rfl, fun same => ended ?_, Or.inr ⟨length, refuses⟩⟩
              rw [Except.error.inj same]
        | ok refreshed =>
            rw [final_bind_ok tried]
            cases refreshed with
            | false =>
                obtain ⟨outcome, read, ended⟩ := final_orThrow (finish response) s'
                refine Or.inl ⟨outcome, s', read, ended, ?_⟩
                rcases cases with ⟨-, length, -⟩ | ⟨length, -⟩
                · exact Or.inl length
                · exact Or.inr ⟨length, refuses⟩
            | true =>
                rcases cases with ⟨other, -⟩ | ⟨length, renewed, -⟩
                · cases other
                · exact Or.inr ⟨refuses, renewed.mp rfl, s', length, rfl⟩
      · obtain ⟨outcome, read, ended⟩ := final_orThrow (finish response) _
        exact Or.inl ⟨outcome, _, read, ended, Or.inl List.length_append⟩

/-- To make more requests than those of so many rounds and an attempt, each of them was refused,
and each of the rounds renewed the tokens. -/
theorem refused_of_sent (fuel : Nat) {s : Ongoing} {i k : Nat} (begun : s.requests.length = 2 * i)
    (within : i ≤ k)
    (more : 2 * k + 1 < sent (retrying jsonDecode baseUrl world request finish fuel) s) :
    (∀ j, i ≤ j → j ≤ k → Refuses (world (2 * j)).answer) ∧
      ∀ j, i ≤ j → j < k → Renews jsonDecode (world (2 * j + 1)).answer := by
  induction fuel generalizing s i with
  | zero =>
      have none : sent (retrying jsonDecode baseUrl world request finish 0) s = 2 * i := begun
      omega
  | succ fuel ih =>
      rcases retrying_cases jsonDecode baseUrl world s request finish fuel with
        ⟨outcome, s', ran, -, first | ⟨second, refuses⟩⟩ | ⟨refuses, renews, s', length, again⟩
      · rw [sent, ran] at more
        dsimp only at more
        omega
      · rw [sent, ran] at more
        dsimp only at more
        rw [begun] at refuses
        have last : k = i := by omega
        subst last
        refine ⟨fun j low high => ?_, fun j low high => ?_⟩
        · rw [Nat.le_antisymm high low]
          exact refuses
        · omega
      · rw [sent, again] at more
        rw [begun] at refuses renews length
        by_cases last : i = k
        · subst last
          refine ⟨fun j low high => ?_, fun j low high => ?_⟩
          · rw [Nat.le_antisymm high low]
            exact refuses
          · omega
        · obtain ⟨later, renewals⟩ := ih (i := i + 1) (by omega) (by omega) more
          refine ⟨fun j low high => ?_, fun j low high => ?_⟩
          · by_cases now : j = i
            · rw [now]
              exact refuses
            · exact later j (by omega) high
          · by_cases now : j = i
            · rw [now]
              exact renews
            · exact renewals j (by omega) high

/-- A call that has not ended when its bound is used up was refused and renewed in each round. -/
theorem refused_of_unfinished (fuel : Nat) {s : Ongoing} {i : Nat}
    (begun : s.requests.length = 2 * i)
    (unfinished : ¬ Ended (final (retrying jsonDecode baseUrl world request finish fuel) s).1) :
    ∀ j, i ≤ j → j < i + fuel →
      Refuses (world (2 * j)).answer ∧ Renews jsonDecode (world (2 * j + 1)).answer := by
  induction fuel generalizing s i with
  | zero =>
      intro j low high
      omega
  | succ fuel ih =>
      rcases retrying_cases jsonDecode baseUrl world s request finish fuel with
        ⟨outcome, s', ran, ended, -⟩ | ⟨refuses, renews, s', length, again⟩
      · rw [ran] at unfinished
        exact (unfinished ended).elim
      · rw [again] at unfinished
        rw [begun] at refuses renews length
        intro j low high
        by_cases now : j = i
        · rw [now]
          exact ⟨refuses, renews⟩
        · exact ih (i := i + 1) (by omega) unfinished j (by omega) (by omega)

theorem length_le_sent (fuel : Nat) (s : Ongoing) :
    s.requests.length ≤ sent (retrying jsonDecode baseUrl world request finish fuel) s := by
  induction fuel generalizing s with
  | zero => exact Nat.le_refl _
  | succ fuel ih =>
      unfold sent
      rcases retrying_cases jsonDecode baseUrl world s request finish fuel with
        ⟨outcome, s', ran, -, length | ⟨length, -⟩⟩ | ⟨-, -, s', length, again⟩
      · rw [ran]
        dsimp only
        omega
      · rw [ran]
        dsimp only
        omega
      · rw [again]
        have more := ih s'
        unfold sent at more
        omega

/-- Nobody else refreshes, and there is a token to refresh with. -/
structure Ready (s : Ongoing) : Prop where
  idle : s.client.isRefreshing = false
  stored : s.client.authService.refreshToken.isSome

variable (jsonDecode baseUrl request finish fuel) in
/-- A call that is ready and alone asks for new tokens when it is refused, and is ready again if it
gets some. -/
theorem retrying_alone (alone : ∀ i, (world i).meanwhile = id) (ready : Ready s)
    (refuses : Refuses (world s.requests.length).answer) :
    s.requests.length + 2 ≤
        sent (retrying jsonDecode baseUrl world request finish (fuel + 1)) s ∧
      (Renews jsonDecode (world (s.requests.length + 1)).answer →
        ∃ s', s'.requests.length = s.requests.length + 2 ∧ Ready s' ∧
          final (retrying jsonDecode baseUrl world request finish (fuel + 1)) s =
            final (retrying jsonDecode baseUrl world request finish fuel) s') := by
  obtain ⟨response, answer, status⟩ := refuses
  have asked := final_send world s
    (request (headersOf true s.client.authService.accessToken))
  rw [answer, alone] at asked
  unfold sent
  rw [retrying, final_bind_ok (final_headers true s), final_bind_ok asked, handle,
    final_bind_ok (final_get _)]
  rw [if_pos (Bool.and_eq_true_iff.mpr ⟨decide_eq_true status, by rw [id, ready.idle]; rfl⟩)]
  obtain ⟨outcome, s', tried, idle, ended, cases⟩ := refreshed_tryRefresh jsonDecode baseUrl world
    ⟨id s.client, s.requests ++ [request (headersOf true s.client.authService.accessToken)]⟩
  rw [List.length_append, List.length_singleton] at cases
  rcases cases with ⟨-, -, none⟩ | ⟨length, renewed, stored⟩
  · have some := ready.stored
    rw [id] at none
    rw [none] at some
    cases some
  cases outcome with
  | error stop =>
      rw [final_bind_error tried]
      exact ⟨Nat.le_of_eq length.symm, fun renews => nomatch renewed.mpr renews⟩
  | ok refreshed =>
      rw [final_bind_ok tried]
      cases refreshed with
      | false =>
          obtain ⟨outcome, read, -⟩ := final_orThrow (finish response) s'
          refine ⟨?_, fun renews => nomatch renewed.mpr renews⟩
          rw [if_neg Bool.false_ne_true, read]
          exact Nat.le_of_eq length.symm
      | true =>
          refine ⟨?_, fun _ => ⟨s', length, ⟨idle, stored rfl⟩, rfl⟩⟩
          rw [← length]
          exact length_le_sent fuel s'

variable (jsonDecode baseUrl request finish) in
theorem sent_of_refused (alone : ∀ i, (world i).meanwhile = id) (rounds : Nat) {s : Ongoing}
    {i : Nat} (begun : s.requests.length = 2 * i) (ready : Ready s)
    (refuses : ∀ j, i ≤ j → j ≤ i + rounds → Refuses (world (2 * j)).answer)
    (renews : ∀ j, i ≤ j → j < i + rounds → Renews jsonDecode (world (2 * j + 1)).answer) :
    2 * (i + rounds) + 2 ≤
      sent (retrying jsonDecode baseUrl world request finish (rounds + 1)) s := by
  induction rounds generalizing s i with
  | zero =>
      have refused := refuses i (Nat.le_refl i) (Nat.le_refl i)
      rw [← begun] at refused
      have least := (retrying_alone jsonDecode baseUrl request finish 0 alone ready refused).1
      rwa [begun] at least
  | succ rounds ih =>
      have refused := refuses i (Nat.le_refl i) (by omega)
      have renewed := renews i (Nat.le_refl i) (by omega)
      rw [← begun] at refused renewed
      obtain ⟨s', length, ready', again⟩ := (retrying_alone jsonDecode baseUrl request finish
        (rounds + 1) alone ready refused).2 renewed
      have least := ih (i := i + 1) (s := s') (by omega) ready'
        (fun j low high => refuses j (by omega) (by omega))
        (fun j low high => renews j (by omega) (by omega))
      unfold sent at least ⊢
      rw [again]
      omega

end

section

variable (jsonDecode : JsonDecoder) (baseUrl : String)

/-- However often the client is to retry, whatever it holds and whatever the rest of the app does
with it meanwhile, no more than so many requests are made for the call. -/
def AtMost (bound : Nat) (answers : Nat → Option Response) (method : Method) : Prop :=
  ∀ (meanwhile : Nat → ApiClient → ApiClient) (client : ApiClient) (fuel : Nat),
    sent (method.call jsonDecode baseUrl (fun i => ⟨answers i, meanwhile i⟩) fuel)
      ⟨client, []⟩ ≤ bound

/-- With so many attempts the call has come to its end. -/
def EndsAfter (attempts : Nat) (answers : Nat → Option Response) (method : Method) : Prop :=
  ∀ (meanwhile : Nat → ApiClient → ApiClient) (client : ApiClient) (fuel : Nat), attempts ≤ fuel →
    Ended (final (method.call jsonDecode baseUrl (fun i => ⟨answers i, meanwhile i⟩) fuel)
      ⟨client, []⟩).1

/-- The server refuses an attempt, hands out new tokens, and refuses the next attempt all the same,
for so many rounds. -/
def RefusedAfter (rounds : Nat) (answers : Nat → Option Response) : Prop :=
  (∀ j ≤ rounds, Refuses (answers (2 * j))) ∧ ∀ j < rounds, Renews jsonDecode (answers (2 * j + 1))

variable {jsonDecode baseUrl} {answers : Nat → Option Response} {method : Method}

variable (jsonDecode baseUrl) in
/-- The other methods are requests that are made again after a refresh. -/
theorem call_eq_retrying (several : ¬ method.Single) :
    ∃ (α : Type) (request : Headers → Request) (finish : Response → Except Failure α),
      ∀ world fuel, method.call jsonDecode baseUrl world fuel =
        discard (retrying jsonDecode baseUrl world request finish fuel) := by
  cases method with
  | getUserDevices userId => exact (several trivial).elim
  | checkUsername username => exact (several trivial).elim
  | _ => exact ⟨_, _, _, fun _ _ => rfl⟩

theorem final_once {α : Type} (baseUrl : String) (world : Nat → Moment) (path : String)
    (finish : Response → Except Failure α) (s : Ongoing) : ∃ outcome s',
      final (once baseUrl world path finish) s = (outcome, s') ∧ Ended outcome ∧
        s'.requests.length = s.requests.length + 1 := by
  unfold once
  rw [final_bind_ok (final_headers true s)]
  have asked := final_send world s
    (.get (baseUrl ++ path) (headersOf true s.client.authService.accessToken))
  cases answer : (world s.requests.length).answer with
  | none =>
      rw [answer] at asked
      rw [final_bind_error asked]
      exact ⟨_, _, rfl, nofun, List.length_append⟩
  | some response =>
      rw [answer] at asked
      rw [final_bind_ok asked]
      obtain ⟨outcome, read, ended⟩ := final_orThrow (finish response) _
      exact ⟨outcome, _, read, ended, List.length_append⟩

variable (jsonDecode baseUrl) in
theorem call_eq_once (single : method.Single) :
    ∃ (α : Type) (path : String) (finish : Response → Except Failure α),
      ∀ world fuel, method.call jsonDecode baseUrl world fuel =
        discard (once baseUrl world path finish) := by
  cases method with
  | getUserDevices userId => exact ⟨_, _, _, fun _ _ => rfl⟩
  | checkUsername username => exact ⟨_, _, _, fun _ _ => rfl⟩
  | _ => exact single.elim

/-- A call makes no more than the requests of so many rounds and an attempt exactly if the server
does not refuse and renew that often, and refuse again. -/
theorem atMost_iff (several : ¬ method.Single) (rounds : Nat) :
    AtMost jsonDecode baseUrl (2 * rounds + 1) answers method ↔
      ¬ RefusedAfter jsonDecode rounds answers := by
  obtain ⟨α, request, finish, same⟩ := call_eq_retrying jsonDecode baseUrl several
  constructor
  · intro bounded ⟨refuses, renews⟩
    let client : ApiClient := ⟨false, none, some "", none⟩
    have least := sent_of_refused jsonDecode baseUrl request finish
      (fun _ => rfl : ∀ i, (⟨answers i, id⟩ : Moment).meanwhile = id) rounds (s := ⟨client, []⟩)
        (i := 0) rfl ⟨rfl, rfl⟩
      (fun j _ high => refuses j (by omega)) (fun j _ high => renews j (by omega))
    have most := bounded (fun _ => id) client (rounds + 1)
    rw [same, sent_discard] at most
    omega
  · intro fails meanwhile client fuel
    rw [same, sent_discard]
    by_contra more
    obtain ⟨refuses, renews⟩ := refused_of_sent fuel (i := 0) (k := rounds) rfl (Nat.zero_le _)
      (Nat.lt_of_not_le more)
    exact fails ⟨fun j high => refuses j (Nat.zero_le _) high,
      fun j high => renews j (Nat.zero_le _) high⟩

theorem endsAfter_of_not_refused (several : ¬ method.Single) {rounds : Nat}
    (fails : ¬ RefusedAfter jsonDecode rounds answers) :
    EndsAfter jsonDecode baseUrl (rounds + 1) answers method := by
  obtain ⟨α, request, finish, same⟩ := call_eq_retrying jsonDecode baseUrl several
  intro meanwhile client fuel enough
  rw [same]
  apply ended_discard
  by_contra unfinished
  have each := refused_of_unfinished fuel (i := 0) rfl unfinished
  exact fails ⟨fun j high => (each j (Nat.zero_le _) (by omega)).1,
    fun j high => (each j (Nat.zero_le _) (by omega)).2⟩

end

/-- A call makes one attempt, a refresh and a second attempt at most, and ends with them, exactly
if it is of a method that makes one request, or the server does not refuse the first attempt,
hand out new tokens, and refuse the second all the same. -/
theorem requests_bounded_iff (jsonDecode : JsonDecoder) (baseUrl : String)
    (answers : Nat → Option Response) (method : Method) :
    AtMost jsonDecode baseUrl 3 answers method ∧ EndsAfter jsonDecode baseUrl 2 answers method ↔
      method.Single ∨ ¬ (Refuses (answers 0) ∧ Renews jsonDecode (answers 1) ∧
        Refuses (answers 2)) := by
  have once_more : RefusedAfter jsonDecode 1 answers ↔
      Refuses (answers 0) ∧ Renews jsonDecode (answers 1) ∧ Refuses (answers 2) := by
    constructor
    · rintro ⟨refuses, renews⟩
      exact ⟨refuses 0 (by omega), renews 0 (by omega), refuses 1 (by omega)⟩
    · rintro ⟨first, renews, second⟩
      refine ⟨fun j high => ?_, fun j high => ?_⟩
      · obtain rfl | rfl : j = 0 ∨ j = 1 := by omega
        · exact first
        · exact second
      · obtain rfl : j = 0 := by omega
        exact renews
  by_cases single : method.Single
  · refine iff_of_true ⟨?_, ?_⟩ (Or.inl single)
    · intro meanwhile client fuel
      obtain ⟨α, path, finish, same⟩ := call_eq_once jsonDecode baseUrl single
      rw [same, sent_discard, sent]
      obtain ⟨outcome, s', ran, -, length⟩ := final_once baseUrl
        (fun i => ⟨answers i, meanwhile i⟩) path finish ⟨client, []⟩
      rw [ran]
      exact Nat.le_trans (Nat.le_of_eq length) (Nat.succ_le_succ (Nat.zero_le 2))
    · intro meanwhile client fuel enough
      obtain ⟨α, path, finish, same⟩ := call_eq_once jsonDecode baseUrl single
      rw [same]
      apply ended_discard
      obtain ⟨outcome, s', ran, ended, -⟩ := final_once baseUrl
        (fun i => ⟨answers i, meanwhile i⟩) path finish ⟨client, []⟩
      rw [ran]
      exact ended
  · rw [← once_more]
    constructor
    · exact fun bounded => Or.inr ((atMost_iff single 1).mp bounded.1)
    · intro either
      have fails := either.resolve_left single
      exact ⟨(atMost_iff single 1).mpr fails, endsAfter_of_not_refused single fails⟩

theorem JsonDecoder.sample_jsonEncode (json : JsonMap) :
    sample (jsonEncode json) = some (.obj json) := by
  have bytes : Json.utf8 (jsonEncode json).toList = Json.toVec (.obj json) := by
    rw [jsonEncode, String.toList_ofList, Json.toVec]
  rw [sample, bytes, Json.ofSlice_toVec]

/-- New tokens. -/
def renewal : Response :=
  ⟨200, jsonEncode [("access_token", .str "a"), ("refresh_token", .str "r")], []⟩

theorem readTokens_renewal : readTokens .sample renewal = .ok ("a", "r") := by
  unfold readTokens decodeMap
  rw [renewal, JsonDecoder.sample_jsonEncode]
  rfl

/-- A server that takes the refresh token and refuses everything else. -/
def refusing (i : Nat) : Option Response :=
  if i % 2 = 0 then some ⟨401, "", []⟩ else some renewal

theorem refusedAfter_refusing (rounds : Nat) : RefusedAfter .sample rounds refusing := by
  refine ⟨fun j _ => ⟨⟨401, "", []⟩, ?_, rfl⟩, fun j _ => ⟨renewal, ("a", "r"), ?_, rfl, ?_⟩⟩
  · unfold refusing
    rw [if_pos (by omega)]
  · unfold refusing
    rw [if_neg (by omega)]
  · exact readTokens_renewal

/-- With it, no number of requests is enough for a login whose password is wrong. -/
theorem login_never_ends : ∃ answers, ∀ bound,
    ¬ AtMost .sample "" bound answers (.login "+4711111111" "password2") := by
  refine ⟨refusing, fun bound most => ?_⟩
  have bounded : AtMost .sample "" (2 * bound + 1) refusing (.login "+4711111111" "password2") :=
    fun meanwhile client fuel => Nat.le_trans (most meanwhile client fuel) (by omega)
  exact (atMost_iff id bound).mp bounded (refusedAfter_refusing bound)

end Hysj.App
