import Mathlib.Logic.Function.Basic
import Hysj.Base.Utf8
import Hysj.Db.Tables
import Hysj.Messaging.Wipe

set_option autoImplicit false

/- The state that the handlers of the server share, and the functions over it that are no
handlers. -/
namespace Hysj.Shared

/-- Redis TTL for queued messages (72 hours) -/
def MESSAGE_TTL_SECONDS : UInt64 := 72 * 60 * 60

def WIPE_MAX : Nat := 3

def WIPE_WINDOW_SECONDS : Nat := 60 * 60

def DbError.display : DbError → String
  | .queryFailed message => "query failed: " ++ message
  | .notFound => "record not found"
  | .conflict message => "conflict: " ++ message

/-- `serde_json::to_string` -/
def WsMessage.text (message : WsMessage) : String := String.ofList (Json.render message.toJson)

/-- `serde_json::from_str::<WsMessage>` -/
def WsMessage.fromStr (serde : SerdeJson) (text : String) : Except String WsMessage := do
  let value ← serde.fromSlice (Json.utf8 text.toList)
  match WsMessage.ofJson value with
  | some message => .ok message
  | none => .error (serde.mismatch (Json.utf8 text.toList))

theorem WsMessage.fromStr_eq_ok {serde : SerdeJson} {text : String} {value : Json.Value}
    {message : WsMessage} (read : serde.fromSlice (Json.utf8 text.toList) = .ok value) :
    fromStr serde text = .ok message ↔ ofJson value = some message := by
  simp only [fromStr, read, bind, Except.bind]
  cases ofJson value with
  | some other => simp
  | none => simp

end Hysj.Shared

namespace Hysj.Api

open Crypto Shared Messaging Program

/-- A socket, and with it the sender of its channel. Numbers are given in the order of
opening. -/
abbrev SocketId := Nat

/-- A text in the channel of a socket, sent to it as the socket of a device. -/
structure Sent where
  socket : SocketId
  deviceId : Uuid
  text : String
  deriving DecidableEq

/-- A request to the push service. -/
structure PushRequest where
  authorization : String
  body : Json.Value

structure AppConfig where
  fcmServerKey : Option String
  jwtSecret : String

/-- `AppState`, the services behind it, and what the channels hold: everything that was sent,
oldest first. -/
structure Server where
  redis : Redis
  db : Db.Tables
  connections : Uuid → Option SocketId
  /-- the receiver of the channel is gone -/
  closed : SocketId → Bool
  sent : List Sent
  pushed : List PushRequest
  rateLimiter : String → List Nat

/-- A server that has just started, over the tables there are. -/
def Server.start (now : Nat) (db : Db.Tables) : Server where
  redis := .empty now
  db := db
  connections _ := none
  closed _ := false
  sent := []
  pushed := []
  rateLimiter _ := []

/-- The texts that were sent to the device between the two states. -/
def newTexts (s s' : Server) (deviceId : Uuid) : List String :=
  ((s'.sent.drop s.sent.length).filter fun f => f.deviceId = deviceId).map Sent.text

/-- `connections.insert(device_id, tx)` -/
def Server.connect (s : Server) (deviceId : Uuid) (socket : SocketId) : Server :=
  { s with connections := Function.update s.connections deviceId (some socket) }

/-- Nothing happens for some seconds. -/
def Server.wait (s : Server) (seconds : Nat) : Server :=
  { s with redis := s.redis.advance seconds }

/-- The state after a statement. -/
def Server.after {α : Type} (s : Server) (statement : Db.Statement α) : Server :=
  { s with db := (statement s.db).2 }

/-- A handler: it runs in steps and may fail. -/
abbrev Task (ε α : Type) := ExceptT ε (Program Chance Server) α

section

variable {ε α : Type}

def onRedis (t : Command α) : Task MessagingError α :=
  ExceptT.mk (zoom Server.redis (fun r s => { s with redis := r }) t.run)

/-- A statement at the database, at the present time. One that fails was not executed. -/
def query (statement : Nat → Db.Statement α) : Task DbError α :=
  ExceptT.mk <| .act fun c s =>
    match c.fault with
    | some e => (.error (.queryFailed e), s)
    | none => ((statement s.redis.now s.db).1, { s with db := (statement s.redis.now s.db).2 })

/-- A step that cannot fail. -/
def atomically (f : Server → α × Server) : Task ε α :=
  liftM (.act fun _ s => f s : Program Chance Server α)

/-- The requests of a key that are still in the window. -/
def recent (s : Server) (key : String) (window : Nat) : List Nat :=
  (s.rateLimiter key).filter fun t => s.redis.now < t + window

def checkRateLimit (key : String) (maxRequests window : Nat) : Task ε Bool :=
  atomically fun s =>
    if maxRequests ≤ (recent s key window).length then
      (false, { s with rateLimiter := Function.update s.rateLimiter key (recent s key window) })
    else
      (true, { s with
        rateLimiter :=
          Function.update s.rateLimiter key (recent s key window ++ [s.redis.now]) })

end

inductive Sending where
  | absent
  | closed
  | sent
  deriving DecidableEq

/-- `connections.get(&device_id)` and `sender.send`, with the entry locked. -/
def trySend (deviceId : Uuid) (text : String) : Program Chance Server Sending :=
  .act fun _ s =>
    match s.connections deviceId with
    | none => (.absent, s)
    | some socket =>
        if s.closed socket then (.closed, s)
        else (.sent, { s with sent := s.sent ++ [⟨socket, deviceId, text⟩] })

/-- `connections.remove(&device_id)` -/
def disconnect (deviceId : Uuid) : Program Chance Server Unit :=
  .act fun _ s => ((), { s with connections := Function.update s.connections deviceId none })

/-- Send a message to a specific device if it is online; whether it was sent. A sender whose
channel is closed is removed, but not in the step that found it closed. -/
def sendToDevice (deviceId : Uuid) (message : WsMessage) : Program Chance Server Bool := do
  match ← trySend deviceId message.text with
  | .absent => return false
  | .sent => return true
  | .closed => do
      disconnect deviceId
      return false

/-- The devices one after the other, whether they are online or not. -/
def sendToEach (deviceIds : List Uuid) (message : WsMessage) : Program Chance Server Unit :=
  forM deviceIds fun deviceId => do
    let _ ← sendToDevice deviceId message

/-- Send a message to all online devices belonging to a user. -/
def sendToUserDevices (userId : Uuid) (message : WsMessage) : Program Chance Server Unit := do
  match ← (query fun _ => Db.listByUser userId).run with
  | .ok devices => sendToEach (devices.map Db.Device.id) message
  | .error _ => return ()

/-- The body of a push notification. -/
def pushBody (token title body : String) : Json.Value :=
  .obj
    [("to", .str token), ("notification", .obj [("title", .str title), ("body", .str body)]),
      ("data", .obj [("type", .str "message")]), ("priority", .str "high")]

/-- The request to the push service. -/
def postPush (request : PushRequest) : Task String Unit :=
  ExceptT.mk <| .act fun c s =>
    match c.fault with
    | some e => (.error ("FCM request failed: " ++ e), s)
    | none => (.ok (), { s with pushed := s.pushed ++ [request] })

/-- Send a push notification to a device that has registered a token. -/
def sendPushNotification (fcmServerKey : String) (deviceId : Uuid) (title body : String) :
    Task String Unit := do
  match ← ExceptT.adapt MessagingError.display
      (onRedis (get (keyPrefix "push" deviceId ++ "fcm"))) with
  | none => return ()
  | some bytes =>
      match Utf8.fromUtf8 bytes with
      | none => throw "Invalid UTF-8- TypeError"
      | some token => postPush ⟨"key=" ++ fcmServerKey, pushBody token title body⟩

section

variable {α : Type} {s s' : Server}

@[simp] theorem runs_onRedis {t : Command α} {result : Except MessagingError α} :
    Runs Clean (onRedis t).run s result s' ↔
      ∃ r, Runs Clean t.run s.redis result r ∧ s' = { s with redis := r } := by
  have zoomed := @runs_zoom Chance Server Redis (Except MessagingError α) Server.redis
    (fun r s => { s with redis := r }) (fun _ _ => rfl) (fun _ => rfl) (fun _ _ _ => rfl) Clean
  exact zoomed

@[simp] theorem runs_query {statement : Nat → Db.Statement α} {result : Except DbError α} :
    Runs Clean (query statement).run s result s' ↔
      (statement s.redis.now s.db).1 = result ∧
        { s with db := (statement s.redis.now s.db).2 } = s' := by
  rw [query, runs_run_mk, runs_act]
  constructor
  · rintro ⟨c, clean, answer⟩
    rw [clean] at answer
    exact Prod.mk.inj answer
  · rintro ⟨rfl, rfl⟩
    exact ⟨{}, rfl, rfl⟩

theorem total_onRedis {t : Command α} (total : Total Clean t.run) :
    Total Clean (onRedis t).run := by
  intro s
  obtain ⟨outcome, r, run⟩ := total s.redis
  exact ⟨outcome, _, runs_onRedis.mpr ⟨r, run, rfl⟩⟩

theorem total_query (statement : Nat → Db.Statement α) : Total Clean (query statement).run :=
  total_act fun _ => ⟨{}, rfl⟩

/-- The state after a text was sent to a device. -/
def afterSend (s : Server) (deviceId : Uuid) (text : String) : Server :=
  match s.connections deviceId with
  | none => s
  | some socket =>
      if s.closed socket then { s with connections := Function.update s.connections deviceId none }
      else { s with sent := s.sent ++ [⟨socket, deviceId, text⟩] }

section

variable {d d' : Uuid} {text : String}

@[simp] theorem redis_afterSend : (afterSend s d text).redis = s.redis := by
  unfold afterSend
  split
  · rfl
  · split <;> rfl

@[simp] theorem closed_afterSend : (afterSend s d text).closed = s.closed := by
  unfold afterSend
  split
  · rfl
  · split <;> rfl

theorem connections_afterSend_of_ne (other : d' ≠ d) :
    (afterSend s d text).connections d' = s.connections d' := by
  unfold afterSend
  split
  · rfl
  · split
    · exact Function.update_of_ne other _ _
    · rfl

theorem afterSend_offline (offline : s.connections d' = none) :
    (afterSend s d text).connections d' = none := by
  by_cases same : d' = d
  · subst same
    rw [afterSend, offline]
    exact offline
  · rw [connections_afterSend_of_ne same, offline]

theorem sent_afterSend : ∃ frames, (afterSend s d text).sent = s.sent ++ frames := by
  unfold afterSend
  split
  · exact ⟨[], by simp⟩
  · split
    · exact ⟨[], by simp⟩
    · exact ⟨_, rfl⟩

end

/-- The device has a sender whose channel is open. -/
def Server.Online (s : Server) (deviceId : Uuid) : Prop :=
  ∃ socket, s.connections deviceId = some socket ∧ s.closed socket = false

theorem runs_trySend {d : Uuid} {text : String} {result : Sending} :
    Runs Clean (trySend d text) s result s' ↔
      (match s.connections d with
        | none => (Sending.absent, s)
        | some socket =>
            if s.closed socket then (.closed, s)
            else (.sent, { s with sent := s.sent ++ [⟨socket, d, text⟩] })) = (result, s') := by
  rw [trySend, runs_act]
  constructor
  · rintro ⟨-, -, answer⟩
    exact answer
  · intro answer
    exact ⟨{}, rfl, answer⟩

theorem runs_disconnect {d : Uuid} :
    Runs Clean (disconnect d) s () s' ↔
      { s with connections := Function.update s.connections d none } = s' := by
  rw [disconnect, runs_act]
  constructor
  · rintro ⟨-, -, answer⟩
    exact (Prod.mk.inj answer).2
  · rintro rfl
    exact ⟨{}, rfl, rfl⟩

@[simp] theorem runs_sendToDevice {d : Uuid} {message : WsMessage} {sent : Bool} :
    Runs Clean (sendToDevice d message) s sent s' ↔
      (sent = true ↔ s.Online d) ∧ afterSend s d message.text = s' := by
  rw [sendToDevice]
  simp only [runs_bind, runs_trySend]
  unfold afterSend Server.Online
  cases found : s.connections d with
  | none =>
      constructor
      · rintro ⟨sending, m, answer, rest⟩
        obtain ⟨rfl, rfl⟩ := Prod.mk.inj answer
        obtain ⟨rfl, rfl⟩ := runs_pure.mp rest
        simp
      · rintro ⟨online, rfl⟩
        have offline : sent = false := by simpa using online
        exact ⟨.absent, s, rfl, runs_pure.mpr ⟨offline.symm, rfl⟩⟩
  | some socket =>
      by_cases gone : s.closed socket = true
      · simp only [if_pos gone]
        constructor
        · rintro ⟨sending, m, answer, rest⟩
          obtain ⟨rfl, rfl⟩ := Prod.mk.inj answer
          obtain ⟨_, m, removed, rest⟩ := runs_bind.mp rest
          obtain ⟨rfl, rfl⟩ := runs_pure.mp rest
          exact ⟨by simp [gone], runs_disconnect.mp removed⟩
        · rintro ⟨online, left⟩
          have offline : sent = false := by simpa [gone] using online
          refine ⟨.closed, s, rfl, runs_bind.mpr ⟨(), s', runs_disconnect.mpr left, ?_⟩⟩
          exact runs_pure.mpr ⟨offline.symm, rfl⟩
      · simp only [if_neg gone]
        constructor
        · rintro ⟨sending, m, answer, rest⟩
          obtain ⟨rfl, rfl⟩ := Prod.mk.inj answer
          obtain ⟨rfl, rfl⟩ := runs_pure.mp rest
          simpa using gone
        · rintro ⟨online, left⟩
          have there : sent = true := by simpa [gone] using online
          exact ⟨.sent, s', by rw [left], runs_pure.mpr ⟨there.symm, rfl⟩⟩

@[simp] theorem runs_atomically {ε : Type} {f : Server → α × Server} {result : Except ε α} :
    Runs Clean (atomically f : Task ε α).run s result s' ↔ .ok (f s).1 = result ∧ (f s).2 = s' := by
  simp only [atomically, runs_run_lift, runs_act]
  constructor
  · rintro ⟨a, ⟨-, -, answer⟩, rfl⟩
    rw [answer]
    exact ⟨rfl, rfl⟩
  · rintro ⟨rfl, rfl⟩
    exact ⟨(f s).1, ⟨{}, rfl, rfl⟩, rfl⟩

theorem total_sendToDevice (d : Uuid) (message : WsMessage) :
    Total Clean (sendToDevice d message) := by
  refine (total_act fun _ => ⟨{}, rfl⟩).bind fun sending => ?_
  cases sending with
  | absent => exact total_pure _
  | sent => exact total_pure _
  | closed => exact (total_act fun _ => ⟨{}, rfl⟩).bind fun _ => total_pure _

theorem runs_sendToEach_offline {ds : List Uuid} {message : WsMessage}
    (offline : ∀ d ∈ ds, s.connections d = none) :
    Runs Clean (sendToEach ds message) s () s' ↔ s = s' := by
  unfold sendToEach
  induction ds with
  | nil => exact runs_pure.trans (and_iff_right rfl)
  | cons d ds ih =>
      have away := offline d List.mem_cons_self
      rw [List.forM_cons]
      simp only [runs_bind, runs_sendToDevice, runs_pure]
      constructor
      · rintro ⟨-, m, ⟨-, -, ⟨-, rfl⟩, -, rfl⟩, rest⟩
        rw [afterSend, away] at rest
        exact (ih fun d member => offline d (List.mem_cons_of_mem _ member)).mp rest
      · intro same
        have online : ¬ s.Online d := by
          rintro ⟨socket, found, -⟩
          rw [away] at found
          cases found
        refine ⟨(), s, ⟨false, s, ⟨by simpa using online, ?_⟩, trivial, rfl⟩, ?_⟩
        · rw [afterSend, away]
        · exact (ih fun d member => offline d (List.mem_cons_of_mem _ member)).mpr same

end

end Hysj.Api
