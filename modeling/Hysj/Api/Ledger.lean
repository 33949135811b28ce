import Hysj.Api.Registry

set_option autoImplicit false

/- Where a message is from its acceptance to its acknowledgement. -/
namespace Hysj.Api

open Crypto Shared Messaging Program

/-- How far the handler of a message has come, and what became of the message: it waits in Redis,
or it is in the hands of the sockets of its device. -/
inductive Route where
  | sending
  | stale
  | looking
  | storing
  | queued
  | handed
  deriving DecidableEq

/-- A message that was received, as long as its handler has not refused it. -/
structure Record where
  envelope : EncryptedEnvelope
  deadline : Nat
  /-- the socket whose handler has not returned yet -/
  handler : Option SocketId
  route : Route
  acked : Bool

def Record.device (r : Record) : Uuid := r.envelope.recipientDeviceId

def Record.key (r : Record) : String := msgKey r.device r.envelope.messageId

def Route.undecided : Route → Bool
  | .queued | .handed => false
  | _ => true

/-- The next step of the handler of a message. -/
def Route.next (s : Server) (envelope : EncryptedEnvelope) : Route → Route
  | .sending =>
      match s.connections envelope.recipientDeviceId with
      | none => .looking
      | some x => if s.closed x then .stale else .handed
  | .stale => .looking
  | .looking =>
      if (s.redis.get? (msgKey envelope.recipientDeviceId envelope.messageId)).isSome then .queued
      else .storing
  | .storing => .queued
  | route => route

/-- The phase of a socket whose next step is taken. -/
def running (w : World) : Event → Option (SocketId × Phase)
  | .run x _ => (w.sockets[x]?).map fun socket => (x, socket.phase)
  | _ => none

/-- The step is the next one of the handler of the record. -/
def Record.own (r : Record) (w : World) (e : Event) : Bool :=
  match running w e with
  | some (x, _) => r.handler = some x
  | none => false

/-- The handler of the record has returned without an error. -/
def Record.accepts (r : Record) (w : World) (e : Event) : Bool :=
  match running w e with
  | some (x, .handling _ (.done (.ok _))) => r.handler = some x
  | _ => false

def Record.refuses (r : Record) (w : World) (e : Event) : Bool :=
  match running w e with
  | some (x, .handling _ (.done (.error _))) => r.handler = some x
  | _ => false

/-- The step handles an acknowledgement of the message. -/
def Record.acknowledges (r : Record) (w : World) (e : Event) : Bool :=
  match running w e with
  | some (_, .handling (.delivered ack) _) =>
      ack.deviceId = r.device ∧ ack.messageId = r.envelope.messageId
  | _ => false

/-- A message that is taken out of Redis is in the hands of the sockets. -/
def Record.routeAfter (r : Record) (w : World) (e : Event) (w' : World) : Route :=
  if r.own w e && r.route.undecided then r.route.next w.server r.envelope
  else if r.route = .queued ∧ w'.server.redis.peek r.key = none then .handed
  else r.route

/-- The record after a step. -/
def Record.after (r : Record) (w : World) (e : Event) (w' : World) : Record where
  envelope := r.envelope
  deadline := r.deadline
  handler := if r.accepts w e then none else r.handler
  route := r.routeAfter w e w'
  acked := r.acked || r.acknowledges w e

/-- The record of a message that comes in. -/
def arriving (serde : SerdeJson) (w : World) : Event → List Record
  | .receive x (.text text) =>
      match WsMessage.fromStr serde text with
      | .ok (.sendMessage envelope) =>
          [⟨envelope, w.server.redis.now + (messageTtl envelope).toNat, some x, .sending, false⟩]
      | _ => []
  | _ => []

/-- The ledger after a step. -/
def observe (serde : SerdeJson) (w : World) (e : Event) (w' : World) (ledger : List Record) :
    List Record :=
  (ledger.filter fun r => !r.refuses w e).map (fun r => r.after w e w') ++ arriving serde w e

/-- The TTL has not elapsed and no acknowledgement was handled. -/
def Record.Owed (r : Record) (w : World) : Prop :=
  r.acked = false ∧ w.server.redis.now < r.deadline

/-- A socket of the device is open. -/
def World.HasOpen (w : World) (d : Uuid) : Prop :=
  ∃ x socket, w.sockets[x]? = some socket ∧ socket.deviceId = d ∧ w.Open x

/-- What is stored is the message, and it is kept until the deadline. -/
def Record.Matches (r : Record) (entry : Entry Bytes) : Prop :=
  entry.value = envelopeBlob r.envelope ∧ ∀ t ∈ entry.expiresAt, r.deadline ≤ t

/-- No command and no query fails in the step. -/
def Event.Clean : Event → Prop
  | .run _ c | .work _ c => c.fault = none
  | _ => True

/-- A step that loses nothing: a message goes into the hands of sockets while one of its device is
open, the last of them does not end before what they hold is acknowledged or out of date, and
under the key of a message there is no other message and no earlier end. -/
structure Lossless (w : World) (ledger : List Record) (e : Event) (w' : World) : Prop where
  clean : e.Clean
  hands : ∀ r ∈ ledger, r.route ≠ .handed → (r.after w e w').route = .handed →
    (r.after w e w').Owed w' → w.HasOpen r.device
  ends : ∀ r ∈ ledger, r.route = .handed → (r.after w e w').Owed w' → w.HasOpen r.device →
    w'.HasOpen r.device
  looks : ∀ r ∈ ledger, r.route = .looking → r.own w e = true →
    ∀ entry, w.server.redis.peek r.key = some entry → r.Matches entry
  stores : ∀ r ∈ ledger, r.route = .queued → r.Owed w → ∀ entry entry',
    w.server.redis.peek r.key = some entry → w'.server.redis.peek r.key = some entry' →
      entry' ≠ entry → r.Matches entry'

/-- A run from the start, with the ledger of its messages. -/
inductive Recorded (config : AppConfig) (chrono : Chrono) (serde : SerdeJson)
    (allowed : World → List Record → Event → World → Prop) (start : World) :
    World → List Record → Prop where
  | start : Recorded config chrono serde allowed start start []
  | step {w w' : World} {ledger : List Record} {e : Event}
      (before : Recorded config chrono serde allowed start w ledger)
      (next : step config chrono serde w e = some w') (may : allowed w ledger e w') :
      Recorded config chrono serde allowed start w' (observe serde w e w' ledger)

section

variable (config : AppConfig) (envelope : EncryptedEnvelope)

/-- What is left of `queueMessage` when the message is not queued yet. -/
def storeMessage : Task String Unit := do
  ExceptT.adapt MessagingError.display <| onRedis <|
    setEx (msgKey envelope.recipientDeviceId envelope.messageId) (envelopeBlob envelope)
      (messageTtl envelope)
  match config.fcmServerKey with
  | some fcmKey => do
      let _ ← attempt (sendPushNotification fcmKey envelope.recipientDeviceId "Hysj" "New message")
  | none => return ()

/-- What is left of `sendMessage` when the sender was found closed. -/
def removeStale : Program Chance Server (Except String Unit) := do
  disconnect envelope.recipientDeviceId
  (queueMessage config envelope).run

/-- The handler stands where the route says, until the route is decided. -/
def Route.At (rest : Program Chance Server (Except String Unit)) : Route → Prop
  | .sending => rest = (sendMessage config envelope).run
  | .stale => rest = removeStale config envelope
  | .looking => rest = (queueMessage config envelope).run
  | .storing => rest = (storeMessage config envelope).run
  | _ => True

variable {config envelope}

theorem sendMessage_steps : ∃ effect next, (sendMessage config envelope).run = .step effect next ∧
    ∀ (c : Chance) (s : Server), (effect c s).redis = s.redis ∧
      ((Route.sending).next s envelope).At config envelope (next c s) := by
  refine ⟨_, _, rfl, fun c s => ?_⟩
  rw [Route.next]
  cases found : s.connections envelope.recipientDeviceId with
  | none =>
      simp only [found]
      exact ⟨trivial, rfl⟩
  | some x =>
      by_cases closed : s.closed x = true
      · simp only [found, if_pos closed]
        exact ⟨trivial, rfl⟩
      · simp only [found, if_neg closed]
        exact ⟨trivial, trivial⟩

theorem removeStale_steps : ∃ effect next, removeStale config envelope = .step effect next ∧
    ∀ (c : Chance) (s : Server), (effect c s).redis = s.redis ∧
      next c s = (queueMessage config envelope).run :=
  ⟨_, _, rfl, fun _ _ => ⟨rfl, rfl⟩⟩

theorem queueMessage_steps : ∃ effect next, (queueMessage config envelope).run = .step effect next ∧
    ∀ (c : Chance) (s : Server), c.fault = none → (effect c s).redis = s.redis ∧
      ((Route.looking).next s envelope).At config envelope (next c s) := by
  refine ⟨_, _, rfl, fun c s clean => ?_⟩
  rw [Route.next]
  simp only [clean]
  by_cases there : (s.redis.get? (msgKey envelope.recipientDeviceId envelope.messageId)).isSome
  · rw [if_pos there]
    exact ⟨trivial, trivial⟩
  · rw [if_neg there]
    have absent : (s.redis.get? (msgKey envelope.recipientDeviceId envelope.messageId)).isSome =
        false := Bool.not_eq_true _ ▸ there
    refine ⟨trivial, ?_⟩
    simp only [absent]
    rfl

theorem storeMessage_steps : ∃ effect next, (storeMessage config envelope).run = .step effect next ∧
    ∀ (c : Chance) (s : Server), c.fault = none → (effect c s).redis =
      if messageTtl envelope = 0 then s.redis
      else s.redis.set (msgKey envelope.recipientDeviceId envelope.messageId)
        (envelopeBlob envelope) (some (messageTtl envelope).toNat) := by
  refine ⟨_, _, rfl, fun c s clean => ?_⟩
  simp only [clean]
  split <;> rfl

/-- What the step of a handler does to Redis. -/
def Route.stored (s : Server) (envelope : EncryptedEnvelope) : Route → Redis
  | .storing =>
      if messageTtl envelope = 0 then s.redis
      else s.redis.set (msgKey envelope.recipientDeviceId envelope.messageId)
        (envelopeBlob envelope) (some (messageTtl envelope).toNat)
  | _ => s.redis

theorem Route.At.step {route : Route} {rest : Program Chance Server (Except String Unit)}
    (at_ : route.At config envelope rest) (undecided : route.undecided = true) :
    ∃ effect next, rest = .step effect next ∧ ∀ (c : Chance) (s : Server), c.fault = none →
      (effect c s).redis = route.stored s envelope ∧
        (route.next s envelope).At config envelope (next c s) := by
  cases route with
  | sending =>
      obtain ⟨effect, next, is, steps⟩ := @sendMessage_steps config envelope
      exact ⟨effect, next, at_.trans is, fun c s _ => steps c s⟩
  | stale =>
      obtain ⟨effect, next, is, steps⟩ := @removeStale_steps config envelope
      exact ⟨effect, next, at_.trans is, fun c s _ => steps c s⟩
  | looking =>
      obtain ⟨effect, next, is, steps⟩ := @queueMessage_steps config envelope
      exact ⟨effect, next, at_.trans is, steps⟩
  | storing =>
      obtain ⟨effect, next, is, steps⟩ := @storeMessage_steps config envelope
      exact ⟨effect, next, at_.trans is, fun c s clean => ⟨steps c s clean, trivial⟩⟩
  | queued => cases undecided
  | handed => cases undecided

end

section

variable {config : AppConfig} {chrono : Chrono} {serde : SerdeJson} {w w' : World} {e : Event}
  {x : SocketId} {c : Chance} {socket : Socket} {s s' : Server} {d : Uuid} {phase : Phase}
  {r : Record} {ledger : List Record}

theorem now_of_does (does : Does Effect.apply (fun _ => True) s s') :
    s'.redis.now = s.redis.now := by
  obtain rfl | ⟨effect, -, rfl⟩ := does
  · rfl
  · cases effect with
    | send d text =>
        simp only [Effect.apply]
        split
        · rfl
        · split <;> rfl
    | store change =>
        cases change with
        | set key value ttl => exact Store.now_set
        | del key => exact Store.now_del
        | expire key ttl => exact Store.now_expire ttl
    | disconnect | push | pins | limit => rfl

theorem now_le_of_step (quiet : w.Each Quiet) (stepped : Stepped config chrono serde w e w') :
    w.server.redis.now ≤ w'.server.redis.now := by
  rcases quiet.redis stepped with same | ⟨seconds, waited⟩ | ⟨α, effect, next, c, program, did⟩
  · rw [same]
  · rw [waited]
    exact Nat.le_add_right _ _
  · rw [did, now_of_does (program c w.server).1]

theorem Record.Owed.before (quiet : w.Each Quiet) (stepped : Stepped config chrono serde w e w')
    (owed : (r.after w e w').Owed w') : r.Owed w := by
  have later := now_le_of_step quiet stepped
  have early : w'.server.redis.now < r.deadline := owed.2
  exact ⟨(Bool.or_eq_false_iff.mp owed.1).1, Nat.lt_of_le_of_lt later early⟩

/-- A socket that is not read from and takes no step stays where it is. -/
theorem phase_of_step (stepped : Stepped config chrono serde w e w')
    (found : w.sockets[x]? = some socket) (busy : socket.phase ≠ .reading)
    (other : ∀ c, e ≠ .run x c) :
    ∃ socket', w'.sockets[x]? = some socket' ∧ socket'.phase = socket.phase := by
  have replaced {y : SocketId} {before after : Socket} (there : w.sockets[y]? = some before)
      (same : x = y → after.phase = socket.phase) :
      ∃ socket', (w.sockets.set y after)[x]? = some socket' ∧ socket'.phase = socket.phase := by
    rw [getElem?_set_of_found there]
    by_cases is : y = x
    · rw [if_pos is]
      exact ⟨after, rfl, same is.symm⟩
    · rw [if_neg is]
      exact ⟨socket, found, rfl⟩
  cases stepped with
  | connect user d pages =>
      refine ⟨socket, ?_, rfl⟩
      exact (List.getElem?_append_left (List.getElem?_eq_some_iff.mp found).1).trans found
  | receive y incoming before there reading =>
      refine replaced there fun is => ?_
      subst is
      rw [found] at there
      rw [← Option.some.inj there] at reading
      exact absurd reading busy
  | run y c before phase server there moves =>
      exact replaced there fun is => absurd (is ▸ rfl) (other c)
  | drop y before there =>
      refine replaced there fun is => ?_
      subst is
      rw [found] at there
      rw [Option.some.inj there]
  | sinkEnds | spawn | work | wait => exact ⟨socket, found, rfl⟩

/-- A step of a socket that does not end its loop ends no socket. -/
theorem hasOpen_of_run (quiet : w.Each Quiet) (found : w.sockets[x]? = some socket)
    (moves : Moves chrono serde socket.deviceId x c w.server socket.phase phase s')
    (runs : phase.running = true) (is : w.HasOpen d) :
    World.HasOpen { w.move x socket phase with server := s' } d := by
  have program := quiet.sockets socket (List.mem_of_getElem? found)
  have closed : s'.closed = w.server.closed := by
    obtain ⟨user, device, alive, before⟩ := socket
    cases moves with
    | mark pages => exact closed_markOnline
    | deliver effect next => exact (of_does (program c w.server).1).2.1
    | handle message effect next => exact (of_does (program c w.server).1).2.1
    | reply effect next => exact (of_does (program c w.server).1).2.1
    | ready | accept | refuse | replied => rfl
    | unregister | abort | stop => cases runs
  have get (y : SocketId) : (w.sockets.set x { socket with phase := phase })[y]? =
      if x = y then some { socket with phase := phase } else w.sockets[y]? :=
    getElem?_set_of_found found
  obtain ⟨y, other, there, device, ⟨other', there', lives, loops, open_⟩⟩ := is
  obtain rfl := Option.some.inj (there.symm.trans there')
  have still : s'.closed y = false := by rw [closed, open_]
  by_cases same : x = y
  · subst same
    rw [found] at there
    obtain rfl := Option.some.inj there
    have after := (get x).trans (if_pos rfl)
    exact ⟨x, _, after, device, _, after, lives, runs, still⟩
  · have after := ((get y).trans (if_neg same)).trans there
    exact ⟨y, other, after, device, other, after, lives, loops, still⟩

theorem redis_or_hasOpen (quiet : w.Each Quiet) (stepped : Stepped config chrono serde w e w') :
    w'.server.redis = w.server.redis ∨ ∀ d, w.HasOpen d → w'.HasOpen d := by
  cases stepped with
  | connect | receive | drop | sinkEnds | spawn => exact Or.inl rfl
  | wait seconds => exact Or.inr fun d is => is
  | work i c effect next found =>
      refine Or.inr fun d is => ?_
      obtain ⟨y, other, there, device, ⟨other', there', lives, loops, open_⟩⟩ := is
      have closed := (of_does (quiet.tasks _ (List.mem_of_getElem? found) c w.server).1).2.1
      exact ⟨y, other, there, device, other', there', lives, loops, by
        rw [← open_, ← closed]⟩
  | run x c socket phase server found moves =>
      by_cases runs : phase.running = true
      · exact Or.inr fun d is => hasOpen_of_run quiet found moves runs is
      · refine Or.inl ?_
        obtain ⟨user, device, alive, before⟩ := socket
        cases moves with
        | mark | deliver | ready | handle | accept | refuse | reply | replied =>
            exact absurd rfl runs
        | unregister | abort => rfl
        | stop => exact redis_markOnline

/-- Where a message is, as long as it is owed. -/
structure Kept (config : AppConfig) (w : World) (r : Record) : Prop where
  decided : r.handler = none → r.route.undecided = false
  under : ∀ x, r.handler = some x → ∃ socket rest, w.sockets[x]? = some socket ∧
    socket.phase = .handling (.sendMessage r.envelope) rest ∧ r.route.At config r.envelope rest
  due : r.deadline ≤ w.server.redis.now + (messageTtl r.envelope).toNat
  queued : r.route = .queued → r.Owed w →
    ∃ entry, w.server.redis.peek r.key = some entry ∧ r.Matches entry
  handed : r.route = .handed → r.Owed w → w.HasOpen r.device

theorem own_iff : r.own w e = true ↔ ∃ x c socket, e = .run x c ∧ w.sockets[x]? = some socket ∧
    r.handler = some x := by
  cases e with
  | run x c =>
      cases found : w.sockets[x]? with
      | none => simp [Record.own, running, found]
      | some socket => simp [Record.own, running, found]
  | connect | receive | drop | sinkEnds | spawn | work | wait => simp [Record.own, running]

/-- An own step of a handler that has not decided yet. -/
structure OwnStep (config : AppConfig) (w : World) (r : Record) (w' : World) : Prop where
  redis : w'.server.redis = r.route.stored w.server r.envelope
  under : ∀ x, r.handler = some x → ∃ socket rest, w'.sockets[x]? = some socket ∧
    socket.phase = .handling (.sendMessage r.envelope) rest ∧
      (r.route.next w.server r.envelope).At config r.envelope rest
  opens : ∀ d, w.HasOpen d → w'.HasOpen d
  stays : r.accepts w e = false

theorem ownStep (quiet : w.Each Quiet) (kept : Kept config w r) (clean : e.Clean)
    (stepped : Stepped config chrono serde w e w') (own : r.own w e = true)
    (undecided : r.route.undecided = true) : OwnStep (e := e) config w r w' := by
  obtain ⟨x, c, socket, rfl, found, handler⟩ := own_iff.mp own
  obtain ⟨socket', rest, found', phase, at_⟩ := kept.under x handler
  obtain rfl := Option.some.inj (found.symm.trans found')
  obtain ⟨effect, next, rfl, steps⟩ := at_.step undecided
  obtain ⟨redis, after⟩ := steps c w.server clean
  cases stepped with
  | run _ _ other phase' server there moves =>
      obtain rfl := Option.some.inj (found.symm.trans there)
      have runs := moves
      rw [phase] at moves
      cases moves with
      | handle message effect next =>
          constructor
          · exact redis
          · intro y same
            obtain rfl := Option.some.inj (handler.symm.trans same)
            have get := (getElem?_set_of_found
              (b := { socket with phase := .handling (.sendMessage r.envelope) (next c w.server) })
              (y := x) found).trans (if_pos rfl)
            exact ⟨_, _, get, rfl, after⟩
          · exact fun d is => hasOpen_of_run quiet found runs rfl is
          · simp [Record.accepts, running, found, phase]

theorem route_after_of_own (own : r.own w e = true) (undecided : r.route.undecided = true) :
    (r.after w e w').route = r.route.next w.server r.envelope := by
  simp [Record.after, Record.routeAfter, own, undecided]

theorem route_after_of_other (other : ¬ (r.own w e = true ∧ r.route.undecided = true)) :
    (r.after w e w').route =
      if r.route = .queued ∧ w'.server.redis.peek r.key = none then .handed else r.route := by
  rw [← Bool.and_eq_true] at other
  simp only [Record.after, Record.routeAfter, if_neg other]

theorem due_after (quiet : w.Each Quiet) (kept : Kept config w r)
    (stepped : Stepped config chrono serde w e w') :
    (r.after w e w').deadline ≤ w'.server.redis.now +
      (messageTtl (r.after w e w').envelope).toNat := by
  have later := now_le_of_step quiet stepped
  have due : (r.after w e w').deadline ≤ w.server.redis.now +
    (messageTtl (r.after w e w').envelope).toNat := kept.due
  omega

/-- The handler decides: it hands the message to a socket, finds it stored, or stores it. -/
theorem Kept.decide (quiet : w.Each Quiet) (kept : Kept config w r) (member : r ∈ ledger)
    (lossless : Lossless w ledger e w') (stepped : Stepped config chrono serde w e w')
    (own : r.own w e = true) (undecided : r.route.undecided = true) :
    Kept config w' (r.after w e w') := by
  have step := ownStep quiet kept lossless.clean stepped own undecided
  have route := @route_after_of_own w w' e r own undecided
  have handler : (r.after w e w').handler = r.handler := by
    simp [Record.after, step.stays]
  constructor
  · intro done
    rw [handler] at done
    rw [kept.decided done] at undecided
    cases undecided
  · intro x same
    rw [handler] at same
    rw [route]
    exact step.under x same
  · exact due_after quiet kept stepped
  · intro queued owed
    have before := owed.before quiet stepped
    rw [route] at queued
    have redis := step.redis
    cases from_ : r.route with
    | sending =>
        rw [from_, Route.next] at queued
        split at queued
        · cases queued
        · split at queued <;> cases queued
    | stale =>
        rw [from_] at queued
        cases queued
    | looking =>
        rw [from_, Route.next] at queued
        split at queued
        · rename_i there
          obtain ⟨blob, found⟩ := Option.isSome_iff_exists.mp there
          obtain ⟨entry, found, -⟩ := Store.get?_eq_some.mp found
          have stays : w'.server.redis.peek r.key = some entry := by
            rw [redis, from_]
            exact found
          exact ⟨entry, stays, lossless.looks r member from_ own entry found⟩
        · cases queued
    | storing =>
        rw [from_, Route.stored] at redis
        have early := before.2
        have due := kept.due
        have lasts : messageTtl r.envelope ≠ 0 := by
          intro zero
          rw [zero] at due
          have none_ : (0 : UInt64).toNat = 0 := rfl
          omega
        have positive : ∀ n ∈ some (messageTtl r.envelope).toNat, 0 < n := by
          intro n given
          obtain rfl := Option.some.inj given
          rw [Nat.pos_iff_ne_zero]
          exact fun zero => lasts (UInt64.toNat_inj.mp zero)
        rw [if_neg lasts] at redis
        refine ⟨_, (by rw [redis]; exact Store.peek_set positive), rfl, fun t expires => ?_⟩
        rw [← Option.some.inj expires]
        exact due
    | queued =>
        rw [from_] at undecided
        cases undecided
    | handed =>
        rw [from_] at undecided
        cases undecided
  · intro handed owed
    refine step.opens _ (lossless.hands r member ?_ handed owed)
    intro already
    rw [already] at undecided
    cases undecided

theorem own_of_accepts (accepts : r.accepts w e = true) : r.own w e = true := by
  unfold Record.accepts at accepts
  split at accepts
  · rename_i x message result at_
    rw [Record.own, at_]
    exact accepts
  · cases accepts

theorem at_of_decided {route : Route} {envelope : EncryptedEnvelope}
    {rest : Program Chance Server (Except String Unit)} (decided : route.undecided = false) :
    route.At config envelope rest := by
  cases route with
  | queued | handed => trivial
  | sending | stale | looking | storing => cases decided

theorem under_after (kept : Kept config w r) (stays : r.refuses w e = false)
    (stepped : Stepped config chrono serde w e w')
    (other : ¬ (r.own w e = true ∧ r.route.undecided = true))
    (same_or : (r.after w e w').route = .handed ∨ (r.after w e w').route = r.route)
    (x : SocketId) (is : (r.after w e w').handler = some x) :
    ∃ socket rest, w'.sockets[x]? = some socket ∧
      socket.phase = .handling (.sendMessage r.envelope) rest ∧
        (r.after w e w').route.At config r.envelope rest := by
  have goes : r.accepts w e = false ∧ r.handler = some x := by
    cases accepts : r.accepts w e with
    | true => simp [Record.after, accepts] at is
    | false => exact ⟨rfl, by simpa [Record.after, accepts] using is⟩
  obtain ⟨goes, handler⟩ := goes
  obtain ⟨socket, rest, found, phase, at_⟩ := kept.under x handler
  by_cases own : r.own w e = true
  · -- the route is decided, whatever the handler does now
    have decided : r.route.undecided = false := by
      rw [← Bool.not_eq_true]
      exact fun undecided => other ⟨own, undecided⟩
    have decided' : (r.after w e w').route.undecided = false := by
      rcases same_or with handed | same
      · rw [handed]
        rfl
      · rw [same, decided]
    obtain ⟨y, c, socket', rfl, found', handler'⟩ := own_iff.mp own
    obtain rfl := Option.some.inj (handler.symm.trans handler')
    cases stepped with
    | run _ _ socket'' phase' server there moves =>
        obtain rfl := Option.some.inj (found.symm.trans there)
        rw [phase] at moves
        cases moves with
        | handle message effect next =>
            have get := (getElem?_set_of_found
              (b := { socket with phase := .handling (.sendMessage r.envelope) (next c w.server) })
              (y := x) found).trans (if_pos rfl)
            exact ⟨_, _, get, rfl, at_of_decided decided'⟩
        | accept message result => simp [Record.accepts, running, found, phase, handler] at goes
        | refuse message e => simp [Record.refuses, running, found, phase, handler] at stays
  · have elsewhere : ∀ c, e ≠ .run x c := by
      rintro c rfl
      exact own (own_iff.mpr ⟨x, c, socket, rfl, found, handler⟩)
    have busy : socket.phase ≠ .reading := by
      rw [phase]
      exact Phase.noConfusion
    obtain ⟨socket', found', phase'⟩ := phase_of_step stepped found busy elsewhere
    refine ⟨socket', rest, found', phase'.trans phase, ?_⟩
    rcases same_or with handed | same
    · rw [handed]
      trivial
    · rw [same]
      exact at_

/-- Where a message is does not change, or it is taken out of Redis. -/
theorem Kept.rest (quiet : w.Each Quiet) (kept : Kept config w r) (member : r ∈ ledger)
    (stays : r.refuses w e = false) (lossless : Lossless w ledger e w')
    (stepped : Stepped config chrono serde w e w')
    (other : ¬ (r.own w e = true ∧ r.route.undecided = true)) :
    Kept config w' (r.after w e w') := by
  have route := @route_after_of_other w w' e r other
  have same_or : (r.after w e w').route = .handed ∨ (r.after w e w').route = r.route := by
    rw [route]
    split
    · exact Or.inl rfl
    · exact Or.inr rfl
  constructor
  · intro done
    have decided : r.route.undecided = false := by
      rw [← Bool.not_eq_true]
      intro undecided
      by_cases accepts : r.accepts w e = true
      · -- a handler that has not decided does not return
        exact other ⟨own_of_accepts accepts, undecided⟩
      · have handler : (r.after w e w').handler = r.handler := by simp [Record.after, accepts]
        rw [handler] at done
        rw [kept.decided done] at undecided
        cases undecided
    rcases same_or with handed | same
    · rw [handed]
      rfl
    · rw [same, decided]
  · exact under_after kept stays stepped other same_or
  · exact due_after quiet kept stepped
  · intro queued owed
    have before := owed.before quiet stepped
    rw [route] at queued
    split at queued
    · cases queued
    · rename_i there
      obtain ⟨entry, found, good⟩ := kept.queued queued before
      cases found' : w'.server.redis.peek r.key with
      | none => exact absurd ⟨queued, found'⟩ there
      | some entry' =>
          refine ⟨entry', found', ?_⟩
          by_cases same : entry' = entry
          · rw [same]
            exact good
          · exact lossless.stores r member queued before entry entry' found found' same
  · intro handed owed
    have before := owed.before quiet stepped
    by_cases already : r.route = .handed
    · exact lossless.ends r member already owed (kept.handed already before)
    · have is := lossless.hands r member already handed owed
      rcases redis_or_hasOpen quiet stepped with same | opens
      · -- a message that is stored is not taken out without a change
        rw [route] at handed
        split at handed
        · rename_i gone
          obtain ⟨entry, found, -⟩ := kept.queued gone.1 before
          rw [same, found] at gone
          cases gone.2
        · exact absurd handed already
      · exact opens _ is

theorem Kept.step (quiet : w.Each Quiet) (kept : Kept config w r) (member : r ∈ ledger)
    (stays : r.refuses w e = false) (lossless : Lossless w ledger e w')
    (stepped : Stepped config chrono serde w e w') : Kept config w' (r.after w e w') := by
  by_cases mine : r.own w e = true ∧ r.route.undecided = true
  · exact kept.decide quiet member lossless stepped mine.1 mine.2
  · exact kept.rest quiet member stays lossless stepped mine

theorem kept_arriving (stepped : Stepped config chrono serde w e w')
    (member : r ∈ arriving serde w e) : Kept config w' r := by
  unfold arriving at member
  split at member
  · split at member
    · rename_i x text outcome envelope parsed
      obtain rfl := List.mem_singleton.mp member
      cases stepped with
      | receive _ _ socket found reading =>
          constructor
          · intro done
            cases done
          · intro y same
            obtain rfl := Option.some.inj same
            have get := (getElem?_set_of_found
              (b := { socket with phase := socket.received config chrono serde (.text text) })
              (y := x) found).trans (if_pos rfl)
            refine ⟨_, (sendMessage config envelope).run, get, ?_, rfl⟩
            dsimp only
            rw [Socket.received, parsed]
            rfl
          · exact Nat.le_refl _
          · intro queued
            cases queued
          · intro handed
            cases handed
    · cases member
  · cases member

/-- In a run of steps that lose nothing: when a device has no open socket, every message to it that
was accepted, whose TTL has not elapsed and that was not acknowledged, is stored in Redis. -/
theorem stored_of_lossless {now : Nat} {db : Db.Tables}
    (recorded : Recorded config chrono serde Lossless (.start now db) w ledger)
    (member : r ∈ ledger)
    (accepted : r.handler = none) (owed : r.Owed w) (offline : ¬ w.HasOpen r.device) :
    ∃ entry, w.server.redis.peek r.key = some entry ∧ entry.value = envelopeBlob r.envelope := by
  have holds : w.Each Quiet ∧ ∀ r ∈ ledger, Kept config w r := by
    clear member owed offline
    induction recorded with
    | start => exact ⟨World.each_start now db, fun r member => (by cases member)⟩
    | step before next may ih =>
        obtain ⟨quiet, kept⟩ := ih
        have stepped := step_cases next
        refine ⟨World.Each.step begins_quiet (resumes_quiet _)
          (fun _ _ => trivial) quiet stepped, ?_⟩
        intro r member
        rcases List.mem_append.mp member with old | new
        · obtain ⟨before, listed, rfl⟩ := List.mem_map.mp old
          obtain ⟨listed, stays⟩ := List.mem_filter.mp listed
          exact (kept before listed).step quiet listed (by simpa using stays) may stepped
        · exact kept_arriving stepped new
  have kept := holds.2 r member
  cases route : r.route with
  | queued =>
      obtain ⟨entry, found, good⟩ := kept.queued route owed
      exact ⟨entry, found, good.1⟩
  | handed => exact absurd (kept.handed route owed) offline
  | sending | stale | looking | storing =>
      have decided := kept.decided accepted
      rw [route] at decided
      cases decided

end

section

variable {config : AppConfig} {chrono : Chrono} {serde : SerdeJson} {w w' start : World} {e : Event}
  {x : SocketId} {socket : Socket} {r : Record} {envelope : EncryptedEnvelope}
  {allowed : World → List Record → Event → World → Prop}

theorem recorded_follow {events : List Event} (silent : ∀ e ∈ events, ∀ w, arriving serde w e = [])
    (may : ∀ e ∈ events, ∀ w w', allowed w [] e w')
    (recorded : Recorded config chrono serde allowed start w [])
    (followed : follow config chrono serde w events = some w') :
    Recorded config chrono serde allowed start w' [] := by
  induction events generalizing w with
  | nil =>
      rw [← Option.some.inj followed]
      exact recorded
  | cons e events ih =>
      obtain ⟨m, first, rest⟩ := Option.bind_eq_some_iff.mp followed
      have next := recorded.step first (may e List.mem_cons_self w m)
      have nothing : observe serde w e m [] = [] := silent e List.mem_cons_self w
      rw [nothing] at next
      exact ih (fun e member => silent e (List.mem_cons_of_mem _ member))
        (fun e member => may e (List.mem_cons_of_mem _ member)) next rest

theorem recorded_first (lawful : serde.Lawful)
    (recorded : Recorded config chrono serde allowed start w [])
    (found : w.sockets[x]? = some socket)
    (reading : socket.phase = .reading)
    (may : ∀ w', allowed w [] (.receive x (.text (WsMessage.sendMessage envelope).text)) w') :
    Recorded config chrono serde allowed start
      (w.move x socket (.handling (.sendMessage envelope) (sendMessage config envelope).run))
      [⟨envelope, w.server.redis.now + (messageTtl envelope).toNat, some x, .sending, false⟩] := by
  have next := recorded.step (step_receive_text lawful _ found reading) (may _)
  have record : arriving serde w (.receive x (.text (WsMessage.sendMessage envelope).text)) =
      [⟨envelope, w.server.redis.now + (messageTtl envelope).toNat, some x, .sending, false⟩] := by
    rw [arriving, fromStr_text lawful]
  rw [observe, record] at next
  exact next

theorem offline_of_sockets {d : Uuid}
    (sockets : ∀ socket ∈ w.sockets, socket.deviceId ≠ d ∨ socket.alive = false) :
    ¬ w.HasOpen d := by
  rintro ⟨x, socket, found, device, ⟨other, found', lives, -⟩⟩
  obtain rfl := Option.some.inj (found.symm.trans found')
  rcases sockets socket (List.mem_of_getElem? found) with differs | dead
  · exact differs device
  · rw [dead] at lives
    cases lives

theorem mem_observe {ledger : List Record} (member : r ∈ ledger) (stays : r.refuses w e = false) :
    r.after w e w' ∈ observe serde w e w' ledger := by
  refine List.mem_append_left _ (List.mem_map_of_mem (List.mem_filter.mpr ⟨member, ?_⟩))
  rw [stays]
  rfl

theorem lossless_nil (clean : e.Clean) : Lossless w [] e w' :=
  ⟨clean, fun _ member => (by cases member), fun _ member => (by cases member),
    fun _ member => (by cases member), fun _ member => (by cases member)⟩

/-- A step of a handler that hands nothing over and finds nothing. -/
theorem lossless_of_undecided (clean : e.Clean)
    (undecided : r.route.undecided = true) (route : Route)
    (next : (r.after w e w').route = route) (keeps : route ≠ .handed)
    (absent : w.server.redis.peek r.key = none) : Lossless w [r] e w' := by
  refine ⟨clean, ?_, ?_, ?_, ?_⟩
  · intro r' member _ handed
    obtain rfl := List.mem_singleton.mp member
    exact absurd (next.symm.trans handed) keeps
  · intro r' member handed
    obtain rfl := List.mem_singleton.mp member
    rw [handed] at undecided
    cases undecided
  · intro r' member _ _ entry found
    obtain rfl := List.mem_singleton.mp member
    rw [absent] at found
    cases found
  · intro r' member _ _ entry _ found
    obtain rfl := List.mem_singleton.mp member
    rw [absent] at found
    cases found

theorem lossless_of_queued (clean : e.Clean) (queued : r.route = .queued)
    (same : w'.server.redis = w.server.redis) (there : w.server.redis.peek r.key ≠ none) :
    Lossless w [r] e w' := by
  have other : ¬ (r.own w e = true ∧ r.route.undecided = true) := by
    rw [queued]
    exact fun both => Bool.noConfusion both.2
  have stays : (r.after w e w').route = .queued := by
    rw [route_after_of_other other, same, if_neg fun gone => there gone.2, queued]
  refine ⟨clean, ?_, ?_, ?_, ?_⟩
  · intro r' member _ handed
    obtain rfl := List.mem_singleton.mp member
    rw [stays] at handed
    cases handed
  · intro r' member handed
    obtain rfl := List.mem_singleton.mp member
    rw [queued] at handed
    cases handed
  · intro r' member looking
    obtain rfl := List.mem_singleton.mp member
    rw [queued] at looking
    cases looking
  · intro r' member _ _ entry entry' found found' differs
    obtain rfl := List.mem_singleton.mp member
    rw [same, found] at found'
    exact absurd (Option.some.inj found').symm differs

end

/-- A message to device 1 of user 2. -/
def note : EncryptedEnvelope := ⟨.replicate 16 1, "1", "", none, none, none, false⟩

/-- The sockets of some devices, each of the user of the same number, are set up in turn. -/
def setUpFrom (x : SocketId) : List UInt8 → List Event
  | [] => []
  | b :: bs =>
      [.connect (.replicate 16 b) (.replicate 16 b) 1, .run x {}, .run x {},
        .run x {}, .run x {}] ++
        setUpFrom (x + 1) bs

theorem silent_setUpFrom (serde : SerdeJson) (bs : List UInt8) (x : SocketId) :
    ∀ e ∈ setUpFrom x bs, e.Clean ∧ ∀ w, arriving serde w e = [] := by
  induction bs generalizing x with
  | nil =>
      intro e member
      cases member
  | cons b bs ih =>
      intro e member
      rcases List.mem_append.mp member with first | later
      · simp only [List.mem_cons, List.not_mem_nil, or_false] at first
        rcases first with rfl | rfl | rfl | rfl | rfl
        · exact ⟨trivial, fun _ => rfl⟩
        · exact ⟨rfl, fun _ => rfl⟩
        · exact ⟨rfl, fun _ => rfl⟩
        · exact ⟨rfl, fun _ => rfl⟩
        · exact ⟨rfl, fun _ => rfl⟩
      · exact ih (x + 1) e later

/-- Device 3 is set up and sends the message while device 1 is offline. -/
theorem stored_of_lossless_note :
    ∃ (w : World) (r : Record), r.handler = none ∧ r.Owed w ∧ ¬ w.HasOpen r.device ∧
      ∃ entry, w.server.redis.peek r.key = some entry ∧ entry.value = envelopeBlob r.envelope := by
  have ready : (follow ⟨none, ""⟩ Chrono.sample SerdeJson.sample (.start 0 {})
      (setUpFrom 0 [3])).isSome := rfl
  have set_up : Recorded ⟨none, ""⟩ Chrono.sample SerdeJson.sample Lossless (.start 0 {}) _ [] :=
    recorded_follow (fun e member => (silent_setUpFrom SerdeJson.sample [3] 0 e member).2)
      (fun e member _ _ => lossless_nil (silent_setUpFrom SerdeJson.sample [3] 0 e member).1) .start
      (Option.some_get ready).symm
  have received := recorded_first (x := 0) SerdeJson.sample_lawful set_up rfl rfl
    fun w' => @lossless_nil _ w' (.receive 0 (.text (WsMessage.sendMessage note).text)) trivial
  have tried := received.step (e := .run 0 {}) rfl
    (lossless_of_undecided rfl rfl .looking rfl (by decide) rfl)
  have looked := tried.step (e := .run 0 {}) rfl
    (lossless_of_undecided rfl rfl .storing rfl (by decide) rfl)
  have stored := looked.step (e := .run 0 {}) rfl
    (lossless_of_undecided rfl rfl .queued rfl (by decide) rfl)
  let redis : Redis := (Store.empty 0).set (msgKey (.replicate 16 1) "1") (envelopeBlob note)
    (some 259200)
  have written : redis.peek (msgKey (.replicate 16 1) "1") =
      some ⟨envelopeBlob note, some 259200, 0, 0⟩ := Store.peek_set (by decide)
  have there : redis.peek (msgKey (.replicate 16 1) "1") ≠ none := by
    rw [written]
    exact Option.some_ne_none _
  have accepted := stored.step (e := .run 0 {}) rfl (lossless_of_queued rfl rfl rfl there)
  have early : 0 < 0 + (messageTtl note).toNat := by decide
  have bound := stored_of_lossless accepted
    (mem_observe (mem_observe (mem_observe (mem_observe List.mem_cons_self rfl) rfl) rfl) rfl)
  have differs : (List.Vector.replicate 16 3 : Uuid) ≠ .replicate 16 1 := by decide
  refine ⟨_, _, rfl, ⟨rfl, early⟩, ?_, bound rfl ⟨rfl, early⟩ ?_⟩
  · exact offline_of_sockets (List.forall_mem_singleton.mpr (Or.inl differs))
  · exact offline_of_sockets (List.forall_mem_singleton.mpr (Or.inl differs))

/-- Device 3 sends the message while device 1 is online; the sender is told that it was sent, and
device 1 dies before it has read it. -/
theorem handed_message_lost :
    ∃ w ledger, Recorded ⟨none, ""⟩ Chrono.sample SerdeJson.sample (fun _ _ _ _ => True)
        (.start 0 {}) w ledger ∧
      ∃ r ∈ ledger, r.handler = none ∧ r.Owed w ∧ ¬ w.HasOpen r.device ∧
        w.server.redis.peek r.key = none := by
  have ready : (follow ⟨none, ""⟩ Chrono.sample SerdeJson.sample (.start 0 {})
      (setUpFrom 0 [3, 1])).isSome := rfl
  have set_up : Recorded ⟨none, ""⟩ Chrono.sample SerdeJson.sample (fun _ _ _ _ => True)
      (.start 0 {}) _ [] :=
    recorded_follow (fun e member => (silent_setUpFrom SerdeJson.sample [3, 1] 0 e member).2)
      (fun _ _ _ _ => trivial) .start (Option.some_get ready).symm
  have received := @recorded_first _ _ _ _ _ 0 _ note _ SerdeJson.sample_lawful set_up rfl rfl
    fun _ => trivial
  have sent := received.step (e := .run 0 {}) rfl trivial
  have accepted := sent.step (e := .run 0 {}) rfl trivial
  have died := accepted.step (e := .drop 1) rfl trivial
  have early : 0 < 0 + (messageTtl note).toNat := by decide
  have differs : (List.Vector.replicate 16 3 : Uuid) ≠ .replicate 16 1 := by decide
  refine ⟨_, _, died, _,
    mem_observe (mem_observe (mem_observe List.mem_cons_self rfl) rfl) rfl, rfl,
    ⟨rfl, early⟩, ?_, rfl⟩
  refine offline_of_sockets (List.forall_mem_cons.mpr ⟨Or.inl differs, ?_⟩)
  exact List.forall_mem_singleton.mpr (Or.inr rfl)

end Hysj.Api
