import Hysj.Api.Effects

set_option autoImplicit false

/- The sockets of the server and what its tasks do, in any order of their steps. -/
namespace Hysj.Api

open Crypto Shared Messaging Program

/-- Where `handle_socket` is: the socket is registered, what waited for its device is delivered,
its messages are handled one after the other, and when it has ended it is cleaned up. -/
inductive Phase where
  /-- `set_online(true)` is next -/
  | opened (pages : Nat)
  | setup (rest : Program Chance Server Unit)
  | reading
  | handling (message : WsMessage) (rest : Program Chance Server (Except String Unit))
  | replying (rest : Program Chance Server Unit)
  /-- `connections.remove` is next -/
  | leaving
  /-- `sink_task.abort` is next -/
  | unregistered
  /-- `set_online(false)` is next -/
  | stopped
  | gone

/-- The loop that reads from the socket has not ended. -/
def Phase.running : Phase → Bool
  | .leaving | .unregistered | .stopped | .gone => false
  | _ => true

/-- The device was marked online by this socket. -/
def Phase.marked : Phase → Bool
  | .opened _ => false
  | phase => phase.running

/-- The loop has been reached. -/
def Phase.finishedSetup : Phase → Bool
  | .reading | .handling _ _ | .replying _ => true
  | _ => false

structure Socket where
  userId : Uuid
  deviceId : Uuid
  /-- the peer can still be reached -/
  alive : Bool
  phase : Phase

/-- What `ws_stream.next()` returns; `other` is a pong or a frame that is no text. -/
inductive Incoming where
  | text (text : String)
  | other
  | close
  | error
  | ended

/-- Tasks beside the sockets. `send` is any call of `send_to_device`. -/
inductive Job where
  | send (deviceId : Uuid) (message : WsMessage)
  | expirySweep (pages : Nat)
  | wipeSweep (rounds pages : Nat)

/-- The server, its sockets in the order of opening, and its tasks. -/
structure World where
  server : Server
  sockets : List Socket
  tasks : List (Program Chance Server Unit)

inductive Event where
  /-- a socket opens and is registered -/
  | connect (userId deviceId : Uuid) (pages : Nat)
  | receive (x : SocketId) (incoming : Incoming)
  /-- the next step of what a socket does -/
  | run (x : SocketId) (chance : Chance)
  /-- the peer dies, and nobody has noticed yet -/
  | drop (x : SocketId)
  /-- the task that empties the channel ends -/
  | sinkEnds (x : SocketId)
  | spawn (job : Job)
  /-- the next step of a task -/
  | work (task : Nat) (chance : Chance)
  | wait (seconds : Nat)

/-- `set_online`; that it fails is ignored, and then it was not executed. -/
def markOnline (deviceId : Uuid) (online : Bool) (c : Chance) (s : Server) : Server :=
  match c.fault with
  | some _ => s
  | none => { s with db := (Db.setOnline deviceId online s.redis.now s.db).2 }

/-- `connections.remove(&device_id)` -/
def Server.remove (s : Server) (deviceId : Uuid) : Server :=
  { s with connections := Function.update s.connections deviceId none }

def Server.close (s : Server) (x : SocketId) : Server :=
  { s with closed := Function.update s.closed x true }

section

variable {s : Server} {c : Chance} {d : Uuid} {online : Bool}

@[simp] theorem connections_markOnline : (markOnline d online c s).connections = s.connections := by
  unfold markOnline
  split <;> rfl

@[simp] theorem closed_markOnline : (markOnline d online c s).closed = s.closed := by
  unfold markOnline
  split <;> rfl

@[simp] theorem redis_markOnline : (markOnline d online c s).redis = s.redis := by
  unfold markOnline
  split <;> rfl

end

section

variable (config : AppConfig) (chrono : Chrono) (serde : SerdeJson)

/-- What is delivered to a device that connects. -/
def arrival (pages : Nat) (deviceId : Uuid) : Program Chance Server Unit := do
  deliverPendingMessages serde pages deviceId
  deliverPendingWipes serde chrono pages deviceId

def sendToSelf (deviceId : Uuid) (message : String) : Program Chance Server Unit := do
  let _ ← sendToDevice deviceId (.error message)

def Job.program : Job → Program Chance Server Unit
  | .send deviceId message => do
      let _ ← sendToDevice deviceId message
  | .expirySweep pages => messageExpiry pages
  | .wipeSweep rounds pages => do
      let _ ← (wipePending serde chrono rounds pages .zero).run

/-- The next step of a program. -/
def resume {α : Type} (c : Chance) (s : Server) :
    Program Chance Server α → Option (Program Chance Server α × Server)
  | .step effect next => some (next c s, effect c s)
  | _ => none

/-- The next step of a socket that does not wait for a message. -/
def Socket.next (socket : Socket) (x : SocketId) (c : Chance) (s : Server) :
    Option (Phase × Server) :=
  match socket.phase with
  | .opened pages => some (.setup (arrival chrono serde pages socket.deviceId),
      markOnline socket.deviceId true c s)
  | .setup (.done _) => some (.reading, s)
  | .setup rest => (resume c s rest).map fun (rest, s) => (.setup rest, s)
  | .reading => none
  | .handling _ (.done (.ok _)) => some (.reading, s)
  | .handling _ (.done (.error e)) => some (.replying (sendToSelf socket.deviceId e), s)
  | .handling message rest => (resume c s rest).map fun (rest, s) => (.handling message rest, s)
  | .replying (.done _) => some (.reading, s)
  | .replying rest => (resume c s rest).map fun (rest, s) => (.replying rest, s)
  | .leaving => some (.unregistered, s.remove socket.deviceId)
  | .unregistered => some (.stopped, s.close x)
  | .stopped => some (.gone, markOnline socket.deviceId false c s)
  | .gone => none

/-- What a socket does with what was read from it. -/
def Socket.received (socket : Socket) : Incoming → Phase
  | .text text =>
      match WsMessage.fromStr serde text with
      | .ok message => .handling message
          (handleWsMessage config chrono socket.userId socket.deviceId message).run
      | .error e => .replying (sendToSelf socket.deviceId ("Invalid message format: " ++ e))
  | .other => .reading
  | .close | .error | .ended => .leaving

/-- The socket is in another phase. -/
def World.move (w : World) (x : SocketId) (socket : Socket) (phase : Phase) : World :=
  { w with sockets := w.sockets.set x { socket with phase := phase } }

def step (w : World) : Event → Option World
  | .connect userId deviceId pages => some
      { w with
        server := w.server.connect deviceId w.sockets.length
        sockets := w.sockets ++ [⟨userId, deviceId, true, .opened pages⟩] }
  | .receive x incoming => do
      let socket ← w.sockets[x]?
      match socket.phase with
      | .reading => some (w.move x socket (socket.received config chrono serde incoming))
      | _ => none
  | .run x c => do
      let socket ← w.sockets[x]?
      let (phase, server) ← socket.next chrono serde x c w.server
      some { w.move x socket phase with server := server }
  | .drop x => do
      let socket ← w.sockets[x]?
      some { w with sockets := w.sockets.set x { socket with alive := false } }
  | .sinkEnds x => do
      let socket ← w.sockets[x]?
      match socket.phase with
      | .opened _ | .setup _ => none
      | _ => some { w with server := w.server.close x }
  | .spawn job => some { w with tasks := w.tasks ++ [job.program chrono serde] }
  | .work i c => do
      let task ← w.tasks[i]?
      let (rest, server) ← resume c w.server task
      some { w with server := server, tasks := w.tasks.set i rest }
  | .wait seconds => some { w with server := w.server.wait seconds }

/-- A server that has just started has no sockets. -/
def World.start (now : Nat) (db : Db.Tables) : World := ⟨.start now db, [], []⟩

/-- What is reached in steps that are each allowed in the world before it. -/
inductive Reached (allowed : World → Event → Prop) (start : World) : World → Prop where
  | start : Reached allowed start start
  | step {w w' : World} {e : Event} (before : Reached allowed start w) (may : allowed w e)
      (next : step config chrono serde w e = some w') : Reached allowed start w'

/-- The world after some events. -/
def follow (w : World) : List Event → Option World
  | [] => some w
  | e :: events => (step config chrono serde w e).bind fun w => follow w events

variable {config chrono serde}

theorem reached_follow {allowed : World → Event → Prop} {start w w' : World} {events : List Event}
    (may : ∀ e ∈ events, ∀ w, allowed w e) (reached : Reached config chrono serde allowed start w)
    (followed : follow config chrono serde w events = some w') :
    Reached config chrono serde allowed start w' := by
  induction events generalizing w with
  | nil =>
      rw [← Option.some.inj followed]
      exact reached
  | cons e events ih =>
      obtain ⟨m, first, rest⟩ := Option.bind_eq_some_iff.mp followed
      have begun := reached.step (may e List.mem_cons_self w) first
      exact ih (fun e member => may e (List.mem_cons_of_mem _ member)) begun rest

end

section

variable (config : AppConfig) (chrono : Chrono) (serde : SerdeJson)

/-- The steps of a socket. -/
inductive Moves (d : Uuid) (x : SocketId) (c : Chance) (s : Server) : Phase → Phase → Server → Prop
  where
  | mark (pages : Nat) :
      Moves d x c s (.opened pages) (.setup (arrival chrono serde pages d)) (markOnline d true c s)
  | deliver (effect : Chance → Server → Server)
      (next : Chance → Server → Program Chance Server Unit) :
      Moves d x c s (.setup (.step effect next)) (.setup (next c s)) (effect c s)
  | ready (result : Unit) : Moves d x c s (.setup (.done result)) .reading s
  | handle (message : WsMessage) (effect : Chance → Server → Server)
      (next : Chance → Server → Program Chance Server (Except String Unit)) :
      Moves d x c s (.handling message (.step effect next))
        (.handling message (next c s)) (effect c s)
  | accept (message : WsMessage) (result : Unit) :
      Moves d x c s (.handling message (.done (.ok result))) .reading s
  | refuse (message : WsMessage) (e : String) :
      Moves d x c s (.handling message (.done (.error e))) (.replying (sendToSelf d e)) s
  | reply (effect : Chance → Server → Server)
      (next : Chance → Server → Program Chance Server Unit) :
      Moves d x c s (.replying (.step effect next)) (.replying (next c s)) (effect c s)
  | replied (result : Unit) : Moves d x c s (.replying (.done result)) .reading s
  | unregister : Moves d x c s .leaving .unregistered (s.remove d)
  | abort : Moves d x c s .unregistered .stopped (s.close x)
  | stop : Moves d x c s .stopped .gone (markOnline d false c s)

/-- The steps of the world. -/
inductive Stepped (w : World) : Event → World → Prop where
  | connect (userId d : Uuid) (pages : Nat) :
      Stepped w (.connect userId d pages)
        { w with
          server := w.server.connect d w.sockets.length
          sockets := w.sockets ++ [⟨userId, d, true, .opened pages⟩] }
  | receive (x : SocketId) (incoming : Incoming) (socket : Socket)
      (found : w.sockets[x]? = some socket) (reading : socket.phase = .reading) :
      Stepped w (.receive x incoming)
        (w.move x socket (socket.received config chrono serde incoming))
  | run (x : SocketId) (c : Chance) (socket : Socket) (phase : Phase) (server : Server)
      (found : w.sockets[x]? = some socket)
      (moves : Moves chrono serde socket.deviceId x c w.server socket.phase phase server) :
      Stepped w (.run x c) { w.move x socket phase with server := server }
  | drop (x : SocketId) (socket : Socket) (found : w.sockets[x]? = some socket) :
      Stepped w (.drop x) { w with sockets := w.sockets.set x { socket with alive := false } }
  | sinkEnds (x : SocketId) (socket : Socket) (found : w.sockets[x]? = some socket) :
      Stepped w (.sinkEnds x) { w with server := w.server.close x }
  | spawn (job : Job) :
      Stepped w (.spawn job) { w with tasks := w.tasks ++ [job.program chrono serde] }
  | work (i : Nat) (c : Chance) (effect : Chance → Server → Server)
      (next : Chance → Server → Program Chance Server Unit)
      (found : w.tasks[i]? = some (.step effect next)) :
      Stepped w (.work i c)
        { w with server := effect c w.server, tasks := w.tasks.set i (next c w.server) }
  | wait (seconds : Nat) : Stepped w (.wait seconds) { w with server := w.server.wait seconds }

variable {config chrono serde} {w w' : World} {e : Event} {x : SocketId} {c : Chance}
  {socket : Socket} {phase : Phase} {s s' : Server}

theorem resume_eq_some {α : Type} {t rest : Program Chance Server α}
    (resumed : resume c s t = some (rest, s')) :
    ∃ effect next, t = .step effect next ∧ rest = next c s ∧ s' = effect c s := by
  cases t with
  | done result => cases resumed
  | never => cases resumed
  | step effect next =>
      obtain ⟨rfl, rfl⟩ := Prod.mk.inj (Option.some.inj resumed)
      exact ⟨effect, next, rfl, rfl, rfl⟩

theorem moves_of_next (moved : socket.next chrono serde x c s = some (phase, s')) :
    Moves chrono serde socket.deviceId x c s socket.phase phase s' := by
  obtain ⟨user, d, alive, before⟩ := socket
  cases before with
  | opened pages =>
      obtain ⟨rfl, rfl⟩ := Prod.mk.inj (Option.some.inj moved)
      exact .mark pages
  | setup rest =>
      cases rest with
      | done result =>
          obtain ⟨rfl, rfl⟩ := Prod.mk.inj (Option.some.inj moved)
          exact .ready result
      | never => cases moved
      | step effect next =>
          obtain ⟨rfl, rfl⟩ := Prod.mk.inj (Option.some.inj moved)
          exact .deliver effect next
  | reading => cases moved
  | handling message rest =>
      cases rest with
      | done result =>
          cases result with
          | ok result =>
              obtain ⟨rfl, rfl⟩ := Prod.mk.inj (Option.some.inj moved)
              exact .accept message result
          | error e =>
              obtain ⟨rfl, rfl⟩ := Prod.mk.inj (Option.some.inj moved)
              exact .refuse message e
      | never => cases moved
      | step effect next =>
          obtain ⟨rfl, rfl⟩ := Prod.mk.inj (Option.some.inj moved)
          exact .handle message effect next
  | replying rest =>
      cases rest with
      | done result =>
          obtain ⟨rfl, rfl⟩ := Prod.mk.inj (Option.some.inj moved)
          exact .replied result
      | never => cases moved
      | step effect next =>
          obtain ⟨rfl, rfl⟩ := Prod.mk.inj (Option.some.inj moved)
          exact .reply effect next
  | leaving =>
      obtain ⟨rfl, rfl⟩ := Prod.mk.inj (Option.some.inj moved)
      exact .unregister
  | unregistered =>
      obtain ⟨rfl, rfl⟩ := Prod.mk.inj (Option.some.inj moved)
      exact .abort
  | stopped =>
      obtain ⟨rfl, rfl⟩ := Prod.mk.inj (Option.some.inj moved)
      exact .stop
  | gone => cases moved

theorem step_cases (stepped : step config chrono serde w e = some w') :
    Stepped config chrono serde w e w' := by
  cases e with
  | connect userId d pages =>
      obtain rfl := Option.some.inj stepped
      exact .connect userId d pages
  | receive x incoming =>
      obtain ⟨socket, found, stepped⟩ := Option.bind_eq_some_iff.mp stepped
      split at stepped
      · rename_i reading
        obtain rfl := Option.some.inj stepped
        exact .receive x incoming socket found reading
      · cases stepped
  | run x c =>
      obtain ⟨socket, found, stepped⟩ := Option.bind_eq_some_iff.mp stepped
      obtain ⟨⟨phase, server⟩, moved, stepped⟩ := Option.bind_eq_some_iff.mp stepped
      obtain rfl := Option.some.inj stepped
      exact .run x c socket phase server found (moves_of_next moved)
  | drop x =>
      obtain ⟨socket, found, stepped⟩ := Option.bind_eq_some_iff.mp stepped
      obtain rfl := Option.some.inj stepped
      exact .drop x socket found
  | sinkEnds x =>
      obtain ⟨socket, found, stepped⟩ := Option.bind_eq_some_iff.mp stepped
      split at stepped
      · cases stepped
      · cases stepped
      · obtain rfl := Option.some.inj stepped
        exact .sinkEnds x socket found
  | spawn job =>
      obtain rfl := Option.some.inj stepped
      exact .spawn job
  | work i c =>
      obtain ⟨task, found, stepped⟩ := Option.bind_eq_some_iff.mp stepped
      obtain ⟨⟨rest, server⟩, resumed, stepped⟩ := Option.bind_eq_some_iff.mp stepped
      obtain ⟨effect, next, rfl, rfl, rfl⟩ := resume_eq_some resumed
      obtain rfl := Option.some.inj stepped
      exact .work i c effect next found
  | wait seconds =>
      obtain rfl := Option.some.inj stepped
      exact .wait seconds

theorem fromStr_text (lawful : serde.Lawful) (message : WsMessage) :
    WsMessage.fromStr serde message.text = .ok message := by
  have bytes : Json.utf8 message.text.toList = Json.toVec message.toJson := by
    rw [WsMessage.text, String.toList_ofList, Json.toVec]
  have read : serde.fromSlice (Json.utf8 message.text.toList) = .ok message.toJson := by
    rw [bytes, lawful]
  exact (WsMessage.fromStr_eq_ok read).mpr (WsMessage.ofJson_toJson message)

/-- A socket that waits for a message begins to handle the one it gets. -/
theorem step_receive_text (lawful : serde.Lawful) (message : WsMessage)
    (found : w.sockets[x]? = some socket) (reading : socket.phase = .reading) :
    step config chrono serde w (.receive x (.text message.text)) =
      some (w.move x socket (.handling message
        (handleWsMessage config chrono socket.userId socket.deviceId message).run)) := by
  have received : socket.received config chrono serde (.text message.text) = .handling message
      (handleWsMessage config chrono socket.userId socket.deviceId message).run := by
    rw [Socket.received, fromStr_text lawful]
  rw [step, found]
  change (match socket.phase with
    | .reading => some (w.move x socket (socket.received config chrono serde _))
    | _ => none) = _
  rw [reading, received]

end

section

/-- A property of programs. -/
abbrev OfPrograms := (α : Type) → Program Chance Server α → Prop

/-- The program of a phase, if it has one, has the property. -/
def Phase.Each (P : OfPrograms) : Phase → Prop
  | .setup rest => P Unit rest
  | .handling _ rest => P (Except String Unit) rest
  | .replying rest => P Unit rest
  | _ => True

/-- Every program that is under way has the property. -/
structure World.Each (P : OfPrograms) (w : World) : Prop where
  sockets : ∀ socket ∈ w.sockets, socket.phase.Each P
  tasks : ∀ task ∈ w.tasks, P Unit task

/-- The event is a message that came in. -/
def Parses (serde : SerdeJson) (e : Event) (message : WsMessage) : Prop :=
  ∃ x text, e = .receive x (.text text) ∧ WsMessage.fromStr serde text = .ok message

/-- Every program has the property when it begins. -/
structure Begins (config : AppConfig) (chrono : Chrono) (serde : SerdeJson) (P : OfPrograms)
    (accepted : WsMessage → Prop) : Prop where
  arrival : ∀ pages d, P Unit (arrival chrono serde pages d)
  reply : ∀ d text, P Unit (sendToSelf d text)
  job : ∀ job : Job, P Unit (job.program chrono serde)
  handle : ∀ user d message, accepted message →
    P (Except String Unit) (handleWsMessage config chrono user d message).run

/-- What is left of a program has the property that the program has. -/
def Resumes (P : OfPrograms) (s : Server) : Prop :=
  ∀ α effect next c, P α (.step effect next) → P α (next c s)

variable {config : AppConfig} {chrono : Chrono} {serde : SerdeJson} {P : OfPrograms}
  {accepted : WsMessage → Prop} {w w' : World} {e : Event} {x : SocketId} {c : Chance}
  {socket : Socket}

theorem Phase.Each.moves {d : Uuid} {s s' : Server} {before phase : Phase}
    (begins : Begins config chrono serde P accepted) (resumes : Resumes P s)
    (each : before.Each P) (moves : Moves chrono serde d x c s before phase s') : phase.Each P := by
  cases moves with
  | mark pages => exact begins.arrival pages d
  | deliver effect next => exact resumes _ _ _ c each
  | handle message effect next => exact resumes _ _ _ c each
  | refuse message e => exact begins.reply d e
  | reply effect next => exact resumes _ _ _ c each
  | ready | accept | replied | unregister | abort | stop => trivial

theorem Phase.each_received {incoming : Incoming} (begins : Begins config chrono serde P accepted)
    (may : ∀ message, Parses serde (.receive x incoming) message → accepted message) :
    (socket.received config chrono serde incoming).Each P := by
  cases incoming with
  | text text =>
      rw [Socket.received]
      cases parsed : WsMessage.fromStr serde text with
      | ok message => exact begins.handle _ _ _ (may message ⟨x, text, rfl, parsed⟩)
      | error e => exact begins.reply _ _
  | other | close | error | ended => trivial

/-- A step of the world keeps what each program satisfies from its begin on. -/
theorem World.Each.step (begins : Begins config chrono serde P accepted)
    (resumes : Resumes P w.server) (may : ∀ message, Parses serde e message → accepted message)
    (each : w.Each P) (stepped : Stepped config chrono serde w e w') : w'.Each P := by
  have there {x : SocketId} {socket : Socket} (found : w.sockets[x]? = some socket) :
      socket.phase.Each P := each.sockets socket (List.mem_of_getElem? found)
  have replaced (x : SocketId) (socket : Socket) (phase : socket.phase.Each P) :
      ∀ other ∈ w.sockets.set x socket, other.phase.Each P := by
    intro other member
    rcases List.mem_or_eq_of_mem_set member with old | rfl
    · exact each.sockets other old
    · exact phase
  cases stepped with
  | connect userId d pages =>
      refine ⟨fun socket member => ?_, each.tasks⟩
      rcases List.mem_append.mp member with old | new
      · exact each.sockets socket old
      · obtain rfl := List.mem_singleton.mp new
        trivial
  | receive x incoming socket found reading =>
      exact ⟨replaced x _ (Phase.each_received begins may), each.tasks⟩
  | run x c socket phase server found moves =>
      exact ⟨replaced x _ ((there found).moves begins resumes moves), each.tasks⟩
  | drop x socket found =>
      have phase := there found
      exact ⟨replaced x { socket with alive := false } phase, each.tasks⟩
  | sinkEnds x socket found => exact ⟨each.sockets, each.tasks⟩
  | spawn job =>
      refine ⟨each.sockets, fun task member => ?_⟩
      rcases List.mem_append.mp member with old | new
      · exact each.tasks task old
      · obtain rfl := List.mem_singleton.mp new
        exact begins.job job
  | work i c effect next found =>
      refine ⟨each.sockets, fun task member => ?_⟩
      rcases List.mem_or_eq_of_mem_set member with old | rfl
      · exact each.tasks task old
      · exact resumes _ _ _ c (each.tasks _ (List.mem_of_getElem? found))
  | wait seconds => exact ⟨each.sockets, each.tasks⟩

theorem World.Each.redis (each : w.Each P) (stepped : Stepped config chrono serde w e w') :
    w'.server.redis = w.server.redis ∨ (∃ seconds, w'.server = w.server.wait seconds) ∨
      ∃ α effect next c, P α (.step effect next) ∧ w'.server = effect c w.server := by
  cases stepped with
  | connect | receive | drop | sinkEnds | spawn => exact Or.inl rfl
  | wait seconds => exact Or.inr (Or.inl ⟨seconds, rfl⟩)
  | work i c effect next found =>
      exact Or.inr (Or.inr ⟨_, effect, next, c, each.tasks _ (List.mem_of_getElem? found), rfl⟩)
  | run x c socket phase server found moves =>
      have program := each.sockets socket (List.mem_of_getElem? found)
      obtain ⟨user, d, alive, before⟩ := socket
      cases moves with
      | mark pages => exact Or.inl redis_markOnline
      | stop => exact Or.inl redis_markOnline
      | ready | accept | refuse | replied | unregister | abort => exact Or.inl rfl
      | deliver effect next => exact Or.inr (Or.inr ⟨_, effect, next, c, program, rfl⟩)
      | handle message effect next => exact Or.inr (Or.inr ⟨_, effect, next, c, program, rfl⟩)
      | reply effect next => exact Or.inr (Or.inr ⟨_, effect, next, c, program, rfl⟩)

theorem World.each_start (now : Nat) (db : Db.Tables) : (World.start now db).Each P :=
  ⟨fun socket member => (by cases member), fun task member => (by cases member)⟩

end

end Hysj.Api
