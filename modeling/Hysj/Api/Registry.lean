import Hysj.Api.Sockets

set_option autoImplicit false

/- When a device that is connected can be reached. -/
namespace Hysj.Api

open Crypto Shared Messaging Program

/-- The socket is the one of the device that was opened last. -/
def World.Newest (w : World) (d : Uuid) (x : SocketId) : Prop :=
  (∃ socket, w.sockets[x]? = some socket ∧ socket.deviceId = d) ∧
    ∀ y socket, w.sockets[y]? = some socket → socket.deviceId = d → y ≤ x

/-- The peer is there, and neither the loop nor the channel of the socket has ended. -/
def World.Open (w : World) (x : SocketId) : Prop :=
  ∃ socket, w.sockets[x]? = some socket ∧ socket.alive = true ∧ socket.phase.running = true ∧
    w.server.closed x = false

/-- The socket of the device that was opened last is open. -/
def World.Current (w : World) (d : Uuid) (x : SocketId) : Prop := w.Newest d x ∧ w.Open x

/-- `devices.is_online` -/
def Server.IsOnline (s : Server) (d : Uuid) : Prop :=
  ∃ row ∈ s.db.devices, row.id = d ∧ row.isOnline = true

/-- Every device whose last socket is open and has been set up can be reached through it. -/
def World.Reachable (w : World) : Prop :=
  ∀ d x socket, w.Current d x → w.sockets[x]? = some socket → socket.phase.finishedSetup = true →
    w.server.connections d = some x ∧ w.server.IsOnline d

/-- A sender that is removed, because it was found closed, is not by now the one of a current
socket. -/
def RemovesStale (w : World) (s : Server) : Prop :=
  ∀ d x, w.server.connections d = some x → s.connections d = none → ¬ w.Current d x

/-- The next step of a socket does not undo what another one has set up. -/
def Careful (w : World) (x : SocketId) (c : Chance) (socket : Socket) : Prop :=
  match socket.phase with
  | .opened _ => w.Current socket.deviceId x →
      c.fault = none ∧ ∃ row ∈ w.server.db.devices, row.id = socket.deviceId
  | .leaving => ∀ y, w.server.connections socket.deviceId = some y → ¬ w.Current socket.deviceId y
  | .stopped => c.fault = none → ∀ y other, w.Current socket.deviceId y →
      w.sockets[y]? = some other → other.phase.marked = false
  | .setup (.step effect _) | .replying (.step effect _) => RemovesStale w (effect c w.server)
  | .handling _ (.step effect _) => RemovesStale w (effect c w.server)
  | _ => True

/-- A socket that was overtaken by a newer one of its device is cleaned up before the newer one
is registered and marked online; a sender found closed is removed before a new one takes its place;
and the newest socket can mark its device. -/
def Orderly (w : World) : Event → Prop
  | .run x c => ∀ socket, w.sockets[x]? = some socket → Careful w x c socket
  | .work i c => ∀ effect next, w.tasks[i]? = some (.step effect next) →
      RemovesStale w (effect c w.server)
  | _ => True

/-- What holds in an orderly run. -/
structure Registered (w : World) : Prop where
  entry : ∀ d x, w.Current d x → w.server.connections d = some x
  marked : ∀ d x socket, w.Current d x → w.sockets[x]? = some socket →
    socket.phase.marked = true → w.server.IsOnline d

/-- Every step changes the registry only by removing, and no rows of devices. -/
def Quiet (α : Type) (t : Program Chance Server α) : Prop := Effects (fun _ => True) t

section

variable {config : AppConfig} {chrono : Chrono} {serde : SerdeJson} {w w' : World} {e : Event}
  {x y : SocketId} {c : Chance} {socket : Socket} {s s' : Server} {d d' : Uuid}
    {phase phase' : Phase}

theorem begins_quiet : Begins config chrono serde Quiet fun _ => True where
  arrival pages d := by
    have sends (text : String) : MaySend (fun _ => True) d text := ⟨trivial, trivial⟩
    exact Keeps.bind (effects_deliverPendingMessages (fun _ => trivial) sends) fun _ =>
      effects_deliverPendingWipes sends
  reply d text := Keeps.bind (effects_sendToDevice ⟨trivial, trivial⟩) fun _ => keeps_pure _
  job job := by
    cases job with
    | send d message =>
        exact Keeps.bind (effects_sendToDevice ⟨trivial, trivial⟩) fun _ => keeps_pure _
    | wipeSweep rounds pages =>
        exact Keeps.bind (effects_wipePending (fun _ _ => ⟨trivial, trivial⟩) rounds .zero) fun _ =>
          keeps_pure _
    | expirySweep pages =>
        refine Keeps.bind (effects_onRedis (changes_scanLoop (fun keys _ _ => ?_) pages .zero ()))
          fun _ => keeps_pure _
        refine Keeps.run_forM fun key _ => ?_
        refine Keeps.run_bind (changes_ttl key).attempt fun left => ?_
        split
        · split
          · exact Keeps.run_bind (changes_expire trivial).attempt fun _ => keeps_pure _
          · exact keeps_pure _
        · exact keeps_pure _
  handle user d message _ :=
    (effects_handleWsMessage config chrono user d message).mono fun _ _ does =>
      does.mono fun _ _ => trivial

theorem resumes_quiet (s : Server) : Resumes Quiet s := fun _ _ _ c quiet => (quiet c s).2

theorem of_does (does : Does Effect.apply (fun _ => True) s s') :
    s'.db.devices = s.db.devices ∧ s'.closed = s.closed ∧
      ∀ d, s'.connections d = s.connections d ∨ s'.connections d = none := by
  obtain rfl | ⟨effect, -, rfl⟩ := does
  · exact ⟨rfl, rfl, fun _ => Or.inl rfl⟩
  · cases effect with
    | send d text =>
        simp only [Effect.apply]
        split
        · exact ⟨rfl, rfl, fun _ => Or.inl rfl⟩
        · split
          · exact ⟨rfl, rfl, fun _ => Or.inl rfl⟩
          · exact ⟨rfl, rfl, fun _ => Or.inl rfl⟩
    | disconnect d =>
        refine ⟨rfl, rfl, fun d' => ?_⟩
        by_cases same : d' = d
        · subst same
          exact Or.inr (Function.update_self _ _ _)
        · exact Or.inl (Function.update_of_ne same _ _)
    | push request => exact ⟨rfl, rfl, fun _ => Or.inl rfl⟩
    | store change => exact ⟨rfl, rfl, fun _ => Or.inl rfl⟩
    | pins rows => exact ⟨rfl, rfl, fun _ => Or.inl rfl⟩
    | limit key times => exact ⟨rfl, rfl, fun _ => Or.inl rfl⟩

theorem Server.IsOnline.of_devices (same : s'.db.devices = s.db.devices) (online : s.IsOnline d) :
    s'.IsOnline d := by
  rw [Server.IsOnline, same]
  exact online

theorem isOnline_markOnline_of_ne {online : Bool} (different : d' ≠ d) (is : s.IsOnline d') :
    (markOnline d online c s).IsOnline d' := by
  unfold markOnline
  split
  · exact is
  · obtain ⟨row, member, rfl, on⟩ := is
    refine ⟨row, List.mem_map.mpr ⟨row, member, ?_⟩, rfl, on⟩
    rw [if_neg different]

theorem isOnline_markOnline (is : s.IsOnline d') : (markOnline d true c s).IsOnline d' := by
  by_cases same : d' = d
  · subst same
    unfold markOnline
    split
    · exact is
    · obtain ⟨row, member, rfl, -⟩ := is
      refine ⟨_, List.mem_map.mpr ⟨row, member, rfl⟩, ?_, ?_⟩
      · rw [if_pos rfl]
      · rw [if_pos rfl]
  · exact isOnline_markOnline_of_ne same is

theorem isOnline_of_row (clean : c.fault = none) (there : ∃ row ∈ s.db.devices, row.id = d) :
    (markOnline d true c s).IsOnline d := by
  obtain ⟨row, member, rfl⟩ := there
  rw [markOnline, clean]
  refine ⟨_, List.mem_map.mpr ⟨row, member, rfl⟩, ?_, ?_⟩
  · rw [if_pos rfl]
  · rw [if_pos rfl]

theorem getElem?_set_of_found {α : Type} {items : List α} {a b : α} {x y : Nat}
    (found : items[x]? = some a) : (items.set x b)[y]? = if x = y then some b else items[y]? := by
  rw [List.getElem?_set]
  have inside : x < items.length := (List.getElem?_eq_some_iff.mp found).1
  simp [inside]

/-- No socket opens, and none opens again. -/
structure Ends (w w' : World) : Prop where
  devices :
    ∀ (y : SocketId) (d : Uuid),
    (∃ socket : Socket, w'.sockets[y]? = some socket ∧ socket.deviceId = d) ↔
    ∃ socket : Socket, w.sockets[y]? = some socket ∧ socket.deviceId = d
  opens : ∀ y, w'.Open y → w.Open y

theorem Ends.current (ends : Ends w w') (current : w'.Current d y) : w.Current d y := by
  obtain ⟨⟨there, last⟩, is⟩ := current
  refine ⟨⟨(ends.devices y d).mp there, fun z socket found same => ?_⟩, ends.opens y is⟩
  obtain ⟨socket', found', same'⟩ := (ends.devices z d).mpr ⟨socket, found, same⟩
  exact last z socket' found' same'

theorem ends_of_set {socket' : Socket} (found : w.sockets[x]? = some socket)
    (sockets : w'.sockets = w.sockets.set x socket') (device : socket'.deviceId = socket.deviceId)
    (alive : socket'.alive = true → socket.alive = true)
    (running : socket'.phase.running = true → socket.phase.running = true)
    (closed : ∀ y, w'.server.closed y = false → w.server.closed y = false) : Ends w w' := by
  have get (y : SocketId) : w'.sockets[y]? = if x = y then some socket' else w.sockets[y]? := by
    rw [sockets, getElem?_set_of_found found]
  constructor
  · intro y d
    rw [get y]
    by_cases same : x = y
    · subst same
      simp [found, device]
    · simp [same]
  · rintro y ⟨other, found', lives, runs, is⟩
    rw [get y] at found'
    by_cases same : x = y
    · subst same
      rw [if_pos rfl] at found'
      rw [← Option.some.inj found'] at lives runs
      exact ⟨socket, found, alive lives, running runs, closed x is⟩
    · rw [if_neg same] at found'
      exact ⟨other, found', lives, runs, closed y is⟩

theorem ends_of_same (sockets : w'.sockets = w.sockets)
    (closed : ∀ y, w'.server.closed y = false → w.server.closed y = false) : Ends w w' := by
  constructor
  · intro y d
    rw [sockets]
  · rintro y ⟨other, found, lives, runs, is⟩
    rw [sockets] at found
    exact ⟨other, found, lives, runs, closed y is⟩

theorem closed_of_close (is : (s.close x).closed y = false) : s.closed y = false := by
  have after : (s.close x).closed y = Function.update s.closed x true y := rfl
  rw [after] at is
  by_cases same : y = x
  · subst same
    rw [Function.update_self] at is
    cases is
  · rwa [Function.update_of_ne same] at is

theorem Moves.ends (quiet : socket.phase.Each Quiet)
    (moves : Moves chrono serde d x c s socket.phase phase s') :
    (phase.running = true → socket.phase.running = true) ∧
      ∀ y, s'.closed y = false → s.closed y = false := by
  generalize socket.phase = before at quiet moves
  cases moves with
  | mark pages => exact ⟨fun _ => rfl, fun y is => by rwa [closed_markOnline] at is⟩
  | deliver effect next =>
      exact ⟨fun _ => rfl, fun y is => by rwa [(of_does (quiet c s).1).2.1] at is⟩
  | handle message effect next =>
      exact ⟨fun _ => rfl, fun y is => by rwa [(of_does (quiet c s).1).2.1] at is⟩
  | reply effect next =>
      exact ⟨fun _ => rfl, fun y is => by rwa [(of_does (quiet c s).1).2.1] at is⟩
  | ready | accept | refuse | replied => exact ⟨fun _ => rfl, fun _ is => is⟩
  | unregister => exact ⟨fun runs => runs, fun _ is => is⟩
  | abort => exact ⟨fun runs => runs, fun _ is => closed_of_close is⟩
  | stop => exact ⟨fun runs => runs, fun y is => by rwa [closed_markOnline] at is⟩

theorem Registered.connect (registered : Registered w) (user d : Uuid) (pages : Nat) :
    Registered { w with
      server := w.server.connect d w.sockets.length
      sockets := w.sockets ++ [⟨user, d, true, .opened pages⟩] } := by
  -- the new socket is the newest of its device, and the others are as they were
  have old {d' : Uuid} {y : SocketId} {socket : Socket} (other : d' ≠ d)
      (found : (w.sockets ++ [⟨user, d, true, .opened pages⟩])[y]? = some socket)
      (device : socket.deviceId = d') : w.sockets[y]? = some socket := by
    by_cases before : y < w.sockets.length
    · rwa [List.getElem?_append_left before] at found
    · rw [List.getElem?_append_right (Nat.not_lt.mp before)] at found
      obtain rfl := List.mem_singleton.mp (List.mem_of_getElem? found)
      exact absurd device.symm other
  have newer {d' : Uuid} {y : SocketId} (other : d' ≠ d) (current : World.Current { w with
      server := w.server.connect d w.sockets.length
      sockets := w.sockets ++ [⟨user, d, true, .opened pages⟩] } d' y) : w.Current d' y := by
    obtain ⟨⟨⟨socket, found, device⟩, last⟩, ⟨socket', found', lives, runs, is⟩⟩ := current
    have there := old other found device
    obtain rfl := Option.some.inj (found.symm.trans found')
    refine ⟨⟨⟨socket, there, device⟩, fun z socket found same => ?_⟩,
      ⟨socket, there, lives, runs, is⟩⟩
    apply last z socket _ same
    rw [List.getElem?_append_left (List.getElem?_eq_some_iff.mp found).1, found]
  have itself {y : SocketId} (current : World.Newest { w with
      server := w.server.connect d w.sockets.length
      sockets := w.sockets ++ [⟨user, d, true, .opened pages⟩] } d y) : y = w.sockets.length := by
    obtain ⟨⟨socket, found, device⟩, last⟩ := current
    have inside : y < (w.sockets ++ [Socket.mk user d true (.opened pages)]).length :=
      (List.getElem?_eq_some_iff.mp found).1
    have above := last w.sockets.length ⟨user, d, true, .opened pages⟩ (by simp) rfl
    rw [List.length_append, List.length_singleton] at inside
    exact Nat.le_antisymm (Nat.lt_succ_iff.mp inside) above
  constructor
  · intro d' y current
    by_cases same : d' = d
    · subst same
      rw [itself current.1]
      exact Function.update_self _ _ _
    · rw [← registered.entry d' y (newer same current)]
      exact Function.update_of_ne same _ _
  · intro d' y socket current found marked
    by_cases same : d' = d
    · subst same
      rw [itself current.1] at found
      obtain rfl : ⟨user, d', true, .opened pages⟩ = socket := by simpa using found
      cases marked
    · have before := newer same current
      obtain ⟨⟨⟨socket', found', device⟩, -⟩, -⟩ := before
      have inside := (List.getElem?_eq_some_iff.mp found').1
      have there : w.sockets[y]? = some socket := by
        rwa [List.getElem?_append_left inside] at found
      exact registered.marked d' y socket (newer same current) there marked

/-- A careful step of a socket takes no entry of a current socket away. -/
theorem Moves.entry (quiet : socket.phase.Each Quiet) (careful : Careful w x c socket)
    (moves : Moves chrono serde socket.deviceId x c w.server socket.phase phase s')
    (current : w.Current d y) (entry : w.server.connections d = some y) :
    s'.connections d = some y := by
  obtain ⟨user, device, alive, before⟩ := socket
  have kept (does : Does Effect.apply (fun _ => True) w.server s') (stale : RemovesStale w s') :
      s'.connections d = some y := by
    rcases (of_does does).2.2 d with same | gone
    · rw [same, entry]
    · exact absurd current (stale d y entry gone)
  cases moves with
  | mark pages => rw [connections_markOnline, entry]
  | deliver effect next => exact kept (quiet c _).1 careful
  | handle message effect next => exact kept (quiet c _).1 careful
  | reply effect next => exact kept (quiet c _).1 careful
  | ready | accept | refuse | replied | abort => exact entry
  | stop => rw [connections_markOnline, entry]
  | unregister =>
      by_cases same : d = device
      · subst same
        exact absurd current (careful y entry)
      · rw [← entry]
        exact Function.update_of_ne same _ _

theorem Moves.online {other : Socket} (quiet : socket.phase.Each Quiet)
    (careful : Careful w x c socket)
    (moves : Moves chrono serde socket.deviceId x c w.server socket.phase phase s')
    (current : w.Current d y) (found : w.sockets[y]? = some other)
    (marked : other.phase.marked = true)
    (online : w.server.IsOnline d) : s'.IsOnline d := by
  obtain ⟨user, device, alive, before⟩ := socket
  cases moves with
  | mark pages => exact isOnline_markOnline online
  | deliver effect next => exact online.of_devices (of_does (quiet c _).1).1
  | handle message effect next => exact online.of_devices (of_does (quiet c _).1).1
  | reply effect next => exact online.of_devices (of_does (quiet c _).1).1
  | ready | accept | refuse | replied | unregister | abort => exact online
  | stop =>
      by_cases same : d = device
      · subst same
        cases fault : c.fault with
        | some e =>
            rw [markOnline, fault]
            exact online
        | none =>
            have unmarked := careful fault y other current found
            rw [marked] at unmarked
            cases unmarked
      · exact isOnline_markOnline_of_ne same online

theorem Registered.run (registered : Registered w) (quiet : w.Each Quiet)
    (found : w.sockets[x]? = some socket) (careful : Careful w x c socket)
    (moves : Moves chrono serde socket.deviceId x c w.server socket.phase phase s') :
    Registered { w.move x socket phase with server := s' } := by
  have program := quiet.sockets socket (List.mem_of_getElem? found)
  have ends : Ends w { w.move x socket phase with server := s' } :=
    ends_of_set found rfl rfl id (moves.ends program).1 (moves.ends program).2
  constructor
  · intro d y current
    have before := ends.current current
    exact moves.entry program careful before (registered.entry d y before)
  · intro d y other current found' marked
    have before := ends.current current
    have get : ({ w.move x socket phase with server := s' } : World).sockets[y]? =
        if x = y then some { socket with phase := phase } else w.sockets[y]? :=
      getElem?_set_of_found found
    rw [get] at found'
    by_cases same : x = y
    · subst same
      rw [if_pos rfl] at found'
      rw [← Option.some.inj found'] at marked
      obtain ⟨⟨there, found'', device⟩, -⟩ := before.1
      obtain rfl := Option.some.inj (found.symm.trans found'')
      subst device
      by_cases already : socket.phase.marked = true
      · exact moves.online program careful before found already
          (registered.marked _ _ socket before found already)
      · -- the socket has just marked its device
        obtain ⟨user, d, alive, phase'⟩ := socket
        cases moves with
        | mark pages =>
            obtain ⟨clean, row⟩ := careful before
            exact isOnline_of_row clean row
        | deliver | handle | reply | ready | accept | refuse | replied => exact absurd rfl already
        | unregister | abort | stop => cases marked
    · rw [if_neg same] at found'
      exact moves.online program careful before found' marked
        (registered.marked d y other before found' marked)

/-- A socket that is put in another's place does not mark more. -/
theorem marked_of_set {socket' : Socket} {y : SocketId} {other : Socket}
    (found : w.sockets[x]? = some socket)
    (marks : socket'.phase.marked = true → socket.phase.marked = true)
    (found' : (w.sockets.set x socket')[y]? = some other) (marked : other.phase.marked = true) :
    ∃ before, w.sockets[y]? = some before ∧ before.phase.marked = true := by
  rw [getElem?_set_of_found found] at found'
  by_cases same : x = y
  · rw [if_pos same] at found'
    obtain rfl := Option.some.inj found'
    exact ⟨socket, same ▸ found, marks marked⟩
  · rw [if_neg same] at found'
    exact ⟨other, found', marked⟩

/-- A step that leaves the rows of devices and the entries of current sockets. -/
theorem Registered.of_ends (registered : Registered w) (ends : Ends w w')
    (entry : ∀ d y, w.Current d y → w.server.connections d = some y →
      w'.server.connections d = some y)
    (devices : w'.server.db.devices = w.server.db.devices)
    (marked : ∀ y socket, w'.Open y → w'.sockets[y]? = some socket → socket.phase.marked = true →
      ∃ before, w.sockets[y]? = some before ∧ before.phase.marked = true) : Registered w' := by
  constructor
  · intro d y current
    have before := ends.current current
    exact entry d y before (registered.entry d y before)
  · intro d y socket current found is
    obtain ⟨other, found', was⟩ := marked y socket current.2 found is
    exact (registered.marked d y other (ends.current current) found' was).of_devices devices

theorem Registered.step (registered : Registered w) (quiet : w.Each Quiet) (orderly : Orderly w e)
    (stepped : Stepped config chrono serde w e w') : Registered w' := by
  cases stepped with
  | connect user d pages => exact registered.connect user d pages
  | run x c socket phase server found moves =>
      exact registered.run quiet found (orderly socket found) moves
  | receive x incoming socket found reading =>
      have runs : socket.phase.running = true := by rw [reading]; rfl
      have marks : socket.phase.marked = true := by rw [reading]; rfl
      exact registered.of_ends (ends_of_set found rfl rfl id (fun _ => runs) fun _ is => is)
        (fun _ _ _ is => is) rfl fun _ _ _ => marked_of_set found fun _ => marks
  | drop x socket found =>
      have alive : ({ socket with alive := false } : Socket).alive = true → socket.alive = true :=
        fun is => Bool.noConfusion is
      exact registered.of_ends (ends_of_set found rfl rfl alive id fun _ is => is)
        (fun _ _ _ is => is) rfl fun _ _ _ => marked_of_set found id
  | sinkEnds x socket found =>
      exact registered.of_ends (ends_of_same rfl fun _ is => closed_of_close is)
        (fun _ _ _ is => is) rfl fun y other _ found' marked => ⟨other, found', marked⟩
  | spawn job =>
      exact registered.of_ends (ends_of_same rfl fun _ is => is) (fun _ _ _ is => is) rfl
        fun y other _ found' marked => ⟨other, found', marked⟩
  | work i c effect next found =>
      have program := (quiet.tasks _ (List.mem_of_getElem? found) c w.server).1
      obtain ⟨devices, closed, connections⟩ := of_does program
      refine registered.of_ends (ends_of_same rfl fun y is => by rwa [closed] at is) ?_ devices
        fun y other _ found' marked => ⟨other, found', marked⟩
      intro d y current entry
      rcases connections d with same | gone
      · rw [same, entry]
      · exact absurd current (orderly effect next found d y entry gone)
  | wait seconds =>
      exact registered.of_ends (ends_of_same rfl fun _ is => is) (fun _ _ _ is => is) rfl
        fun y other _ found' marked => ⟨other, found', marked⟩

theorem Phase.marked_of_finishedSetup (finished : phase.finishedSetup = true) :
    phase.marked = true := by
  cases phase with
  | reading | handling | replying => rfl
  | opened | setup | leaving | unregistered | stopped | gone => cases finished

/-- In a run of orderly steps from the start, every device whose last socket is open and has been
set up can be reached through it, and is marked online. -/
theorem reachable_of_orderly {now : Nat} {db : Db.Tables}
    (reached : Reached config chrono serde Orderly (.start now db) w) : w.Reachable := by
  have holds : Registered w ∧ w.Each Quiet := by
    induction reached with
    | start =>
        refine ⟨⟨?_, ?_⟩, World.each_start now db⟩
        · rintro d x ⟨⟨⟨socket, found, -⟩, -⟩, -⟩
          cases found
        · rintro d x socket - found
          cases found
    | step before may next ih =>
        have stepped := step_cases next
        exact ⟨ih.1.step ih.2 may stepped,
          World.Each.step begins_quiet (resumes_quiet _) (fun _ _ => trivial) ih.2 stepped⟩
  intro d x socket current found finished
  refine ⟨holds.1.entry d x current, holds.1.marked d x socket current found ?_⟩
  exact Phase.marked_of_finishedSetup finished

theorem removesStale_of_same (same : s.connections = w.server.connections) : RemovesStale w s := by
  intro d x entry gone
  rw [same, entry] at gone
  cases gone

theorem careful_leaving (found : w.sockets[x]? = some socket) (leaving : socket.phase = .leaving)
    (own : w.server.connections socket.deviceId = some x) : Careful w x c socket := by
  unfold Careful
  rw [leaving]
  rintro y entry ⟨-, socket', found', -, running, -⟩
  obtain rfl := Option.some.inj (own.symm.trans entry)
  obtain rfl := Option.some.inj (found.symm.trans found')
  rw [leaving] at running
  cases running

variable {w₀ : World} {tasks : List (Program Chance Server Unit)}
variable {u : Uuid} {now : Nat}

theorem Reached.run_last (sockets : List Socket)
    (reached : Reached config chrono serde Orderly w₀ ⟨s, sockets ++ [⟨u, d, true, phase⟩], tasks⟩)
    (next : (Socket.mk u d true phase).next chrono serde sockets.length c s = some (phase', s'))
    (careful : Careful ⟨s, sockets ++ [⟨u, d, true, phase⟩], tasks⟩ sockets.length c
      ⟨u, d, true, phase⟩) :
    Reached config chrono serde Orderly w₀ ⟨s', sockets ++ [⟨u, d, true, phase'⟩], tasks⟩ := by
  have last : (sockets ++ [Socket.mk u d true phase])[sockets.length]? = some ⟨u, d, true, phase⟩ :=
    List.getElem?_concat_length
  refine reached.step (e := .run sockets.length c) (fun socket found => ?_) ?_
  · obtain rfl := Option.some.inj (last.symm.trans found)
    exact careful
  · simp only [Api.step, last, next, Option.bind_eq_bind, Option.bind_some, World.move,
      List.set_append_right _ _ (Nat.le_refl _), Nat.sub_self, List.set_cons_zero]

/-- A device for which nothing waits connects, and its socket is set up. -/
theorem Reached.connected {sockets : List Socket}
    (reached : Reached config chrono serde Orderly w₀ ⟨s, sockets, tasks⟩)
    (idle : s.redis = (Server.start now {}).redis) (row : ∃ row ∈ s.db.devices, row.id = d) :
    Reached config chrono serde Orderly w₀
      ⟨markOnline d true {} (s.connect d sockets.length), sockets ++ [⟨u, d, true, .reading⟩],
        tasks⟩ := by
  have opened := reached.step (e := .connect u d 1) trivial rfl
  have marked := opened.run_last _ (c := {}) rfl fun _ => ⟨rfl, row⟩
  obtain ⟨redis, db, connections, closed, sent, pushed, rateLimiter⟩ := s
  obtain rfl : redis = .empty now := idle
  have delivered := marked.run_last _ (c := {}) rfl (removesStale_of_same rfl)
  have wiped := delivered.run_last _ (c := {}) rfl (removesStale_of_same rfl)
  exact wiped.run_last _ (c := {}) rfl trivial

theorem Reached.left (reached : Reached config chrono serde Orderly w₀
      ⟨s, [⟨u, d, true, .reading⟩], tasks⟩) (own : s.connections d = some 0) :
    Reached config chrono serde Orderly w₀
      ⟨markOnline d false {} ((s.remove d).close 0), [⟨u, d, true, .gone⟩], tasks⟩ := by
  have closed := reached.step (e := .receive 0 .close) trivial rfl
  have removed := closed.run_last [] (c := {}) rfl (careful_leaving rfl rfl own)
  have stopped := removed.run_last [] (c := {}) rfl trivial
  refine stopped.run_last [] (c := {}) rfl fun _ y other _ found => ?_
  have inside := (List.getElem?_eq_some_iff.mp found).1
  obtain rfl : y = 0 := Nat.lt_one_iff.mp inside
  obtain rfl := Option.some.inj found
  rfl

end

/-- User 2 opens a socket with device 1, which ends, and then another one, which stays. -/
theorem reachable_of_orderly_again :
    ∃ w : World, w.Reachable ∧ w.Current (.replicate 16 1) 1 ∧
      w.server.connections (.replicate 16 1) = some 1 := by
  have begun := @Reached.start ⟨none, ""⟩ Chrono.sample SerdeJson.sample Orderly
    (.start 0 { devices := [.sample (.replicate 16 1) (.replicate 16 2)] })
  have first := begun.connected (u := .replicate 16 2) rfl ⟨_, List.mem_singleton_self _, rfl⟩
  have ended := first.left rfl
  have second := ended.connected (u := .replicate 16 2) rfl ⟨_, List.mem_singleton_self _, rfl⟩
  refine ⟨_, reachable_of_orderly second, ⟨⟨⟨_, rfl, rfl⟩, fun y socket found _ => ?_⟩,
    ⟨_, rfl, rfl, rfl, rfl⟩⟩, rfl⟩
  exact Nat.lt_succ_iff.mp (List.getElem?_eq_some_iff.mp found).1

/-- User 2 opens a socket with device 1, and another one; then the first ends. -/
def reconnect : List Event :=
  [.connect (.replicate 16 2) (.replicate 16 1) 1, .run 0 {}, .run 0 {}, .run 0 {}, .run 0 {},
    .connect (.replicate 16 2) (.replicate 16 1) 1, .run 1 {}, .run 1 {}, .run 1 {}, .run 1 {},
    .receive 0 .close, .run 0 {}]

/-- The clean-up of the old socket has removed the sender of the new one. -/
theorem reconnect_unreachable :
    ∃ w, Reached ⟨none, ""⟩ Chrono.sample SerdeJson.sample (fun _ _ => True)
        (.start 0 { devices := [.sample (.replicate 16 1) (.replicate 16 2)] }) w ∧
      ¬ w.Reachable := by
  have ends : (follow ⟨none, ""⟩ Chrono.sample SerdeJson.sample
      (.start 0 { devices := [.sample (.replicate 16 1) (.replicate 16 2)] })
      reconnect).isSome := rfl
  refine ⟨_,
    reached_follow (fun _ _ _ => trivial) .start (Option.some_get ends).symm, fun reachable => ?_⟩
  have two : (Option.get _ ends).sockets.length = 2 := rfl
  have newest : (Option.get _ ends).Newest (.replicate 16 1) 1 := by
    refine ⟨⟨_, rfl, rfl⟩, fun y socket found _ => ?_⟩
    have inside := (List.getElem?_eq_some_iff.mp found).1
    rw [two] at inside
    exact Nat.lt_succ_iff.mp inside
  have open_ : (Option.get _ ends).Open 1 := ⟨_, rfl, rfl, rfl, rfl⟩
  have gone : (Option.get _ ends).server.connections (.replicate 16 1) = none := rfl
  obtain ⟨entry, -⟩ := reachable _ 1 _ ⟨newest, open_⟩ rfl rfl
  rw [gone] at entry
  cases entry

end Hysj.Api
