import Hysj.App.WsMessage
import Hysj.Base.Pool
import Hysj.Base.Trail

set_option autoImplicit false

/- The WebSocket client of the app: how it connects, and how it connects again. Its methods run from
one `await` to the next without interruption, and whatever it waits for comes in any order. -/
namespace Hysj.App

open Shared

/-- The fields of the client. A channel and a subscription are named by their socket. -/
structure WsClient where
  channel : Option Nat
  subscription : Option Nat
  disposed : Bool
  shouldReconnect : Bool
  reconnectAttempts : Nat

/-- The stream of a socket can be listened to once. -/
inductive SocketStream where
  | fresh
  | listening
  | spent
deriving DecidableEq

structure Socket where
  /-- the `_doConnect` that has opened it waits until it is ready -/
  awaited : Bool
  stream : SocketStream
deriving DecidableEq

/-- Nobody waits for the socket, and nobody listens to it. -/
def Socket.Done (socket : Socket) : Prop := socket.awaited = false ∧ socket.stream ≠ .listening

/-- The client with all that it waits for, the sockets it has opened, the seconds it has chosen to
wait before connecting again, and what was added to the stream of messages: an error where a frame
could not be read. -/
structure WsWorld where
  client : WsClient
  sockets : List Socket
  /-- calls of `_doConnect` that wait for the access token -/
  tokens : Nat
  timers : Nat
  /-- calls of `disconnect` that wait until the sink is closed -/
  closing : Nat
  waits : List Nat
  messages : List (Option WsIncoming)

/-- What the event loop runs next: a method is called, something comes that was waited for, or a
socket that is listened to has something to tell. -/
inductive WsEvent where
  | connect
  | disconnect
  | dispose
  /-- the access token, if there is one -/
  | token (token : Option String)
  /-- the access token has come, and opening a socket with it throws -/
  | refused
  | ready (x : Nat)
  | failed (x : Nat)
  | timer
  | closed
  | data (x : Nat) (text : String)
  | error (x : Nat)
  | done (x : Nat)
deriving DecidableEq

namespace WsWorld

def start : WsWorld :=
  { client := ⟨none, none, false, false, 0⟩
    sockets := []
    tokens := 0
    timers := 0
    closing := 0
    waits := []
    messages := [] }

/-- `pow(2, _reconnectAttempts - 1).toInt().clamp(1, 30)` -/
def delay (reconnectAttempts : Nat) : Nat := max 1 (min (2 ^ (reconnectAttempts - 1)) 30)

/-- `_doConnect`, up to where it waits for the access token. -/
def doConnect (w : WsWorld) : WsWorld :=
  if w.client.disposed then w else { w with tokens := w.tokens + 1 }

def connect (w : WsWorld) : WsWorld :=
  if w.client.disposed then w
  else
    doConnect { w with
      client := { w.client with shouldReconnect := true, reconnectAttempts := 0 } }

/-- `_scheduleReconnect` -/
def scheduleReconnect (w : WsWorld) : WsWorld :=
  if w.client.disposed ∨ w.client.shouldReconnect = false ∨ 10 ≤ w.client.reconnectAttempts then w
  else
    { w with
      client := { w.client with reconnectAttempts := w.client.reconnectAttempts + 1 }
      timers := w.timers + 1
      waits := w.waits ++ [delay (w.client.reconnectAttempts + 1)] }

def setChannel (w : WsWorld) (channel : Option Nat) : WsWorld :=
  { w with client := { w.client with channel := channel } }

/-- What is caught in `_doConnect`. -/
def caught (w : WsWorld) : WsWorld := (w.setChannel none).scheduleReconnect

/-- A socket is opened. -/
def opened (w : WsWorld) : WsWorld :=
  { w.setChannel (some w.sockets.length) with sockets := w.sockets ++ [⟨true, .fresh⟩] }

/-- `_subscription = _channel!.stream.listen(..)`: it throws without a channel, and where the stream
of the channel was listened to before. -/
def listen (w : WsWorld) : WsWorld :=
  match w.client.channel with
  | none => w.caught
  | some x =>
      match w.sockets[x]? with
      | some ⟨awaited, .fresh⟩ =>
          { w with
            client := { w.client with subscription := some x }
            sockets := w.sockets.set x ⟨awaited, .listening⟩ }
      | _ => w.caught

/-- `_subscription?.cancel()` -/
def cancel (w : WsWorld) : WsWorld :=
  match w.client.subscription with
  | none => w
  | some x =>
      { w with sockets := w.sockets.modify x fun socket => { socket with stream := .spent } }

/-- `_cleanup` -/
def cleanup (w : WsWorld) : WsWorld :=
  { w.cancel with client := { w.client with subscription := none, channel := none } }

/-- `disconnect`, up to where it waits. -/
def disconnect (w : WsWorld) : WsWorld :=
  { w.cancel with
    client := { w.client with shouldReconnect := false, subscription := none }
    closing := w.closing + 1 }

def dispose (w : WsWorld) : WsWorld :=
  { w.cancel with client := { w.client with disposed := true, shouldReconnect := false } }

/-- What is added to the stream of messages, which `dispose` closes. -/
def add (w : WsWorld) (message : Option WsIncoming) : WsWorld :=
  if w.client.disposed then w else { w with messages := w.messages ++ [message] }

def step (jsonDecode : JsonDecoder) (w : WsWorld) : WsEvent → Option WsWorld
  | .connect => some w.connect
  | .disconnect => some w.disconnect
  | .dispose => some w.dispose
  | .token token =>
      if 0 < w.tokens then
        match token with
        | some _ => some { w with tokens := w.tokens - 1 }.opened
        | none => some { w with tokens := w.tokens - 1 }
      else none
  | .refused => if 0 < w.tokens then some { w with tokens := w.tokens - 1 }.caught else none
  | .ready x =>
      match w.sockets[x]? with
      | some ⟨true, stream⟩ =>
          some (listen { w with
            client := { w.client with reconnectAttempts := 0 }
            sockets := w.sockets.set x ⟨false, stream⟩ })
      | _ => none
  | .failed x =>
      match w.sockets[x]? with
      | some ⟨true, stream⟩ => some { w with sockets := w.sockets.set x ⟨false, stream⟩ }.caught
      | _ => none
  | .timer =>
      if 0 < w.timers then
        if w.client.disposed = false ∧ w.client.shouldReconnect then
          some (doConnect { w with timers := w.timers - 1 })
        else some { w with timers := w.timers - 1 }
      else none
  | .closed =>
      if 0 < w.closing then some (setChannel { w with closing := w.closing - 1 } none) else none
  | .data x text =>
      match w.sockets[x]? with
      | some ⟨_, .listening⟩ => some (w.add (WsIncoming.fromJsonString jsonDecode text))
      | _ => none
  | .error x =>
      match w.sockets[x]? with
      | some ⟨_, .listening⟩ => some w.cleanup.scheduleReconnect
      | _ => none
  | .done x =>
      match w.sockets[x]? with
      | some ⟨awaited, .listening⟩ =>
          some { w with sockets := w.sockets.set x ⟨awaited, .spent⟩ }.cleanup.scheduleReconnect
      | _ => none

/-- What each event does, where it can happen. -/
inductive Stepped (jsonDecode : JsonDecoder) (w : WsWorld) : WsEvent → WsWorld → Prop where
  | connect : Stepped jsonDecode w .connect w.connect
  | disconnect : Stepped jsonDecode w .disconnect w.disconnect
  | dispose : Stepped jsonDecode w .dispose w.dispose
  | opened (due : 0 < w.tokens) (token : String) :
      Stepped jsonDecode w (.token (some token)) { w with tokens := w.tokens - 1 }.opened
  | tokenless (due : 0 < w.tokens) :
      Stepped jsonDecode w (.token none) { w with tokens := w.tokens - 1 }
  | refused (due : 0 < w.tokens) :
      Stepped jsonDecode w .refused { w with tokens := w.tokens - 1 }.caught
  | ready {x : Nat} {stream : SocketStream} (found : w.sockets[x]? = some ⟨true, stream⟩) :
      Stepped jsonDecode w (.ready x) (listen { w with
        client := { w.client with reconnectAttempts := 0 }
        sockets := w.sockets.set x ⟨false, stream⟩ })
  | failed {x : Nat} {stream : SocketStream} (found : w.sockets[x]? = some ⟨true, stream⟩) :
      Stepped jsonDecode w (.failed x)
        { w with sockets := w.sockets.set x ⟨false, stream⟩ }.caught
  | fires (due : 0 < w.timers) (undisposed : w.client.disposed = false)
      (again : w.client.shouldReconnect = true) :
      Stepped jsonDecode w .timer (doConnect { w with timers := w.timers - 1 })
  | lapses (due : 0 < w.timers) : Stepped jsonDecode w .timer { w with timers := w.timers - 1 }
  | closed (due : 0 < w.closing) :
      Stepped jsonDecode w .closed (setChannel { w with closing := w.closing - 1 } none)
  | data {x : Nat} {awaited : Bool} (text : String)
      (found : w.sockets[x]? = some ⟨awaited, .listening⟩) :
      Stepped jsonDecode w (.data x text) (w.add (WsIncoming.fromJsonString jsonDecode text))
  | error {x : Nat} {awaited : Bool} (found : w.sockets[x]? = some ⟨awaited, .listening⟩) :
      Stepped jsonDecode w (.error x) w.cleanup.scheduleReconnect
  | done {x : Nat} {awaited : Bool} (found : w.sockets[x]? = some ⟨awaited, .listening⟩) :
      Stepped jsonDecode w (.done x)
        { w with sockets := w.sockets.set x ⟨awaited, .spent⟩ }.cleanup.scheduleReconnect

theorem step_cases {jsonDecode : JsonDecoder} {w w' : WsWorld} {e : WsEvent}
    (stepped : step jsonDecode w e = some w') : Stepped jsonDecode w e w' := by
  cases e with
  | connect => exact Option.some.inj stepped ▸ .connect
  | disconnect => exact Option.some.inj stepped ▸ .disconnect
  | dispose => exact Option.some.inj stepped ▸ .dispose
  | token token =>
      obtain ⟨due, same⟩ := Option.ite_none_right_eq_some.mp stepped
      cases token with
      | some token => exact Option.some.inj same ▸ .opened due token
      | none => exact Option.some.inj same ▸ .tokenless due
  | refused =>
      obtain ⟨due, same⟩ := Option.ite_none_right_eq_some.mp stepped
      exact Option.some.inj same ▸ .refused due
  | ready x =>
      unfold step at stepped
      dsimp only at stepped
      split at stepped
      · rename_i found
        exact Option.some.inj stepped ▸ .ready found
      · cases stepped
  | failed x =>
      unfold step at stepped
      dsimp only at stepped
      split at stepped
      · rename_i found
        exact Option.some.inj stepped ▸ .failed found
      · cases stepped
  | timer =>
      obtain ⟨due, same⟩ := Option.ite_none_right_eq_some.mp stepped
      split at same
      · rename_i on
        exact Option.some.inj same ▸ .fires due on.1 on.2
      · exact Option.some.inj same ▸ .lapses due
  | closed =>
      obtain ⟨due, same⟩ := Option.ite_none_right_eq_some.mp stepped
      exact Option.some.inj same ▸ .closed due
  | data x text =>
      unfold step at stepped
      dsimp only at stepped
      split at stepped
      · rename_i found
        exact Option.some.inj stepped ▸ .data text found
      · cases stepped
  | error x =>
      unfold step at stepped
      dsimp only at stepped
      split at stepped
      · rename_i found
        exact Option.some.inj stepped ▸ .error found
      · cases stepped
  | done x =>
      unfold step at stepped
      dsimp only at stepped
      split at stepped
      · rename_i found
        exact Option.some.inj stepped ▸ .done found
      · cases stepped

/-- What decides how often the client connects: the sockets it has opened or is about to, the
timers, the attempts, the waits it has chosen, and whether it is to connect again at all. -/
structure Counts where
  opened : Nat
  timers : Nat
  attempts : Nat
  waits : List Nat
  on : Bool

def counts (w : WsWorld) : Counts :=
  { opened := w.sockets.length + w.tokens
    timers := w.timers
    attempts := w.client.reconnectAttempts
    waits := w.waits
    on := !w.client.disposed && w.client.shouldReconnect }

/-- One more wait, if the client is to connect again and has not tried ten times. -/
def Counts.schedule (c : Counts) : Counts :=
  if c.on = true ∧ c.attempts < 10 then
    { c with
      timers := c.timers + 1
      attempts := c.attempts + 1
      waits := c.waits ++ [delay (c.attempts + 1)] }
  else c

/-- What an event may do to the counts. -/
inductive Tally (c : Counts) : WsEvent → Counts → Prop where
  | fewer {e : WsEvent} (opened : Nat) (le : opened ≤ c.opened) :
      Tally c e { c with opened := opened }
  | schedules {e : WsEvent} (opened : Nat) (le : opened ≤ c.opened) :
      Tally c e { c with opened := opened }.schedule
  | stops {e : WsEvent} : Tally c e { c with on := false }
  | lapses {e : WsEvent} : Tally c e { c with timers := c.timers - 1 }
  | fires {e : WsEvent} (due : 0 < c.timers) (on : c.on = true) :
      Tally c e { c with timers := c.timers - 1, opened := c.opened + 1 }
  | connects : Tally c .connect { c with opened := c.opened + 1, attempts := 0, on := true }
  | ready {x : Nat} : Tally c (.ready x) { c with attempts := 0 }
  | unheard {x : Nat} : Tally c (.ready x) { c with attempts := 0 }.schedule

section

variable {w w' : WsWorld} {e : WsEvent} {jsonDecode : JsonDecoder} {c c' : Counts}

@[simp] theorem client_cancel : w.cancel.client = w.client := by
  unfold cancel
  split <;> rfl

@[simp] theorem counts_cancel : w.cancel.counts = w.counts := by
  unfold cancel
  split
  · rfl
  · simp [counts]

@[simp] theorem counts_scheduleReconnect : w.scheduleReconnect.counts = w.counts.schedule := by
  unfold scheduleReconnect
  split
  · rename_i none
    have not_due : ¬ (w.counts.on = true ∧ w.counts.attempts < 10) := by
      simp only [counts, Bool.and_eq_true, Bool.not_eq_true']
      rintro ⟨⟨undisposed, again⟩, few⟩
      simp [undisposed, again] at none
      omega
    rw [Counts.schedule, if_neg not_due]
  · rename_i due
    simp only [not_or, Bool.not_eq_true, Bool.not_eq_false, Nat.not_le] at due
    have is_due : w.counts.on = true ∧ w.counts.attempts < 10 := by simp [counts, due]
    rw [Counts.schedule, if_pos is_due]
    rfl

@[simp] theorem counts_setChannel (channel : Option Nat) :
    (w.setChannel channel).counts = w.counts := rfl

@[simp] theorem counts_caught : w.caught.counts = w.counts.schedule := by simp [caught]

@[simp] theorem counts_cleanup : w.cleanup.counts = w.counts := by
  have cancelled : w.cancel.counts = w.counts := counts_cancel
  rw [← cancelled]
  simp [cleanup, counts]

theorem counts_listen : w.listen.counts = w.counts ∨ w.listen.counts = w.counts.schedule := by
  unfold listen
  split
  · exact Or.inr counts_caught
  · split
    · exact Or.inl (by simp [counts])
    · exact Or.inr counts_caught

theorem counts_opened (tokens : 0 < w.tokens) :
    { w with tokens := w.tokens - 1 }.opened.counts = w.counts := by
  simp only [counts, opened, setChannel, List.length_append, List.length_singleton]
  congr 1
  omega

@[simp] theorem counts_set {x : Nat} {socket : Socket} :
    { w with sockets := w.sockets.set x socket }.counts = w.counts := by
  simp [counts]

theorem counts_reset {x : Nat} {socket : Socket} :
    { w with
      client := { w.client with reconnectAttempts := 0 }
      sockets := w.sockets.set x socket }.counts = { w.counts with attempts := 0 } := by
  simp [counts]

theorem tally_step (stepped : step jsonDecode w e = some w') : Tally w.counts e w'.counts := by
  have same : Tally w.counts e w.counts := .fewer _ (Nat.le_refl _)
  have lost : Tally w.counts e w.counts.schedule := .schedules _ (Nat.le_refl _)
  have missed (tokens : 0 < w.tokens) :
      { w with tokens := w.tokens - 1 }.counts.opened ≤ w.counts.opened := by
    simp only [counts]
    omega
  have stops (w' : WsWorld) (is : w'.counts = { w.counts with on := false }) :
      Tally w.counts e w'.counts := by
    rw [is]
    exact .stops
  cases step_cases stepped with
  | connect =>
      unfold connect
      split
      · exact same
      · rename_i undisposed
        have is : (doConnect { w with
            client := { w.client with shouldReconnect := true, reconnectAttempts := 0 } }).counts =
              { w.counts with opened := w.counts.opened + 1, attempts := 0, on := true } := by
          simp [doConnect, counts, undisposed, Nat.add_assoc]
        exact is ▸ .connects
  | disconnect =>
      have cancelled : w.cancel.counts = w.counts := counts_cancel
      refine stops _ ?_
      rw [← cancelled]
      simp [disconnect, counts]
  | dispose =>
      have cancelled : w.cancel.counts = w.counts := counts_cancel
      refine stops _ ?_
      rw [← cancelled]
      simp [dispose, counts]
  | opened due =>
      rw [counts_opened due]
      exact same
  | tokenless due => exact .fewer _ (missed due)
  | refused due =>
      rw [counts_caught]
      exact .schedules _ (missed due)
  | ready =>
      rcases counts_listen (w := { w with
          client := { w.client with reconnectAttempts := 0 }
          sockets := w.sockets.set _ ⟨false, _⟩ }) with heard | unheard
      · rw [heard, counts_reset]
        exact .ready
      · rw [unheard, counts_reset]
        exact .unheard
  | failed =>
      rw [counts_caught, counts_set]
      exact lost
  | fires due undisposed again =>
      have on : w.counts.on = true := by simp [counts, undisposed, again]
      have is : (doConnect { w with timers := w.timers - 1 }).counts =
          { w.counts with timers := w.counts.timers - 1, opened := w.counts.opened + 1 } := by
        simp [doConnect, undisposed, counts, Nat.add_assoc]
      exact is ▸ .fires due on
  | lapses => exact .lapses
  | closed => exact same
  | data =>
      unfold add
      split
      · exact same
      · exact same
  | error =>
      rw [counts_scheduleReconnect, counts_cleanup]
      exact lost
  | done =>
      rw [counts_scheduleReconnect, counts_cleanup, counts_set]
      exact lost

end

/-- The steps at which the client is told to connect. -/
def connects (steps : List (WsWorld × WsEvent × WsWorld)) : Nat :=
  steps.countP fun x => x.2.1 = .connect

def Ready : WsEvent → Bool
  | .ready _ => true
  | _ => false

/-- The steps at which a socket is ready. -/
def readies (steps : List (WsWorld × WsEvent × WsWorld)) : Nat := steps.countP fun x => Ready x.2.1

/-- What may still come of what is under way, and the attempts that are left. -/
def Counts.budget (c : Counts) : Nat := c.opened + c.timers + (10 - c.attempts)

/-- The waits before the first and all further attempts. -/
def schedule : List Nat := (List.range 10).map fun attempts => delay (attempts + 1)

example : schedule = [1, 2, 4, 8, 16, 30, 30, 30, 30, 30] := by decide

section

variable {w w' : WsWorld} {e : WsEvent} {jsonDecode : JsonDecoder} {c c' : Counts}
variable {steps : List (WsWorld × WsEvent × WsWorld)}

theorem Counts.budget_schedule : c.schedule.budget = c.budget := by
  unfold schedule
  split
  · simp only [budget]
    omega
  · rfl

theorem Tally.budget (tally : Tally c e c') :
    c'.budget ≤ c.budget + (if e = .connect then 11 else 0) + if Ready e then 10 else 0 := by
  cases tally with
  | fewer opened le =>
      simp only [Counts.budget]
      omega
  | schedules opened le =>
      rw [Counts.budget_schedule]
      simp only [Counts.budget]
      omega
  | stops =>
      simp only [Counts.budget]
      omega
  | lapses =>
      simp only [Counts.budget]
      omega
  | fires due on =>
      simp only [Counts.budget]
      omega
  | connects =>
      simp only [Counts.budget, if_true]
      omega
  | ready =>
      simp only [Counts.budget, Ready, if_true]
      omega
  | unheard =>
      rw [Counts.budget_schedule]
      simp only [Counts.budget, Ready, if_true]
      omega

/-- The client has not been told to connect. -/
structure Counts.Untouched (c : Counts) : Prop where
  opened : c.opened = 0
  timers : c.timers = 0
  attempts : c.attempts = 0
  off : c.on = false

theorem Counts.schedule_of_off (off : c.on = false) : c.schedule = c :=
  if_neg fun due => by rw [off] at due; cases due.1

theorem Counts.Untouched.fewer {opened : Nat} (untouched : c.Untouched) (le : opened ≤ c.opened) :
    { c with opened := opened }.Untouched := by
  rw [untouched.opened] at le
  exact ⟨Nat.le_zero.mp le, untouched.timers, untouched.attempts, untouched.off⟩

theorem Counts.Untouched.schedule (untouched : c.Untouched) : c.schedule.Untouched := by
  rw [schedule_of_off untouched.off]
  exact untouched

theorem Tally.untouched (tally : Tally c e c') (untouched : c.Untouched) (other : e ≠ .connect) :
    c'.Untouched := by
  have reset : { c with attempts := 0 }.Untouched :=
    ⟨untouched.opened, untouched.timers, rfl, untouched.off⟩
  cases tally with
  | fewer opened le => exact untouched.fewer le
  | schedules opened le => exact (untouched.fewer le).schedule
  | stops => exact ⟨untouched.opened, untouched.timers, untouched.attempts, rfl⟩
  | lapses =>
      have none : c.timers - 1 = 0 := by
        rw [untouched.timers]
      exact ⟨untouched.opened, none, untouched.attempts, untouched.off⟩
  | fires due on =>
      rw [untouched.off] at on
      cases on
  | connects => exact (other rfl).elim
  | ready => exact reset
  | unheard => exact reset.schedule

theorem Tally.first (tally : Tally c .connect c') (untouched : c.Untouched) : c'.budget ≤ 11 := by
  have none {c : Counts} (untouched : c.Untouched) : c.budget = 10 := by
    simp [Counts.budget, untouched.opened, untouched.timers, untouched.attempts]
  cases tally with
  | fewer opened le => simp [none (untouched.fewer le)]
  | schedules opened le => simp [none (untouched.fewer le).schedule]
  | stops => simp [Counts.budget, untouched.opened, untouched.timers, untouched.attempts]
  | lapses => simp [Counts.budget, untouched.opened, untouched.timers, untouched.attempts]
  | fires due on =>
      rw [untouched.timers] at due
      cases due
  | connects => simp [Counts.budget, untouched.opened, untouched.timers]

theorem budget_run (run : Trail (fun w e w' => step jsonDecode w e = some w') start steps w) :
    connects steps = 0 ∧ w.counts.Untouched ∨
      w.counts.budget ≤ 11 * connects steps + 10 * readies steps := by
  induction run with
  | start => exact Or.inl ⟨rfl, rfl, rfl, rfl, rfl⟩
  | @next steps w w' e before stepped ih =>
      have tally := tally_step stepped
      have told : connects (steps ++ [(w, e, w')]) =
          connects steps + if e = .connect then 1 else 0 := by
        simp [connects, List.countP_append, List.countP_cons]
      have ready : readies (steps ++ [(w, e, w')]) = readies steps + if Ready e then 1 else 0 := by
        simp [readies, List.countP_append, List.countP_cons]
      rw [told, ready]
      rcases ih with ⟨none, untouched⟩ | within
      · by_cases is : e = .connect
        · subst is
          have first := tally.first untouched
          rw [if_pos rfl]
          omega
        · rw [if_neg is, none]
          exact Or.inl ⟨rfl, tally.untouched untouched is⟩
      · have grows := tally.budget
        refine Or.inr (Nat.le_trans grows ?_)
        split
        · split <;> omega
        · split <;> omega

theorem schedule_drop {attempts : Nat} (few : attempts < 10) :
    schedule.drop attempts = delay (attempts + 1) :: schedule.drop (attempts + 1) := by
  have inside : attempts < schedule.length := by simpa [schedule] using few
  rw [List.drop_eq_getElem_cons inside]
  simp [schedule]

theorem Counts.waits_schedule :
    c.schedule.waits ++ WsWorld.schedule.drop c.schedule.attempts =
      c.waits ++ WsWorld.schedule.drop c.attempts := by
  unfold schedule
  split
  · rename_i due
    rw [schedule_drop due.2, List.append_assoc, List.singleton_append]
  · rfl

/-- While nothing sets the attempts back, the waits follow the schedule. -/
theorem Tally.waits (tally : Tally c e c') (other : e ≠ .connect) (unready : Ready e = false) :
    c'.waits ++ schedule.drop c'.attempts = c.waits ++ schedule.drop c.attempts := by
  cases tally with
  | fewer opened le => rfl
  | schedules opened le => exact Counts.waits_schedule (c := { c with opened := opened })
  | stops => rfl
  | lapses => rfl
  | fires due on => rfl
  | connects => exact (other rfl).elim
  | ready => cases unready
  | unheard => cases unready

/-- Nothing is scheduled and nothing but what is under way is opened while the client is not to
connect again. -/
theorem Tally.off (tally : Tally c e c') (other : e ≠ .connect) (off : c.on = false) :
    c'.on = false ∧ c'.waits = c.waits ∧ c'.opened ≤ c.opened := by
  cases tally with
  | fewer opened le => exact ⟨off, rfl, le⟩
  | schedules opened le =>
      rw [Counts.schedule_of_off (c := { c with opened := opened }) off]
      exact ⟨off, rfl, le⟩
  | stops => exact ⟨rfl, rfl, Nat.le_refl _⟩
  | lapses => exact ⟨off, rfl, Nat.le_refl _⟩
  | fires due on =>
      rw [off] at on
      cases on
  | connects => exact (other rfl).elim
  | ready => exact ⟨off, rfl, Nat.le_refl _⟩
  | unheard =>
      rw [Counts.schedule_of_off (c := { c with attempts := 0 }) off]
      exact ⟨off, rfl, Nat.le_refl _⟩

theorem waits_run (run : Trail (fun w e w' => step jsonDecode w e = some w') w steps w')
    (none : ∀ x ∈ steps, x.2.1 ≠ .connect ∧ Ready x.2.1 = false) :
    w'.waits ++ schedule.drop w'.client.reconnectAttempts =
      w.waits ++ schedule.drop w.client.reconnectAttempts := by
  refine run.keeps (I := fun w' => w'.waits ++ schedule.drop w'.client.reconnectAttempts = _)
    (C := fun _ e _ => e ≠ .connect ∧ Ready e = false) rfl ?_ none
  intro m e m' stepped ⟨other, unready⟩ same
  exact ((tally_step stepped).waits other unready).trans same

theorem off_run (run : Trail (fun w e w' => step jsonDecode w e = some w') w steps w')
    (none : ∀ x ∈ steps, x.2.1 ≠ .connect) (off : w.counts.on = false) :
    w'.waits = w.waits ∧ w'.counts.opened ≤ w.counts.opened := by
  have kept := run.keeps (I := fun w' => w'.counts.on = false ∧ w'.waits = w.waits ∧
    w'.counts.opened ≤ w.counts.opened) (C := fun _ e _ => e ≠ .connect)
    ⟨off, rfl, Nat.le_refl _⟩ ?_ none
  · exact kept.2
  · intro m e m' stepped other ⟨off, waits, opened⟩
    obtain ⟨off', waits', opened'⟩ := (tally_step stepped).off other off
    exact ⟨off', waits'.trans waits, Nat.le_trans opened' opened⟩

end

/-- Whatever comes in whatever order: each call of `connect` opens at most eleven sockets, and each
socket that is ready makes room for ten more; the waits follow the schedule as long as the client is
not told to connect and no socket is ready; and once it is not to connect again, it opens no sockets
but those it was about to, and waits no more, until it is told to connect. -/
theorem reconnects_bounded {jsonDecode : JsonDecoder} {steps : List (WsWorld × WsEvent × WsWorld)}
    {w : WsWorld} (run : Trail (fun w e w' => step jsonDecode w e = some w') start steps w) :
    w.sockets.length + w.tokens + w.timers ≤ 11 * connects steps + 10 * readies steps ∧
    ∀ later w', Trail (fun w e w' => step jsonDecode w e = some w') w later w' →
      (∀ x ∈ later, x.2.1 ≠ .connect) →
        ((∀ x ∈ later, Ready x.2.1 = false) →
          w'.waits ++ schedule.drop w'.client.reconnectAttempts =
            w.waits ++ schedule.drop w.client.reconnectAttempts) ∧
        (w.client.disposed = true ∨ w.client.shouldReconnect = false → w'.waits = w.waits ∧
          w'.sockets.length + w'.tokens ≤ w.sockets.length + w.tokens) := by
  constructor
  · rcases budget_run run with ⟨-, untouched⟩ | within
    · have none : w.sockets.length + w.tokens = 0 := untouched.opened
      have none' : w.timers = 0 := untouched.timers
      omega
    · have part : w.sockets.length + w.tokens + w.timers ≤ w.counts.budget := Nat.le_add_right _ _
      omega
  · intro later w' after untold
    refine ⟨fun unready => waits_run after fun x member => ⟨untold x member, unready x member⟩, ?_⟩
    intro off
    refine off_run after untold ?_
    rcases off with disposed | ended
    · simp [counts, disposed]
    · simp [counts, ended]

/-- Nothing is under way but that a sink may be about to close. -/
structure Idle (w : WsWorld) : Prop where
  tokens : w.tokens = 0
  timers : w.timers = 0
  sockets : ∀ (y : Nat) (socket : Socket), w.sockets[y]? = some socket → socket.Done

/-- At most one thing is under way. -/
inductive Phase (w : WsWorld) : Prop where
  | idle (idle : w.Idle)
  | token (tokens : w.tokens = 1) (idle : { w with tokens := 0 }.Idle)
  | timer (timers : w.timers = 1) (idle : { w with timers := 0 }.Idle)
  | opening (x : Nat) (tokens : w.tokens = 0) (timers : w.timers = 0) {stream : SocketStream}
      (awaited : w.sockets[x]? = some ⟨true, stream⟩) (unheard : stream ≠ .listening)
      (others : ∀ (y : Nat) (socket : Socket), y ≠ x → w.sockets[y]? = some socket → socket.Done)
      (channel : ∀ y, w.client.channel = some y → y = x)
  | listening (x : Nat) (tokens : w.tokens = 0) (timers : w.timers = 0)
      (listening : w.sockets[x]? = some ⟨false, .listening⟩)
      (others : ∀ (y : Nat) (socket : Socket), y ≠ x → w.sockets[y]? = some socket → socket.Done)
      (subscription : w.client.subscription = some x)

section

variable {w w' : WsWorld} {e : WsEvent} {jsonDecode : JsonDecoder} {x y : Nat} {socket : Socket}
variable {stream : SocketStream} {awaited : Bool}

theorem Idle.scheduled (idle : w.Idle) : w.scheduleReconnect.Phase := by
  unfold scheduleReconnect
  split
  · exact .idle idle
  · have one : w.timers + 1 = 1 := by rw [idle.timers]
    exact .timer one ⟨idle.tokens, rfl, idle.sockets⟩

theorem Idle.caught (idle : w.Idle) : w.caught.Phase :=
  Idle.scheduled ⟨idle.tokens, idle.timers, idle.sockets⟩

theorem Idle.doConnect (idle : w.Idle) : w.doConnect.Phase := by
  unfold WsWorld.doConnect
  split
  · exact .idle idle
  · have one : w.tokens + 1 = 1 := by rw [idle.tokens]
    exact .token one ⟨rfl, idle.timers, idle.sockets⟩

theorem done_set
    (others : ∀ (y : Nat) (socket : Socket), y ≠ x → w.sockets[y]? = some socket → socket.Done)
    (done : socket.Done) (y : Nat) (other : Socket)
    (found : (w.sockets.set x socket)[y]? = some other) : other.Done := by
  rcases of_getElem?_set found with ⟨-, rfl⟩ | ⟨differ, before⟩
  · exact done
  · exact others y other differ before

theorem getElem?_cancel (found : w.cancel.sockets[y]? = some socket) :
    ∃ old, w.sockets[y]? = some old ∧ socket.awaited = old.awaited ∧
      (socket.stream = .spent ∨ socket.stream = old.stream ∧ w.client.subscription ≠ some y) := by
  unfold cancel at found
  split at found
  · rename_i none
    exact ⟨socket, found, rfl, Or.inr ⟨rfl, by rw [none]; exact nofun⟩⟩
  · rename_i x subscribed
    rw [List.getElem?_modify] at found
    obtain ⟨old, there, same⟩ := Option.map_eq_some_iff.mp found
    refine ⟨old, there, ?_⟩
    by_cases is : x = y
    · rw [if_pos is] at same
      subst same
      exact ⟨rfl, Or.inl rfl⟩
    · rw [if_neg is] at same
      subst same
      exact ⟨rfl, Or.inr ⟨rfl, by rw [subscribed]; exact fun other => is (Option.some.inj other)⟩⟩

theorem done_cancel (done : ∀ old, w.sockets[y]? = some old → old.Done)
    (found : w.cancel.sockets[y]? = some socket) : socket.Done := by
  obtain ⟨old, there, awaited, stream⟩ := getElem?_cancel found
  obtain ⟨unawaited, unheard⟩ := done old there
  refine ⟨awaited.trans unawaited, ?_⟩
  rcases stream with finished | ⟨same, -⟩
  · rw [finished]
    exact nofun
  · rw [same]
    exact unheard

theorem tokens_cancel : w.cancel.tokens = w.tokens := by
  unfold cancel
  split <;> rfl

theorem timers_cancel : w.cancel.timers = w.timers := by
  unfold cancel
  split <;> rfl

theorem length_cancel : w.cancel.sockets.length = w.sockets.length := by
  unfold cancel
  split
  · rfl
  · exact List.length_modify _ _ _

/-- A phase in which the subscription is cancelled, and the channel is kept or dropped. -/
theorem Phase.cut (phase : w.Phase) (tokens : w'.tokens = w.tokens) (timers : w'.timers = w.timers)
    (sockets : w'.sockets = w.cancel.sockets)
    (channel : w'.client.channel = w.client.channel ∨ w'.client.channel = none) : w'.Phase := by
  have others {x : Nat}
      (others : ∀ (y : Nat) (socket : Socket), y ≠ x → w.sockets[y]? = some socket → socket.Done)
      (y : Nat) (socket : Socket) (differ : y ≠ x) (found : w'.sockets[y]? = some socket) :
      socket.Done := by
    rw [sockets] at found
    exact done_cancel (fun old => others y old differ) found
  have all (all : ∀ (y : Nat) (socket : Socket),
      w.sockets[y]? = some socket → socket.Done) (y : Nat)
      (socket : Socket) (found : w'.sockets[y]? = some socket) : socket.Done := by
    rw [sockets] at found
    exact done_cancel (all y) found
  cases phase with
  | idle idle => exact .idle ⟨tokens.trans idle.tokens, timers.trans idle.timers, all idle.sockets⟩
  | token one idle =>
      exact .token (tokens.trans one) ⟨rfl, timers.trans idle.timers, all idle.sockets⟩
  | timer one idle =>
      exact .timer (timers.trans one) ⟨tokens.trans idle.tokens, rfl, all idle.sockets⟩
  | opening x none none' awaited unheard rest only =>
      have inside : x < w'.sockets.length := by
        rw [sockets, length_cancel]
        exact (List.getElem?_eq_some_iff.mp awaited).1
      obtain ⟨socket, found⟩ : ∃ socket, w'.sockets[x]? = some socket :=
        ⟨_, List.getElem?_eq_getElem inside⟩
      have cancelled := found
      rw [sockets] at cancelled
      obtain ⟨old, there, waits, streams⟩ := getElem?_cancel cancelled
      obtain rfl := Option.some.inj (awaited.symm.trans there)
      have unheard' : socket.stream ≠ .listening := by
        rcases streams with finished | ⟨same, -⟩
        · rw [finished]
          exact nofun
        · rw [same]
          exact unheard
      have is : w'.sockets[x]? = some ⟨true, socket.stream⟩ := by
        rw [found, ← show socket.awaited = true from waits]
      refine .opening x (tokens.trans none) (timers.trans none') is unheard' (others rest) ?_
      intro y has
      rcases channel with same | dropped
      · exact only y (same ▸ has)
      · rw [dropped] at has
        cases has
  | listening x none none' heard rest subscription =>
      refine .idle ⟨tokens.trans none, timers.trans none', fun y socket found => ?_⟩
      by_cases differ : y = x
      · subst differ
        rw [sockets] at found
        obtain ⟨old, there, waits, streams⟩ := getElem?_cancel found
        obtain rfl := Option.some.inj (heard.symm.trans there)
        rcases streams with finished | ⟨-, other⟩
        · exact ⟨waits, by rw [finished]; exact nofun⟩
        · exact (other subscription).elim
      · exact others rest y socket differ found

/-- What is under way when a socket is listened to, or awaited. -/
theorem Phase.of_listening (phase : w.Phase) (found : w.sockets[x]? = some ⟨awaited, .listening⟩) :
    w.tokens = 0 ∧ w.timers = 0 ∧ w.client.subscription = some x ∧ awaited = false ∧
      ∀ (y : Nat) (socket : Socket), y ≠ x → w.sockets[y]? = some socket → socket.Done := by
  have heard : ¬ Socket.Done ⟨awaited, .listening⟩ := fun done => done.2 rfl
  cases phase with
  | idle idle => exact (heard (idle.sockets x _ found)).elim
  | token _ idle => exact (heard (idle.sockets x _ found)).elim
  | timer _ idle => exact (heard (idle.sockets x _ found)).elim
  | opening y _ _ opened unheard others _ =>
      by_cases same : x = y
      · subst same
        have is := Option.some.inj (opened.symm.trans found)
        exact (unheard (congrArg Socket.stream is)).elim
      · exact (heard (others x _ same found)).elim
  | listening y tokens timers listened others subscription =>
      by_cases same : x = y
      · subst same
        have is := Option.some.inj (found.symm.trans listened)
        exact ⟨tokens, timers, subscription, congrArg Socket.awaited is, others⟩
      · exact (heard (others x _ same found)).elim

theorem Phase.of_awaited (phase : w.Phase) (found : w.sockets[x]? = some ⟨true, stream⟩) :
    w.tokens = 0 ∧ w.timers = 0 ∧ stream ≠ .listening ∧
      (∀ (y : Nat) (socket : Socket), y ≠ x → w.sockets[y]? = some socket → socket.Done) ∧
      ∀ y, w.client.channel = some y → y = x := by
  have waited : ¬ Socket.Done ⟨true, stream⟩ := fun done => by cases done.1
  cases phase with
  | idle idle => exact (waited (idle.sockets x _ found)).elim
  | token _ idle => exact (waited (idle.sockets x _ found)).elim
  | timer _ idle => exact (waited (idle.sockets x _ found)).elim
  | opening y tokens timers opened unheard others channel =>
      by_cases same : x = y
      · subst same
        have is := Option.some.inj (found.symm.trans opened)
        obtain rfl : stream = _ := congrArg Socket.stream is
        exact ⟨tokens, timers, unheard, others, channel⟩
      · exact (waited (others x _ same found)).elim
  | listening y _ _ listened others _ =>
      by_cases same : x = y
      · subst same
        have is := Option.some.inj (found.symm.trans listened)
        cases congrArg Socket.awaited is
      · exact (waited (others x _ same found)).elim

theorem Phase.of_token (phase : w.Phase) (due : 0 < w.tokens) :
    w.tokens - 1 = 0 ∧ w.timers = 0 ∧
      ∀ (y : Nat) (socket : Socket), w.sockets[y]? = some socket → socket.Done := by
  cases phase with
  | idle idle => exact absurd idle.tokens (Nat.ne_of_gt due)
  | token one idle => exact ⟨by omega, idle.timers, idle.sockets⟩
  | timer _ idle => exact absurd idle.tokens (Nat.ne_of_gt due)
  | opening _ none => omega
  | listening _ none => omega

theorem Phase.of_timer (phase : w.Phase) (due : 0 < w.timers) :
    w.tokens = 0 ∧ w.timers - 1 = 0 ∧
      ∀ (y : Nat) (socket : Socket), w.sockets[y]? = some socket → socket.Done := by
  cases phase with
  | idle idle => exact absurd idle.timers (Nat.ne_of_gt due)
  | token _ idle => exact absurd idle.timers (Nat.ne_of_gt due)
  | timer one idle => exact ⟨idle.tokens, by omega, idle.sockets⟩
  | opening _ _ none => omega
  | listening _ _ none => omega

/-- A socket is ready that was the only thing under way: it is listened to if it is still the
channel. -/
theorem phase_listen (tokens : w.tokens = 0) (timers : w.timers = 0)
    (ready : w.sockets[x]? = some ⟨false, stream⟩) (unheard : stream ≠ .listening)
    (others : ∀ (y : Nat) (socket : Socket), y ≠ x → w.sockets[y]? = some socket → socket.Done)
    (channel : ∀ y, w.client.channel = some y → y = x) : w.listen.Phase := by
  have idle : w.Idle := by
    refine ⟨tokens, timers, fun y socket found => ?_⟩
    by_cases same : y = x
    · subst same
      obtain rfl := Option.some.inj (ready.symm.trans found)
      exact ⟨rfl, unheard⟩
    · exact others y socket same found
  unfold listen
  split
  · exact idle.caught
  · rename_i y has
    obtain rfl := channel y has
    split
    · rename_i awaited fresh
      have inside := (List.getElem?_eq_some_iff.mp ready).1
      obtain rfl : false = awaited :=
        congrArg Socket.awaited (Option.some.inj (ready.symm.trans fresh))
      refine .listening y tokens timers (List.getElem?_set_self inside) ?_ rfl
      intro z socket differ found
      rw [List.getElem?_set_ne (Ne.symm differ)] at found
      exact others z socket differ found
    · exact idle.caught

theorem idle_cleanup (tokens : w.tokens = 0) (timers : w.timers = 0)
    (subscription : w.client.subscription = some x)
    (own : ∀ socket, w.sockets[x]? = some socket → socket.awaited = false)
    (others : ∀ (y : Nat) (socket : Socket), y ≠ x → w.sockets[y]? = some socket → socket.Done) :
    w.cleanup.Idle := by
  refine ⟨tokens_cancel.trans tokens, timers_cancel.trans timers, fun y socket found => ?_⟩
  by_cases same : y = x
  · subst same
    obtain ⟨old, there, awaited, streams⟩ := getElem?_cancel (w := w) found
    rcases streams with finished | ⟨-, other⟩
    · exact ⟨awaited.trans (own old there), by rw [finished]; exact nofun⟩
    · exact (other subscription).elim
  · exact done_cancel (w := w) (fun old => others y old same) found

theorem Phase.closed (phase : w.Phase) :
    (setChannel { w with closing := w.closing - 1 } none).Phase := by
  cases phase with
  | idle idle => exact .idle ⟨idle.tokens, idle.timers, idle.sockets⟩
  | token one idle => exact .token one ⟨rfl, idle.timers, idle.sockets⟩
  | timer one idle => exact .timer one ⟨idle.tokens, rfl, idle.sockets⟩
  | opening x tokens timers awaited unheard others _ =>
      exact .opening x tokens timers awaited unheard others nofun
  | listening x tokens timers listening others subscription =>
      exact .listening x tokens timers listening others subscription

/-- A step keeps to one thing at a time, if the client is told to connect only where nothing is
under way. -/
theorem phase_step (stepped : step jsonDecode w e = some w') (told : e = .connect → w.Idle)
    (phase : w.Phase) : w'.Phase := by
  cases step_cases stepped with
  | connect =>
      have idle := told rfl
      unfold connect
      split
      · exact phase
      · exact Idle.doConnect ⟨idle.tokens, idle.timers, idle.sockets⟩
  | disconnect => exact phase.cut tokens_cancel timers_cancel rfl (Or.inl rfl)
  | dispose => exact phase.cut tokens_cancel timers_cancel rfl (Or.inl rfl)
  | opened due =>
      obtain ⟨tokens, timers, done⟩ := phase.of_token due
      refine @Phase.opening _ w.sockets.length tokens timers .fresh ?_ nofun ?_ ?_
      · exact List.getElem?_concat_length
      · intro y socket differ found
        rcases of_getElem?_append found with there | ⟨is, -⟩
        · exact done y socket there
        · exact (differ is).elim
      · intro y has
        exact (Option.some.inj has).symm
  | tokenless due =>
      obtain ⟨tokens, timers, done⟩ := phase.of_token due
      exact .idle ⟨tokens, timers, done⟩
  | refused due =>
      obtain ⟨tokens, timers, done⟩ := phase.of_token due
      exact Idle.caught ⟨tokens, timers, done⟩
  | @ready x stream found =>
      obtain ⟨tokens, timers, unheard, others, channel⟩ := phase.of_awaited found
      have inside := (List.getElem?_eq_some_iff.mp found).1
      have ready : (w.sockets.set x ⟨false, stream⟩)[x]? = some ⟨false, stream⟩ :=
        List.getElem?_set_self inside
      refine phase_listen tokens timers ready unheard ?_ channel
      intro y socket differ there
      rw [List.getElem?_set_ne (Ne.symm differ)] at there
      exact others y socket differ there
  | failed found =>
      obtain ⟨tokens, timers, unheard, others, -⟩ := phase.of_awaited found
      exact Idle.caught ⟨tokens, timers, done_set others ⟨rfl, unheard⟩⟩
  | fires due =>
      obtain ⟨tokens, timers, done⟩ := phase.of_timer due
      exact Idle.doConnect ⟨tokens, timers, done⟩
  | lapses due =>
      obtain ⟨tokens, timers, done⟩ := phase.of_timer due
      exact .idle ⟨tokens, timers, done⟩
  | closed => exact phase.closed
  | data text found =>
      obtain ⟨tokens, timers, subscription, rfl, others⟩ := phase.of_listening found
      unfold add
      split
      · exact phase
      · exact .listening _ tokens timers found others subscription
  | error found =>
      obtain ⟨tokens, timers, subscription, rfl, others⟩ := phase.of_listening found
      refine Idle.scheduled
        (idle_cleanup tokens timers subscription (fun socket there => ?_) others)
      exact congrArg Socket.awaited (Option.some.inj (there.symm.trans found))
  | @done x awaited found =>
      obtain ⟨tokens, timers, subscription, rfl, others⟩ := phase.of_listening found
      refine Idle.scheduled (idle_cleanup (x := x) tokens timers subscription ?_ ?_)
      · intro socket there
        have inside := (List.getElem?_eq_some_iff.mp found).1
        rw [List.getElem?_set_self inside] at there
        exact congrArg Socket.awaited (Option.some.inj there).symm
      · intro y socket differ there
        rw [List.getElem?_set_ne (Ne.symm differ)] at there
        exact others y socket differ there

end

/-- If the client is told to connect only where nothing is under way, then in every state that comes
of it, whatever comes in whatever order, at most one socket is listened to, it is the one the client
would unsubscribe from, and while it is, no other is opened and no timer runs. -/
theorem one_connection {jsonDecode : JsonDecoder} {steps : List (WsWorld × WsEvent × WsWorld)}
    {w : WsWorld} (run : Trail (fun w e w' => step jsonDecode w e = some w') start steps w)
    (told : ∀ x ∈ steps, x.2.1 = .connect → x.1.Idle) :
    ∀ x awaited, w.sockets[x]? = some ⟨awaited, .listening⟩ →
      w.client.subscription = some x ∧ w.tokens = 0 ∧ w.timers = 0 ∧
        ∀ (y : Nat) (socket : Socket), y ≠ x → w.sockets[y]? = some socket → socket.Done := by
  have idle : start.Idle := ⟨rfl, rfl, fun y socket found => by cases found⟩
  have phase : w.Phase := run.keeps (C := fun w e _ => e = .connect → w.Idle) (.idle idle)
    (fun w e w' stepped told phase => phase_step stepped told phase) told
  intro x awaited found
  obtain ⟨tokens, timers, subscription, -, others⟩ := phase.of_listening found
  exact ⟨subscription, tokens, timers, others⟩

/-- The first socket fails, the second is ready. -/
def retried : List WsEvent :=
  [.connect, .token (some "t"), .failed 0, .timer, .token (some "t"), .ready 1]

def retriedWorld : WsWorld :=
  { client := ⟨some 1, some 1, false, true, 0⟩
    sockets := [⟨false, .fresh⟩, ⟨false, .listening⟩]
    tokens := 0
    timers := 0
    closing := 0
    waits := [1]
    messages := [] }

theorem retried_follows : retried.foldlM (step .sample) start = some retriedWorld := by rfl

/-- Later the second socket ends, and a third fails; then the user logs out, and the timer fires. -/
theorem reconnects_bounded_retried : ∃ steps later last w w',
    Trail (fun w e w' => step .sample w e = some w') start steps retriedWorld ∧
      Trail (fun w e w' => step .sample w e = some w') retriedWorld later w ∧
      Trail (fun w e w' => step .sample w e = some w') w.disconnect last w' ∧
      2 ≤ 11 * connects steps + 10 * readies steps ∧
      w.waits ++ schedule.drop w.client.reconnectAttempts = 1 :: schedule ∧
      w'.waits = [1, 1, 2] ∧ w'.sockets.length + w'.tokens ≤ 3 := by
  obtain ⟨steps, run, -⟩ := Trail.of_foldlM retried retried_follows
  obtain ⟨w, w', ended, fired, waits, opened⟩ : ∃ w w', [.error 1, .timer, .token (some "t"),
      .failed 2].foldlM (step .sample) retriedWorld = some w ∧
        step .sample w.disconnect .timer = some w' ∧ w.disconnect.waits = [1, 1, 2] ∧
        w.disconnect.sockets.length + w.disconnect.tokens = 3 := ⟨_, _, rfl, rfl, rfl, rfl⟩
  obtain ⟨later, failing, are⟩ := Trail.of_foldlM _ ended
  have untold : ∀ x ∈ later, x.2.1 ≠ .connect ∧ Ready x.2.1 = false := by
    have all : ∀ e ∈ later.map fun x => x.2.1, e ≠ WsEvent.connect ∧ Ready e = false := by
      rw [are]
      decide
    exact fun x member => all _ (List.mem_map_of_mem member)
  have bounded := reconnects_bounded run
  have scheduled := (bounded.2 later w failing fun x member => (untold x member).1).1
    fun x member => (untold x member).2
  have stopped := (reconnects_bounded (run.append (failing.next (e := .disconnect) rfl))).2 _ _
    (.next .start fired) (by simp)
  obtain ⟨same, few⟩ := stopped.2 (Or.inr rfl)
  exact ⟨steps, later, _, w, w', run, failing, .next .start fired, bounded.1, scheduled,
    same.trans waits, opened ▸ few⟩

theorem one_connection_retried : retriedWorld.client.subscription = some 1 ∧
    ∀ (y : Nat) (socket : Socket),
    y ≠ 1 → retriedWorld.sockets[y]? = some socket → socket.Done := by
  have first :
      Trail (fun w e w' => step .sample w e = some w') start [(start, .connect, start.connect)]
      start.connect := .next .start rfl
  obtain ⟨later, rest, are⟩ := Trail.of_foldlM (f := step .sample) retried.tail
    (show retried.tail.foldlM (step .sample) start.connect = some retriedWorld by rfl)
  have run := first.append rest
  have told : ∀ x ∈ [(start, .connect, start.connect)] ++ later, x.2.1 = .connect → x.1.Idle := by
    intro x member told
    rcases List.mem_append.mp member with old | new
    · rw [List.mem_singleton.mp old]
      exact ⟨rfl, rfl, fun y socket found => by cases found⟩
    · have listed : WsEvent.connect ∈ retried.tail := by
        rw [← are, ← told]
        exact List.mem_map_of_mem new
      exact absurd listed (by decide)
  have all := one_connection run told 1 false rfl
  exact ⟨all.1, all.2.2.2⟩

/-- Who logs out and in again while a timer runs comes to listen to two sockets. -/
example : ([.connect, .token (some "t"), .failed 0, .disconnect, .closed, .connect, .timer,
    .token (some "t"), .ready 1, .token (some "t"), .ready 2].foldlM (step .sample) start).map
      (fun w => w.sockets.map Socket.stream) = some [.fresh, .listening, .listening] := by decide

end WsWorld

end Hysj.App
