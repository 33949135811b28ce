import Hysj.App.ChatService
import Hysj.Base.Trail
import Hysj.Base.Pool

set_option autoImplicit false

/- The messages that the app keeps on the device. Sending and receiving a message wait in several
places, and each goes on whenever what it waits for has come. -/
namespace Hysj.App

open Crypto Dart

/-- A message as it lies in the box of its conversation. -/
structure StoredMessage where
  id : DartString
  text : DartString
  isMe : Bool
  timestamp : String
  senderDeviceId : DartString

/-- The two boxes. What is put into a box is there at once. -/
structure LocalStorage where
  messages : DartString → Option (List StoredMessage)
  lastMessages : DartString → Option DartString

namespace LocalStorage

section

variable {DateTime : Type} (dates : DateTimeText DateTime)

def stored (msg : ChatMessage DateTime) : StoredMessage :=
  { id := msg.id
    text := msg.text
    isMe := msg.isMe
    timestamp := dates.toIso8601String msg.timestamp
    senderDeviceId := msg.senderDeviceId }

/-- Without a value where `DateTime.parse` throws. -/
def restored (m : StoredMessage) : Option (ChatMessage DateTime) := do
  some
    { id := m.id
      text := m.text
      isMe := m.isMe
      timestamp := ← dates.parse m.timestamp
      senderDeviceId := m.senderDeviceId }

/-- `saveMessage`, with the box of messages. -/
def putMessage (recipientUserId : DartString) (msg : ChatMessage DateTime) (box : LocalStorage) :
    LocalStorage :=
  let existing := (box.messages recipientUserId).getD []
  { box with
    messages :=
    Function.update box.messages recipientUserId (some (existing ++ [stored dates msg])) }

/-- `saveMessage`, with the box of last messages. -/
def putLast (recipientUserId : DartString) (msg : ChatMessage DateTime) (box : LocalStorage) :
    LocalStorage :=
  { box with lastMessages := Function.update box.lastMessages recipientUserId (some msg.text) }

/-- Load all messages for a conversation. -/
def loadMessages (recipientUserId : DartString) (box : LocalStorage) :
    Option (List (ChatMessage DateTime)) :=
  ((box.messages recipientUserId).getD []).mapM (restored dates)

variable {dates} {userId u : DartString} {msg : ChatMessage DateTime} {box : LocalStorage}

theorem messages_putMessage : ((box.putMessage dates u msg).messages u).getD [] =
    (box.messages u).getD [] ++ [stored dates msg] := by
  rw [putMessage]
  dsimp only
  rw [Function.update_self, Option.getD_some]

theorem messages_putMessage_of_ne (other : userId ≠ u) :
    (box.putMessage dates userId msg).messages u = box.messages u :=
  Function.update_of_ne (Ne.symm other) _ _

theorem restored_stored (reads : ∀ time, dates.parse (dates.toIso8601String time) = some time)
    (msg : ChatMessage DateTime) : restored dates (stored dates msg) = some msg := by
  rw [restored, stored, reads]
  rfl

theorem restored_append (reads : ∀ time, dates.parse (dates.toIso8601String time) = some time)
    {rows : List StoredMessage} {before saved : List (ChatMessage DateTime)}
    (loaded : rows.mapM (restored dates) = some before) :
    (rows ++ saved.map (stored dates)).mapM (restored dates) = some (before ++ saved) := by
  have each : (saved.map (stored dates)).mapM (restored dates) = some saved := by
    induction saved with
    | nil => rfl
    | cons msg saved ih => simp [restored_stored reads, ih]
  rw [List.mapM_append, loaded, each]
  rfl

end

end LocalStorage

/-- What is sent, or has arrived. -/
inductive ChatJob (DateTime : Type) where
  | incoming (envelope : EncryptedEnvelope DateTime)
  | outgoing (recipientUserId recipientDeviceId text msgId : DartString) (now : DateTime)

/-- What a call waits for: a key that is derived, AES-GCM, either box, and what it does last. -/
inductive ChatPhase (Key DateTime : Type) where
  | keying (myDeviceId : DartString)
  | working (key : Key)
  | saving (userId : DartString) (msg : ChatMessage DateTime)
  | savingLast (userId : DartString) (msg : ChatMessage DateTime)
  | announcing (userId : DartString) (msg : ChatMessage DateTime)
  | finished (userId : DartString) (msg : ChatMessage DateTime)

def ChatPhase.isFinished {Key DateTime : Type} : ChatPhase Key DateTime → Bool
  | .finished _ _ => true
  | _ => false

/-- A call of `_onWsMessage` or `sendMessage` in progress. -/
structure ChatTask (Key DateTime : Type) where
  job : ChatJob DateTime
  phase : ChatPhase Key DateTime

/-- The service with its storage, its calls in progress, and the envelopes it has given to the
socket. -/
structure ChatWorld (Key DateTime : Type) where
  service : ChatService Key DateTime
  storage : LocalStorage
  tasks : List (ChatTask Key DateTime)
  sent : List (EncryptedEnvelope DateTime)

/-- What the event loop runs next. -/
inductive ChatEvent (DateTime : Type) where
  | onWsMessage (msg : WsIncoming)
  | sendMessage (recipientUserId recipientDeviceId text msgId : DartString) (now : DateTime)
  /-- `refreshContacts` has the contacts -/
  | contacts (contacts : List Contact)
  /-- `_buildDeviceMap` has a device -/
  | device (deviceId userId : DartString)
  /-- a call goes on; the nonce is what `encrypt` draws -/
  | run (i : Nat) (nonce : ByteArr 12)

namespace ChatWorld

section

variable {Key DateTime : Type} (c : Cryptography Key) (dates : DateTimeText DateTime)

/-- The device at the other end. -/
def peer : ChatJob DateTime → DartString
  | .incoming envelope => envelope.senderDeviceId
  | .outgoing _ recipientDeviceId _ _ _ => recipientDeviceId

/-- `_getKey`: a key that is there is used, another one is derived. -/
def begin (job : ChatJob DateTime) (w : ChatWorld Key DateTime) : ChatWorld Key DateTime :=
  let myDeviceId := w.service.myDeviceId.getD []
  let phase :=
    match w.service.crypto.keys (peer job) with
    | some key => .working key
    | none => .keying myDeviceId
  { w with tasks := w.tasks ++ [⟨job, phase⟩] }

/-- The message is shown in its conversation. -/
def shows (userId : DartString) (msg : ChatMessage DateTime) (s : ChatService Key DateTime) :
    ChatService Key DateTime :=
  { s with
    conversations := Function.update s.conversations userId (s.conversations userId ++ [msg])
    lastMessages := Function.update s.lastMessages userId (some msg.text) }

/-- What comes of a job once it is encrypted or decrypted: whose conversation it belongs to, the
message, and the envelope that is sent. -/
def outcome (key : Key) (nonce : ByteArr 12) (s : ChatService Key DateTime) :
    ChatJob DateTime → DartString × ChatMessage DateTime × List (EncryptedEnvelope DateTime)
  | .incoming envelope =>
      ((s.deviceToUser envelope.senderDeviceId).getD envelope.senderDeviceId,
        incomingMessage envelope (opened c key envelope.ciphertext), [])
  | .outgoing recipientUserId recipientDeviceId text msgId now =>
      (recipientUserId,
        { id := msgId
          text := text
          isMe := true
          timestamp := now
          senderDeviceId := s.myDeviceId.getD [] },
        [{ senderDeviceId := s.myDeviceId.getD []
           recipientDeviceId := recipientDeviceId
           ciphertext := sealed c key nonce text
           messageType := 1
           messageId := msgId
           timestamp := now
           ttlSeconds := none }])

/-- The notification of a message that has arrived, and its announcement to the screens. -/
def announces (userId : DartString) (msg : ChatMessage DateTime) (s : ChatService Key DateTime) :
    ChatJob DateTime → ChatService Key DateTime
  | .incoming _ =>
      let sender := s.contacts.find? fun contact => ofString contact.userId = userId
      { s with
        notifications := s.notifications ++
          [((sender.map Contact.username).getD "someone", preview msg.text)]
        incomingMessages := s.incomingMessages ++ [msg] }
  | .outgoing _ _ _ _ _ => s

def setPhase (i : Nat) (job : ChatJob DateTime) (phase : ChatPhase Key DateTime)
    (w : ChatWorld Key DateTime) : ChatWorld Key DateTime :=
  { w with tasks := w.tasks.set i ⟨job, phase⟩ }

/-- A call goes on to where it waits next. -/
def goOn (i : Nat) (nonce : ByteArr 12) (task : ChatTask Key DateTime)
    (w : ChatWorld Key DateTime) :
    Option (ChatWorld Key DateTime) :=
  match task with
  | ⟨job, .keying myDeviceId⟩ =>
      let key := deriveKey c myDeviceId (peer job)
      let crypto : CryptoService Key :=
        ⟨Function.update w.service.crypto.keys (peer job) (some key)⟩
      some { w.setPhase i job (.working key) with service := { w.service with crypto := crypto } }
  | ⟨job, .working key⟩ =>
      let (userId, msg, envelopes) := outcome c key nonce w.service job
      some { w.setPhase i job (.saving userId msg) with
        service := shows userId msg w.service
        sent := w.sent ++ envelopes }
  | ⟨job, .saving userId msg⟩ =>
      some { w.setPhase i job (.savingLast userId msg) with
        service := { w.service with saved := w.service.saved ++ [(userId, msg)] }
        storage := w.storage.putMessage dates userId msg }
  | ⟨job, .savingLast userId msg⟩ =>
      some { w.setPhase i job
        (.announcing userId msg) with storage := w.storage.putLast userId msg }
  | ⟨job, .announcing userId msg⟩ =>
      some { w.setPhase i job (.finished userId msg) with
        service := announces userId msg w.service job }
  | ⟨_, .finished _ _⟩ => none

def step (w : ChatWorld Key DateTime) : ChatEvent DateTime → Option (ChatWorld Key DateTime)
  | .onWsMessage msg =>
      if msg.type = "SendMessage" then
        match msg.envelope dates with
        | some (some envelope) => some (begin (.incoming envelope) w)
        | _ => some w
      else some w
  | .sendMessage recipientUserId recipientDeviceId text msgId now =>
      some (begin (.outgoing recipientUserId recipientDeviceId text msgId now) w)
  | .contacts contacts => some { w with service := { w.service with contacts := contacts } }
  | .device deviceId userId =>
      let known := Function.update w.service.deviceToUser deviceId (some userId)
      some { w with service := { w.service with deviceToUser := known } }
  | .run i nonce =>
      match w.tasks[i]? with
      | some task => goOn c dates i nonce task w
      | none => none

end

section

variable {Key DateTime : Type} {c : Cryptography Key} {dates : DateTimeText DateTime}
variable {w w' : ChatWorld Key DateTime} {nonce : ByteArr 12}

/-- So many steps of one call. -/
def goes (c : Cryptography Key) (dates : DateTimeText DateTime) (i : Nat) (nonce : ByteArr 12) :
    Nat → ChatWorld Key DateTime → Option (ChatWorld Key DateTime)
  | 0, w => some w
  | fuel + 1, w => (step c dates w (.run i nonce)).bind (goes c dates i nonce fuel)

theorem goes_succ {i fuel : Nat} {m : ChatWorld Key DateTime} {task : ChatTask Key DateTime}
    (found : w.tasks[i]? = some task) (goesOn : goOn c dates i nonce task w = some m) :
    goes c dates i nonce (fuel + 1) w = goes c dates i nonce fuel m := by
  rw [goes, step]
  simp only [found, goesOn, Option.bind_some]

variable (c dates nonce) in
theorem goes_working {envelope : EncryptedEnvelope DateTime} {key : Key} {i : Nat}
    (found : w.tasks[i]? = some ⟨.incoming envelope, .working key⟩)
    (cached : w.service.crypto.keys envelope.senderDeviceId = some key) :
    ∃ w', goes c dates i nonce 4 w = some w' ∧ w'.service = onEnvelope c envelope w.service := by
  have inside := (List.getElem?_eq_some_iff.mp found).1
  have decrypted (my : DartString) : decrypt c envelope.ciphertext my
      envelope.senderDeviceId w.service.crypto =
        (opened c key envelope.ciphertext, w.service.crypto) := by
    simp only [decrypt, getKey, cached]
  rw [goes_succ found rfl,
    goes_succ (List.getElem?_set_self (by simpa [setPhase] using inside)) rfl,
    goes_succ (List.getElem?_set_self (by simpa [setPhase] using inside)) rfl,
    goes_succ (List.getElem?_set_self (by simpa [setPhase] using inside)) rfl]
  refine ⟨_, rfl, ?_⟩
  simp only [onEnvelope, decrypted]
  rfl

theorem onEnvelope_alone (envelope : EncryptedEnvelope DateTime) : ∃ fuel w',
    goes c dates w.tasks.length nonce fuel (begin (.incoming envelope) w) = some w' ∧
      w'.service = onEnvelope c envelope w.service := by
  cases cached : w.service.crypto.keys envelope.senderDeviceId with
  | some key =>
      have found : (begin (.incoming envelope) w).tasks[w.tasks.length]? =
          some ⟨.incoming envelope, .working key⟩ := by
        simp [begin, peer, cached]
      obtain ⟨w', goes, same⟩ := goes_working c dates nonce found cached
      exact ⟨4, w', goes, same⟩
  | none =>
      have found : (begin (.incoming envelope) w).tasks[w.tasks.length]? =
          some ⟨.incoming envelope, .keying (w.service.myDeviceId.getD [])⟩ := by
        simp [begin, peer, cached]
      have inside := (List.getElem?_eq_some_iff.mp found).1
      let key :=
        deriveKey c (w.service.myDeviceId.getD []) envelope.senderDeviceId
      let crypto : CryptoService Key :=
        ⟨Function.update w.service.crypto.keys envelope.senderDeviceId (some key)⟩
      let m : ChatWorld Key DateTime :=
        { (begin (.incoming envelope) w).setPhase w.tasks.length
          (.incoming envelope) (.working key) with
          service := { w.service with crypto := crypto } }
      have there : m.tasks[w.tasks.length]? = some ⟨.incoming envelope, .working key⟩ :=
        List.getElem?_set_self inside
      obtain ⟨w', goes, same⟩ := goes_working c dates nonce there (Function.update_self _ _ _)
      refine ⟨5, w', ?_, ?_⟩
      · rw [goes_succ found rfl]
        exact goes
      · rw [same]
        simp only [m, crypto, key, onEnvelope, decrypt, getKey, cached, Function.update_self]

theorem onWsMessage_alone (msg : WsIncoming) : ∃ fuel m w',
    step c dates w (.onWsMessage msg) = some m ∧
    goes c dates w.tasks.length nonce fuel m = some w' ∧
      w'.service = onWsMessage c dates msg w.service := by
  by_cases sent : msg.type = "SendMessage"
  swap
  · exact ⟨0, w, w, if_neg sent, rfl, (if_neg sent).symm⟩
  cases envelopes : msg.envelope dates with
  | some found =>
      cases found with
      | some envelope =>
          obtain ⟨fuel, w', goes, same⟩ := onEnvelope_alone (c := c) (w := w) envelope
          refine ⟨fuel, begin (.incoming envelope) w, w', ?_, goes, ?_⟩
          · rw [step, if_pos sent, envelopes]
          · rw [same, onWsMessage, if_pos sent, envelopes]
      | none =>
          refine ⟨0, w, w, ?_, rfl, ?_⟩
          · rw [step, if_pos sent, envelopes]
          · rw [onWsMessage, if_pos sent, envelopes]
  | none =>
      refine ⟨0, w, w, ?_, rfl, ?_⟩
      · rw [step, if_pos sent, envelopes]
      · rw [onWsMessage, if_pos sent, envelopes]

end

section

variable {Key DateTime : Type} {c : Cryptography Key} {dates : DateTimeText DateTime}

/-- The message that a call has shown in the conversation. -/
def shownIn (userId : DartString) (task : ChatTask Key DateTime) : Option (ChatMessage DateTime) :=
  match task.phase with
  | .keying _ => none
  | .working _ => none
  | .saving u msg => if u = userId then some msg else none
  | .savingLast u msg => if u = userId then some msg else none
  | .announcing u msg => if u = userId then some msg else none
  | .finished u msg => if u = userId then some msg else none

/-- The message that a call has saved for the conversation. -/
def savedIn (userId : DartString) (task : ChatTask Key DateTime) : Option (ChatMessage DateTime) :=
  match task.phase with
  | .saving _ _ => none
  | _ => shownIn userId task

/-- Since the first state, what is shown in a conversation and what is saved of it are the messages
of the calls. -/
structure Kept (dates : DateTimeText DateTime) (w₀ w : ChatWorld Key DateTime) (u : DartString) :
    Prop where
  shown : ∃ shown, w.service.conversations u = w₀.service.conversations u ++ shown ∧
    shown.Perm (w.tasks.filterMap (shownIn u))
  saved : ∃ saved : List (ChatMessage DateTime), (w.storage.messages u).getD [] =
      (w₀.storage.messages u).getD [] ++ saved.map (LocalStorage.stored dates) ∧
    saved.Perm (w.tasks.filterMap (savedIn u))

variable {w₀ w w' : ChatWorld Key DateTime} {u userId : DartString} {msg : ChatMessage DateTime}
variable {i : Nat} {job : ChatJob DateTime} {phase phase' : ChatPhase Key DateTime}
variable {nonce : ByteArr 12} {e : ChatEvent DateTime}

theorem kept_same (kept : Kept dates w₀ w u)
    (conversations : w'.service.conversations u = w.service.conversations u)
    (messages : w'.storage.messages u = w.storage.messages u)
    (shows : w'.tasks.filterMap (shownIn u) = w.tasks.filterMap (shownIn u))
    (saves : w'.tasks.filterMap (savedIn u) = w.tasks.filterMap (savedIn u)) :
    Kept dates w₀ w' u := by
  obtain ⟨shown, saved⟩ := kept
  constructor
  · rw [conversations, shows]
    exact shown
  · rw [messages, saves]
    exact saved

theorem conversations_shows (msg : ChatMessage DateTime) (s : ChatService Key DateTime) :
    (shows u msg s).conversations u = s.conversations u ++ [msg] := Function.update_self _ _ _

theorem conversations_shows_of_ne (other : userId ≠ u) (s : ChatService Key DateTime) :
    (shows userId msg s).conversations u = s.conversations u :=
  Function.update_of_ne (Ne.symm other) _ _

theorem kept_begin (kept : Kept dates w₀ w u) : Kept dates w₀ (begin job w) u := by
  refine kept_same kept rfl rfl ?_ ?_
  · unfold begin
    rw [List.filterMap_append]
    cases w.service.crypto.keys (peer job) <;> simp [shownIn]
  · unfold begin
    rw [List.filterMap_append]
    cases w.service.crypto.keys (peer job) <;> simp [savedIn, shownIn]

theorem kept_shows (kept : Kept dates w₀ w u) (found : w.tasks[i]? = some ⟨job, phase⟩)
    (unshown : ∀ u, shownIn u (⟨job, phase⟩ : ChatTask Key DateTime) = none)
    (tasks : w'.tasks = w.tasks.set i ⟨job, .saving userId msg⟩)
    (service : w'.service = shows userId msg w.service) (storage : w'.storage = w.storage) :
    Kept dates w₀ w' u := by
  have unsaved : savedIn u (⟨job, phase⟩ : ChatTask Key DateTime) = none := by
    unfold savedIn
    split
    · rfl
    · exact unshown u
  have saves : w'.tasks.filterMap (savedIn u) = w.tasks.filterMap (savedIn u) := by
    rw [tasks]
    exact filterMap_set_same found (unsaved ▸ rfl)
  by_cases own : userId = u
  · subst own
    obtain ⟨⟨shown, are, perm⟩, saved⟩ := kept
    refine ⟨⟨shown ++ [msg], ?_, ?_⟩, ?_⟩
    · rw [service, conversations_shows, are, List.append_assoc]
    · have new : shownIn userId (⟨job, .saving userId msg⟩ : ChatTask Key DateTime) = some msg := by
        simp [shownIn]
      rw [tasks]
      exact (perm.append_right [msg]).trans (filterMap_set_new found (unshown userId) new).symm
    · rw [storage, saves]
      exact saved
  · refine kept_same kept ?_ (by rw [storage]) ?_ saves
    · rw [service, conversations_shows_of_ne own]
    · rw [tasks]
      refine filterMap_set_same found ?_
      rw [unshown u]
      simp [shownIn, own]

theorem kept_saves (kept : Kept dates w₀ w u)
    (found : w.tasks[i]? = some ⟨job, .saving userId msg⟩)
    (tasks : w'.tasks = w.tasks.set i ⟨job, .savingLast userId msg⟩)
    (service : w'.service.conversations = w.service.conversations)
    (storage : w'.storage = w.storage.putMessage dates userId msg) : Kept dates w₀ w' u := by
  have shows : w'.tasks.filterMap (shownIn u) = w.tasks.filterMap (shownIn u) := by
    rw [tasks]
    exact filterMap_set_same found rfl
  by_cases own : userId = u
  · subst own
    obtain ⟨shown, ⟨saved, are, perm⟩⟩ := kept
    refine ⟨?_, ⟨saved ++ [msg], ?_, ?_⟩⟩
    · rw [service, shows]
      exact shown
    · rw [storage, LocalStorage.messages_putMessage, are, List.map_append, List.append_assoc]
      rfl
    · have new :
          savedIn userId (⟨job, .savingLast userId msg⟩ : ChatTask Key DateTime) = some msg := by
        simp [savedIn, shownIn]
      rw [tasks]
      exact (perm.append_right [msg]).trans (filterMap_set_new found rfl new).symm
  · refine kept_same kept (by rw [service]) ?_ shows ?_
    · rw [storage, LocalStorage.messages_putMessage_of_ne own]
    · rw [tasks]
      refine filterMap_set_same found ?_
      simp [savedIn, shownIn, own]

theorem kept_step (stepped : step c dates w e = some w') (kept : Kept dates w₀ w u) :
    Kept dates w₀ w' u := by
  cases e with
  | onWsMessage msg =>
      unfold step at stepped
      dsimp only at stepped
      split at stepped
      · split at stepped
        · obtain rfl := Option.some.inj stepped
          exact kept_begin kept
        · obtain rfl := Option.some.inj stepped
          exact kept
      · obtain rfl := Option.some.inj stepped
        exact kept
  | sendMessage recipientUserId recipientDeviceId text msgId now =>
      obtain rfl := Option.some.inj stepped
      exact kept_begin kept
  | contacts contacts =>
      obtain rfl := Option.some.inj stepped
      exact kept_same kept rfl rfl rfl rfl
  | device deviceId userId =>
      obtain rfl := Option.some.inj stepped
      exact kept_same kept rfl rfl rfl rfl
  | run i nonce =>
      unfold step at stepped
      dsimp only at stepped
      split at stepped
      swap
      · cases stepped
      rename_i task found
      obtain ⟨job, phase⟩ := task
      cases phase with
      | keying myDeviceId =>
          obtain rfl := Option.some.inj stepped
          exact kept_same kept rfl rfl (filterMap_set_same found rfl) (filterMap_set_same found rfl)
      | working key =>
          obtain rfl := Option.some.inj stepped
          exact kept_shows kept found (fun _ => rfl) rfl rfl rfl
      | saving userId msg =>
          obtain rfl := Option.some.inj stepped
          exact kept_saves kept found rfl rfl rfl
      | savingLast userId msg =>
          obtain rfl := Option.some.inj stepped
          exact kept_same kept rfl rfl (filterMap_set_same found rfl) (filterMap_set_same found rfl)
      | announcing userId msg =>
          obtain rfl := Option.some.inj stepped
          refine kept_same kept ?_ rfl (filterMap_set_same found rfl) (filterMap_set_same found rfl)
          cases job <;> rfl
      | finished userId msg => cases stepped

theorem shownIn_of_finished {task : ChatTask Key DateTime}
    (finished : task.phase.isFinished = true) :
    shownIn u task = savedIn u task := by
  obtain ⟨job, phase⟩ := task
  cases phase with
  | saving userId msg => cases finished
  | _ => rfl

end

/-- Whatever the order in which calls for received and sent messages go on: each message that is
shown in a conversation is that of one call, each message that is saved too, and loading gives what
was loaded before and the messages that were saved since. When all calls have finished, these are
the messages that were shown since, up to their order. -/
theorem messages_kept {Key DateTime : Type} {c : Cryptography Key} {dates : DateTimeText DateTime}
    (reads : ∀ time, dates.parse (dates.toIso8601String time) = some time)
    {steps : List (ChatWorld Key DateTime × ChatEvent DateTime × ChatWorld Key DateTime)}
    {first w : ChatWorld Key DateTime} (fresh : first.tasks = [])
    (run : Trail (fun w e w' => step c dates w e = some w') first steps w) (u : DartString)
    {before : List (ChatMessage DateTime)}
    (loaded : first.storage.loadMessages dates u = some before) :
    ∃ shown saved, w.service.conversations u = first.service.conversations u ++ shown ∧
      w.storage.loadMessages dates u = some (before ++ saved) ∧
      shown.Perm (w.tasks.filterMap (shownIn u)) ∧ saved.Perm (w.tasks.filterMap (savedIn u)) ∧
      ((∀ task ∈ w.tasks, task.phase.isFinished = true) → shown.Perm saved) := by
  have start : Kept dates first first u := by
    constructor
    · exact ⟨[], (List.append_nil _).symm, by rw [fresh]; exact List.Perm.refl _⟩
    · exact ⟨[], (List.append_nil _).symm, by rw [fresh]; exact List.Perm.refl _⟩
  have kept : Kept dates first w u := (run.holds_before (I := fun w => Kept dates first w u) start
    fun w e w' stepped kept => kept_step stepped kept).1
  obtain ⟨⟨shown, shows, perm⟩, ⟨saved, saves, perm'⟩⟩ := kept
  refine ⟨shown, saved, shows, ?_, perm, perm', fun finished => ?_⟩
  · rw [LocalStorage.loadMessages, saves]
    exact LocalStorage.restored_append reads loaded
  · have same : w.tasks.filterMap (shownIn u) = w.tasks.filterMap (savedIn u) :=
      List.filterMap_congr fun task member => shownIn_of_finished (finished task member)
    exact (same ▸ perm).trans perm'.symm

/-- A device on which nothing has happened. -/
def blank : ChatWorld Bytes String where
  service :=
    { crypto := .new
      contacts := []
      conversations := fun _ => []
      lastMessages := fun _ => none
      deviceToUser := fun _ => none
      myDeviceId := some (ofString "a")
      saved := []
      notifications := []
      incomingMessages := [] }
  storage := ⟨fun _ => none, fun _ => none⟩
  tasks := []
  sent := []

/-- Two messages are sent at once, and the second overtakes the first. -/
def overtaking : List (ChatEvent String) :=
  [.sendMessage (ofString "bob") (ofString "b") (ofString "hi") (ofString "m1") "t1",
    .sendMessage (ofString "bob") (ofString "b") (ofString "ho") (ofString "m2") "t2"] ++
    [0, 1, 1, 0, 1, 1, 1, 0, 0, 0].map fun i => .run i (.replicate 12 7)

theorem messages_kept_overtaking : ∃ w : ChatWorld Bytes String,
    (w.service.conversations (ofString "bob")).map ChatMessage.id = [ofString "m2", ofString "m1"] ∧
      ∃ shown saved, w.service.conversations (ofString "bob") = shown ∧
        w.storage.loadMessages .sample (ofString "bob") = some saved ∧ shown.Perm saved := by
  have follows : (overtaking.foldlM (step .sample .sample) blank).map (fun w =>
      ((w.service.conversations (ofString "bob")).map ChatMessage.id,
        w.tasks.map fun task => task.phase.isFinished)) =
        some ([ofString "m2", ofString "m1"], [true, true]) := by rfl
  obtain ⟨w, followed, are⟩ := Option.map_eq_some_iff.mp follows
  obtain ⟨ids, ended⟩ := Prod.mk.inj are
  obtain ⟨steps, run, -⟩ := Trail.of_foldlM overtaking followed
  obtain ⟨shown, saved, shows, loads, -, -, same⟩ :=
    messages_kept (fun _ => rfl) rfl run (ofString "bob") (show _ = some [] from rfl)
  refine ⟨w, ids, shown, saved, shows, loads, same fun task member => ?_⟩
  have all : ∀ b ∈ w.tasks.map fun task => task.phase.isFinished, b = true := by
    rw [ended]
    decide
  exact all _ (List.mem_map_of_mem member)

end ChatWorld

end Hysj.App
