import Hysj.Api.Sockets

set_option autoImplicit false

/- How long a queued message can be read. -/
namespace Hysj.Api

open Crypto Shared Messaging Program

/-- The key is one of a queued message. -/
def isMsg (key : String) : Bool := hasPrefix "msg:" key

/-- Every queued message expires within 72 hours of its storage. -/
def Bounded (r : Redis) : Prop :=
  ∀ key e, isMsg key = true → r.peek key = some e →
    ∃ t, e.expiresAt = some t ∧ t ≤ e.storedAt + MESSAGE_TTL_SECONDS.toNat

/-- The change gives no queued message a longer lifetime, and no other lifetime later. -/
def Brief : Change → Prop
  | .set key _ ttl => isMsg key = true → ttl ≤ MESSAGE_TTL_SECONDS.toNat
  | .del _ => True
  | .expire key _ => isMsg key = false

def briefEffects : Effect → Prop
  | .store change => Brief change
  | _ => True

/-- The message, if it is one to be queued, does not ask for more than 72 hours. -/
def Short (message : WsMessage) : Prop :=
  ∀ envelope,
    (message = .sendMessage envelope ∨ ∃ group, message = .sendGroupMessage group envelope) →
    messageTtl envelope ≤ MESSAGE_TTL_SECONDS

/-- Every message that comes in is short. -/
def ShortLived (serde : SerdeJson) (_ : World) (e : Event) : Prop :=
  ∀ message, Parses serde e message → Short message

/-- A program that keeps the bound, whatever the others do that keep it. -/
def Keeping (α : Type) (t : Program Chance Server α) : Prop :=
  Secures (fun _ _ => True) (fun s => Bounded s.redis) (fun _ _ => True) (fun _ => True) t

section

variable {r : Redis} {key : String} {value : Bytes} {α : Type} {s s' : Server}

theorem isMsg_msgKey (d : Uuid) (id : String) : isMsg (msgKey d id) = true := by
  apply hasPrefix_iff.mpr
  refine ⟨d.display ++ ":" ++ id, String.toList_inj.mp ?_⟩
  simp [msgKey, keyPrefix]

theorem isMsg_wipeKey (d : Uuid) (id : String) : isMsg (wipeKey d id) = false := by
  rw [← Bool.not_eq_true]
  intro is
  obtain ⟨rest, same⟩ := hasPrefix_iff.mp is
  have heads := congrArg (fun key => key.toList.head?) same
  simp [wipeKey, keyPrefix] at heads

theorem Bounded.set {ttl : Nat} (bounded : Bounded r)
    (brief : isMsg key = true → ttl ≤ MESSAGE_TTL_SECONDS.toNat) :
    Bounded (r.set key value (some ttl)) := by
  intro other e is found
  by_cases same : other = key
  · subst same
    obtain ⟨-, expires, stored⟩ := Store.of_peek_set found
    refine ⟨r.now + ttl, expires, ?_⟩
    have short := brief is
    omega
  · rw [Store.peek_set_of_ne same] at found
    exact bounded other e is found

theorem Bounded.del (bounded : Bounded r) : Bounded (r.del key) := by
  intro other e is found
  by_cases same : other = key
  · subst same
    rw [Store.peek_del] at found
    cases found
  · rw [Store.peek_del_of_ne same] at found
    exact bounded other e is found

theorem Bounded.expire {ttl : Nat} (bounded : Bounded r) (other : isMsg key = false) :
    Bounded (r.expire key ttl) := by
  intro key' e is found
  have different : key' ≠ key := by
    rintro rfl
    rw [is] at other
    cases other
  rw [Store.peek_expire_of_ne different] at found
  exact bounded key' e is found

theorem Bounded.advance (bounded : Bounded r) (seconds : Nat) : Bounded (r.advance seconds) :=
  fun key e is found => bounded key e is (Store.peek_advance.mp found).1

theorem Bounded.does (does : Does Effect.apply briefEffects s s') (bounded : Bounded s.redis) :
    Bounded s'.redis := by
  obtain rfl | ⟨effect, may, rfl⟩ := does
  · exact bounded
  · cases effect with
    | send d text =>
        simp only [Effect.apply]
        split
        · exact bounded
        · split <;> exact bounded
    | store change =>
        cases change with
        | set key value ttl => exact bounded.set may
        | del key => exact bounded.del
        | expire key ttl => exact bounded.expire may
    | disconnect d => exact bounded
    | push request => exact bounded
    | pins rows => exact bounded
    | limit key times => exact bounded

theorem keeping_of_effects {t : Program Chance Server α} (effects : Effects briefEffects t) :
    Keeping α t := by
  have secures : Secures (fun _ _ => True) (fun s : Server => Bounded s.redis)
      (Does Effect.apply briefEffects) (fun _ => True) t :=
    Keeps.secures effects fun _ _ bounded does => bounded.does does
  exact secures.mono (fun _ _ _ _ => trivial) fun _ _ => trivial

theorem brief_of_handler {message : WsMessage} (short : Short message) (effect : Effect)
    (may : handlerEffects message effect) : briefEffects effect := by
  cases effect with
  | store change =>
      cases change with
      | set key value ttl =>
          intro is
          rcases may with ⟨envelope, d, carried, -, -, same, -⟩ | ⟨request, d, id, -, rfl, -⟩
          · rw [same]
            exact UInt64.le_iff_toNat_le.mp (short envelope (carried.imp And.left id))
          · rw [isMsg_wipeKey] at is
            cases is
      | del key => trivial
      | expire key ttl => exact may.elim
  | send | disconnect | push | pins | limit => trivial

/-- A program over Redis that keeps the bound. -/
abbrev KeepsBound (Q : α → Prop) (t : Command α) : Prop :=
  Secures (fun _ _ => True) Bounded (fun _ _ => True) (OnOk Q) t.run

theorem keepsBound_of_changes {t : Command α} (changes : Changes Brief t) :
    KeepsBound (fun _ => True) t := by
  have secures :
      Secures (fun _ _ => True) Bounded (Does Change.apply Brief) (fun _ => True) t.run := by
    apply Keeps.secures changes
    intro r r' bounded does
    obtain rfl | ⟨change, brief, rfl⟩ := does
    · exact bounded
    · cases change with
      | set key value ttl => exact bounded.set brief
      | del key => exact bounded.del
      | expire key ttl => exact bounded.expire brief
  exact secures.mono (fun _ _ _ _ => trivial) fun _ _ _ _ => trivial

theorem keepsBound_read {f : Chance → Redis → Except String α × Redis} {Q : α → Prop}
    (reads : ∀ c r, (f c r).2 = r)
    (answers : ∀ c r a, Bounded r → (f c r).1 = .ok a → Q a) : KeepsBound Q (command f) := by
  apply secures_act
  intro c r _ bounded
  split
  · refine ⟨bounded, trivial, fun a same => ?_⟩
    cases same
  · rw [reads]
    refine ⟨bounded, trivial, fun a same => ?_⟩
    cases answer : (f c r).1 with
    | error e =>
        rw [answer] at same
        cases same
    | ok b =>
        rw [answer] at same
        obtain rfl := Except.ok.inj same
        exact answers c r b bounded answer

theorem keepsBound_ttl (key : String) :
    KeepsBound (fun left => isMsg key = true → left ≠ -1) (ttl key) := by
  apply keepsBound_read
  · intro c r
    split
    · rfl
    · split <;> rfl
  · intro c r left bounded answer is
    split at answer
    · rw [← Except.ok.inj answer]
      decide
    · rename_i e found
      obtain ⟨t, lasts, -⟩ := bounded key e is found
      rw [lasts] at answer
      have live : r.now < t := (Store.peek_eq_some.mp found).2 t lasts
      have gap : (t : Int) - r.now = left := Except.ok.inj answer
      omega

theorem keepsBound_fixExpiry (key : String) : KeepsBound (fun _ => True) (fixExpiry key) := by
  refine Secures.run_bind (keepsBound_ttl key).attempt fun outcome positive => ?_
  cases outcome with
  | error e => exact secures_run_pure trivial
  | ok left =>
      dsimp only
      split
      · rename_i without
        have other : isMsg key = false := by
          rw [← Bool.not_eq_true]
          exact fun is => positive left rfl is without
        have brief : Changes Brief (expire key MESSAGE_TTL_SECONDS) := changes_expire other
        have attempted : KeepsBound (fun _ => True)
            (attempt (expire key MESSAGE_TTL_SECONDS) : Command _) :=
          Secures.mono (keepsBound_of_changes brief).attempt (fun _ _ _ is => is)
            fun _ _ _ _ => trivial
        exact Secures.run_bind attempted fun _ _ => secures_run_pure (Q := fun _ => True) trivial
      · exact secures_run_pure trivial

theorem keepsBound_expirySweep (pages : Nat) (cursor : Cursor) :
    KeepsBound (fun _ => True)
      (scanLoop "msg:" (fun keys _ => forM keys fixExpiry) pages cursor ()) := by
  induction pages generalizing cursor with
  | zero => trivial
  | succ pages ih =>
      have answer : KeepsBound (fun _ => True) (scan cursor "msg:") :=
        keepsBound_read (fun c r => by dsimp only; split <;> rfl) fun _ _ _ _ _ => trivial
      refine Secures.run_bind answer fun found _ => ?_
      have page : KeepsBound (fun _ => True) (forM found.2 fixExpiry) :=
        Secures.run_forM fun key _ => keepsBound_fixExpiry key
      refine Secures.run_bind page fun _ _ => ?_
      split
      · exact secures_run_pure trivial
      · exact ih _

end

section

variable {config : AppConfig} {chrono : Chrono} {serde : SerdeJson} {w : World}

theorem begins_keeping : Begins config chrono serde Keeping Short where
  arrival pages d := by
    have sends (text : String) : MaySend briefEffects d text := ⟨trivial, trivial⟩
    exact keeping_of_effects (Keeps.bind
      (effects_deliverPendingMessages (fun _ => trivial) sends) fun _ =>
        effects_deliverPendingWipes sends)
  reply d text :=
    keeping_of_effects (Keeps.bind (effects_sendToDevice ⟨trivial, trivial⟩) fun _ => keeps_pure _)
  handle user d message short :=
    keeping_of_effects ((effects_handleWsMessage config chrono user d message).mono
      fun _ _ does => does.mono (brief_of_handler short))
  job job := by
    cases job with
    | send d message =>
        exact keeping_of_effects
          (Keeps.bind (effects_sendToDevice ⟨trivial, trivial⟩) fun _ => keeps_pure _)
    | wipeSweep rounds pages =>
        exact keeping_of_effects (Keeps.bind
          (effects_wipePending (fun _ _ => ⟨trivial, trivial⟩) rounds .zero) fun _ => keeps_pure _)
    | expirySweep pages =>
        have sweep : Keeping _ (onRedis
            (scanLoop "msg:" (fun keys _ => forM keys fixExpiry) pages .zero ())).run :=
          Secures.zoom ((keepsBound_expirySweep pages .zero).mono (fun _ _ _ is => is)
            fun _ _ => trivial) fun _ _ => rfl
        exact Secures.bind sweep fun _ _ => secures_pure trivial

/-- In a run whose messages ask for 72 hours at most, no message that can be read was stored more
than 72 hours ago. -/
theorem destroyed_within_72_hours {now : Nat} {db : Db.Tables}
    (reached : Reached config chrono serde (ShortLived serde) (.start now db) w) (d : Uuid)
    (id : String) (e : Entry Bytes) (found : w.server.redis.peek (msgKey d id) = some e) :
    w.server.redis.now ≤ e.storedAt + MESSAGE_TTL_SECONDS.toNat := by
  have holds : Bounded w.server.redis ∧ w.Each Keeping := by
    clear found
    induction reached with
    | start =>
        refine ⟨fun key e _ found => ?_, World.each_start now db⟩
        cases found
    | step before may next ih =>
        obtain ⟨bounded, each⟩ := ih
        have stepped := step_cases next
        have resumes : Resumes Keeping _ := fun _ _ _ c keeping =>
          (keeping c _ trivial bounded).2.2
        refine ⟨?_, each.step begins_keeping resumes may stepped⟩
        rcases each.redis stepped with same | ⟨seconds, waited⟩ | ⟨α, effect, next, c, keeping, did⟩
        · rw [same]
          exact bounded
        · rw [waited]
          exact bounded.advance seconds
        · rw [did]
          exact (keeping c _ trivial bounded).1
  obtain ⟨t, expires, bound⟩ := holds.1 _ e (isMsg_msgKey d id) found
  have live : w.server.redis.now < t := (Store.peek_eq_some.mp found).2 t expires
  omega

end

/-- A message to device 1 that asks for a lifetime. -/
def asking (ttl : Option UInt32) : EncryptedEnvelope :=
  ⟨.replicate 16 1, "1", "", ttl, none, none, false⟩

/-- Device 5 of user 3 connects and is set up. -/
def setUp : List Event :=
  [.connect (.replicate 16 3) (.replicate 16 5) 1, .run 0 {}, .run 0 {}, .run 0 {}, .run 0 {}]

/-- The world when this has happened. -/
def senderReady : Option World :=
  follow ⟨none, ""⟩ Chrono.sample SerdeJson.sample (.start 0 {}) setUp

/-- Device 5 sends a message for which device 1 has an hour, and device 1 is offline. -/
theorem destroyed_within_72_hours_hour :
    ∃ w : World, (∃ e, w.server.redis.peek (msgKey (.replicate 16 1) "1") = some e) ∧
      ∀ e, w.server.redis.peek (msgKey (.replicate 16 1) "1") = some e →
        w.server.redis.now ≤ e.storedAt + MESSAGE_TTL_SECONDS.toNat := by
  have ready : senderReady.isSome := rfl
  have quiet : ∀ e ∈ setUp, ∀ w, ShortLived SerdeJson.sample w e := by
    rintro e member w message ⟨x, text, rfl, -⟩
    simp [setUp] at member
  have short : ShortLived SerdeJson.sample (senderReady.get ready)
      (.receive 0 (.text (WsMessage.sendMessage (asking (some 3600))).text)) := by
    rintro message ⟨x, text, same, parsed⟩ envelope carried
    rw [← Incoming.text.inj (Event.receive.inj same).2] at parsed
    rw [fromStr_text SerdeJson.sample_lawful] at parsed
    rw [← Except.ok.inj parsed] at carried
    rcases carried with same | ⟨group, other⟩
    · cases same
      decide
    · cases other
  have silent (w : World) (c : Chance) : ShortLived SerdeJson.sample w (.run 0 c) := by
    rintro message ⟨x, text, same, -⟩
    cases same
  have set_up := reached_follow quiet .start (Option.some_get ready).symm
  have received := set_up.step short (step_receive_text SerdeJson.sample_lawful _ rfl rfl)
  have tried := received.step (silent _ {}) rfl
  have looked := tried.step (silent _ {}) rfl
  have stored := looked.step (silent _ {}) rfl
  let r : Redis := (Store.empty 0).set (msgKey (.replicate 16 1) "1")
    (envelopeBlob (asking (some 3600))) (some 3600)
  have written : r.peek (msgKey (.replicate 16 1) "1") =
      some ⟨envelopeBlob (asking (some 3600)), some 3600, 0, 0⟩ := Store.peek_set (by decide)
  refine ⟨_, ?_, fun e found => destroyed_within_72_hours stored _ _ e found⟩
  exact ⟨_, written⟩

/-- Device 5 sends a message that asks for more than three days, device 1 is offline, and somewhat
over 72 hours pass. -/
theorem long_message_outlives :
    ∃ w, Reached ⟨none, ""⟩ Chrono.sample SerdeJson.sample (fun _ _ => True) (.start 0 {}) w ∧
      ∃ e, w.server.redis.peek (msgKey (.replicate 16 1) "1") = some e ∧
        e.storedAt + MESSAGE_TTL_SECONDS.toNat < w.server.redis.now := by
  have ready : senderReady.isSome := rfl
  have set_up := reached_follow (fun _ _ _ => trivial) .start (Option.some_get ready).symm
  have received := set_up.step
    (e := .receive 0 (.text (WsMessage.sendMessage (asking (some 300000))).text)) trivial
    (step_receive_text SerdeJson.sample_lawful _ rfl rfl)
  have tried := received.step (e := .run 0 {}) trivial rfl
  have looked := tried.step (e := .run 0 {}) trivial rfl
  have stored := looked.step (e := .run 0 {}) trivial rfl
  have waited := stored.step (e := .wait 259201) trivial rfl
  let r : Redis := (Store.empty 0).set (msgKey (.replicate 16 1) "1")
    (envelopeBlob (asking (some 300000))) (some 300000)
  have written : r.peek (msgKey (.replicate 16 1) "1") =
      some ⟨envelopeBlob (asking (some 300000)), some 300000, 0, 0⟩ := Store.peek_set (by decide)
  have late : 0 + MESSAGE_TTL_SECONDS.toNat < 0 + 259201 := by decide
  refine ⟨_, waited, ⟨envelopeBlob (asking (some 300000)), some 300000, 0, 0⟩, ?_, late⟩
  refine (Store.peek_advance (s := r)).mpr ⟨written, ?_⟩
  intro t expires
  rw [← Option.some.inj expires]
  decide

end Hysj.Api
