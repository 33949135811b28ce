import Hysj.Api.Effects

set_option autoImplicit false

/- Whose messages and wipes an acknowledgement can delete. -/
namespace Hysj.Api

open Crypto Shared Messaging Program

/-- There is a row for the device, and it is the user's. -/
def Server.Owns (s : Server) (userId deviceId : Uuid) : Prop :=
  ∃ row ∈ s.db.devices, row.id = deviceId ∧ row.userId = userId

/-- Of the keys of devices, those that go away are keys of the user's own devices. -/
def OwnDeletes (userId : Uuid) (s s' : Server) : Prop :=
  ∀ key, (s.redis.get? key).isSome → s'.redis.get? key = none →
    ∀ d id, key = msgKey d id ∨ key = wipeKey d id → s.Owns userId d

/-- The message acknowledges nothing, or something of an own device, or nothing that is there. -/
def OwnAck (s : Server) (userId : Uuid) : WsMessage → Prop
  | .delivered ack =>
      s.Owns userId ack.deviceId ∨ s.redis.get? (msgKey ack.deviceId ack.messageId) = none
  | .wipeAck ack =>
      s.Owns userId ack.deviceId ∨ s.redis.get? (wipeKey ack.deviceId ack.wipeId) = none
  | _ => True

section

variable {user : Uuid} {s : Server} {message : WsMessage} {key : String}

theorem ownDeletes_of_get? {s' : Server} (same : ∀ key, (s.redis.get? key).isSome →
    (s'.redis.get? key).isSome) : OwnDeletes user s s' := by
  intro key there gone
  have still_ := same key there
  rw [gone] at still_
  cases still_

theorem ownDeletes_refl (s : Server) : OwnDeletes user s s :=
  ownDeletes_of_get? fun _ there => there

theorem OwnDeletes.of_does (quiet : ∀ key, ¬ handlerEffects message (.store (.del key)))
    {s' : Server} (does : Does Effect.apply (handlerEffects message) s s') :
    OwnDeletes user s s' := by
  apply ownDeletes_of_get?
  intro key there
  obtain rfl | ⟨effect, may, rfl⟩ := does
  · exact there
  · cases effect with
    | send d text =>
        simp only [Effect.apply]
        split
        · exact there
        · split <;> exact there
    | disconnect d => exact there
    | push request => exact there
    | pins rows => exact there
    | limit key times => exact there
    | store change =>
        cases change with
        | del key => exact absurd may (quiet key)
        | expire key ttl => exact may.elim
        | set other value ttl =>
            have lasts : ∀ n ∈ some ttl, 0 < n := by
              intro n same
              obtain rfl := Option.some.inj same
              rcases may with ⟨_, _, _, _, _, _, positive⟩ | ⟨_, _, _, _, _, rfl⟩
              · exact positive
              · decide
            change ((s.redis.set other value (some ttl)).get? key).isSome
            by_cases same : key = other
            · subst same
              rw [Store.get?_set lasts]
              rfl
            · rw [Store.get?_set_of_ne same]
              exact there

theorem keepsFrom_del {G : Server → Server → Prop} {t : Task String Unit} (refl : ∀ s, G s s)
    (deletes : t = do
      let _ ← ExceptT.adapt MessagingError.display (onRedis (do
        let deleted ← del key
        return decide (0 < deleted)))) :
    KeepsFrom G t.run s ↔ G s { s with redis := s.redis.del key } := by
  subst deletes
  constructor
  · intro keeps
    exact (keeps {}).1
  · rintro related ⟨fault, keys, last, uuid⟩
    cases fault with
    | none => exact ⟨related, trivial⟩
    | some e => exact ⟨refl s, trivial⟩

theorem ownDeletes_del {d : Uuid}
    (named : ∀ d' id, key = msgKey d' id ∨ key = wipeKey d' id → d' = d)
    (is : ∃ id, key = msgKey d id ∨ key = wipeKey d id) :
    OwnDeletes user s { s with redis := s.redis.del key } ↔
      s.Owns user d ∨ s.redis.get? key = none := by
  constructor
  · intro own
    cases found : s.redis.get? key with
    | none => exact Or.inr rfl
    | some value =>
        obtain ⟨id, is⟩ := is
        exact Or.inl (own key (by simp [found]) Store.get?_del d id is)
  · intro allowed other there gone d' id' is'
    have same : other = key := by
      by_contra different
      dsimp only at gone
      rw [Store.get?_del_of_ne different] at gone
      rw [gone] at there
      cases there
    subst same
    obtain rfl := named d' id' is'
    rcases allowed with owns | absent
    · exact owns
    · rw [absent] at there
      cases there

theorem keepsFrom_delivered (config : AppConfig) (chrono : Chrono) (s : Server)
    (user sender : Uuid) (ack : DeliveryAck) :
    KeepsFrom (OwnDeletes user) (handleWsMessage config chrono user sender (.delivered ack)).run s ↔
      s.Owns user ack.deviceId ∨ s.redis.get? (msgKey ack.deviceId ack.messageId) = none := by
  refine (keepsFrom_del ownDeletes_refl rfl).trans (ownDeletes_del ?_ ⟨_, Or.inl rfl⟩)
  rintro d id (same | same)
  · exact (msgKey_inj.mp same).1.symm
  · exact absurd same (msgKey_ne_wipeKey _ _ _ _)

theorem keepsFrom_wipeAck (config : AppConfig) (chrono : Chrono) (s : Server)
    (user sender : Uuid) (ack : WipeAckDto) :
    KeepsFrom (OwnDeletes user) (handleWsMessage config chrono user sender (.wipeAck ack)).run s ↔
      s.Owns user ack.deviceId ∨ s.redis.get? (wipeKey ack.deviceId ack.wipeId) = none := by
  refine (keepsFrom_del ownDeletes_refl rfl).trans (ownDeletes_del ?_ ⟨_, Or.inr rfl⟩)
  rintro d id (same | same)
  · exact absurd same.symm (msgKey_ne_wipeKey _ _ _ _)
  · exact (wipeKey_inj.mp same).1.symm

/-- Among any other tasks, the steps of a call delete keys of own devices only, exactly when
the message acknowledges nothing of another device that is there when the call begins. -/
theorem deletes_own_iff (config : AppConfig) (chrono : Chrono) (s : Server) (user sender : Uuid)
    (message : WsMessage) :
    KeepsFrom (OwnDeletes user) (handleWsMessage config chrono user sender message).run s ↔
      OwnAck s user message := by
  have others (quiet : ∀ key, ¬ handlerEffects message (.store (.del key))) :
      KeepsFrom (OwnDeletes user) (handleWsMessage config chrono user sender message).run s :=
    ((effects_handleWsMessage config chrono user sender message).mono fun _ _ does =>
      OwnDeletes.of_does quiet does).keepsFrom s
  cases message with
  | delivered ack => exact keepsFrom_delivered config chrono s user sender ack
  | wipeAck ack => exact keepsFrom_wipeAck config chrono s user sender ack
  | _ =>
      refine iff_of_true (others ?_) trivial
      rintro key (⟨ack, same, -⟩ | ⟨ack, same, -⟩) <;> cases same

/-- User 3 has sent a message to a device of user 2; user 4 acknowledges it. -/
theorem delivered_deletes_foreign :
    let phone : Uuid := .replicate 16 1
    let start := Server.start 0 { devices := [.sample phone (.replicate 16 2)] }
    let message := WsMessage.sendMessage ⟨phone, "1", "", none, none, none, false⟩
    ∃ s, Runs Clean (handleWsMessage ⟨none, ""⟩ Chrono.sample (.replicate 16 3)
        (.replicate 16 5) message).run start (.ok ()) s ∧
      ¬ KeepsFrom (OwnDeletes (.replicate 16 4)) (handleWsMessage ⟨none, ""⟩ Chrono.sample
        (.replicate 16 4) (.replicate 16 6) (.delivered ⟨phone, "1"⟩)).run s := by
  intro phone start message
  have queued :
      (enqueuedFor start ⟨phone, "1", "", none, none, none, false⟩ phone).1 = .ok () := rfl
  obtain ⟨pushed, run⟩ := queueMessage_returns ⟨none, ""⟩ queued
  refine ⟨_, (runs_sendMessage_offline rfl).mpr run, ?_⟩
  rw [keepsFrom_delivered]
  rintro (⟨row, member, -, other⟩ | gone)
  · obtain rfl := List.mem_singleton.mp member
    revert other
    decide
  · have there : ((start.redis.set (msgKey phone "1")
        (envelopeBlob ⟨phone, "1", "", none, none, none, false⟩) (some 259200)).get?
          (msgKey phone "1")).isSome := by
      rw [Store.get?_set (by simp)]
      rfl
    have stored : (enqueuedFor start ⟨phone, "1", "", none, none, none, false⟩ phone).2 =
        start.redis.set (msgKey phone "1")
          (envelopeBlob ⟨phone, "1", "", none, none, none, false⟩) (some 259200) := rfl
    rw [← stored] at there
    rw [gone] at there
    cases there

end

end Hysj.Api
