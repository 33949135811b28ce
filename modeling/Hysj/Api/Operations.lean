import Hysj.Api.Handler
import Hysj.Base.Pool
import Hysj.Messaging.Changes
import Hysj.Messaging.MediaStore

set_option autoImplicit false

/- Every operation of the server on Redis, and the keys it may change. -/
namespace Hysj.Api

open Crypto Shared Messaging Program

/-- `format!("push:{}:{}", device_id, platform)` -/
def pushKey (deviceId : Uuid) (platform : String) : String := keyPrefix "push" deviceId ++ platform

/-- `SET key value` -/
def setForever (key value : String) : Command Unit :=
  command fun _ r => (.ok (), r.set key (strBytes value) none)

/-- What `POST /api/push/register` does in Redis. -/
def registerPush (deviceId : Uuid) (platform pushToken : String) : Command Unit :=
  setForever (pushKey deviceId platform) pushToken

/-- What `POST /api/push/unregister` does in Redis. -/
def unregisterPush (deviceId : Uuid) : Command Unit :=
  forM ["fcm", "apns"] fun platform => do
    let _ ← del (pushKey deviceId platform)

/-- The number of pending messages of a device. -/
def countPending (pages : Nat) (deviceId : Uuid) : Command Nat :=
  scanLoop (keyPrefix "msg" deviceId) (fun keys count => return count + keys.length) pages .zero 0

/-- An operation with its arguments. Where SCAN is called in a loop, the number bounds the
answers. -/
inductive Operation where
  | enqueue (recipientDeviceId : Uuid) (messageId : String) (encryptedBlob : Bytes)
      (ttlSeconds : UInt64)
  | dequeueAll (pages : Nat) (deviceId : Uuid)
  | deleteMessage (deviceId : Uuid) (messageId : String)
  | countPending (pages : Nat) (deviceId : Uuid)
  | expirySweep (pages : Nat)
  | storeBlob (mediaId : String) (encryptedBlob : Bytes) (ttlSeconds : UInt64)
  | storeMeta (mediaId : String) (recipientDeviceId : Uuid) (durationSeconds : UInt32)
      (blobSize ttlSeconds : UInt64)
  | retrieveAndExpire (mediaId : String) (seenTtlSeconds : UInt64)
  | retrieve (mediaId : String)
  | getMeta (mediaId : String)
  | deleteBlob (mediaId : String)
  | storeOtp (phoneNumber code : String) (ttlSeconds : UInt64)
  | verifyOtp (phoneNumber code : String)
  | storeVerificationToken (token phoneNumber : String) (ttlSeconds : UInt64)
  | validateVerificationToken (token : String)
  | registerPush (deviceId : Uuid) (platform pushToken : String)
  | unregisterPush (deviceId : Uuid)
  | readPush (deviceId : Uuid)
  | issueWipe (targetDeviceIds : List Uuid) (wipeCommand : WipeRequest)
  | getPendingWipes (pages : Nat) (deviceId : Uuid)
  | confirmWipe (deviceId : Uuid) (wipeId : String)

/-- What an operation returns. -/
inductive Answer where
  | unit (result : Except MessagingError Unit)
  | flag (result : Except MessagingError Bool)
  | count (result : Except MessagingError Nat)
  | text (result : Except MessagingError String)
  | found (result : Except MessagingError (Option String))
  | blob (result : Except MessagingError (Option Bytes))
  | info (result : Except MessagingError (Option MediaMeta))
  | messages (result : Except MessagingError (List QueuedMessage))
  | wipes (result : Except MessagingError (List PendingWipe))

def Operation.program (serde : SerdeJson) (chrono : Chrono) :
    Operation → Program Chance Redis Answer
  | .enqueue d id blob ttl => .unit <$> (Messaging.enqueue d id blob ttl).run
  | .dequeueAll pages d => .messages <$> (Messaging.dequeueAll pages d).run
  | .deleteMessage d id => .flag <$> (Messaging.deleteMessage d id).run
  | .countPending pages d => .count <$> (Api.countPending pages d).run
  | .expirySweep pages =>
      .unit <$> (scanLoop "msg:" (fun keys _ => forM keys fixExpiry) pages .zero ()).run
  | .storeBlob id blob ttl => .unit <$> (Messaging.storeBlob id blob ttl).run
  | .storeMeta id d duration size ttl => .unit <$> (Messaging.storeMeta id d duration size ttl).run
  | .retrieveAndExpire id ttl => .blob <$> (Messaging.retrieveAndExpire id ttl).run
  | .retrieve id => .blob <$> (Messaging.retrieve id).run
  | .getMeta id => .info <$> (Messaging.getMeta serde id).run
  | .deleteBlob id => .flag <$> (Messaging.deleteBlob id).run
  | .storeOtp phone code ttl => .unit <$> (Messaging.storeOtp phone code ttl).run
  | .verifyOtp phone code => .flag <$> (Messaging.verifyOtp phone code).run
  | .storeVerificationToken token phone ttl =>
      .unit <$> (Messaging.storeVerificationToken token phone ttl).run
  | .validateVerificationToken token => .found <$> (Messaging.validateVerificationToken token).run
  | .registerPush d platform token => .unit <$> (Api.registerPush d platform token).run
  | .unregisterPush d => .unit <$> (Api.unregisterPush d).run
  | .readPush d => .blob <$> (get (pushKey d "fcm")).run
  | .issueWipe targets command => .text <$> (Messaging.issueWipe chrono targets command).run
  | .getPendingWipes pages d => .wipes <$> (Messaging.getPendingWipes serde chrono pages d).run
  | .confirmWipe d id => .flag <$> (Messaging.confirmWipe d id).run

/-- The operation may change what is stored under the key. -/
def Operation.Touches : Operation → String → Prop
  | .enqueue d id _ _, key => key = msgKey d id
  | .dequeueAll _ d, key => ∃ id, key = msgKey d id
  | .deleteMessage d id, key => key = msgKey d id
  | .expirySweep _, key => hasPrefix "msg:" key = true
  | .storeBlob id _ _, key => key = mediaKey id
  | .storeMeta id _ _ _ _, key => key = mediaMetaKey id
  | .retrieveAndExpire id _, key => key = mediaKey id ∨ key = mediaMetaKey id
  | .deleteBlob id, key => key = mediaKey id ∨ key = mediaMetaKey id
  | .storeOtp phone _ _, key => key = otpKey phone
  | .verifyOtp phone _, key => key = otpKey phone
  | .storeVerificationToken token _ _, key => key = verifiedKey token
  | .validateVerificationToken token, key => key = verifiedKey token
  | .registerPush d platform _, key => key = pushKey d platform
  | .unregisterPush d, key => ∃ platform ∈ ["fcm", "apns"], key = pushKey d platform
  | .issueWipe targets _, key => ∃ d ∈ targets, ∃ id, key = wipeKey d id
  | .confirmWipe d id, key => key = wipeKey d id
  | .countPending _ _, _ | .retrieve _, _ | .getMeta _, _ | .readPush _, _
  | .getPendingWipes _ _, _ => False

section

variable (d : Uuid) (id : String)

@[simp] theorem head_msgKey : (msgKey d id).toList.head? = some 'm' := by
  simp [msgKey, keyPrefix]

@[simp] theorem head_wipeKey : (wipeKey d id).toList.head? = some 'w' := by
  simp [wipeKey, keyPrefix]

@[simp] theorem head_pushKey : (pushKey d id).toList.head? = some 'p' := by
  simp [pushKey, keyPrefix]

@[simp] theorem head_mediaKey : (mediaKey id).toList.head? = some 'm' := by simp [mediaKey]

@[simp] theorem head_mediaMetaKey : (mediaMetaKey id).toList.head? = some 'm' := by
  simp [mediaMetaKey, mediaKey]

@[simp] theorem head_otpKey : (otpKey id).toList.head? = some 'o' := by simp [otpKey]

@[simp] theorem head_verifiedKey : (verifiedKey id).toList.head? = some 'o' := by
  simp [verifiedKey]

theorem head_of_hasPrefix_msg {key : String} (prefixed : hasPrefix "msg:" key = true) :
    key.toList.head? = some 'm' := by
  obtain ⟨rest, rfl⟩ := hasPrefix_iff.mp prefixed
  simp

/-- The first character of the keys that the operation may change. -/
def Operation.initial : Operation → Char
  | .enqueue _ _ _ _ | .dequeueAll _ _ | .deleteMessage _ _ | .expirySweep _ => 'm'
  | .storeBlob _ _ _ | .storeMeta _ _ _ _ _ | .retrieveAndExpire _ _ | .deleteBlob _ => 'm'
  | .storeOtp _ _ _ | .verifyOtp _ _ => 'o'
  | .storeVerificationToken _ _ _ | .validateVerificationToken _ => 'o'
  | .registerPush _ _ _ | .unregisterPush _ => 'p'
  | .issueWipe _ _ | .confirmWipe _ _ => 'w'
  | .countPending _ _ | .retrieve _ | .getMeta _ | .readPush _ | .getPendingWipes _ _ => 'r'

theorem head_of_touches {op : Operation} {key : String} (touches : op.Touches key) :
    key.toList.head? = some op.initial := by
  cases op with
  | enqueue d id blob ttl =>
      rw [touches]
      exact head_msgKey d id
  | dequeueAll pages d =>
      obtain ⟨id, rfl⟩ := touches
      exact head_msgKey d id
  | deleteMessage d id =>
      rw [touches]
      exact head_msgKey d id
  | expirySweep pages => exact head_of_hasPrefix_msg touches
  | storeBlob id blob ttl =>
      rw [touches]
      exact head_mediaKey id
  | storeMeta id d duration size ttl =>
      rw [touches]
      exact head_mediaMetaKey id
  | retrieveAndExpire id ttl =>
      rcases touches with rfl | rfl
      · exact head_mediaKey id
      · exact head_mediaMetaKey id
  | deleteBlob id =>
      rcases touches with rfl | rfl
      · exact head_mediaKey id
      · exact head_mediaMetaKey id
  | storeOtp phone code ttl =>
      rw [touches]
      exact head_otpKey phone
  | verifyOtp phone code =>
      rw [touches]
      exact head_otpKey phone
  | storeVerificationToken token phone ttl =>
      rw [touches]
      exact head_verifiedKey token
  | validateVerificationToken token =>
      rw [touches]
      exact head_verifiedKey token
  | registerPush d platform token =>
      rw [touches]
      exact head_pushKey d platform
  | unregisterPush d =>
      obtain ⟨platform, -, rfl⟩ := touches
      exact head_pushKey d platform
  | issueWipe targets request =>
      obtain ⟨d, -, id, rfl⟩ := touches
      exact head_wipeKey d id
  | confirmWipe d id =>
      rw [touches]
      exact head_wipeKey d id
  | countPending pages d => exact touches.elim
  | retrieve id => exact touches.elim
  | getMeta id => exact touches.elim
  | readPush d => exact touches.elim
  | getPendingWipes pages d => exact touches.elim

end

section

variable {α β : Type} {key key' : String}

/-- What is stored under the key stays, and the clock does. -/
def Leaves (key : String) (r r' : Redis) : Prop := r'.now = r.now ∧ r'.peek key = r.peek key

theorem leaves_refl (key : String) (r : Redis) : Leaves key r r := ⟨rfl, rfl⟩

theorem leaves_set {r : Redis} {value : Bytes} {ttl : Option Nat} (other : key ≠ key') :
    Leaves key r (r.set key' value ttl) := ⟨rfl, Store.peek_set_of_ne other⟩

theorem leaves_del {r : Redis} (other : key ≠ key') : Leaves key r (r.del key') :=
  ⟨rfl, Store.peek_del_of_ne other⟩

theorem leaves_expire {r : Redis} {ttl : Nat} (other : key ≠ key') :
    Leaves key r (r.expire key' ttl) := ⟨Store.now_expire ttl, Store.peek_expire_of_ne other⟩

/-- The key that a change is about. -/
def changed : Change → String
  | .set key _ _ => key
  | .del key => key
  | .expire key _ => key

theorem leaves_of_changes {t : Command α}
    (changes : Changes (fun change => key ≠ changed change) t) :
    Keeps (Leaves key) t.run := by
  apply Keeps.mono changes
  rintro r r' (rfl | ⟨change, other, rfl⟩)
  · exact leaves_refl key r'
  · cases change with
    | set key' value ttl => exact leaves_set other
    | del key' => exact leaves_del other
    | expire key' ttl => exact leaves_expire other

theorem leaves_read {f : Chance → Redis → Except String α × Redis} (reads : ∀ c r, (f c r).2 = r) :
    Keeps (Leaves key) (command f).run := by
  apply keeps_command (leaves_refl key)
  intro c r
  rw [reads]
  exact leaves_refl key r

/-- What a `GET` of a text answers. -/
theorem getText_eq (name : String) : ∃ f, getText name = command f ∧ ∀ c r, (f c r).2 = r ∧
    (r.get? name = none → (f c r).1 = .ok none) ∧
    ∀ bytes, r.get? name = some bytes →
      (∀ text, Utf8.fromUtf8 bytes = some text → (f c r).1 = .ok (some text)) ∧
      (Utf8.fromUtf8 bytes = none → ∃ e, (f c r).1 = .error e) := by
  refine ⟨_, rfl, fun c r => ?_⟩
  cases found : r.get? name with
  | none => simp
  | some bytes =>
      cases read : Utf8.fromUtf8 bytes with
      | none => simp [read]
      | some text => simp [read]

theorem leaves_getText (name : String) : Keeps (Leaves key) (getText name).run := by
  obtain ⟨f, is, answers⟩ := getText_eq name
  rw [is]
  exact leaves_read fun c r => (answers c r).1

theorem leaves_setText {name value : String} {ttl : UInt64} (other : key ≠ name) :
    Keeps (Leaves key) (setText name value ttl).run := by
  apply keeps_command (leaves_refl key)
  intro c r
  split
  · exact leaves_refl key r
  · exact leaves_set other

theorem leaves_verifyOtp {phone code : String} (other : key ≠ otpKey phone) :
    Keeps (Leaves key) (verifyOtp phone code).run := by
  refine Keeps.run_bind (leaves_getText _) fun stored => ?_
  cases stored with
  | none => exact keeps_pure _
  | some storedCode =>
      dsimp only
      split
      · exact Keeps.run_bind (leaves_of_changes (changes_del other)) fun _ => keeps_pure _
      · exact keeps_pure _

theorem leaves_validateVerificationToken {token : String} (other : key ≠ verifiedKey token) :
    Keeps (Leaves key) (validateVerificationToken token).run := by
  refine Keeps.run_bind (leaves_getText _) fun stored => ?_
  cases stored with
  | none => exact keeps_pure _
  | some phone => exact Keeps.run_bind (leaves_of_changes (changes_del other)) fun _ => keeps_pure _

theorem leaves_retrieveAndExpire {mediaId : String} {ttl : UInt64} (other : key ≠ mediaKey mediaId)
    (other' : key ≠ mediaMetaKey mediaId) :
    Keeps (Leaves key) (retrieveAndExpire mediaId ttl).run := by
  refine Keeps.run_bind (leaves_of_changes (changes_get _)) fun blob => ?_
  split
  · refine Keeps.run_bind (leaves_of_changes (changes_expire other)) fun _ => ?_
    exact Keeps.run_bind (leaves_of_changes (changes_expire other')) fun _ => keeps_pure _
  · exact keeps_pure _

theorem leaves_deleteBlob {mediaId : String} (other : key ≠ mediaKey mediaId)
    (other' : key ≠ mediaMetaKey mediaId) : Keeps (Leaves key) (deleteBlob mediaId).run := by
  refine Keeps.run_bind (keeps_command (leaves_refl key) fun c r => ?_) fun _ => keeps_pure _
  refine ⟨rfl, ?_⟩
  rw [Store.peek_del_of_ne other', Store.peek_del_of_ne other]

theorem leaves_getMeta {serde : SerdeJson} (mediaId : String) :
    Keeps (Leaves key) (getMeta serde mediaId).run := by
  refine Keeps.run_bind (leaves_getText _) fun stored => ?_
  cases stored with
  | none => exact keeps_pure _
  | some json =>
      dsimp only
      split
      · exact keeps_pure _
      · exact keeps_pure _

theorem leaves_unregisterPush {d : Uuid}
    (other : ∀ platform ∈ ["fcm", "apns"], key ≠ pushKey d platform) :
    Keeps (Leaves key) (unregisterPush d).run := by
  refine Keeps.run_forM fun platform member => ?_
  exact Keeps.run_bind
    (leaves_of_changes (changes_del (other platform member))) fun _ => keeps_pure _

theorem changes_fixExpiry {may : Change → Prop}
    (allowed : may (.expire key MESSAGE_TTL_SECONDS.toNat)) : Changes may (fixExpiry key) := by
  refine Keeps.run_bind (Keeps.attempt (changes_ttl key)) fun left => ?_
  split
  · split
    · exact Keeps.run_bind (Keeps.attempt (changes_expire allowed)) fun _ => keeps_pure _
    · exact keeps_pure _
  · exact keeps_pure _

theorem changes_expirySweep {may : Change → Prop}
    (allowed : ∀ key, hasPrefix "msg:" key = true → may (.expire key MESSAGE_TTL_SECONDS.toNat))
    (pages : Nat) :
    Changes may (scanLoop "msg:" (fun keys _ => forM keys fixExpiry) pages .zero ()) := by
  apply changes_scanLoop
  intro keys _ prefixed
  exact Keeps.run_forM fun key member => changes_fixExpiry (allowed key (prefixed key member))

theorem changes_countPending {may : Change → Prop} (pages : Nat) (d : Uuid) :
    Changes may (countPending pages d) :=
  changes_scanLoop (fun _ _ _ => keeps_pure _) pages .zero 0

theorem Operation.leaves {serde : SerdeJson} {chrono : Chrono} {op : Operation}
    (other : ¬ op.Touches key) : Keeps (Leaves key) (op.program serde chrono) := by
  cases op with
  | enqueue d id blob ttl =>
      exact (leaves_of_changes (changes_enqueue fun _ => other)).map _
  | dequeueAll pages d =>
      refine (leaves_of_changes (changes_dequeueAll (fun id same => ?_) pages)).map _
      exact other ⟨id, same⟩
  | deleteMessage d id => exact (leaves_of_changes (changes_deleteMessage other)).map _
  | countPending pages d => exact (leaves_of_changes (changes_countPending pages d)).map _
  | expirySweep pages =>
      refine (leaves_of_changes (changes_expirySweep (fun name prefixed same => ?_) pages)).map _
      subst same
      exact other prefixed
  | storeBlob id blob ttl => exact (leaves_of_changes (changes_setEx fun _ => other)).map _
  | storeMeta id d duration size ttl =>
      exact (leaves_of_changes (changes_setEx fun _ => other)).map _
  | retrieveAndExpire id ttl =>
      obtain ⟨blob, info⟩ := not_or.mp other
      exact (leaves_retrieveAndExpire blob info).map _
  | retrieve id => exact (leaves_of_changes (changes_get _)).map _
  | getMeta id => exact (leaves_getMeta id).map _
  | deleteBlob id =>
      obtain ⟨blob, info⟩ := not_or.mp other
      exact (leaves_deleteBlob blob info).map _
  | storeOtp phone code ttl => exact (leaves_setText other).map _
  | verifyOtp phone code => exact (leaves_verifyOtp other).map _
  | storeVerificationToken token phone ttl => exact (leaves_setText other).map _
  | validateVerificationToken token => exact (leaves_validateVerificationToken other).map _
  | registerPush d platform token =>
      refine Keeps.map (keeps_command (leaves_refl key) fun c r => ?_) _
      exact leaves_set other
  | unregisterPush d =>
      refine (leaves_unregisterPush fun platform member same => ?_).map _
      exact other ⟨platform, member, same⟩
  | readPush d => exact (leaves_of_changes (changes_get _)).map _
  | issueWipe targets command =>
      refine (leaves_of_changes (changes_issueWipe fun d member id _ same => ?_)).map _
      exact other ⟨d, member, id, same⟩
  | getPendingWipes pages d => exact (leaves_of_changes (changes_getPendingWipes pages d)).map _
  | confirmWipe d id => exact (leaves_of_changes (changes_confirmWipe other)).map _

theorem Operation.now (serde : SerdeJson) (chrono : Chrono) (op : Operation) :
    Keeps (fun r r' : Redis => r'.now = r.now) (op.program serde chrono) := by
  have other : ¬ op.Touches "" := by
    intro touches
    have first := head_of_touches touches
    simp at first
  exact (Operation.leaves other).mono fun _ _ => And.left

end

end Hysj.Api
