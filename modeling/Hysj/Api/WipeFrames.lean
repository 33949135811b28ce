import Hysj.Api.WipeAuthority
import Hysj.Messaging.WipeNames

set_option autoImplicit false

/- What a device is told about its pending wipes, and whether it can acknowledge them. -/
namespace Hysj.Api

open Crypto Shared Messaging Program

/-- The servers differ in Redis only. -/
def Alike (P : Redis → Redis → Prop) (s s' : Server) : Prop :=
  s' = { s with redis := s'.redis } ∧ P s.redis s'.redis

section

variable {P : Redis → Redis → Prop} {α β : Type} {s s' : Server}

theorem simulates_onRedis {A : Except MessagingError α → Except MessagingError β → Prop}
    {t : Command α} {t' : Command β} (simulates : Simulates Clean P A t.run t'.run) :
    Simulates Clean (Alike P) A (onRedis t).run (onRedis t').run := by
  rintro s s' outcome s₁ ⟨same, related⟩ run
  obtain ⟨r, first, rfl⟩ := runs_onRedis.mp run
  obtain ⟨outcome', r', run', related', results⟩ := simulates _ _ _ _ related first
  refine ⟨outcome', { s' with redis := r' }, runs_onRedis.mpr ⟨r', run', rfl⟩,
    ⟨?_, related'⟩, results⟩
  rw [same]

theorem simulates_sendToDevice (d : Uuid) (message : WsMessage) :
    Simulates Clean (Alike P) Eq (sendToDevice d message) (sendToDevice d message) := by
  rintro s s' sent s₁ ⟨same, related⟩ run
  obtain ⟨online, rfl⟩ := runs_sendToDevice.mp run
  have online' : sent = true ↔ s'.Online d := by
    rw [same]
    exact online
  refine ⟨sent, _, runs_sendToDevice.mpr ⟨online', rfl⟩, ⟨?_, ?_⟩, rfl⟩
  · rw [same]
    unfold afterSend
    dsimp only
    split
    · rfl
    · split <;> rfl
  · have redis (s : Server) : (afterSend s d message.text).redis = s.redis := by
      unfold afterSend
      split
      · rfl
      · split <;> rfl
    rw [redis, redis]
    exact related

theorem simulates_sendToEach (ds : List Uuid) (message : WsMessage) :
    Simulates Clean (Alike P) (fun _ _ => True) (sendToEach ds message) (sendToEach ds message) :=
  simulates_forM fun d _ =>
    (simulates_sendToDevice d message).bind fun _ _ _ => simulates_pure trivial

theorem simulates_query (times : ∀ r r', P r r' → r'.now = r.now)
    (statement : Nat → Db.Statement α) :
    Simulates Clean (Alike P) (SameOutcome Eq) (query statement).run (query statement).run := by
  rintro s s' outcome s₁ ⟨same, related⟩ run
  obtain ⟨rfl, rfl⟩ := runs_query.mp run
  have now := times _ _ related
  have db : s'.db = s.db := by rw [same]
  refine ⟨_, _, runs_query.mpr ⟨rfl, rfl⟩, ⟨?_, related⟩, ?_⟩
  · rw [now, db, same]
  · rw [now, db]
    cases (statement s.redis.now s.db).1 <;> rfl

theorem simulates_atomically {ε : Type} {f : Server → α × Server}
    (same : ∀ s s', Alike P s s' → (f s').1 = (f s).1 ∧ Alike P (f s).2 (f s').2) :
    Simulates Clean (Alike P) (SameOutcome Eq) (atomically f : Task ε α).run
      (atomically f : Task ε α).run := by
  rintro s s' outcome s₁ alike run
  obtain ⟨rfl, rfl⟩ := runs_atomically.mp run
  obtain ⟨result, alike'⟩ := same s s' alike
  exact ⟨_, _, runs_atomically.mpr ⟨rfl, rfl⟩, alike', result.symm⟩

end

theorem sendWipes_eq (d : Uuid) (wipes : List PendingWipe) : sendWipes d wipes =
    forM (wipes.map PendingWipe.content) (fun content => do
      let _ ← sendToDevice d (.wipeCommand content.1)) := by
  rw [sendWipes]
  induction wipes with
  | nil => rfl
  | cons wipe wipes ih =>
      rw [List.map_cons, List.forM_cons, List.forM_cons, ih]
      rfl

theorem colon_not_mem_display (d : Uuid) : ':' ∉ d.display.toList := by
  have hex : ∀ n < 16, Json.hexChar n ≠ ':' := by decide
  have digits (bytes : List UInt8) : ':' ∉ Uuid.digits bytes := by
    intro member
    obtain ⟨b, -, listed⟩ := List.mem_flatMap.mp member
    have small := b.toNat_lt
    rcases List.mem_cons.mp listed with same | listed
    · exact hex _ (by omega) same.symm
    · exact hex _ (by omega) (List.mem_singleton.mp listed).symm
  rw [Uuid.toList_display]
  simp [digits]

@[simp] theorem keyDevice_wipeKey (d : Uuid) (id : String) : keyDevice (wipeKey d id) = some d := by
  have split : (wipeKey d id).toList =
      ['w', 'i', 'p', 'e'] ++ ':' :: (d.display.toList ++ ':' :: id.toList) := by
    simp [wipeKey, keyPrefix]
  have first : ∀ c ∈ ['w', 'i', 'p', 'e'], (c == ':') = false := by simp
  have second : ∀ c ∈ d.display.toList, (c == ':') = false := by
    intro c member
    rw [beq_eq_false_iff_ne]
    rintro rfl
    exact colon_not_mem_display d member
  rw [keyDevice, split, List.splitOn, List.splitOnP_append_cons_of_forall_mem first _ rfl,
    List.splitOnP_append_cons_of_forall_mem second _ rfl]
  simp

section

variable {serde : SerdeJson} {chrono : Chrono} {d : Uuid} {rename : String ≃ String}
  {r r' : Redis}

/-- The two servers hold these two stores and are otherwise the same. -/
abbrev Holding (r r' : Redis) : Server → Server → Prop := Alike fun a a' => a = r ∧ a' = r'

theorem simulates_sendWipes (d' : Uuid) {wipes wipes' : List PendingWipe}
    (same : SaysSame wipes wipes') :
    Simulates Clean (Holding r r') (fun _ _ => True) (sendWipes d' wipes)
    (sendWipes d' wipes') := by
  rw [sendWipes_eq, sendWipes_eq, same]
  exact simulates_forM fun content _ =>
    (simulates_sendToDevice d' _).bind fun _ _ _ => simulates_pure trivial

theorem simulates_deliverPendingWipes (renames : Renames serde chrono d rename r r')
    (pages : Nat) (d' : Uuid) :
    Simulates Clean (Holding r r') (fun _ _ => True) (deliverPendingWipes serde chrono pages d')
      (deliverPendingWipes serde chrono pages d') := by
  refine (simulates_onRedis (simulates_getPendingWipes renames pages d')).bind ?_
  rintro (e | wipes) (e' | wipes') same
  · exact simulates_pure trivial
  · exact same.elim
  · exact same.elim
  · exact simulates_sendWipes d' same

theorem simulates_sweepWipe (renames : Renames serde chrono d rename r r') (pages : Nat)
    (key : String) :
    Simulates Clean (Holding r r') (SameOutcome fun _ _ => True)
      (sweepWipe serde chrono pages key).run (sweepWipe serde chrono pages key).run := by
  unfold sweepWipe
  split
  · exact simulates_pure trivial
  · rename_i d' _
    refine Simulates.run_bind (simulates_atomically fun s s' alike => ⟨?_, alike⟩) ?_
    · rw [alike.1]
    · rintro online _ rfl
      split
      · refine Simulates.run_bind
          (simulates_onRedis (simulates_getPendingWipes renames pages d')).attempt ?_
        rintro (e | wipes) (e' | wipes') same
        · exact simulates_pure trivial
        · exact same.elim
        · exact same.elim
        · exact (simulates_sendWipes d' same).lift
      · exact simulates_pure trivial

theorem sweepWipe_renameKey (pages : Nat) (key : String) :
    sweepWipe serde chrono pages (renameKey d rename key) = sweepWipe serde chrono pages key := by
  by_cases wipe : ∃ id, key = wipeKey d id
  · obtain ⟨id, rfl⟩ := wipe
    rw [renameKey_wipeKey, sweepWipe, sweepWipe, keyDevice_wipeKey, keyDevice_wipeKey]
  · rw [renameKey_of_ne fun id same => wipe ⟨id, same⟩]

theorem forM_sweepWipe (pages : Nat) (keys : List String) :
    (forM (keys.map (renameKey d rename)) (sweepWipe serde chrono pages)) =
      forM keys (sweepWipe serde chrono pages) := by
  induction keys with
  | nil => rfl
  | cons key keys ih =>
      rw [List.map_cons, List.forM_cons, List.forM_cons, ih, sweepWipe_renameKey]

theorem simulates_wipePending (renames : Renames serde chrono d rename r r') (rounds pages : Nat)
    {cursor cursor' : Cursor} (covers : Covers d rename "wipe:" r r' cursor cursor') :
    Simulates Clean (Holding r r') (SameOutcome fun _ _ => True)
      (wipePending serde chrono rounds pages cursor).run
      (wipePending serde chrono rounds pages cursor').run := by
  induction rounds generalizing cursor cursor' with
  | zero =>
      intro _ _ _ _ _ run
      cases run
  | succ rounds ih =>
      refine Simulates.run_bind
        (simulates_onRedis (simulates_scan renames coarse_wipe covers)) ?_
      rintro ⟨next, keys⟩ ⟨next', keys'⟩ ⟨rfl, covers'⟩
      dsimp only
      rw [forM_sweepWipe]
      refine Simulates.run_bind
        (simulates_run_forM fun key _ => simulates_sweepWipe renames pages key) fun _ _ _ => ?_
      by_cases done : next = .zero
      · rw [if_pos done, if_pos (covers'.1.mp done)]
        exact simulates_pure trivial
      · rw [if_neg done, if_neg fun zero => done (covers'.1.mpr zero)]
        exact ih covers'

end

section

variable {chrono : Chrono}

/-- The servers differ in what Redis stores, not in its time. -/
abbrev SameTime : Server → Server → Prop := Alike fun r r' => r'.now = r.now

theorem simulates_storeWipe (targets : List Uuid) (request : WipeRequest) :
    Simulates Clean (fun r r' => r'.now = r.now) (SameOutcome Eq)
      (Messaging.issueWipe chrono targets request).run
      (Messaging.issueWipe chrono targets request).run := by
  intro r r' outcome r₁ now run
  obtain ⟨id, rfl, rfl⟩ := runs_issueWipe.mp run
  have lasts : 0 < WIPE_TTL_SECONDS.toNat := by decide
  refine ⟨_, _, runs_issueWipe.mpr ⟨id, rfl, rfl⟩, ?_, rfl⟩
  exact (peek_storeWipes lasts targets r' "").1.trans
    (now.trans (peek_storeWipes lasts targets r "").1.symm)

theorem simulates_listByUser (user : Uuid) :
    Simulates Clean SameTime (SameOutcome Eq) (query fun _ => Db.listByUser user).run
      (query fun _ => Db.listByUser user).run :=
  simulates_query (fun _ _ now => now) _

theorem simulates_devicesOrNone (user : Uuid) :
    Simulates Clean SameTime (SameOutcome Eq) (devicesOrNone (Db.listByUser user)).run
      (devicesOrNone (Db.listByUser user)).run := by
  refine Simulates.run_bind (simulates_listByUser user).attempt ?_
  rintro (e | devices) (e' | devices') same
  · exact simulates_pure rfl
  · exact same.elim
  · exact same.elim
  · exact simulates_pure same

theorem simulates_wipeTargets (user : Uuid) (request : WipeRequest) :
    Simulates Clean SameTime (SameOutcome Eq) (wipeTargets user request).run
      (wipeTargets user request).run := by
  unfold wipeTargets
  split
  · refine Simulates.run_bind (simulates_devicesOrNone user) ?_
    rintro devices _ rfl
    exact simulates_pure rfl
  · exact simulates_pure rfl
  · have partners : Simulates Clean SameTime (SameOutcome Eq) (partnerDevices request).run
        (partnerDevices request).run := by
      unfold partnerDevices
      split
      · exact simulates_devicesOrNone _
      · exact simulates_pure rfl
    refine Simulates.run_bind partners ?_
    rintro theirs _ rfl
    refine Simulates.run_bind (simulates_devicesOrNone user) ?_
    rintro own _ rfl
    exact simulates_pure rfl

theorem simulates_wipeCommand (user sender : Uuid) (request : WipeRequest) :
    Simulates Clean SameTime (SameOutcome fun _ _ => True)
      (wipeCommand chrono user sender request).run
      (wipeCommand chrono user sender request).run := by
  refine Simulates.run_bind (simulates_wipeTargets user request) ?_
  rintro targets _ rfl
  refine Simulates.run_bind (simulates_onRedis (simulates_storeWipe targets request)).adapt ?_
  rintro id _ rfl
  exact (simulates_sendToEach _ _).lift

theorem simulates_issueTargets (user : Uuid) (request : WipeRequest) :
    Simulates Clean SameTime (SameOutcome Eq) (issueTargets user request).run
      (issueTargets user request).run := by
  unfold issueTargets
  split
  · refine Simulates.run_bind (simulates_listByUser user).adapt ?_
    rintro devices _ rfl
    exact simulates_pure rfl
  · split
    · exact simulates_pure rfl
    · exact simulates_pure rfl
  · split
    · exact simulates_pure rfl
    · refine Simulates.run_bind (simulates_listByUser _).adapt ?_
      rintro theirs _ rfl
      refine Simulates.run_bind (simulates_listByUser user).adapt ?_
      rintro own _ rfl
      exact simulates_pure rfl

theorem simulates_issueWipe (auth : AuthUser) (request : WipeRequest) :
    Simulates Clean SameTime (SameOutcome fun _ _ => True) (issueWipe chrono auth request).run
      (issueWipe chrono auth request).run := by
  refine Simulates.run_bind (simulates_atomically fun s s' alike => ?_) ?_
  · have times : recent s' ("wipe:" ++ auth.userId.display) WIPE_WINDOW_SECONDS =
        recent s ("wipe:" ++ auth.userId.display) WIPE_WINDOW_SECONDS := by
      rw [recent, recent, alike.2, alike.1]
    rw [times]
    split
    · refine ⟨rfl, ?_, alike.2⟩
      rw [alike.1]
    · refine ⟨rfl, ?_, alike.2⟩
      rw [alike.1, alike.2]
  · rintro passes _ rfl
    split
    · refine Simulates.run_bind (simulates_issueTargets _ request) ?_
      rintro targets _ rfl
      split
      · exact simulates_pure rfl
      · refine Simulates.run_bind (simulates_onRedis (simulates_storeWipe targets request)).adapt ?_
        rintro id _ rfl
        exact Simulates.run_bind (simulates_sendToEach _ _).lift fun _ _ _ => simulates_pure trivial
    · exact simulates_pure rfl

end

section

variable {serde : SerdeJson} {chrono : Chrono} {P : Redis → Redis → Prop} {α β : Type}
  {s s' : Server} {d : Uuid} {texts : List String}

/-- The texts that a run of the program sends to the device. -/
def Tells (t : Program Chance Server α) (s : Server) (d : Uuid) (texts : List String) : Prop :=
  ∃ a s', Runs Clean t s a s' ∧ newTexts s s' d = texts

theorem Alike.symm {s s' : Server} (alike : Alike P s s') : Alike (fun r r' => P r' r) s' s := by
  obtain ⟨same, related⟩ := alike
  refine ⟨?_, related⟩
  rw [same]

theorem Tells.simulated {A : α → β → Prop} {t : Program Chance Server α}
    {t' : Program Chance Server β} (simulates : Simulates Clean (Alike P) A t t')
    (alike : Alike P s s') (tells : Tells t s d texts) : Tells t' s' d texts := by
  obtain ⟨a, s₁, run, rfl⟩ := tells
  obtain ⟨b, s₁', run', alike', -⟩ := simulates _ _ _ _ alike run
  refine ⟨b, s₁', run', ?_⟩
  rw [alike.1, alike'.1]
  rfl

variable (serde chrono) in
/-- The servers differ in the ids of the pending wipes of the device and in nothing else. -/
def DifferInIds (d : Uuid) (s s' : Server) : Prop :=
  s' = { s with redis := s'.redis } ∧
    ∃ rename, Renames serde chrono d rename s.redis s'.redis

theorem DifferInIds.symm {s s' : Server} (differ : DifferInIds serde chrono d s s') :
    DifferInIds serde chrono d s' s := by
  obtain ⟨same, rename, renames⟩ := differ
  refine ⟨?_, rename.symm, renames.symm⟩
  rw [same]

/-- Everything the device is told about wipes in the first state it may be told in the second. -/
theorem DifferInIds.tells {s s' : Server} (differ : DifferInIds serde chrono d s s')
    (texts : List String) :
    (∀ pages, Tells (deliverPendingWipes serde chrono pages d) s d texts →
      Tells (deliverPendingWipes serde chrono pages d) s' d texts) ∧
    (∀ rounds pages, Tells (wipePending serde chrono rounds pages .zero).run s d texts →
      Tells (wipePending serde chrono rounds pages .zero).run s' d texts) ∧
    (∀ user sender request, Tells (wipeCommand chrono user sender request).run s d texts →
      Tells (wipeCommand chrono user sender request).run s' d texts) ∧
    ∀ auth request, Tells (issueWipe chrono auth request).run s d texts →
      Tells (issueWipe chrono auth request).run s' d texts := by
  obtain ⟨same, rename, renames⟩ := differ
  have holding : Holding s.redis s'.redis s s' := ⟨same, rfl, rfl⟩
  have sameTime : SameTime s s' := ⟨same, renames.now⟩
  refine ⟨fun pages => ?_, fun rounds pages => ?_, fun user sender request => ?_,
    fun auth request => ?_⟩
  · exact Tells.simulated (simulates_deliverPendingWipes renames pages d) holding
  · exact Tells.simulated
      (simulates_wipePending renames rounds pages (renames.covers coarse_wipe)) holding
  · exact Tells.simulated (simulates_wipeCommand user sender request) sameTime
  · exact Tells.simulated (simulates_issueWipe auth request) sameTime

theorem total_sendWipes (d : Uuid) (wipes : List PendingWipe) :
    Total Clean (sendWipes d wipes) :=
  total_forM wipes fun _ => (total_sendToDevice _ _).bind fun _ => total_pure _

theorem total_deliverPendingWipes (serde : SerdeJson) (chrono : Chrono) (d : Uuid) :
    Total Clean (deliverPendingWipes serde chrono 1 d) := by
  refine Total.bind (total_onRedis (total_scanLoop total_pendingPage _ _)) fun wipes => ?_
  cases wipes with
  | ok wipes => exact total_sendWipes d wipes
  | error e => exact total_pure _

theorem deliverPendingWipes_tells (serde : SerdeJson) (chrono : Chrono) (s : Server) (d : Uuid) :
    ∃ texts, Tells (deliverPendingWipes serde chrono 1 d) s d texts := by
  obtain ⟨a, s', run⟩ := total_deliverPendingWipes serde chrono d s
  exact ⟨_, a, s', run, rfl⟩

end

/-- Whatever ids the pending wipes of a device have, the device is told the same; so it cannot
acknowledge even the one wipe that is issued for it after the server has started. -/
theorem wipes_not_acknowledged {serde : SerdeJson} {chrono : Chrono} (lawful : serde.Lawful)
    (inverse : chrono.Inverse) (config : AppConfig) (now : Nat) (db : Db.Tables)
    (user sender d : Uuid) :
    (∀ s s', DifferInIds serde chrono d s s' → ∀ texts,
      (∀ pages, Tells (deliverPendingWipes serde chrono pages d) s d texts ↔
        Tells (deliverPendingWipes serde chrono pages d) s' d texts) ∧
      (∀ rounds pages, Tells (wipePending serde chrono rounds pages .zero).run s d texts ↔
        Tells (wipePending serde chrono rounds pages .zero).run s' d texts) ∧
      (∀ user sender request, Tells (wipeCommand chrono user sender request).run s d texts ↔
        Tells (wipeCommand chrono user sender request).run s' d texts) ∧
      ∀ auth request, Tells (issueWipe chrono auth request).run s d texts ↔
        Tells (issueWipe chrono auth request).run s' d texts) ∧
    ¬ ∃ acks : List String → List WipeAckDto, ∀ s,
      Runs Clean (handleWsMessage config chrono user sender
        (.wipeCommand ⟨.device, some d, none⟩)).run (Server.start now db) (.ok ()) s →
      ∀ pages texts, Tells (deliverPendingWipes serde chrono pages d) (s.connect d 0) d texts →
        ∀ id, ⟨id, d⟩ ∈ acks texts ↔ (s.redis.get? (wipeKey d id)).isSome := by
  constructor
  · intro s s' differ texts
    obtain ⟨connect, sweep, command, issue⟩ := differ.tells texts
    obtain ⟨connect', sweep', command', issue'⟩ := differ.symm.tells texts
    exact ⟨fun pages => ⟨connect pages, connect' pages⟩,
      fun rounds pages => ⟨sweep rounds pages, sweep' rounds pages⟩,
      fun user sender request => ⟨command user sender request, command' user sender request⟩,
      fun auth request => ⟨issue auth request, issue' auth request⟩⟩
  · rintro ⟨acks, exact_⟩
    -- the same wipe under two ids
    let start := Server.start now db
    let request : WipeRequest := ⟨.device, some d, none⟩
    let one : Uuid := .replicate 16 1
    let two : Uuid := .replicate 16 2
    have lasts : ∀ n ∈ some WIPE_TTL_SECONDS.toNat, 0 < n := by decide
    have differ : DifferInIds serde chrono d ((wiped chrono start request d one).connect d 0)
        ((wiped chrono start request d two).connect d 0) :=
      ⟨rfl, _, renames_set lawful inverse d one.display two.display request now (by decide)⟩
    obtain ⟨texts, told⟩ := deliverPendingWipes_tells serde chrono
      ((wiped chrono start request d one).connect d 0) d
    have first := exact_ _ (wipeCommand_returns chrono start user sender d none one rfl) 1 texts
      told one.display
    have second := exact_ _ (wipeCommand_returns chrono start user sender d none two rfl) 1 texts
      ((differ.tells texts).1 1 told) one.display
    have pending : ((wiped chrono start request d one).redis.get?
        (wipeKey d one.display)).isSome = true := by
      rw [wiped, Store.get?_set lasts]
      rfl
    have absent : ((wiped chrono start request d two).redis.get?
        (wipeKey d one.display)).isSome = false := by
      have other : wipeKey d one.display ≠ wipeKey d two.display := by
        intro same
        have equal := Uuid.display_injective (wipeKey_inj.mp same).2
        revert equal
        decide
      rw [wiped, Store.get?_set_of_ne other]
      rfl
    rw [first.mpr pending |> second.mp] at absent
    cases absent

theorem wipes_not_acknowledged_sample :
    ¬ ∃ acks : List String → List WipeAckDto, ∀ s,
      Runs Clean (handleWsMessage ⟨none, ""⟩ Chrono.sample (.replicate 16 2) (.replicate 16 5)
        (.wipeCommand ⟨.device, some (.replicate 16 7), none⟩)).run
        (Server.start 0 { devices := [.sample (.replicate 16 7) (.replicate 16 2)] }) (.ok ()) s →
      ∀ pages texts, Tells (deliverPendingWipes SerdeJson.sample Chrono.sample pages
          (.replicate 16 7)) (s.connect (.replicate 16 7) 0) (.replicate 16 7) texts →
        ∀ id, ⟨id, .replicate 16 7⟩ ∈ acks texts ↔
          (s.redis.get? (wipeKey (.replicate 16 7) id)).isSome :=
  (wipes_not_acknowledged SerdeJson.sample_lawful Chrono.sample_inverse ⟨none, ""⟩ 0 _
    (.replicate 16 2) (.replicate 16 5) (.replicate 16 7)).2

/-- User 2 wipes the own phone 7. Under the identifiers 1 and 2 of the wipe the phone is told the
same when it connects. -/
theorem told_same_under_ids :
    let phone : Uuid := .replicate 16 7
    let start := Server.start 0 { devices := [.sample phone (.replicate 16 2)] }
    let request : WipeRequest := ⟨.device, some phone, none⟩
    ∃ s s', Runs Clean (handleWsMessage ⟨none, ""⟩ Chrono.sample (.replicate 16 2)
        (.replicate 16 5) (.wipeCommand request)).run start (.ok ()) s ∧
      Runs Clean (handleWsMessage ⟨none, ""⟩ Chrono.sample (.replicate 16 2)
        (.replicate 16 5) (.wipeCommand request)).run start (.ok ()) s' ∧
      DifferInIds SerdeJson.sample Chrono.sample phone (s.connect phone 0) (s'.connect phone 0) ∧
      (s.redis.get? (wipeKey phone (Uuid.display (.replicate 16 1)))).isSome ∧
      (s'.redis.get? (wipeKey phone (Uuid.display (.replicate 16 2)))).isSome ∧
      ∀ texts, Tells (deliverPendingWipes SerdeJson.sample Chrono.sample 1 phone)
          (s.connect phone 0) phone texts ↔
        Tells (deliverPendingWipes SerdeJson.sample Chrono.sample 1 phone)
          (s'.connect phone 0) phone texts := by
  intro phone start request
  have lasts : ∀ n ∈ some WIPE_TTL_SECONDS.toNat, 0 < n := by decide
  have differ : DifferInIds SerdeJson.sample Chrono.sample phone
      ((wiped Chrono.sample start request phone (.replicate 16 1)).connect phone 0)
      ((wiped Chrono.sample start request phone (.replicate 16 2)).connect phone 0) :=
    ⟨rfl, _, renames_set SerdeJson.sample_lawful Chrono.sample_inverse phone _ _
      request 0 (by decide)⟩
  refine ⟨_, _, wipeCommand_returns Chrono.sample start _ _ phone none (.replicate 16 1) rfl,
    wipeCommand_returns Chrono.sample start _ _ phone none
    (.replicate 16 2) rfl, differ, ?_, ?_, ?_⟩
  · rw [wiped, Store.get?_set lasts]
    rfl
  · rw [wiped, Store.get?_set lasts]
    rfl
  · exact fun texts => ⟨(differ.tells texts).1 1, (differ.symm.tells texts).1 1⟩

end Hysj.Api
