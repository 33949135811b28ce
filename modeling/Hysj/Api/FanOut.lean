import Hysj.Api.GroupAdmins
import Hysj.Api.Offline

set_option autoImplicit false

/- Which devices a group message reaches. -/
namespace Hysj.Api

open Crypto Shared Messaging Program

/-- What waits for a device under the name of a message. -/
def Server.queued (s : Server) (d : Uuid) (messageId : String) : Option Bytes :=
  s.redis.get? (msgKey d messageId)

/-- The device is one of another member of the group. -/
def OfOther (t : Db.Tables) (user group d : Uuid) : Prop :=
  ∃ row ∈ t.devices, row.id = d ∧ row.userId ≠ user ∧ IsIn t group row.userId

/-- Nothing was sent to the device, and nothing queued for it. -/
def Untouched (s s' : Server) (d : Uuid) : Prop :=
  newTexts s s' d = [] ∧ ∀ id, s'.queued d id = s.queued d id

/-- The message was sent to the device, or waits for it, but not both. -/
def ReachedOnce (s s' : Server) (group : Uuid) (envelope : EncryptedEnvelope) (d : Uuid) : Prop :=
  (newTexts s s' d = [(WsMessage.sendGroupMessage group envelope).text] ∧
      ∀ id, s'.queued d id = s.queued d id) ∨
    newTexts s s' d = [] ∧ s'.queued d envelope.messageId = some (envelopeBlob envelope) ∧
      ∀ id, id ≠ envelope.messageId → s'.queued d id = s.queued d id

/-- The message of a member reaches each device of the other members once and no other device,
and that of anyone else reaches nobody. -/
def FansOut (s s' : Server) (user group : Uuid) (envelope : EncryptedEnvelope) : Prop :=
  ∀ d, (IsIn s.db group user → OfOther s.db user group d → ReachedOnce s s' group envelope d) ∧
    (¬ (IsIn s.db group user ∧ OfOther s.db user group d) → Untouched s s' d)

/-- The message can be queued for the device, or waits for it already. -/
def Queueable (s : Server) (envelope : EncryptedEnvelope) (d : Uuid) : Prop :=
  s.queued d envelope.messageId = some (envelopeBlob envelope) ∨
    s.queued d envelope.messageId = none ∧ messageTtl envelope ≠ 0

/-- The device is away, and what is queued for it under the name of the message is lost. -/
def Deaf (s : Server) (envelope : EncryptedEnvelope) (d : Uuid) : Prop :=
  ¬ s.Online d ∧ ((s.queued d envelope.messageId).isSome ∨ messageTtl envelope = 0)

section

variable {s s' m : Server} {user group d d' : Uuid} {envelope : EncryptedEnvelope} {text : String}

/-- What is done for other devices leaves the device alone. -/
structure Spared (d : Uuid) (s s' : Server) : Prop where
  sent : ∃ frames, s'.sent = s.sent ++ frames ∧ ∀ f ∈ frames, f.deviceId ≠ d
  connection : s'.connections d = s.connections d
  closed : s'.closed = s.closed
  queue : ∀ id, s'.queued d id = s.queued d id

theorem Spared.refl : Spared d s s :=
  ⟨⟨[], (List.append_nil _).symm, List.forall_mem_nil _⟩, rfl, rfl, fun _ => rfl⟩

theorem Spared.trans (first : Spared d s m) (second : Spared d m s') : Spared d s s' := by
  obtain ⟨frames, sent, others⟩ := first.sent
  obtain ⟨frames', sent', others'⟩ := second.sent
  constructor
  · refine ⟨frames ++ frames', ?_, ?_⟩
    · rw [sent', sent, List.append_assoc]
    · exact List.forall_mem_append.mpr ⟨others, others'⟩
  · rw [second.connection, first.connection]
  · rw [second.closed, first.closed]
  · intro id
    rw [second.queue, first.queue]

theorem Spared.online_iff (spared : Spared d s s') : s'.Online d ↔ s.Online d := by
  rw [Server.Online, Server.Online, spared.connection, spared.closed]

/-- What was done for the device between two times when it was left alone is all there is. -/
theorem newTexts_spared {m' : Server} {frames : List Sent} (before : Spared d s m)
    (sent : m'.sent = m.sent ++ frames) (after : Spared d m' s') :
    newTexts s s' d = (frames.filter fun f => f.deviceId = d).map Sent.text := by
  obtain ⟨earlier, first, others⟩ := before.sent
  obtain ⟨later, last, others'⟩ := after.sent
  have none {frames : List Sent} (others : ∀ f ∈ frames, f.deviceId ≠ d) :
      frames.filter (fun f => f.deviceId = d) = [] := by
    rw [List.filter_eq_nil_iff]
    intro f member
    simpa using others f member
  rw [newTexts, last, sent, first, List.append_assoc, List.append_assoc, List.drop_left,
    List.filter_append, List.filter_append, none others, none others', List.nil_append,
    List.append_nil]

theorem Spared.newTexts (spared : Spared d s s') : newTexts s s' d = [] := by
  have texts := newTexts_spared spared (List.append_nil _).symm Spared.refl
  rw [texts, List.filter_nil, List.map_nil]

/-- What is queued after a message was offered to the queue of a device that is away. -/
theorem queued_enqueuedFor (redis : s'.redis = (enqueuedFor s envelope d').2) (id : String) :
    s'.queued d id =
      if d = d' ∧ id = envelope.messageId ∧ s.queued d id = none ∧ messageTtl envelope ≠ 0 then
        some (envelopeBlob envelope)
      else s.queued d id := by
  rw [Server.queued, redis, enqueuedFor, enqueued]
  by_cases there : (s.redis.get? (msgKey d' envelope.messageId)).isSome
  · rw [if_pos there, if_neg]
    · rfl
    · rintro ⟨rfl, rfl, absent, -⟩
      rw [Server.queued] at absent
      rw [absent] at there
      cases there
  · rw [if_neg there]
    rw [Bool.not_eq_true, Option.isSome_eq_false_iff, Option.isNone_iff_eq_none] at there
    by_cases expires : messageTtl envelope = 0
    · rw [if_pos expires, if_neg fun both => both.2.2.2 expires]
      rfl
    · rw [if_neg expires]
      have positive : ∀ n ∈ some (messageTtl envelope).toNat, 0 < n := by
        intro n given
        obtain rfl := Option.some.inj given
        rw [Nat.pos_iff_ne_zero]
        exact fun zero => expires (UInt64.toNat_inj.mp zero)
      by_cases key : d = d' ∧ id = envelope.messageId
      · obtain ⟨rfl, rfl⟩ := key
        rw [if_pos ⟨rfl, rfl, there, expires⟩]
        exact Store.get?_set positive
      · rw [if_neg fun both => key ⟨both.1, both.2.1⟩]
        exact Store.get?_set_of_ne fun keys => key (msgKey_inj.mp keys)

theorem afterSend_of_online (text : String) (online : s.Online d) :
    ∃ socket, afterSend s d text = { s with sent := s.sent ++ [⟨socket, d, text⟩] } := by
  obtain ⟨socket, found, alive⟩ := online
  refine ⟨socket, ?_⟩
  unfold afterSend
  rw [found]
  dsimp only
  rw [alive]
  rfl

theorem sent_afterSend_of_away (away : ¬ s.Online d) : (afterSend s d text).sent = s.sent := by
  unfold afterSend
  split
  · rfl
  · rename_i socket found
    split
    · rfl
    · rename_i alive
      rw [Bool.not_eq_true] at alive
      exact (away ⟨socket, found, alive⟩).elim

theorem sent_afterSend_of_ne (other : d ≠ d') :
    ∃ frames, (afterSend s d' text).sent = s.sent ++ frames ∧ ∀ f ∈ frames, f.deviceId ≠ d := by
  by_cases online : s.Online d'
  · obtain ⟨socket, after⟩ := afterSend_of_online text online
    rw [after]
    refine ⟨_, rfl, ?_⟩
    intro f member
    rw [List.mem_singleton.mp member]
    exact other.symm
  · rw [sent_afterSend_of_away online]
    exact Spared.refl.sent

theorem spared_sendToMember (other : d ≠ d')
    (run : Runs Clean (sendToMember group envelope d').run s (.ok ()) s') : Spared d s s' := by
  rcases runs_sendToMember run with ⟨-, rfl⟩ | ⟨-, rfl⟩
  · refine ⟨sent_afterSend_of_ne other, connections_afterSend_of_ne other, closed_afterSend, ?_⟩
    intro id
    rw [Server.queued, redis_afterSend, Server.queued]
  · refine ⟨sent_afterSend_of_ne other, connections_afterSend_of_ne other, closed_afterSend, ?_⟩
    intro id
    rw [queued_enqueuedFor rfl, if_neg fun both => other both.1]

theorem spared_sendToMembers {devices : List Db.Device} (others : d ∉ devices.map Db.Device.id)
    (run : Runs Clean (forM devices fun device => sendToMember group envelope device.id).run s
      (.ok ()) s') : Spared d s s' := by
  induction devices generalizing s with
  | nil =>
      obtain ⟨-, rfl⟩ := runs_run_pure.mp run
      exact Spared.refl
  | cons device devices ih =>
      rw [List.map_cons, List.mem_cons, not_or] at others
      rw [List.forM_cons, runs_run_bind_ok] at run
      obtain ⟨⟨⟩, m, first, rest⟩ := run
      exact (spared_sendToMember others.1 first).trans (ih others.2 rest)

/-- What a device gets: the text where it is online, and otherwise what the queue takes. -/
structure Served (group : Uuid) (envelope : EncryptedEnvelope) (d : Uuid)
    (s s' : Server) : Prop where
  online : s.Online d → newTexts s s' d = [(WsMessage.sendGroupMessage group envelope).text] ∧
    ∀ id, s'.queued d id = s.queued d id
  away : ¬ s.Online d → newTexts s s' d = [] ∧ ∀ id, s'.queued d id =
    if id = envelope.messageId ∧ s.queued d id = none ∧ messageTtl envelope ≠ 0 then
      some (envelopeBlob envelope)
    else s.queued d id

theorem served_sendToMember {m' : Server} (before : Spared d s m)
    (run : Runs Clean (sendToMember group envelope d).run m (.ok ()) m') (after : Spared d m' s') :
    Served group envelope d s s' := by
  rcases runs_sendToMember run with ⟨online, rfl⟩ | ⟨away, rfl⟩
  · constructor
    · intro _
      obtain ⟨socket, sent⟩ :=
        afterSend_of_online (WsMessage.sendGroupMessage group envelope).text online
      rw [newTexts_spared before (congrArg Server.sent sent) after]
      constructor
      · simp
      · intro id
        rw [after.queue, Server.queued, redis_afterSend, ← Server.queued, before.queue]
    · intro away
      exact (away (before.online_iff.mp online)).elim
  · constructor
    · intro online
      exact (away (before.online_iff.mpr online)).elim
    · intro _
      have texts :
          newTexts s s' d = (([] : List Sent).filter fun f => f.deviceId = d).map Sent.text :=
        newTexts_spared before (by rw [List.append_nil]; exact sent_afterSend_of_away away) after
      constructor
      · exact texts
      · intro id
        rw [after.queue, queued_enqueuedFor rfl, before.queue]
        simp only [true_and]

theorem served_sendToMembers {devices : List Db.Device}
    (distinct : (devices.map Db.Device.id).Nodup)
    (member : d ∈ devices.map Db.Device.id)
    (run : Runs Clean (forM devices fun device => sendToMember group envelope device.id).run m
      (.ok ()) s') (before : Spared d s m) : Served group envelope d s s' := by
  induction devices generalizing m with
  | nil => cases member
  | cons device devices ih =>
      rw [List.map_cons, List.nodup_cons] at distinct
      rw [List.forM_cons, runs_run_bind_ok] at run
      obtain ⟨⟨⟩, m', first, rest⟩ := run
      by_cases here : d = device.id
      · subst here
        exact served_sendToMember before first (spared_sendToMembers distinct.1 rest)
      · have later := (List.mem_cons.mp member).resolve_left here
        exact ih distinct.2 later rest (before.trans (spared_sendToMember here first))

theorem mem_memberDevices {t : Db.Tables} :
    d ∈ (memberDevices t user group).map Db.Device.id ↔ OfOther t user group d := by
  have member (u : Uuid) :
      u ∈ otherMembers user (t.groupMembers.filter fun m => m.groupId = group) ↔
      u ≠ user ∧ IsIn t group u := by
    simp only [otherMembers, IsIn, List.mem_map, List.mem_filter, decide_eq_true_eq]
    constructor
    · rintro ⟨row, ⟨⟨listed, ofGroup⟩, other⟩, rfl⟩
      exact ⟨other, row, listed, ofGroup, rfl⟩
    · rintro ⟨other, row, listed, ofGroup, rfl⟩
      exact ⟨row, ⟨⟨listed, ofGroup⟩, other⟩, rfl⟩
  rw [List.mem_map]
  constructor
  · rintro ⟨row, listed, is⟩
    obtain ⟨there, found⟩ := List.mem_filter.mp listed
    exact ⟨row, there, is, (member _).mp (of_decide_eq_true found)⟩
  · rintro ⟨row, there, is, others⟩
    exact ⟨row, List.mem_filter.mpr ⟨there, decide_eq_true ((member _).mpr others)⟩, is⟩

theorem ok_of_sendGroupMessage {outcome : Except String Unit}
    (run : Runs Clean (sendGroupMessage user group envelope).run s outcome s') :
    outcome = .ok () := by
  obtain ⟨⟨⟩, is⟩ := succeeds_sendGroupMessage user group envelope s outcome s' run
  exact is

theorem sendGroupMessage_spec {outcome : Except String Unit}
    (distinct : (s.db.devices.map Db.Device.id).Nodup)
    (run : Runs Clean (sendGroupMessage user group envelope).run s outcome s') (d : Uuid) :
    (OfOther s.db user group d → Served group envelope d s s') ∧
      (¬ OfOther s.db user group d → Untouched s s' d) := by
  obtain rfl := ok_of_sendGroupMessage run
  have sends := runs_sendGroupMessage run
  have keys : ((memberDevices s.db user group).map Db.Device.id).Nodup :=
    distinct.sublist (List.filter_sublist.map _)
  rw [← mem_memberDevices]
  constructor
  · exact fun member => served_sendToMembers keys member sends Spared.refl
  · intro others
    have spared := spared_sendToMembers others sends
    exact ⟨spared.newTexts, spared.queue⟩

theorem Served.reachedOnce_iff (served : Served group envelope d s s') :
    ReachedOnce s s' group envelope d ↔ s.Online d ∨ Queueable s envelope d := by
  by_cases online : s.Online d
  · exact iff_of_true (Or.inl (served.online online)) (Or.inl online)
  · obtain ⟨texts, queue⟩ := served.away online
    have here := queue envelope.messageId
    simp only [true_and] at here
    have others : ∀ id, id ≠ envelope.messageId → s'.queued d id = s.queued d id := by
      intro id other
      rw [queue, if_neg fun both => other both.1]
    rw [ReachedOnce, texts, here, Queueable, or_iff_right online]
    cases before : s.queued d envelope.messageId with
    | none =>
        by_cases expires : messageTtl envelope = 0
        · simp [expires]
        · simpa [expires] using others
    | some blob => simpa using fun _ => others

theorem Served.untouched_iff (served : Served group envelope d s s') :
    Untouched s s' d ↔ Deaf s envelope d := by
  by_cases online : s.Online d
  · have texts := (served.online online).1
    apply iff_of_false
    · rintro ⟨none, -⟩
      rw [texts] at none
      cases none
    · exact fun deaf => deaf.1 online
  · obtain ⟨texts, queue⟩ := served.away online
    rw [Untouched, Deaf, and_iff_right texts, and_iff_right online]
    constructor
    · intro same
      have here := queue envelope.messageId
      rw [same] at here
      by_contra lost
      rw [not_or, Option.not_isSome_iff_eq_none] at lost
      rw [if_pos ⟨rfl, lost⟩, lost.1] at here
      cases here
    · intro lost id
      rw [queue, if_neg]
      rintro ⟨rfl, absent, lasts⟩
      rw [absent] at lost
      exact lost.elim (fun there => by cases there) lasts

end

/-- A group message reaches each device of the other members once and nobody else exactly if it
can be queued wherever a device is away, and, from someone who is no member, if every device is
away and queues nothing. -/
theorem fansOut_iff (config : AppConfig) (chrono : Chrono) (user sender group : Uuid)
    (envelope : EncryptedEnvelope) (s s' : Server) (outcome : Except String Unit)
    (distinct : (s.db.devices.map Db.Device.id).Nodup)
    (run : Runs Clean (handleWsMessage config chrono user sender
      (.sendGroupMessage group envelope)).run s outcome s') :
    FansOut s s' user group envelope ↔ ∀ d, OfOther s.db user group d →
      (IsIn s.db group user → s.Online d ∨ Queueable s envelope d) ∧
        (¬ IsIn s.db group user → Deaf s envelope d) := by
  have spec := sendGroupMessage_spec distinct run
  apply forall_congr'
  intro d
  obtain ⟨serves, spares⟩ := spec d
  by_cases others : OfOther s.db user group d
  · have served := serves others
    rw [← served.reachedOnce_iff, ← served.untouched_iff]
    simp only [others, true_imp_iff, and_true]
  · simpa [others] using spares others

/-- Alice, Bob and Carol, and a group of Alice and Bob, whose devices are away. -/
def fanServer : Server :=
  .start 0
    { users := clubUsers ++
        [{ Db.User.sample (.replicate 16 3) with
            username := "carol"
            phoneNumber := "+4733333333" }]
      devices :=
        [.sample (.replicate 16 1) (.replicate 16 1), .sample (.replicate 16 2) (.replicate 16 2)]
      groups := [clubGroup]
      groupMembers := [clubMember 1 "admin", clubMember 2 "member"] }

theorem ofOther_bob {user : Uuid} (other : user ≠ .replicate 16 2) :
    OfOther fanServer.db user (.replicate 16 9) (.replicate 16 2) :=
  ⟨.sample (.replicate 16 2) (.replicate 16 2), List.mem_cons_of_mem _ List.mem_cons_self, rfl,
    other.symm, clubMember 2 "member", List.mem_cons_of_mem _ List.mem_cons_self, rfl, rfl⟩

/-- Carol, who is not in the group, writes to it, and the message waits for Bob. -/
theorem group_message_from_outside :
    ∃ s', Runs Clean (handleWsMessage ⟨none, ""⟩ Chrono.sample (.replicate 16 3) (.replicate 16 3)
        groupMessage).run fanServer (.ok ()) s' ∧
      ¬ FansOut fanServer s' (.replicate 16 3) (.replicate 16 9) groupEnvelope := by
  obtain ⟨s', run⟩ := sendGroupMessage_returns fanServer (.replicate 16 3)
    (.replicate 16 9) groupEnvelope
  refine ⟨s', run, ?_⟩
  intro fans
  have outside : ¬ IsIn fanServer.db (.replicate 16 9) (.replicate 16 3) := by
    rintro ⟨row, member, -, is⟩
    simp only [fanServer, Server.start, List.mem_cons, List.not_mem_nil, or_false] at member
    rcases member with rfl | rfl
    · exact absurd is (by decide)
    · exact absurd is (by decide)
  have untouched := (fans (.replicate 16 2)).2 fun both => outside both.1
  have served :=
    (sendGroupMessage_spec (by decide) run (.replicate 16 2)).1 (ofOther_bob (by decide))
  obtain ⟨-, waits | expires⟩ := served.untouched_iff.mp untouched
  · cases waits
  · exact absurd expires (by decide)

/-- Alice writes to the group, and the message waits for Bob alone. -/
theorem group_message_from_member :
    ∃ s', Runs Clean (handleWsMessage ⟨none, ""⟩ Chrono.sample (.replicate 16 1) (.replicate 16 1)
        groupMessage).run fanServer (.ok ()) s' ∧
      FansOut fanServer s' (.replicate 16 1) (.replicate 16 9) groupEnvelope := by
  obtain ⟨s', run⟩ := sendGroupMessage_returns fanServer (.replicate 16 1)
    (.replicate 16 9) groupEnvelope
  refine ⟨s', run, ?_⟩
  apply (fansOut_iff ⟨none, ""⟩ Chrono.sample (.replicate 16 1) (.replicate 16 1) (.replicate 16 9)
    groupEnvelope fanServer s' (.ok ()) (by decide) run).mpr
  intro d _
  constructor
  · exact fun _ => Or.inr (Or.inr ⟨rfl, by decide⟩)
  · intro outside
    exact (outside ⟨clubMember 1 "admin", List.mem_cons_self, rfl, rfl⟩).elim

end Hysj.Api
