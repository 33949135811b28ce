import Hysj.Api.Deliveries
import Hysj.Api.Offline

set_option autoImplicit false

/- Which messages were accepted, which wait in the hands of a connect, and which were placed. -/
namespace Hysj.Api

open Crypto Shared Messaging Program

section

variable {α : Type} {p r : α → Bool} {items : List α}

theorem filter_eraseP_of_apart (apart : ∀ a, p a = true → r a = false) :
    (items.eraseP p).filter r = items.filter r := by
  induction items with
  | nil => rfl
  | cons a items ih =>
      cases is : p a with
      | true => simp [is, apart a is]
      | false => simp [is, List.filter_cons, ih]

theorem filter_eraseP_self : (items.eraseP p).filter p = (items.filter p).tail := by
  induction items with
  | nil => rfl
  | cons a items ih =>
      cases is : p a with
      | true => simp [is]
      | false => simp [is, ih]

end

/-- A message in the hands of a connect, with its number in the order of acceptance. -/
structure Possession where
  call : Nat
  deviceId : Uuid
  number : Option Nat
  data : Bytes

/-- The calls and where each stands; the calls whose messages were accepted, in that order; the
number of the message that was last stored under a key; what the connects have drained and not
delivered; and the number of the message in each frame. -/
structure Post where
  calls : DeliveryCalls
  stages : List Delivery
  accepted : List Nat
  author : String → Option Nat
  held : List Possession
  carried : List (Option Nat)

/-- With this step a message is accepted: its frame is placed, or its blob is stored. -/
def Delivery.accepts (c : Chance) (placed : Bool) : Delivery → Bool
  | .sending _ => placed
  | .storing envelope => c.fault = none ∧ messageTtl envelope ≠ 0
  | _ => false

namespace Post

abbrev server (q : Post) : Server := q.calls.state

def start (s : Server) : Post := ⟨⟨s, []⟩, [], [], fun _ => none, [], []⟩

/-- What is stored last under each key after a step. -/
def authorAfter (q : Post) (c : Chance) : Delivery → String → Option Nat
  | .storing envelope =>
      if c.fault = none ∧ messageTtl envelope ≠ 0 then
        Function.update q.author (msgKey envelope.recipientDeviceId envelope.messageId)
          (some q.accepted.length)
      else q.author
  | _ => q.author

/-- What the connects have in their hands after a step. -/
def heldAfter (q : Post) (j : Nat) (c : Chance) : Delivery → List Possession
  | .draining d _ place =>
      if place.drops c then q.held.filter fun h => h.call ≠ j
      else q.held ++ (place.takes c q.server.redis).toList.map fun found =>
        ⟨j, d, q.author found.1, found.2⟩
  | .delivering _ _ _ _ => q.held.eraseP fun h => h.call = j
  | _ => q.held

/-- The number of the message in the frame that a step places. -/
def carrier (q : Post) (j : Nat) : Delivery → Option Nat
  | .sending _ => some q.accepted.length
  | .delivering _ _ _ _ => (q.held.find? fun h => h.call = j).bind Possession.number
  | _ => none

/-- What is recorded of an event. -/
def after (serde : SerdeJson) (q : Post) (e : DeliveryEvent) (p' : DeliveryCalls) : Post :=
  match e with
  | .call call => { q with calls := p', stages := q.stages ++ [.first call] }
  | .run j c =>
      match q.stages[j]? with
      | some stage =>
          { calls := p'
            stages := q.stages.set j (stage.next serde c q.server)
            accepted :=
              if stage.accepts c
              (q.server.sent.length < p'.state.sent.length) then q.accepted ++ [j]
              else q.accepted
            author := q.authorAfter c stage
            held := q.heldAfter j c stage
            carried :=
              if q.server.sent.length < p'.state.sent.length then q.carried ++ [q.carrier j stage]
              else q.carried }
      | none => { q with calls := p' }
  | .pass _ => { q with calls := p' }

/-- The frames with the numbers of their messages. -/
def frames (q : Post) : List (Sent × Option Nat) := q.server.sent.zip q.carried

/-- The numbers of the messages on the channel of a device. -/
def numbers (q : Post) (d : Uuid) : List Nat :=
  q.frames.filterMap fun f => if f.1.deviceId = d then f.2 else none

/-- The message with this number is the envelope. -/
def Sends (q : Post) (n : Nat) (envelope : EncryptedEnvelope) : Prop :=
  ∃ j rest, q.accepted[n]? = some j ∧ q.calls.threads[j]? = some ⟨.send envelope, rest⟩

/-- Every frame is for the recipient of its message and has its text, or it is a wipe. -/
def Faithful (q : Post) : Prop :=
  q.carried.length = q.server.sent.length ∧ ∀ f ∈ q.frames,
    (∃ n envelope, f.2 = some n ∧ q.Sends n envelope ∧
      f.1.deviceId = envelope.recipientDeviceId ∧
      f.1.text = (WsMessage.sendMessage envelope).text) ∨
    f.2 = none ∧ ∃ wipe, f.1.text = (WsMessage.wipeCommand wipe).text

/-- An event happens and is recorded. -/
def Posted (config : AppConfig) (chrono : Chrono) (serde : SerdeJson) (q : Post) (e : DeliveryEvent)
    (q' : Post) : Prop :=
  ∃ p', DeliveryCalls.step config chrono serde q.calls e = some p' ∧ q' = q.after serde e p'

end Post

/-- Nothing was sent yet, and no message is queued. -/
structure Server.Idle (s : Server) : Prop where
  sent : s.sent = []
  queue : ∀ d id, s.redis.peek (msgKey d id) = none

section

variable {s : Server} {d : Uuid} {text : String}

theorem sent_tried : (tried s d text = s ∧ ¬ s.Online d) ∨
    s.Online d ∧ ∃ x, (tried s d text).sent = s.sent ++ [⟨x, d, text⟩] := by
  unfold tried
  cases found : s.connections d with
  | none =>
      refine Or.inl ⟨rfl, ?_⟩
      rintro ⟨socket, is, -⟩
      rw [found] at is
      cases is
  | some socket =>
      by_cases closed : s.closed socket = true
      · simp only [if_pos closed]
        refine Or.inl ⟨trivial, ?_⟩
        rintro ⟨socket', is, opened⟩
        rw [found] at is
        rw [← Option.some.inj is, closed] at opened
        cases opened
      · simp only [if_neg closed]
        exact Or.inr ⟨⟨socket, found, Bool.not_eq_true _ ▸ closed⟩, socket, rfl⟩

end

namespace Post

section

variable {config : AppConfig} {chrono : Chrono} {serde : SerdeJson}
    {q q' : Post} {e : DeliveryEvent}
variable {i j n : Nat} {c : Chance} {stage : Delivery} {d : Uuid} {id key : String}
variable {envelope : EncryptedEnvelope} {h : Possession}

/-- An event, by what it changes. -/
inductive Moved (config : AppConfig) (chrono : Chrono) (serde : SerdeJson) (q : Post) :
    DeliveryEvent → Post → Prop where
  | call (call : DeliveryCall) : Moved config chrono serde q (.call call)
      { q with
        calls := ⟨q.server, q.calls.threads ++ [⟨call, call.program config chrono serde⟩]⟩
        stages := q.stages ++ [.first call] }
  | pass (seconds : Nat) : Moved config chrono serde q (.pass seconds)
      { q with calls := ⟨q.server.wait seconds, q.calls.threads⟩ }
  | run (j : Nat) (c : Chance) (call : DeliveryCall) (stage : Delivery) (rest rest' : DeliveryRest)
      (s' : Server) (found : q.calls.threads[j]? = some ⟨call, rest⟩)
      (there : q.stages[j]? = some stage) (stands : stage.Stands config chrono serde call rest)
      (stands' : (stage.next serde c q.server).Stands config chrono serde call rest')
      (does : stage.Does serde c q.server s') : Moved config chrono serde q (.run j c)
        { calls := ⟨s', q.calls.threads.set j ⟨call, rest'⟩⟩
          stages := q.stages.set j (stage.next serde c q.server)
          accepted :=
            if stage.accepts c (q.server.sent.length < s'.sent.length) then q.accepted ++ [j]
            else q.accepted
          author := q.authorAfter c stage
          held := q.heldAfter j c stage
          carried :=
            if q.server.sent.length < s'.sent.length then q.carried ++ [q.carrier j stage]
            else q.carried }

/-- Each call stands where the record says. -/
structure Standing (config : AppConfig) (chrono : Chrono) (serde : SerdeJson)
    (q : Post) : Prop where
  length : q.stages.length = q.calls.threads.length
  stands : ∀ (j : Nat) call rest, q.calls.threads[j]? = some ⟨call, rest⟩ →
    ∃ stage : Delivery, q.stages[j]? = some stage ∧ stage.Stands config chrono serde call rest

theorem Standing.moved (standing : q.Standing config chrono serde)
    (stepped : Posted config chrono serde q e q') : Moved config chrono serde q e q' := by
  obtain ⟨p', stepped, rfl⟩ := stepped
  cases e with
  | call call =>
      obtain rfl := Option.some.inj stepped
      exact .call call
  | pass seconds =>
      obtain rfl := Option.some.inj stepped
      exact .pass seconds
  | run j c =>
      obtain ⟨call, effect, next, found, rfl⟩ := Pool.step_run.mp stepped
      obtain ⟨stage, there, stands⟩ := standing.stands j call _ found
      obtain ⟨stands', does⟩ := stands.step c q.server
      rw [after, there]
      exact .run j c call stage _ _ _ found there stands stands' does

theorem Standing.step (standing : q.Standing config chrono serde)
    (moved : Moved config chrono serde q e q') : q'.Standing config chrono serde := by
  have stands (j : Nat) (t : Thread Chance Server DeliveryCall Unit)
      (found : q.calls.threads[j]? = some t) : ∃ stage : Delivery, q.stages[j]? = some stage ∧
        stage.Stands config chrono serde t.call t.rest := standing.stands j t.call t.rest found
  cases moved with
  | call call =>
      refine ⟨by simp [standing.length], fun k call' rest found => ?_⟩
      exact marked_append standing.length stands Delivery.stands_first k ⟨call', rest⟩ found
  | pass seconds => exact ⟨standing.length, standing.stands⟩
  | run j c call stage rest rest' s' found there stands_ stands' does =>
      refine ⟨by simp [standing.length], fun k call' rest'' found' => ?_⟩
      have inside := (List.getElem?_eq_some_iff.mp there).1
      exact marked_set stands inside stands' k ⟨call', rest''⟩ found'

theorem Sends.moved (moved : Moved config chrono serde q e q') (sends : q.Sends n envelope) :
    q'.Sends n envelope := by
  obtain ⟨j, rest, number, thread⟩ := sends
  cases moved with
  | call call =>
      exact ⟨j, rest, number, getElem?_append_of_some thread⟩
  | pass seconds => exact ⟨j, rest, number, thread⟩
  | run k c call stage rest₁ rest' s' found there stands stands' does =>
      have numbered : (if stage.accepts c (q.server.sent.length < s'.sent.length) then
          q.accepted ++ [k] else q.accepted)[n]? = some j := by
        split
        · exact getElem?_append_of_some number
        · exact number
      by_cases same : j = k
      · subst same
        obtain ⟨rfl, rfl⟩ := Thread.mk.inj (Option.some.inj (found.symm.trans thread))
        exact ⟨j, rest', numbered, getElem?_set_self_of_some thread⟩
      · exact ⟨j, rest, numbered, getElem?_set_ne_of_some same thread⟩

theorem Sends.lt (sends : q.Sends n envelope) : n < q.accepted.length := by
  obtain ⟨j, rest, number, -⟩ := sends
  exact (List.getElem?_eq_some_iff.mp number).1

theorem Sends.inj {other : EncryptedEnvelope} (first : q.Sends n envelope)
    (second : q.Sends n other) : envelope = other := by
  obtain ⟨j, rest, number, thread⟩ := first
  obtain ⟨j', rest', number', thread'⟩ := second
  obtain rfl := Option.some.inj (number.symm.trans number')
  obtain ⟨call, -⟩ := Thread.mk.inj (Option.some.inj (thread.symm.trans thread'))
  exact DeliveryCall.send.inj call

theorem sends_accepted {call : DeliveryCall} {rest : DeliveryRest} {p' : Server}
    {stages : List Delivery} {author : String → Option Nat} {held : List Possession}
    {carried : List (Option Nat)} (found : q.calls.threads[j]? = some ⟨call, rest⟩)
    (is : call = .send envelope) {rest' : DeliveryRest} {accepted : Bool}
    (accepts : accepted = true) :
    Sends ⟨⟨p', q.calls.threads.set j ⟨call, rest'⟩⟩, stages,
      if accepted then q.accepted ++ [j] else q.accepted, author, held, carried⟩ q.accepted.length
        envelope := by
  refine ⟨j, rest', ?_, ?_⟩
  · rw [if_pos accepts]
    simp
  · rw [← is]
    exact getElem?_set_self_of_some found

/-- What is in the queue after an event was there before it, or is stored by it. -/
theorem Moved.queue (moved : Moved config chrono serde q e q') {entry : Entry Bytes}
    (there : q'.server.redis.peek (msgKey d id) = some entry) :
    (q.server.redis.peek (msgKey d id) = some entry ∧
        q'.author (msgKey d id) = q.author (msgKey d id)) ∨
      ∃ j c envelope, e = .run j c ∧ q.stages[j]? = some (.storing envelope) ∧
        d = envelope.recipientDeviceId ∧ id = envelope.messageId ∧
        entry.value = envelopeBlob envelope ∧ q'.author (msgKey d id) = some q.accepted.length ∧
        q'.Sends q.accepted.length envelope := by
  cases moved with
  | call call => exact Or.inl ⟨there, rfl⟩
  | pass seconds => exact Or.inl ⟨(Store.peek_advance.mp there).1, rfl⟩
  | run j c call stage rest rest' s' found at_ stands stands' does =>
      cases stage with
      | storing envelope =>
          subst does
          change (storedBy c envelope q.server.redis).peek (msgKey d id) = some entry at there
          rw [storedBy] at there
          by_cases lasts : c.fault = none ∧ messageTtl envelope ≠ 0
          · rw [if_pos lasts] at there
            by_cases same : msgKey d id = msgKey envelope.recipientDeviceId envelope.messageId
            · rw [same] at there
              obtain ⟨rfl, rfl⟩ := msgKey_inj.mp same
              refine Or.inr
                ⟨j, c, envelope, rfl, at_, rfl, rfl, (Store.of_peek_set there).1, ?_, ?_⟩
              · show authorAfter q c (.storing envelope) _ = _
                rw [authorAfter, if_pos lasts, Function.update_self]
              · exact sends_accepted found stands.1 (decide_eq_true lasts)
            · rw [Store.peek_set_of_ne same] at there
              refine Or.inl ⟨there, ?_⟩
              show authorAfter q c (.storing envelope) _ = _
              rw [authorAfter, if_pos lasts, Function.update_of_ne same]
          · rw [if_neg lasts] at there
            refine Or.inl ⟨there, ?_⟩
            show authorAfter q c (.storing envelope) _ = _
            rw [authorAfter, if_neg lasts]
      | draining d' pages place =>
          subst does
          refine Or.inl ⟨?_, rfl⟩
          cases place with
          | deleting pages' next key data keys messages =>
              change Store.peek
                (if c.fault = none then q.server.redis.del key else q.server.redis) _ =
                some entry at there
              split at there
              · by_cases same : msgKey d id = key
                · rw [same, Store.peek_del] at there
                  cases there
                · rw [Store.peek_del_of_ne same] at there
                  exact there
              · exact there
          | _ => exact there
      | sending envelope =>
          subst does
          refine Or.inl ⟨?_, rfl⟩
          rw [← there]
          exact congrArg (Store.peek · _) redis_tried.symm
      | delivering d' pages queued messages =>
          subst does
          refine Or.inl ⟨?_, rfl⟩
          rw [← there]
          exact congrArg (Store.peek · _) redis_tried.symm
      | elsewhere =>
          refine Or.inl ⟨?_, rfl⟩
          rcases does.queue d id with same | gone
          · rw [← same, ← there]
          · exact absurd (there.symm.trans gone) (Option.some_ne_none entry)
      | stale | looking | entering | marking | closing =>
          refine Or.inl ⟨?_, rfl⟩
          rw [← there]
          exact congrArg (Store.peek · _) does.1.symm

/-- What a step that places a frame has placed. -/
def Places (serde : SerdeJson) (q q' : Post) (f : Sent) : Delivery → Prop
  | .sending envelope => q.server.Online envelope.recipientDeviceId ∧
      f.deviceId = envelope.recipientDeviceId ∧ f.text = (WsMessage.sendMessage envelope).text ∧
      q'.Sends q.accepted.length envelope
  | .delivering d _ queued _ => f.deviceId = d ∧ f.text = queuedText serde queued.encryptedBlob
  | .elsewhere => ∃ wipe, f.text = (WsMessage.wipeCommand wipe).text
  | _ => False

/-- What is on the channels after an event was there before it, or is placed by it. -/
theorem Moved.sent (moved : Moved config chrono serde q e q') :
    (q'.server.sent = q.server.sent ∧ q'.carried = q.carried) ∨
      ∃ j c stage f, e = .run j c ∧ q.stages[j]? = some stage ∧
        q'.server.sent = q.server.sent ++ [f] ∧ q'.carried = q.carried ++ [q.carrier j stage] ∧
        Places serde q q' f stage := by
  cases moved with
  | call call => exact Or.inl ⟨rfl, rfl⟩
  | pass seconds => exact Or.inl ⟨rfl, rfl⟩
  | run j c call stage rest rest' s' found at_ stands stands' does =>
      have quiet (same : s'.sent = q.server.sent) : s'.sent = q.server.sent ∧
          (if q.server.sent.length < s'.sent.length then q.carried ++ [q.carrier j stage]
            else q.carried) = q.carried := ⟨same, if_neg (by rw [same]; exact Nat.lt_irrefl _)⟩
      have longer {f : Sent} (placed : s'.sent = q.server.sent ++ [f]) :
          q.server.sent.length < s'.sent.length := by
        rw [placed]
        simp
      cases stage with
      | sending envelope =>
          rcases @sent_tried q.server envelope.recipientDeviceId
            (WsMessage.sendMessage envelope).text
            with ⟨same, -⟩ | ⟨online, x, placed⟩
          · exact Or.inl (quiet (by rw [show s' = _ from does, same]))
          · rw [← show s' = _ from does] at placed
            refine Or.inr
              ⟨j, c, _, _, rfl, at_, placed, if_pos (longer placed), online, rfl, rfl, ?_⟩
            exact sends_accepted found stands.1 (decide_eq_true (longer placed))
      | delivering d' pages queued messages =>
          rcases @sent_tried q.server d' (queuedText serde queued.encryptedBlob)
            with ⟨same, -⟩ | ⟨-, x, placed⟩
          · exact Or.inl (quiet (by rw [show s' = _ from does, same]))
          · rw [← show s' = _ from does] at placed
            exact Or.inr ⟨j, c, _, _, rfl, at_, placed, if_pos (longer placed), rfl, rfl⟩
      | elsewhere =>
          rcases does.sent with same | ⟨x, d', wipe, placed⟩
          · exact Or.inl (quiet same)
          · exact Or.inr ⟨j, c, _, _, rfl, at_, placed, if_pos (longer placed), wipe, rfl⟩
      | storing envelope => exact Or.inl (quiet (by rw [show s' = _ from does]))
      | draining d' pages place => exact Or.inl (quiet (by rw [show s' = _ from does]))
      | stale | looking | entering | marking | closing => exact Or.inl (quiet does.2)

/-- What a connect has in its hands. -/
def heldBy (q : Post) (j : Nat) : List Possession := q.held.filter fun h => h.call = j

theorem mem_heldBy : h ∈ q.heldBy j ↔ h ∈ q.held ∧ h.call = j := by
  rw [heldBy, List.mem_filter, decide_eq_true_iff]

/-- What is held after a step was held before it, or is taken by it. -/
theorem of_heldAfter (member : h ∈ q.heldAfter j c stage) :
    h ∈ q.held ∨ ∃ d pages place key data, stage = .draining d pages place ∧
      place.takes c q.server.redis = some (key, data) ∧ h = ⟨j, d, q.author key, data⟩ := by
  cases stage with
  | draining d pages place =>
      rw [heldAfter] at member
      split at member
      · exact Or.inl (List.mem_filter.mp member).1
      · rcases List.mem_append.mp member with old | new
        · exact Or.inl old
        · obtain ⟨⟨key, data⟩, found, rfl⟩ := List.mem_map.mp new
          exact Or.inr ⟨d, pages, place, key, data, rfl, Option.mem_toList.mp found, rfl⟩
  | delivering d pages queued messages => exact Or.inl (List.mem_of_mem_eraseP member)
  | _ => exact Or.inl member

/-- A step takes away from what is held, or a connect takes one more. -/
theorem Moved.holds (moved : Moved config chrono serde q e q') : q'.held.Sublist q.held ∨
    ∃ j c d pages place key data, e = .run j c ∧ q.stages[j]? = some (.draining d pages place) ∧
      place.takes c q.server.redis = some (key, data) ∧
      q'.held = q.held ++ [⟨j, d, q.author key, data⟩] := by
  cases moved with
  | call call => exact Or.inl (List.Sublist.refl _)
  | pass seconds => exact Or.inl (List.Sublist.refl _)
  | run j c call stage rest rest' s' found there stands stands' does =>
      cases stage with
      | draining d pages place =>
          cases takes : place.takes c q.server.redis with
          | none =>
              left
              show (q.heldAfter j c (.draining d pages place)).Sublist q.held
              rw [heldAfter, takes]
              split
              · exact List.filter_sublist
              · rw [Option.toList_none, List.map_nil, List.append_nil]
          | some found =>
              right
              have kept : place.drops c = false := by
                obtain ⟨clean, -, _, _, _, _, rfl, -⟩ := @Drain.of_takes d _ _ _ _ _ takes
                exact congrArg Option.isSome clean
              refine ⟨j, c, d, pages, place, found.1, found.2, rfl, there, takes, ?_⟩
              show q.heldAfter j c (.draining d pages place) = _
              rw [heldAfter, takes, kept]
              rfl
      | delivering d pages queued messages => exact Or.inl List.eraseP_sublist
      | _ => exact Or.inl (List.Sublist.refl _)

theorem Moved.held (moved : Moved config chrono serde q e q') (member : h ∈ q'.held) :
    h ∈ q.held ∨ ∃ j c d pages place key data, e = .run j c ∧
      q.stages[j]? = some (.draining d pages place) ∧
      place.takes c q.server.redis = some (key, data) ∧ h = ⟨j, d, q.author key, data⟩ := by
  rcases moved.holds with fewer | ⟨j, c, d, pages, place, key, data, is, there, takes, holds⟩
  · exact Or.inl (fewer.subset member)
  · rw [holds] at member
    refine (List.mem_append.mp member).imp_right fun new => ?_
    exact ⟨j, c, d, pages, place, key, data, is, there, takes, List.mem_singleton.mp new⟩

theorem heldBy_after_of_ne (other : i ≠ j) :
    ((q.heldAfter j c stage).filter fun h => h.call = i) = q.heldBy i := by
  cases stage with
  | draining d pages place =>
      rw [heldAfter]
      split
      · rw [List.filter_filter, heldBy]
        apply List.filter_congr
        intro h _
        by_cases mine : h.call = i
        · simp [mine, other]
        · simp [mine]
      · rw [List.filter_append, heldBy]
        refine List.append_right_eq_self.mpr (List.filter_eq_nil_iff.mpr ?_)
        intro h new mine
        obtain ⟨found, -, rfl⟩ := List.mem_map.mp new
        exact other (of_decide_eq_true mine).symm
  | delivering d pages queued messages =>
      refine filter_eraseP_of_apart fun h mine => ?_
      rw [of_decide_eq_true mine]
      exact decide_eq_false (Ne.symm other)
  | _ => rfl

theorem heldBy_draining {pages : Nat} {place : Drain} :
    ((q.heldAfter j c (.draining d pages place)).filter fun h => h.call = j) =
      if place.drops c then []
      else q.heldBy j ++ (place.takes c q.server.redis).toList.map fun found =>
        ⟨j, d, q.author found.1, found.2⟩ := by
  rw [heldAfter]
  split
  · rw [List.filter_filter, List.filter_eq_nil_iff]
    intro h _ both
    simp at both
  · rw [List.filter_append, heldBy]
    congr 1
    rw [List.filter_eq_self]
    intro h new
    obtain ⟨found, -, rfl⟩ := List.mem_map.mp new
    exact decide_eq_true rfl

/-- The device to which a connect delivers. -/
def device : Delivery → Option Uuid
  | .draining d _ _ | .delivering d _ _ _ | .closing d _ _ => some d
  | _ => none

/-- The messages that a connect has in its hands. -/
def hand : Delivery → List QueuedMessage
  | .draining d _ place => place.hand d
  | .delivering _ _ queued messages => queued :: messages
  | .closing _ _ messages => messages
  | _ => []

theorem hand_ofMessages {pages : Nat} {messages : List QueuedMessage} :
    hand (Delivery.ofMessages d pages messages) = messages := by cases messages <;> rfl

theorem hand_ofPlace {pages : Nat} {place : Drain} :
    hand (Delivery.ofPlace d pages place) = place.hand d := by
  cases place with
  | returned messages => exact hand_ofMessages
  | _ => rfl

theorem device_ofMessages {pages : Nat} {messages : List QueuedMessage} :
    device (Delivery.ofMessages d pages messages) = some d ∨ messages = [] := by
  cases messages with
  | nil => exact Or.inr rfl
  | cons queued messages => exact Or.inl rfl

/-- A connect that has something in its hands stays with its device. -/
theorem device_next {s : Server} (is : device stage = some d)
    (some_left : hand (stage.next serde c s) ≠ []) :
    device (stage.next serde c s) = some d := by
  have messages_ {d' : Uuid} {pages : Nat} {messages : List QueuedMessage}
      (left : hand (Delivery.ofMessages d' pages messages) ≠ []) :
      device (Delivery.ofMessages d' pages messages) = some d' := by
    rcases @device_ofMessages d' pages messages with same | none_left
    · exact same
    · rw [hand_ofMessages] at left
      exact absurd none_left left
  cases stage with
  | draining d' pages place =>
      obtain rfl := Option.some.inj is
      rw [Delivery.next] at some_left ⊢
      cases goes : place.next d' c s.redis with
      | returned messages =>
          rw [goes] at some_left
          exact messages_ some_left
      | failed e =>
          rw [goes] at some_left
          exact absurd rfl some_left
      | scanning | reading | deleting => rfl
  | delivering d' pages queued messages =>
      obtain rfl := Option.some.inj is
      rw [Delivery.next] at some_left ⊢
      split
      · rename_i absent
        rw [absent] at some_left
        exact messages_ some_left
      · rename_i socket found
        rw [found] at some_left
        dsimp only at some_left
        split
        · rfl
        · rename_i open_
          rw [if_neg open_] at some_left
          exact messages_ some_left
  | closing d' pages messages =>
      obtain rfl := Option.some.inj is
      exact messages_ some_left
  | _ => cases is

/-- What a connect has in its hands after a step, but for what it takes. -/
theorem hand_next {s : Server} : hand (stage.next serde c s) =
    match stage with
    | .draining d _ place =>
        if place.drops c then []
        else place.hand d ++ (place.takes c s.redis).toList.map fun found =>
          Drain.message d found.1 found.2
    | .delivering _ _ _ messages => messages
    | stage => hand stage := by
  cases stage with
  | draining d pages place =>
      rw [Delivery.next, hand_ofPlace, Drain.hand_next]
  | delivering d pages queued messages =>
      rw [Delivery.next]
      split
      · exact hand_ofMessages
      · split
        · rfl
        · exact hand_ofMessages
  | closing d pages messages => exact hand_ofMessages
  | sending envelope =>
      rw [Delivery.next]
      split
      · rfl
      · split <;> rfl
  | looking envelope =>
      rw [Delivery.next]
      split <;> rfl
  | _ => rfl

/-- The stored and the held messages are accepted ones, with their numbers. -/
structure Sound (config : AppConfig) (chrono : Chrono) (serde : SerdeJson) (q : Post) : Prop where
  standing : q.Standing config chrono serde
  prefixed : ∀ (j : Nat) d pages place, q.stages[j]? = some (.draining d pages place) →
    place.Prefixed d
  stored : ∀ d id entry, q.server.redis.peek (msgKey d id) = some entry →
    ∃ n envelope, q.author (msgKey d id) = some n ∧ q.Sends n envelope ∧
      d = envelope.recipientDeviceId ∧ id = envelope.messageId ∧ entry.value = envelopeBlob envelope
  contents : ∀ h ∈ q.held, ∃ n envelope, h.number = some n ∧ q.Sends n envelope ∧
    h.deviceId = envelope.recipientDeviceId ∧ h.data = envelopeBlob envelope
  hands : ∀ (j : Nat) stage, q.stages[j]? = some stage →
    (hand stage).map QueuedMessage.encryptedBlob = (q.heldBy j).map Possession.data
  holders : ∀ h ∈ q.held, ∃ stage : Delivery, q.stages[h.call]? = some stage ∧
    device stage = some h.deviceId
  faithful : q.Faithful

theorem prefixed_ofMessages {pages pages' : Nat} {messages : List QueuedMessage} {d' : Uuid}
    {place : Drain} (is : Delivery.ofMessages d' pages messages = .draining d pages' place) :
    place.Prefixed d := by
  cases messages <;> cases is

/-- A connect that drains has still to handle keys of its device only. -/
theorem prefixed_next {s : Server} {pages : Nat} {place : Drain}
    (prefixed : ∀ d pages place, stage = .draining d pages place → place.Prefixed d)
    (is : stage.next serde c s = .draining d pages place) : place.Prefixed d := by
  cases stage with
  | marking d' pages' =>
      obtain ⟨rfl, rfl, rfl⟩ := Delivery.draining.inj is
      trivial
  | draining d' pages' place' =>
      have kept := (prefixed d' pages' place' rfl).next (c := c) (r := s.redis)
      rw [Delivery.next] at is
      cases goes : place'.next d' c s.redis with
      | returned messages =>
          rw [goes] at is
          exact prefixed_ofMessages is
      | failed e =>
          rw [goes] at is
          cases is
      | scanning | reading | deleting =>
          rw [goes] at is kept
          obtain ⟨rfl, rfl, rfl⟩ := Delivery.draining.inj is
          exact kept
  | delivering d' pages' queued messages =>
      rw [Delivery.next] at is
      split at is
      · exact prefixed_ofMessages is
      · split at is
        · cases is
        · exact prefixed_ofMessages is
  | closing d' pages' messages => exact prefixed_ofMessages is
  | sending envelope =>
      rw [Delivery.next] at is
      split at is
      · cases is
      · split at is <;> cases is
  | looking envelope =>
      rw [Delivery.next] at is
      split at is <;> cases is
  | _ => cases is

theorem sound_start {s : Server} (idle : s.Idle) : (start s).Sound config chrono serde where
  standing := ⟨rfl, fun j call rest found => by cases found⟩
  prefixed j d pages place found := by cases found
  stored d id entry found := by
    change s.redis.peek (msgKey d id) = some entry at found
    rw [idle.queue] at found
    cases found
  contents h member := by cases member
  hands j stage found := by cases found
  holders h member := by cases member
  faithful := by
    refine ⟨?_, fun f member => ?_⟩
    · show 0 = s.sent.length
      rw [idle.sent]
      rfl
    · change f ∈ s.sent.zip [] at member
      rw [List.zip_nil_right] at member
      cases member

theorem Sound.taken (sound : q.Sound config chrono serde) {pages : Nat}
    {place : Drain} {data : Bytes}
    (there : q.stages[j]? = some (.draining d pages place))
    (takes : place.takes c q.server.redis = some (key, data)) :
    ∃ id n envelope, key = msgKey d id ∧ (q.server.redis.peek key).isSome ∧ q.author key = some n ∧
      q.Sends n envelope ∧ d = envelope.recipientDeviceId ∧ data = envelopeBlob envelope := by
  obtain ⟨-, found, pages', next, keys, messages, rfl, -⟩ := @Drain.of_takes d _ _ _ _ _ takes
  obtain ⟨id, rfl⟩ := hasPrefix_msg.mp (sound.prefixed j d pages _ there key List.mem_cons_self)
  obtain ⟨entry, present, rfl⟩ := Store.get?_eq_some.mp found
  obtain ⟨n, envelope, author, sends, device, -, value⟩ := sound.stored d id entry present
  exact ⟨id, n, envelope, rfl, by rw [present]; rfl, author, sends, device, value⟩

theorem Sound.head (sound : q.Sound config chrono serde) {pages : Nat} {queued : QueuedMessage}
    {messages : List QueuedMessage}
    (there : q.stages[j]? = some (.delivering d pages queued messages)) :
    ∃ h, (q.held.find? fun h => h.call = j) = some h ∧ h ∈ q.held ∧ h.call = j ∧ h.deviceId = d ∧
      h.data = queued.encryptedBlob := by
  have hands := sound.hands j _ there
  cases mine : q.heldBy j with
  | nil =>
      rw [mine] at hands
      cases hands
  | cons h others =>
      rw [mine] at hands
      obtain ⟨data, -⟩ := List.cons.inj hands
      have found : (q.held.find? fun h => h.call = j) = some h := by
        rw [← List.head?_filter]
        exact congrArg List.head? mine
      have member : h ∈ q.heldBy j := by rw [mine]; exact List.mem_cons_self
      obtain ⟨held, call⟩ := mem_heldBy.mp member
      obtain ⟨stage, is, device⟩ := sound.holders h held
      rw [call] at is
      obtain rfl := Option.some.inj (there.symm.trans is)
      exact ⟨h, found, held, call, (Option.some.inj device).symm, data.symm⟩

theorem frames_append {f : Sent} {number : Option Nat}
    (length : q.carried.length = q.server.sent.length)
    (sent : q'.server.sent = q.server.sent ++ [f]) (carried : q'.carried = q.carried ++ [number]) :
    q'.frames = q.frames ++ [(f, number)] := by
  rw [frames, sent, carried, List.zip_append length.symm]
  rfl

theorem Faithful.step (lawful : serde.Lawful) (sound : q.Sound config chrono serde)
    (moved : Moved config chrono serde q e q') : q'.Faithful := by
  obtain ⟨length, frames⟩ := sound.faithful
  have old {f : Sent × Option Nat} (member : f ∈ q.frames) :
      (∃ n envelope, f.2 = some n ∧ q'.Sends n envelope ∧
        f.1.deviceId = envelope.recipientDeviceId ∧
        f.1.text = (WsMessage.sendMessage envelope).text) ∨
      f.2 = none ∧ ∃ wipe, f.1.text = (WsMessage.wipeCommand wipe).text :=
    (frames f member).imp_left fun ⟨n, envelope, number, sends, is⟩ =>
      ⟨n, envelope, number, sends.moved moved, is⟩
  rcases moved.sent with ⟨sent, carried⟩ | ⟨j, c, stage, f, -, there, sent, carried, places⟩
  · have same : q'.frames = q.frames := by rw [Post.frames, sent, carried, Post.frames]
    refine ⟨by rw [sent, carried, length], fun f member => ?_⟩
    rw [same] at member
    exact old member
  · refine ⟨by rw [sent, carried]; simp [length], fun f' member => ?_⟩
    rw [frames_append length sent carried] at member
    rcases List.mem_append.mp member with before | new
    · exact old before
    · obtain rfl := List.mem_singleton.mp new
      cases stage with
      | sending envelope =>
          obtain ⟨-, device, text, sends⟩ := places
          exact Or.inl ⟨_, envelope, rfl, sends, device, text⟩
      | delivering d pages queued messages =>
          obtain ⟨h, found, held, -, device, data⟩ := sound.head there
          obtain ⟨n, envelope, number, sends, recipient, blob⟩ := sound.contents h held
          refine Or.inl ⟨n, envelope, ?_, sends.moved moved, ?_, ?_⟩
          · rw [carrier, found]
            exact number
          · rw [places.1, ← device, recipient]
          · rw [places.2, ← data, blob, queuedText_envelopeBlob lawful]
      | elsewhere => exact Or.inr ⟨rfl, places⟩
      | _ => exact places.elim

/-- What a connect has in its hands is what is recorded of it, after its step too. -/
theorem Sound.hands_next (sound : q.Sound config chrono serde) (there : q.stages[j]? = some stage) :
    (hand (stage.next serde c q.server)).map QueuedMessage.encryptedBlob =
      ((q.heldAfter j c stage).filter fun h => h.call = j).map Possession.data := by
  have hands := sound.hands j stage there
  rw [hand_next]
  cases stage with
  | draining d pages place =>
      rw [heldBy_draining]
      dsimp only
      split
      · rfl
      · rw [List.map_append, List.map_append, ← hands, List.map_map, List.map_map]
        rfl
  | delivering d pages queued messages =>
      show _ = ((q.held.eraseP _).filter _).map Possession.data
      rw [filter_eraseP_self, List.map_tail]
      exact congrArg List.tail hands
  | _ => exact hands

theorem Sound.holders_next (sound : q.Sound config chrono serde) (there : q.stages[j]? = some stage)
    (member : h ∈ q.heldAfter j c stage) (mine : h.call = j) :
    device (stage.next serde c q.server) = some h.deviceId := by
  have stands : device stage = some h.deviceId := by
    rcases of_heldAfter member with old | ⟨d, pages, place, key, data, rfl, -, rfl⟩
    · obtain ⟨stage', is, delivers⟩ := sound.holders h old
      rw [mine, there] at is
      rw [Option.some.inj is]
      exact delivers
    · rfl
  refine device_next stands fun nothing => ?_
  have hands := @Sound.hands_next _ _ _ _ j c _ sound there
  rw [nothing] at hands
  have none_left := List.map_eq_nil_iff.mp hands.symm
  exact List.filter_eq_nil_iff.mp none_left h member (decide_eq_true mine)

theorem Sound.stored_step (sound : q.Sound config chrono serde)
    (moved : Moved config chrono serde q e q') {entry : Entry Bytes}
    (present : q'.server.redis.peek (msgKey d id) = some entry) :
    ∃ n envelope, q'.author (msgKey d id) = some n ∧ q'.Sends n envelope ∧
      d = envelope.recipientDeviceId ∧ id = envelope.messageId ∧
      entry.value = envelopeBlob envelope := by
  rcases moved.queue present with
    ⟨before, author⟩ | ⟨j, c, envelope, -, -, device, name, value, new, sends⟩
  · obtain ⟨n, envelope, old, sends, is⟩ := sound.stored d id entry before
    exact ⟨n, envelope, author.trans old, sends.moved moved, is⟩
  · exact ⟨_, envelope, new, sends, device, name, value⟩

theorem Sound.contents_step (sound : q.Sound config chrono serde)
    (moved : Moved config chrono serde q e q') (member : h ∈ q'.held) :
    ∃ n envelope, h.number = some n ∧ q'.Sends n envelope ∧
      h.deviceId = envelope.recipientDeviceId ∧ h.data = envelopeBlob envelope := by
  have old (before : h ∈ q.held) : ∃ n envelope, h.number = some n ∧ q'.Sends n envelope ∧
      h.deviceId = envelope.recipientDeviceId ∧ h.data = envelopeBlob envelope := by
    obtain ⟨n, envelope, number, sends, is⟩ := sound.contents h before
    exact ⟨n, envelope, number, sends.moved moved, is⟩
  cases moved.held member with
  | inl before => exact old before
  | inr new =>
      obtain ⟨j, c, d, pages, place, key, data, -, there, takes, rfl⟩ := new
      obtain ⟨id, n, envelope, -, -, author, sends, device, value⟩ := sound.taken there takes
      exact ⟨n, envelope, author, sends.moved moved, device, value⟩

theorem Sound.step (lawful : serde.Lawful) (sound : q.Sound config chrono serde)
    (moved : Moved config chrono serde q e q') : q'.Sound config chrono serde where
  standing := sound.standing.step moved
  stored d id entry present := sound.stored_step moved present
  contents h member := sound.contents_step moved member
  faithful := Faithful.step lawful sound moved
  prefixed := by
    cases moved with
    | call call =>
        intro k d pages place found
        rcases of_getElem?_append found with old | ⟨-, new⟩
        · exact sound.prefixed k d pages place old
        · cases call <;> cases new
    | pass seconds => exact sound.prefixed
    | run j c call stage rest rest' s' found there stands stands' does =>
        intro k d pages place found'
        rcases of_getElem?_set found' with ⟨rfl, new⟩ | ⟨-, before⟩
        · refine prefixed_next (fun d pages place is => ?_) new.symm
          exact sound.prefixed k d pages place (is ▸ there)
        · exact sound.prefixed k d pages place before
  hands := by
    cases moved with
    | call call =>
        intro k stage found
        rcases of_getElem?_append found with old | ⟨beyond, new⟩
        · exact sound.hands k stage old
        · have nothing : q.heldBy k = [] := by
            refine List.filter_eq_nil_iff.mpr fun h member mine => ?_
            obtain ⟨stage', is, -⟩ := sound.holders h member
            have inside := (List.getElem?_eq_some_iff.mp is).1
            rw [of_decide_eq_true mine, beyond] at inside
            exact Nat.lt_irrefl _ inside
          show _ = (q.heldBy k).map Possession.data
          rw [nothing, new]
          cases call <;> rfl
    | pass seconds => exact sound.hands
    | run j c call stage rest rest' s' found there stands stands' does =>
        intro k stage' found'
        rcases of_getElem?_set found' with ⟨rfl, new⟩ | ⟨other, before⟩
        · rw [new]
          exact sound.hands_next there
        · refine (sound.hands k stage' before).trans (congrArg _ ?_)
          exact (heldBy_after_of_ne other).symm
  holders := by
    cases moved with
    | call call =>
        intro h member
        obtain ⟨stage, is, delivers⟩ := sound.holders h member
        exact ⟨stage, getElem?_append_of_some is, delivers⟩
    | pass seconds => exact sound.holders
    | run j c call stage rest rest' s' found there stands stands' does =>
        intro h member
        by_cases mine : h.call = j
        · refine ⟨_, ?_, sound.holders_next there member mine⟩
          rw [mine]
          exact getElem?_set_self_of_some there
        · rcases of_heldAfter member with old | ⟨d, pages, place, key, data, -, -, rfl⟩
          · obtain ⟨stage', is, delivers⟩ := sound.holders h old
            exact ⟨stage', getElem?_set_ne_of_some mine is, delivers⟩
          · exact absurd rfl mine

abbrev Run (config : AppConfig) (chrono : Chrono) (serde : SerdeJson) :=
  Trail (Posted config chrono serde)

variable {first : Server} {steps : List (Post × DeliveryEvent × Post)}

theorem Run.sound (lawful : serde.Lawful) (idle : first.Idle)
    (run : Run config chrono serde (start first) steps q) : q.Sound config chrono serde := by
  induction run with
  | start => exact sound_start idle
  | next _ stepped sound => exact sound.step lawful (sound.standing.moved stepped)

end

end Post

end Hysj.Api
