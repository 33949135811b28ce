import Mathlib.Data.List.Forall2
import Hysj.Base.Trail
import Hysj.Messaging.Drain

set_option autoImplicit false

/- One drain of the queue among calls that store and acknowledge messages, while time passes. -/
namespace Hysj.Messaging

open Crypto Shared Program

/-- What a call of `enqueue` stores. -/
structure Posting where
  recipientDeviceId : Uuid
  messageId : String
  encryptedBlob : Bytes

/-- The second of two lists that match has only what matches one of the first. -/
theorem exists_of_forall₂ {α β : Type} {R : α → β → Prop} {l : List α} {l' : List β}
    (all : List.Forall₂ R l l') {b : β} (member : b ∈ l') : ∃ a ∈ l, R a b := by
  induction all with
  | nil => cases member
  | @cons a b' l l' holds rest ih =>
      rcases List.mem_cons.mp member with rfl | later
      · exact ⟨a, List.mem_cons_self, holds⟩
      · obtain ⟨a', listed, holds'⟩ := ih later
        exact ⟨a', List.mem_cons_of_mem a listed, holds'⟩

/-- A message: the key it is under, and the number of the call that has stored it, if it was not
there from the start. -/
structure Mail where
  key : String
  author : Option Nat
  deriving DecidableEq

/-- What is left of the drain, the calls that have stored a message, and the number of the one that
was last to store something under a key. -/
structure Draining where
  redis : Redis
  rest : Program Chance Redis (Except MessagingError (List QueuedMessage))
  posted : List Posting
  author : String → Option Nat

namespace Draining

inductive Event where
  | drain (c : Chance)
  | enqueue (posting : Posting) (ttlSeconds : UInt64)
  | ack (deviceId : Uuid) (messageId : String)
  | pass (seconds : Nat)
  | other

def start (r : Redis) (pages : Nat) (d : Uuid) : Draining :=
  ⟨r, (dequeueAll pages d).run, [], fun _ => none⟩

/-- What is recorded of a call of `enqueue`. -/
def post (q : Draining) (posting : Posting) (r' : Redis) : Draining :=
  let key := msgKey posting.recipientDeviceId posting.messageId
  if q.redis.peek key = none ∧ (r'.peek key).isSome then
    { q with
      redis := r'
      posted := q.posted ++ [posting]
      author := Function.update q.author key (some q.posted.length) }
  else { q with redis := r' }

/-- The drain takes its next step, a whole call of `enqueue` or `delete_message` is made, time
passes, or something happens that leaves the messages alone. -/
inductive Step (q : Draining) : Event → Draining → Prop where
  | drain {effect : Chance → Redis → Redis}
      {next : Chance → Redis → Program Chance Redis (Except MessagingError (List QueuedMessage))}
      (c : Chance) (is : q.rest = .step effect next) :
      Step q (.drain c) { q with redis := effect c q.redis, rest := next c q.redis }
  | enqueue (posting : Posting) (ttl : UInt64) {result : Except MessagingError Unit} {r' : Redis}
      (ran : Runs (fun _ _ => True) (Messaging.enqueue posting.recipientDeviceId posting.messageId
        posting.encryptedBlob ttl).run q.redis result r') :
      Step q (.enqueue posting ttl) (q.post posting r')
  | ack (d : Uuid) (id : String) {result : Except MessagingError Bool} {r' : Redis}
      (ran : Runs (fun _ _ => True) (deleteMessage d id).run q.redis result r') :
      Step q (.ack d id) { q with redis := r' }
  | pass (seconds : Nat) : Step q (.pass seconds) { q with redis := q.redis.advance seconds }
  | other {r' : Redis} (leaves : ∀ d id, r'.peek (msgKey d id) = q.redis.peek (msgKey d id)) :
      Step q .other { q with redis := r' }

abbrev Run (first : Draining) (steps : List (Draining × Event × Draining)) (q : Draining) : Prop :=
  Trail Step first steps q

/-- The message is in the queue. -/
def Has (q : Draining) (m : Mail) : Prop :=
  (q.redis.peek m.key).isSome ∧ q.author m.key = m.author

/-- The message has this id and this blob. -/
def IsMail (first : Redis) (d : Uuid) (q : Draining) (message : QueuedMessage) (m : Mail) : Prop :=
  m.key = msgKey d message.messageId ∧
    match m.author with
    | none => first.get? m.key = some message.encryptedBlob
    | some n => q.posted[n]? = some ⟨d, message.messageId, message.encryptedBlob⟩

/-- Nothing but the drain takes the message from the queue. -/
def Lasts (m : Mail) (steps : List (Draining × Event × Draining)) : Prop :=
  ∀ x ∈ steps, x.1.Has m → (∃ c, x.2.1 = .drain c) ∨ x.2.2.Has m

/-- Every message of the device that was queued and not removed is returned once, and nothing else
is but what was queued later; and none of it is in the queue any more. -/
def Exact (first : Redis) (d : Uuid) (steps : List (Draining × Event × Draining)) (q : Draining)
    (messages : List QueuedMessage) : Prop :=
  ∃ mails : List Mail, mails.Nodup ∧ List.Forall₂ (IsMail first d q) messages mails ∧
    (∀ id, (first.peek (msgKey d id)).isSome → Lasts ⟨msgKey d id, none⟩ steps →
      ⟨msgKey d id, none⟩ ∈ mails) ∧
    ∀ m ∈ mails, ¬ q.Has m

/-- Every message of the device that was queued and neither acknowledged nor expired is still
there. -/
def LosesNothing (first : Redis) (d : Uuid) (steps : List (Draining × Event × Draining))
    (q : Draining) : Prop :=
  ∀ id, (first.peek (msgKey d id)).isSome → Lasts ⟨msgKey d id, none⟩ steps →
    q.Has ⟨msgKey d id, none⟩

/-- The next command of the drain deletes a message that was there from the start, and does not
fail. -/
def Erases (d : Uuid) (q : Draining) (e : Event) : Prop :=
  ∃ c pages next id data keys messages, e = .drain c ∧ c.fault = none ∧
    q.rest = (Drain.deleting pages next (msgKey d id) data keys messages).rest d ∧
    q.Has ⟨msgKey d id, none⟩

section

variable {q q' : Draining} {e : Event} {d : Uuid} {id : String} {c : Chance}

/-- A whole call of `enqueue` stores its message where none is, or changes nothing. -/
theorem of_runs_enqueue {posting : Posting} {ttl : UInt64} {r r' : Redis}
    {result : Except MessagingError Unit}
    (ran : Runs (fun _ _ => True) (Messaging.enqueue posting.recipientDeviceId posting.messageId
      posting.encryptedBlob ttl).run r result r') :
    r' = r ∨
      r.peek (msgKey posting.recipientDeviceId posting.messageId) = none ∧ ttl ≠ 0 ∧
        r' = r.set (msgKey posting.recipientDeviceId posting.messageId) posting.encryptedBlob
          (some ttl.toNat) := by
  rcases runs_run_bind.mp ran with ⟨queued, m, first, rest⟩ | ⟨_, -, first⟩
  · rcases of_runs_command first with ⟨⟨_, failed⟩, -⟩ | ⟨_, -, answer, rfl⟩
    · cases failed
    · obtain rfl := Except.ok.inj answer
      split at rest
      · exact Or.inl (runs_run_pure.mp rest).2.symm
      · rename_i absent
        have gone : Store.peek m (msgKey posting.recipientDeviceId posting.messageId) = none := by
          rw [Bool.not_eq_true, Option.isSome_eq_false_iff, Option.isNone_iff_eq_none] at absent
          exact Store.get?_eq_none.mp absent
        rcases of_runs_command rest with ⟨-, rfl⟩ | ⟨_, -, -, rfl⟩
        · exact Or.inl rfl
        · split
          · exact Or.inl rfl
          · rename_i lasts
            exact Or.inr ⟨gone, lasts, rfl⟩
  · rcases of_runs_command first with ⟨-, rfl⟩ | ⟨_, -, -, rfl⟩
    · exact Or.inl rfl
    · exact Or.inl rfl

theorem of_runs_deleteMessage {r r' : Redis} {result : Except MessagingError Bool}
    (ran : Runs (fun _ _ => True) (deleteMessage d id).run r result r') :
    r' = r ∨ r' = r.del (msgKey d id) := by
  rcases runs_run_bind.mp ran with ⟨_, m, first, rest⟩ | ⟨_, -, first⟩
  · obtain ⟨-, rfl⟩ := runs_run_pure.mp rest
    exact (of_runs_command first).imp And.right fun ⟨_, _, _, same⟩ => same
  · exact (of_runs_command first).imp And.right fun ⟨_, _, _, same⟩ => same

/-- What a step of another call does to a key: it leaves it, or takes away what is there, or stores
a message where none is. -/
theorem Step.key (step : Step q e q') (other : ∀ c, e ≠ .drain c) (d : Uuid) (id : String) :
    (q'.author (msgKey d id) = q.author (msgKey d id) ∧
      (q'.redis.peek (msgKey d id) = q.redis.peek (msgKey d id) ∨
        q'.redis.peek (msgKey d id) = none)) ∨
    q.redis.peek (msgKey d id) = none ∧ q'.author (msgKey d id) = some q.posted.length ∧
      ∃ blob, q'.posted = q.posted ++ [⟨d, id, blob⟩] ∧
        q'.redis.get? (msgKey d id) = some blob := by
  cases step with
  | drain c is => exact absurd rfl (other c)
  | pass seconds =>
      refine Or.inl ⟨rfl, ?_⟩
      cases left : (q.redis.advance seconds).peek (msgKey d id) with
      | none => exact Or.inr rfl
      | some entry => exact Or.inl (Store.peek_advance.mp left).1.symm
  | other leaves => exact Or.inl ⟨rfl, Or.inl (leaves d id)⟩
  | ack d' id' ran =>
      refine Or.inl ⟨rfl, ?_⟩
      rcases of_runs_deleteMessage ran with rfl | rfl
      · exact Or.inl rfl
      · by_cases same : msgKey d id = msgKey d' id'
        · right
          show Store.peek (Store.del q.redis _) _ = none
          rw [same]
          exact Store.peek_del
        · exact Or.inl (Store.peek_del_of_ne same)
  | @enqueue posting ttl result r' ran =>
      rw [post]
      rcases of_runs_enqueue ran with rfl | ⟨absent, lasts, rfl⟩
      · rw [if_neg fun both => by rw [both.1] at both; cases both.2]
        exact Or.inl ⟨rfl, Or.inl rfl⟩
      · have stored : (q.redis.set (msgKey posting.recipientDeviceId posting.messageId)
            posting.encryptedBlob (some ttl.toNat)).get?
              (msgKey posting.recipientDeviceId posting.messageId) =
                some posting.encryptedBlob := by
          refine Store.get?_set fun n given => ?_
          rw [← Option.some.inj given]
          exact Nat.pos_of_ne_zero fun zero => lasts (UInt64.toNat_inj.mp zero)
        obtain ⟨entry, there, -⟩ := Store.get?_eq_some.mp stored
        rw [if_pos ⟨absent, by rw [there]; rfl⟩]
        dsimp only
        by_cases same : msgKey d id = msgKey posting.recipientDeviceId posting.messageId
        · obtain ⟨rfl, rfl⟩ := msgKey_inj.mp same
          exact Or.inr ⟨absent, Function.update_self .., posting.encryptedBlob, rfl, stored⟩
        · exact Or.inl ⟨Function.update_of_ne same .., Or.inl (Store.peek_set_of_ne same)⟩

theorem Step.rest_of_other (step : Step q e q') (other : ∀ c, e ≠ .drain c) : q'.rest = q.rest := by
  cases step with
  | drain c is => exact absurd rfl (other c)
  | enqueue posting ttl ran =>
      rw [post]
      split <;> rfl
  | ack | pass | other => rfl

theorem Step.posted (step : Step q e q') {n : Nat} {posting : Posting}
    (recorded : q.posted[n]? = some posting) : q'.posted[n]? = some posting := by
  cases step with
  | enqueue posting ttl ran =>
      rw [post]
      split
      · dsimp only
        rw [List.getElem?_append_left (List.getElem?_eq_some_iff.mp recorded).1, recorded]
      · exact recorded
  | drain | ack | pass | other => exact recorded

theorem Step.of_drain {place : Drain} (step : Step q (.drain c) q') (at_ : q.rest = place.rest d) :
    q' = { q with
      redis := place.effect c q.redis
      rest := (place.next d c q.redis).rest d } ∧ place.ended = false := by
  cases step with
  | drain _ is =>
      rw [at_] at is
      obtain ⟨does, goes, running⟩ := Drain.rest_step is c q.redis
      rw [does, goes]
      exact ⟨rfl, running⟩

theorem peek_effect (c : Chance) (place : Drain) (r : Redis) (key : String) :
    (place.effect c r).peek key = r.peek key ∨
      (place.effect c r).peek key = none ∧ c.fault = none ∧
        ∃ pages next data keys messages, place = .deleting pages next key data keys messages := by
  cases place with
  | deleting pages next name data keys messages =>
      rw [Drain.effect]
      split
      · rename_i clean
        by_cases same : key = name
        · subst same
          exact Or.inr ⟨Store.peek_del, clean, pages, next, data, keys, messages, rfl⟩
        · exact Or.inl (Store.peek_del_of_ne same)
      · exact Or.inl rfl
  | scanning | reading | returned | failed => exact Or.inl rfl

theorem Step.has_of {m : Mail} {place : Drain} (step : Step q e q') (at_ : q.rest = place.rest d)
    (is : ∃ id, m.key = msgKey d id) (before : ∀ n, m.author = some n → n < q.posted.length)
    (has : q'.Has m) : q.Has m := by
  obtain ⟨id, named⟩ := is
  obtain ⟨there, by_⟩ := has
  by_cases other : ∀ c, e ≠ .drain c
  · rw [named] at there by_
    rcases step.key other d id with ⟨author, same | gone⟩ | ⟨-, author, -⟩
    · rw [same] at there
      rw [author] at by_
      rw [← named] at there by_
      exact ⟨there, by_⟩
    · rw [gone] at there
      cases there
    · rw [author] at by_
      exact absurd (before _ by_.symm) (Nat.lt_irrefl _)
  · push Not at other
    obtain ⟨c, rfl⟩ := other
    obtain ⟨rfl, -⟩ := step.of_drain at_
    rcases peek_effect c place q.redis m.key with
      same | ⟨gone, -⟩
    · exact ⟨same ▸ there, by_⟩
    · dsimp only at there
      rw [gone] at there
      cases there

theorem IsMail.step {first : Redis} {message : QueuedMessage} {m : Mail} (step : Step q e q')
    (is : IsMail first d q message m) : IsMail first d q' message m := by
  obtain ⟨named, holds⟩ := is
  refine ⟨named, ?_⟩
  obtain ⟨key, author⟩ := m
  cases author with
  | none => exact holds
  | some n => exact step.posted holds

/-- What a key of the device holds. -/
def Known (first : Redis) (d : Uuid) (q : Draining) : Prop :=
  ∀ id entry, q.redis.peek (msgKey d id) = some entry →
    match q.author (msgKey d id) with
    | none => first.peek (msgKey d id) = some entry
    | some n => q.posted[n]? = some ⟨d, id, entry.value⟩

/-- What holds of a drain at every moment. -/
structure Sound (first : Redis) (d : Uuid) (steps : List (Draining × Event × Draining))
    (q : Draining) (place : Drain) (mails : List Mail) : Prop where
  rest : q.rest = place.rest d
  prefixed : place.Prefixed d
  known : Known first d q
  hand : List.Forall₂ (IsMail first d q) (place.hand d) mails
  nodup : mails.Nodup
  /-- the drain deletes what it has read before it reads on -/
  taken : ∀ m ∈ mails, q.Has m →
    ∃ pages next data keys messages, place = .deleting pages next m.key data keys messages
  read : ∀ pages next key data keys messages,
    place = .deleting pages next key data keys messages → q.author key = none →
      ⟨key, none⟩ ∈ mails
  covered : ∀ id entry, first.peek (msgKey d id) = some entry → Lasts ⟨msgKey d id, none⟩ steps →
    ⟨msgKey d id, none⟩ ∈ mails ∨ (∃ e, place = .failed e) ∨
      q.redis.peek (msgKey d id) = some entry ∧ q.author (msgKey d id) = none ∧
        place.Due d (msgKey d id, entry.serial) q.redis

variable {first : Redis} {steps : List (Draining × Event × Draining)} {place : Drain}
variable {mails : List Mail}

theorem Known.step (known : Known first d q) (step : Step q e q') (at_ : q.rest = place.rest d) :
    Known first d q' := by
  intro id entry found
  -- what was there before is known, and what is recorded stays recorded
  have kept (author : q'.author (msgKey d id) = q.author (msgKey d id))
      (before : q.redis.peek (msgKey d id) = some entry) :
      match q'.author (msgKey d id) with
      | none => first.peek (msgKey d id) = some entry
      | some n => q'.posted[n]? = some ⟨d, id, entry.value⟩ := by
    have holds := known id entry before
    rw [author]
    cases by_ : q.author (msgKey d id) with
    | none =>
        rw [by_] at holds
        exact holds
    | some n =>
        rw [by_] at holds
        exact step.posted holds
  by_cases other : ∀ c, e ≠ .drain c
  · rcases step.key other d id with ⟨author, same | gone⟩ | ⟨-, author, blob, posted, stored⟩
    · exact kept author (same ▸ found)
    · rw [gone] at found
      cases found
    · rw [author]
      show q'.posted[q.posted.length]? = _
      rw [posted, List.getElem?_concat_length]
      rw [Store.get?, found] at stored
      rw [Option.some.inj stored]
  · push Not at other
    obtain ⟨c, rfl⟩ := other
    obtain ⟨rfl, -⟩ := step.of_drain at_
    rcases peek_effect c place q.redis (msgKey d id) with
      same | ⟨gone, -⟩
    · exact kept rfl (same ▸ found)
    · dsimp only at found
      rw [gone] at found
      cases found

@[simp] theorem lasts_concat {m : Mail} :
    Lasts m (steps ++ [(q, e, q')]) ↔
      Lasts m steps ∧ (q.Has m → (∃ c, e = .drain c) ∨ q'.Has m) := by
  simp [Lasts, or_imp, forall_and]

/-- A message that is returned, or is about to be, is one of the device that is known. -/
theorem Sound.of_mem (sound : Sound first d steps q place mails) {m : Mail} (member : m ∈ mails) :
    (∃ id, m.key = msgKey d id) ∧ ∀ n, m.author = some n → n < q.posted.length := by
  obtain ⟨message, -, named, holds⟩ := exists_of_forall₂ sound.hand member
  refine ⟨⟨_, named⟩, fun n by_ => ?_⟩
  rw [by_] at holds
  exact (List.getElem?_eq_some_iff.mp holds).1

theorem Sound.has_of_mem (sound : Sound first d steps q place mails) (step : Step q e q') {m : Mail}
    (member : m ∈ mails) (has : q'.Has m) : q.Has m :=
  have ⟨is, before⟩ := sound.of_mem member
  step.has_of sound.rest is before has

theorem Sound.other (sound : Sound first d steps q place mails) (step : Step q e q')
    (other : ∀ c, e ≠ .drain c) : Sound first d (steps ++ [(q, e, q')]) q' place mails where
  rest := (step.rest_of_other other).trans sound.rest
  prefixed := sound.prefixed
  known := sound.known.step step sound.rest
  hand := sound.hand.imp fun _ _ => IsMail.step step
  nodup := sound.nodup
  taken m member has := sound.taken m member (sound.has_of_mem step member has)
  read pages next key data keys messages is author := by
    subst is
    obtain ⟨id, rfl⟩ := hasPrefix_msg.mp (sound.prefixed key List.mem_cons_self)
    refine sound.read pages next _ data keys messages rfl ?_
    rcases step.key other d id with ⟨same, -⟩ | ⟨-, by_, -⟩
    · rw [← same, author]
    · rw [by_] at author
      cases author
  covered id entry found lasts := by
    obtain ⟨earlier, last⟩ := lasts_concat.mp lasts
    rcases sound.covered id entry found earlier with member | failed | ⟨there, author, due⟩
    · exact Or.inl member
    · exact Or.inr (Or.inl failed)
    · right; right
      rcases last ⟨by rw [there]; rfl, author⟩ with ⟨c, rfl⟩ | ⟨still_, author'⟩
      · exact absurd rfl (other c)
      · dsimp only at still_ author'
        have there' : q'.redis.peek (msgKey d id) = some entry := by
          rcases step.key other d id with ⟨-, same | gone⟩ | ⟨-, by_, -⟩
          · rw [same, there]
          · rw [gone] at still_
            cases still_
          · rw [by_] at author'
            cases author'
        exact ⟨there', author', due.of_still (by simp [still, there'])⟩

/-- A key that the drain reads is a message that it did not have yet. -/
theorem Sound.of_takes (sound : Sound first d steps q place mails) {key : String} {data : Bytes}
    (takes : place.takes c q.redis = some (key, data)) :
    IsMail first d q (Drain.message d key data) ⟨key, q.author key⟩ ∧
      ⟨key, q.author key⟩ ∉ mails := by
  obtain ⟨-, found, pages, next, keys, messages, rfl, -⟩ := Drain.of_takes (d := d) takes
  obtain ⟨id, rfl⟩ := hasPrefix_msg.mp (sound.prefixed key List.mem_cons_self)
  obtain ⟨entry, there, rfl⟩ := Store.get?_eq_some.mp found
  constructor
  · refine ⟨by simp [Drain.message], ?_⟩
    have holds := sound.known id entry there
    dsimp only
    cases by_ : q.author (msgKey d id) with
    | none =>
        rw [by_] at holds
        exact Store.get?_eq_some.mpr ⟨entry, holds, rfl⟩
    | some n =>
        rw [by_] at holds
        simpa [Drain.message] using holds
  · intro member
    obtain ⟨_, _, _, _, _, is⟩ := sound.taken _ member ⟨by rw [there]; rfl, rfl⟩
    cases is

/-- So does a command of the drain that does not fail: it has what its GET finds, and deletes it
next. -/
theorem Sound.drain (sound : Sound first d steps q place mails) (step : Step q (.drain c) q')
    (clean : c.fault = none) :
    Sound first d (steps ++ [(q, .drain c, q')]) q' (place.next d c q.redis)
      (mails ++ (place.takes c q.redis).toList.map fun taken => ⟨taken.1, q.author taken.1⟩) := by
  obtain ⟨is, -⟩ := step.of_drain sound.rest
  have new {m : Mail} (member : m ∈ (place.takes c q.redis).toList.map
      fun taken => (⟨taken.1, q.author taken.1⟩ : Mail)) :
      ∃ key data, place.takes c q.redis = some (key, data) ∧ m = ⟨key, q.author key⟩ := by
    obtain ⟨⟨key, data⟩, taken, rfl⟩ := List.mem_map.mp member
    exact ⟨key, data, Option.mem_toList.mp taken, rfl⟩
  constructor
  case rest => rw [is]
  case prefixed => exact sound.prefixed.next
  case known => exact sound.known.step step sound.rest
  case hand =>
    have fine : place.drops c = false := by
      cases place <;> simp [Drain.drops, clean]
    rw [Drain.hand_next, fine]
    refine List.rel_append (sound.hand.imp fun _ _ => IsMail.step step) ?_
    cases takes : place.takes c q.redis with
    | none => exact .nil
    | some taken => exact .cons ((sound.of_takes takes).1.step step) .nil
  case nodup =>
    refine List.nodup_append.mpr ⟨sound.nodup, ?_, ?_⟩
    · cases place.takes c q.redis <;> simp
    · rintro m old _ member rfl
      obtain ⟨key, data, takes, rfl⟩ := new member
      exact (sound.of_takes takes).2 old
  case taken =>
    intro m member has
    rcases List.mem_append.mp member with old | member
    · -- what it had before it has just deleted
      obtain ⟨_, _, _, _, _, rfl⟩ := sound.taken m old (sound.has_of_mem step old has)
      have there := has.1
      rw [is] at there
      simp only [Drain.effect, clean, if_true, Store.peek_del] at there
      cases there
    · obtain ⟨key, data, takes, rfl⟩ := new member
      obtain ⟨-, -, pages, next, keys, messages, -, goes⟩ := Drain.of_takes (d := d) takes
      exact ⟨pages, next, data, keys, messages, goes⟩
  case read =>
    intro pages next key data keys messages goes author
    have takes := Drain.takes_of_next goes
    rw [is] at author
    dsimp only at author
    refine List.mem_append_right _ (List.mem_map.mpr ⟨(key, data), ?_, by rw [author]⟩)
    rw [takes]
    exact Option.mem_toList.mpr rfl
  case covered =>
    intro id entry found lasts
    obtain ⟨earlier, -⟩ := lasts_concat.mp lasts
    by_cases old : (⟨msgKey d id, none⟩ : Mail) ∈ mails
    · exact Or.inl (List.mem_append_left _ old)
    rcases sound.covered id entry found earlier with member | ⟨e, rfl⟩ | ⟨there, author, due⟩
    · exact absurd member old
    · exact Or.inr (Or.inl ⟨e, rfl⟩)
    · have prefixed : hasPrefix (keyPrefix "msg" d) (msgKey d id) = true :=
        hasPrefix_msg.mpr ⟨id, rfl⟩
      have still_ : still q.redis (msgKey d id, entry.serial) = true := by simp [still, there]
      rcases due.next clean prefixed still_ with due' | ⟨pages, next, keys, messages, rfl⟩
      · -- it is not what is being deleted, for that the drain has
        have there' : (place.effect c q.redis).peek (msgKey d id) = some entry := by
          rcases peek_effect c place q.redis (msgKey d id) with
            same | ⟨-, -, pages, next, data, keys, messages, rfl⟩
          · rw [same, there]
          · exact absurd (sound.read _ _ _ _ _ _ rfl author) old
        rw [is]
        exact Or.inr (Or.inr ⟨there', author, due'.of_still (by simp [still, there'])⟩)
      · left
        refine List.mem_append_right _ (List.mem_map.mpr ⟨(msgKey d id, entry.value), ?_, ?_⟩)
        · rw [Drain.takes, if_pos clean, Store.get?, there]
          exact List.mem_singleton.mpr rfl
        · rw [author]

theorem Sound.fail (sound : Sound first d steps q place mails) (step : Step q (.drain c) q')
    (fault : c.fault.isSome) :
    Sound first d (steps ++ [(q, .drain c, q')]) q' (place.next d c q.redis) [] := by
  obtain ⟨is, running⟩ := step.of_drain sound.rest
  obtain ⟨e, fails⟩ := Option.isSome_iff_exists.mp fault
  have failed : place.next d c q.redis = .failed (.redisError e) := by
    cases place with
    | scanning | reading | deleting => simp only [Drain.next, fails]
    | returned | failed => cases running
  constructor
  case rest => rw [is]
  case prefixed => exact sound.prefixed.next
  case known => exact sound.known.step step sound.rest
  case hand =>
    rw [failed]
    exact .nil
  case nodup => exact List.nodup_nil
  case taken =>
    intro m member
    cases member
  case read =>
    intro pages next key data keys messages goes
    rw [failed] at goes
    cases goes
  case covered => exact fun id entry found lasts => Or.inr (Or.inl ⟨_, failed⟩)

theorem sound_start (r : Redis) (pages : Nat) (d : Uuid) :
    Sound r d [] (start r pages d) (.scanning pages .zero []) [] where
  rest := rfl
  prefixed := trivial
  known id entry found := found
  hand := .nil
  nodup := List.nodup_nil
  taken m member := by cases member
  read _ _ _ _ _ _ goes := by cases goes
  covered id entry found lasts := by
    refine Or.inr (Or.inr ⟨found, rfl, mem_named.mpr ⟨hasPrefix_msg.mpr ⟨id, rfl⟩, ?_⟩⟩)
    simp [still, start, found]

theorem sound_of_run {pages : Nat} (run : Run (start first pages d) steps q) :
    ∃ place mails, Sound first d steps q place mails := by
  induction run with
  | start => exact ⟨_, _, sound_start first pages d⟩
  | @next steps q q' e before step ih =>
      obtain ⟨place, mails, sound⟩ := ih
      by_cases other : ∀ c, e ≠ .drain c
      · exact ⟨place, mails, sound.other step other⟩
      · push Not at other
        obtain ⟨c, rfl⟩ := other
        cases fault : c.fault with
        | none => exact ⟨_, _, sound.drain step fault⟩
        | some error => exact ⟨_, _, sound.fail step (by rw [fault]; rfl)⟩

/-- A drain that returns has returned every message that was there once, and has removed what it
returned. -/
theorem exact_of_returned {pages : Nat} {messages : List QueuedMessage}
    (run : Run (start first pages d) steps q) (returned : q.rest = .done (.ok messages)) :
    Exact first d steps q messages := by
  obtain ⟨place, mails, sound⟩ := sound_of_run run
  obtain ⟨messages', rfl, same⟩ : ∃ messages', place = .returned messages' ∧
      messages = messages' := by
    have done := sound.rest.symm.trans returned
    rcases Drain.of_rest_done done with ⟨messages', rfl, same⟩ | ⟨e, rfl⟩
    · exact ⟨messages', rfl, Except.ok.inj same⟩
    · cases Program.done.inj done
  subst same
  refine ⟨mails, sound.nodup, sound.hand, fun id there lasts => ?_, fun m member has => ?_⟩
  · obtain ⟨entry, found⟩ := Option.isSome_iff_exists.mp there
    rcases sound.covered id entry found lasts with member | ⟨e, failed⟩ | ⟨-, -, due⟩
    · exact member
    · cases failed
    · exact due.elim
  · obtain ⟨_, _, _, _, _, is⟩ := sound.taken m member has
    cases is

/-- One message for the device 1 is in Redis. -/
def oneQueued : Redis := (Store.empty 0).set (msgKey (.replicate 16 1) "1") (strBytes "1") none

theorem exact_oneQueued : ∃ steps q,
    Run (start oneQueued 1 (.replicate 16 1)) steps q ∧
      q.rest = .done (.ok [⟨"1", strBytes "1"⟩]) ∧
      Exact oneQueued (.replicate 16 1) steps q [⟨"1", strBytes "1"⟩] := by
  have begun : Run (start oneQueued 1 (.replicate 16 1)) [] (start oneQueued 1 (.replicate 16 1)) :=
    .start
  have ended := ((begun.next (Step.drain {} rfl)).next (Step.drain {} rfl)).next (Step.drain {} rfl)
  exact ⟨_, _, ended, rfl, exact_of_returned ended rfl⟩

/-- A message that was there from the start and is not any more does not come back. -/
theorem has_before {pages : Nat} {id : String} (run : Run (start first pages d) steps q)
    (has : q.Has ⟨msgKey d id, none⟩) : ∀ x ∈ steps, x.1.Has ⟨msgKey d id, none⟩ := by
  induction run with
  | start => exact fun x member => by cases member
  | @next steps q q' e before step ih =>
      obtain ⟨place, mails, sound⟩ := sound_of_run before
      have had := step.has_of sound.rest ⟨id, rfl⟩ (fun n given => by cases given) has
      simp only [List.forall_mem_append, List.forall_mem_singleton]
      exact ⟨ih had, had⟩

theorem lasts_of_has {pages : Nat} {id : String} (run : Run (start first pages d) steps q)
    (has : q.Has ⟨msgKey d id, none⟩) : Lasts ⟨msgKey d id, none⟩ steps := by
  induction run with
  | start => exact fun x member => by cases member
  | @next steps q q' e before step ih =>
      have had := has_before (before.next step) has (q, e, q') (by simp)
      exact lasts_concat.mpr ⟨ih had, fun _ => Or.inr has⟩

theorem Erases.gone (erases : Erases d q e) (step : Step q e q') :
    ∃ id c, e = .drain c ∧ q.Has ⟨msgKey d id, none⟩ ∧ ¬ q'.Has ⟨msgKey d id, none⟩ := by
  obtain ⟨c, pages, next, id, data, keys, messages, rfl, clean, deletes, there⟩ := erases
  refine ⟨id, c, rfl, there, fun has => ?_⟩
  obtain ⟨rfl, -⟩ := step.of_drain deletes
  have left := has.1
  simp only [Drain.effect, clean, if_true, Store.peek_del] at left
  cases left

/-- A step keeps every message that was there from the start exactly if it deletes none. -/
theorem losesNothing_concat {pages : Nat} (before : Run (start first pages d) steps q)
    (step : Step q e q') :
    LosesNothing first d (steps ++ [(q, e, q')]) q' ↔
      LosesNothing first d steps q ∧ ¬ Erases d q e := by
  obtain ⟨place, mails, sound⟩ := sound_of_run before
  have back {id : String} (has : q'.Has ⟨msgKey d id, none⟩) : q.Has ⟨msgKey d id, none⟩ :=
    step.has_of sound.rest ⟨id, rfl⟩ (fun n given => by cases given) has
  constructor
  · intro all
    refine ⟨fun id there lasts => ?_, fun erases => ?_⟩
    · by_contra gone
      exact gone (back (all id there (lasts_concat.mpr ⟨lasts, fun has => absurd has gone⟩)))
    · obtain ⟨id, c, rfl, has, gone⟩ := erases.gone step
      obtain ⟨entry, found⟩ := Option.isSome_iff_exists.mp has.1
      have there := sound.known id entry found
      rw [show q.author (msgKey d id) = none from has.2] at there
      exact gone (all id (Option.isSome_iff_exists.mpr ⟨entry, there⟩)
        (lasts_concat.mpr ⟨lasts_of_has before has, fun _ => Or.inl ⟨c, rfl⟩⟩))
  · rintro ⟨all, keeps⟩ id there lasts
    obtain ⟨earlier, last⟩ := lasts_concat.mp lasts
    have has := all id there earlier
    rcases last has with ⟨c, rfl⟩ | has'
    · obtain ⟨rfl, -⟩ := step.of_drain sound.rest
      rcases peek_effect c place q.redis (msgKey d id) with
        same | ⟨-, clean, pages, next, data, keys, messages, rfl⟩
      · exact ⟨same ▸ has.1, has.2⟩
      · exact absurd ⟨c, pages, next, id, data, keys, messages, rfl, clean, sound.rest, has⟩ keeps
    · exact has'

/-- A drain, whether it fails or goes on, has lost nothing exactly if it has deleted nothing yet
that was there when it began. -/
theorem loses_nothing_iff {pages : Nat} (run : Run (start first pages d) steps q) :
    LosesNothing first d steps q ↔ ∀ x ∈ steps, ¬ Erases d x.1 x.2.1 := by
  induction run with
  | start =>
      refine iff_of_true (fun id there lasts => ⟨there, rfl⟩) fun x member => ?_
      cases member
  | @next steps q q' e before step ih =>
      simp only [losesNothing_concat before step, List.forall_mem_append, List.forall_mem_singleton,
        ih]

/-- The first command fails. -/
theorem loses_nothing_oneQueued : ∃ steps q,
    Run (start oneQueued 1 (.replicate 16 1)) steps q ∧
      q.rest = .done (.error (.redisError "down")) ∧
      (∀ x ∈ steps, ¬ Erases (.replicate 16 1) x.1 x.2.1) ∧
      LosesNothing oneQueued (.replicate 16 1) steps q := by
  have begun : Run (start oneQueued 1 (.replicate 16 1)) [] (start oneQueued 1 (.replicate 16 1)) :=
    .start
  have ended := begun.next (Step.drain { fault := some "down" } rfl)
  have keeps {q' : Draining} :
      ∀ x ∈ [(start oneQueued 1 (.replicate 16 1), Event.drain { fault := some "down" }, q')],
        ¬ Erases (.replicate 16 1) x.1 x.2.1 := by
    intro x member
    obtain rfl := List.mem_singleton.mp member
    rintro ⟨c, -, -, -, -, -, -, same, clean, -⟩
    obtain rfl := Event.drain.inj same
    cases clean
  exact ⟨_, _, ended, rfl, keeps, (loses_nothing_iff ended).mpr keeps⟩

/-- SCAN answers with the message and goes on; the message is taken; then Redis fails. -/
theorem loses_oneQueued : ¬ ∀ (first : Redis) (pages : Nat) (d : Uuid) (error : MessagingError)
    (steps : List (Draining × Event × Draining)) (q : Draining),
    Run (start first pages d) steps q → q.rest = .done (.error error) →
      LosesNothing first d steps q := by
  intro all
  have begun : Run (start oneQueued 2 (.replicate 16 1)) [] (start oneQueued 2 (.replicate 16 1)) :=
    .start
  have taken := ((begun.next
    (Step.drain { keys := [msgKey (.replicate 16 1) "1"], last := false } rfl)).next
    (Step.drain {} rfl)).next (Step.drain {} rfl)
  have ended := taken.next (Step.drain { fault := some "down" } rfl)
  have lasts {q₁ q₂ q₃ q₄ q₅ q₆ q₇ q₈ : Draining} {c₁ c₂ c₃ c₄ : Chance} :
      Lasts ⟨msgKey (.replicate 16 1) "1", none⟩ [(q₁, .drain c₁, q₂), (q₃, .drain c₂, q₄),
        (q₅, .drain c₃, q₆), (q₇, .drain c₄, q₈)] := by
    simp [Lasts]
  exact absurd (all _ _ _ _ _ _ ended rfl "1" (by decide +kernel) lasts).1 (by decide +kernel)

end

end Draining

end Hysj.Messaging
