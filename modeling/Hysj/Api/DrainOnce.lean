import Hysj.Api.Durability
import Hysj.Base.PoolRuns
import Hysj.Messaging.Drain

set_option autoImplicit false

/- How often a queued message is drained, in any order of the commands. -/
namespace Hysj.Api

open Crypto Shared Messaging Program

/-- Where a call stands, as far as the queue is concerned. -/
inductive Stage where
  | drain (deviceId : Uuid) (place : Drain)
  /-- `EXISTS` of `enqueue` is next -/
  | checking (deviceId : Uuid) (messageId : String) (blob : Bytes) (ttl : UInt64)
  /-- `SET` of `enqueue` is next -/
  | storing (deviceId : Uuid) (messageId : String) (blob : Bytes) (ttl : UInt64)
  /-- `DEL` of `delete_message` is next -/
  | removing (deviceId : Uuid) (messageId : String)
  | elsewhere

namespace Stage

/-- Where a call stands when it is made. -/
def first : Operation → Stage
  | .dequeueAll pages d => .drain d (.scanning pages .zero [])
  | .enqueue d id blob ttl => .checking d id blob ttl
  | .deleteMessage d id => .removing d id
  | _ => .elsewhere

/-- Where a call stands after its next command. -/
def next (c : Chance) (r : Redis) : Stage → Stage
  | .drain d place => .drain d (place.next d c r)
  | .checking d id blob ttl =>
      if c.fault = none ∧ (r.get? (msgKey d id)).isSome = false then .storing d id blob ttl
      else .elsewhere
  | _ => .elsewhere

/-- The key under which the next command stores a message. -/
def stores (c : Chance) : Stage → Option String
  | .storing d id _ ttl => if c.fault = none ∧ ttl ≠ 0 then some (msgKey d id) else none
  | _ => none

end Stage

/-- A message by its key and the call that stored it; `none` stands for one that was there before.
-/
structure Letter where
  key : String
  author : Option Nat
  deriving DecidableEq

/-- A drain has found a message. -/
structure Taking where
  drain : Nat
  letter : Letter
  data : Bytes

/-- The calls and where each stands, the call that last wrote a key, and what the drains have
taken and not dropped. -/
structure Watch where
  calls : Calls
  stages : List Stage
  author : String → Option Nat
  taken : List Taking

namespace Watch

def start (r : Redis) : Watch := ⟨⟨r, []⟩, [], fun _ => none, []⟩

/-- Who last wrote each key after the next command of a call. -/
def authorAfter (q : Watch) (j : Nat) (c : Chance) (stage : Stage) : String → Option Nat :=
  match stage.stores c with
  | some key => Function.update q.author key (some j)
  | none => q.author

/-- What is taken after the next command of a call. -/
def takenAfter (q : Watch) (j : Nat) (c : Chance) : Stage → List Taking
  | .drain _ place =>
      if place.drops c then q.taken.filter fun t => t.drain ≠ j
      else q.taken ++ (place.takes c q.calls.state).toList.map fun found =>
        ⟨j, ⟨found.1, q.author found.1⟩, found.2⟩
  | _ => q.taken

/-- What is recorded of an event. -/
def after (q : Watch) (e : CallEvent) (p' : Calls) : Watch :=
  match e with
  | .call op => { q with calls := p', stages := q.stages ++ [.first op] }
  | .run j c =>
      match q.stages[j]? with
      | some stage =>
          { calls := p'
            stages := q.stages.set j (stage.next c q.calls.state)
            author := q.authorAfter j c stage
            taken := q.takenAfter j c stage }
      | none => { q with calls := p' }
  | .pass _ => { q with calls := p' }

/-- The call with its operation and what is left to do. -/
abbrev At (q : Watch) (j : Nat) (op : Operation) (rest : Program Chance Redis Answer) : Prop :=
  q.calls.threads[j]? = some ⟨op, rest⟩

/-- The message is in the queue. -/
def Waiting (q : Watch) (m : Letter) : Prop :=
  (q.calls.state.peek m.key).isSome ∧ q.author m.key = m.author

/-- The drain has read the key and has still to delete it. -/
def Deleting (q : Watch) (j : Nat) (key : String) : Prop :=
  ∃ d pages next data keys messages,
    q.stages[j]? = some (.drain d (.deleting pages next key data keys messages))

/-- What a call has taken, in its order. -/
def takenBy (q : Watch) (j : Nat) : List Taking := q.taken.filter fun t => t.drain = j

/-- The drain has taken the message and has come to its end without an error. -/
def Returns (q : Watch) (j : Nat) (m : Letter) : Prop :=
  (∃ t ∈ q.takenBy j, t.letter = m) ∧
    ∃ pages d messages, q.At j (.dequeueAll pages d) (.done (.messages (.ok messages)))

/-- No message is returned by two drains, or twice by one. -/
def AtMostOnce (q : Watch) : Prop :=
  (∀ i j m, q.Returns i m → q.Returns j m → i = j) ∧ ∀ j, ((q.takenBy j).map Taking.letter).Nodup

/-- All drains of the device have come to their end. -/
def Finished (q : Watch) (d : Uuid) : Prop :=
  ∀ j pages rest, q.At j (.dequeueAll pages d) rest → ∃ answer, rest = .done answer

/-- An acknowledgement deletes the message. -/
def Acks (q : Watch) (e : CallEvent) (m : Letter) : Prop :=
  q.Waiting m ∧ ∃ j c d id, e = .run j c ∧ q.stages[j]? = some (.removing d id) ∧
    c.fault = none ∧ m.key = msgKey d id

/-- The lifetime of the message runs out. -/
def Expires (q : Watch) (e : CallEvent) (q' : Watch) (m : Letter) : Prop :=
  q.Waiting m ∧ ∃ seconds, e = .pass seconds ∧ q'.calls.state.peek m.key = none

/-- Where a drain finds a message, no drain has taken this one and has still to delete its key. -/
def Alone (q : Watch) : CallEvent → Prop
  | .run j c => ∀ d place key data, q.stages[j]? = some (.drain d place) →
      place.takes c q.calls.state = some (key, data) → ∀ i, q.Deleting i key →
        ∀ t ∈ q.takenBy i, t.letter ≠ ⟨key, q.author key⟩
  | _ => True

/-- No message is stored where one is, or where a drain has still to delete; and no command of a
drain fails. -/
structure Undisturbed (q : Watch) (e : CallEvent) : Prop where
  alone : q.Alone e
  stores : ∀ j c stage key, e = .run j c → q.stages[j]? = some stage → stage.stores c = some key →
    q.calls.state.peek key = none ∧ ∀ i, ¬ q.Deleting i key
  clean : ∀ j c d place, e = .run j c → q.stages[j]? = some (.drain d place) → c.fault = none

/-- An event happens and is recorded. -/
def Watched (serde : SerdeJson) (chrono : Chrono) (q : Watch) (e : CallEvent) (q' : Watch) : Prop :=
  ∃ p', Calls.step serde chrono q.calls e = some p' ∧ q' = q.after e p'

end Watch

/-- What is under the key is the same entry, or there still is none. -/
def Holds (key : String) (r r' : Redis) : Prop :=
  (r'.peek key).map Entry.serial = (r.peek key).map Entry.serial

theorem map_eq_step {α β : Type} {f : α → β} {t : Program Chance Redis α}
    {effect : Chance → Redis → Redis} {next : Chance → Redis → Program Chance Redis β}
    (is : f <$> t = .step effect next) :
    ∃ next', t = .step effect next' ∧ ∀ c r, next c r = f <$> next' c r := by
  cases t with
  | done result => cases is
  | step effect' next' =>
      obtain ⟨rfl, rfl⟩ := Program.step.inj is
      exact ⟨next', rfl, fun _ _ => rfl⟩
  | never => cases is

theorem map_eq_done {α β : Type} {f : α → β} {t : Program Chance Redis α} {b : β}
    (is : f <$> t = .done b) : ∃ a, t = .done a ∧ f a = b := by
  cases t with
  | done result => exact ⟨result, rfl, Program.done.inj is⟩
  | step effect next => cases is
  | never => cases is

namespace Stage

section

variable {serde : SerdeJson} {chrono : Chrono} {op : Operation} {stage : Stage} {c : Chance}
variable {r : Redis} {rest : Program Chance Redis Answer}

/-- The call stands there. -/
def Stands (op : Operation) (rest : Program Chance Redis Answer) : Stage → Prop
  | .drain d place => (∃ pages, op = .dequeueAll pages d) ∧ rest = .messages <$> place.rest d
  | .checking d id blob ttl =>
      op = .enqueue d id blob ttl ∧ rest = .unit <$> (enqueue d id blob ttl).run
  | .storing d id blob ttl =>
      op = .enqueue d id blob ttl ∧ rest = .unit <$> (setEx (msgKey d id) blob ttl).run
  | .removing d id => op = .deleteMessage d id ∧ rest = .flag <$> (deleteMessage d id).run
  | .elsewhere => (∀ pages d, op ≠ .dequeueAll pages d) ∧ ∀ d id, Keeps (Holds (msgKey d id)) rest

/-- What the next command of a call does. -/
def Does (c : Chance) (r r' : Redis) : Stage → Prop
  | .drain _ place => r' = place.effect c r
  | .checking _ _ _ _ => r' = r
  | .storing d id blob ttl =>
      r' = if c.fault = none ∧ ttl ≠ 0 then r.set (msgKey d id) blob (some ttl.toNat) else r
  | .removing d id => r' = if c.fault = none then r.del (msgKey d id) else r
  | .elsewhere => ∀ d id, Holds (msgKey d id) r r'

theorem holds_of_leaves {key : String} {t : Program Chance Redis Answer}
    (leaves : Keeps (Leaves key) t) : Keeps (Holds key) t :=
  leaves.mono fun _ _ kept => congrArg (Option.map Entry.serial) kept.2

theorem holds_expire {key name : String} {n : Nat} (lasts : 0 < n) :
    Holds key r (r.expire name n) := by
  by_cases same : key = name
  · subst same
    cases found : r.peek key with
    | none =>
        have stays : r.expire key n = r := by rw [Store.expire, found]
        rw [Holds, stays]
    | some entry => rw [Holds, Store.peek_expire found lasts, found]; rfl
  · rw [Holds, Store.peek_expire_of_ne same]

theorem msgKey_ne_media (d : Uuid) (id mediaId : String) : msgKey d id ≠ mediaKey mediaId := by
  intro same
  have second := congrArg (fun key => key.toList[1]?) same
  simp [msgKey, mediaKey, keyPrefix] at second

theorem msgKey_ne_meta (d : Uuid) (id mediaId : String) : msgKey d id ≠ mediaMetaKey mediaId := by
  intro same
  have second := congrArg (fun key => key.toList[1]?) same
  simp [msgKey, mediaMetaKey, mediaKey, keyPrefix] at second

/-- Every call but the three of the queue leaves the messages there. -/
theorem stands_first : (Stage.first op).Stands op (op.program serde chrono) := by
  have other {d : Uuid} {id : String} (untouched : ¬ op.Touches (msgKey d id)) :
      Keeps (Holds (msgKey d id)) (op.program serde chrono) :=
    holds_of_leaves (Operation.leaves untouched)
  have initial {d : Uuid} {id : String} (touches : op.Touches (msgKey d id)) :
      op.initial = 'm' := by
    have head := head_of_touches touches
    rw [head_msgKey] at head
    exact (Option.some.inj head).symm
  cases op with
  | enqueue d id blob ttl => exact ⟨rfl, rfl⟩
  | dequeueAll pages d => exact ⟨⟨pages, rfl⟩, rfl⟩
  | deleteMessage d id => exact ⟨rfl, rfl⟩
  | expirySweep pages =>
      refine ⟨fun _ _ => Operation.noConfusion, fun d id => Keeps.map ?_ _⟩
      have changes := @changes_expirySweep
        (fun change => ∃ key, change = .expire key MESSAGE_TTL_SECONDS.toNat)
        (fun key _ => ⟨key, rfl⟩) pages
      refine Keeps.mono changes ?_
      rintro r r' (rfl | ⟨_, ⟨key, rfl⟩, rfl⟩)
      · rfl
      · exact holds_expire (by decide)
  | storeBlob media blob ttl =>
      exact ⟨fun _ _ => Operation.noConfusion, fun d id => other (msgKey_ne_media d id media)⟩
  | storeMeta media d duration size ttl =>
      exact ⟨fun _ _ => Operation.noConfusion, fun d id => other (msgKey_ne_meta d id media)⟩
  | retrieveAndExpire media ttl =>
      refine ⟨fun _ _ => Operation.noConfusion, fun d id => other (not_or.mpr ?_)⟩
      exact ⟨msgKey_ne_media d id media, msgKey_ne_meta d id media⟩
  | deleteBlob media =>
      refine ⟨fun _ _ => Operation.noConfusion, fun d id => other (not_or.mpr ?_)⟩
      exact ⟨msgKey_ne_media d id media, msgKey_ne_meta d id media⟩
  | _ =>
      refine ⟨fun _ _ => Operation.noConfusion, fun d id => other fun touches => ?_⟩
      cases initial touches

/-- A call goes from one of these places to the next, and its commands do this. -/
theorem Stands.step {effect : Chance → Redis → Redis}
    {next : Chance → Redis → Program Chance Redis Answer}
    (stands : stage.Stands op (.step effect next)) (c : Chance) (r : Redis) :
    (stage.next c r).Stands op (next c r) ∧ stage.Does c r (effect c r) := by
  cases stage with
  | drain d place =>
      obtain ⟨call, is⟩ := stands
      obtain ⟨next', same, steps⟩ := map_eq_step is.symm
      obtain ⟨does, goes, -⟩ := Drain.rest_step same c r
      exact ⟨⟨call, by rw [steps, goes]⟩, does⟩
  | checking d id blob ttl =>
      obtain ⟨rfl, is⟩ := stands
      obtain ⟨next', same, steps⟩ := map_eq_step is.symm
      obtain ⟨fails, goes⟩ := command_bind_steps same c r
      have over_ {result : Except MessagingError Unit} :
          Stands (.enqueue d id blob ttl) (.unit <$> .done result) .elsewhere :=
        ⟨fun _ _ => Operation.noConfusion, fun _ _ => trivial⟩
      rw [steps, Stage.next]
      cases fault : c.fault with
      | some e =>
          obtain ⟨stays, stops⟩ := fails e fault
          rw [stops, if_neg fun clean => Option.some_ne_none e clean.1]
          exact ⟨over_, stays⟩
      | none =>
          obtain ⟨stays, answers⟩ := goes fault
          rw [answers _ rfl]
          refine ⟨?_, stays⟩
          cases there : (r.get? (msgKey d id)).isSome with
          | true =>
              simp only [Bool.true_eq_false, and_false, if_false, if_true]
              exact over_
          | false =>
              simp only [Bool.false_eq_true, and_self, if_false, if_true]
              exact ⟨rfl, rfl⟩
  | storing d id blob ttl =>
      obtain ⟨rfl, is⟩ := stands
      obtain ⟨rfl, rfl⟩ := Program.step.inj is
      refine ⟨⟨fun _ _ => Operation.noConfusion, fun _ _ => trivial⟩, ?_⟩
      rw [Does]
      cases fault : c.fault with
      | some e => simp [fault]
      | none => by_cases zero : ttl = 0 <;> simp [fault, zero]
  | removing d id =>
      obtain ⟨rfl, is⟩ := stands
      obtain ⟨next', same, steps⟩ := map_eq_step is.symm
      obtain ⟨fails, goes⟩ := command_bind_steps same c r
      rw [steps, Does]
      cases fault : c.fault with
      | some e =>
          obtain ⟨stays, stops⟩ := fails e fault
          rw [stops, if_neg (Option.some_ne_none e)]
          exact ⟨⟨fun _ _ => Operation.noConfusion, fun _ _ => trivial⟩, stays⟩
      | none =>
          obtain ⟨deletes, answers⟩ := goes fault
          rw [answers _ rfl, if_pos rfl]
          exact ⟨⟨fun _ _ => Operation.noConfusion, fun _ _ => trivial⟩, deletes⟩
  | elsewhere =>
      exact ⟨⟨stands.1, fun d id => (stands.2 d id c r).2⟩, fun d id => (stands.2 d id c r).1⟩

/-- The key that is written is the one of the message, and nothing else follows. -/
theorem of_stores {key : String} (stores : stage.stores c = some key) :
    ∃ d id blob ttl, stage = .storing d id blob ttl ∧ key = msgKey d id ∧ c.fault = none ∧
      ttl ≠ 0 := by
  cases stage with
  | storing d id blob ttl =>
      rw [Stage.stores] at stores
      split at stores
      · rename_i lasts
        exact ⟨d, id, blob, ttl, rfl, (Option.some.inj stores).symm, lasts⟩
      · cases stores
  | _ => cases stores

end

end Stage

namespace Watch

section

variable {serde : SerdeJson} {chrono : Chrono} {q q' : Watch} {e : CallEvent}
    {i j : Nat} {c : Chance}
variable {stage : Stage} {m : Letter} {t : Taking} {d : Uuid} {id key : String} {first : Redis}

/-- What is known of every call in every run. -/
structure Sound (q : Watch) : Prop where
  length : q.stages.length = q.calls.threads.length
  stands : ∀ j op rest, q.At j op rest → ∃ stage :
    Stage, q.stages[j]? = some stage ∧ stage.Stands op rest
  prefixed : ∀ (j : Nat) d place, q.stages[j]? = some (.drain d place) → place.Prefixed d
  hands : ∀ (j : Nat) d place, q.stages[j]? = some (.drain d place) →
    place.hand d = (q.takenBy j).map fun t => Drain.message d t.letter.key t.data
  takers : ∀ t ∈ q.taken, ∃ (d : Uuid) (place : Drain), q.stages[t.drain]? = some (.drain d place) ∧
    ∃ id, t.letter.key = msgKey d id
  authors : ∀ key j, q.author key = some j → q.stages[j]? = some .elsewhere
  senders : ∀ t ∈ q.taken, ∀ j, t.letter.author = some j → q.stages[j]? = some .elsewhere

/-- An event, by what it changes. -/
inductive Moved (serde : SerdeJson) (chrono : Chrono) (q : Watch) : CallEvent → Watch → Prop where
  | call (op : Operation) : Moved serde chrono q (.call op)
      { q with
        calls := ⟨q.calls.state, q.calls.threads ++ [⟨op, op.program serde chrono⟩]⟩
        stages := q.stages ++ [.first op] }
  | pass (seconds : Nat) : Moved serde chrono q (.pass seconds)
      { q with calls := ⟨q.calls.state.advance seconds, q.calls.threads⟩ }
  | run (j : Nat) (c : Chance) (op : Operation) (stage : Stage)
      (rest rest' : Program Chance Redis Answer)
      (r : Redis) (found : q.At j op rest) (there : q.stages[j]? = some stage)
      (stands : stage.Stands op rest) (stands' : (stage.next c q.calls.state).Stands op rest')
      (does : stage.Does c q.calls.state r) : Moved serde chrono q (.run j c)
        ⟨⟨r, q.calls.threads.set j ⟨op, rest'⟩⟩, q.stages.set j (stage.next c q.calls.state),
          q.authorAfter j c stage, q.takenAfter j c stage⟩

theorem Sound.moved (sound : q.Sound) (stepped : Watched serde chrono q e q') :
    Moved serde chrono q e q' := by
  obtain ⟨p', stepped, rfl⟩ := stepped
  cases e with
  | call op =>
      obtain rfl := Option.some.inj stepped
      exact .call op
  | pass seconds =>
      obtain rfl := Option.some.inj stepped
      exact .pass seconds
  | run j c =>
      obtain ⟨op, effect, next, found, rfl⟩ := Pool.step_run.mp stepped
      obtain ⟨stage, there, stands⟩ := sound.stands j op _ found
      obtain ⟨stands', does⟩ := stands.step c q.calls.state
      rw [after, there]
      exact .run j c op stage _ _ _ found there stands stands' does

theorem sound_start (r : Redis) : (start r).Sound where
  length := rfl
  stands j op rest found := by cases found
  prefixed j d place found := by cases found
  hands j d place found := by cases found
  takers t member := by cases member
  authors key j found := by cases found
  senders t member := by cases member

theorem mem_takenBy : t ∈ q.takenBy j ↔ t ∈ q.taken ∧ t.drain = j := by
  rw [takenBy, List.mem_filter, decide_eq_true_iff]

/-- What is taken after a command was taken before it, or is taken by it. -/
theorem of_takenAfter (member : t ∈ q.takenAfter j c stage) :
    (t ∈ q.taken ∧ ∀ d place, stage = .drain d place → t.drain = j → place.drops c = false) ∨
      ∃ d place key data, stage = .drain d place ∧ place.takes c q.calls.state = some (key, data) ∧
        t = ⟨j, ⟨key, q.author key⟩, data⟩ := by
  cases stage with
  | drain d place =>
      rw [takenAfter] at member
      split at member
      · obtain ⟨old, other⟩ := List.mem_filter.mp member
        refine Or.inl ⟨old, fun d' place' _ mine => ?_⟩
        exact absurd mine (of_decide_eq_true other)
      · rename_i keeps
        rcases List.mem_append.mp member with old | new
        · refine Or.inl ⟨old, fun d' place' same _ => ?_⟩
          obtain ⟨rfl, rfl⟩ := Stage.drain.inj same
          exact Bool.not_eq_true _ ▸ keeps
        · obtain ⟨⟨key, data⟩, found, rfl⟩ := List.mem_map.mp new
          exact Or.inr ⟨d, place, key, data, rfl, Option.mem_toList.mp found, rfl⟩
  | _ => exact Or.inl ⟨member, fun d place same => by cases same⟩

theorem next_eq_drain {place' : Drain} {r : Redis} (is : stage.next c r = .drain d place') :
    ∃ place, stage = .drain d place ∧ place' = place.next d c r := by
  cases stage with
  | drain d' place =>
      obtain ⟨rfl, rfl⟩ := Stage.drain.inj is
      exact ⟨place, rfl, rfl⟩
  | checking d' id blob ttl =>
      rw [Stage.next] at is
      split at is <;> cases is
  | _ => cases is

theorem takenBy_after_of_ne (other : i ≠ j) :
    ((q.takenAfter j c stage).filter fun t => t.drain = i) = q.takenBy i := by
  cases stage with
  | drain d place =>
      rw [takenAfter]
      split
      · rw [List.filter_filter, takenBy]
        apply List.filter_congr
        intro t _
        by_cases mine : t.drain = i
        · simp [mine, other]
        · simp [mine]
      · rw [List.filter_append, takenBy]
        refine List.append_right_eq_self.mpr (List.filter_eq_nil_iff.mpr ?_)
        intro t new mine
        obtain ⟨found, -, rfl⟩ := List.mem_map.mp new
        exact other (of_decide_eq_true mine).symm
  | _ => rfl

theorem takenBy_after {place : Drain} :
    ((q.takenAfter j c (.drain d place)).filter fun t => t.drain = j) =
      if place.drops c then []
      else q.takenBy j ++ (place.takes c q.calls.state).toList.map fun found =>
        ⟨j, ⟨found.1, q.author found.1⟩, found.2⟩ := by
  rw [takenAfter]
  split
  · rw [List.filter_filter, List.filter_eq_nil_iff]
    intro t _ both
    simp at both
  · rw [List.filter_append, takenBy]
    congr 1
    rw [List.filter_eq_self]
    intro t new
    obtain ⟨found, -, rfl⟩ := List.mem_map.mp new
    exact decide_eq_true rfl

theorem elsewhere_set (there : q.stages[j]? = some stage) (is : q.stages[i]? = some .elsewhere) :
    (q.stages.set j (stage.next c q.calls.state))[i]? = some .elsewhere := by
  by_cases same : i = j
  · subst same
    obtain rfl := Option.some.inj (there.symm.trans is)
    exact getElem?_set_self_of_some is
  · exact getElem?_set_ne_of_some same is

/-- Who wrote a key is the call whose command has just done so, or wrote it before. -/
theorem of_authorAfter (wrote : q.authorAfter j c stage key = some i) :
    (i = j ∧ stage.stores c = some key) ∨ q.author key = some i := by
  cases stores : stage.stores c with
  | none =>
      simp only [authorAfter, stores] at wrote
      exact Or.inr wrote
  | some name =>
      simp only [authorAfter, stores] at wrote
      by_cases same : key = name
      · subst same
        rw [Function.update_self] at wrote
        exact Or.inl ⟨(Option.some.inj wrote).symm, rfl⟩
      · rw [Function.update_of_ne same] at wrote
        exact Or.inr wrote

theorem Sound.step (sound : q.Sound) (moved : Moved serde chrono q e q') : q'.Sound := by
  have stands (j : Nat) (t : Thread Chance Redis Operation Answer)
      (found : q.calls.threads[j]? = some t) :
      ∃ stage : Stage, q.stages[j]? = some stage ∧ stage.Stands t.call t.rest :=
    sound.stands j t.call t.rest found
  cases moved with
  | call op =>
      have unused {k : Nat} (beyond : k = q.stages.length) : q.takenBy k = [] := by
        refine List.filter_eq_nil_iff.mpr fun t member mine => ?_
        obtain ⟨d, place, there, -⟩ := sound.takers t member
        have inside := (List.getElem?_eq_some_iff.mp there).1
        rw [of_decide_eq_true mine, beyond] at inside
        exact Nat.lt_irrefl _ inside
      constructor
      · simp [sound.length]
      · intro k op' rest found
        exact marked_append sound.length stands Stage.stands_first k ⟨op', rest⟩ found
      · intro k d place found
        rcases of_getElem?_append found with there | ⟨-, new⟩
        · exact sound.prefixed k d place there
        · cases op with
          | dequeueAll pages d' =>
              obtain ⟨rfl, rfl⟩ := Stage.drain.inj new
              trivial
          | _ => cases new
      · intro k d place found
        rcases of_getElem?_append found with there | ⟨beyond, new⟩
        · exact sound.hands k d place there
        · cases op with
          | dequeueAll pages d' =>
              obtain ⟨rfl, rfl⟩ := Stage.drain.inj new
              exact (congrArg (List.map _) (unused beyond)).symm
          | _ => cases new
      · intro t member
        obtain ⟨d, place, there, named⟩ := sound.takers t member
        exact ⟨d, place, getElem?_append_of_some there, named⟩
      · exact fun key k wrote => getElem?_append_of_some (sound.authors key k wrote)
      · exact fun t member k wrote => getElem?_append_of_some (sound.senders t member k wrote)
  | pass seconds =>
      exact ⟨sound.length, sound.stands, sound.prefixed, sound.hands, sound.takers, sound.authors,
        sound.senders⟩
  | run j c op stage rest rest' r found there stands_ stands' does =>
      have inside := (List.getElem?_eq_some_iff.mp there).1
      have mine : (q.stages.set j (stage.next c q.calls.state))[j]? =
          some (stage.next c q.calls.state) := List.getElem?_set_self inside
      constructor
      · simp [sound.length]
      · intro k op' rest'' found'
        exact marked_set stands inside stands' k ⟨op', rest''⟩ found'
      · intro k d place is
        rcases of_getElem?_set is with ⟨rfl, new⟩ | ⟨-, before⟩
        · obtain ⟨place, rfl, rfl⟩ := next_eq_drain new.symm
          exact (sound.prefixed k d place there).next
        · exact sound.prefixed k d place before
      · intro k d place is
        rcases of_getElem?_set is with ⟨rfl, new⟩ | ⟨other, before⟩
        · obtain ⟨place, rfl, rfl⟩ := next_eq_drain new.symm
          show _ = List.map _ (List.filter _ _)
          rw [takenBy_after, Drain.hand_next, sound.hands k d place there]
          split
          · rfl
          · rw [List.map_append, List.map_map]
            rfl
        · show _ = List.map _ (List.filter _ _)
          rw [takenBy_after_of_ne other]
          exact sound.hands k d place before
      · intro t member
        rcases of_takenAfter member with ⟨old, -⟩ | ⟨d, place, key, data, rfl, takes, rfl⟩
        · obtain ⟨d, place, is, named⟩ := sound.takers t old
          by_cases same : t.drain = j
          · rw [same] at is
            obtain rfl := Option.some.inj (there.symm.trans is)
            rw [same]
            exact ⟨d, _, mine, named⟩
          · exact ⟨d, place, getElem?_set_ne_of_some same is, named⟩
        · obtain ⟨-, -, pages, next, keys, messages, rfl, -⟩ := @Drain.of_takes d _ _ _ _ _ takes
          have named := sound.prefixed j d _ there key List.mem_cons_self
          exact ⟨d, _, mine, hasPrefix_msg.mp named⟩
      · intro key k wrote
        rcases of_authorAfter wrote with ⟨rfl, stores⟩ | before
        · obtain ⟨d, id, blob, ttl, rfl, -⟩ := Stage.of_stores stores
          exact mine
        · exact elsewhere_set there (sound.authors key k before)
      · intro t member k wrote
        rcases of_takenAfter member with ⟨old, -⟩ | ⟨d, place, key, data, rfl, takes, rfl⟩
        · exact elsewhere_set there (sound.senders t old k wrote)
        · exact elsewhere_set there (sound.authors key k wrote)

/-- What can happen to what is stored under a key. -/
inductive Affects (q : Watch) (key : String) : CallEvent → Watch → Prop where
  | leaves {e : CallEvent} {q' : Watch} (same : Holds key q.calls.state q'.calls.state)
      (author : q'.author key = q.author key) : Affects q key e q'
  | stores {j : Nat} {c : Chance} {stage : Stage} {q' : Watch} (there : q.stages[j]? = some stage)
      (stores : stage.stores c = some key) (author : q'.author key = some j) :
      Affects q key (.run j c) q'
  | drains {j : Nat} {c : Chance} {q' : Watch} (deleting : q.Deleting j key)
      (gone : q'.calls.state.peek key = none) : Affects q key (.run j c) q'
  | acks {j : Nat} {c : Chance} {q' : Watch} (d : Uuid) (id : String)
      (there : q.stages[j]? = some (.removing d id)) (clean : c.fault = none)
      (named : key = msgKey d id) (gone : q'.calls.state.peek key = none) :
      Affects q key (.run j c) q'
  | expires {seconds : Nat} {q' : Watch} (gone : q'.calls.state.peek key = none) :
      Affects q key (.pass seconds) q'

theorem Moved.affects (moved : Moved serde chrono q e q') : Affects q (msgKey d id) e q' := by
  cases moved with
  | call op => exact .leaves rfl rfl
  | pass seconds =>
      cases left : (q.calls.state.advance seconds).peek (msgKey d id) with
      | none => exact .expires left
      | some entry =>
          refine .leaves ?_ rfl
          rw [Holds, left, (Store.peek_advance.mp left).1]
  | run j c op stage rest rest' r found there stands stands' does =>
      cases stage with
      | drain d' place =>
          cases place with
          | deleting pages next key data keys messages =>
              change r = if c.fault = none then q.calls.state.del key else q.calls.state at does
              subst does
              by_cases clean : c.fault = none
              · rw [if_pos clean]
                by_cases same : msgKey d id = key
                · refine .drains ⟨d', pages, next, data, keys, messages, same ▸ there⟩ ?_
                  rw [same]
                  exact Store.peek_del
                · exact .leaves (congrArg _ (Store.peek_del_of_ne same)) rfl
              · rw [if_neg clean]
                exact .leaves rfl rfl
          | _ =>
              subst does
              exact .leaves rfl rfl
      | checking d' id' blob ttl =>
          subst does
          exact .leaves rfl rfl
      | storing d' id' blob ttl =>
          subst does
          by_cases lasts : c.fault = none ∧ ttl ≠ 0
          · have stores : (Stage.storing d' id' blob ttl).stores c = some (msgKey d' id') :=
              if_pos lasts
            by_cases same : msgKey d id = msgKey d' id'
            · refine .stores there (same ▸ stores) ?_
              simp only [authorAfter, stores, same, Function.update_self]
            · refine .leaves ?_ ?_
              · rw [if_pos lasts]
                exact congrArg _ (Store.peek_set_of_ne same)
              · simp only [authorAfter, stores]
                exact Function.update_of_ne same _ _
          · have stores : (Stage.storing d' id' blob ttl).stores c = none := if_neg lasts
            rw [if_neg lasts]
            refine .leaves rfl ?_
            simp only [authorAfter, stores]
      | removing d' id' =>
          subst does
          by_cases clean : c.fault = none
          · rw [if_pos clean]
            by_cases same : msgKey d id = msgKey d' id'
            · refine .acks d' id' there clean same ?_
              rw [same]
              exact Store.peek_del
            · exact .leaves (congrArg _ (Store.peek_del_of_ne same)) rfl
          · rw [if_neg clean]
            exact .leaves rfl rfl
      | elsewhere => exact .leaves (does d id) rfl

theorem Sound.named_of_deleting (sound : q.Sound) (deleting : q.Deleting j key) :
    ∃ d id, key = msgKey d id := by
  obtain ⟨d, pages, next, data, keys, messages, there⟩ := deleting
  obtain ⟨id, named⟩ := hasPrefix_msg.mp (sound.prefixed j d _ there key List.mem_cons_self)
  exact ⟨d, id, named⟩

theorem waiting_of_leaves (same : Holds m.key q.calls.state q'.calls.state)
    (author : q'.author m.key = q.author m.key) : q'.Waiting m ↔ q.Waiting m := by
  have there := congrArg Option.isSome same
  rw [Option.isSome_map, Option.isSome_map] at there
  rw [Waiting, Waiting, there, author]

theorem not_waiting_of_gone (gone : q.calls.state.peek m.key = none) : ¬ q.Waiting m := by
  rintro ⟨there, -⟩
  rw [gone] at there
  cases there

/-- No message is taken twice, and one that is taken and still in the queue is about to be deleted.
-/
structure Single (q : Watch) : Prop where
  held : ∀ t ∈ q.taken, q.Waiting t.letter → q.Deleting t.drain t.letter.key
  once : (q.taken.map Taking.letter).Nodup

theorem deleting_of_takes {place : Drain} {data : Bytes}
    (there : q.stages[j]? = some (.drain d place))
    (takes : place.takes c q.calls.state = some (key, data)) {p : Calls}
    {author : String → Option Nat}
    {taken : List Taking} :
    Deleting ⟨p, q.stages.set j (.drain d (place.next d c q.calls.state)),
    author, taken⟩ j key := by
  obtain ⟨-, -, pages, next, keys, messages, -, goes⟩ := @Drain.of_takes d _ _ _ _ _ takes
  refine ⟨d, pages, next, data, keys, messages, ?_⟩
  rw [goes]
  exact getElem?_set_self_of_some there

theorem Deleting.of_ne (deleting : q.Deleting i key) (other : i ≠ j) {p : Calls}
    {author : String → Option Nat} {taken : List Taking} :
    Deleting ⟨p, q.stages.set j stage, author, taken⟩ i key := by
  obtain ⟨d, pages, next, data, keys, messages, there⟩ := deleting
  exact ⟨d, pages, next, data, keys, messages, getElem?_set_ne_of_some other there⟩

theorem Single.taken (single : q.Single) (found : q.stages[j]? = some stage)
    (alone : q.Alone (.run j c)) : ((q.takenAfter j c stage).map Taking.letter).Nodup := by
  cases stage with
  | drain d place =>
      rw [takenAfter]
      split
      · exact (List.filter_sublist.map _).nodup single.once
      · cases takes : place.takes c q.calls.state with
        | none => simpa using single.once
        | some found' =>
            obtain ⟨key, data⟩ := found'
            simp only [Option.toList_some, List.map_append, List.map_cons, List.map_nil]
            refine List.Nodup.append single.once (List.nodup_singleton _) ?_
            rw [List.disjoint_singleton]
            intro member
            obtain ⟨t, taken, same⟩ := List.mem_map.mp member
            obtain ⟨-, there, -⟩ := @Drain.of_takes d _ _ _ _ _ takes
            obtain ⟨entry, there, -⟩ := Store.get?_eq_some.mp there
            have waiting : q.Waiting t.letter := by
              rw [same]
              exact ⟨by rw [there]; rfl, rfl⟩
            have deleting := single.held t taken waiting
            rw [same] at deleting
            have mine := mem_takenBy.mpr ⟨taken, rfl⟩
            exact alone d place key data found takes t.drain deleting t mine same
  | _ => exact single.once

theorem Single.step (sound : q.Sound) (single : q.Single) (moved : Moved serde chrono q e q')
    (alone : q.Alone e) : q'.Single := by
  cases moved with
  | call op =>
      refine ⟨fun t member waiting => ?_, single.once⟩
      obtain ⟨d, pages, next, data, keys, messages, there⟩ := single.held t member waiting
      refine ⟨d, pages, next, data, keys, messages, ?_⟩
      exact getElem?_append_of_some there
  | pass seconds =>
      refine ⟨fun t member waiting => single.held t member ⟨?_, waiting.2⟩, single.once⟩
      obtain ⟨entry, left⟩ := Option.isSome_iff_exists.mp waiting.1
      exact Option.isSome_iff_exists.mpr ⟨entry, (Store.peek_advance.mp left).1⟩
  | run j c op stage rest rest' r found there stands stands' does =>
      refine ⟨fun t member waiting => ?_, single.taken there alone⟩
      rcases of_takenAfter member with ⟨old, keeps⟩ | ⟨d, place, key, data, rfl, takes, rfl⟩
      · obtain ⟨d, place, -, id, named⟩ := sound.takers t old
        have affects := @Moved.affects serde chrono q _ _ d id
          (.run j c op stage rest rest' r found there stands stands' does)
        rw [← named] at affects
        cases affects with
        | leaves same author =>
            have deleting := single.held t old ((waiting_of_leaves same author).mp waiting)
            by_cases mine : t.drain = j
            · -- the drain deletes now, unless it fails and drops the message
              obtain ⟨d', pages, next, data, keys, messages, is⟩ := deleting
              rw [mine] at is
              obtain rfl := Option.some.inj (there.symm.trans is)
              have clean : c.fault = none := by
                have kept := keeps d' _ rfl mine
                cases fault : c.fault with
                | none => rfl
                | some e => simp [Drain.drops, fault] at kept
              have gone : r.peek t.letter.key = none := by
                rw [show r = _ from does, Drain.effect, if_pos clean]
                exact Store.peek_del
              exact absurd waiting (not_waiting_of_gone gone)
            · exact deleting.of_ne mine
        | stores there' stores author =>
            obtain rfl := Option.some.inj (there.symm.trans there')
            obtain ⟨d, id, blob, ttl, rfl, -⟩ := Stage.of_stores stores
            have wrote : t.letter.author = some j := waiting.2.symm.trans author
            have through := sound.senders t old j wrote
            rw [there] at through
            cases through
        | drains deleting gone => exact absurd waiting (not_waiting_of_gone gone)
        | acks d id there' clean named gone => exact absurd waiting (not_waiting_of_gone gone)
      · exact deleting_of_takes there takes

/-- What a drain is about to delete, it has taken. -/
def Known (q : Watch) : Prop :=
  ∀ j key, q.Deleting j key → (q.calls.state.peek key).isSome →
    ∃ t ∈ q.taken, t.drain = j ∧ t.letter = ⟨key, q.author key⟩

theorem taken_after (undisturbed : q.Undisturbed (.run j c)) (there : q.stages[j]? = some stage)
    (member : t ∈ q.taken) : t ∈ q.takenAfter j c stage := by
  cases stage with
  | drain d place =>
      have clean := undisturbed.clean j c d place rfl there
      have keeps : place.drops c = false := by
        cases place <;> simp [Drain.drops, clean]
      rw [takenAfter, if_neg (Bool.not_eq_true _ ▸ keeps)]
      exact List.mem_append_left _ member
  | _ => exact member

theorem taken_of_moved (moved : Moved serde chrono q e q') (undisturbed : q.Undisturbed e)
    (member : t ∈ q.taken) : t ∈ q'.taken := by
  cases moved with
  | call op => exact member
  | pass seconds => exact member
  | run j c op stage rest rest' r found there stands stands' does =>
      exact taken_after undisturbed there member

/-- A drain that has to delete after an event had to before, or has just taken. -/
theorem Deleting.before (moved : Moved serde chrono q e q') (deleting : q'.Deleting i key) :
    q.Deleting i key ∨ ∃ t ∈ q'.taken, t.drain = i ∧
      t.letter = ⟨key, q'.author key⟩ := by
  obtain ⟨d, pages, next, data, keys, messages, there'⟩ := deleting
  cases moved with
  | call op =>
      rcases of_getElem?_append there' with there | ⟨-, new⟩
      · exact Or.inl ⟨d, pages, next, data, keys, messages, there⟩
      · cases op <;> cases new
  | pass seconds => exact Or.inl ⟨d, pages, next, data, keys, messages, there'⟩
  | run j c op stage rest rest' r found there stands stands' does =>
      rcases of_getElem?_set there' with ⟨rfl, new⟩ | ⟨-, before⟩
      · obtain ⟨place, rfl, is⟩ := next_eq_drain new.symm
        have takes := Drain.takes_of_next is.symm
        have keeps : place.drops c = false := by
          obtain ⟨clean, -⟩ := @Drain.of_takes d _ _ _ _ _ takes
          cases place <;> simp [Drain.drops, clean]
        refine Or.inr ⟨⟨i, ⟨key, q.author key⟩, data⟩, ?_, rfl, rfl⟩
        show _ ∈ q.takenAfter i c (.drain d place)
        rw [takenAfter, if_neg (Bool.not_eq_true _ ▸ keeps), takes]
        exact List.mem_append_right _ (by simp)
      · exact Or.inl ⟨d, pages, next, data, keys, messages, before⟩

theorem Known.step (sound : q.Sound) (known : q.Known) (moved : Moved serde chrono q e q')
    (undisturbed : q.Undisturbed e) : q'.Known := by
  intro i key deleting' there'
  obtain ⟨entry, left⟩ := Option.isSome_iff_exists.mp there'
  rcases deleting'.before moved with deleting | taken
  · obtain ⟨d, id, rfl⟩ := sound.named_of_deleting deleting
    have affects : Affects q (msgKey d id) e q' := moved.affects
    cases affects with
    | leaves same author =>
        have there : (q.calls.state.peek (msgKey d id)).isSome := by
          have both := congrArg Option.isSome same
          rw [Option.isSome_map, Option.isSome_map] at both
          rw [← both, there']
        obtain ⟨t, member, drain, letter⟩ := known i _ deleting there
        exact ⟨t, taken_of_moved moved undisturbed member, drain, by rw [letter, author]⟩
    | stores there stores author =>
        exact absurd deleting ((undisturbed.stores _ _ _ _ rfl there stores).2 i)
    | drains _ gone => rw [gone] at left; cases left
    | acks d id _ _ _ gone => rw [gone] at left; cases left
    | expires gone => rw [gone] at left; cases left
  · exact taken

/-- A drain has taken the message. -/
def Taken (q : Watch) (m : Letter) : Prop := ∃ t ∈ q.taken, t.letter = m

/-- A message leaves the queue only by a drain, an acknowledgement or the end of its lifetime. -/
theorem waiting_or_taken (known : q.Known) (moved : Moved serde chrono q e q')
    (undisturbed : q.Undisturbed e) (named : m.key = msgKey d id) (waiting : q.Waiting m)
    (acks : ¬ q.Acks e m) (expires : ¬ q.Expires e q' m) :
    (q'.Waiting m ∧ Holds m.key q.calls.state q'.calls.state) ∨ q'.Taken m := by
  have affects : Affects q (msgKey d id) e q' := moved.affects
  rw [← named] at affects
  cases affects with
  | leaves same author => exact Or.inl ⟨(waiting_of_leaves same author).mpr waiting, same⟩
  | stores there stores author =>
      have free := (undisturbed.stores _ _ _ _ rfl there stores).1
      exact absurd waiting (not_waiting_of_gone free)
  | drains deleting gone =>
      obtain ⟨t, member, -, letter⟩ := known _ _ deleting waiting.1
      refine Or.inr ⟨t, taken_of_moved moved undisturbed member, ?_⟩
      rw [letter, waiting.2]
  | acks d' id' there clean named' gone =>
      exact absurd ⟨waiting, _, _, d', id', rfl, there, clean, named'⟩ acks
  | expires gone => exact absurd ⟨waiting, _, rfl, gone⟩ expires

/-- The message is taken, or the drain has still to come to it. -/
def Due (q : Watch) (k : Nat) (d : Uuid) (m : Letter) : Prop :=
  q.Taken m ∨ q.Waiting m ∧ ∃ place entry, q.stages[k]? = some (.drain d place) ∧
    q.calls.state.peek m.key = some entry ∧ place.Due d (m.key, entry.serial) q.calls.state

theorem Taken.step (moved : Moved serde chrono q e q') (undisturbed : q.Undisturbed e)
    (taken : q.Taken m) : q'.Taken m := by
  obtain ⟨t, member, letter⟩ := taken
  exact ⟨t, taken_of_moved moved undisturbed member, letter⟩

theorem Due.step {k : Nat} (known : q.Known) (moved : Moved serde chrono q e q')
    (undisturbed : q.Undisturbed e) (named : m.key = msgKey d id) (acks : ¬ q.Acks e m)
    (expires : ¬ q.Expires e q' m) (due : q.Due k d m) : q'.Due k d m := by
  rcases due with taken | ⟨waiting, place, entry, at_, there, due⟩
  · exact Or.inl (taken.step moved undisturbed)
  · rcases waiting_or_taken known moved undisturbed named waiting acks expires with
      ⟨waiting', same⟩ | taken
    · rw [Holds, there] at same
      obtain ⟨entry', there', serial⟩ := Option.map_eq_some_iff.mp same
      have still_ : still q'.calls.state (m.key, entry.serial) = true := by
        rw [still, there', Option.map_some, serial]
        exact decide_eq_true rfl
      have now_ : still q.calls.state (m.key, entry.serial) = true := by
        rw [still, there]
        exact decide_eq_true rfl
      have prefixed : hasPrefix (keyPrefix "msg" d) m.key = true := hasPrefix_msg.mpr ⟨id, named⟩
      have stays {place' : Drain} (is : q'.stages[k]? = some (.drain d place'))
          (due' : place'.Due d (m.key, entry.serial) q.calls.state) : q'.Due k d m := by
        refine Or.inr ⟨waiting', place', entry', is, there', ?_⟩
        rw [serial]
        exact due'.of_still still_
      cases moved with
      | call op =>
          exact stays (getElem?_append_of_some at_) due
      | pass seconds => exact stays at_ due
      | run j c op stage rest rest' r found is stands stands' does =>
          by_cases mine : k = j
          · subst mine
            obtain rfl := Option.some.inj (is.symm.trans at_)
            have clean := undisturbed.clean k c d place rfl is
            rcases due.next clean prefixed now_ with nearer | ⟨pages, next, keys, messages, rfl⟩
            · exact stays (getElem?_set_self_of_some at_) nearer
            · have takes : Drain.takes c q.calls.state (.reading pages next m.key keys messages) =
                  some (m.key, entry.value) := by
                rw [Drain.takes, if_pos clean, Store.get?, there]
                rfl
              refine Or.inl ⟨⟨k, ⟨m.key, q.author m.key⟩, entry.value⟩, ?_, ?_⟩
              · change _ ∈ q.takenAfter k c (.drain d (.reading pages next m.key keys messages))
                rw [takenAfter, takes, if_neg (by simp [Drain.drops, clean])]
                exact List.mem_append_right _ (by simp)
              · rw [waiting.2]
          · exact stays (getElem?_set_ne_of_some mine at_) due
    · exact Or.inl taken

/-- A drain that begins has to come to every message that waits for its device. -/
theorem due_of_call {pages : Nat} (named : m.key = msgKey d id) (present : q.Taken m ∨ q.Waiting m)
    (moved : Moved serde chrono q (.call (.dequeueAll pages d)) q') :
    q'.Due q.stages.length d m := by
  cases moved with
  | call =>
      rcases present with taken | waiting
      · exact Or.inl taken
      · obtain ⟨entry, there⟩ := Option.isSome_iff_exists.mp waiting.1
        refine Or.inr ⟨waiting, .scanning pages .zero [], entry, by simp [Stage.first], there, ?_⟩
        refine mem_owed.mpr ⟨hasPrefix_msg.mpr ⟨id, named⟩, ?_, fun rest => Cursor.noConfusion⟩
        rw [still, there]
        exact decide_eq_true rfl

variable {steps : List (Watch × CallEvent × Watch)}

abbrev Run (serde : SerdeJson) (chrono : Chrono) (first : Watch)
    (steps : List (Watch × CallEvent × Watch)) (q : Watch) : Prop :=
  Trail (Watched serde chrono) first steps q

theorem Run.sound (run : Run serde chrono (start first) steps q) : q.Sound :=
  (run.holds_before (sound_start first) fun _ _ _ stepped sound =>
    sound.step (sound.moved stepped)).1

theorem Run.single (run : Run serde chrono (start first) steps q)
    (alone : ∀ x ∈ steps, x.1.Alone x.2.1) : q.Single := by
  have both : q.Sound ∧ q.Single := by
    refine Trail.keeps (I := fun q : Watch => q.Sound ∧ q.Single)
      (C := fun (q : Watch) e _ => q.Alone e) ?_ ?_ run alone
    · exact ⟨sound_start first, fun t member => (by cases member), List.nodup_nil⟩
    · rintro q e q' stepped meets ⟨sound, single⟩
      have moved := sound.moved stepped
      exact ⟨sound.step moved, single.step sound moved meets⟩
  exact both.2

theorem Run.known (run : Run serde chrono (start first) steps q)
    (undisturbed : ∀ x ∈ steps, x.1.Undisturbed x.2.1) : q.Sound ∧ q.Known := by
  refine Trail.keeps (I := fun q : Watch => q.Sound ∧ q.Known)
    (C := fun (q : Watch) e _ => q.Undisturbed e) ?_ ?_ run undisturbed
  · refine ⟨sound_start first, ?_⟩
    rintro j key ⟨d, pages, next, data, keys, messages, there⟩
    cases there
  · rintro q e q' stepped meets ⟨sound, known⟩
    have moved := sound.moved stepped
    exact ⟨sound.step moved, known.step sound moved meets⟩

/-- The message is not deleted by an acknowledgement, and its lifetime does not run out. -/
def Lasts (m : Letter) (steps : List (Watch × CallEvent × Watch)) : Prop :=
  ∀ x ∈ steps, ¬ x.1.Acks x.2.1 m ∧ ¬ x.1.Expires x.2.1 x.2.2 m

/-- What every undisturbed event keeps while the message lasts, a run keeps. -/
theorem Run.keeps {I : Watch → Prop} {q₀ : Watch} (run : Run serde chrono q₀ steps q)
    (sound : q₀.Sound) (known : q₀.Known) (holds : I q₀)
    (undisturbed : ∀ x ∈ steps, x.1.Undisturbed x.2.1) (lasts : Lasts m steps)
    (each : ∀ q e q', q.Known → Moved serde chrono q e q' → q.Undisturbed e → ¬ q.Acks e m →
      ¬ q.Expires e q' m → I q → I q') : I q := by
  have all : q.Sound ∧ q.Known ∧ I q := by
    refine Trail.keeps (I := fun q : Watch => q.Sound ∧ q.Known ∧ I q)
      (C := fun (q : Watch) e q' => q.Undisturbed e ∧ ¬ q.Acks e m ∧ ¬ q.Expires e q' m)
      ⟨sound, known, holds⟩ ?_ run fun x member => ⟨undisturbed x member, lasts x member⟩
    rintro q e q' stepped ⟨meets, acks, expires⟩ ⟨sound, known, holds⟩
    have moved := sound.moved stepped
    exact ⟨sound.step moved, known.step sound moved meets,
      each q e q' known moved meets acks expires holds⟩
  exact all.2.2

theorem present_step (known : q.Known) (moved : Moved serde chrono q e q')
    (undisturbed : q.Undisturbed e) (named : m.key = msgKey d id) (acks : ¬ q.Acks e m)
    (expires : ¬ q.Expires e q' m) (present : q.Taken m ∨ q.Waiting m) :
    q'.Taken m ∨ q'.Waiting m := by
  rcases present with taken | waiting
  · exact Or.inl (taken.step moved undisturbed)
  · rcases waiting_or_taken known moved undisturbed named waiting acks expires with still_ | taken
    · exact Or.inr still_.1
    · exact Or.inl taken

theorem Sound.thread (sound : q.Sound) {place : Drain}
    (there : q.stages[j]? = some (.drain d place)) :
    ∃ pages, q.At j (.dequeueAll pages d) (.messages <$> place.rest d) := by
  have inside := (List.getElem?_eq_some_iff.mp there).1
  rw [sound.length] at inside
  have found := List.getElem?_eq_getElem inside
  obtain ⟨stage, is, stands⟩ := sound.stands j _ _ found
  obtain rfl := Option.some.inj (there.symm.trans is)
  obtain ⟨⟨pages, call⟩, rest⟩ := stands
  refine ⟨pages, found.trans ?_⟩
  rw [← call, ← rest]
  rfl

theorem Sound.drain (sound : q.Sound) {pages : Nat} {rest : Program Chance Redis Answer}
    (found : q.At j (.dequeueAll pages d) rest) :
    ∃ place, q.stages[j]? = some (.drain d place) ∧ rest = .messages <$> place.rest d := by
  obtain ⟨stage, is, stands⟩ := sound.stands j _ _ found
  cases stage with
  | drain d' place =>
      obtain ⟨⟨pages', call⟩, rest⟩ := stands
      obtain ⟨rfl, rfl⟩ := Operation.dequeueAll.inj call
      exact ⟨place, is, rest⟩
  | checking | storing | removing => cases stands.1
  | elsewhere => exact absurd rfl (stands.1 pages d)

theorem Sound.returned (sound : q.Sound) {pages : Nat} {messages : List QueuedMessage}
    (found : q.At j (.dequeueAll pages d) (.done (.messages (.ok messages)))) :
    messages = (q.takenBy j).map fun t => Drain.message d t.letter.key t.data := by
  obtain ⟨place, there, is⟩ := sound.drain found
  obtain ⟨result, done, same⟩ := map_eq_done is.symm
  obtain rfl := Answer.messages.inj same
  rcases Drain.of_rest_done done with ⟨messages', rfl, same⟩ | ⟨e, rfl⟩
  · rw [Except.ok.inj same]
    exact sound.hands j d _ there
  · cases done

/-- A drain that has come to its end with something taken has returned it. -/
theorem Sound.returns (sound : q.Sound) (finished : q.Finished d) (member : t ∈ q.taken)
    (named : t.letter.key = msgKey d id) : q.Returns t.drain t.letter := by
  obtain ⟨d', place, there, id', named'⟩ := sound.takers t member
  obtain ⟨rfl, -⟩ := msgKey_inj.mp (named.symm.trans named')
  obtain ⟨pages, found⟩ := sound.thread there
  obtain ⟨answer, done⟩ := finished _ _ _ found
  obtain ⟨result, done, -⟩ := map_eq_done done
  have mine := mem_takenBy.mpr ⟨member, rfl⟩
  rcases Drain.of_rest_done done with ⟨messages, rfl, -⟩ | ⟨e, rfl⟩
  · exact ⟨⟨t, mine, rfl⟩, pages, d, messages, found⟩
  · have hand := sound.hands _ _ _ there
    rw [List.map_eq_nil_iff.mp hand.symm] at mine
    cases mine

theorem Single.atMostOnce (single : q.Single) : q.AtMostOnce := by
  refine ⟨fun i j m first second => ?_, fun j => ?_⟩
  · obtain ⟨⟨t, mine, rfl⟩, -⟩ := first
    obtain ⟨⟨t', other, same⟩, -⟩ := second
    obtain ⟨member, rfl⟩ := mem_takenBy.mp mine
    obtain ⟨member', rfl⟩ := mem_takenBy.mp other
    rw [List.inj_on_of_nodup_map single.once member' member same]
  · exact (List.filter_sublist.map _).nodup single.once

/-- A drain that was called has taken, when it is at its end, whatever it had to come to. -/
theorem Due.taken {k : Nat} (due : q.Due k d m) (sound : q.Sound) (finished : q.Finished d) :
    q.Taken m := by
  rcases due with taken | ⟨-, place, entry, there, -, due⟩
  · exact taken
  · obtain ⟨pages, found⟩ := sound.thread there
    obtain ⟨answer, done⟩ := finished _ _ _ found
    obtain ⟨result, done, -⟩ := map_eq_done done
    rcases Drain.of_rest_done done with ⟨messages, rfl, -⟩ | ⟨e, rfl⟩
    · exact due.elim
    · exact due.elim

end

/-- Every message that was in the queue before some drain of its device began is returned by exactly
one of them, when they have all come to their end and it has lasted. -/
def ExactlyOnce (steps : List (Watch × CallEvent × Watch)) (q : Watch) : Prop :=
  ∀ (d : Uuid) (id : String) (author : Option Nat) (pages : Nat)
    (before later : List (Watch × CallEvent × Watch)) (q₁ q₂ : Watch),
    steps = before ++ (q₁, .call (.dequeueAll pages d), q₂) :: later →
    (q₁.Waiting ⟨msgKey d id, author⟩ ∨ ∃ x ∈ before, x.1.Waiting ⟨msgKey d id, author⟩) →
    Lasts ⟨msgKey d id, author⟩ steps → q.Finished d → ∃! j, q.Returns j ⟨msgKey d id, author⟩

/-- What a drain returns is what it has taken. If no drain finds a message that another has taken
and has still to delete, none is returned twice; if moreover no message is stored where one is or
where a drain has still to delete, and no drain fails, every one is returned. -/
theorem drained_once (serde : SerdeJson) (chrono : Chrono) {first : Redis}
    {steps : List (Watch × CallEvent × Watch)} {q : Watch}
    (run : Run serde chrono (start first) steps q) :
    (∀ j pages d messages, q.At j (.dequeueAll pages d) (.done (.messages (.ok messages))) →
      messages = (q.takenBy j).map fun t => Drain.message d t.letter.key t.data) ∧
    ((∀ x ∈ steps, x.1.Alone x.2.1) → q.AtMostOnce) ∧
    ((∀ x ∈ steps, x.1.Undisturbed x.2.1) → ExactlyOnce steps q) := by
  refine ⟨fun j pages d messages found => run.sound.returned found,
    fun alone => (run.single alone).atMostOnce, fun undisturbed => ?_⟩
  intro d id author pages before later q₁ q₂ whole waited lasts finished
  subst whole
  obtain ⟨m, front, back⟩ := run.append_inv
  obtain ⟨rfl, stepped, rest⟩ := back.cons_inv
  obtain ⟨early, now_, late⟩ := List.forall_mem_append.mp undisturbed |>.imp_right
    List.forall_mem_cons.mp
  obtain ⟨lastsEarly, lastsNow, lastsLate⟩ := List.forall_mem_append.mp lasts |>.imp_right
    List.forall_mem_cons.mp
  obtain ⟨sound, known⟩ := Run.known front early
  have present : q₁.Taken ⟨msgKey d id, author⟩ ∨ q₁.Waiting ⟨msgKey d id, author⟩ := by
    rcases waited with waiting | ⟨x, member, waiting⟩
    · exact Or.inr waiting
    · obtain ⟨front₁, back₁, rfl⟩ := List.append_of_mem member
      obtain ⟨m₁, run₁, run₂⟩ := front.append_inv
      obtain ⟨rfl, -⟩ := run₂.cons_inv
      obtain ⟨early₁, early₂⟩ := List.forall_mem_append.mp early
      obtain ⟨-, lasts₂⟩ := List.forall_mem_append.mp lastsEarly
      obtain ⟨sound₁, known₁⟩ := Run.known run₁ early₁
      exact Run.keeps run₂ sound₁ known₁ (Or.inr waiting) early₂ lasts₂
        fun q e q' known moved undisturbed => present_step known moved undisturbed rfl
  have moved := sound.moved stepped
  have due := due_of_call rfl present moved
  have due' : q.Due q₁.stages.length d ⟨msgKey d id, author⟩ :=
    Run.keeps rest (sound.step moved) (known.step sound moved now_) due late lastsLate
      fun q e q' known moved undisturbed acks expires =>
        Due.step known moved undisturbed rfl acks expires
  obtain ⟨t, member, letter⟩ := due'.taken run.sound finished
  have returned := run.sound.returns finished member (congrArg Letter.key letter)
  rw [letter] at returned
  refine ⟨t.drain, returned, fun j other => ?_⟩
  exact (run.single fun x member => (undisturbed x member).alone).atMostOnce.1 j _ _ other returned

section

variable {q : Watch} {d : Uuid} {place : Drain} {c : Chance}

/-- A drain is not disturbed that takes nothing, or that takes while none has a key to delete. -/
theorem undisturbed_of_quiet {j : Nat} (there : q.stages[j]? = some (.drain d place))
    (quiet : place.takes c q.calls.state = none ∨ ∀ i key, ¬ q.Deleting i key)
    (clean : c.fault = none) : q.Undisturbed (.run j c) := by
  constructor
  · intro d' place' key data there' takes i deleting
    obtain ⟨rfl, rfl⟩ := Stage.drain.inj (Option.some.inj (there.symm.trans there'))
    rcases quiet with none_taken | none_deleting
    · rw [none_taken] at takes
      cases takes
    · exact absurd deleting (none_deleting i key)
  · intro j' c' stage key same there' stores
    obtain ⟨rfl, rfl⟩ := Pool.Event.run.inj same
    obtain rfl := Option.some.inj (there.symm.trans there')
    cases stores
  · intro j' c' d' place' same there'
    obtain ⟨rfl, rfl⟩ := Pool.Event.run.inj same
    exact clean

theorem not_deleting_of_two {first second : Stage} (two : q.stages = [first, second])
    (neither : ∀ d pages next key data keys messages,
      first ≠ .drain d (.deleting pages next key data keys messages) ∧
        second ≠ .drain d (.deleting pages next key data keys messages)) (i : Nat) (key : String) :
    ¬ q.Deleting i key := by
  rintro ⟨d, pages, next, data, keys, messages, deleting⟩
  obtain ⟨one, other⟩ := neither d pages next key data keys messages
  rw [two] at deleting
  rcases i with _ | _ | i
  · exact one (Option.some.inj deleting)
  · exact other (Option.some.inj deleting)
  · cases deleting

theorem undisturbed_call (op : Operation) : q.Undisturbed (.call op) where
  alone := trivial
  stores j c stage key same := by cases same
  clean j c d place same := by cases same

end

/-- One message for a device is in Redis. -/
def oneMessage : Redis :=
  (Store.empty 0).set (msgKey (.replicate 16 1) "1") (strBytes "1") none

def oneLetter : Letter := ⟨msgKey (.replicate 16 1) "1", none⟩

def phoneDrain : Operation := .dequeueAll 1 (.replicate 16 1)

/-- A run in which nothing happens to the message but by drains that are not disturbed. -/
def CalmRun (steps : List (Watch × CallEvent × Watch)) (q : Watch) : Prop :=
  Run .sample .sample (start oneMessage) steps q ∧ (∀ x ∈ steps, x.1.Undisturbed x.2.1) ∧
    Lasts oneLetter steps

theorem CalmRun.next {steps : List (Watch × CallEvent × Watch)} {q q' : Watch} {d : Uuid}
    {place : Drain} {c : Chance} (calm : CalmRun steps q) (j : Nat)
    (there : q.stages[j]? = some (.drain d place))
    (quiet : place.takes c q.calls.state = none ∨ ∀ i key, ¬ q.Deleting i key)
    (clean : c.fault = none) (stepped : Watched .sample .sample q (.run j c) q') :
    CalmRun (steps ++ [(q, .run j c, q')]) q' := by
  obtain ⟨run, undisturbed, lasts⟩ := calm
  refine ⟨run.next stepped, ?_, ?_⟩
  · simp only [List.forall_mem_append, List.forall_mem_singleton]
    exact ⟨undisturbed, undisturbed_of_quiet there quiet clean⟩
  · simp only [Lasts, List.forall_mem_append, List.forall_mem_singleton]
    refine ⟨lasts, ?_, ?_⟩
    · rintro ⟨-, j', c', d', id, same, there', -⟩
      obtain ⟨rfl, -⟩ := Pool.Event.run.inj same
      cases there.symm.trans there'
    · rintro ⟨-, seconds, same, -⟩
      cases same

theorem CalmRun.call {steps : List (Watch × CallEvent × Watch)} {q q' : Watch}
    (calm : CalmRun steps q) (stepped : Watched .sample .sample q (.call phoneDrain) q') :
    CalmRun (steps ++ [(q, .call phoneDrain, q')]) q' := by
  obtain ⟨run, undisturbed, lasts⟩ := calm
  refine ⟨run.next stepped, ?_, ?_⟩
  · simp only [List.forall_mem_append, List.forall_mem_singleton]
    exact ⟨undisturbed, undisturbed_call phoneDrain⟩
  · simp only [Lasts, List.forall_mem_append, List.forall_mem_singleton]
    refine ⟨lasts, ?_, ?_⟩
    · rintro ⟨-, j, c', d', id, same, -⟩
      cases same
    · rintro ⟨-, seconds, same, -⟩
      cases same

/-- Two drains find the key, and the first has read and deleted it before the second reads. -/
theorem drained_once_two : ∃ steps q, CalmRun steps q ∧ q.stages.length = 2 ∧ q.AtMostOnce ∧
    ∃! j, q.Returns j oneLetter := by
  have begun : CalmRun [] (start oneMessage) :=
    ⟨.start, List.forall_mem_nil _, List.forall_mem_nil _⟩
  have called := (begun.call ⟨_, rfl, rfl⟩).call ⟨_, rfl, rfl⟩
  have scanned := (called.next (c := {}) 0 rfl (Or.inl rfl) rfl ⟨_, rfl, rfl⟩).next (c := {}) 1 rfl
    (Or.inl rfl) rfl ⟨_, rfl, rfl⟩
  have read := scanned.next (c := {}) 0 rfl
    (Or.inr (not_deleting_of_two rfl fun _ _ _ _ _ _ _ =>
      ⟨fun same => (by cases same), fun same => (by cases same)⟩)) rfl ⟨_, rfl, rfl⟩
  have deleted := read.next (c := {}) 0 rfl (Or.inl rfl) rfl ⟨_, rfl, rfl⟩
  have ended := deleted.next (c := {}) 1 rfl
    (Or.inr (not_deleting_of_two rfl fun _ _ _ _ _ _ _ =>
      ⟨fun same => (by cases same), fun same => (by cases same)⟩)) rfl ⟨_, rfl, rfl⟩
  obtain ⟨-, atMostOnce, exactlyOnce⟩ := drained_once .sample .sample ended.1
  refine ⟨_, _, ended, rfl, atMostOnce fun x member => (ended.2.1 x member).alone, ?_⟩
  refine exactlyOnce ended.2.1 _ "1" none 1 [] _ (start oneMessage) _ rfl
    (Or.inl ⟨?_, rfl⟩) ended.2.2 ?_
  · decide +kernel
  · rintro (_ | _ | j) pages rest found
    · exact ⟨_, (Thread.mk.inj (Option.some.inj found)).2.symm⟩
    · exact ⟨_, (Thread.mk.inj (Option.some.inj found)).2.symm⟩
    · cases found

/-- Both drains read before either deletes. -/
theorem drained_twice :
    ∃ steps q, Run .sample .sample (start oneMessage) steps q ∧ ¬ q.AtMostOnce := by
  have begun : Run .sample .sample (start oneMessage) [] (start oneMessage) := .start
  have called := (begun.next (e := .call phoneDrain) ⟨_, rfl, rfl⟩).next (e := .call phoneDrain)
    ⟨_, rfl, rfl⟩
  have read :=
    (((called.next (e := .run 0 {}) ⟨_, rfl, rfl⟩).next (e := .run 1 {}) ⟨_, rfl, rfl⟩).next
    (e := .run 0 {}) ⟨_, rfl, rfl⟩).next (e := .run 1 {}) ⟨_, rfl, rfl⟩
  have ended := (read.next (e := .run 0 {}) ⟨_, rfl, rfl⟩).next (e := .run 1 {}) ⟨_, rfl, rfl⟩
  refine ⟨_, _, ended, fun once => ?_⟩
  have same := once.1 0 1 oneLetter
    ⟨⟨⟨0, oneLetter, strBytes "1"⟩, List.mem_singleton.mpr rfl, rfl⟩, _, _, _, rfl⟩
    ⟨⟨⟨1, oneLetter, strBytes "1"⟩, List.mem_singleton.mpr rfl, rfl⟩, _, _, _, rfl⟩
  cases same

end Watch

end Hysj.Api
