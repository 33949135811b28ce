import Hysj.Messaging.Redis

set_option autoImplicit false

/- The message queue in Redis. -/
namespace Hysj.Messaging

open Crypto Shared Program

/-- A message waiting in the Redis queue for a device to pick up. -/
structure QueuedMessage where
  messageId : String
  encryptedBlob : Bytes
  deriving DecidableEq

/-- `key.strip_prefix(pre).unwrap_or(key)` -/
def stripPrefix (pre key : String) : String :=
  if hasPrefix pre key then String.ofList (key.toList.drop pre.toList.length) else key

/-- The SCAN loop: `page` handles the keys of one answer. The number bounds the answers. -/
def scanLoop {β : Type} (pre : String) (page : List String → β → Command β) :
    Nat → Cursor → β → Command β
  | 0, _, _ => ExceptT.mk .never
  | pages + 1, cursor, acc => do
      let (next, keys) ← scan cursor pre
      let acc ← page keys acc
      if next = .zero then return acc
      scanLoop pre page pages next acc

/-- Enqueue an encrypted message for a recipient device, unless it is already queued. -/
def enqueue (recipientDeviceId : Uuid) (messageId : String) (encryptedBlob : Bytes)
    (ttlSeconds : UInt64) : Command Unit := do
  let key := msgKey recipientDeviceId messageId
  if ← exists_ key then return ()
  setEx key encryptedBlob ttlSeconds

/-- The keys of one answer: GET each value, then DEL the key. -/
def dequeuePage (deviceId : Uuid) : List String → List QueuedMessage →
    Command (List QueuedMessage)
  | [], messages => return messages
  | key :: keys, messages => do
      match ← get key with
      | some data => do
          let _ ← del key
          let messageId := stripPrefix (keyPrefix "msg" deviceId) key
          dequeuePage deviceId keys (messages ++ [⟨messageId, data⟩])
      | none => dequeuePage deviceId keys messages

/-- Dequeue all pending messages for a device. -/
def dequeueAll (pages : Nat) (deviceId : Uuid) : Command (List QueuedMessage) :=
  scanLoop (keyPrefix "msg" deviceId) (dequeuePage deviceId) pages .zero []

/-- Delete a single queued message; true if it was there. -/
def deleteMessage (deviceId : Uuid) (messageId : String) : Command Bool := do
  let deleted ← del (msgKey deviceId messageId)
  return 0 < deleted

@[simp] theorem stripPrefix_msgKey (d : Uuid) (id : String) :
    stripPrefix (keyPrefix "msg" d) (msgKey d id) = id := by
  rw [stripPrefix, if_pos (hasPrefix_msg.mpr ⟨id, rfl⟩)]
  simp [msgKey]

/-- What `enqueue` comes to when nothing disturbs it. -/
def enqueued (r : Redis) (d : Uuid) (id : String) (blob : Bytes) (ttl : UInt64) :
    Except MessagingError Unit × Redis :=
  if (r.get? (msgKey d id)).isSome then (.ok (), r)
  else if ttl = 0 then
    (.error (.redisError (signalled "invalid expire time in 'set' command")), r)
  else (.ok (), r.set (msgKey d id) blob (some ttl.toNat))

@[simp] theorem runs_enqueue {r r' : Redis} {d : Uuid} {id : String} {blob : Bytes} {ttl : UInt64}
    {result : Except MessagingError Unit} :
    Runs Clean (enqueue d id blob ttl).run r result r' ↔
      enqueued r d id blob ttl = (result, r') := by
  have steps : Runs Clean (enqueue d id blob ttl).run r result r' ↔
      ∃ queued, queued = (r.get? (msgKey d id)).isSome ∧
        Runs Clean (if queued then return () else setEx (msgKey d id) blob ttl : Command Unit).run
          r result r' := by
    rw [enqueue, runs_run_bind]
    constructor
    · rintro (⟨queued, m, first, rest⟩ | ⟨e, -, failed⟩)
      · obtain ⟨same, rfl⟩ := runs_exists.mp first
        exact ⟨queued, (Except.ok.inj same).symm, rest⟩
      · cases (runs_exists.mp failed).1
    · rintro ⟨queued, rfl, rest⟩
      exact Or.inl ⟨_, r, runs_exists.mpr ⟨rfl, rfl⟩, rest⟩
  rw [steps, exists_eq_left, enqueued]
  split
  · rw [runs_run_pure, Prod.mk.injEq]
  · by_cases zero : ttl = 0
    · rw [if_pos zero, setEx, runs_command_const, if_pos zero, Prod.mk.injEq]
      rfl
    · rw [if_neg zero, runs_setEx zero, Prod.mk.injEq]

section

variable {β : Type} {pre : String} {page : List String → β → Command β}

/-- What a loop may rely on and what it keeps: `Covered` says that a key has been seen to, and
`inv` what holds between two answers. -/
structure PageSpec (pre : String) (page : List String → β → Command β)
    (inv : β → Redis → Prop) (Covered : String → β → Redis → Prop) : Prop where
  keeps : ∀ {keys acc r acc' r'}, (∀ key ∈ keys, hasPrefix pre key) → inv acc r →
    Runs Clean (page keys acc).run r (.ok acc') r' → inv acc' r'
  covers : ∀ {keys acc r acc' r' key}, (∀ key ∈ keys, hasPrefix pre key) → inv acc r →
    Runs Clean (page keys acc).run r (.ok acc') r' → key ∈ keys → Covered key acc' r'
  stays : ∀ {keys acc r acc' r' key}, (∀ key ∈ keys, hasPrefix pre key) → inv acc r →
    Runs Clean (page keys acc).run r (.ok acc') r' → Covered key acc r → Covered key acc' r'
  still : ∀ {keys acc r acc' r' key}, (∀ key ∈ keys, hasPrefix pre key) → inv acc r →
    Runs Clean (page keys acc).run r (.ok acc') r' → Messaging.still r key = true →
      Messaging.still r' key = true ∨ Covered key.1 acc' r'

theorem mem_named {r : Redis} {key : String × Nat} :
    key ∈ named r pre ↔ hasPrefix pre key.1 = true ∧ still r key = true := by
  simp only [named, List.mem_map, List.mem_filter, Store.mem_keys, still]
  constructor
  · rintro ⟨name, ⟨present, prefixed⟩, rfl⟩
    obtain ⟨entry, found⟩ := Option.isSome_iff_exists.mp present
    exact ⟨prefixed, by simp [found]⟩
  · rintro ⟨prefixed, there⟩
    obtain ⟨entry, found, serial⟩ := Option.map_eq_some_iff.mp (of_decide_eq_true there)
    exact ⟨key.1, ⟨by simp [found], prefixed⟩, by simp [found, serial]⟩

theorem mem_owed {r : Redis} {cursor : Cursor} {key : String × Nat} :
    key ∈ owed r pre cursor ↔ hasPrefix pre key.1 = true ∧ still r key = true ∧
      ∀ rest, cursor = .owes rest → key ∈ rest := by
  cases cursor with
  | zero => simp [owed, mem_named]
  | owes rest =>
      simp only [owed, List.mem_filter, Bool.and_eq_true, Cursor.owes.injEq, forall_eq']
      rw [and_comm, and_assoc]

/-- One answer of SCAN changes nothing; what was owed is in it, or is left to its cursor. -/
theorem runs_scan {cursor next : Cursor} {keys : List String} {r r' : Redis}
    (run : Runs Clean (scan cursor pre).run r (.ok (next, keys)) r') :
    r' = r ∧ (∀ key ∈ keys, hasPrefix pre key = true) ∧
      ∀ key ∈ owed r pre cursor, key.1 ∈ keys ∨ ∃ rest, next = .owes rest ∧ key ∈ rest := by
  obtain ⟨c, -, answer, left⟩ := runs_command.mp run
  dsimp only at answer left
  split at answer
  · rename_i last
    rw [if_pos last] at left
    obtain ⟨rfl, rfl⟩ := Prod.mk.inj (Except.ok.inj answer)
    refine ⟨left.symm, ?_, ?_⟩
    · intro key member
      rcases List.mem_append.mp member with listed | left_
      · exact (List.mem_filter.mp listed).2
      · obtain ⟨key, rest, rfl⟩ := List.mem_map.mp left_
        exact (mem_owed.mp (List.mem_filter.mp rest).1).1
    · intro key wanted
      left
      by_cases listed : key.1 ∈ c.keys.filter fun key => hasPrefix pre key
      · exact List.mem_append_left _ listed
      · refine List.mem_append_right _ (List.mem_map.mpr ⟨key, ?_, rfl⟩)
        exact List.mem_filter.mpr ⟨wanted, decide_eq_true listed⟩
  · rename_i more
    rw [if_neg more] at left
    obtain ⟨rfl, rfl⟩ := Prod.mk.inj (Except.ok.inj answer)
    refine ⟨left.symm, fun key member => (List.mem_filter.mp member).2, ?_⟩
    intro key wanted
    by_cases listed : key.1 ∈ c.keys.filter fun key => hasPrefix pre key
    · exact Or.inl listed
    · exact Or.inr ⟨_, rfl, List.mem_filter.mpr ⟨wanted, decide_eq_true listed⟩⟩

theorem succeeds_scan (cursor : Cursor) (pre : String) : Succeeds Clean (scan cursor pre) := by
  apply succeeds_command
  intro c r
  dsimp only
  split
  · exact ⟨_, rfl⟩
  · exact ⟨_, rfl⟩

theorem succeeds_scanLoop (each : ∀ keys acc, Succeeds Clean (page keys acc)) (pages : Nat)
    (cursor : Cursor) (acc : β) : Succeeds Clean (scanLoop pre page pages cursor acc) := by
  induction pages generalizing cursor acc with
  | zero =>
      intro _ _ _ run
      cases run
  | succ pages ih =>
      refine (succeeds_scan cursor pre).bind fun answer => (each answer.2 acc).bind fun acc' => ?_
      split
      · exact succeeds_pure _
      · exact ih answer.1 acc'

theorem sure_scanLoop (each : ∀ keys acc, Sure Clean (page keys acc)) (pages : Nat)
    (cursor : Cursor) (acc : β) : Sure Clean (scanLoop pre page pages cursor acc) := by
  induction pages generalizing cursor acc with
  | zero =>
      intro _ _ _ run
      cases run
  | succ pages ih =>
      refine (sure_command _).bind fun answer => (each answer.2 acc).bind fun acc' => ?_
      split
      · exact sure_pure _
      · exact ih answer.1 acc'

/-- SCAN can answer with any keys of the pattern, if they are all that is owed. -/
theorem runs_scan_last {r : Redis} {cursor : Cursor} {keys : List String}
    (prefixed : ∀ key ∈ keys, hasPrefix pre key = true)
    (complete : ∀ key ∈ owed r pre cursor, key.1 ∈ keys) :
    Runs Clean (scan cursor pre).run r (.ok (.zero, keys)) r := by
  have page : (keys.filter fun key => hasPrefix pre key) = keys := List.filter_eq_self.mpr prefixed
  have rest : ((owed r pre cursor).filter fun key => key.1 ∉ keys) = [] := by
    rw [List.filter_eq_nil_iff]
    intro key listed absent
    exact of_decide_eq_true absent (complete key listed)
  refine runs_command.mpr ⟨{ keys := keys }, rfl, ?_, rfl⟩
  simp only [page, rest, if_true, List.map_nil, List.append_nil]
  rfl

theorem total_scanLoop (each : ∀ keys acc, Total Clean (page keys acc).run) (cursor : Cursor)
    (acc : β) : Total Clean (scanLoop pre page 1 cursor acc).run := by
  intro r
  have answer : Runs Clean (scan cursor pre).run r
      (.ok (.zero, (owed r pre cursor).map Prod.fst)) r := by
    apply runs_scan_last
    · intro key member
      obtain ⟨key, listed, rfl⟩ := List.mem_map.mp member
      exact (mem_owed.mp listed).1
    · exact fun key listed => List.mem_map_of_mem listed
  obtain ⟨outcome, r', handled⟩ := each ((owed r pre cursor).map Prod.fst) acc r
  cases outcome with
  | error e =>
      exact ⟨.error e, r', runs_run_bind.mpr (Or.inl ⟨_, r, answer,
        runs_run_bind.mpr (Or.inr ⟨e, rfl, handled⟩)⟩)⟩
  | ok acc' =>
      refine ⟨.ok acc', r', runs_run_bind.mpr (Or.inl ⟨_, r, answer,
        runs_run_bind.mpr (Or.inl ⟨acc', r', handled, ?_⟩)⟩)⟩
      rw [if_pos rfl]
      exact runs_run_pure.mpr ⟨rfl, rfl⟩

theorem scanLoop_spec {inv : β → Redis → Prop} {Covered : String → β → Redis → Prop}
    (spec : PageSpec pre page inv Covered) {wanted : List (String × Nat)} {pages : Nat}
    {cursor : Cursor} {acc acc' : β} {r r' : Redis}
    (run : Runs Clean (scanLoop pre page pages cursor acc).run r (.ok acc') r')
    (holds : inv acc r)
    (due : ∀ key ∈ wanted, Covered key.1 acc r ∨ key ∈ owed r pre cursor) :
    inv acc' r' ∧ ∀ key ∈ wanted, Covered key.1 acc' r' := by
  induction pages generalizing cursor acc r with
  | zero => cases run
  | succ pages ih =>
      simp only [scanLoop, runs_run_bind_ok] at run
      obtain ⟨⟨next, keys⟩, _, answer, acc₁, r₁, handled, rest⟩ := run
      obtain ⟨rfl, prefixed, complete⟩ := runs_scan answer
      have kept := spec.keeps prefixed holds handled
      have due' : ∀ key ∈ wanted, Covered key.1 acc₁ r₁ ∨
          next ≠ .zero ∧ key ∈ owed r₁ pre next := by
        intro key member
        rcases due key member with covered | owes
        · exact Or.inl (spec.stays prefixed holds handled covered)
        · rcases complete key owes with listed | ⟨left, rfl, later⟩
          · exact Or.inl (spec.covers prefixed holds handled listed)
          · obtain ⟨named, there, -⟩ := mem_owed.mp owes
            rcases spec.still prefixed holds handled there with there | covered
            · refine Or.inr ⟨Cursor.noConfusion, mem_owed.mpr ⟨named, there, ?_⟩⟩
              intro rest same
              rw [← Cursor.owes.inj same]
              exact later
            · exact Or.inl covered
      dsimp only at rest
      split at rest
      · rename_i done
        obtain ⟨same, rfl⟩ := runs_run_pure.mp rest
        obtain rfl := Except.ok.inj same
        refine ⟨kept, fun key member => ?_⟩
        rcases due' key member with covered | ⟨more, -⟩
        · exact covered
        · exact absurd done more
      · exact ih rest kept fun key member => (due' key member).imp_right And.right

end

section

variable {d : Uuid} {r₀ r r' : Redis} {messages messages' : List QueuedMessage}

/-- What a drain has done so far: the messages it took are gone from the store and taken once
each, and it touched no other key. -/
structure Drained (d : Uuid) (r₀ : Redis) (messages : List QueuedMessage) (r : Redis) : Prop where
  taken : ∀ q ∈ messages, r₀.get? (msgKey d q.messageId) = some q.encryptedBlob ∧
    r.get? (msgKey d q.messageId) = none
  nodup : (messages.map QueuedMessage.messageId).Nodup
  others : ∀ key, (∀ q ∈ messages, msgKey d q.messageId ≠ key) → r.peek key = r₀.peek key

theorem drained_nil (d : Uuid) (r : Redis) : Drained d r [] r where
  taken q member := by cases member
  nodup := List.nodup_nil
  others _ _ := rfl

theorem Drained.take (drained : Drained d r₀ messages r) {id : String} {blob : Bytes}
    (found : r.get? (msgKey d id) = some blob) :
    Drained d r₀ (messages ++ [⟨id, blob⟩]) (r.del (msgKey d id)) := by
  have fresh : ∀ q ∈ messages, q.messageId ≠ id := by
    rintro q member rfl
    rw [(drained.taken q member).2] at found
    cases found
  have before : r₀.get? (msgKey d id) = some blob := by
    rw [Store.get?, ← drained.others, ← found, Store.get?]
    intro q member same
    exact fresh q member (msgKey_inj.mp same).2
  constructor
  · intro q member
    rcases List.mem_append.mp member with old | new
    · have different : msgKey d q.messageId ≠ msgKey d id := by
        intro same
        exact fresh q old (msgKey_inj.mp same).2
      rw [Store.get?_del_of_ne different]
      exact drained.taken q old
    · obtain rfl := List.mem_singleton.mp new
      exact ⟨before, Store.get?_del⟩
  · rw [List.map_append, List.nodup_append]
    refine ⟨drained.nodup, List.nodup_singleton _, ?_⟩
    rintro _ old _ new rfl
    obtain ⟨q, member, same⟩ := List.mem_map.mp old
    obtain rfl := List.mem_singleton.mp new
    exact fresh q member same
  · intro key untouched
    have different : key ≠ msgKey d id := fun same =>
      untouched ⟨id, blob⟩ (by simp) same.symm
    rw [Store.peek_del_of_ne different]
    exact drained.others key fun q member => untouched q (List.mem_append_left _ member)

/-- One answer: its keys are gone afterwards, and no other key comes. -/
theorem runs_dequeuePage {keys : List String}
    (prefixed : ∀ key ∈ keys, hasPrefix (keyPrefix "msg" d) key = true)
    (drained : Drained d r₀ messages r)
    (run : Runs Clean (dequeuePage d keys messages).run r (.ok messages') r') :
    Drained d r₀ messages' r' ∧ (∀ key ∈ keys, r'.get? key = none) ∧
      ∀ key, r'.peek key = r.peek key ∨ r'.peek key = none := by
  induction keys generalizing messages r with
  | nil =>
      obtain ⟨same, rfl⟩ := runs_run_pure.mp run
      obtain rfl := Except.ok.inj same
      exact ⟨drained, fun key member => (by cases member), fun key => Or.inl rfl⟩
  | cons key keys ih =>
      obtain ⟨id, rfl⟩ := hasPrefix_msg.mp (prefixed key List.mem_cons_self)
      have later : ∀ key ∈ keys, hasPrefix (keyPrefix "msg" d) key = true :=
        fun key member => prefixed key (List.mem_cons_of_mem _ member)
      simp only [dequeuePage, runs_run_bind_ok, runs_get, Except.ok.injEq] at run
      obtain ⟨value, _, ⟨rfl, rfl⟩, rest⟩ := run
      cases found : r.get? (msgKey d id) with
      | none =>
          rw [found] at rest
          obtain ⟨drained', gone, kept⟩ := ih later drained rest
          refine ⟨drained', fun key member => ?_, kept⟩
          rcases List.mem_cons.mp member with rfl | member
          · rcases kept (msgKey d id) with same | gone
            · rw [Store.get?, same, ← Store.get?, found]
            · exact Store.get?_eq_none.mpr gone
          · exact gone key member
      | some blob =>
          rw [found] at rest
          simp only [runs_run_bind_ok, runs_del, stripPrefix_msgKey] at rest
          obtain ⟨_, _, ⟨-, rfl⟩, rest⟩ := rest
          obtain ⟨drained', gone, kept⟩ := ih later (drained.take found) rest
          refine ⟨drained', fun key member => ?_, fun key => ?_⟩
          · rcases List.mem_cons.mp member with rfl | member
            · rcases kept (msgKey d id) with same | gone
              · rw [Store.get?, same, Store.peek_del]
                rfl
              · exact Store.get?_eq_none.mpr gone
            · exact gone key member
          · rcases kept key with same | gone
            · by_cases this : key = msgKey d id
              · subst this
                rw [Store.peek_del] at same
                exact Or.inr same
              · rw [Store.peek_del_of_ne this] at same
                exact Or.inl same
            · exact Or.inr gone

/-- A drain takes every message of the device and leaves everything else. -/
theorem runs_dequeueAll {pages : Nat}
    (run : Runs Clean (dequeueAll pages d).run r (.ok messages) r') :
    Drained d r messages r' ∧ ∀ id, r'.get? (msgKey d id) = none := by
  have spec : PageSpec (keyPrefix "msg" d) (dequeuePage d) (Drained d r)
      (fun key _ r => r.get? key = none) := by
    constructor
    · intro keys acc r₁ acc' r₂ prefixed drained run
      exact (runs_dequeuePage prefixed drained run).1
    · intro keys acc r₁ acc' r₂ key prefixed drained run listed
      exact (runs_dequeuePage prefixed drained run).2.1 key listed
    · intro keys acc r₁ acc' r₂ key prefixed drained run gone
      rcases (runs_dequeuePage prefixed drained run).2.2 key with same | gone
      · rw [Store.get?, same, ← Store.get?, gone]
      · exact Store.get?_eq_none.mpr gone
    · intro keys acc r₁ acc' r₂ key prefixed drained run there
      rcases (runs_dequeuePage prefixed drained run).2.2 key.1 with same | gone
      · rw [still, same]
        exact Or.inl there
      · exact Or.inr (Store.get?_eq_none.mpr gone)
  obtain ⟨drained, gone⟩ := scanLoop_spec spec run (drained_nil d r)
    fun key (member : key ∈ named r (keyPrefix "msg" d)) => Or.inr member
  refine ⟨drained, fun id => ?_⟩
  by_contra there
  obtain ⟨blob, found⟩ := Option.ne_none_iff_exists'.mp there
  obtain ⟨entry, found, -⟩ := Store.get?_eq_some.mp found
  -- an entry that is still there is untouched, so it was there from the start
  have untouched : r'.peek (msgKey d id) = r.peek (msgKey d id) := by
    apply drained.others
    intro q member same
    rw [← same] at there
    exact there (drained.taken q member).2
  have wanted : (msgKey d id, entry.serial) ∈ named r (keyPrefix "msg" d) := by
    refine mem_named.mpr ⟨hasPrefix_msg.mpr ⟨id, rfl⟩, ?_⟩
    simp [still, ← untouched, found]
  exact there (gone _ wanted)

theorem succeeds_dequeuePage (keys : List String) (messages : List QueuedMessage) :
    Succeeds Clean (dequeuePage d keys messages) := by
  induction keys generalizing messages with
  | nil => exact succeeds_pure messages
  | cons key keys ih =>
      refine Succeeds.bind (succeeds_command fun _ _ => ⟨_, rfl⟩) fun value => ?_
      cases value with
      | none => exact ih messages
      | some data => exact Succeeds.bind (succeeds_command fun _ _ => ⟨_, rfl⟩) fun _ => ih _

theorem succeeds_dequeueAll (pages : Nat) : Succeeds Clean (dequeueAll pages d) :=
  succeeds_scanLoop succeeds_dequeuePage pages .zero []

theorem total_dequeuePage (keys : List String) (messages : List QueuedMessage) :
    Total Clean (dequeuePage d keys messages).run := by
  induction keys generalizing messages with
  | nil => exact total_pure _
  | cons key keys ih =>
      refine Total.run_bind (total_command _) fun value => ?_
      cases value with
      | none => exact ih messages
      | some data => exact Total.run_bind (total_command _) fun _ => ih _

theorem mem_of_runs_dequeueAll {pages : Nat}
    (run : Runs Clean (dequeueAll pages d).run r (.ok messages) r') {id : String} {blob : Bytes} :
    ⟨id, blob⟩ ∈ messages ↔ r.get? (msgKey d id) = some blob := by
  obtain ⟨drained, gone⟩ := runs_dequeueAll run
  constructor
  · intro member
    exact (drained.taken _ member).1
  · intro found
    by_contra absent
    have untouched : r'.peek (msgKey d id) = r.peek (msgKey d id) := by
      apply drained.others
      rintro ⟨id', blob'⟩ member same
      obtain ⟨-, rfl⟩ := msgKey_inj.mp same
      have before := (drained.taken _ member).1
      rw [found] at before
      exact absent (Option.some.inj before ▸ member)
    have none_ := gone id
    rw [Store.get?, untouched, ← Store.get?, found] at none_
    cases none_

end

end Hysj.Messaging
