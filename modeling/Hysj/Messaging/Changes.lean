import Hysj.Messaging.Wipe

set_option autoImplicit false

/- What the steps of the messaging functions change in Redis. -/
namespace Hysj.Messaging

open Crypto Shared Program

inductive Change where
  | set (key : String) (value : Bytes) (ttl : Nat)
  | del (key : String)
  | expire (key : String) (ttl : Nat)

def Change.apply : Change → Redis → Redis
  | .set key value ttl, r => r.set key value (some ttl)
  | .del key, r => r.del key
  | .expire key ttl, r => r.expire key ttl

variable {α β : Type} {may : Change → Prop}

/-- A function whose steps make no other changes. -/
abbrev Changes (may : Change → Prop) (t : Command α) : Prop :=
  Keeps (Does Change.apply may) t.run

theorem changes_read {f : Chance → Redis → Except String α × Redis}
    (reads : ∀ c r, (f c r).2 = r) : Changes may (command f) :=
  keeps_command (fun _ => Or.inl rfl) fun c r => Or.inl (reads c r)

theorem changes_exists (key : String) : Changes may (exists_ key) := changes_read fun _ _ => rfl

theorem changes_get (key : String) : Changes may (get key) := changes_read fun _ _ => rfl

theorem changes_ttl (key : String) : Changes may (ttl key) := by
  apply changes_read
  intro c r
  split
  · rfl
  · split <;> rfl

/-- Whatever SCAN answers, it changes nothing and returns keys of its pattern. -/
theorem changes_scan {pre : String} {cursor : Cursor} {next : Cursor × List String → Command β}
    (each : ∀ answer, (∀ key ∈ answer.2, hasPrefix pre key = true) → Changes may (next answer)) :
    Changes may (scan cursor pre >>= next) := by
  rw [Changes, ExceptT.run_bind]
  intro c r
  cases fault : c.fault with
  | some e =>
      simp only [fault]
      exact ⟨Or.inl rfl, trivial⟩
  | none =>
      have rest (key : String)
          (member : key ∈ ((owed r pre cursor).filter fun key =>
            key.1 ∉ c.keys.filter fun key => hasPrefix pre key).map Prod.fst) :
          hasPrefix pre key = true := by
        obtain ⟨key, listed, rfl⟩ := List.mem_map.mp member
        exact (mem_owed.mp (List.mem_filter.mp listed).1).1
      simp only [fault]
      split
      · refine ⟨Or.inl rfl, each _ fun key member => ?_⟩
        rcases List.mem_append.mp member with listed | left
        · exact (List.mem_filter.mp listed).2
        · exact rest key left
      · exact ⟨Or.inl rfl, each _ fun key member => (List.mem_filter.mp member).2⟩

theorem changes_del {key : String} (allowed : may (.del key)) : Changes may (del key) :=
  keeps_command (fun _ => Or.inl rfl) fun _ _ => Or.inr ⟨_, allowed, rfl⟩

theorem changes_expire {key : String} {ttl : UInt64} (allowed : may (.expire key ttl.toNat)) :
    Changes may (expire key ttl) :=
  keeps_command (fun _ => Or.inl rfl) fun _ _ => Or.inr ⟨_, allowed, rfl⟩

theorem changes_setEx {key : String} {value : Bytes} {ttl : UInt64}
    (allowed : ttl ≠ 0 → may (.set key value ttl.toNat)) : Changes may (setEx key value ttl) := by
  apply keeps_command (fun _ => Or.inl rfl)
  intro c r
  split
  · exact Or.inl rfl
  · rename_i lasts
    exact Or.inr ⟨_, allowed lasts, rfl⟩

theorem changes_scanLoop {pre : String} {page : List String → β → Command β}
    (each : ∀ keys acc, (∀ key ∈ keys, hasPrefix pre key = true) → Changes may (page keys acc))
    (pages : Nat) (cursor : Cursor) (acc : β) :
    Changes may (scanLoop pre page pages cursor acc) := by
  induction pages generalizing cursor acc with
  | zero => trivial
  | succ pages ih =>
      apply changes_scan
      rintro ⟨next, keys⟩ prefixed
      refine Keeps.run_bind (each keys acc prefixed) fun acc' => ?_
      split
      · exact keeps_pure _
      · exact ih next acc'

theorem changes_enqueue {d : Uuid} {id : String} {blob : Bytes} {ttl : UInt64}
    (allowed : ttl ≠ 0 → may (.set (msgKey d id) blob ttl.toNat)) :
    Changes may (enqueue d id blob ttl) := by
  refine Keeps.run_bind (changes_exists _) fun queued => ?_
  split
  · exact keeps_pure _
  · exact changes_setEx allowed

theorem changes_deleteMessage {d : Uuid} {id : String} (allowed : may (.del (msgKey d id))) :
    Changes may (deleteMessage d id) :=
  Keeps.run_bind (changes_del allowed) fun _ => keeps_pure _

theorem changes_confirmWipe {d : Uuid} {id : String} (allowed : may (.del (wipeKey d id))) :
    Changes may (confirmWipe d id) :=
  Keeps.run_bind (changes_del allowed) fun _ => keeps_pure _

theorem changes_dequeuePage {d : Uuid} (allowed : ∀ id, may (.del (msgKey d id)))
    {keys : List String} (prefixed : ∀ key ∈ keys, hasPrefix (keyPrefix "msg" d) key = true)
    (messages : List QueuedMessage) : Changes may (dequeuePage d keys messages) := by
  induction keys generalizing messages with
  | nil => exact keeps_pure _
  | cons key keys ih =>
      have later : ∀ key ∈ keys, hasPrefix (keyPrefix "msg" d) key = true :=
        fun key member => prefixed key (List.mem_cons_of_mem _ member)
      refine Keeps.run_bind (changes_get key) fun value => ?_
      cases value with
      | none => exact ih later messages
      | some data =>
          obtain ⟨id, rfl⟩ := hasPrefix_msg.mp (prefixed key List.mem_cons_self)
          exact Keeps.run_bind (changes_del (allowed id)) fun _ => ih later _

theorem changes_dequeueAll {d : Uuid} (allowed : ∀ id, may (.del (msgKey d id))) (pages : Nat) :
    Changes may (dequeueAll pages d) :=
  changes_scanLoop (fun _ messages prefixed => changes_dequeuePage allowed prefixed messages)
    pages .zero []

variable {chrono : Chrono} {serde : SerdeJson}

theorem changes_issueWipe {targets : List Uuid} {command : WipeRequest}
    (allowed : ∀ d ∈ targets, ∀ id value,
      may (.set (wipeKey d id) value WIPE_TTL_SECONDS.toNat)) :
    Changes may (issueWipe chrono targets command) := by
  refine Keeps.run_bind (Keeps.lift (keeps_act fun _ _ => Or.inl rfl)) fun id => ?_
  refine Keeps.run_bind (Keeps.lift (keeps_act fun _ _ => Or.inl rfl)) fun now => ?_
  refine Keeps.run_bind (Keeps.run_forM fun d member => ?_) fun _ => keeps_pure _
  exact changes_setEx fun _ => allowed d member _ _

theorem changes_pendingPage (keys : List String) (wipes : List PendingWipe) :
    Changes may (pendingPage serde chrono keys wipes) := by
  induction keys generalizing wipes with
  | nil => exact keeps_pure _
  | cons key keys ih =>
      refine Keeps.run_bind (changes_get key) fun value => ?_
      split
      · exact ih _
      · exact ih _

theorem changes_getPendingWipes (pages : Nat) (d : Uuid) :
    Changes may (getPendingWipes serde chrono pages d) :=
  changes_scanLoop (fun keys wipes _ => changes_pendingPage keys wipes) pages .zero []

end Hysj.Messaging
