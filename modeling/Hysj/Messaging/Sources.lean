import Hysj.Messaging.Changes

set_option autoImplicit false

/- Where what is read from Redis comes from. -/
namespace Hysj.Messaging

open Crypto Shared Program

/-- What can be read was there before, or may be stored. -/
def AddsOnly (may : String → Bytes → Prop) (r r' : Redis) : Prop :=
  ∀ key value, r'.get? key = some value → r.get? key = some value ∨ may key value

/-- Everything that can be read may be stored. -/
def HoldsOnly (may : String → Bytes → Prop) (r : Redis) : Prop :=
  ∀ key value, r.get? key = some value → may key value

section

variable {may : String → Bytes → Prop} {r r' : Redis} {key : String} {value : Bytes}

theorem adds_refl (r : Redis) : AddsOnly may r r := fun _ _ found => Or.inl found

theorem HoldsOnly.adds (stocked : HoldsOnly may r) (adds : AddsOnly may r r') : HoldsOnly may r' :=
  fun key value found => (adds key value found).elim (stocked key value) id

theorem adds_of_peek (leaves : ∀ key entry, r'.peek key = some entry →
    (∃ old, r.peek key = some old ∧ old.value = entry.value) ∨ may key entry.value) :
    AddsOnly may r r' := by
  intro key value found
  obtain ⟨entry, there, rfl⟩ := Store.get?_eq_some.mp found
  exact (leaves key entry there).imp_left fun old => Store.get?_eq_some.mpr old

theorem adds_set {ttl : Option Nat} (allowed : may key value) :
    AddsOnly may r (r.set key value ttl) := by
  apply adds_of_peek
  intro key' entry found
  by_cases same : key' = key
  · subst same
    rw [(Store.of_peek_set found).1]
    exact Or.inr allowed
  · rw [Store.peek_set_of_ne same] at found
    exact Or.inl ⟨entry, found, rfl⟩

theorem adds_del : AddsOnly may r (r.del key) := by
  apply adds_of_peek
  intro key' entry found
  by_cases same : key' = key
  · rw [same, Store.peek_del] at found
    cases found
  · rw [Store.peek_del_of_ne same] at found
    exact Or.inl ⟨entry, found, rfl⟩

theorem adds_expire {seconds : Nat} : AddsOnly may r (r.expire key seconds) := by
  apply adds_of_peek
  intro key' entry found
  by_cases same : key' = key
  · subst same
    unfold Store.expire at found
    split at found
    · rename_i old there
      have written := (Store.peek_eq_some.mp found).1
      rw [AList.lookup_insert] at written
      obtain rfl := Option.some.inj written
      exact Or.inl ⟨old, there, rfl⟩
    · exact Or.inl ⟨entry, found, rfl⟩
  · rw [Store.peek_expire_of_ne same] at found
    exact Or.inl ⟨entry, found, rfl⟩

theorem adds_advance {seconds : Nat} : AddsOnly may r (r.advance seconds) := by
  apply adds_of_peek
  intro key entry found
  exact Or.inl ⟨entry, (Store.peek_advance.mp found).1, rfl⟩

/-- A change stores what may be stored. -/
def Change.Stores (may : String → Bytes → Prop) : Change → Prop
  | .set key value _ => may key value
  | .del _ | .expire _ _ => True

theorem adds_of_does (does : Does Change.apply (Change.Stores may) r r') : AddsOnly may r r' := by
  obtain rfl | ⟨change, allowed, rfl⟩ := does
  · exact adds_refl r'
  · cases change with
    | set key value ttl => exact adds_set allowed
    | del key => exact adds_del
    | expire key seconds => exact adds_expire

end

section

variable {may : String → Bytes → Prop} {α β : Type} {P : α → Prop}

/-- While everything that can be read may be stored, nothing else is added, and what comes out
satisfies `P`. -/
abbrev Fetches (may : String → Bytes → Prop) (P : α → Prop) (t : Command α) : Prop :=
  Secures (fun _ _ => True) (HoldsOnly may) (AddsOnly may) (OnOk P) t.run

theorem fetches_of_changes {t : Command α} (changes : Changes (Change.Stores may) t) :
    Fetches may (fun _ => True) t :=
  (Keeps.secures (Keeps.mono changes fun _ _ => adds_of_does) fun _ _ stocked adds =>
    stocked.adds adds).mono (fun _ _ _ adds => adds) fun _ _ _ _ => trivial

theorem fetches_read {f : Chance → Redis → Except String α × Redis} (reads : ∀ c r, (f c r).2 = r)
    (tells : ∀ c r a, HoldsOnly may r → (f c r).1 = .ok a → P a) : Fetches may P (command f) := by
  refine secures_act fun c r _ stocked => ?_
  cases c.fault with
  | some e => exact ⟨stocked, adds_refl r, fun a same => by cases same⟩
  | none =>
      dsimp only
      rw [reads]
      refine ⟨stocked, adds_refl r, fun a same => ?_⟩
      exact tells c r a stocked (Result.mapError_eq_ok.mp same)

theorem fetches_get (key : String) :
    Fetches may (fun found : Option Bytes => ∀ value ∈ found, may key value) (get key) :=
  fetches_read (fun _ _ => rfl) fun _ _ found stocked same value member => by
    obtain rfl := Except.ok.inj same
    exact stocked key value member

/-- Whatever SCAN answers, the keys begin as they were asked for. -/
theorem fetches_scan (cursor : Cursor) (pre : String) :
    Fetches may (fun answer : Cursor × List String => ∀ key ∈ answer.2, hasPrefix pre key = true)
      (scan cursor pre) := by
  refine fetches_read (fun c r => ?_) fun c r answer _ same key member => ?_
  · dsimp only
    split <;> rfl
  · dsimp only at same
    split at same
    · obtain rfl := Except.ok.inj same
      rcases List.mem_append.mp member with listed | left
      · exact (List.mem_filter.mp listed).2
      · obtain ⟨key, listed, rfl⟩ := List.mem_map.mp left
        exact (mem_owed.mp (List.mem_filter.mp listed).1).1
    · obtain rfl := Except.ok.inj same
      exact (List.mem_filter.mp member).2

theorem fetches_scanLoop {pre : String} {page : List String → α → Command α}
    (each : ∀ keys acc, (∀ key ∈ keys, hasPrefix pre key = true) → P acc →
      Fetches may P (page keys acc)) (pages : Nat) (cursor : Cursor) {acc : α} (holds : P acc) :
    Fetches may P (scanLoop pre page pages cursor acc) := by
  induction pages generalizing cursor acc with
  | zero => trivial
  | succ pages ih =>
      refine Secures.run_bind (fetches_scan cursor pre) fun answer prefixed => ?_
      refine Secures.run_bind (each answer.2 acc prefixed holds) fun acc' holds' => ?_
      split
      · exact secures_run_pure holds'
      · exact ih _ holds'

end

section

variable {may : String → Bytes → Prop} {d : Uuid}

/-- Every message was stored under a key of the device. -/
def Queued (may : String → Bytes → Prop) (d : Uuid) (messages : List QueuedMessage) : Prop :=
  ∀ queued ∈ messages, ∃ id, may (msgKey d id) queued.encryptedBlob

theorem fetches_dequeuePage {keys : List String} {messages : List QueuedMessage}
    (prefixed : ∀ key ∈ keys, hasPrefix (keyPrefix "msg" d) key = true)
    (drained : Queued may d messages) :
    Fetches may (Queued may d) (dequeuePage d keys messages) := by
  induction keys generalizing messages with
  | nil => exact secures_run_pure drained
  | cons key keys ih =>
      have later := fun key member => prefixed key (List.mem_cons_of_mem _ member)
      refine Secures.run_bind (fetches_get key) fun found stored => ?_
      cases found with
      | none => exact ih later drained
      | some data =>
          refine Secures.run_bind (fetches_of_changes (changes_del trivial)) fun _ _ => ?_
          refine ih later fun queued member => ?_
          rcases List.mem_append.mp member with old | new
          · exact drained queued old
          · obtain rfl := List.mem_singleton.mp new
            obtain ⟨id, rfl⟩ := hasPrefix_msg.mp (prefixed key List.mem_cons_self)
            exact ⟨id, stored data rfl⟩

theorem fetches_dequeueAll (pages : Nat) : Fetches may (Queued may d) (dequeueAll pages d) :=
  fetches_scanLoop (fun _ _ prefixed drained => fetches_dequeuePage prefixed drained) pages .zero
    fun _ member => absurd member List.not_mem_nil

variable {serde : SerdeJson} {chrono : Chrono}

/-- Every wipe was read from what was stored under a key of the device. -/
def Awaited (serde : SerdeJson) (chrono : Chrono) (may : String → Bytes → Prop) (d : Uuid)
    (wipes : List PendingWipe) : Prop :=
  ∀ wipe ∈ wipes, ∃ id value, may (wipeKey d id) value ∧
    PendingWipe.fromSlice serde chrono value = some wipe

theorem fetches_pendingPage {keys : List String} {wipes : List PendingWipe}
    (prefixed : ∀ key ∈ keys, hasPrefix (keyPrefix "wipe" d) key = true)
    (awaited : Awaited serde chrono may d wipes) :
    Fetches may (Awaited serde chrono may d) (pendingPage serde chrono keys wipes) := by
  induction keys generalizing wipes with
  | nil => exact secures_run_pure awaited
  | cons key keys ih =>
      have later := fun key member => prefixed key (List.mem_cons_of_mem _ member)
      refine Secures.run_bind (fetches_get key) fun found stored => ?_
      split
      · rename_i wipe read
        obtain ⟨value, rfl, readable⟩ := Option.bind_eq_some_iff.mp read
        refine ih later fun wipe' member => ?_
        rcases List.mem_append.mp member with old | new
        · exact awaited wipe' old
        · obtain rfl := List.mem_singleton.mp new
          obtain ⟨id, rfl⟩ := hasPrefix_wipe.mp (prefixed key List.mem_cons_self)
          exact ⟨id, value, stored value rfl, readable⟩
      · exact ih later awaited

theorem fetches_getPendingWipes (pages : Nat) :
    Fetches may (Awaited serde chrono may d) (getPendingWipes serde chrono pages d) :=
  fetches_scanLoop (fun _ _ prefixed awaited => fetches_pendingPage prefixed awaited) pages .zero
    fun _ member => absurd member List.not_mem_nil

end

end Hysj.Messaging
