import Hysj.Messaging.Queue
import Hysj.Shared.Messages

set_option autoImplicit false

/- Pending wipe commands in Redis. -/
namespace Hysj

/-- The texts of times, as `chrono` writes and reads them. -/
structure Chrono where
  toRfc3339 : Nat → String
  parseRfc3339 : String → Option Nat

def Chrono.Inverse (chrono : Chrono) : Prop :=
  ∀ t, chrono.parseRfc3339 (chrono.toRfc3339 t) = some t

/-- A tally in place of the text of a time. -/
def Chrono.sample : Chrono where
  toRfc3339 t := String.ofList (List.replicate t 'I')
  parseRfc3339 text := some text.toList.length

theorem Chrono.sample_inverse : sample.Inverse := by
  intro t
  simp [sample]

namespace Messaging

open Crypto Shared Program

/-- Redis TTL for wipe commands (30 days) -/
def WIPE_TTL_SECONDS : UInt64 := 30 * 24 * 60 * 60

/-- A pending wipe command stored in Redis, waiting for a device to acknowledge. -/
structure PendingWipe where
  wipeId : String
  command : WipeRequest
  issuedAt : Nat
  deriving DecidableEq

section

variable (serde : SerdeJson) (chrono : Chrono)

def PendingWipe.toJson (wipe : PendingWipe) : Json.Value :=
  .obj
    [("wipe_id", .str wipe.wipeId), ("command", wipe.command.toJson),
      ("issued_at", .str (chrono.toRfc3339 wipe.issuedAt))]

def PendingWipe.ofJson (value : Json.Value) : Option PendingWipe := do
  match ← Serde.fields ["wipe_id", "command", "issued_at"] value with
  | [wipeId, command, issuedAt] =>
      let time ← Serde.required Serde.readStr issuedAt
      some
        { wipeId := ← Serde.required Serde.readStr wipeId
          command := ← Serde.required WipeRequest.ofJson command
          issuedAt := ← chrono.parseRfc3339 time }
  | _ => none

/-- `serde_json::from_slice::<PendingWipe>` -/
def PendingWipe.fromSlice (bytes : Bytes) : Option PendingWipe :=
  (serde.fromSlice bytes).toOption.bind (PendingWipe.ofJson chrono)

/-- `Uuid::new_v4()` -/
def newV4 : Command Uuid := liftM (.act fun c r => (c.uuid, r) : Program Chance Redis Uuid)

/-- `Utc::now()` -/
def utcNow : Command Nat := liftM (.act fun _ r => (r.now, r) : Program Chance Redis Nat)

/-- Issue a wipe command to one or more target devices, and return its id. -/
def issueWipe (targetDeviceIds : List Uuid) (wipeCommand : WipeRequest) : Command String := do
  let wipeId := (← newV4).display
  let now ← utcNow
  let pending : PendingWipe := ⟨wipeId, wipeCommand, now⟩
  let serialized := Json.toVec (pending.toJson chrono)
  forM targetDeviceIds fun deviceId => setEx (wipeKey deviceId wipeId) serialized WIPE_TTL_SECONDS
  return wipeId

/-- The keys of one answer; what cannot be read is skipped. -/
def pendingPage : List String → List PendingWipe → Command (List PendingWipe)
  | [], wipes => return wipes
  | key :: keys, wipes => do
      match (← get key).bind (PendingWipe.fromSlice serde chrono) with
      | some wipe => pendingPage keys (wipes ++ [wipe])
      | none => pendingPage keys wipes

/-- Get all pending wipe commands for a given device. -/
def getPendingWipes (pages : Nat) (deviceId : Uuid) : Command (List PendingWipe) :=
  scanLoop (keyPrefix "wipe" deviceId) (pendingPage serde chrono) pages .zero []

/-- Confirm a wipe for a device, removing it; true if it was there. -/
def confirmWipe (deviceId : Uuid) (wipeId : String) : Command Bool := do
  let deleted ← del (wipeKey deviceId wipeId)
  return 0 < deleted

variable {serde chrono}

theorem PendingWipe.ofJson_toJson (inverse : chrono.Inverse) (wipe : PendingWipe) :
    ofJson chrono (wipe.toJson chrono) = some wipe := by
  have command := WipeRequest.ofJson_members wipe.command
  have names : (["wipe_id", "command", "issued_at"]).Nodup := by simp
  have found : Serde.fields ["wipe_id", "command", "issued_at"] (wipe.toJson chrono) = some
      [some (.str wipe.wipeId), some wipe.command.toJson,
        some (.str (chrono.toRfc3339 wipe.issuedAt))] := Serde.fields_obj names
  rw [ofJson, found]
  simp [Serde.required, Serde.readStr, WipeRequest.toJson, command, inverse wipe.issuedAt]

theorem PendingWipe.fromSlice_toVec (lawful : serde.Lawful) (inverse : chrono.Inverse)
    (wipe : PendingWipe) :
    fromSlice serde chrono (Json.toVec (wipe.toJson chrono)) = some wipe := by
  rw [fromSlice, lawful]
  exact ofJson_toJson inverse wipe

variable {d : Uuid} {r r' : Redis} {targets : List Uuid} {command : WipeRequest}

theorem runs_storeWipes {wipeId : String} {bytes : Bytes} {result : Except MessagingError PUnit} :
    Runs Clean (forM targets fun d => setEx (wipeKey d wipeId) bytes WIPE_TTL_SECONDS).run
        r result r' ↔
      .ok () = result ∧ targets.foldl (fun r d => r.set (wipeKey d wipeId) bytes
        (some WIPE_TTL_SECONDS.toNat)) r = r' := by
  induction targets generalizing r with
  | nil => exact runs_run_pure
  | cons d targets ih =>
      have lasts : WIPE_TTL_SECONDS ≠ 0 := by decide
      simp only [List.forM_cons, runs_run_bind, runs_setEx lasts, ih, List.foldl_cons]
      simp

/-- The entries of one wipe: the same bytes for every target, and nothing else is touched. -/
theorem peek_storeWipes {wipeId : String} {bytes : Bytes} {ttl : Nat} (lasts : 0 < ttl)
    (targets : List Uuid) (r : Redis) (key : String) :
    ((targets.foldl (fun r d => r.set (wipeKey d wipeId) bytes (some ttl)) r).now = r.now) ∧
    ((∀ d ∈ targets, key ≠ wipeKey d wipeId) →
      (targets.foldl (fun r d => r.set (wipeKey d wipeId) bytes (some ttl)) r).peek key =
        r.peek key) ∧
    ((∃ d ∈ targets, key = wipeKey d wipeId) →
      ∃ serial, (targets.foldl (fun r d => r.set (wipeKey d wipeId) bytes (some ttl)) r).peek key =
        some ⟨bytes, some (r.now + ttl), r.now, serial⟩) := by
  have positive : ∀ n ∈ some ttl, 0 < n := by simpa using lasts
  induction targets generalizing r with
  | nil => simp
  | cons d targets ih =>
      obtain ⟨now, others, stored⟩ := ih (r.set (wipeKey d wipeId) bytes (some ttl))
      rw [List.foldl_cons]
      refine ⟨now, ?_, ?_⟩
      · intro different
        rw [others fun d' member => different d' (List.mem_cons_of_mem _ member)]
        exact Store.peek_set_of_ne (different d List.mem_cons_self)
      · rintro ⟨d', member, rfl⟩
        by_cases later : ∃ d'' ∈ targets, wipeKey d' wipeId = wipeKey d'' wipeId
        · exact stored later
        · have here : d' = d := by
            rcases List.mem_cons.mp member with same | member
            · exact same
            · exact absurd ⟨d', member, rfl⟩ later
          subst here
          rw [others fun d'' member same => later ⟨d'', member, same⟩]
          exact ⟨_, Store.peek_set positive⟩

@[simp] theorem runs_newV4 {result : Except MessagingError Uuid} :
    Runs Clean newV4.run r result r' ↔ (∃ id, .ok id = result) ∧ r = r' := by
  simp only [newV4, runs_run_lift, runs_act, Prod.mk.injEq]
  constructor
  · rintro ⟨id, ⟨c, -, -, same⟩, ok⟩
    exact ⟨⟨id, ok⟩, same⟩
  · rintro ⟨⟨id, ok⟩, same⟩
    exact ⟨id, ⟨{ uuid := id }, rfl, rfl, same⟩, ok⟩

@[simp] theorem runs_utcNow {result : Except MessagingError Nat} :
    Runs Clean utcNow.run r result r' ↔ .ok r.now = result ∧ r = r' := by
  simp only [utcNow, runs_run_lift, runs_act, Prod.mk.injEq]
  constructor
  · rintro ⟨now, ⟨c, -, rfl, same⟩, ok⟩
    exact ⟨ok, same⟩
  · rintro ⟨ok, same⟩
    exact ⟨r.now, ⟨{}, rfl, rfl, same⟩, ok⟩

/-- The wipe that is stored under a key and can be read. -/
def storedWipe (serde : SerdeJson) (chrono : Chrono) (r : Redis) (key : String) :
    Option PendingWipe := (r.get? key).bind (PendingWipe.fromSlice serde chrono)

/-- A run that issues a wipe: what is stored, for whom and until when. -/
theorem runs_issueWipe {result : Except MessagingError String} :
    Runs Clean (issueWipe chrono targets command).run r result r' ↔
      ∃ id : Uuid, .ok id.display = result ∧
        targets.foldl (fun s d => s.set (wipeKey d id.display)
          (Json.toVec (PendingWipe.toJson chrono ⟨id.display, command, r.now⟩))
          (some WIPE_TTL_SECONDS.toNat)) r = r' := by
  simp only [issueWipe, runs_run_bind, runs_newV4, runs_utcNow, runs_storeWipes, runs_run_pure]
  constructor
  · rintro (⟨id, _, ⟨-, rfl⟩, ⟨now, _, ⟨same, rfl⟩, run⟩ | ⟨_, _, failed, _⟩⟩ |
      ⟨_, _, ⟨_, failed⟩, _⟩)
    · rcases run with ⟨_, _, ⟨-, stored⟩, done, left⟩ | ⟨_, _, failed, _⟩
      · obtain rfl := Except.ok.inj same
        exact ⟨id, done, stored.trans left⟩
      · cases failed
    · cases failed
    · cases failed
  · rintro ⟨id, done, stored⟩
    exact Or.inl ⟨id, r, ⟨⟨id, rfl⟩, rfl⟩, Or.inl ⟨r.now, r, ⟨rfl, rfl⟩,
      Or.inl ⟨(), r', ⟨trivial, stored⟩, done, rfl⟩⟩⟩

section

variable {allowed : Chance → Redis → Prop}

/-- Whatever fails, the entries of some of the targets are stored, and of all if nothing does. -/
theorem runs_storeWipes_some {wipeId : String} {bytes : Bytes}
    {result : Except MessagingError PUnit}
    (run : Runs allowed (forM targets fun d => setEx (wipeKey d wipeId) bytes WIPE_TTL_SECONDS).run
      r result r') :
    ∃ stored, r' = stored.foldl (fun r d => r.set (wipeKey d wipeId) bytes
      (some WIPE_TTL_SECONDS.toNat)) r ∧ (result = .ok () → stored = targets) := by
  induction targets generalizing r with
  | nil =>
      obtain ⟨-, rfl⟩ := runs_run_pure.mp run
      exact ⟨[], rfl, fun _ => rfl⟩
  | cons d targets ih =>
      have lasts : WIPE_TTL_SECONDS ≠ 0 := by decide
      have one {outcome : Except MessagingError Unit} {m : Redis}
          (run : Runs allowed (setEx (wipeKey d wipeId) bytes WIPE_TTL_SECONDS).run r outcome m) :
          (∃ e, outcome = .error e) ∧ m = r ∨
            m = r.set (wipeKey d wipeId) bytes (some WIPE_TTL_SECONDS.toNat) := by
        rcases of_runs_command run with ⟨⟨e, failed⟩, same⟩ | ⟨c, -, -, after⟩
        · exact Or.inl ⟨⟨_, failed⟩, same⟩
        · rw [if_neg lasts] at after
          exact Or.inr after
      rw [List.forM_cons] at run
      rcases runs_run_bind.mp run with ⟨_, m, first, rest⟩ | ⟨e, rfl, failed⟩
      · rcases one first with ⟨⟨e, other⟩, -⟩ | rfl
        · cases other
        · obtain ⟨stored, same, all⟩ := ih rest
          refine ⟨d :: stored, same, fun done => ?_⟩
          rw [all done]
      · rcases one failed with ⟨-, rfl⟩ | rfl
        · exact ⟨[], rfl, fun other => (by cases other)⟩
        · exact ⟨[d], rfl, fun other => (by cases other)⟩

theorem runs_newV4_draws {id : Uuid} {result : Except MessagingError Uuid} :
    Runs (Draws id) newV4.run r result r' ↔ .ok id = result ∧ r = r' := by
  simp only [newV4, runs_run_lift, runs_act, Prod.mk.injEq]
  constructor
  · rintro ⟨_, ⟨c, rfl, rfl, same⟩, ok⟩
    exact ⟨ok, same⟩
  · rintro ⟨ok, same⟩
    exact ⟨id, ⟨{ uuid := id }, rfl, rfl, same⟩, ok⟩

theorem runs_utcNow_draws {id : Uuid} {result : Except MessagingError Nat} :
    Runs (Draws id) utcNow.run r result r' ↔ .ok r.now = result ∧ r = r' := by
  simp only [utcNow, runs_run_lift, runs_act, Prod.mk.injEq]
  constructor
  · rintro ⟨_, ⟨c, -, rfl, same⟩, ok⟩
    exact ⟨ok, same⟩
  · rintro ⟨ok, same⟩
    exact ⟨r.now, ⟨{ uuid := id }, rfl, rfl, same⟩, ok⟩

theorem runs_issueWipe_draws {id : Uuid} {result : Except MessagingError String}
    (run : Runs (Draws id) (issueWipe chrono targets command).run r result r') :
    ∃ stored, r' = stored.foldl (fun s d => s.set (wipeKey d id.display)
        (Json.toVec (PendingWipe.toJson chrono ⟨id.display, command, r.now⟩))
        (some WIPE_TTL_SECONDS.toNat)) r ∧
      ∀ wipeId, result = .ok wipeId → wipeId = id.display ∧ stored = targets := by
  simp only [issueWipe, runs_run_bind, runs_newV4_draws, runs_utcNow_draws, runs_run_pure] at run
  rcases run with ⟨_, _, ⟨drawn, rfl⟩, rest⟩ | ⟨_, -, other, -⟩
  · obtain rfl := Except.ok.inj drawn
    rcases rest with ⟨_, _, ⟨time, rfl⟩, rest⟩ | ⟨_, -, other, -⟩
    · obtain rfl := Except.ok.inj time
      rcases rest with ⟨_, m, stores, done, rfl⟩ | ⟨e, rfl, failed⟩
      · obtain ⟨stored, same, all⟩ := runs_storeWipes_some stores
        refine ⟨stored, same, fun wipeId is => ⟨?_, all rfl⟩⟩
        rw [← done] at is
        exact (Except.ok.inj is).symm
      · obtain ⟨stored, same, -⟩ := runs_storeWipes_some failed
        exact ⟨stored, same, fun _ is => (by cases is)⟩
    · cases other
  · cases other

end

theorem runs_pendingPage {keys : List String} {wipes wipes' : List PendingWipe} :
    Runs Clean (pendingPage serde chrono keys wipes).run r (.ok wipes') r' ↔
      wipes ++ keys.filterMap (storedWipe serde chrono r) =
        wipes' ∧ r = r' := by
  induction keys generalizing wipes with
  | nil =>
      rw [pendingPage, runs_run_pure, Except.ok.injEq, List.filterMap_nil, List.append_nil]
  | cons key keys ih =>
      simp only [pendingPage, runs_run_bind_ok, runs_get]
      constructor
      · rintro ⟨value, _, ⟨same, rfl⟩, rest⟩
        obtain rfl := Except.ok.inj same
        split at rest
        · rename_i wipe read
          rw [ih, List.append_assoc] at rest
          rw [List.filterMap_cons_some (show storedWipe serde chrono r key = some wipe from read)]
          exact rest
        · rename_i unread
          rw [ih] at rest
          rw [List.filterMap_cons_none (show storedWipe serde chrono r key = none from unread)]
          exact rest
      · intro rest
        refine ⟨_, _, ⟨rfl, rfl⟩, ?_⟩
        split
        · rename_i wipe read
          rw [List.filterMap_cons_some
            (show storedWipe serde chrono r key = some wipe from read)] at rest
          rw [ih, List.append_assoc]
          exact rest
        · rename_i unread
          rw [List.filterMap_cons_none
            (show storedWipe serde chrono r key = none from unread)] at rest
          rw [ih]
          exact rest

theorem succeeds_pendingPage (keys : List String) (wipes : List PendingWipe) :
    Succeeds Clean (pendingPage serde chrono keys wipes) := by
  induction keys generalizing wipes with
  | nil => exact succeeds_pure wipes
  | cons key keys ih =>
      refine Succeeds.bind (succeeds_command fun _ _ => ⟨_, rfl⟩) fun value => ?_
      split
      · exact ih _
      · exact ih _

theorem sure_pendingPage (keys : List String) (wipes : List PendingWipe) :
    Sure Clean (pendingPage serde chrono keys wipes) := by
  induction keys generalizing wipes with
  | nil => exact sure_pure wipes
  | cons key keys ih =>
      refine (sure_command _).bind fun value => ?_
      split
      · exact ih _
      · exact ih _

theorem total_pendingPage (keys : List String) (wipes : List PendingWipe) :
    Total Clean (pendingPage serde chrono keys wipes).run := by
  induction keys generalizing wipes with
  | nil => exact total_pure _
  | cons key keys ih =>
      refine Total.run_bind (total_command _) fun value => ?_
      split
      · exact ih _
      · exact ih _

/-- What is pending for a device: every wipe that its keys hold and that can be read. -/
theorem runs_getPendingWipes {pages : Nat} {wipes : List PendingWipe}
    (run : Runs Clean (getPendingWipes serde chrono pages d).run r (.ok wipes) r') :
    r' = r ∧ ∀ wipe, wipe ∈ wipes ↔
      ∃ id, storedWipe serde chrono r (wipeKey d id) = some wipe := by
  have spec : PageSpec (keyPrefix "wipe" d) (pendingPage serde chrono)
      (fun wipes r₁ => r₁ = r ∧ ∀ wipe ∈ wipes, ∃ id,
        storedWipe serde chrono r (wipeKey d id) = some wipe)
      (fun key wipes _ => ∀ wipe, storedWipe serde chrono r key = some wipe → wipe ∈ wipes) := by
    constructor
    · rintro keys wipes r₁ wipes' r₂ prefixed ⟨rfl, real⟩ run
      obtain ⟨rfl, rfl⟩ := runs_pendingPage.mp run
      refine ⟨rfl, fun wipe member => ?_⟩
      rcases List.mem_append.mp member with old | new
      · exact real wipe old
      · obtain ⟨key, listed, found⟩ := List.mem_filterMap.mp new
        obtain ⟨id, rfl⟩ := hasPrefix_wipe.mp (prefixed key listed)
        exact ⟨id, found⟩
    · rintro keys wipes r₁ wipes' r₂ key prefixed ⟨rfl, real⟩ run listed wipe found
      obtain ⟨rfl, rfl⟩ := runs_pendingPage.mp run
      exact List.mem_append_right _ (List.mem_filterMap.mpr ⟨key, listed, found⟩)
    · rintro keys wipes r₁ wipes' r₂ key prefixed ⟨rfl, real⟩ run covered wipe found
      obtain ⟨rfl, rfl⟩ := runs_pendingPage.mp run
      exact List.mem_append_left _ (covered wipe found)
    · rintro keys wipes r₁ wipes' r₂ key prefixed ⟨rfl, real⟩ run there
      obtain ⟨rfl, rfl⟩ := runs_pendingPage.mp run
      exact Or.inl there
  obtain ⟨⟨same, real⟩, covered⟩ := scanLoop_spec spec run
    ⟨rfl, fun wipe member => (by cases member)⟩
    fun key (member : key ∈ named r (keyPrefix "wipe" d)) => Or.inr member
  refine ⟨same, fun wipe => ⟨real wipe, ?_⟩⟩
  rintro ⟨id, found⟩
  obtain ⟨bytes, stored, -⟩ := Option.bind_eq_some_iff.mp found
  obtain ⟨entry, there, -⟩ := Store.get?_eq_some.mp stored
  have wanted : (wipeKey d id, entry.serial) ∈ named r (keyPrefix "wipe" d) := by
    refine mem_named.mpr ⟨hasPrefix_wipe.mpr ⟨id, rfl⟩, ?_⟩
    simp [still, there]
  exact covered _ wanted wipe found

end

end Messaging

end Hysj
