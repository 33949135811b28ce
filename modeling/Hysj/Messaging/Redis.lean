import Hysj.Base.Program
import Hysj.Base.Store
import Hysj.Shared.Uuid

set_option autoImplicit false

/- Redis as the messaging functions use it. -/
namespace Hysj

open Crypto Shared

/-- What the environment decides in one step of the server: whether a command or query fails,
what a call of SCAN returns, and the next random identifier. -/
structure Chance where
  fault : Option String := none
  /-- keys that SCAN returns beside those it has to -/
  keys : List String := []
  /-- whether SCAN ends with this call -/
  last : Bool := true
  uuid : Uuid := .replicate 16 0

/-- No command and no query fails. -/
abbrev Clean {σ : Type} : Chance → σ → Prop := fun c _ => c.fault = none

/-- Whatever fails, each draw gives these bytes. -/
abbrev Draws {σ : Type} (id : Uuid) : Chance → σ → Prop := fun c _ => c.uuid = id

namespace Messaging

inductive MessagingError where
  | redisError (message : String)
  | serializationError (message : String)
  | notFound
  deriving DecidableEq

def MessagingError.display : MessagingError → String
  | .redisError message => "Redis error: " ++ message
  | .serializationError message => "Serialization error: " ++ message
  | .notFound => "Not found"

abbrev Redis := Store String Bytes

/-- An asynchronous function over a Redis connection. -/
abbrev Command (α : Type) := ExceptT MessagingError (Program Chance Redis) α

/-- A cursor of SCAN: `0`, or an iteration that still owes some keys. -/
inductive Cursor where
  | zero
  | owes (rest : List (String × Nat))
  deriving DecidableEq

def hasPrefix (pre key : String) : Bool := pre.toList.isPrefixOf key.toList

/-- The keys that an iteration starting now has to return, with their serial numbers. -/
def named (r : Redis) (pre : String) : List (String × Nat) :=
  (r.keys.filter fun key => hasPrefix pre key).map fun key =>
    (key, ((r.peek key).map Entry.serial).getD 0)

/-- The key has been there since it had this serial number. -/
def still (r : Redis) (key : String × Nat) : Bool :=
  (r.peek key.1).map Entry.serial = some key.2

/-- The keys that an iteration still has to return. -/
def owed (r : Redis) (pre : String) : Cursor → List (String × Nat)
  | .zero => named r pre
  | .owes rest => rest.filter fun key => hasPrefix pre key.1 && still r key

section

variable {α : Type}

/-- A command that fails was not executed. -/
def command (f : Chance → Redis → Except String α × Redis) : Command α :=
  ExceptT.mk <| .act fun c r =>
    match c.fault with
    | some e => (.error (.redisError e), r)
    | none => ((f c r).1.mapError .redisError, (f c r).2)

def exists_ (key : String) : Command Bool :=
  command fun _ r => (.ok (r.get? key).isSome, r)

def get (key : String) : Command (Option Bytes) := command fun _ r => (.ok (r.get? key), r)

/-- `DEL` returns how many keys it removed. -/
def del (key : String) : Command Nat :=
  command fun _ r => (.ok (if (r.get? key).isSome then 1 else 0), r.del key)

/-- The text of an error that Redis answers with. -/
def signalled (message : String) : String :=
  "An error was signalled by the server - ResponseError: " ++ message

/-- `SET key value EX ttl`; a lifetime of zero is an error. -/
def setEx (key : String) (value : Bytes) (ttl : UInt64) : Command Unit :=
  command fun _ r =>
    if ttl = 0 then (.error (signalled "invalid expire time in 'set' command"), r)
    else (.ok (), r.set key value (some ttl.toNat))

/-- `TTL`: `-2` without the key, `-1` without an expiry. -/
def ttl (key : String) : Command Int :=
  command fun _ r =>
    match r.peek key with
    | none => (.ok (-2), r)
    | some entry =>
        match entry.expiresAt with
        | none => (.ok (-1), r)
        | some t => (.ok (t - r.now), r)

def expire (key : String) (ttl : UInt64) : Command Unit :=
  command fun _ r => (.ok (), r.expire key ttl.toNat)

/-- `SCAN cursor MATCH pre* COUNT 100`. A key that is there during a whole iteration is
returned at least once; others may be returned too, and keys may repeat. -/
def scan (cursor : Cursor) (pre : String) : Command (Cursor × List String) :=
  command fun c r =>
    let page := c.keys.filter fun key => hasPrefix pre key
    let rest := (owed r pre cursor).filter fun key => key.1 ∉ page
    if c.last then (.ok (.zero, page ++ rest.map Prod.fst), r) else (.ok (.owes rest, page), r)

end

/-- What the keys of one kind of a device start with. -/
def keyPrefix (kind : String) (deviceId : Uuid) : String := kind ++ ":" ++ deviceId.display ++ ":"

/-- `format!("msg:{}:{}", device_id, message_id)` -/
def msgKey (deviceId : Uuid) (messageId : String) : String := keyPrefix "msg" deviceId ++ messageId

/-- `format!("wipe:{}:{}", device_id, wipe_id)` -/
def wipeKey (deviceId : Uuid) (wipeId : String) : String := keyPrefix "wipe" deviceId ++ wipeId

theorem hasPrefix_iff {pre key : String} : hasPrefix pre key ↔ ∃ rest, key = pre ++ rest := by
  rw [hasPrefix, List.isPrefixOf_iff_prefix]
  constructor
  · rintro ⟨rest, split⟩
    refine ⟨String.ofList rest, String.toList_inj.mp ?_⟩
    rw [String.toList_append, String.toList_ofList, split]
  · rintro ⟨rest, rfl⟩
    exact ⟨rest.toList, String.toList_append.symm⟩

theorem keyPrefix_append_inj {kind rest rest' : String} {d d' : Uuid} :
    keyPrefix kind d ++ rest = keyPrefix kind d' ++ rest' ↔ d = d' ∧ rest = rest' := by
  constructor
  · intro same
    have chars := congrArg String.toList same
    simp only [keyPrefix, String.toList_append, List.append_assoc, List.append_cancel_left_eq]
      at chars
    obtain ⟨ids, chars⟩ := List.append_inj chars (by simp)
    rw [List.append_cancel_left_eq] at chars
    exact ⟨Uuid.display_injective (String.toList_inj.mp ids), String.toList_inj.mp chars⟩
  · rintro ⟨rfl, rfl⟩
    rfl

@[simp] theorem msgKey_inj {d d' : Uuid} {id id' : String} :
    msgKey d id = msgKey d' id' ↔ d = d' ∧ id = id' := keyPrefix_append_inj

@[simp] theorem wipeKey_inj {d d' : Uuid} {id id' : String} :
    wipeKey d id = wipeKey d' id' ↔ d = d' ∧ id = id' := keyPrefix_append_inj

theorem msgKey_ne_wipeKey (d d' : Uuid) (id id' : String) : msgKey d id ≠ wipeKey d' id' := by
  intro same
  have heads := congrArg (fun key => key.toList.head?) same
  simp [msgKey, wipeKey, keyPrefix] at heads

@[simp] theorem hasPrefix_msg {d : Uuid} {key : String} :
    hasPrefix (keyPrefix "msg" d) key ↔ ∃ id, key = msgKey d id := hasPrefix_iff

@[simp] theorem hasPrefix_wipe {d : Uuid} {key : String} :
    hasPrefix (keyPrefix "wipe" d) key ↔ ∃ id, key = wipeKey d id := hasPrefix_iff

section

open Program

variable {α : Type} {r r' : Redis} {key : String}

theorem runs_command {f : Chance → Redis → Except String α × Redis}
    {result : Except MessagingError α} :
    Runs Clean (command f).run r result r' ↔
      ∃ c : Chance, c.fault = none ∧ (f c r).1.mapError .redisError = result ∧ (f c r).2 = r' := by
  rw [command, runs_run_mk, runs_act]
  refine exists_congr fun c => and_congr_right fun clean => ?_
  rw [clean, Prod.mk.injEq]

theorem keeps_command {G : Redis → Redis → Prop} {f : Chance → Redis → Except String α × Redis}
    (refl : ∀ r, G r r) (each : ∀ c r, G r (f c r).2) : Keeps G (command f).run := by
  apply keeps_act
  intro c r
  split
  · exact refl r
  · exact each c r

theorem total_command (f : Chance → Redis → Except String α × Redis) :
    Total Clean (command f).run :=
  total_act fun _ => ⟨{}, rfl⟩

theorem succeeds_command {f : Chance → Redis → Except String α × Redis}
    (each : ∀ c r, ∃ a, (f c r).1 = .ok a) : Succeeds Clean (command f) := by
  intro r outcome r' run
  obtain ⟨c, -, answer, -⟩ := runs_command.mp run
  obtain ⟨a, same⟩ := each c r
  rw [same] at answer
  exact ⟨a, answer.symm⟩

/-- Whatever may happen, a command fails and changes nothing, or does what it does. -/
theorem of_runs_command {allowed : Chance → Redis → Prop}
    {f : Chance → Redis → Except String α × Redis} {result : Except MessagingError α}
    (run : Runs allowed (command f).run r result r') :
    ((∃ e, result = .error (.redisError e)) ∧ r' = r) ∨
      ∃ c, c.fault = none ∧ result = (f c r).1.mapError .redisError ∧ r' = (f c r).2 := by
  rw [command, runs_run_mk, runs_act] at run
  obtain ⟨c, -, answer⟩ := run
  cases fault : c.fault with
  | some e =>
      rw [fault] at answer
      obtain ⟨rfl, rfl⟩ := Prod.mk.inj answer
      exact Or.inl ⟨⟨e, rfl⟩, rfl⟩
  | none =>
      rw [fault] at answer
      obtain ⟨rfl, rfl⟩ := Prod.mk.inj answer
      exact Or.inr ⟨c, fault, rfl, rfl⟩

theorem sure_command (f : Chance → Redis → Except String α × Redis) :
    Sure Clean (command f) := by
  intro r a r' run
  rcases of_runs_command run with ⟨⟨e, other⟩, -⟩ | ⟨c, fault, answer, rfl⟩
  · cases other
  · exact runs_command.mpr ⟨c, fault, answer.symm, rfl⟩

theorem runs_command_const {f : Redis → Except String α × Redis}
    {result : Except MessagingError α} :
    Runs Clean (command fun _ => f).run r result r' ↔
      (f r).1.mapError .redisError = result ∧ (f r).2 = r' := by
  rw [runs_command]
  constructor
  · rintro ⟨-, -, answer⟩
    exact answer
  · intro answer
    exact ⟨{}, rfl, answer⟩

@[simp] theorem runs_exists {result : Except MessagingError Bool} :
    Runs Clean (exists_ key).run r result r' ↔ .ok (r.get? key).isSome = result ∧ r = r' :=
  runs_command_const

@[simp] theorem runs_get {result : Except MessagingError (Option Bytes)} :
    Runs Clean (get key).run r result r' ↔ .ok (r.get? key) = result ∧ r = r' :=
  runs_command_const

@[simp] theorem runs_del {result : Except MessagingError Nat} :
    Runs Clean (del key).run r result r' ↔
      .ok (if (r.get? key).isSome then 1 else 0) = result ∧ r.del key = r' :=
  runs_command_const

theorem runs_setEx {value : Bytes} {ttl : UInt64} {result : Except MessagingError Unit}
    (lasts : ttl ≠ 0) :
    Runs Clean (setEx key value ttl).run r result r' ↔
      .ok () = result ∧ r.set key value (some ttl.toNat) = r' := by
  rw [setEx, runs_command_const, if_neg lasts]
  rfl

end

end Messaging

end Hysj
