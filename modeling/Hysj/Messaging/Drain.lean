import Hysj.Messaging.Queue

set_option autoImplicit false

/- Where a drain of the queue stands between its commands. -/
namespace Hysj.Messaging

open Crypto Shared Program

/-- What a command does, and what the program that begins with it goes on with. -/
theorem command_bind_steps {α β : Type} {f : Chance → Redis → Except String α × Redis}
    {k : α → Command β} {effect : Chance → Redis → Redis}
    {next : Chance → Redis → Program Chance Redis (Except MessagingError β)}
    (is : (command f >>= k).run = .step effect next) (c : Chance) (r : Redis) :
    (∀ e, c.fault = some e → effect c r = r ∧ next c r = .done (.error (.redisError e))) ∧
      (c.fault = none → effect c r = (f c r).2 ∧
        ∀ a, (f c r).1 = .ok a → next c r = (k a).run) := by
  obtain ⟨rfl, rfl⟩ := Program.step.inj is
  refine ⟨fun e fault => ?_, fun clean => ?_⟩
  · simp only [fault]
    exact ⟨trivial, rfl⟩
  · simp only [clean]
    refine ⟨trivial, fun a answered => ?_⟩
    rw [answered]
    rfl

/-- What SCAN answers if it does not fail. -/
def scanned (c : Chance) (r : Redis) (pre : String) (cursor : Cursor) : Cursor × List String :=
  let page := c.keys.filter fun key => hasPrefix pre key
  let rest := (owed r pre cursor).filter fun key => key.1 ∉ page
  if c.last then (.zero, page ++ rest.map Prod.fst) else (.owes rest, page)

theorem scan_eq (cursor : Cursor) (pre : String) :
    scan cursor pre = command fun c r => (.ok (scanned c r pre cursor), r) := by
  unfold scan scanned
  congr
  funext c r
  dsimp only
  split <;> rfl

theorem scanned_spec {c : Chance} {r : Redis} {pre : String} {cursor next : Cursor}
    {keys : List String} (answer : scanned c r pre cursor = (next, keys)) :
    (∀ key ∈ keys, hasPrefix pre key = true) ∧
      ∀ key ∈ owed r pre cursor, key.1 ∈ keys ∨ ∃ rest, next = .owes rest ∧ key ∈ rest := by
  have run : Runs Clean (scan cursor pre).run r (.ok (next, keys)) r := by
    rw [scan_eq]
    refine runs_command.mpr ⟨{ c with fault := none }, rfl, ?_, rfl⟩
    exact congrArg Except.ok answer
  exact (runs_scan run).2

/-- Where a drain stands. -/
inductive Drain where
  /-- SCAN is next -/
  | scanning (pages : Nat) (cursor : Cursor) (messages : List QueuedMessage)
  /-- GET of the key is next -/
  | reading (pages : Nat) (next : Cursor) (key : String) (keys : List String)
      (messages : List QueuedMessage)
  /-- the value of the key has been read, and its DEL is next -/
  | deleting (pages : Nat) (next : Cursor) (key : String) (data : Bytes) (keys : List String)
      (messages : List QueuedMessage)
  | returned (messages : List QueuedMessage)
  | failed (e : MessagingError)

namespace Drain

/-- Where a drain stands that has these keys of an answer left. -/
def ofPage (pages : Nat) (next : Cursor) : List String → List QueuedMessage → Drain
  | [], messages => if next = .zero then .returned messages else .scanning pages next messages
  | key :: keys, messages => .reading pages next key keys messages

section

variable (d : Uuid)

/-- The message that a value under a key is returned as. -/
def message (key : String) (data : Bytes) : QueuedMessage :=
  ⟨stripPrefix (keyPrefix "msg" d) key, data⟩

/-- What a drain does after the keys of an answer. -/
def afterPage (pages : Nat) (next : Cursor) (messages : List QueuedMessage) :
    Command (List QueuedMessage) :=
  if next = .zero then return messages
  else scanLoop (keyPrefix "msg" d) (dequeuePage d) pages next messages

/-- What is left to do. -/
def rest : Drain → Program Chance Redis (Except MessagingError (List QueuedMessage))
  | .scanning pages cursor messages =>
      (scanLoop (keyPrefix "msg" d) (dequeuePage d) pages cursor messages).run
  | .reading pages next key keys messages =>
      (dequeuePage d (key :: keys) messages >>= afterPage d pages next).run
  | .deleting pages next key data keys messages =>
      (del key >>= fun _ => dequeuePage d keys (messages ++ [message d key data]) >>=
        afterPage d pages next).run
  | .returned messages => .done (.ok messages)
  | .failed e => .done (.error e)

/-- Where the drain stands after its next command. -/
def next (c : Chance) (r : Redis) : Drain → Drain
  | .scanning pages cursor messages =>
      match c.fault with
      | some e => .failed (.redisError e)
      | none =>
          ofPage (pages - 1) (scanned c r (keyPrefix "msg" d) cursor).1
            (scanned c r (keyPrefix "msg" d) cursor).2 messages
  | .reading pages next key keys messages =>
      match c.fault with
      | some e => .failed (.redisError e)
      | none =>
          match r.get? key with
          | some data => .deleting pages next key data keys messages
          | none => ofPage pages next keys messages
  | .deleting pages next key data keys messages =>
      match c.fault with
      | some e => .failed (.redisError e)
      | none => ofPage pages next keys (messages ++ [message d key data])
  | drain => drain

/-- What the next command does. -/
def effect (c : Chance) (r : Redis) : Drain → Redis
  | .deleting _ _ key _ _ _ => if c.fault = none then r.del key else r
  | _ => r

/-- The drain has come to an end. -/
def ended : Drain → Bool
  | .returned _ | .failed _ => true
  | _ => false

/-- The messages that the drain has in its hands. -/
def hand : Drain → List QueuedMessage
  | .scanning _ _ messages | .reading _ _ _ _ messages | .returned messages => messages
  | .deleting _ _ key data _ messages => messages ++ [message d key data]
  | .failed _ => []

/-- The key and the value that the next command finds. -/
def takes (c : Chance) (r : Redis) : Drain → Option (String × Bytes)
  | .reading _ _ key _ _ =>
      if c.fault = none then (r.get? key).map fun data => (key, data) else none
  | _ => none

/-- The next command fails. -/
def drops (c : Chance) : Drain → Bool
  | .returned _ | .failed _ => false
  | _ => c.fault.isSome

/-- The keys that have still to be handled are ones of the device. -/
def Prefixed : Drain → Prop
  | .reading _ _ key keys _ | .deleting _ _ key _ keys _ =>
      ∀ name ∈ key :: keys, hasPrefix (keyPrefix "msg" d) name = true
  | _ => True

/-- The key is among these, or SCAN still owes it. -/
def Coming (next : Cursor) (keys : List String) (key : String × Nat) : Prop :=
  key.1 ∈ keys ∨ ∃ rest, next = .owes rest ∧ key ∈ rest

/-- The drain has still to come to the key. -/
def Due (key : String × Nat) (r : Redis) : Drain → Prop
  | .scanning _ cursor _ => key ∈ owed r (keyPrefix "msg" d) cursor
  | .reading _ next name keys _ => Coming next (name :: keys) key
  | .deleting _ next _ _ keys _ => Coming next keys key
  | _ => False

variable {d} {pages : Nat} {cursor : Cursor} {keys : List String} {messages : List QueuedMessage}
variable {drain : Drain} {c : Chance} {r : Redis}

theorem rest_ofPage : (ofPage pages cursor keys messages).rest d =
    (dequeuePage d keys messages >>= afterPage d pages cursor).run := by
  cases keys with
  | nil =>
      rw [ofPage, dequeuePage, pure_bind, afterPage]
      split <;> rfl
  | cons key keys => rfl

/-- A drain goes from one of these places to the next, and its commands do this. -/
theorem rest_step {effect' : Chance → Redis → Redis}
    {next' : Chance → Redis → Program Chance Redis (Except MessagingError (List QueuedMessage))}
    (is : drain.rest d = .step effect' next') (c : Chance) (r : Redis) :
    effect' c r = drain.effect c r ∧ next' c r = (drain.next d c r).rest d ∧
      drain.ended = false := by
  cases drain with
  | scanning pages cursor messages =>
      cases pages with
      | zero => cases is
      | succ pages =>
          rw [rest, scanLoop, scan_eq] at is
          obtain ⟨fails, goes⟩ := command_bind_steps is c r
          cases fault : c.fault with
          | some e =>
              obtain ⟨stays, stops⟩ := fails e fault
              exact ⟨stays, by simp only [next, fault, stops, rest], rfl⟩
          | none =>
              obtain ⟨stays, answers⟩ := goes fault
              refine ⟨stays, ?_, rfl⟩
              rw [answers _ rfl]
              simp only [next, fault, Nat.add_one_sub_one, rest_ofPage]
              rfl
  | reading pages next key keys messages =>
      rw [rest, dequeuePage, LawfulMonad.bind_assoc] at is
      obtain ⟨fails, goes⟩ := command_bind_steps is c r
      cases fault : c.fault with
      | some e =>
          obtain ⟨stays, stops⟩ := fails e fault
          exact ⟨stays, by simp only [Drain.next, fault, stops, rest], rfl⟩
      | none =>
          obtain ⟨stays, answers⟩ := goes fault
          refine ⟨stays, ?_, rfl⟩
          rw [answers _ rfl]
          cases found : r.get? key with
          | none => simp only [Drain.next, fault, found, rest_ofPage]
          | some data =>
              simp only [Drain.next, fault, found, rest, LawfulMonad.bind_assoc]
              rfl
  | deleting pages next key data keys messages =>
      rw [rest] at is
      obtain ⟨fails, goes⟩ := command_bind_steps is c r
      cases fault : c.fault with
      | some e =>
          obtain ⟨stays, stops⟩ := fails e fault
          refine ⟨?_, by simp only [Drain.next, fault, stops, rest], rfl⟩
          rw [stays, Drain.effect, if_neg (fault ▸ Option.some_ne_none e)]
      | none =>
          obtain ⟨deletes, answers⟩ := goes fault
          refine ⟨?_, ?_, rfl⟩
          · rw [deletes, Drain.effect, if_pos fault]
          · rw [answers _ rfl]
            simp only [Drain.next, fault, rest_ofPage]
  | returned messages => cases is
  | failed e => cases is

@[simp] theorem hand_ofPage : (ofPage pages cursor keys messages).hand d = messages := by
  cases keys with
  | nil =>
      rw [ofPage]
      split <;> rfl
  | cons key keys => rfl

theorem prefixed_ofPage (prefixed : ∀ name ∈ keys, hasPrefix (keyPrefix "msg" d) name = true) :
    (ofPage pages cursor keys messages).Prefixed d := by
  cases keys with
  | nil =>
      rw [ofPage]
      split <;> trivial
  | cons key keys => exact prefixed

theorem Prefixed.next (prefixed : drain.Prefixed d) : (drain.next d c r).Prefixed d := by
  cases drain with
  | scanning pages cursor messages =>
      rw [Drain.next]
      split
      · trivial
      · exact prefixed_ofPage (scanned_spec rfl).1
  | reading pages next key keys messages =>
      rw [Drain.next]
      split
      · trivial
      · split
        · exact prefixed
        · exact prefixed_ofPage fun name member => prefixed name (List.mem_cons_of_mem _ member)
  | deleting pages next key data keys messages =>
      rw [Drain.next]
      split
      · trivial
      · exact prefixed_ofPage fun name member => prefixed name (List.mem_cons_of_mem _ member)
  | returned messages => trivial
  | failed e => trivial

/-- A drain takes what its GET finds, and drops all it has when a command fails. -/
theorem hand_next : (drain.next d c r).hand d =
    if drain.drops c then []
    else drain.hand d ++ (drain.takes c r).toList.map fun taken => message d taken.1 taken.2 := by
  cases drain with
  | scanning pages cursor messages =>
      cases fault : c.fault with
      | some e => simp only [Drain.next, drops, fault, Option.isSome_some, if_true]; rfl
      | none =>
          simp only [Drain.next, drops, takes, fault, Option.isSome_none, hand_ofPage]
          simp [hand]
  | reading pages next key keys messages =>
      cases fault : c.fault with
      | some e => simp only [Drain.next, drops, fault, Option.isSome_some, if_true]; rfl
      | none =>
          cases found : r.get? key with
          | none =>
              simp only [Drain.next, drops, takes, fault, found, Option.isSome_none, hand_ofPage]
              simp [hand]
          | some data =>
              simp only [Drain.next, drops, takes, fault, found, Option.isSome_none]
              simp [hand]
  | deleting pages next key data keys messages =>
      cases fault : c.fault with
      | some e => simp only [Drain.next, drops, fault, Option.isSome_some, if_true]; rfl
      | none =>
          simp only [Drain.next, drops, takes, fault, Option.isSome_none, hand_ofPage]
          simp [hand]
  | returned messages => simp [Drain.next, drops, takes]
  | failed e => simp [Drain.next, drops, takes]

/-- What a drain has to come to stays so while the key is there. -/
theorem Due.of_still {key : String × Nat} {r' : Redis} (due : drain.Due d key r)
    (there : still r' key = true) : drain.Due d key r' := by
  cases drain with
  | scanning pages cursor messages =>
      obtain ⟨prefixed, -, left⟩ := mem_owed.mp due
      exact mem_owed.mpr ⟨prefixed, there, left⟩
  | reading | deleting | returned | failed => exact due

theorem due_ofPage {key : String × Nat} (coming : Coming cursor keys key)
    (prefixed : hasPrefix (keyPrefix "msg" d) key.1 = true) (there : still r key = true) :
    (ofPage pages cursor keys messages).Due d key r := by
  cases keys with
  | nil =>
      obtain absurd_ | ⟨left, rfl, member⟩ := coming
      · cases absurd_
      · rw [ofPage, if_neg Cursor.noConfusion]
        refine mem_owed.mpr ⟨prefixed, there, fun left' same => ?_⟩
        rw [← Cursor.owes.inj same]
        exact member
  | cons name keys => exact coming

/-- A drain that has to come to a key comes nearer, or reads it now. -/
theorem Due.next {key : String × Nat} (due : drain.Due d key r) (clean : c.fault = none)
    (prefixed : hasPrefix (keyPrefix "msg" d) key.1 = true) (there : still r key = true) :
    (drain.next d c r).Due d key r ∨
      ∃ pages next keys messages, drain = .reading pages next key.1 keys messages := by
  cases drain with
  | scanning pages cursor messages =>
      left
      simp only [Drain.next, clean]
      exact due_ofPage ((scanned_spec rfl).2 key due) prefixed there
  | reading pages next name keys messages =>
      by_cases same : key.1 = name
      · subst same
        exact Or.inr ⟨pages, next, keys, messages, rfl⟩
      · left
        have later : Coming next keys key := by
          refine due.imp_left fun member => ?_
          exact (List.mem_cons.mp member).resolve_left same
        simp only [Drain.next, clean]
        split
        · exact later
        · exact due_ofPage later prefixed there
  | deleting pages next name data keys messages =>
      left
      simp only [Drain.next, clean]
      exact due_ofPage due prefixed there
  | returned messages => exact due.elim
  | failed e => exact due.elim

/-- A drain takes what it is reading, and goes on to delete it. -/
theorem of_takes {key : String} {data : Bytes} (takes : drain.takes c r = some (key, data)) :
    c.fault = none ∧ r.get? key = some data ∧ ∃ pages next keys messages,
      drain = .reading pages next key keys messages ∧
        drain.next d c r = .deleting pages next key data keys messages := by
  cases drain with
  | reading pages next name keys messages =>
      rw [Drain.takes] at takes
      split at takes
      · rename_i clean
        obtain ⟨data', found, same⟩ := Option.map_eq_some_iff.mp takes
        obtain ⟨rfl, rfl⟩ := Prod.mk.inj same
        exact ⟨clean, found, pages, next, keys, messages, rfl, by
          simp only [Drain.next, clean, found]⟩
      · cases takes
  | _ => cases takes

theorem ofPage_ne_deleting {names : List String} {found : List QueuedMessage} {next : Cursor}
    {n : Nat} {key : String} {data : Bytes} :
    ofPage n next names found ≠ .deleting pages cursor key data keys messages := by
  cases names with
  | nil =>
      rw [ofPage]
      split <;> exact Drain.noConfusion
  | cons name names => exact Drain.noConfusion

theorem takes_of_next {key : String} {data : Bytes}
    (is : drain.next d c r = .deleting pages cursor key data keys messages) :
    drain.takes c r = some (key, data) := by
  cases drain with
  | scanning n next found =>
      rw [Drain.next] at is
      split at is
      · cases is
      · exact absurd is ofPage_ne_deleting
  | reading n next name names found =>
      rw [Drain.next] at is
      split at is
      · cases is
      · rename_i clean
        split at is
        · rename_i value there
          obtain ⟨-, -, rfl, rfl, -, -⟩ := Drain.deleting.inj is
          rw [takes, if_pos clean, there, Option.map_some]
        · exact absurd is ofPage_ne_deleting
  | deleting n next name value names found =>
      rw [Drain.next] at is
      split at is
      · cases is
      · exact absurd is ofPage_ne_deleting
  | returned found => cases is
  | failed e => cases is

theorem of_rest_done {result : Except MessagingError (List QueuedMessage)}
    (done : drain.rest d = .done result) :
    (∃ messages, drain = .returned messages ∧ result = .ok messages) ∨ ∃ e, drain = .failed e := by
  have running {effect : Chance → Redis → Redis}
      {next : Chance → Redis → Program Chance Redis (Except MessagingError (List QueuedMessage))}
      (is : drain.rest d = .step effect next) : False := by
    rw [is] at done
    cases done
  cases drain with
  | scanning pages cursor messages =>
      cases pages with
      | zero => cases done
      | succ pages => exact (running rfl).elim
  | reading pages next key keys messages => exact (running rfl).elim
  | deleting pages next key data keys messages => exact (running rfl).elim
  | returned messages => exact Or.inl ⟨messages, rfl, (Program.done.inj done).symm⟩
  | failed e => exact Or.inr ⟨e, rfl⟩

end

end Drain

end Hysj.Messaging
