import Hysj.Api.Operations

set_option autoImplicit false

/- How long a pending wipe is there. -/
namespace Hysj.Api

open Crypto Shared Messaging Program

/-- Operations in progress on one Redis. -/
abbrev Calls := Pool Chance Redis Operation Answer

abbrev CallEvent := Pool.Event Chance Operation

/-- No command fails in the step. -/
def CallEvent.Clean : CallEvent → Prop
  | .run _ c => c.fault = none
  | _ => True

/-- What is drawn in an event. A step that draws nothing leaves it unused. -/
def CallEvent.draw : CallEvent → Option Uuid
  | .run _ c => some c.uuid
  | _ => none

/-- The wipe is among them, with its command. -/
def Includes (id : Uuid) (request : WipeRequest) (wipes : List PendingWipe) : Prop :=
  ∃ wipe ∈ wipes, wipe.wipeId = id.display ∧ wipe.command = request

section

variable (serde : SerdeJson) (chrono : Chrono)

def Calls.step (p : Calls) : CallEvent → Option Calls :=
  Pool.step (Operation.program serde chrono) (fun n r => r.advance n) p

def Calls.follow (p : Calls) : List CallEvent → Option Calls :=
  Pool.follow (Operation.program serde chrono) (fun n r => r.advance n) p

/-- What `issue_wipe` stores for one device. -/
def wipeBytes (id : Uuid) (request : WipeRequest) (issuedAt : Nat) : Bytes :=
  Json.toVec (PendingWipe.toJson chrono ⟨id.display, request, issuedAt⟩)

/-- The wipe is stored for the device under this serial number, and stays until the time. -/
structure Held (d id : Uuid) (request : WipeRequest) (n until_ : Nat) (r : Redis) : Prop where
  entry : ∃ e issuedAt, r.peek (wipeKey d id.display) = some e ∧
    e.value = wipeBytes chrono id request issuedAt ∧ e.serial = n ∧ ∀ t ∈ e.expiresAt, until_ ≤ t
  soon : until_ ≤ r.now + WIPE_TTL_SECONDS.toNat

/-- The step leaves the wipe alone, or stores it again. -/
def Rewrites (d id : Uuid) (request : WipeRequest) (r r' : Redis) : Prop :=
  Leaves (wipeKey d id.display) r r' ∨ ∃ issuedAt,
    r' = r.set (wipeKey d id.display) (wipeBytes chrono id request issuedAt)
      (some WIPE_TTL_SECONDS.toNat)

end

section

variable {serde : SerdeJson} {chrono : Chrono} {d id : Uuid} {request : WipeRequest}
variable {n until_ : Nat} {r r' : Redis} {op : Operation} {α : Type}

/-- The keys of wipes are touched by `issue_wipe` and `confirm_wipe` only. -/
theorem touches_wipeKey {wipeId : String} (touches : op.Touches (wipeKey d wipeId)) :
    (∃ targets request, op = .issueWipe targets request) ∨ op = .confirmWipe d wipeId := by
  have first := head_of_touches touches
  rw [head_wipeKey] at first
  cases op with
  | issueWipe targets request => exact Or.inl ⟨targets, request, rfl⟩
  | confirmWipe d' wipeId' =>
      obtain ⟨rfl, rfl⟩ := wipeKey_inj.mp touches
      exact Or.inr rfl
  | _ => simp [Operation.initial] at first

/-- A call of `issue_wipe` stores its own command under the id it has drawn. -/
theorem rewrites_issueWipe (targets : List Uuid) :
    Keeps (Rewrites chrono d id request) (issueWipe chrono targets request).run := by
  have idle (r : Redis) : Rewrites chrono d id request r r := Or.inl (leaves_refl _ r)
  refine Keeps.run_bind (Keeps.lift (keeps_act fun _ r => idle r)) fun drawn => ?_
  refine Keeps.run_bind (Keeps.lift (keeps_act fun _ r => idle r)) fun now => ?_
  refine Keeps.run_bind (Keeps.run_forM fun d' _ => ?_) fun _ => keeps_pure _
  apply keeps_command idle
  intro c r
  split
  · exact idle r
  · by_cases same : wipeKey d id.display = wipeKey d' drawn.display
    · obtain ⟨rfl, ids⟩ := wipeKey_inj.mp same
      obtain rfl := Uuid.display_injective ids
      exact Or.inr ⟨now, rfl⟩
    · exact Or.inl (leaves_set same)

/-- As long as it has not drawn the id, it leaves the wipe alone. -/
theorem leaves_issueWipe (targets : List Uuid) :
    KeepsUnder (fun c : Chance => c.uuid ≠ id) (Leaves (wipeKey d id.display))
      (issueWipe chrono targets request).run := by
  unfold issueWipe newV4
  refine keepsUnder_act (fun _ r => leaves_refl _ r) fun c r other => Keeps.under ?_
  refine Keeps.run_bind (Keeps.lift (keeps_act fun _ r => leaves_refl _ r)) fun now => ?_
  refine Keeps.run_bind (Keeps.run_forM fun d' _ => ?_) fun _ => keeps_pure _
  refine leaves_of_changes (changes_setEx fun _ same => ?_)
  exact other (Uuid.display_injective (wipeKey_inj.mp same).2).symm

/-- An operation leaves a wipe alone until it draws its id, unless it confirms it. -/
theorem Operation.leaves_wipe (unconfirmed : op ≠ .confirmWipe d id.display) :
    KeepsUnder (fun c : Chance => c.uuid ≠ id) (Leaves (wipeKey d id.display))
      (op.program serde chrono) := by
  by_cases touches : op.Touches (wipeKey d id.display)
  · rcases touches_wipeKey touches with ⟨targets, request, rfl⟩ | confirms
    · exact (leaves_issueWipe targets).map _
    · exact absurd confirms unconfirmed
  · exact (Operation.leaves touches).under

theorem secures_reading {I : Redis → Prop} {P : α → Prop}
    {f : Chance → Redis → Except String α × Redis}
    (each : ∀ r result r', I r → Runs Clean (command f).run r result r' → r' = r ∧ Gives P result) :
    Secures Clean I (fun _ _ => True) (Gives P) (command f).run := by
  apply secures_act
  intro c r clean holds
  obtain ⟨same, gives⟩ := each r _ _ holds (runs_act.mpr ⟨c, clean, rfl⟩)
  refine ⟨?_, trivial, gives⟩
  rw [same]
  exact holds

theorem secures_scanLoop {β : Type} {I : Redis → Prop} {Good : β → Prop} {pre key : String}
    {page : List String → β → Command β} (prefixed : hasPrefix pre key = true)
    (there : ∀ r, I r → still r (key, n) = true)
    (each : ∀ keys acc, Secures Clean I (fun _ _ => True)
      (Gives fun acc' => Good acc ∨ key ∈ keys → Good acc') (page keys acc).run)
    (pages : Nat) (cursor : Cursor) (acc : β)
    (due : Good acc ∨ ∀ rest, cursor = .owes rest → (key, n) ∈ rest) :
    Secures Clean I (fun _ _ => True) (Gives Good) (scanLoop pre page pages cursor acc).run := by
  induction pages generalizing cursor acc with
  | zero => trivial
  | succ pages ih =>
      have scanned : Secures Clean I (fun _ _ => True)
          (Gives fun answer : Cursor × List String => Good acc ∨ key ∈ answer.2 ∨
            ∃ rest, answer.1 = .owes rest ∧ (key, n) ∈ rest) (scan cursor pre).run := by
        apply secures_reading
        intro r result r' holds run
        obtain ⟨⟨next, keys⟩, rfl⟩ := succeeds_scan cursor pre r result r' run
        obtain ⟨same, -, complete⟩ := runs_scan run
        refine ⟨same, _, rfl, ?_⟩
        rcases due with good | owed
        · exact Or.inl good
        · exact Or.inr (complete (key, n) (mem_owed.mpr ⟨prefixed, there r holds, owed⟩))
      refine Secures.run_bind_gives scanned fun answer answered => ?_
      refine Secures.run_bind_gives (each answer.2 acc) fun acc' seen => ?_
      split
      · rename_i done
        apply secures_run_pure_gives
        rcases answered with good | listed | ⟨rest, more, -⟩
        · exact seen (Or.inl good)
        · exact seen (Or.inr listed)
        · rw [done] at more
          cases more
      · apply ih
        rcases answered with good | listed | ⟨rest, more, later⟩
        · exact Or.inl (seen (Or.inl good))
        · exact Or.inl (seen (Or.inr listed))
        · refine Or.inr fun rest' same => ?_
          rw [← Cursor.owes.inj (more.symm.trans same)]
          exact later

variable (lawful : serde.Lawful) (inverse : chrono.Inverse)

include lawful inverse in
/-- The keys of one answer: the wipe is read where its key is among them. -/
theorem secures_pendingPage (keys : List String) (wipes : List PendingWipe) :
    Secures Clean (Held chrono d id request n until_) (fun _ _ => True)
      (Gives fun wipes' => Includes id request wipes ∨ wipeKey d id.display ∈ keys →
        Includes id request wipes') (pendingPage serde chrono keys wipes).run := by
  induction keys generalizing wipes with
  | nil =>
      apply secures_run_pure_gives
      rintro (included | member)
      · exact included
      · cases member
  | cons key keys ih =>
      have read : Secures Clean (Held chrono d id request n until_) (fun _ _ => True)
          (Gives fun value : Option Bytes => key = wipeKey d id.display →
            ∃ issuedAt, value = some (wipeBytes chrono id request issuedAt)) (get key).run := by
        apply secures_reading
        intro r result r' held run
        obtain ⟨rfl, rfl⟩ := runs_get.mp run
        refine ⟨rfl, _, rfl, ?_⟩
        rintro rfl
        obtain ⟨e, issuedAt, found, value, -⟩ := held.entry
        exact ⟨issuedAt, Store.get?_eq_some.mpr ⟨e, found, value⟩⟩
      refine Secures.run_bind_gives read fun value stored => ?_
      split
      · rename_i wipe readable
        apply Secures.mono (ih (wipes ++ [wipe])) (fun _ _ _ _ => trivial)
        rintro _ ⟨wipes', rfl, seen⟩
        refine ⟨wipes', rfl, ?_⟩
        rintro (⟨old, member, same⟩ | member)
        · exact seen (Or.inl ⟨old, List.mem_append_left _ member, same⟩)
        · rcases List.mem_cons.mp member with same | later
          · obtain ⟨issuedAt, rfl⟩ := stored same.symm
            rw [Option.bind_some, wipeBytes, PendingWipe.fromSlice_toVec lawful inverse] at readable
            obtain rfl := Option.some.inj readable
            exact seen (Or.inl ⟨_, List.mem_append_right _ List.mem_cons_self, rfl, rfl⟩)
          · exact seen (Or.inr later)
      · rename_i unreadable
        apply Secures.mono (ih wipes) (fun _ _ _ _ => trivial)
        rintro _ ⟨wipes', rfl, seen⟩
        refine ⟨wipes', rfl, ?_⟩
        rintro (included | member)
        · exact seen (Or.inl included)
        · rcases List.mem_cons.mp member with same | later
          · obtain ⟨issuedAt, rfl⟩ := stored same.symm
            rw [Option.bind_some, wipeBytes,
              PendingWipe.fromSlice_toVec lawful inverse] at unreadable
            cases unreadable
          · exact seen (Or.inr later)

theorem Held.still (held : Held chrono d id request n until_ r) :
    still r (wipeKey d id.display, n) = true := by
  obtain ⟨e, issuedAt, found, -, serial, -⟩ := held.entry
  simp [Messaging.still, found, serial]

include lawful inverse in
/-- Whatever others do that leave the wipe there, it is among the pending wipes of its device. -/
theorem secures_getPendingWipes (pages : Nat) :
    Secures Clean (Held chrono d id request n until_) (fun _ _ => True)
    (Gives (Includes id request))
      (getPendingWipes serde chrono pages d).run := by
  apply secures_scanLoop (hasPrefix_wipe.mpr ⟨id.display, rfl⟩) (fun r held => held.still)
    (secures_pendingPage lawful inverse)
  right
  intro rest same
  cases same

end

section

variable {serde : SerdeJson} {chrono : Chrono} {d id : Uuid} {request : WipeRequest}
variable {n until_ : Nat} {p p₁ p₂ : Calls} {e : CallEvent} {before after : List CallEvent}

/-- A thread before the wipe is stored: it leaves the wipe alone unless it has drawn its id. -/
structure Innocent (chrono : Chrono) (d id : Uuid) (events : List CallEvent) (j : Nat)
    (thread : Thread Chance Redis Operation Answer) : Prop where
  leaves : thread.call ≠ .confirmWipe d id.display → (∃ c, .run j c ∈ events ∧ c.uuid = id) ∨
    KeepsUnder (fun c : Chance => c.uuid ≠ id) (Leaves (wipeKey d id.display)) thread.rest
  rewrites : ∀ targets request, thread.call = .issueWipe targets request →
    Keeps (Rewrites chrono d id request) thread.rest
  now : Keeps (fun r r' : Redis => r'.now = r.now) thread.rest

/-- A thread while the wipe is there: it leaves the wipe or stores it again, and a call that was
made since reads it. -/
structure Guarded (serde : SerdeJson) (chrono : Chrono) (d id : Uuid) (request : WipeRequest)
    (n until_ since j : Nat) (thread : Thread Chance Redis Operation Answer) : Prop where
  keeps : thread.call ≠ .confirmWipe d id.display →
    KeepsUnder (fun c : Chance => c.uuid ≠ id) (Rewrites chrono d id request) thread.rest
  now : Keeps (fun r r' : Redis => r'.now = r.now) thread.rest
  reads : since ≤ j → ∀ pages, thread.call = .getPendingWipes pages d →
    Secures Clean (Held chrono d id request n until_) (fun _ _ => True)
      (fun answer => ∃ wipes, answer = .wipes (.ok wipes) ∧ Includes id request wipes) thread.rest

theorem innocent_before {r : Redis} (followed : Calls.follow serde chrono ⟨r, []⟩ before = some p) :
    p.Each (Innocent chrono d id before) := by
  apply Pool.follow_keeps followed
  · intro j thread found
    cases found
  · intro e member q q' each stepped
    refine each.step stepped ?_ ?_ ?_
    · exact fun j thread _ innocent => innocent
    · intro call _
      refine ⟨fun unconfirmed => Or.inr (Operation.leaves_wipe unconfirmed), ?_,
        Operation.now serde chrono call⟩
      rintro targets request rfl
      exact (rewrites_issueWipe targets).map _
    · rintro j c call effect next rfl _ innocent
      refine ⟨fun unconfirmed => ?_, fun targets request is =>
        (innocent.rewrites targets request is c _).2, (innocent.now c _).2⟩
      by_cases drawn : c.uuid = id
      · exact Or.inl ⟨c, member, drawn⟩
      · exact (innocent.leaves unconfirmed).imp_right fun keeps => (keeps c _).2 drawn

/-- The call that has drawn the id is the only one, and nothing draws it later. -/
theorem drawn_once {i : Nat} {c : Chance} {later : List CallEvent}
    (once : ((before ++ later).filterMap CallEvent.draw).count id ≤ 1)
    (member : .run i c ∈ before) (drawn : c.uuid = id) :
    (∀ j c', .run j c' ∈ before → c'.uuid = id → j = i) ∧ ∀ e ∈ later, e.draw ≠ some id := by
  rw [List.filterMap_append, List.count_append] at once
  have counts {events : List CallEvent} {e : CallEvent} (member : e ∈ events)
      (drawn : e.draw = some id) : 0 < (events.filterMap CallEvent.draw).count id :=
    List.count_pos_iff.mpr (List.mem_filterMap.mpr ⟨e, member, drawn⟩)
  have draws : CallEvent.draw (.run i c) = some id := congrArg some drawn
  constructor
  · intro j c' member' drawn'
    by_contra other
    obtain ⟨first, last, rfl⟩ := List.append_of_mem member
    rw [List.filterMap_append, List.filterMap_cons_some draws, List.count_append,
      List.count_cons_self] at once
    have draws' : CallEvent.draw (.run j c') = some id := congrArg some drawn'
    rcases List.mem_append.mp member' with listed | listed
    · have positive := counts listed draws'
      omega
    · rcases List.mem_cons.mp listed with same | listed
      · injection same with same
        exact other same
      · have positive := counts listed draws'
        omega
  · intro e listed draws'
    have positive := counts member draws
    have positive' := counts listed draws'
    omega

theorem Held.rewrites {r r' : Redis} (held : Held chrono d id request n until_ r)
    (rewrites : Rewrites chrono d id request r r') : Held chrono d id request n until_ r' := by
  obtain ⟨e, issuedAt, found, value, serial, lasts⟩ := held.entry
  have soon := held.soon
  rcases rewrites with ⟨now, same⟩ | ⟨issuedAt', rfl⟩
  · refine ⟨⟨e, issuedAt, by rw [same, found], value, serial, lasts⟩, ?_⟩
    omega
  · have positive : ∀ ttl ∈ some WIPE_TTL_SECONDS.toNat, 0 < ttl := by decide
    refine ⟨⟨_, issuedAt', Store.peek_set positive, rfl, ?_, ?_⟩, held.soon⟩
    · rw [found]
      exact serial
    · intro t expires
      rw [← Option.some.inj expires]
      exact soon

theorem Held.advance {r : Redis} (held : Held chrono d id request n until_ r) {seconds : Nat}
    (current : r.now + seconds < until_) :
    Held chrono d id request n until_ (r.advance seconds) := by
  obtain ⟨e, issuedAt, found, value, serial, lasts⟩ := held.entry
  have soon := held.soon
  refine ⟨⟨e, issuedAt, Store.peek_advance.mpr ⟨found, fun t expires => ?_⟩,
    value, serial, lasts⟩, ?_⟩
  · have late := lasts t expires
    omega
  · rw [Store.now_advance]
    omega

theorem now_follow (each : p.Each fun _ thread =>
      Keeps (fun r r' : Redis => r'.now = r.now) thread.rest)
    (followed : Calls.follow serde chrono p after = some p₂) : p.state.now ≤ p₂.state.now := by
  induction after generalizing p with
  | nil =>
      obtain rfl := Option.some.inj followed
      exact Nat.le_refl _
  | cons e after ih =>
      obtain ⟨m, stepped, rest⟩ := Pool.follow_cons.mp followed
      have kept :
          m.Each fun _ thread => Keeps (fun r r' : Redis => r'.now = r.now) thread.rest := by
        refine each.step stepped ?_ ?_ ?_
        · exact fun j thread _ keeps => keeps
        · exact fun call _ => Operation.now serde chrono call
        · exact fun j c call effect next _ _ keeps => (keeps c _).2
      refine Nat.le_trans ?_ (ih kept rest)
      cases e with
      | call call =>
          obtain rfl := Option.some.inj stepped
          exact Nat.le_refl _
      | run j c =>
          obtain ⟨call, effect, next, found, rfl⟩ := Pool.step_run.mp stepped
          exact Nat.le_of_eq ((each j _ found) c _).1.symm
      | pass duration =>
          obtain rfl := Option.some.inj stepped
          exact Nat.le_add_right _ _

theorem held_step (lawful : serde.Lawful) (inverse : chrono.Inverse) {m : Calls} {since : Nat}
    (held : Held chrono d id request n until_ p.state)
    (each : p.Each (Guarded serde chrono d id request n until_ since))
    (stepped : Calls.step serde chrono p e = some m) (clean : e.Clean) (undrawn : e.draw ≠ some id)
    (unconfirmed : ∀ j c, e = .run j c → ∀ rest,
      p.threads[j]? ≠ some ⟨.confirmWipe d id.display, rest⟩)
    (current : m.state.now < until_) :
    Held chrono d id request n until_ m.state ∧
      m.Each (Guarded serde chrono d id request n until_ since) := by
  have state : Held chrono d id request n until_ m.state := by
    cases e with
    | call call =>
        obtain rfl := Option.some.inj stepped
        exact held
    | run j c =>
        obtain ⟨call, effect, next, found, rfl⟩ := Pool.step_run.mp stepped
        have runs : call ≠ .confirmWipe d id.display := by
          rintro rfl
          exact unconfirmed j c rfl _ found
        exact held.rewrites (((each j _ found).keeps runs) c _).1
    | pass duration =>
        obtain rfl := Option.some.inj stepped
        exact held.advance current
  refine ⟨state, each.step stepped (fun j thread _ guarded => guarded) ?_ ?_⟩
  · intro call _
    refine ⟨fun unconfirmed => ?_, Operation.now serde chrono call, ?_⟩
    · exact (Operation.leaves_wipe unconfirmed).mono fun _ _ => Or.inl
    · rintro - pages rfl
      exact (secures_getPendingWipes lawful inverse pages).map fun _ ⟨wipes, same, included⟩ =>
        ⟨wipes, congrArg Answer.wipes same, included⟩
  · rintro j c call effect next rfl found guarded
    have other : c.uuid ≠ id := fun same => undrawn (congrArg some same)
    refine ⟨fun runs => (guarded.keeps runs c _).2 other, (guarded.now c _).2, ?_⟩
    intro recent pages is
    exact (guarded.reads recent pages is c _ clean held).2.2

theorem held_follow (lawful : serde.Lawful) (inverse : chrono.Inverse) {since : Nat}
    (held : Held chrono d id request n until_ p.state)
    (each : p.Each (Guarded serde chrono d id request n until_ since))
    (followed : Calls.follow serde chrono p after = some p₂) (clean : ∀ e ∈ after, e.Clean)
    (undrawn : ∀ e ∈ after, e.draw ≠ some id)
    (unconfirmed : ∀ j c, .run j c ∈ after → ∀ rest,
      p₂.threads[j]? ≠ some ⟨.confirmWipe d id.display, rest⟩)
    (current : p₂.state.now < until_) :
    Held chrono d id request n until_ p₂.state ∧
      p₂.Each (Guarded serde chrono d id request n until_ since) := by
  induction after generalizing p with
  | nil =>
      obtain rfl := Option.some.inj followed
      exact ⟨held, each⟩
  | cons e after ih =>
      obtain ⟨m, stepped, rest⟩ := Pool.follow_cons.mp followed
      have clock : m.Each fun _ thread =>
          Keeps (fun r r' : Redis => r'.now = r.now) thread.rest := by
        refine each.step stepped ?_ ?_ ?_
        · exact fun j thread _ guarded => guarded.now
        · exact fun call _ => Operation.now serde chrono call
        · exact fun j c call effect next _ _ guarded => (guarded.now c _).2
      have early := now_follow clock rest
      have confirms : ∀ j c, e = .run j c → ∀ rest,
          p.threads[j]? ≠ some ⟨.confirmWipe d id.display, rest⟩ := by
        rintro j c rfl left found
        obtain ⟨final, there⟩ := Pool.call_follow followed found
        exact unconfirmed j c List.mem_cons_self final there
      obtain ⟨held', each'⟩ := held_step lawful inverse held each stepped
        (clean e List.mem_cons_self) (undrawn e List.mem_cons_self) confirms (by omega)
      exact ih held' each' rest (fun e member => clean e (List.mem_cons_of_mem _ member))
        (fun e member => undrawn e (List.mem_cons_of_mem _ member))
        (fun j c member => unconfirmed j c (List.mem_cons_of_mem _ member))

/-- The call of `issue_wipe` that changes what is stored under the key of a wipe has drawn the id,
and the wipe is stored with its command. -/
theorem held_of_written {i : Nat} {c : Chance} {targets : List Uuid}
    {left : Program Chance Redis Answer}
    (innocent : p.Each (Innocent chrono d id before))
    (issue : p.threads[i]? = some ⟨.issueWipe targets request, left⟩)
    (stores : Calls.step serde chrono p (.run i c) = some p₁)
    (written : p₁.state.peek (wipeKey d id.display) ≠ p.state.peek (wipeKey d id.display)) :
    (∃ c', .run i c' ∈ before ∧ c'.uuid = id) ∧ ∃ n, Held chrono d id request n
      (p₁.state.now + WIPE_TTL_SECONDS.toNat) p₁.state := by
  obtain ⟨call, effect, next, found, rfl⟩ := Pool.step_run.mp stores
  obtain ⟨rfl, rfl⟩ := Thread.mk.inj (Option.some.inj (issue.symm.trans found))
  have thread := innocent i _ found
  constructor
  · rcases thread.leaves (by simp) with drawn | keeps
    · exact drawn
    · exact absurd (keeps c _).1.2 written
  · rcases ((thread.rewrites targets request rfl) c p.state).1 with leaves | ⟨issuedAt, stored⟩
    · exact absurd leaves.2 written
    · have positive : ∀ ttl ∈ some WIPE_TTL_SECONDS.toNat, 0 < ttl := by decide
      have found' : (p.state.set (wipeKey d id.display) (wipeBytes chrono id request issuedAt)
          (some WIPE_TTL_SECONDS.toNat)).peek (wipeKey d id.display) = _ := Store.peek_set positive
      rw [← stored] at found'
      refine ⟨_, ⟨_, issuedAt, found', rfl, rfl, ?_⟩, Nat.le_refl _⟩
      intro t expires
      have same : p.state.now + WIPE_TTL_SECONDS.toNat = t := Option.some.inj expires
      rw [← same, stored]
      exact Nat.le_refl _

/-- Right after the wipe is stored every thread is guarded, if no other has drawn its id. -/
theorem guarded_of_innocent {i : Nat} {c : Chance} {targets : List Uuid}
    {left : Program Chance Redis Answer} {n until_ : Nat}
    (innocent : p.Each (Innocent chrono d id before))
    (issue : p.threads[i]? = some ⟨.issueWipe targets request, left⟩)
    (stores : Calls.step serde chrono p (.run i c) = some p₁)
    (alone : ∀ j c', .run j c' ∈ before → c'.uuid = id → j = i) :
    p₁.Each (Guarded serde chrono d id request n until_ p₁.threads.length) := by
  have old : p₁.Each fun _ thread => (thread.call ≠ .confirmWipe d id.display →
        KeepsUnder (fun c : Chance => c.uuid ≠ id) (Rewrites chrono d id request) thread.rest) ∧
      Keeps (fun r r' : Redis => r'.now = r.now) thread.rest := by
    refine innocent.step stores ?_ ?_ ?_
    · intro j thread other innocent
      refine ⟨fun unconfirmed => ?_, innocent.now⟩
      rcases innocent.leaves unconfirmed with ⟨c', ran, drawn⟩ | keeps
      · exact absurd (congrArg (fun k => Pool.Event.run k c) (alone j c' ran drawn).symm) (other c)
      · exact keeps.mono fun _ _ => Or.inl
    · intro call other
      cases other
    · rintro j c' call effect next same found innocent
      injection same with same _
      subst same
      obtain ⟨rfl, rfl⟩ := Thread.mk.inj (Option.some.inj (issue.symm.trans found))
      exact ⟨fun _ => ((innocent.rewrites targets request rfl) c' _).2.under,
        (innocent.now c' _).2⟩
  intro j thread found
  have inside := (List.getElem?_eq_some_iff.mp found).1
  exact ⟨(old j thread found).1, (old j thread found).2, fun recent => by omega⟩

/-- From the step of `issue_wipe` that stores a wipe for a device until the wipe is confirmed or its
lifetime is over, every call of `get_pending_wipes` returns it with its command, whatever else is
called and in whatever order the steps are taken. -/
theorem pending_until_confirmed {serde : SerdeJson} (lawful : serde.Lawful) {chrono : Chrono}
    (inverse : chrono.Inverse) {r : Redis} {before after : List CallEvent} {i : Nat} {c : Chance}
    {p p₁ p₂ : Calls} {targets : List Uuid} {request : WipeRequest}
    {left : Program Chance Redis Answer} {d id : Uuid}
    (reached : Calls.follow serde chrono ⟨r, []⟩ before = some p)
    (issue : p.threads[i]? = some ⟨.issueWipe targets request, left⟩)
    (stores : Calls.step serde chrono p (.run i c) = some p₁)
    (written : p₁.state.peek (wipeKey d id.display) ≠ p.state.peek (wipeKey d id.display))
    (followed : Calls.follow serde chrono p₁ after = some p₂)
    (clean : ∀ e ∈ before ++ .run i c :: after, e.Clean)
    (once : ((before ++ .run i c :: after).filterMap CallEvent.draw).count id ≤ 1)
    (unconfirmed : ∀ j c', .run j c' ∈ after → ∀ rest,
      p₂.threads[j]? ≠ some ⟨.confirmWipe d id.display, rest⟩)
    (current : p₂.state.now < p₁.state.now + WIPE_TTL_SECONDS.toNat) :
    (∀ j pages answer, p₁.threads.length ≤ j →
      p₂.threads[j]? = some ⟨.getPendingWipes pages d, .done answer⟩ →
      ∃ wipes, answer = .wipes (.ok wipes) ∧ Includes id request wipes) ∧
    ∃ wipes r', Runs Clean (getPendingWipes serde chrono 1 d).run p₂.state (.ok wipes) r' ∧
      Includes id request wipes := by
  have innocent : p.Each (Innocent chrono d id before) := innocent_before reached
  obtain ⟨⟨c', ran, drawn⟩, n, held⟩ := held_of_written innocent issue stores written
  obtain ⟨alone, undrawn⟩ := drawn_once once ran drawn
  have guarded : p₁.Each (Guarded serde chrono d id request n
      (p₁.state.now + WIPE_TTL_SECONDS.toNat) p₁.threads.length) :=
    guarded_of_innocent innocent issue stores alone
  obtain ⟨held', guarded'⟩ := held_follow lawful inverse held guarded followed
    (fun e member => clean e (List.mem_append_right _ (List.mem_cons_of_mem _ member)))
    (fun e member => undrawn e (List.mem_cons_of_mem _ member)) unconfirmed current
  constructor
  · intro j pages answer recent found
    exact (guarded' j _ found).reads recent pages rfl
  · have total : Total Clean (getPendingWipes serde chrono 1 d).run :=
      total_scanLoop total_pendingPage .zero []
    obtain ⟨outcome, r', run⟩ := total p₂.state
    obtain ⟨-, -, wipes, rfl, included⟩ := run.secures
      (secures_getPendingWipes lawful inverse 1) held' (fun _ => trivial)
      (fun _ _ _ _ _ => trivial)
    exact ⟨wipes, r', run, included⟩

/-- A wipe of one device, up to the step that stores it. -/
def issuing : List CallEvent :=
  [.call (.issueWipe [.replicate 16 7] ⟨.all, none, none⟩),
    .run 0 { uuid := .replicate 16 1 }, .run 0 {}]

/-- A confirmation of another wipe, and a minute. -/
def aMinute : List CallEvent := [.call (.confirmWipe (.replicate 16 7) "1"), .run 1 {}, .pass 60]

theorem pending_until_confirmed_minute : ∃ (p₂ : Calls) (wipes : List PendingWipe) (r' : Redis),
    Calls.follow .sample .sample ⟨.empty 0, []⟩ (issuing ++ .run 0 {} :: aMinute) = some p₂ ∧
      p₂.state.now = 60 ∧
      Runs Clean (getPendingWipes .sample .sample 1 (.replicate 16 7)).run p₂.state (.ok wipes) r' ∧
      Includes (.replicate 16 1) ⟨.all, none, none⟩ wipes := by
  obtain ⟨p, left, reached, issue, absent, p₁, stores, stored, p₂, followed, now, calls⟩ :
      ∃ p left, Calls.follow .sample .sample ⟨.empty 0, []⟩ issuing = some p ∧
        p.threads[0]? = some ⟨.issueWipe [.replicate 16 7] ⟨.all, none, none⟩, left⟩ ∧
        p.state.peek (wipeKey (.replicate 16 7) (Uuid.display (.replicate 16 1))) = none ∧
        ∃ p₁, Calls.step .sample .sample p (.run 0 {}) = some p₁ ∧
          (p₁.state.now = 0 ∧
            p₁.state.peek (wipeKey (.replicate 16 7) (Uuid.display (.replicate 16 1))) ≠ none) ∧
          ∃ p₂, Calls.follow .sample .sample p₁ aMinute = some p₂ ∧ p₂.state.now = 60 ∧
            p₂.threads.map Thread.call =
              [.issueWipe [.replicate 16 7] ⟨.all, none, none⟩,
                .confirmWipe (.replicate 16 7) "1"] := by
    refine ⟨_, _, rfl, rfl, rfl, _, rfl, ⟨rfl, ?_⟩, _, rfl, rfl, rfl⟩
    have positive : ∀ ttl ∈ some WIPE_TTL_SECONDS.toNat, 0 < ttl := by decide
    exact Option.ne_none_iff_exists'.mpr ⟨_, Store.peek_set positive⟩
  have clean : ∀ e ∈ issuing ++ .run 0 {} :: aMinute, e.Clean := by
    simp [issuing, aMinute, CallEvent.Clean]
  have once : ((issuing ++ .run 0 {} :: aMinute).filterMap CallEvent.draw).count
      (.replicate 16 1) ≤ 1 := by decide
  have written : p₁.state.peek (wipeKey (.replicate 16 7) (Uuid.display (.replicate 16 1))) ≠
      p.state.peek (wipeKey (.replicate 16 7) (Uuid.display (.replicate 16 1))) := by
    rw [absent]
    exact stored.2
  have unconfirmed : ∀ j c', .run j c' ∈ aMinute → ∀ rest, p₂.threads[j]? ≠
      some ⟨.confirmWipe (.replicate 16 7) (Uuid.display (.replicate 16 1)), rest⟩ := by
    intro j c' member rest found
    have call : (p₂.threads.map Thread.call)[j]? =
        some (.confirmWipe (.replicate 16 7) (Uuid.display (.replicate 16 1))) := by
      rw [List.getElem?_map, found]
      rfl
    obtain ⟨rfl, -⟩ : j = 1 ∧ c' = {} := by simpa [aMinute] using member
    rw [calls] at call
    injection Option.some.inj call with _ same
    have lengths := congrArg (fun text => text.toList.length) same
    simp at lengths
  have current : p₂.state.now < p₁.state.now + WIPE_TTL_SECONDS.toNat := by
    rw [now, stored.1]
    decide
  obtain ⟨-, wipes, r', run, included⟩ := pending_until_confirmed SerdeJson.sample_lawful
    Chrono.sample_inverse reached issue stores written followed clean once unconfirmed current
  refine ⟨p₂, wipes, r', ?_, now, run, included⟩
  have reached' : Pool.follow (Operation.program .sample .sample) (fun n r => r.advance n)
      ⟨.empty 0, []⟩ issuing = some p := reached
  rw [Calls.follow, Pool.follow_append, reached', Option.bind_some]
  exact Pool.follow_cons.mpr ⟨p₁, stores, followed⟩

end

end Hysj.Api
