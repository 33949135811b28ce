import Hysj.Api.Durability

set_option autoImplicit false

/- Which stored code or token is accepted by which call, in any order of the commands. -/
namespace Hysj.Api

open Crypto Shared Messaging Program

/-- The key under which the operation stores a code or a token. A lifetime of zero stores nothing.
-/
def Operation.stores : Operation → Option String
  | .storeOtp phone _ ttl => if ttl = 0 then none else some (otpKey phone)
  | .storeVerificationToken token _ ttl => if ttl = 0 then none else some (verifiedKey token)
  | _ => none

/-- The key from which the operation takes a code or a token. -/
def Operation.takes : Operation → Option String
  | .verifyOtp phone _ => some (otpKey phone)
  | .validateVerificationToken token => some (verifiedKey token)
  | _ => none

/-- The stored text is one that the operation accepts. -/
def Operation.wants : Operation → String → Bool
  | .verifyOtp _ code, text => text = code
  | _, _ => true

/-- `verify_otp` has returned true, or `validate_verification_token` a phone number. -/
def Answer.accepts : Answer → Bool
  | .flag (.ok true) => true
  | .found (.ok (some _)) => true
  | _ => false

/-- The text under a key, if it can be read. -/
def textAt (r : Redis) (key : String) : Option String := (r.get? key).bind Utf8.fromUtf8

/-- The calls, with the call that stored what was last written under a key, and for each call that
has looked which call had stored what it found. `none` stands for a value that was there before. -/
structure Attributed where
  calls : Calls
  author : String → Option Nat
  source : Nat → Option (Option Nat)

namespace Attributed

/-- What is recorded of an event. -/
def after (a : Attributed) (e : CallEvent) (p' : Calls) : Attributed :=
  match e with
  | .run j c =>
      match a.calls.threads[j]? with
      | some thread =>
          { calls := p'
            author :=
              match thread.call.stores with
              | some key =>
                  if c.fault = none then Function.update a.author key (some j) else a.author
              | none => a.author
            source :=
              match thread.call.takes with
              | some key =>
                  if a.source j = none then Function.update a.source j
                  (some (a.author key)) else a.source
              | none => a.source }
      | none => { a with calls := p' }
  | _ => { a with calls := p' }

def start (r : Redis) : Attributed := ⟨⟨r, []⟩, fun _ => none, fun _ => none⟩

/-- The call with its operation and what is left to do. -/
abbrev At (a : Attributed) (j : Nat) (op : Operation) (rest : Program Chance Redis Answer) : Prop :=
  a.calls.threads[j]? = some ⟨op, rest⟩

/-- A call that looked under the key and found what this call had stored. -/
def Looked (a : Attributed) (j : Nat) (key : String) (x : Option Nat)
    (rest : Program Chance Redis Answer) : Prop :=
  ∃ op, a.At j op rest ∧ op.takes = some key ∧ a.source j = some x

/-- The call has accepted what this call had stored under the key. -/
def Accepted (a : Attributed) (j : Nat) (key : String) (x : Option Nat) : Prop :=
  ∃ answer, a.Looked j key x (.done answer) ∧ answer.accepts = true

/-- The call has found what this call had stored under the key, and has still to delete it. -/
def Pending (a : Attributed) (j : Nat) (key : String) (x : Option Nat) : Prop :=
  ∃ effect next, a.Looked j key x (.step effect next)

/-- No stored value is accepted twice. -/
def OneTime (a : Attributed) : Prop :=
  ∀ i j key x, a.Accepted i key x → a.Accepted j key x → i = j

/-- Where a call finds the code it was called with, no other call has found the same stored code and
has still to delete it. -/
def Exclusive (a : Attributed) : CallEvent → Prop
  | .run j _ => ∀ op rest key text, a.At j op rest → op.takes = some key →
      a.source j = none → textAt a.calls.state key = some text → op.wants text = true →
      ∀ i, ¬ a.Pending i key (a.author key)
  | _ => True

section

variable (serde : SerdeJson) (chrono : Chrono)

/-- Events one after the other, each with what was true before it. -/
inductive Reached (meets : Attributed → CallEvent → Prop) (r : Redis) : Attributed → Prop where
  | start : Reached meets r (start r)
  | event {a : Attributed} {p' : Calls} {e : CallEvent} (before : Reached meets r a)
      (met : meets a e) (stepped : Calls.step serde chrono a.calls e = some p') :
      Reached meets r (a.after e p')

end

end Attributed

section

variable {serde : SerdeJson} {chrono : Chrono} {key : String} {op : Operation}

/-- The next step deletes the key, and nothing follows; it is accepted only if it did. -/
def Deletes (key : String) (rest : Program Chance Redis Answer) : Prop :=
  ∃ effect next, rest = .step effect next ∧ ∀ c r, ∃ answer, next c r = .done answer ∧
    (effect c r = r.del key ∨ effect c r = r ∧ answer.accepts = false)

/-- The next step looks under the key; if it finds a text that is wanted it is deleted next. -/
def Looks (key : String) (wants : String → Bool) (rest : Program Chance Redis Answer) : Prop :=
  ∃ effect next, rest = .step effect next ∧ ∀ c r, effect c r = r ∧
    ((∃ text, textAt r key = some text ∧ wants text = true ∧ Deletes key (next c r)) ∨
      ∃ answer, next c r = .done answer ∧ answer.accepts = false)

/-- The next step stores something under the key, unless it fails, and nothing follows. -/
def StoresAt (key : String) (rest : Program Chance Redis Answer) : Prop :=
  ∃ effect next, rest = .step effect next ∧ ∀ c r, (c.fault = none ∨ effect c r = r) ∧
    ((∃ value ttl, effect c r = r.set key value ttl) ∨ effect c r = r) ∧
      ∃ answer, next c r = .done answer

/-- The first step of a function that begins with a command, and what it goes on with. -/
theorem command_steps {α β : Type} (f : Chance → Redis → Except String α × Redis)
    (k : α → Command β) (wrap : Except MessagingError β → Answer) :
    ∃ effect next, wrap <$> (command f >>= k).run = .step effect next ∧ ∀ c r,
      (∀ e, c.fault = some e → effect c r = r ∧ next c r = .done (wrap (.error (.redisError e)))) ∧
      (c.fault = none → effect c r = (f c r).2 ∧
        (∀ e, (f c r).1 = .error e → next c r = .done (wrap (.error (.redisError e)))) ∧
        ∀ a, (f c r).1 = .ok a → next c r = wrap <$> (k a).run) := by
  refine ⟨_, _, rfl, fun c r => ⟨fun e fault => ?_, fun clean => ?_⟩⟩
  · simp only [fault]
    exact ⟨trivial, rfl⟩
  · simp only [clean]
    refine ⟨trivial, fun e failed => ?_, fun a answered => ?_⟩
    · rw [failed]
      rfl
    · rw [answered]
      rfl

theorem deletes_del (key : String) {α : Type} (a : α) (wrap : Except MessagingError α → Answer)
    (refuses : ∀ e, (wrap (.error e)).accepts = false) :
    Deletes key (wrap <$> (del key >>= fun _ => (pure a : Command α)).run) := by
  obtain ⟨effect, next, same, steps⟩ := command_steps
    (fun _ r => (.ok (if (r.get? key).isSome then 1 else 0), r.del key))
    (fun _ : Nat => (pure a : Command α)) wrap
  refine ⟨effect, next, same, fun c r => ?_⟩
  cases fault : c.fault with
  | none =>
      obtain ⟨state, -, goes⟩ := (steps c r).2 fault
      exact ⟨_, goes _ rfl, Or.inl state⟩
  | some e =>
      obtain ⟨state, stops⟩ := (steps c r).1 e fault
      exact ⟨_, stops, Or.inr ⟨state, refuses _⟩⟩

/-- A function that reads a text under a key, and goes on with what it finds. -/
theorem looks_getText {α : Type} {wants : String → Bool} (k : Option String → Command α)
    (wrap : Except MessagingError α → Answer) (refuses : ∀ e, (wrap (.error e)).accepts = false)
    (missing : ∃ answer, wrap <$> (k none).run = .done answer ∧ answer.accepts = false)
    (found : ∀ text, (wants text = true ∧ Deletes key (wrap <$> (k (some text)).run)) ∨
      ∃ answer, wrap <$> (k (some text)).run = .done answer ∧ answer.accepts = false) :
    Looks key wants (wrap <$> (getText key >>= k).run) := by
  obtain ⟨f, is, answers⟩ := getText_eq key
  obtain ⟨effect, next, same, steps⟩ := command_steps f k wrap
  rw [is]
  refine ⟨effect, next, same, fun c r => ?_⟩
  cases fault : c.fault with
  | some e =>
      obtain ⟨state, stops⟩ := (steps c r).1 e fault
      exact ⟨state, Or.inr ⟨_, stops, refuses _⟩⟩
  | none =>
      obtain ⟨state, stops, goes⟩ := (steps c r).2 fault
      obtain ⟨reads, absent, there⟩ := answers c r
      refine ⟨state.trans reads, ?_⟩
      unfold textAt
      cases value : r.get? key with
      | none =>
          rw [goes _ (absent value)]
          exact Or.inr missing
      | some bytes =>
          obtain ⟨texts, others⟩ := there bytes value
          cases read : Utf8.fromUtf8 bytes with
          | none =>
              obtain ⟨e, failed⟩ := others read
              exact Or.inr ⟨_, stops e failed, refuses _⟩
          | some text =>
              rw [goes _ (texts text read), Option.bind_some, read]
              exact (found text).imp_left fun ⟨wanted, deletes⟩ => ⟨text, rfl, wanted, deletes⟩

/-- A call that takes a code or a token begins by looking for it. -/
theorem looks_program (takes : op.takes = some key) :
    Looks key op.wants (op.program serde chrono) := by
  cases op with
  | verifyOtp phone code =>
      obtain rfl := Option.some.inj takes
      apply looks_getText
      · exact fun e => rfl
      · exact ⟨_, rfl, rfl⟩
      · intro text
        by_cases same : text = code
        · simp only [if_pos same]
          exact Or.inl ⟨decide_eq_true same, deletes_del _ true .flag fun e => rfl⟩
        · simp only [if_neg same]
          exact Or.inr ⟨_, rfl, rfl⟩
  | validateVerificationToken token =>
      obtain rfl := Option.some.inj takes
      apply looks_getText
      · exact fun e => rfl
      · exact ⟨_, rfl, rfl⟩
      · exact fun text => Or.inl ⟨rfl, deletes_del _ (some text) .found fun e => rfl⟩
  | _ => cases takes

theorem stores_program (stores : op.stores = some key) :
    StoresAt key (op.program serde chrono) := by
  have single (value : String) (ttl : UInt64) (lasts : ttl ≠ 0) :
      StoresAt key (Answer.unit <$> (setText key value ttl).run) := by
    refine ⟨_, _, rfl, fun c r => ?_⟩
    cases fault : c.fault with
    | none =>
        simp only [fault, if_neg lasts]
        exact ⟨Or.inl trivial, Or.inl ⟨_, _, rfl⟩, _, rfl⟩
    | some e =>
        simp only [fault]
        exact ⟨Or.inr trivial, Or.inr trivial, _, rfl⟩
  cases op with
  | storeOtp phone code ttl =>
      by_cases lasts : ttl = 0
      · simp [Operation.stores, lasts] at stores
      · obtain rfl : otpKey phone = key := by simpa [Operation.stores, lasts] using stores
        exact single code ttl lasts
  | storeVerificationToken token phone ttl =>
      by_cases lasts : ttl = 0
      · simp [Operation.stores, lasts] at stores
      · obtain rfl : verifiedKey token = key := by simpa [Operation.stores, lasts] using stores
        exact single phone ttl lasts
  | _ => cases stores

theorem stores_of_takes (takes : op.takes = some key) : op.stores = none := by
  cases op with
  | verifyOtp phone code => rfl
  | validateVerificationToken token => rfl
  | _ => cases takes

/-- Some operation takes codes or tokens from the key. -/
def IsCode (key : String) : Prop := ∃ op : Operation, op.takes = some key

theorem head_of_isCode (code : IsCode key) : key.toList.head? = some 'o' := by
  obtain ⟨op, takes⟩ := code
  cases op with
  | verifyOtp phone code =>
      obtain rfl := Option.some.inj takes
      exact head_otpKey phone
  | validateVerificationToken token =>
      obtain rfl := Option.some.inj takes
      exact head_verifiedKey token
  | _ => cases takes

/-- The key of a code or a token is left alone by all calls that neither take nor store it. -/
theorem leaves_code (code : IsCode key) (takes : op.takes ≠ some key)
    (stores : op.stores ≠ some key) :
    Keeps (Leaves key) (op.program serde chrono) := by
  have zero (name value : String) :
      Keeps (Leaves key) (Answer.unit <$> (setText name value 0).run) :=
    Keeps.map (leaves_read fun _ _ => rfl) _
  by_cases touches : op.Touches key
  · have first := head_of_touches touches
    rw [head_of_isCode code] at first
    cases op with
    | verifyOtp phone _ => exact absurd (congrArg some touches.symm) takes
    | validateVerificationToken token => exact absurd (congrArg some touches.symm) takes
    | storeOtp phone text ttl =>
        by_cases lasts : ttl = 0
        · subst lasts
          exact zero _ text
        · refine absurd ?_ stores
          simpa [Operation.stores, lasts] using Eq.symm touches
    | storeVerificationToken token text ttl =>
        by_cases lasts : ttl = 0
        · subst lasts
          exact zero _ text
        · refine absurd ?_ stores
          simpa [Operation.stores, lasts] using Eq.symm touches
    | _ => simp [Operation.initial] at first
  · exact Operation.leaves touches

end

namespace Attributed

section

variable {serde : SerdeJson} {chrono : Chrono} {a : Attributed} {p' : Calls} {e : CallEvent}
variable {j : Nat} {c : Chance} {key : String} {op : Operation} {rest : Program Chance Redis Answer}

/-- The call has found what this call had stored, and has accepted it or has still to delete it. -/
def Takes (a : Attributed) (j : Nat) (key : String) (x : Option Nat) : Prop :=
  a.Accepted j key x ∨ a.Pending j key x

/-- What is known of each thread, and of what it has found. -/
structure Sound (a : Attributed) : Prop where
  taking : ∀ j op rest key, a.At j op rest → op.takes = some key →
    (a.source j = none ∧ Looks key op.wants rest) ∨
      ∃ x, a.source j = some x ∧ (Deletes key rest ∨ ∃ answer, rest = .done answer)
  storing : ∀ j op rest key, a.At j op rest → op.stores = some key →
    (StoresAt key rest ∧ (∀ name, a.author name ≠ some j) ∧ ∀ i, a.source i ≠ some (some j)) ∨
      ∃ answer, rest = .done answer
  leaving : ∀ j op rest key, a.At j op rest → IsCode key →
    op.takes ≠ some key → op.stores ≠ some key → Keeps (Leaves key) rest
  authors : ∀ name j, a.author name = some j → j < a.calls.threads.length
  sources : ∀ i x, a.source i = some x → i < a.calls.threads.length ∧
    ∀ j, x = some j → j < a.calls.threads.length
  spent : ∀ j key, a.Accepted j key (a.author key) → a.calls.state.peek key = none
  single : ∀ i j key x, a.Takes i key x → a.Takes j key x → i = j

theorem Looked.isCode {x : Option Nat} (looked : a.Looked j key x rest) : IsCode key := by
  obtain ⟨op, -, takes, -⟩ := looked
  exact ⟨op, takes⟩

theorem after_takes (found : a.At j op rest) (takes : op.takes = some key)
    (unread : a.source j = none) : a.after (.run j c) p' =
      ⟨p', a.author, Function.update a.source j (some (a.author key))⟩ := by
  simp [after, found, stores_of_takes takes, takes, unread]

theorem after_took (found : a.At j op rest) (takes : op.takes = some key)
    {x : Option Nat} (read : a.source j = some x) :
    a.after (.run j c) p' = ⟨p', a.author, a.source⟩ := by
  simp [after, found, stores_of_takes takes, takes, read]

theorem after_stores (found : a.At j op rest) (takes : op.takes = none)
    (stores : op.stores = some key) : a.after (.run j c) p' =
      ⟨p', if c.fault = none then Function.update a.author key
      (some j) else a.author, a.source⟩ := by
  simp [after, found, stores, takes]

theorem after_other (found : a.At j op rest) (takes : op.takes = none)
    (stores : op.stores = none) : a.after (.run j c) p' = ⟨p', a.author, a.source⟩ := by
  simp [after, found, stores, takes]

theorem sound_start (r : Redis) : (start r).Sound where
  taking j op rest key found := by cases found
  storing j op rest key found := by cases found
  leaving j op rest key found := by cases found
  authors name j known := by cases known
  sources i x known := by cases known
  spent j key accepted := by
    obtain ⟨answer, ⟨op, found, -⟩, -⟩ := accepted
    cases found
  single i j key x taken := by
    rcases taken with ⟨answer, ⟨op, found, -⟩, -⟩ | ⟨effect, next, op, found, -⟩
    · cases found
    · cases found

theorem Takes.of_looked {a' : Attributed} {x : Option Nat}
    (looked : ∀ rest, a'.Looked j key x rest → a.Looked j key x rest) (takes : a'.Takes j key x) :
    a.Takes j key x := by
  rcases takes with ⟨answer, was, accepts⟩ | ⟨effect, next, was⟩
  · exact Or.inl ⟨answer, looked _ was, accepts⟩
  · exact Or.inr ⟨effect, next, looked _ was⟩

theorem Sound.call (sound : a.Sound) (op : Operation) :
    Sound ⟨⟨a.calls.state, a.calls.threads ++ [⟨op, op.program serde chrono⟩]⟩,
    a.author, a.source⟩ := by
  have unread : a.source a.calls.threads.length = none := by
    by_contra read
    obtain ⟨x, is⟩ := Option.ne_none_iff_exists'.mp read
    have inside := (sound.sources _ x is).1
    omega
  have looked {i : Nat} {key : String} {x : Option Nat} (rest : Program Chance Redis Answer)
      (was : Looked ⟨⟨a.calls.state, a.calls.threads ++ [⟨op, op.program serde chrono⟩]⟩,
        a.author, a.source⟩ i key x rest) : a.Looked i key x rest := by
    obtain ⟨op', found, takes, read⟩ := was
    rcases of_getElem?_append found with there | ⟨rfl, -⟩
    · exact ⟨op', there, takes, read⟩
    · rw [unread] at read
      cases read
  constructor
  · intro i op' rest key found takes
    rcases of_getElem?_append found with there | ⟨rfl, new⟩
    · exact sound.taking i op' rest key there takes
    · obtain ⟨rfl, rfl⟩ := Thread.mk.inj new
      exact Or.inl ⟨unread, looks_program takes⟩
  · intro i op' rest key found stores
    rcases of_getElem?_append found with there | ⟨rfl, new⟩
    · exact sound.storing i op' rest key there stores
    · obtain ⟨rfl, rfl⟩ := Thread.mk.inj new
      refine Or.inl ⟨stores_program stores, fun name known => ?_, fun i known => ?_⟩
      · have inside := sound.authors name _ known
        omega
      · have inside := (sound.sources i _ known).2 _ rfl
        omega
  · intro i op' rest key found code takes stores
    rcases of_getElem?_append found with there | ⟨rfl, new⟩
    · exact sound.leaving i op' rest key there code takes stores
    · obtain ⟨rfl, rfl⟩ := Thread.mk.inj new
      exact leaves_code code takes stores
  · intro name i known
    have inside := sound.authors name i known
    rw [List.length_append]
    omega
  · intro i x known
    obtain ⟨inside, others⟩ := sound.sources i x known
    simp only [List.length_append]
    refine ⟨by omega, fun k is => ?_⟩
    have inside' := others k is
    omega
  · rintro i key ⟨answer, was, accepts⟩
    exact sound.spent i key ⟨answer, looked _ was, accepts⟩
  · intro i k key x takes takes'
    exact sound.single i k key x (takes.of_looked fun _ => looked _)
      (takes'.of_looked fun _ => looked _)

theorem Sound.pass (sound : a.Sound) (seconds : Nat) :
    Sound ⟨⟨a.calls.state.advance seconds, a.calls.threads⟩, a.author, a.source⟩ where
  taking := sound.taking
  storing := sound.storing
  leaving := sound.leaving
  authors := sound.authors
  sources := sound.sources
  spent i key accepted := by
    have gone := sound.spent i key accepted
    by_contra there
    obtain ⟨entry, found⟩ := Option.ne_none_iff_exists'.mp there
    rw [(Store.peek_advance.mp found).1] at gone
    cases gone
  single := sound.single

theorem Sound.run {effect : Chance → Redis → Redis}
    {next : Chance → Redis → Program Chance Redis Answer}
    {a' : Attributed} (sound : a.Sound) (found : a.At j op (.step effect next))
    (threads : a'.calls.threads = a.calls.threads.set j ⟨op, next c a.calls.state⟩)
    (others : ∀ i, i ≠ j → a'.source i = a.source i)
    (taking : ∀ key, op.takes = some key → ∃ x, a'.source j = some x ∧
      (Deletes key (next c a.calls.state) ∨ ∃ answer, next c a.calls.state = .done answer))
    (storing : ∀ key, op.stores = some key → ∃ answer, next c a.calls.state = .done answer)
    (author : ∀ name, a'.author name = a.author name ∨ a'.author name = some j)
    (source : ∀ x, a'.source j = some x → a.source j = some x ∨ ∃ name, x = a.author name)
    (spent : ∀ i key, a'.Accepted i key (a'.author key) → a'.calls.state.peek key = none)
    (single : ∀ i k key x, a'.Takes i key x → a'.Takes k key x → i = k) : a'.Sound := by
  have inside := (List.getElem?_eq_some_iff.mp found).1
  have thread {i : Nat} {op' : Operation} {rest : Program Chance Redis Answer}
      (is : a'.At i op' rest) :
      i = j ∧ op' = op ∧ rest = next c a.calls.state ∨ i ≠ j ∧ a.At i op' rest := by
    rw [At, threads] at is
    rcases of_getElem?_set is with ⟨same, mine⟩ | other
    · obtain ⟨rfl, rfl⟩ := Thread.mk.inj mine
      exact Or.inl ⟨same, rfl, rfl⟩
    · exact Or.inr other
  constructor
  · intro i op' rest key is takes
    rcases thread is with ⟨rfl, rfl, rfl⟩ | ⟨other, there⟩
    · exact Or.inr (taking key takes)
    · rw [others i other]
      exact sound.taking i op' rest key there takes
  · intro i op' rest key is stores
    rcases thread is with ⟨rfl, rfl, rfl⟩ | ⟨other, there⟩
    · exact Or.inr (storing key stores)
    · refine (sound.storing i op' rest key there stores).imp_left ?_
      rintro ⟨first, unknown, unseen⟩
      refine ⟨first, fun name known => ?_, fun k seen => ?_⟩
      · rcases author name with same | mine
        · exact unknown name (same.symm.trans known)
        · exact other (Option.some.inj (known.symm.trans mine))
      · by_cases same : k = j
        · subst same
          rcases source _ seen with before | ⟨name, known⟩
          · exact unseen k before
          · exact unknown name known.symm
        · exact unseen k ((others k same).symm.trans seen)
  · intro i op' rest key is code takes stores
    rcases thread is with ⟨rfl, rfl, rfl⟩ | ⟨other, there⟩
    · exact (sound.leaving i op' _ key found code takes stores c _).2
    · exact sound.leaving i op' rest key there code takes stores
  · intro name i known
    rw [threads, List.length_set]
    rcases author name with same | mine
    · exact sound.authors name i (same.symm.trans known)
    · rw [← Option.some.inj (mine.symm.trans known)]
      exact inside
  · intro i x known
    rw [threads, List.length_set]
    by_cases same : i = j
    · subst same
      refine ⟨inside, fun k is => ?_⟩
      rcases source x known with before | ⟨name, stored⟩
      · exact (sound.sources i x before).2 k is
      · exact sound.authors name k (stored.symm.trans is)
    · exact sound.sources i x ((others i same).symm.trans known)
  · exact spent
  · exact single

section

variable {effect : Chance → Redis → Redis} {next : Chance → Redis → Program Chance Redis Answer}
variable {author : String → Option Nat} {state : Redis}

/-- The calls after a step of the call. -/
abbrev moved (a : Attributed) (j : Nat) (op : Operation) (rest : Program Chance Redis Answer)
    (state : Redis) : Calls := ⟨state, a.calls.threads.set j ⟨op, rest⟩⟩

theorem of_looked_moved {source : Nat → Option (Option Nat)} {i : Nat} {x : Option Nat}
    {left : Program Chance Redis Answer} {name : String}
    (looked : Looked ⟨moved a j op rest state, author, source⟩ i name x left) :
    i = j ∧ op.takes = some name ∧ source i = some x ∧ left = rest ∨
      i ≠ j ∧ ∃ op', a.At i op' left ∧ op'.takes = some name ∧ source i = some x := by
  obtain ⟨op', found, takes, read⟩ := looked
  rcases of_getElem?_set found with ⟨same, mine⟩ | ⟨other, there⟩
  · obtain ⟨rfl, rfl⟩ := Thread.mk.inj mine
    exact Or.inl ⟨same, takes, read, rfl⟩
  · exact Or.inr ⟨other, op', there, takes, read⟩

theorem looked_of_takes_none (takes : op.takes = none) {i : Nat} {x : Option Nat} {name : String}
    {left : Program Chance Redis Answer}
    (looked : Looked ⟨moved a j op rest state, author, a.source⟩ i name x left) :
    a.Looked i name x left := by
  rcases of_looked_moved looked with ⟨-, some_, -⟩ | ⟨-, op', there, takes', read⟩
  · rw [takes] at some_
    cases some_
  · exact ⟨op', there, takes', read⟩

theorem Sound.delete (sound : a.Sound) (found : a.At j op (.step effect next))
    (takes : op.takes = some key) {x : Option Nat} (read : a.source j = some x) :
    Sound ⟨moved a j op (next c a.calls.state) (effect c a.calls.state), a.author, a.source⟩ := by
  have pending : a.Pending j key x := ⟨effect, next, op, found, takes, read⟩
  have deletes : Deletes key (.step effect next) := by
    rcases sound.taking j op _ key found takes with ⟨unread, -⟩ | ⟨-, -, deletes | ⟨answer, done⟩⟩
    · rw [unread] at read
      cases read
    · exact deletes
    · cases done
  obtain ⟨effect', next', same, steps⟩ := deletes
  obtain ⟨rfl, rfl⟩ := Program.step.inj same
  obtain ⟨answer, done, deleted⟩ := steps c a.calls.state
  have stores := stores_of_takes takes
  refine sound.run found rfl (fun i _ => rfl) ?_ ?_ (fun name => Or.inl rfl)
    (fun x' read' => Or.inl read') ?_ ?_
  · intro name takes'
    obtain rfl := Option.some.inj (takes.symm.trans takes')
    exact ⟨x, read, Or.inr ⟨answer, done⟩⟩
  · exact fun name stores' => ⟨answer, done⟩
  · rintro i name ⟨answer', was, accepts⟩
    rcases of_looked_moved was with ⟨rfl, takes', -, same⟩ | ⟨other, op', there, takes', read'⟩
    · obtain rfl := Option.some.inj (takes.symm.trans takes')
      rw [done] at same
      obtain rfl := Program.done.inj same
      rcases deleted with gone | ⟨-, refused⟩
      · rw [gone]
        exact Store.peek_del
      · rw [accepts] at refused
        cases refused
    · have gone := sound.spent i name ⟨answer', ⟨op', there, takes', read'⟩, accepts⟩
      rcases deleted with del | ⟨stays, -⟩
      · rw [del]
        by_cases same : name = key
        · subst same
          exact Store.peek_del
        · rw [Store.peek_del_of_ne same, gone]
      · rw [stays, gone]
  · have before {i : Nat} {name : String} {x' : Option Nat}
        (taken : Takes ⟨moved a j op (next c a.calls.state) (effect c a.calls.state), a.author,
          a.source⟩ i name x') : a.Takes i name x' := by
      by_cases mine : i = j
      · subst mine
        have was : ∃ left, Looked ⟨moved a i op (next c a.calls.state) (effect c a.calls.state),
            a.author, a.source⟩ i name x' left := by
          rcases taken with ⟨answer', was, -⟩ | ⟨effect', next', was⟩
          · exact ⟨_, was⟩
          · exact ⟨_, was⟩
        obtain ⟨left, was⟩ := was
        rcases of_looked_moved was with ⟨-, takes', read', -⟩ | ⟨other, -⟩
        · obtain rfl := Option.some.inj (takes.symm.trans takes')
          obtain rfl := Option.some.inj (read.symm.trans read')
          exact Or.inr pending
        · exact absurd rfl other
      · refine taken.of_looked fun left was => ?_
        rcases of_looked_moved was with ⟨same, -⟩ | ⟨-, op', there, takes', read'⟩
        · exact absurd same mine
        · exact ⟨op', there, takes', read'⟩
    exact fun i k name x' taken taken' => sound.single i k name x' (before taken) (before taken')

theorem Sound.store (sound : a.Sound) (found : a.At j op (.step effect next))
    (takes : op.takes = none) (stores : op.stores = some key) :
    Sound ⟨moved a j op (next c a.calls.state) (effect c a.calls.state),
      if c.fault = none then Function.update a.author key (some j) else a.author, a.source⟩ := by
  rcases sound.storing j op _ key found stores with ⟨first, unknown, unseen⟩ | ⟨answer, done⟩
  · obtain ⟨effect', next', same, steps⟩ := first
    obtain ⟨rfl, rfl⟩ := Program.step.inj same
    obtain ⟨fails, stored, answer, done⟩ := steps c a.calls.state
    have keeps (name : String) (other : name ≠ key) :
        (effect c a.calls.state).peek name = a.calls.state.peek name := by
      rcases stored with ⟨value, ttl, set⟩ | stays
      · rw [set, Store.peek_set_of_ne other]
      · rw [stays]
    refine sound.run found rfl (fun i _ => rfl) ?_ (fun name _ => ⟨answer, done⟩) ?_
      (fun x' read' => Or.inl read') ?_ ?_
    · intro name takes'
      rw [takes] at takes'
      cases takes'
    · intro name
      dsimp only
      split
      · by_cases same : name = key
        · subst same
          exact Or.inr (Function.update_self _ _ _)
        · exact Or.inl (Function.update_of_ne same _ _)
      · exact Or.inl rfl
    · rintro i name ⟨answer', was, accepts⟩
      have was := looked_of_takes_none takes was
      by_cases clean : c.fault = none
      · simp only [if_pos clean] at was
        by_cases same : name = key
        · subst same
          rw [Function.update_self] at was
          obtain ⟨op', there, takes', read'⟩ := was
          exact absurd read' (unseen i)
        · rw [Function.update_of_ne same] at was
          exact (keeps name same).trans (sound.spent i name ⟨answer', was, accepts⟩)
      · simp only [if_neg clean] at was
        have gone := sound.spent i name ⟨answer', was, accepts⟩
        rcases fails with other | stays
        · exact absurd other clean
        · show (effect c a.calls.state).peek name = none
          rw [stays, gone]
    · intro i k name x taken taken'
      exact sound.single i k name x (taken.of_looked fun _ => looked_of_takes_none takes)
        (taken'.of_looked fun _ => looked_of_takes_none takes)
  · cases done

theorem Sound.other (sound : a.Sound) (found : a.At j op (.step effect next))
    (takes : op.takes = none) (stores : op.stores = none) :
    Sound ⟨moved a j op (next c a.calls.state) (effect c a.calls.state), a.author, a.source⟩ := by
  refine sound.run found rfl (fun i _ => rfl) ?_ ?_ (fun name => Or.inl rfl)
    (fun x' read' => Or.inl read') ?_ ?_
  · intro name takes'
    rw [takes] at takes'
    cases takes'
  · intro name stores'
    rw [stores] at stores'
    cases stores'
  · rintro i name ⟨answer', was, accepts⟩
    have was := looked_of_takes_none takes was
    have gone := sound.spent i name ⟨answer', was, accepts⟩
    have keeps := sound.leaving j op _ name found was.isCode (by simp [takes]) (by simp [stores])
    exact (keeps c a.calls.state).1.2.trans gone
  · intro i k name x taken taken'
    exact sound.single i k name x (taken.of_looked fun _ => looked_of_takes_none takes)
      (taken'.of_looked fun _ => looked_of_takes_none takes)

/-- A call looks for a code or a token that no other call is about to delete. -/
theorem Sound.look (sound : a.Sound) (found : a.At j op (.step effect next))
    (takes : op.takes = some key) (unread : a.source j = none)
    (exclusive : ∀ text, textAt a.calls.state key = some text → op.wants text = true →
      ∀ i, ¬ a.Pending i key (a.author key)) {a' : Attributed}
    (is : a' = ⟨moved a j op (next c a.calls.state) (effect c a.calls.state), a.author,
      Function.update a.source j (some (a.author key))⟩) : a'.Sound := by
  have looks : Looks key op.wants (.step effect next) := by
    rcases sound.taking j op _ key found takes with ⟨-, looks⟩ | ⟨x, read, -⟩
    · exact looks
    · rw [unread] at read
      cases read
  obtain ⟨effect', next', same, steps⟩ := looks
  obtain ⟨rfl, rfl⟩ := Program.step.inj same
  obtain ⟨state, answers⟩ := steps c a.calls.state
  have mine : a'.source j = some (a.author key) := by
    rw [is]
    exact Function.update_self _ _ _
  have others (i : Nat) (other : i ≠ j) : a'.source i = a.source i := by
    rw [is]
    exact Function.update_of_ne other _ _
  have cases_ {i : Nat} {name : String} {x : Option Nat} {left : Program Chance Redis Answer}
      (was : a'.Looked i name x left) : i = j ∧ name = key ∧ x = a.author key ∧
        left = next c a.calls.state ∨ i ≠ j ∧ a.Looked i name x left := by
    obtain ⟨_, -, -, read⟩ := id was
    rw [is] at was
    rcases of_looked_moved was with ⟨same, takes', -, step⟩ | ⟨other, op', there, takes', -⟩
    · rw [same, mine] at read
      exact Or.inl ⟨same, (Option.some.inj (takes.symm.trans takes')).symm,
        (Option.some.inj read).symm, step⟩
    · exact Or.inr ⟨other, op', there, takes', (others i other).symm.trans read⟩
  have old {i : Nat} {name : String} {x : Option Nat} (other : i ≠ j)
      (left : Program Chance Redis Answer) (was : a'.Looked i name x left) :
        a.Looked i name x left := by
    rcases cases_ was with ⟨same, -⟩ | ⟨-, before⟩
    · exact absurd same other
    · exact before
  have refused {name : String} {x : Option Nat} : ¬ a'.Accepted j name x := by
    rintro ⟨answer, was, accepts⟩
    rcases cases_ was with ⟨-, -, -, done⟩ | ⟨other, -⟩
    · rcases answers with ⟨text, -, -, effect', next', step, -⟩ | ⟨answer', done', refuses⟩
      · rw [step] at done
        cases done
      · rw [done'] at done
        obtain rfl := Program.done.inj done
        rw [accepts] at refuses
        cases refuses
    · exact absurd rfl other
  have alone {k : Nat} {name : String} {x : Option Nat} (other : k ≠ j) (taken : a.Takes k name x)
      (taken' : a'.Takes j name x) : False := by
    rcases taken' with accepted | ⟨effect', next', was⟩
    · exact refused accepted
    · rcases cases_ was with ⟨-, rfl, rfl, step⟩ | ⟨other, -⟩
      · rcases answers with ⟨text, there, wanted, -⟩ | ⟨answer, done, -⟩
        · rcases taken with accepted | pending
          · have gone := sound.spent k _ accepted
            rw [textAt, Store.get?, gone] at there
            cases there
          · exact exclusive text there wanted k pending
        · rw [done] at step
          cases step
      · exact absurd rfl other
  have author (name : String) : a'.author name = a.author name := by rw [is]
  have after : a'.calls = moved a j op (next c a.calls.state) (effect c a.calls.state) := by rw [is]
  refine sound.run found (congrArg Pool.threads after) others ?_ ?_
    (fun name => Or.inl (author name)) ?_ ?_ ?_
  · intro name takes'
    obtain rfl := Option.some.inj (takes.symm.trans takes')
    refine ⟨_, mine, ?_⟩
    rcases answers with ⟨-, -, -, deletes⟩ | ⟨answer, done, -⟩
    · exact Or.inl deletes
    · exact Or.inr ⟨answer, done⟩
  · intro name stores'
    rw [stores_of_takes takes] at stores'
    cases stores'
  · intro x read'
    exact Or.inr ⟨key, (Option.some.inj (mine.symm.trans read')).symm⟩
  · intro i name accepted
    by_cases same : i = j
    · subst same
      exact absurd accepted refused
    · obtain ⟨answer, was, accepts⟩ := accepted
      rw [author] at was
      have gone := sound.spent i name ⟨answer, old same _ was, accepts⟩
      rw [congrArg Pool.state after, ← gone]
      exact congrArg (fun r : Redis => r.peek name) state
  · intro i k name x taken taken'
    by_cases first : i = j
    · by_cases second : k = j
      · rw [first, second]
      · subst first
        exact (alone second (taken'.of_looked (old second)) taken).elim
    · by_cases second : k = j
      · subst second
        exact (alone first (taken.of_looked (old first)) taken').elim
      · exact sound.single i k name x (taken.of_looked (old first)) (taken'.of_looked (old second))

end

theorem Sound.event (sound : a.Sound) (met : a.Exclusive e)
    (stepped : Calls.step serde chrono a.calls e = some p') : (a.after e p').Sound := by
  cases e with
  | call op =>
      obtain rfl := Option.some.inj stepped
      exact sound.call op
  | run j c =>
      obtain ⟨op, effect, next, found, rfl⟩ := Pool.step_run.mp stepped
      cases takes : op.takes with
      | some key =>
          cases read : a.source j with
          | none =>
              rw [after_takes found takes read]
              exact sound.look found takes read (fun text => met op _ key text found takes read) rfl
          | some x =>
              rw [after_took found takes read]
              exact sound.delete found takes read
      | none =>
          cases stores : op.stores with
          | some key =>
              rw [after_stores found takes stores]
              exact sound.store found takes stores
          | none =>
              rw [after_other found takes stores]
              exact sound.other found takes stores
  | pass seconds =>
      obtain rfl := Option.some.inj stepped
      exact sound.pass seconds

theorem Reached.sound {r : Redis} (reached : Reached serde chrono Exclusive r a) : a.Sound := by
  induction reached with
  | start => exact sound_start r
  | event _ met stepped ih => exact ih.event met stepped

/-- In a run in which no call finds a code or a token that another has found and not deleted yet, no
stored value is accepted twice. -/
theorem one_time_of_exclusive {serde : SerdeJson} {chrono : Chrono} {r : Redis} {a : Attributed}
    (reached : Reached serde chrono Exclusive r a) : a.OneTime :=
  fun i j key x first second => reached.sound.single i j key x (Or.inl first) (Or.inl second)

theorem exclusive_of_unread (unread : ∀ i, a.source i = none) : a.Exclusive e := by
  cases e with
  | run j c =>
      rintro op rest key text - - - - - i ⟨effect, next, op', -, -, read⟩
      rw [unread i] at read
      cases read
  | _ => trivial

theorem exclusive_of_read {x : Option Nat} (read : a.source j = some x) :
    a.Exclusive (.run j c) := by
  intro op rest key text found takes unread
  rw [read] at unread
  cases unread

theorem exclusive_of_missing (found : a.At j op rest) (takes : op.takes = some key)
    (missing : textAt a.calls.state key = none) : a.Exclusive (.run j c) := by
  intro op' rest' key' text found' takes' _ there
  obtain ⟨rfl, rfl⟩ := Thread.mk.inj (Option.some.inj (found.symm.trans found'))
  rw [← Option.some.inj (takes.symm.trans takes'), missing] at there
  cases there

/-- A code is sent, and two calls are made with it. -/
def twoCalls : List CallEvent :=
  [.call (.storeOtp "+4711111111" "123456" 300), .call (.verifyOtp "+4711111111" "123456"),
    .call (.verifyOtp "+4711111111" "123456"), .run 0 {}, .run 1 {}]

/-- The second call looks after the first has deleted. -/
theorem one_time_of_exclusive_sequence : ∃ a : Attributed,
    Reached .sample .sample Exclusive (.empty 0) a ∧
      a.Accepted 1 (otpKey "+4711111111") (some 0) ∧
      a.calls.threads[2]? = some ⟨.verifyOtp "+4711111111" "123456", .done (.flag (.ok false))⟩ ∧
      a.OneTime := by
  have begun : Reached .sample .sample Exclusive (.empty 0) (start (.empty 0)) := .start
  have called :=
    ((begun.event (e := .call (.storeOtp "+4711111111" "123456" 300)) trivial rfl).event
    (e := .call (.verifyOtp "+4711111111" "123456")) trivial rfl).event
    (e := .call (.verifyOtp "+4711111111" "123456")) trivial rfl
  have looked := (called.event (e := .run 0 {}) (exclusive_of_unread fun _ => rfl) rfl).event
    (e := .run 1 {}) (exclusive_of_unread fun _ => rfl) rfl
  have deleted := looked.event (e := .run 1 {}) (exclusive_of_read rfl) rfl
  have ended := deleted.event (e := .run 2 {}) (exclusive_of_missing rfl rfl rfl) rfl
  exact ⟨_, ended, ⟨_, ⟨_, rfl, rfl, rfl⟩, rfl⟩, rfl, one_time_of_exclusive ended⟩

/-- The events one after the other. -/
def follow (serde : SerdeJson) (chrono : Chrono) (a : Attributed) :
    List CallEvent → Option Attributed
  | [] => some a
  | e :: events =>
      (Calls.step serde chrono a.calls e).bind fun p' => follow serde chrono (a.after e p') events

theorem Reached.follow {meets : Attributed → CallEvent → Prop} {r : Redis} {a' : Attributed}
    {events : List CallEvent} (reached : Reached serde chrono meets r a)
    (met : ∀ a e, meets a e) (followed : a.follow serde chrono events = some a') :
    Reached serde chrono meets r a' := by
  induction events generalizing a with
  | nil =>
      obtain rfl := Option.some.inj followed
      exact reached
  | cons e events ih =>
      obtain ⟨p', stepped, rest⟩ := Option.bind_eq_some_iff.mp followed
      exact ih (reached.event (met a e) stepped) rest

/-- Both calls look before either deletes. -/
theorem code_accepted_twice : ∃ a : Attributed,
    Reached .sample .sample (fun _ _ => True) (.empty 0) a ∧ ¬ a.OneTime := by
  refine ⟨_, Reached.follow .start (fun _ _ => trivial)
    (show follow .sample .sample _ (twoCalls ++ [.run 2 {}, .run 1 {}, .run 2 {}]) =
    some _ from rfl), ?_⟩
  intro once
  have same := once 1 2 (otpKey "+4711111111") (some 0) ⟨_, ⟨_, rfl, rfl, rfl⟩, rfl⟩
    ⟨_, ⟨_, rfl, rfl, rfl⟩, rfl⟩
  cases same

end

end Attributed

end Hysj.Api
