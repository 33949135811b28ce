import Hysj.Api.Posts

set_option autoImplicit false

/- In which order the messages for a device reach its channel, in any order of the steps. -/
namespace Hysj.Api

open Crypto Shared Messaging Program

section

variable {α : Type} {p : α → Bool} {items : List α}

/-- The first of those that are wanted, and what removing it leaves. -/
theorem filterMap_eraseP {β : Type} {f : α → Option β} {a : α} (first : items.find? p = some a)
    (alone : ∀ b ∈ items, p b = false → f a ≠ none → f b = none) :
    items.filterMap f = (f a).toList ++ (items.eraseP p).filterMap f := by
  induction items with
  | nil => cases first
  | cons b items ih =>
      cases is : p b with
      | true =>
          rw [List.find?_cons_of_pos is] at first
          rw [List.eraseP_cons_of_pos is, Option.some.inj first, List.filterMap_cons]
          cases f a <;> rfl
      | false =>
          rw [List.find?_cons_of_neg (is ▸ Bool.false_ne_true)] at first
          have rest := ih first fun c member => alone c (List.mem_cons_of_mem _ member)
          rw [List.eraseP_cons_of_neg (is ▸ Bool.false_ne_true)]
          cases here : f b with
          | none => rw [List.filterMap_cons_none here, List.filterMap_cons_none here, rest]
          | some x =>
              have nothing : f a = none := by
                by_contra something
                cases (alone b List.mem_cons_self is something).symm.trans here
              rw [List.filterMap_cons_some here, List.filterMap_cons_some here, rest, nothing]
              rfl

end

namespace Post

/-- The frames of every device are in the order in which their messages were accepted. -/
def InOrder (q : Post) : Prop := ∀ d, (q.numbers d).Pairwise (· < ·)

/-- The message with this number is in the queue under this id. -/
def Queued (q : Post) (d : Uuid) (id : String) (n : Nat) : Prop :=
  (q.server.redis.peek (msgKey d id)).isSome ∧ q.author (msgKey d id) = some n

/-- A message for the device waits in the queue. -/
def Waits (q : Post) (d : Uuid) (n : Nat) : Prop := ∃ id, q.Queued d id n

/-- A message is placed on an open channel while none for the device waits or is in the hands of a
connect; and it is drained while none that was accepted before it waits, and no other connect has
any in its hands. -/
def InTurn (q : Post) : DeliveryEvent → Prop
  | .run j c =>
      (∀ envelope, q.stages[j]? = some (.sending envelope) →
        q.server.Online envelope.recipientDeviceId →
          (∀ n, ¬ q.Waits envelope.recipientDeviceId n) ∧
            ∀ h ∈ q.held, h.deviceId ≠ envelope.recipientDeviceId) ∧
      ∀ d pages place key data, q.stages[j]? = some (.draining d pages place) →
        place.takes c q.server.redis = some (key, data) →
          (∀ h ∈ q.held, h.deviceId = d → h.call = j) ∧
            ∀ n n', q.author key = some n → q.Waits d n' → n ≤ n'
  | _ => True

section

variable {config : AppConfig} {chrono : Chrono} {serde : SerdeJson}
    {q q' : Post} {e : DeliveryEvent}
variable {i j n : Nat} {c : Chance} {stage : Delivery} {d : Uuid} {id key : String}
variable {h : Possession} {first : Server} {steps : List (Post × DeliveryEvent × Post)}

/-- The numbers of the messages for a device that the connects have in their hands. -/
def heldFor (q : Post) (d : Uuid) : List Nat :=
  q.held.filterMap fun h => if h.deviceId = d then h.number else none

/-- The connect has read the key and has to delete it. -/
def Deleting (q : Post) (j : Nat) (key : String) : Prop :=
  ∃ d pages left next data keys messages,
    q.stages[j]? = some (.draining d pages (.deleting left next key data keys messages))

/-- What is placed comes before what is held, and that before what is queued, but for what a connect
has still to delete. -/
structure Ordered (q : Post) : Prop where
  holder : ∀ h ∈ q.held, ∀ h' ∈ q.held, h.deviceId = h'.deviceId → h.call = h'.call
  order : ∀ d, (q.numbers d ++ q.heldFor d).Pairwise (· < ·)
  placed : ∀ d id n, q.Queued d id n → ∀ x ∈ q.numbers d, x < n
  held : ∀ d id n, q.Queued d id n → ∀ h ∈ q.held, h.deviceId = d → ∀ x, h.number = some x →
    x < n ∨ x = n ∧ q.Deleting h.call (msgKey d id)

theorem mem_heldFor {x : Nat} :
    x ∈ q.heldFor d ↔ ∃ h ∈ q.held, h.deviceId = d ∧ h.number = some x := by
  simp only [heldFor, List.mem_filterMap, Option.ite_none_right_eq_some]

theorem mem_numbers {x : Nat} :
    x ∈ q.numbers d ↔ ∃ f ∈ q.frames, f.1.deviceId = d ∧ f.2 = some x := by
  simp only [numbers, List.mem_filterMap, Option.ite_none_right_eq_some]

theorem ordered_start {s : Server} : (start s).Ordered := by
  have nothing (d : Uuid) : (start s).numbers d = [] := by
    show (s.sent.zip []).filterMap _ = []
    rw [List.zip_nil_right]
    rfl
  refine ⟨fun h member => ?_, fun d => ?_, fun d id n queued x member => ?_,
    fun d id n queued h member => ?_⟩
  · cases member
  · rw [nothing]
    exact List.Pairwise.nil
  · rw [nothing] at member
    cases member
  · cases member

theorem numbers_same (sent : q'.server.sent = q.server.sent) (carried : q'.carried = q.carried) :
    q'.numbers d = q.numbers d := by
  rw [numbers, numbers, frames, frames, sent, carried]

theorem numbers_append {f : Sent} {number : Option Nat}
    (length : q.carried.length = q.server.sent.length)
    (sent : q'.server.sent = q.server.sent ++ [f]) (carried : q'.carried = q.carried ++ [number]) :
    q'.numbers d = q.numbers d ++ (if f.deviceId = d then number else none).toList := by
  rw [numbers, frames_append length sent carried, List.filterMap_append, numbers]
  congr 1

theorem Sound.number_lt (sound : q.Sound config chrono serde) {x : Nat} (member : x ∈ q.numbers d) :
    x < q.accepted.length := by
  obtain ⟨f, framed, -, number⟩ := mem_numbers.mp member
  rcases sound.faithful.2 f framed with ⟨n, envelope, is, sends, -⟩ | ⟨nothing, -⟩
  · obtain rfl := Option.some.inj (number.symm.trans is)
    exact sends.lt
  · cases number.symm.trans nothing

theorem Sound.held_lt (sound : q.Sound config chrono serde) {x : Nat} (member : h ∈ q.held)
    (number : h.number = some x) : x < q.accepted.length := by
  obtain ⟨n, envelope, is, sends, -⟩ := sound.contents h member
  obtain rfl := Option.some.inj (number.symm.trans is)
  exact sends.lt

theorem Sound.key_inj (sound : q.Sound config chrono serde) {d' : Uuid} {id' : String}
    (first : q.Queued d id n) (second : q.Queued d' id' n) : msgKey d id = msgKey d' id' := by
  obtain ⟨entry, present⟩ := Option.isSome_iff_exists.mp first.1
  obtain ⟨entry', present'⟩ := Option.isSome_iff_exists.mp second.1
  obtain ⟨m, envelope, author, sends, rfl, rfl, -⟩ := sound.stored d id entry present
  obtain ⟨m', envelope', author', sends', rfl, rfl, -⟩ := sound.stored d' id' entry' present'
  obtain rfl := Option.some.inj (first.2.symm.trans author)
  obtain rfl := Option.some.inj (second.2.symm.trans author')
  rw [sends.inj sends']

/-- What is queued after an event was queued before it, or is stored by it. -/
theorem Moved.queued (moved : Moved config chrono serde q e q') (queued : q'.Queued d id n) :
    q.Queued d id n ∨ n = q.accepted.length ∧
      ∃ j c envelope, e = .run j c ∧ q.stages[j]? = some (.storing envelope) := by
  obtain ⟨entry, present⟩ := Option.isSome_iff_exists.mp queued.1
  rcases moved.queue present with ⟨before, author⟩ | ⟨j, c, envelope, is, there, -, -, -, new, -⟩
  · exact Or.inl ⟨by rw [before]; rfl, author.symm.trans queued.2⟩
  · exact Or.inr ⟨Option.some.inj (queued.2.symm.trans new), j, c, envelope, is, there⟩

/-- A connect that has to delete a key has still to after an event, or the key is gone, or it has
dropped what it had. -/
theorem Moved.deleting (moved : Moved config chrono serde q e q') (deleting : q.Deleting i key) :
    q'.Deleting i key ∨ q'.server.redis.peek key = none ∨ ∀ h ∈ q'.held, h.call ≠ i := by
  obtain ⟨d, pages, left, next, data, keys, messages, is⟩ := deleting
  cases moved with
  | call call =>
      refine Or.inl ⟨d, pages, left, next, data, keys, messages, ?_⟩
      exact getElem?_append_of_some is
  | pass seconds => exact Or.inl ⟨d, pages, left, next, data, keys, messages, is⟩
  | run j c call stage rest rest' s' found there stands stands' does =>
      by_cases same : i = j
      · right
        subst same
        obtain rfl := Option.some.inj (is.symm.trans there)
        subst does
        cases fault : c.fault with
        | none =>
            left
            show Store.peek (if c.fault = none then q.server.redis.del key else _) key = none
            rw [if_pos fault]
            exact Store.peek_del
        | some e =>
            right
            intro h member mine
            have drops : (Drain.deleting left next key data keys messages).drops c = true :=
              congrArg Option.isSome fault
            change h ∈ q.heldAfter i c (.draining d pages _) at member
            rw [heldAfter, if_pos drops] at member
            exact of_decide_eq_true (List.mem_filter.mp member).2 mine
      · refine Or.inl ⟨d, pages, left, next, data, keys, messages, ?_⟩
        exact getElem?_set_ne_of_some same is

theorem Moved.deleting_of_takes {pages : Nat} {place : Drain} {data : Bytes}
    (moved : Moved config chrono serde q (.run j c) q')
    (there : q.stages[j]? = some (.draining d pages place))
    (takes : place.takes c q.server.redis = some (key, data)) : q'.Deleting j key := by
  obtain ⟨-, -, left, next, keys, messages, rfl, goes⟩ := @Drain.of_takes d _ _ _ _ _ takes
  cases moved with
  | run _ _ call stage rest rest' s' found at_ stands stands' does =>
      obtain rfl := Option.some.inj (there.symm.trans at_)
      refine ⟨d, pages, left, next, data, keys, messages, ?_⟩
      show (q.stages.set j (Delivery.ofPlace d pages (Drain.next d c q.server.redis _)))[j]? = _
      rw [goes]
      exact getElem?_set_self_of_some there

theorem Ordered.placed_step (ordered : q.Ordered) (sound : q.Sound config chrono serde)
    (moved : Moved config chrono serde q e q') {x : Nat} (queued : q'.Queued d id n)
    (member : x ∈ q.numbers d) : x < n := by
  rcases moved.queued queued with before | ⟨rfl, -⟩
  · exact ordered.placed d id n before x member
  · exact sound.number_lt member

theorem Ordered.held_step (ordered : q.Ordered) (sound : q.Sound config chrono serde)
    (moved : Moved config chrono serde q e q') {x : Nat} (queued : q'.Queued d id n)
    (before : h ∈ q.held) (still_ : h ∈ q'.held) (device : h.deviceId = d)
    (number : h.number = some x) : x < n ∨ x = n ∧ q'.Deleting h.call (msgKey d id) := by
  rcases moved.queued queued with was | ⟨rfl, -⟩
  · rcases ordered.held d id n was h before device x number with less | ⟨same, deleting⟩
    · exact Or.inl less
    · rcases moved.deleting deleting with goes_on | gone | dropped
      · exact Or.inr ⟨same, goes_on⟩
      · have present := queued.1
        rw [gone] at present
        cases present
      · exact absurd rfl (dropped h still_)
  · exact Or.inl (sound.held_lt before number)

/-- A connect takes only what nobody else of the device has a claim to. -/
theorem Ordered.holder_step (ordered : q.Ordered) (moved : Moved config chrono serde q e q')
    (turn : q.InTurn e) :
    ∀ h ∈ q'.held, ∀ h' ∈ q'.held, h.deviceId = h'.deviceId → h.call = h'.call := by
  intro h member h' member' same
  rcases moved.held member with old | ⟨j, c, d, pages, place, key, data, is, there, takes, rfl⟩
  · rcases moved.held member' with old' | ⟨j, c, d, pages, place, key, data, is, there, takes, rfl⟩
    · exact ordered.holder h old h' old' same
    · subst is
      exact (turn.2 d pages place key data there takes).1 h old same
  · subst is
    rcases moved.held member' with old' | ⟨j', c', d', pages', place', key', data', is', -, -, rfl⟩
    · exact ((turn.2 d pages place key data there takes).1 h' old' same.symm).symm
    · exact (Pool.Event.run.inj is').1

theorem Ordered.numbers_step (ordered : q.Ordered) (sound : q.Sound config chrono serde)
    (moved : Moved config chrono serde q e q') (turn : q.InTurn e) {x : Nat}
    (queued : q'.Queued d id n) (member : x ∈ q'.numbers d) : x < n := by
  rcases moved.sent with ⟨sent, carried⟩ | ⟨j, c, stage, f, is, there, sent, carried, places⟩
  · rw [numbers_same sent carried] at member
    exact ordered.placed_step sound moved queued member
  · rw [numbers_append sound.faithful.1 sent carried] at member
    rcases List.mem_append.mp member with before | new
    · exact ordered.placed_step sound moved queued before
    · obtain ⟨device, number⟩ := Option.ite_none_right_eq_some.mp (Option.mem_toList.mp new)
      subst is
      have was : q.Queued d id n := by
        refine (moved.queued queued).resolve_right ?_
        rintro ⟨-, j', c', envelope, same, storing⟩
        rw [← (Pool.Event.run.inj same).1, there] at storing
        rw [Option.some.inj storing] at places
        exact places
      cases stage with
      | sending envelope =>
          obtain ⟨online, recipient, -⟩ := places
          rw [← device, recipient] at was
          exact absurd ⟨id, was⟩ ((turn.1 envelope there online).1 n)
      | delivering d' pages queued' messages =>
          obtain ⟨h, head, held, mine, holds, -⟩ := sound.head there
          rw [carrier, head] at number
          have same : h.deviceId = d := by rw [holds, ← places.1, device]
          refine (ordered.held d id n was h held same x number).resolve_right ?_
          rintro ⟨-, d'', pages', left, next, data, keys, messages', deleting⟩
          rw [mine, there] at deleting
          cases deleting
      | elsewhere => cases number
      | _ => exact places.elim

theorem Ordered.queued_step (ordered : q.Ordered) (sound : q.Sound config chrono serde)
    (moved : Moved config chrono serde q e q') (turn : q.InTurn e) {x : Nat}
    (queued : q'.Queued d id n) (member : h ∈ q'.held) (device : h.deviceId = d)
    (number : h.number = some x) : x < n ∨ x = n ∧ q'.Deleting h.call (msgKey d id) := by
  rcases moved.held member with old | ⟨j, c, d', pages, place, key, data, rfl, there, takes, rfl⟩
  · exact ordered.held_step sound moved queued old member device number
  · obtain rfl : d' = d := device
    have was : q.Queued d' id n := by
      refine (moved.queued queued).resolve_right ?_
      rintro ⟨-, j', c', envelope, same, storing⟩
      rw [← (Pool.Event.run.inj same).1, there] at storing
      cases storing
    obtain ⟨id', n', envelope, rfl, present, author, -⟩ := sound.taken there takes
    obtain rfl := Option.some.inj (author.symm.trans number)
    have atMost := (turn.2 d' pages place _ data there takes).2 n' n author ⟨id, was⟩
    rcases Nat.lt_or_eq_of_le atMost with less | rfl
    · exact Or.inl less
    · refine Or.inr ⟨rfl, ?_⟩
      rw [sound.key_inj was ⟨present, author⟩]
      exact moved.deleting_of_takes there takes

theorem Moved.held_eq (moved : Moved config chrono serde q (.run j c) q')
    (there : q.stages[j]? = some stage) : q'.held = q.heldAfter j c stage := by
  cases moved with
  | run _ _ call stage' rest rest' s' found at_ stands stands' does =>
      rw [Option.some.inj (there.symm.trans at_)]

/-- What a connect takes comes after all that was placed or is held. -/
theorem Ordered.order_taken (ordered : q.Ordered)
    (sound : q.Sound config chrono serde) {pages : Nat}
    {place : Drain} {data : Bytes} (turn : q.InTurn (.run j c))
    (there : q.stages[j]? = some (.draining d pages place))
    (takes : place.takes c q.server.redis = some (key, data)) :
    ∃ n, q.author key = some n ∧ ∀ x ∈ q.numbers d ++ q.heldFor d, x < n := by
  obtain ⟨id, n, envelope, rfl, present, author, -⟩ := sound.taken there takes
  refine ⟨n, author, fun x member => ?_⟩
  rcases List.mem_append.mp member with was_placed | was_held
  · exact ordered.placed d id n ⟨present, author⟩ x was_placed
  · obtain ⟨h, held, device, number⟩ := mem_heldFor.mp was_held
    refine (ordered.held d id n ⟨present, author⟩ h held device x number).resolve_right ?_
    rintro ⟨-, d', pages', left, next, data', keys, messages, deleting⟩
    have mine := (turn.2 d pages place _ data there takes).1 h held device
    rw [mine, there] at deleting
    obtain ⟨-, -, rfl⟩ := Delivery.draining.inj (Option.some.inj deleting)
    cases takes

/-- What a connect delivers goes from its hands to the channel. -/
theorem Ordered.heldFor_delivering (ordered : q.Ordered)
    (head : (q.held.find? fun h => h.call = j) = some h) (held : h ∈ q.held) (mine : h.call = j) :
    q.heldFor d = (if h.deviceId = d then h.number else none).toList ++
      (q.held.eraseP fun h => h.call = j).filterMap
        fun h => if h.deviceId = d then h.number else none := by
  refine filterMap_eraseP head fun other member its_own numbered => ?_
  obtain ⟨number, is⟩ := Option.ne_none_iff_exists'.mp numbered
  obtain ⟨device, -⟩ := Option.ite_none_right_eq_some.mp is
  refine if_neg fun same => of_decide_eq_false its_own ?_
  rw [← mine]
  exact ordered.holder other member h held (same.trans device.symm)

theorem Ordered.order_step (ordered : q.Ordered) (sound : q.Sound config chrono serde)
    (moved : Moved config chrono serde q e q') (turn : q.InTurn e) :
    (q'.numbers d ++ q'.heldFor d).Pairwise (· < ·) := by
  have order := ordered.order d
  rcases moved.sent with ⟨sent, carried⟩ | ⟨j, c, stage, f, rfl, there, sent, carried, places⟩
  · rw [numbers_same sent carried]
    rcases moved.holds with fewer | ⟨j, c, d', pages, place, key, data, rfl, there, takes, holds⟩
    · exact order.sublist ((fewer.filterMap _).append_left _)
    · rw [heldFor, holds, List.filterMap_append, ← List.append_assoc, ← heldFor]
      refine List.pairwise_append.mpr ⟨order, ?_, fun x before y new => ?_⟩
      · rw [List.filterMap_cons, List.filterMap_nil]
        split <;> simp
      · obtain ⟨h, is, numbered⟩ := List.mem_filterMap.mp new
        obtain rfl := List.mem_singleton.mp is
        obtain ⟨rfl, number⟩ := Option.ite_none_right_eq_some.mp numbered
        obtain ⟨n, author, above⟩ := ordered.order_taken sound turn there takes
        obtain rfl := Option.some.inj (author.symm.trans number)
        exact above x before
  · rw [numbers_append sound.faithful.1 sent carried, heldFor, moved.held_eq there]
    cases stage with
    | sending envelope =>
        obtain ⟨online, recipient, -⟩ := places
        by_cases device : f.deviceId = d
        · have none_held : q.heldFor d = [] := by
            refine List.eq_nil_iff_forall_not_mem.mpr fun x member => ?_
            obtain ⟨h, held, same, -⟩ := mem_heldFor.mp member
            rw [← device, recipient] at same
            exact (turn.1 envelope there online).2 h held same
          rw [if_pos device]
          show (q.numbers d ++ [q.accepted.length] ++ q.heldFor d).Pairwise (· < ·)
          rw [none_held, List.append_nil]
          have was := (List.pairwise_append.mp order).1
          refine List.pairwise_append.mpr
            ⟨was, List.pairwise_singleton _ _, fun x before y new => ?_⟩
          rw [List.mem_singleton.mp new]
          exact sound.number_lt before
        · rw [if_neg device, Option.toList_none, List.append_nil]
          exact order
    | delivering d' pages queued messages =>
        obtain ⟨h, head, held, mine, holds, -⟩ := sound.head there
        rw [ordered.heldFor_delivering head held mine, ← List.append_assoc] at order
        rw [places.1, ← holds, carrier, head]
        exact order
    | elsewhere =>
        show (q.numbers d ++ (if f.deviceId = d then none else none).toList ++
            q.heldFor d).Pairwise _
        rw [ite_self, Option.toList_none, List.append_nil]
        exact order
    | _ => exact places.elim

theorem Ordered.step (ordered : q.Ordered) (sound : q.Sound config chrono serde)
    (moved : Moved config chrono serde q e q') (turn : q.InTurn e) : q'.Ordered where
  holder := ordered.holder_step moved turn
  order _ := ordered.order_step sound moved turn
  placed _ _ _ queued _ member := ordered.numbers_step sound moved turn queued member
  held _ _ _ queued _ member device _ number :=
    ordered.queued_step sound moved turn queued member device number

theorem Ordered.inOrder (ordered : q.Ordered) : q.InOrder := fun d =>
  (List.pairwise_append.mp (ordered.order d)).1

theorem Run.ordered (lawful : serde.Lawful) (idle : first.Idle)
    (run : Run config chrono serde (start first) steps q)
    (turn : ∀ x ∈ steps, x.1.InTurn x.2.1) : q.Ordered := by
  induction run with
  | start => exact ordered_start
  | @next steps q q' e before stepped ih =>
      have sound := Run.sound lawful idle before
      have last : q.InTurn e := turn (q, e, q') (List.mem_append_right _ List.mem_cons_self)
      exact (ih fun x member => turn x (List.mem_append_left _ member)).step sound
        (sound.standing.moved stepped) last

/-- Every frame is the one of an accepted message, for its recipient, or a wipe. If every message is
placed or drained in its turn, the frames of every device are in the order of acceptance. -/
theorem in_order (lawful : serde.Lawful) (idle : first.Idle)
    (run : Run config chrono serde (start first) steps q) :
    q.Faithful ∧ ((∀ x ∈ steps, x.1.InTurn x.2.1) → q.InOrder) :=
  ⟨(Run.sound lawful idle run).faithful, fun turn => (Run.ordered lawful idle run turn).inOrder⟩

end

section

variable {config : AppConfig} {chrono : Chrono} {serde : SerdeJson} {q q' : Post} {first : Post}
variable {d : Uuid} {j n : Nat} {c : Chance} {stage : Delivery}

/-- The numbers of the messages for a device that wait in the queue. -/
def waiting (q : Post) (d : Uuid) : List Nat :=
  q.server.redis.entries.keys.filterMap fun key =>
    if hasPrefix (keyPrefix "msg" d) key ∧ (q.server.redis.peek key).isSome then q.author key
    else none

theorem mem_waiting : n ∈ q.waiting d ↔ q.Waits d n := by
  simp only [waiting, List.mem_filterMap, Option.ite_none_right_eq_some]
  constructor
  · rintro ⟨key, -, ⟨named, present⟩, author⟩
    obtain ⟨id, rfl⟩ := hasPrefix_msg.mp named
    exact ⟨id, present, author⟩
  · rintro ⟨id, present, author⟩
    refine ⟨msgKey d id, ?_, ⟨hasPrefix_msg.mpr ⟨id, rfl⟩, present⟩, author⟩
    obtain ⟨entry, found⟩ := Option.isSome_iff_exists.mp present
    exact AList.mem_keys.mp (AList.lookup_isSome.mp
      (Option.isSome_of_mem (Option.filter_eq_some_iff.mp found).1))

/-- The next step of a call that stands there is in turn. -/
def InTurnAt (q : Post) (j : Nat) (c : Chance) : Delivery → Prop
  | .sending envelope =>
      (q.server.connections envelope.recipientDeviceId).any (fun x => !q.server.closed x) →
        q.waiting envelope.recipientDeviceId = [] ∧
          ∀ h ∈ q.held, h.deviceId ≠ envelope.recipientDeviceId
  | .draining d _ place =>
      ∀ found ∈ place.takes c q.server.redis, (∀ h ∈ q.held, h.deviceId = d → h.call = j) ∧
        ∀ n ∈ q.author found.1, ∀ n' ∈ q.waiting d, n ≤ n'
  | _ => True

instance : Decidable (q.InTurnAt j c stage) :=
  match stage with
  | .sending _ => inferInstanceAs (Decidable (_ → _))
  | .draining _ _ _ => inferInstanceAs (Decidable (∀ found ∈ Drain.takes c _ _, _))
  | .stale _ | .looking _ | .storing _ | .entering _ _ _ | .marking _ _ | .delivering _ _ _ _
  | .closing _ _ _ | .elsewhere => isTrue trivial

theorem online_iff {s : Server} :
    (s.connections d).any (fun x => !s.closed x) = true ↔ s.Online d := by
  rw [Option.any_eq_true]
  refine exists_congr fun x => and_congr_right fun _ => ?_
  rw [Bool.not_eq_true']

theorem inTurn_run : q.InTurn (.run j c) ↔ ∀ stage ∈ q.stages[j]?, q.InTurnAt j c stage := by
  constructor
  · intro turn stage there
    cases stage with
    | sending envelope =>
        intro online
        obtain ⟨none_waits, none_held⟩ := turn.1 envelope there (online_iff.mp online)
        refine ⟨List.eq_nil_iff_forall_not_mem.mpr fun n member => ?_, none_held⟩
        exact none_waits n (mem_waiting.mp member)
    | draining d pages place =>
        intro found takes
        obtain ⟨mine, before⟩ := turn.2 d pages place found.1 found.2 there takes
        exact ⟨mine, fun n author n' waits => before n n' author (mem_waiting.mp waits)⟩
    | _ => trivial
  · intro turn
    constructor
    · intro envelope there online
      obtain ⟨none_waits, none_held⟩ := turn _ there (online_iff.mpr online)
      refine ⟨fun n waits => ?_, none_held⟩
      have member := mem_waiting.mpr waits
      rw [none_waits] at member
      cases member
    · intro d pages place key data there takes
      obtain ⟨mine, before⟩ := turn _ there (key, data) takes
      exact ⟨mine, fun n n' author waits => before n author n' (mem_waiting.mpr waits)⟩

instance {e : DeliveryEvent} : Decidable (q.InTurn e) :=
  match e with
  | .run _ _ => decidable_of_iff _ inTurn_run.symm
  | .call _ | .pass _ => isTrue trivial

/-- What is recorded of events that all happen, and where each is allowed. -/
def follow (config : AppConfig) (chrono : Chrono) (serde : SerdeJson)
    (allowed : Post → DeliveryEvent → Bool) (q : Post) : List DeliveryEvent → Option Post
  | [] => some q
  | e :: events =>
      if allowed q e then
        (DeliveryCalls.step config chrono serde q.calls e).bind fun p' =>
          follow config chrono serde allowed (q.after serde e p') events
      else none

theorem Run.follow {allowed : Post → DeliveryEvent → Bool} {events : List DeliveryEvent}
    {steps : List (Post × DeliveryEvent × Post)} (run : Run config chrono serde first steps q)
    (before : ∀ x ∈ steps, allowed x.1 x.2.1 = true)
    (followed : Post.follow config chrono serde allowed q events = some q') :
    ∃ steps', Run config chrono serde first steps' q' ∧ ∀ x ∈ steps', allowed x.1 x.2.1 = true := by
  induction events generalizing q steps with
  | nil =>
      obtain rfl := Option.some.inj followed
      exact ⟨steps, run, before⟩
  | cons e events ih =>
      rw [Post.follow] at followed
      split at followed
      · rename_i now
        obtain ⟨p', stepped, rest⟩ := Option.bind_eq_some_iff.mp followed
        refine ih (run.next ⟨p', stepped, rfl⟩) ?_ rest
        simp only [List.forall_mem_append, List.forall_mem_singleton]
        exact ⟨before, now⟩
      · cases followed

/-- A message to the device 1. -/
def phoneMessage (id : String) : EncryptedEnvelope :=
  ⟨.replicate 16 1, id, "", none, none, none, false⟩

def phoneArrives : DeliveryCall := .arrive (.replicate 16 1) 0 1

/-- A message is queued, the device connects and gets it, and then another one is sent. -/
def queuedThenLive : List DeliveryEvent :=
  [.call (.send (phoneMessage "1")), .run 0 {}, .run 0 {}, .run 0 {},
    .call phoneArrives, .run 1 {}, .run 1 {}, .run 1 {}, .run 1 {}, .run 1 {}, .run 1 {},
    .call (.send (phoneMessage "2")), .run 2 {}]

/-- Two messages are queued for a device, and SCAN answers with the second one first. -/
def scannedBackwards : List DeliveryEvent :=
  [.call (.send (phoneMessage "1")), .run 0 {}, .run 0 {}, .run 0 {},
    .call (.send (phoneMessage "2")), .run 1 {}, .run 1 {}, .run 1 {},
    .call phoneArrives, .run 2 {}, .run 2 {},
    .run 2 { keys := [msgKey (.replicate 16 1) "2", msgKey (.replicate 16 1) "1"] },
    .run 2 {}, .run 2 {}, .run 2 {}, .run 2 {}, .run 2 {}, .run 2 {}]

abbrev startedServer : Server := .start 0 {}

theorem in_order_queued : ∃ steps q,
    Run ⟨none, ""⟩ .sample .sample (start startedServer) steps q ∧
      (∀ x ∈ steps, x.1.InTurn x.2.1) ∧ q.numbers (.replicate 16 1) = [0, 1] ∧ q.InOrder := by
  have ordered : (follow ⟨none, ""⟩ .sample .sample (fun q e => decide (q.InTurn e))
      (start startedServer) queuedThenLive).map (fun q => q.numbers (.replicate 16 1)) =
        some [0, 1] := by
    decide +kernel
  obtain ⟨q, followed, numbers⟩ := Option.map_eq_some_iff.mp ordered
  obtain ⟨steps, run, turn⟩ := Run.follow .start (fun x member => by cases member) followed
  have inTurn : ∀ x ∈ steps, x.1.InTurn x.2.1 := fun x member => of_decide_eq_true (turn x member)
  exact ⟨steps, q, run, inTurn, numbers,
    (in_order SerdeJson.sample_lawful ⟨rfl, fun _ _ => rfl⟩ run).2 inTurn⟩

/-- The frames come in the order in which SCAN has answered. -/
theorem out_of_order : ∃ steps q,
    Run ⟨none, ""⟩ .sample .sample (start startedServer) steps q ∧
      q.numbers (.replicate 16 1) = [1, 0] ∧ ¬ q.InOrder := by
  have swapped : (follow ⟨none, ""⟩ .sample .sample (fun _ _ => true) (start startedServer)
      scannedBackwards).map (fun q => q.numbers (.replicate 16 1)) = some [1, 0] := by
    decide +kernel
  obtain ⟨q, followed, numbers⟩ := Option.map_eq_some_iff.mp swapped
  obtain ⟨steps, run, -⟩ := Run.follow .start (fun x member => by cases member) followed
  refine ⟨steps, q, run, numbers, fun inOrder => ?_⟩
  have ordered := inOrder (.replicate 16 1)
  rw [numbers] at ordered
  exact absurd ordered (by decide)

end

end Post

end Hysj.Api
