import Hysj.Api.WipeFrames
import Hysj.Messaging.Answers

set_option autoImplicit false

/- What one pass of the wipe sweep sends. -/
namespace Hysj.Api

open Crypto Shared Messaging Program

/-- The open channel of a device. -/
def Server.channel (s : Server) (deviceId : Uuid) : Option SocketId :=
  (s.connections deviceId).filter fun socket => !s.closed socket

/-- A key of an answer to the sweep, and what SCAN answers about the device of the key. -/
abbrev Visit := String × List String

section

variable (serde : SerdeJson) (chrono : Chrono)

/-- The pending wipes that are stored under some keys. -/
def wipesUnder (r : Redis) (keys : List String) : List PendingWipe :=
  keys.filterMap (storedWipe serde chrono r)

/-- Every pending wipe of a device. -/
def pendingWipes (r : Redis) (deviceId : Uuid) : List PendingWipe :=
  wipesUnder serde chrono r (r.keys.filter fun key => hasPrefix (keyPrefix "wipe" deviceId) key)

/-- One frame on the channel of the device for each of the wipes. -/
def wipeFrames (s : Server) (deviceId : Uuid) (wipes : List PendingWipe) : List Sent :=
  match s.channel deviceId with
  | none => []
  | some socket =>
      wipes.map fun wipe => ⟨socket, deviceId, (WsMessage.wipeCommand wipe.command).text⟩

/-- The frames of a visit. -/
def visitFrames (s : Server) (visit : Visit) : List Sent :=
  match keyDevice visit.1 with
  | none => []
  | some deviceId => wipeFrames s deviceId (wipesUnder serde chrono s.redis visit.2)

/-- The state after a visit. -/
def visited (s : Server) (visit : Visit) : Server :=
  match keyDevice visit.1 with
  | none => s
  | some deviceId =>
      if (s.connections deviceId).isSome then
        (wipesUnder serde chrono s.redis visit.2).foldl
          (fun s wipe => afterSend s deviceId (WsMessage.wipeCommand wipe.command).text) s
      else s

/-- A pass of the sweep in which SCAN answers so. -/
structure Pass (s : Server) (visits : List Visit) (s' : Server) : Prop where
  keys : Answered "wipe:" s.redis .zero (visits.map Prod.fst)
  each : ∀ visit ∈ visits, ∀ d, keyDevice visit.1 = some d →
    Answered (keyPrefix "wipe" d) s.redis .zero visit.2
  after : visits.foldl (visited serde chrono) s = s'

/-- No iteration of SCAN answers with a key twice, or with one that is not there. -/
structure NoRepeats (r : Redis) (visits : List Visit) : Prop where
  keys : (visits.map Prod.fst).Nodup
  each : ∀ visit ∈ visits, visit.2.Nodup
  present : ∀ visit ∈ visits, (r.peek visit.1).isSome

/-- Every device with an open channel is sent one frame for each of its pending wipes on it, and
nothing else is sent. -/
def SentOnce (s s' : Server) : Prop :=
  ∃ frames, s'.sent = s.sent ++ frames ∧
    ∀ d, (frames.filter fun f => f.deviceId = d).Perm
      (wipeFrames s d (pendingWipes serde chrono s.redis d))

/-- No two wipe keys name a device with an open channel that has a pending wipe. -/
def OneKeyEach (s : Server) : Prop :=
  ∀ d, s.channel d ≠ none → pendingWipes serde chrono s.redis d ≠ [] →
    ∀ key key', keyDevice key = some d → keyDevice key' = some d →
      hasPrefix "wipe:" key = true → hasPrefix "wipe:" key' = true →
      (s.redis.peek key).isSome → (s.redis.peek key').isSome → key = key'

end

section

variable {serde : SerdeJson} {chrono : Chrono} {s s' : Server} {d d' : Uuid} {text : String}
variable {wipes : List PendingWipe} {visits : List Visit} {pages : Nat} {keys names : List String}

@[simp] theorem channel_afterSend : (afterSend s d text).channel d' = s.channel d' := by
  unfold afterSend
  split
  · rfl
  · rename_i socket found
    split
    · rename_i closed
      by_cases same : d' = d
      · subst same
        simp [Server.channel, found, closed, Option.filter]
      · simp [Server.channel, Function.update_of_ne same]
    · rfl

theorem sent_afterSend_channel : (afterSend s d text).sent = s.sent ++
    match s.channel d with
    | none => []
    | some socket => [⟨socket, d, text⟩] := by
  unfold afterSend Server.channel
  cases found : s.connections d with
  | none => simp
  | some socket =>
      cases closed : s.closed socket with
      | true => simp [closed, Option.filter]
      | false => simp [closed, Option.filter]

theorem afterWipes (d : Uuid) (wipes : List PendingWipe) (s : Server) :
    let s' := wipes.foldl
      (fun s wipe => afterSend s d (WsMessage.wipeCommand wipe.command).text) s
    s'.sent = s.sent ++ wipeFrames s d wipes ∧ s'.redis = s.redis ∧
      ∀ d', s'.channel d' = s.channel d' := by
  induction wipes generalizing s with
  | nil =>
      refine ⟨?_, rfl, fun _ => rfl⟩
      unfold wipeFrames
      split <;> simp
  | cons wipe wipes ih =>
      obtain ⟨sent, redis, channel⟩ := ih (afterSend s d (WsMessage.wipeCommand wipe.command).text)
      refine ⟨?_, redis.trans redis_afterSend, fun d' => (channel d').trans channel_afterSend⟩
      rw [List.foldl_cons, sent, sent_afterSend_channel]
      simp only [wipeFrames, channel_afterSend]
      split <;> simp

variable (serde chrono) in
theorem after_visited (visit : Visit) (s : Server) :
    (visited serde chrono s visit).sent = s.sent ++ visitFrames serde chrono s visit ∧
      (visited serde chrono s visit).redis = s.redis ∧
      ∀ d, (visited serde chrono s visit).channel d = s.channel d := by
  unfold visited visitFrames
  cases keyDevice visit.1 with
  | none => simp
  | some d =>
      dsimp only
      split
      · exact afterWipes d _ s
      · rename_i absent
        have away : s.channel d = none := by
          rw [Bool.not_eq_true, Option.isSome_eq_false_iff, Option.isNone_iff_eq_none] at absent
          rw [Server.channel, absent]
          rfl
        simp [wipeFrames, away]

theorem redis_visits (visits : List Visit) (s : Server) :
    (visits.foldl (visited serde chrono) s).redis = s.redis := by
  induction visits generalizing s with
  | nil => rfl
  | cons visit visits ih =>
      rw [List.foldl_cons, ih, (after_visited serde chrono visit s).2.1]

theorem sent_visits (visits : List Visit) (s : Server) :
    (visits.foldl (visited serde chrono) s).sent =
      s.sent ++ visits.flatMap (visitFrames serde chrono s) := by
  induction visits generalizing s with
  | nil => simp
  | cons visit visits ih =>
      obtain ⟨sent, redis, channel⟩ := after_visited serde chrono visit s
      have same : visitFrames serde chrono (visited serde chrono s visit) =
          visitFrames serde chrono s := by
        funext visit'
        simp only [visitFrames, wipeFrames, redis, channel]
      rw [List.foldl_cons, ih, sent, same, List.flatMap_cons, List.append_assoc]

theorem runs_sendWipes : Runs Clean (sendWipes d wipes) s () s' ↔
    wipes.foldl (fun s wipe => afterSend s d (WsMessage.wipeCommand wipe.command).text) s = s' := by
  rw [sendWipes]
  induction wipes generalizing s with
  | nil => exact runs_pure.trans (and_iff_right rfl)
  | cons wipe wipes ih =>
      rw [List.forM_cons, List.foldl_cons, runs_bind]
      constructor
      · rintro ⟨_, m, first, rest⟩
        obtain ⟨sent, m', told, same⟩ := runs_bind.mp first
        obtain ⟨-, rfl⟩ := runs_pure.mp same
        obtain ⟨-, rfl⟩ := runs_sendToDevice.mp told
        exact ih.mp rest
      · intro left
        obtain ⟨sent, m, told⟩ := total_sendToDevice d (.wipeCommand wipe.command) s
        obtain ⟨-, rfl⟩ := runs_sendToDevice.mp told
        exact ⟨(), _, runs_bind.mpr ⟨sent, _, told, runs_pure.mpr ⟨rfl, rfl⟩⟩, ih.mpr left⟩

/-- What a visit may be, beside its key. -/
abbrev Answers (r : Redis) (visit : Visit) : Prop :=
  ∀ d, keyDevice visit.1 = some d → Answered (keyPrefix "wipe" d) r .zero visit.2

theorem visit_of_sweeps {key : String}
    (run : Runs Clean (sweepWipe serde chrono pages key).run s (.ok ()) s') :
    ∃ names, Answers s.redis (key, names) ∧ visited serde chrono s (key, names) = s' := by
  unfold sweepWipe at run
  simp only [Answers, visited]
  cases named : keyDevice key with
  | none =>
      rw [named] at run
      exact ⟨[], fun d other => (by cases other), (runs_run_pure.mp run).2⟩
  | some d =>
      rw [named] at run
      simp only [runs_run_bind_ok, runs_atomically] at run
      obtain ⟨online, _, ⟨is, rfl⟩, rest⟩ := run
      obtain rfl := Except.ok.inj is
      by_cases there : (s.connections d).isSome
      · simp only [if_pos there, runs_run_bind_ok, runs_attempt, runs_onRedis] at rest ⊢
        obtain ⟨_, m, ⟨outcome, ⟨r, found, rfl⟩, same⟩, rest⟩ := rest
        obtain rfl := Except.ok.inj same
        obtain ⟨wipes, rfl⟩ := succeeds_scanLoop succeeds_pendingPage _ _ _ _ _ _ found
        obtain ⟨rfl, names, answered, rfl⟩ := answered_of_gathers found
        obtain ⟨_, sends, -⟩ := runs_run_lift.mp rest
        refine ⟨names, fun d' same => ?_, runs_sendWipes.mp sends⟩
        rw [← Option.some.inj same]
        exact answered
      · rw [if_neg there] at rest
        refine ⟨(Messaging.owed s.redis (keyPrefix "wipe" d) .zero).map Prod.fst,
          fun d' same => ?_, ?_⟩
        · rw [← Option.some.inj same]
          exact answered_owed _ _ _
        · dsimp only
          rw [if_neg there]
          exact (runs_run_pure.mp rest).2

variable (serde chrono) in
theorem sweeps_of_visit {visit : Visit} (answers : Answers s.redis visit) :
    ∃ n, ∀ pages, n ≤ pages → Runs Clean (sweepWipe serde chrono pages visit.1).run s (.ok ())
      (visited serde chrono s visit) := by
  unfold sweepWipe visited
  cases named : keyDevice visit.1 with
  | none => exact ⟨0, fun pages enough => runs_run_pure.mpr ⟨rfl, rfl⟩⟩
  | some d =>
      obtain ⟨n, gathers⟩ := gathers_of_answered serde chrono (answers d named)
      refine ⟨n, fun pages enough => ?_⟩
      simp only [runs_run_bind_ok, runs_atomically]
      refine ⟨_, s, ⟨rfl, rfl⟩, ?_⟩
      split
      · simp only [runs_run_bind_ok, runs_attempt, runs_onRedis]
        refine ⟨_, s, ⟨_, ⟨_, gathers pages enough [], rfl⟩, rfl⟩, ?_⟩
        exact runs_run_lift.mpr ⟨(), runs_sendWipes.mpr rfl, rfl⟩
      · exact runs_run_pure.mpr ⟨rfl, rfl⟩

theorem visits_of_sweeps
    (run : Runs Clean (forM keys (sweepWipe serde chrono pages)).run s (.ok ()) s') :
    ∃ visits : List Visit, visits.map Prod.fst = keys ∧
      (∀ visit ∈ visits, Answers s.redis visit) ∧
      visits.foldl (visited serde chrono) s = s' := by
  induction keys generalizing s with
  | nil => exact ⟨[], rfl, fun visit member => (by cases member), (runs_run_pure.mp run).2⟩
  | cons key keys ih =>
      rw [List.forM_cons] at run
      obtain ⟨_, m, first, rest⟩ := runs_run_bind_ok.mp run
      obtain ⟨names, answers, rfl⟩ := visit_of_sweeps first
      obtain ⟨visits, rfl, each, same⟩ := ih rest
      rw [(after_visited serde chrono _ s).2.1] at each
      exact ⟨(key, names) :: visits, rfl, List.forall_mem_cons.mpr ⟨answers, each⟩, same⟩

variable (serde chrono) in
theorem sweeps_of_visits (each : ∀ visit ∈ visits, Answers s.redis visit) :
    ∃ n, ∀ pages, n ≤ pages →
      Runs Clean (forM (visits.map Prod.fst) (sweepWipe serde chrono pages)).run s (.ok ())
        (visits.foldl (visited serde chrono) s) := by
  induction visits generalizing s with
  | nil => exact ⟨0, fun pages enough => runs_run_pure.mpr ⟨rfl, rfl⟩⟩
  | cons visit visits ih =>
      obtain ⟨answers, later⟩ := List.forall_mem_cons.mp each
      rw [← (after_visited serde chrono visit s).2.1] at later
      obtain ⟨n, first⟩ := sweeps_of_visit serde chrono answers
      obtain ⟨n', rest⟩ := ih later
      refine ⟨max n n', fun pages enough => ?_⟩
      rw [List.map_cons, List.forM_cons]
      exact runs_run_bind_ok.mpr ⟨(), _, first pages (Nat.le_trans (Nat.le_max_left n n') enough),
        rest pages (Nat.le_trans (Nat.le_max_right n n') enough)⟩

theorem runs_wipePending_succ {rounds : Nat} {cursor : Cursor} :
    Runs Clean (wipePending serde chrono (rounds + 1) pages cursor).run s (.ok ()) s' ↔
      ∃ c next keys m, scanned c s.redis "wipe:" cursor = (next, keys) ∧
        Runs Clean (forM keys (sweepWipe serde chrono pages)).run s (.ok ()) m ∧
        if next = .zero then m = s'
        else Runs Clean (wipePending serde chrono rounds pages next).run m (.ok ()) s' := by
  have ends {m : Server} {next : Cursor} :
      Runs Clean (if next = .zero then return () else wipePending serde chrono rounds pages next :
          Task MessagingError Unit).run m (.ok ()) s' ↔
        if next = .zero then m = s'
        else Runs Clean (wipePending serde chrono rounds pages next).run m (.ok ()) s' := by
    split
    · exact runs_run_pure.trans (and_iff_right rfl)
    · exact Iff.rfl
  simp only [wipePending, runs_run_bind_ok, runs_onRedis, runs_scan_iff, ends]
  constructor
  · rintro ⟨⟨next, keys⟩, _, ⟨_, ⟨c, answer, rfl⟩, rfl⟩, _, m, sweeps, rest⟩
    exact ⟨c, next, keys, m, Except.ok.inj answer, sweeps, rest⟩
  · rintro ⟨c, next, keys, m, answer, sweeps, rest⟩
    exact ⟨(next, keys), s,
      ⟨s.redis, ⟨c, congrArg Except.ok answer, rfl⟩, rfl⟩, (), m, sweeps, rest⟩

theorem visits_of_pass {rounds : Nat} {cursor : Cursor}
    (run : Runs Clean (wipePending serde chrono rounds pages cursor).run s (.ok ()) s') :
    ∃ visits : List Visit, Answered "wipe:" s.redis cursor (visits.map Prod.fst) ∧
      (∀ visit ∈ visits, Answers s.redis visit) ∧
      visits.foldl (visited serde chrono) s = s' := by
  induction rounds generalizing s cursor with
  | zero => cases run
  | succ rounds ih =>
      obtain ⟨c, next, keys, m, answer, sweeps, rest⟩ := runs_wipePending_succ.mp run
      obtain ⟨visits, rfl, each, rfl⟩ := visits_of_sweeps sweeps
      split at rest
      · rename_i done
        subst done
        exact ⟨visits, .last c answer, each, rest⟩
      · rename_i goes
        obtain ⟨later, answered, each', same⟩ := ih rest
        rw [redis_visits] at answered each'
        refine ⟨visits ++ later, ?_, List.forall_mem_append.mpr ⟨each, each'⟩, ?_⟩
        · rw [List.map_append]
          exact .more c answer goes answered
        · rw [List.foldl_append, same]

variable (serde chrono) in
theorem pass_of_visits {cursor : Cursor} (answered : Answered "wipe:" s.redis cursor keys)
    {visits : List Visit} (names : visits.map Prod.fst = keys)
    (each : ∀ visit ∈ visits, Answers s.redis visit) :
    ∃ n, ∀ rounds pages, n ≤ rounds → n ≤ pages →
      Runs Clean (wipePending serde chrono rounds pages cursor).run s (.ok ())
        (visits.foldl (visited serde chrono) s) := by
  generalize same : s.redis = r at answered
  induction answered generalizing s visits with
  | @last cursor keys c answer =>
      subst same names
      obtain ⟨n, sweeps⟩ := sweeps_of_visits serde chrono each
      refine ⟨n + 1, fun rounds pages enough enough' => ?_⟩
      obtain ⟨rounds, rfl⟩ := Nat.exists_eq_add_of_le' (Nat.le_trans (Nat.le_add_left 1 n) enough)
      refine runs_wipePending_succ.mpr
        ⟨c, _, _, _, answer, sweeps pages (Nat.le_of_succ_le enough'), ?_⟩
      rw [if_pos rfl]
  | @more cursor next keys later c answer goes rest ih =>
      obtain ⟨visits, after, rfl, rfl, rfl⟩ := List.map_eq_append_iff.mp names
      obtain ⟨each, each'⟩ := List.forall_mem_append.mp each
      have redis : (visits.foldl (visited serde chrono) s).redis = s.redis := redis_visits visits s
      rw [← redis] at each'
      obtain ⟨n, sweeps⟩ := sweeps_of_visits serde chrono each
      obtain ⟨n', onward⟩ := ih rfl each' (redis.trans same)
      subst same
      refine ⟨max n n' + 1, fun rounds pages enough enough' => ?_⟩
      obtain ⟨rounds, rfl⟩ := Nat.exists_eq_add_of_le' (Nat.le_trans (Nat.le_add_left 1 _) enough)
      refine runs_wipePending_succ.mpr ⟨c, _, _, _, answer, sweeps pages (by omega), ?_⟩
      rw [if_neg goes, List.foldl_append]
      exact onward rounds pages (by omega) (by omega)

variable (serde chrono s) in
theorem runs_iff_pass : (∃ rounds pages,
    Runs Clean (wipePending serde chrono rounds pages .zero).run s (.ok ()) s') ↔
      ∃ visits, Pass serde chrono s visits s' := by
  constructor
  · rintro ⟨rounds, pages, run⟩
    obtain ⟨visits, keys, each, same⟩ := visits_of_pass run
    exact ⟨visits, keys, each, same⟩
  · rintro ⟨visits, keys, each, rfl⟩
    obtain ⟨n, runs⟩ := pass_of_visits serde chrono keys rfl each
    exact ⟨n, n, runs n n (Nat.le_refl n) (Nat.le_refl n)⟩

/-- An iteration about a device that answers with no key twice finds each of its wipes once. -/
theorem perm_wipesUnder (answered : Answered (keyPrefix "wipe" d) s.redis .zero names)
    (once : names.Nodup) :
    (wipesUnder serde chrono s.redis names).Perm (pendingWipes serde chrono s.redis d) := by
  have present (key : String) : storedWipe serde chrono s.redis key =
      if (s.redis.peek key).isSome then storedWipe serde chrono s.redis key else none := by
    cases found : s.redis.peek key with
    | none => simp [storedWipe, Store.get?_eq_none.mpr found]
    | some entry => simp
  have same : wipesUnder serde chrono s.redis names = wipesUnder serde chrono s.redis
      (names.filter fun key => (s.redis.peek key).isSome) := by
    rw [wipesUnder, wipesUnder, List.filterMap_filter]
    exact congrArg (fun f => names.filterMap f) (funext present)
  rw [same, pendingWipes, wipesUnder, wipesUnder]
  refine List.Perm.filterMap _ ((List.perm_ext_iff_of_nodup (once.filter _)
    (List.Nodup.filter _ s.redis.nodup_keys)).mpr fun key => ?_)
  simp only [List.mem_filter, Store.mem_keys]
  constructor
  · rintro ⟨listed, there⟩
    exact ⟨there, answered.prefixed key listed⟩
  · rintro ⟨there, prefixed⟩
    exact ⟨answered.of_present prefixed there, there⟩

theorem filter_wipeFrames : (wipeFrames s d' wipes).filter (fun f => f.deviceId = d) =
    if d' = d then wipeFrames s d' wipes else [] := by
  unfold wipeFrames
  split
  · simp
  · by_cases same : d' = d
    · simp [same]
    · simp [same]

theorem perm_wipeFrames {wipes wipes' : List PendingWipe} (perm : wipes.Perm wipes') :
    (wipeFrames s d wipes).Perm (wipeFrames s d wipes') := by
  unfold wipeFrames
  split
  · exact List.Perm.refl _
  · exact perm.map _

/-- A visit sends the pending wipes of the device that its key names. -/
theorem perm_visitFrames {visit : Visit} (answers : Answers s.redis visit) (once : visit.2.Nodup) :
    ((visitFrames serde chrono s visit).filter fun f => f.deviceId = d).Perm
      (if keyDevice visit.1 = some d then wipeFrames s d (pendingWipes serde chrono s.redis d)
        else []) := by
  unfold visitFrames
  cases named : keyDevice visit.1 with
  | none => simp
  | some d' =>
      dsimp only
      simp only [filter_wipeFrames, Option.some.injEq]
      by_cases same : d' = d
      · subst same
        rw [if_pos rfl, if_pos rfl]
        exact perm_wipeFrames (perm_wipesUnder (answers d' named) once)
      · rw [if_neg same, if_neg same]

/-- A pass sends all of them once for each key that names the device. -/
theorem perm_visits (each : ∀ visit ∈ visits, Answers s.redis visit)
    (once : ∀ visit ∈ visits, visit.2.Nodup) :
    ((visits.flatMap (visitFrames serde chrono s)).filter fun f => f.deviceId = d).Perm
      (List.replicate ((visits.map Prod.fst).countP fun key => keyDevice key = some d)
        (wipeFrames s d (pendingWipes serde chrono s.redis d))).flatten := by
  induction visits with
  | nil => simp
  | cons visit visits ih =>
      obtain ⟨answers, later⟩ := List.forall_mem_cons.mp each
      obtain ⟨one, rest⟩ := List.forall_mem_cons.mp once
      rw [List.flatMap_cons, List.filter_append, List.map_cons, List.countP_cons]
      refine ((perm_visitFrames answers one).append (ih later rest)).trans ?_
      by_cases named : keyDevice visit.1 = some d
      · simp [named, List.replicate_succ]
      · simp [named]

theorem perm_flatten_replicate_iff {α : Type} {n : Nat} {items : List α} :
    (List.replicate n items).flatten.Perm items ↔ items = [] ∨ n = 1 := by
  constructor
  · intro perm
    have lengths := perm.length_eq
    cases n with
    | zero => exact Or.inl (List.nil_perm.mp perm)
    | succ n =>
        cases n with
        | zero => exact Or.inr rfl
        | succ n =>
            simp only [List.replicate_succ, List.flatten_cons, List.length_append] at lengths
            exact Or.inl (List.length_eq_zero_iff.mp (by omega))
  · rintro (rfl | rfl)
    · simp
    · simp

/-- A list without repeats has one of a kind exactly if it has one and no two. -/
theorem countP_eq_one_iff {α : Type} {items : List α} (once : items.Nodup) {p : α → Bool} :
    items.countP p = 1 ↔ (∃ a ∈ items, p a = true) ∧
      ∀ a ∈ items, ∀ b ∈ items, p a = true → p b = true → a = b := by
  rw [List.countP_eq_length_filter]
  have unique := once.filter p
  constructor
  · intro one
    obtain ⟨a, only⟩ := List.length_eq_one_iff.mp one
    have mem (b : α) : b ∈ items ∧ p b = true ↔ b = a := by
      rw [← List.mem_filter, only, List.mem_singleton]
    obtain ⟨listed, holds⟩ := (mem a).mpr rfl
    refine ⟨⟨a, listed, holds⟩, fun b member c member' holds holds' => ?_⟩
    rw [(mem b).mp ⟨member, holds⟩, (mem c).mp ⟨member', holds'⟩]
  · rintro ⟨⟨a, listed, holds⟩, same⟩
    refine List.length_eq_one_iff.mpr ⟨a, List.perm_singleton.mp ?_⟩
    refine (List.perm_ext_iff_of_nodup unique (List.nodup_singleton a)).mpr fun b => ?_
    rw [List.mem_filter, List.mem_singleton]
    constructor
    · rintro ⟨member, holds'⟩
      exact same b member a listed holds' holds
    · rintro rfl
      exact ⟨listed, holds⟩

theorem hasPrefix_wipe_key (d : Uuid) (id : String) : hasPrefix "wipe:" (wipeKey d id) = true :=
  hasPrefix_iff.mpr ⟨d.display ++ ":" ++ id, by simp [wipeKey, keyPrefix, String.append_assoc]⟩

theorem exists_key_of_pending (waits : pendingWipes serde chrono s.redis d ≠ []) :
    ∃ key, keyDevice key = some d ∧ hasPrefix "wipe:" key = true ∧ (s.redis.peek key).isSome := by
  obtain ⟨wipe, member⟩ := List.exists_mem_of_ne_nil _ waits
  obtain ⟨key, listed, -⟩ := List.mem_filterMap.mp member
  obtain ⟨present, prefixed⟩ := List.mem_filter.mp listed
  obtain ⟨id, rfl⟩ := hasPrefix_wipe.mp prefixed
  exact ⟨_, keyDevice_wipeKey d id, hasPrefix_wipe_key d id, Store.mem_keys.mp present⟩

theorem wipeFrames_eq_nil : wipeFrames s d wipes = [] ↔ s.channel d = none ∨ wipes = [] := by
  unfold wipeFrames
  cases s.channel d with
  | none => simp
  | some socket => simp

/-- A pass sends each pending wipe once exactly if at most one key names each device that is
connected and has one. -/
theorem Pass.sentOnce_iff (pass : Pass serde chrono s visits s')
    (noRepeats : NoRepeats s.redis visits) :
    SentOnce serde chrono s s' ↔ OneKeyEach serde chrono s := by
  obtain ⟨keys, each, rfl⟩ := pass
  have sends : SentOnce serde chrono s (visits.foldl (visited serde chrono) s) ↔
      ∀ d, ((visits.flatMap (visitFrames serde chrono s)).filter fun f => f.deviceId = d).Perm
        (wipeFrames s d (pendingWipes serde chrono s.redis d)) := by
    rw [SentOnce, sent_visits]
    simp only [List.append_cancel_left_eq, exists_eq_left']
  rw [sends]
  refine forall_congr' fun d => ?_
  rw [(perm_visits each noRepeats.each).congr_left, perm_flatten_replicate_iff, wipeFrames_eq_nil,
    countP_eq_one_iff noRepeats.keys]
  have visit_iff (key : String) : key ∈ visits.map Prod.fst ↔
      hasPrefix "wipe:" key = true ∧ (s.redis.peek key).isSome := by
    constructor
    · intro listed
      obtain ⟨visit, member, rfl⟩ := List.mem_map.mp listed
      exact ⟨keys.prefixed _ listed, noRepeats.present visit member⟩
    · rintro ⟨prefixed, present⟩
      exact keys.of_present prefixed present
  constructor
  · rintro ((away | idle) | ⟨-, same⟩) open_ waits key key' named named' prefixed
      prefixed' there there'
    · exact absurd away open_
    · exact absurd idle waits
    · exact same key ((visit_iff key).mpr ⟨prefixed, there⟩) key'
        ((visit_iff key').mpr ⟨prefixed', there'⟩) (decide_eq_true named) (decide_eq_true named')
  · intro oneKey
    by_cases away : s.channel d = none
    · exact Or.inl (Or.inl away)
    · by_cases idle : pendingWipes serde chrono s.redis d = []
      · exact Or.inl (Or.inr idle)
      · right
        obtain ⟨key, named, prefixed, present⟩ := exists_key_of_pending idle
        refine ⟨⟨key, (visit_iff key).mpr ⟨prefixed, present⟩, decide_eq_true named⟩, ?_⟩
        intro a listed b listed' named named'
        obtain ⟨prefixed, there⟩ := (visit_iff a).mp listed
        obtain ⟨prefixed', there'⟩ := (visit_iff b).mp listed'
        exact oneKey away idle a b (of_decide_eq_true named) (of_decide_eq_true named') prefixed
          prefixed' there there'

variable (serde chrono s) in
/-- The runs of the sweep are its passes, and one in which SCAN repeats no key sends each pending
wipe once exactly if at most one key names each device that is connected and has one. -/
theorem sweep_sends_once_iff :
    (∀ s', (∃ rounds pages,
      Runs Clean (wipePending serde chrono rounds pages .zero).run s (.ok ()) s') ↔
        ∃ visits, Pass serde chrono s visits s') ∧
    ∀ visits s', Pass serde chrono s visits s' → NoRepeats s.redis visits →
      (SentOnce serde chrono s s' ↔ OneKeyEach serde chrono s) :=
  ⟨fun _ => runs_iff_pass serde chrono s, fun _ _ => Pass.sentOnce_iff⟩

/-- Everything is to be wiped. -/
def wipeAll (id : String) : PendingWipe := ⟨id, ⟨.all, none, none⟩, 0⟩

/-- Redis with these wipes of these devices. -/
def holdingWipes (wipes : List (Uuid × String)) : Redis :=
  wipes.foldl (fun r wipe =>
    r.set (wipeKey wipe.1 wipe.2) (Json.toVec ((wipeAll wipe.2).toJson .sample)) none) (.empty 0)

/-- The devices 1 and 2 are connected. -/
def onlineWith (wipes : List (Uuid × String)) : Server :=
  { ((Server.start 0 {}).connect (.replicate 16 1) 0).connect (.replicate 16 2) 1 with
    redis := holdingWipes wipes }

/-- Each key of an answer is visited, and all keys of its device are in one answer. -/
theorem pass_of_answer {wipes : List (Uuid × String)} {visits : List Visit}
    (sweep : scanned {} (holdingWipes wipes) "wipe:" .zero = (.zero, visits.map Prod.fst))
    (named : ∀ visit ∈ visits, ∃ wipe ∈ wipes, visit.1 = wipeKey wipe.1 wipe.2 ∧
      scanned {} (holdingWipes wipes) (keyPrefix "wipe" wipe.1) .zero = (.zero, visit.2)) :
    ∃ s', Pass .sample .sample (onlineWith wipes) visits s' := by
  refine ⟨_, .last {} sweep, fun visit member d is => ?_, rfl⟩
  obtain ⟨wipe, -, same, device⟩ := named visit member
  rw [same] at is
  obtain rfl := Option.some.inj ((keyDevice_wipeKey _ _).symm.trans is)
  exact .last {} device

/-- The devices 1 and 2 have a wipe each, and each is sent once. -/
theorem sent_once_each : ∃ visits s', visits.length = 2 ∧
    Pass .sample .sample (onlineWith [(.replicate 16 1, "1"), (.replicate 16 2, "2")]) visits s' ∧
    SentOnce .sample .sample (onlineWith [(.replicate 16 1, "1"), (.replicate 16 2, "2")]) s' := by
  obtain ⟨s', pass⟩ := @pass_of_answer [(.replicate 16 1, "1"), (.replicate 16 2, "2")]
    [(wipeKey (.replicate 16 2) "2", [wipeKey (.replicate 16 2) "2"]),
      (wipeKey (.replicate 16 1) "1", [wipeKey (.replicate 16 1) "1"])] (by decide +kernel) (by
    simp only [List.forall_mem_cons]
    refine ⟨⟨_, List.mem_cons_of_mem _ List.mem_cons_self, rfl, ?_⟩,
      ⟨_, List.mem_cons_self, rfl, ?_⟩, List.forall_mem_nil _⟩ <;> decide +kernel)
  refine ⟨_, s', rfl, pass, ((sweep_sends_once_iff _ _ _).2 _ _ pass ?_).mpr ?_⟩
  · exact ⟨by decide +kernel, by decide +kernel, by decide +kernel⟩
  have only (key : String) (there : ((holdingWipes
      [(.replicate 16 1, "1"), (.replicate 16 2, "2")]).peek key).isSome) :
      key = wipeKey (.replicate 16 2) "2" ∨ key = wipeKey (.replicate 16 1) "1" := by
    by_contra! other
    have absent : (holdingWipes [(.replicate 16 1, "1"), (.replicate 16 2, "2")]).peek key = none :=
      (Store.peek_set_of_ne other.1).trans (Store.peek_set_of_ne other.2)
    rw [absent] at there
    cases there
  intro d _ _ key key' named named' _ _ there there'
  rcases only key there with rfl | rfl <;> rcases only key' there' with rfl | rfl
  · rfl
  · rw [keyDevice_wipeKey] at named named'
    cases named.trans named'.symm
  · rw [keyDevice_wipeKey] at named named'
    cases named.trans named'.symm
  · rfl

/-- Two wipes of a device are each sent twice. -/
theorem sent_twice : ¬ ∀ s visits s', Pass .sample .sample s visits s' → NoRepeats s.redis visits →
    SentOnce .sample .sample s s' := by
  intro all
  let phone : Uuid := .replicate 16 1
  let s := onlineWith [(phone, "1"), (phone, "2")]
  have different : wipeKey phone "1" ≠ wipeKey phone "2" := by decide +kernel
  have stored : s.redis.get? (wipeKey phone "1") =
      some (Json.toVec ((wipeAll "1").toJson .sample)) := by
    show (holdingWipes _).get? _ = _
    rw [holdingWipes, List.foldl_cons, List.foldl_cons, List.foldl_nil,
      Store.get?_set_of_ne different]
    exact Store.get?_set fun n given => (by cases given)
  obtain ⟨s', pass⟩ := @pass_of_answer [(phone, "1"), (phone, "2")]
    [(wipeKey phone "2", [wipeKey phone "2", wipeKey phone "1"]),
      (wipeKey phone "1", [wipeKey phone "2", wipeKey phone "1"])] (by decide +kernel) (by
    simp only [List.forall_mem_cons]
    refine ⟨⟨_, List.mem_cons_of_mem _ List.mem_cons_self, rfl, ?_⟩,
      ⟨_, List.mem_cons_self, rfl, ?_⟩, List.forall_mem_nil _⟩ <;> decide +kernel)
  have noRepeats : NoRepeats s.redis [(wipeKey phone "2", [wipeKey phone "2", wipeKey phone "1"]),
      (wipeKey phone "1", [wipeKey phone "2", wipeKey phone "1"])] :=
    ⟨by decide +kernel, by decide +kernel, by decide +kernel⟩
  have waits : wipeAll "1" ∈ pendingWipes .sample .sample s.redis phone := by
    refine List.mem_filterMap.mpr
      ⟨wipeKey phone "1", List.mem_filter.mpr ⟨Store.mem_keys.mpr ?_, ?_⟩, ?_⟩
    · decide +kernel
    · exact hasPrefix_wipe.mpr ⟨"1", rfl⟩
    · rw [storedWipe, stored, Option.bind_some,
        PendingWipe.fromSlice_toVec SerdeJson.sample_lawful Chrono.sample_inverse]
  have oneKey := (pass.sentOnce_iff noRepeats).mp (all _ _ _ pass noRepeats)
  have open_ : s.channel phone ≠ none := Option.some_ne_none 0
  have there : (s.redis.peek (wipeKey phone "1")).isSome := by decide +kernel
  have there' : (s.redis.peek (wipeKey phone "2")).isSome := by decide +kernel
  exact different (oneKey _ open_ (List.ne_nil_of_mem waits) _ _ (keyDevice_wipeKey _ _)
    (keyDevice_wipeKey _ _) (hasPrefix_wipe_key _ _) (hasPrefix_wipe_key _ _) there there')

end

end Hysj.Api
