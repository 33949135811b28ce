import Hysj.Api.Tokens
import Hysj.Base.SlidingWindow

set_option autoImplicit false

/- The rate limiter over any sequence of its calls. -/
namespace Hysj.Api

open Program SlidingWindow

/-- `RateLimiter`: the map from a key to its request timestamps. -/
structure RateLimiter where
  entries : String → Option (List Nat)

namespace RateLimiter

def new : RateLimiter := ⟨fun _ => none⟩

/-- `self.entries.entry(key.to_string()).or_default()` -/
def entry (limiter : RateLimiter) (key : String) : List Nat := (limiter.entries key).getD []

def checkRateLimit (limiter : RateLimiter) (now : Nat) (key : String)
    (maxRequests window : Nat) : Bool × RateLimiter :=
  -- `t > now - window` for every timestamp kept
  let kept := (limiter.entry key).filter fun t => now < t + window
  if maxRequests ≤ kept.length then
    (false, ⟨Function.update limiter.entries key (some kept)⟩)
  else (true, ⟨Function.update limiter.entries key (some (kept ++ [now]))⟩)

/-- The timestamps that a clean-up leaves of a key; a key without any goes. -/
def aged (now maxAge : Nat) (timestamps : List Nat) : Option (List Nat) :=
  let kept := timestamps.filter fun t => now < t + maxAge
  if kept.isEmpty then none else some kept

def cleanup (limiter : RateLimiter) (now : Nat) (maxAge : Nat) : RateLimiter :=
  ⟨fun key => (limiter.entries key).bind (aged now maxAge)⟩

section

variable {now maxRequests window : Nat} {limiter : RateLimiter} {key : String}

theorem checkRateLimit_of_full
    (full : maxRequests ≤ (within window now (limiter.entry key)).length) :
    limiter.checkRateLimit now key maxRequests window =
      (false, ⟨Function.update limiter.entries key
      (some (within window now (limiter.entry key)))⟩) :=
  if_pos full

theorem checkRateLimit_of_room
    (room : (within window now (limiter.entry key)).length < maxRequests) :
    limiter.checkRateLimit now key maxRequests window =
      (true, ⟨Function.update limiter.entries key
        (some (within window now (limiter.entry key) ++ [now]))⟩) :=
  if_neg (Nat.not_le.mpr room)

theorem checkRateLimit_fst :
    (limiter.checkRateLimit now key maxRequests window).1 = true ↔
      (within window now (limiter.entry key)).length < maxRequests := by
  rcases Nat.lt_or_ge (within window now (limiter.entry key)).length maxRequests with room | full
  · rw [checkRateLimit_of_room room]
    exact iff_of_true rfl room
  · rw [checkRateLimit_of_full full]
    exact iff_of_false Bool.false_ne_true (Nat.not_lt.mpr full)

/-- A call prunes the timestamps of its key and adds the time it allows a request. -/
theorem entry_checkRateLimit_self :
    (limiter.checkRateLimit now key maxRequests window).2.entry key =
      within window now (limiter.entry key) ++
        if (limiter.checkRateLimit now key maxRequests window).1 then [now] else [] := by
  rcases Nat.lt_or_ge (within window now (limiter.entry key)).length maxRequests with room | full
  · simp [checkRateLimit_of_room room, entry]
  · simp [checkRateLimit_of_full full, entry]

theorem entry_checkRateLimit_ne {other : String} (different : other ≠ key) :
    (limiter.checkRateLimit now key maxRequests window).2.entry other = limiter.entry other := by
  rcases Nat.lt_or_ge (within window now (limiter.entry key)).length maxRequests with room | full
  · simp [checkRateLimit_of_room room, entry, different]
  · simp [checkRateLimit_of_full full, entry, different]

end

theorem getD_aged (now maxAge : Nat) (timestamps : List Nat) :
    (aged now maxAge timestamps).getD [] = within maxAge now timestamps := by
  show (if (within maxAge now timestamps).isEmpty then none
    else some (within maxAge now timestamps)).getD [] = within maxAge now timestamps
  split
  · rename_i empty
    exact (List.isEmpty_iff.mp empty).symm
  · rfl

theorem entry_cleanup (now : Nat) (limiter : RateLimiter) (maxAge : Nat) (key : String) :
    (limiter.cleanup now maxAge).entry key = within maxAge now (limiter.entry key) := by
  show ((limiter.entries key).bind (aged now maxAge)).getD [] =
    within maxAge now ((limiter.entries key).getD [])
  cases limiter.entries key with
  | none => rfl
  | some timestamps => exact getD_aged now maxAge timestamps

end RateLimiter

/-- A call on the rate limiter. -/
inductive LimiterCall where
  | check (key : String) (maxRequests window : Nat)
  | cleanup (maxAge : Nat)

/-- Every key has one limit and one window, and no clean-up has a shorter horizon. -/
def LimiterCall.Follows (limit window : String → Nat) : LimiterCall → Prop
  | .check key maxRequests length => maxRequests = limit key ∧ length = window key
  | .cleanup maxAge => ∀ key, window key ≤ maxAge

namespace RateLimiter

/-- The limiter after a call at a time, and whether the call allows a request. -/
def perform (limiter : RateLimiter) (now : Nat) : LimiterCall → Bool × RateLimiter
  | .check key maxRequests window => limiter.checkRateLimit now key maxRequests window
  | .cleanup maxAge => (false, limiter.cleanup now maxAge)

def performAll (limiter : RateLimiter) : List (Nat × LimiterCall) → RateLimiter
  | [] => limiter
  | call :: calls => performAll (limiter.perform call.1 call.2).2 calls

/-- The time of a call, if it returns `true` for the key. -/
def passed (limiter : RateLimiter) (key : String) (now : Nat) : LimiterCall → List Nat
  | .check other maxRequests window =>
      if other = key ∧ (limiter.checkRateLimit now other maxRequests window).1 then [now] else []
  | .cleanup _ => []

/-- The times of the calls on the key that return `true`. -/
def allowed (limiter : RateLimiter) (key : String) : List (Nat × LimiterCall) → List Nat
  | [] => []
  | call :: calls =>
      limiter.passed key call.1 call.2 ++ allowed (limiter.perform call.1 call.2).2 key calls

variable {limit window : String → Nat} {limiter : RateLimiter} {key : String} {clock now : Nat}
variable {history : List Nat}

theorem mem_passed {call : LimiterCall} {t : Nat} (member : t ∈ limiter.passed key now call) :
    t = now := by
  cases call with
  | check other maxRequests length =>
      simp only [passed] at member
      split at member
      · exact List.mem_singleton.mp member
      · cases member
  | cleanup maxAge => cases member

theorem mem_allowed {calls : List (Nat × LimiterCall)} {t : Nat}
    (member : t ∈ limiter.allowed key calls) : ∃ call ∈ calls, call.1 = t := by
  induction calls generalizing limiter with
  | nil => cases member
  | cons call calls ih =>
      rcases List.mem_append.mp member with here | later
      · exact ⟨call, List.mem_cons_self, (mem_passed here).symm⟩
      · obtain ⟨found, inside, same⟩ := ih later
        exact ⟨found, List.mem_cons_of_mem call inside, same⟩

/-- One call keeps the timestamps of a key a log of the requests allowed for it. -/
theorem tracks_perform {call : LimiterCall}
    (tracks : Tracks (window key) clock history (limiter.entry key))
    (elapsed : clock ≤ now) (follows : call.Follows limit window) :
    Tracks (window key) now (history ++ limiter.passed key now call)
      ((limiter.perform now call).2.entry key) := by
  cases call with
  | check other maxRequests length =>
      have fixed : length = window other := follows.2
      show Tracks (window key) now (history ++ if other = key ∧
          (limiter.checkRateLimit now other maxRequests length).1 then [now] else [])
        ((limiter.checkRateLimit now other maxRequests length).2.entry key)
      by_cases same : other = key
      · subst same
        rw [entry_checkRateLimit_self, fixed]
        have pruned := tracks.prune (Nat.le_refl (window other)) elapsed
        by_cases allows : (limiter.checkRateLimit now other maxRequests (window other)).1 = true
        · rw [if_pos ⟨rfl, allows⟩, if_pos allows]
          exact pruned.push now
        · rw [if_neg (fun both => allows both.2), if_neg allows, List.append_nil, List.append_nil]
          exact pruned
      · rw [entry_checkRateLimit_ne (fun equal => same equal.symm),
          if_neg (fun both => same both.1),
          List.append_nil]
        exact tracks.mono elapsed
  | cleanup maxAge =>
      show Tracks (window key) now (history ++ []) ((limiter.cleanup now maxAge).entry key)
      rw [List.append_nil, entry_cleanup]
      exact tracks.prune (follows key) elapsed

/-- A call that finds fewer requests in its window than the limit is the only one to allow another.
-/
theorem sparse_perform {call : LimiterCall}
    (tracks : Tracks (window key) clock history (limiter.entry key))
    (elapsed : clock ≤ now) (follows : call.Follows limit window)
    (sparse : Sparse (limit key) (window key) history) :
    Sparse (limit key) (window key) (history ++ limiter.passed key now call) := by
  cases call with
  | check other maxRequests length =>
      simp only [passed]
      split
      · rename_i passes
        obtain ⟨same, allows⟩ := passes
        obtain ⟨most, fixed⟩ := follows
        subst same
        rw [fixed, most, checkRateLimit_fst, tracks now elapsed] at allows
        exact sparse.push allows
      · rw [List.append_nil]
        exact sparse
  | cleanup maxAge =>
      show Sparse (limit key) (window key) (history ++ [])
      rw [List.append_nil]
      exact sparse

theorem tracks_performAll {calls : List (Nat × LimiterCall)}
    (tracks : Tracks (window key) clock history (limiter.entry key))
    (sparse : Sparse (limit key) (window key) history)
    (future : ∀ call ∈ calls, clock ≤ call.1)
    (ordered : (calls.map Prod.fst).Pairwise (· ≤ ·))
    (follows : ∀ call ∈ calls, call.2.Follows limit window) :
    Sparse (limit key) (window key) (history ++ limiter.allowed key calls) ∧
      ∀ now, clock ≤ now → (∀ call ∈ calls, call.1 ≤ now) →
        Tracks (window key) now (history ++ limiter.allowed key calls)
          ((limiter.performAll calls).entry key) := by
  induction calls generalizing limiter clock history with
  | nil =>
      unfold allowed performAll
      rw [List.append_nil]
      exact ⟨sparse, fun now elapsed _ => tracks.mono elapsed⟩
  | cons call calls ih =>
      unfold allowed performAll
      rw [← List.append_assoc]
      rw [List.map_cons, List.pairwise_cons] at ordered
      simp only [List.forall_mem_cons] at future follows
      have later : ∀ other ∈ calls, call.1 ≤ other.1 := fun other member =>
        ordered.1 other.1 (List.mem_map_of_mem member)
      have rest := ih (tracks_perform tracks future.1 follows.1)
        (sparse_perform tracks future.1 follows.1 sparse) later ordered.2 follows.2
      refine ⟨rest.1, fun now _ past => ?_⟩
      rw [List.forall_mem_cons] at past
      exact rest.2 now past.1 past.2

/-- Over any sequence of calls at non-decreasing times, a call allows a request exactly if fewer
than its limit were allowed for its key in the window that ends with it, so that no window of
that length holds more than the limit. -/
theorem exact_window (limit window : String → Nat) (calls : List (Nat × LimiterCall))
    (ordered : (calls.map Prod.fst).Pairwise (· ≤ ·))
    (follows : ∀ call ∈ calls, call.2.Follows limit window) :
    (∀ before key now after,
      calls = before ++ (now, .check key (limit key) (window key)) :: after →
        (((new.performAll before).checkRateLimit now key (limit key) (window key)).1 = true ↔
          ((new.allowed key before).filter fun t => now < t + window key && t ≤ now).length
            < limit key)) ∧
      ∀ key start,
        ((new.allowed key calls).filter fun t => start ≤ t && t < start + window key).length
            ≤ limit key ∧
          ((new.allowed key calls).filter fun t => start < t && t ≤ start + window key).length
            ≤ limit key := by
  have tracks : ∀ key, Tracks (window key) 0 [] (new.entry key) := fun key => Tracks.refl _ 0 []
  have sparse : ∀ key, Sparse (limit key) (window key) [] := fun key => sparse_nil _ _
  constructor
  · intro before key now after split
    subst split
    rw [List.map_append, List.map_cons, List.pairwise_append] at ordered
    have past : ∀ call ∈ before, call.1 ≤ now := fun call member =>
      ordered.2.2 call.1 (List.mem_map_of_mem member) now List.mem_cons_self
    have kept := (tracks_performAll (tracks key) (sparse key) (fun _ _ => Nat.zero_le _) ordered.1
      (fun call member => follows call (List.mem_append_left _ member))).2 now
      (Nat.zero_le now) past
    have seen : within (window key) now (new.allowed key before) =
        (new.allowed key before).filter fun t => now < t + window key && t ≤ now := by
      apply List.filter_congr
      intro t member
      obtain ⟨call, inside, same⟩ := mem_allowed member
      have early := past call inside
      rw [same] at early
      simp [early]
    rw [checkRateLimit_fst, kept now (Nat.le_refl now), List.nil_append, seen]
  · intro key start
    have kept := (tracks_performAll (tracks key) (sparse key) (fun _ _ => Nat.zero_le _) ordered
      follows).1
    rw [List.nil_append] at kept
    have next := kept (start + 1)
    have same : starting (window key) (start + 1) (new.allowed key calls) =
        (new.allowed key calls).filter fun t => start < t && t ≤ start + window key := by
      apply List.filter_congr
      intro t _
      rw [Bool.eq_iff_iff]
      simp only [Bool.and_eq_true, decide_eq_true_eq]
      omega
    rw [same] at next
    exact ⟨kept start, next⟩

end RateLimiter

/-- Three wipes pass within an hour, the fourth waits for the first one to leave the window. -/
theorem RateLimiter.exact_window_wipes :
    let calls : List (Nat × LimiterCall) :=
      [(0, .check "wipe:a" 3 3600), (5, .check "wipe:a" 3 3600), (6, .check "login:b" 100 60),
        (9, .check "wipe:a" 3 3600), (600, .cleanup 3600), (3599, .check "wipe:a" 3 3600),
        (3600, .check "wipe:a" 3 3600)]
    new.allowed "wipe:a" calls = [0, 5, 9, 3600] ∧
      ∀ start, ((new.allowed "wipe:a" calls).filter fun t => start ≤ t && t < start + 3600).length
        ≤ 3 := by
  intro calls
  refine ⟨by decide +kernel, ?_⟩
  have follows : ∀ call ∈ calls, call.2.Follows (fun key => if key = "wipe:a" then 3 else 100)
      (fun key => if key = "wipe:a" then 3600 else 60) := by
    have horizon : ∀ key : String, (if key = "wipe:a" then 3600 else 60) ≤ 3600 := by
      intro key
      split <;> omega
    simp [calls, LimiterCall.Follows, horizon]
  intro start
  exact ((exact_window _ _ calls (by decide) follows).2 "wipe:a" start).1

/-- The state of the server has the timestamps of the limiter. -/
def Server.Limits (s : Server) (limiter : RateLimiter) : Prop := s.rateLimiter = limiter.entry

theorem Server.limits_start (now : Nat) (db : Db.Tables) :
    (Server.start now db).Limits RateLimiter.new := rfl

/-- The handlers' call on the server's state is the limiter's call at the present time. -/
theorem Server.Limits.runs {ε : Type} {s s' : Server} {limiter : RateLimiter} {key : String}
    {maxRequests window : Nat} {r : Except ε Bool} (limits : s.Limits limiter)
    (run : Runs Any (checkRateLimit key maxRequests window : Task ε Bool).run s r s') :
    r = .ok (limiter.checkRateLimit s.redis.now key maxRequests window).1 ∧
      s' = { s with rateLimiter :=
        (limiter.checkRateLimit s.redis.now key maxRequests window).2.entry } := by
  simp only [checkRateLimit, atomically, runs_run_lift, runs_act] at run
  obtain ⟨passes, ⟨c, -, answer⟩, rfl⟩ := run
  have same : recent s key window = within window s.redis.now (limiter.entry key) := by
    unfold recent within
    rw [limits]
  have updated : ∀ times, Function.update s.rateLimiter key times =
      RateLimiter.entry ⟨Function.update limiter.entries key (some times)⟩ := by
    intro times
    funext other
    have before : s.rateLimiter other = (limiter.entries other).getD [] := congrFun limits other
    unfold RateLimiter.entry
    by_cases here : other = key
    · simp [here]
    · simp [here, before]
  rw [same] at answer
  rcases Nat.lt_or_ge (within window s.redis.now (limiter.entry key)).length maxRequests
    with room | full
  · rw [if_neg (Nat.not_le.mpr room), updated] at answer
    rw [RateLimiter.checkRateLimit_of_room room]
    exact ⟨congrArg Except.ok (Prod.mk.inj answer).1.symm, (Prod.mk.inj answer).2.symm⟩
  · rw [if_pos full, updated] at answer
    rw [RateLimiter.checkRateLimit_of_full full]
    exact ⟨congrArg Except.ok (Prod.mk.inj answer).1.symm, (Prod.mk.inj answer).2.symm⟩

end Hysj.Api
