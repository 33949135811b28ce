import Hysj.Messaging.Drain
import Hysj.Messaging.Wipe

set_option autoImplicit false

/- What SCAN answers in an iteration that nothing disturbs. -/
namespace Hysj.Messaging

open Crypto Shared Program

/-- The keys that SCAN answers with from a cursor to the end of its iteration, in their order. -/
inductive Answered (pre : String) (r : Redis) : Cursor → List String → Prop where
  | last {cursor : Cursor} {keys : List String} (c : Chance)
      (answer : scanned c r pre cursor = (.zero, keys)) : Answered pre r cursor keys
  | more {cursor next : Cursor} {keys later : List String} (c : Chance)
      (answer : scanned c r pre cursor = (next, keys)) (goes : next ≠ .zero)
      (rest : Answered pre r next later) : Answered pre r cursor (keys ++ later)

section

variable {pre : String} {r r' : Redis} {cursor next : Cursor} {keys : List String}

theorem runs_scan_iff {result : Except MessagingError (Cursor × List String)} :
    Runs Clean (scan cursor pre).run r result r' ↔
      ∃ c, .ok (scanned c r pre cursor) = result ∧ r' = r := by
  rw [scan_eq, runs_command]
  constructor
  · rintro ⟨c, -, answer, same⟩
    exact ⟨c, answer, same.symm⟩
  · rintro ⟨c, answer, same⟩
    exact ⟨{ c with fault := none }, rfl, answer, same.symm⟩

theorem Answered.prefixed (answered : Answered pre r cursor keys) :
    ∀ key ∈ keys, hasPrefix pre key = true := by
  induction answered with
  | last c answer => exact (scanned_spec answer).1
  | more c answer goes rest ih =>
      rw [List.forall_mem_append]
      exact ⟨(scanned_spec answer).1, ih⟩

theorem Answered.covers (answered : Answered pre r cursor keys) :
    ∀ key ∈ owed r pre cursor, key.1 ∈ keys := by
  induction answered with
  | last c answer =>
      intro key member
      rcases (scanned_spec answer).2 key member with listed | ⟨rest, other, -⟩
      · exact listed
      · cases other
  | more c answer goes rest ih =>
      intro key member
      rcases (scanned_spec answer).2 key member with listed | ⟨left, rfl, later⟩
      · exact List.mem_append_left _ listed
      · obtain ⟨prefixed, there, -⟩ := mem_owed.mp member
        refine List.mem_append_right _
          (ih key (mem_owed.mpr ⟨prefixed, there, fun left' same => ?_⟩))
        rw [← Cursor.owes.inj same]
        exact later

theorem Answered.of_present (answered : Answered pre r .zero keys) {key : String}
    (prefixed : hasPrefix pre key = true) (present : (r.peek key).isSome) : key ∈ keys := by
  obtain ⟨entry, found⟩ := Option.isSome_iff_exists.mp present
  refine answered.covers (key, entry.serial) (mem_named.mpr ⟨prefixed, ?_⟩)
  simp [still, found]

theorem answered_owed (pre : String) (r : Redis) (cursor : Cursor) :
    Answered pre r cursor ((owed r pre cursor).map Prod.fst) :=
  .last {} (by simp [scanned])

end

section

variable {serde : SerdeJson} {chrono : Chrono} {pre : String} {r r' : Redis} {cursor : Cursor}
variable {keys : List String} {wipes wipes' : List PendingWipe} {pages : Nat}

/-- The loop returns what it can read under the keys of the answers. -/
theorem answered_of_gathers
    (run : Runs Clean (scanLoop pre (pendingPage serde chrono) pages cursor wipes).run r
      (.ok wipes') r') :
    r' = r ∧ ∃ keys, Answered pre r cursor keys ∧
      wipes' = wipes ++ keys.filterMap (storedWipe serde chrono r) := by
  induction pages generalizing cursor wipes with
  | zero => cases run
  | succ pages ih =>
      simp only [scanLoop, runs_run_bind_ok, runs_scan_iff, runs_pendingPage] at run
      obtain ⟨⟨next, keys⟩, _, ⟨c, answer, rfl⟩, _, _, ⟨rfl, rfl⟩, rest⟩ := run
      have answer := Except.ok.inj answer
      dsimp only at rest
      split at rest
      · rename_i done
        obtain ⟨same, rfl⟩ := runs_run_pure.mp rest
        subst done
        exact ⟨rfl, keys, .last c answer, (Except.ok.inj same).symm⟩
      · rename_i goes
        obtain ⟨same, later, answered, rfl⟩ := ih rest
        refine ⟨same, keys ++ later, .more c answer goes answered, ?_⟩
        rw [List.filterMap_append, List.append_assoc]

variable (serde chrono) in
theorem gathers_of_answered (answered : Answered pre r cursor keys) :
    ∃ n, ∀ pages, n ≤ pages → ∀ wipes : List PendingWipe,
      Runs Clean (scanLoop pre (pendingPage serde chrono) pages cursor wipes).run r
        (.ok (wipes ++ keys.filterMap (storedWipe serde chrono r))) r := by
  induction answered with
  | @last cursor keys c answer =>
      refine ⟨1, fun pages enough wipes => ?_⟩
      obtain ⟨pages, rfl⟩ := Nat.exists_eq_add_of_le' enough
      simp only [scanLoop, runs_run_bind_ok, runs_scan_iff, runs_pendingPage]
      refine ⟨_, _, ⟨c, rfl, rfl⟩, _, _, ⟨rfl, rfl⟩, ?_⟩
      rw [answer, if_pos rfl]
      exact runs_run_pure.mpr ⟨rfl, rfl⟩
  | @more cursor next keys later c answer goes rest ih =>
      obtain ⟨n, runs⟩ := ih
      refine ⟨n + 1, fun pages enough wipes => ?_⟩
      obtain ⟨pages, rfl⟩ := Nat.exists_eq_add_of_le' (Nat.le_trans (Nat.le_add_left 1 n) enough)
      simp only [scanLoop, runs_run_bind_ok, runs_scan_iff, runs_pendingPage]
      refine ⟨_, _, ⟨c, rfl, rfl⟩, _, _, ⟨rfl, rfl⟩, ?_⟩
      rw [answer, if_neg goes, List.filterMap_append, ← List.append_assoc]
      exact runs pages (Nat.le_of_succ_le_succ enough) _

end

end Hysj.Messaging
