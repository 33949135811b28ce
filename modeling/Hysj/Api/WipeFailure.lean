import Hysj.Api.WipeEntries

set_option autoImplicit false

/- What a call of `issue_wipe` leaves behind that fails. -/
namespace Hysj.Api

open Crypto Shared Messaging Program

section

variable {serde : SerdeJson} {chrono : Chrono} {targets : List Uuid} {request : WipeRequest}
variable {cs left : List Chance} {r r' : Redis} {e : MessagingError}

/-- The entries of the targets before the one whose SET fails are stored. -/
theorem stored_before_failure {id : Uuid} {now : Nat}
    (ran : execRest cs (forM targets fun d => setEx (wipeKey d id.display)
      (Json.toVec (PendingWipe.toJson chrono ⟨id.display, request, now⟩)) WIPE_TTL_SECONDS).run r =
        some (.error e, r', left)) :
    ∃ before after, targets = before ++ after ∧
      (∀ c ∈ cs.take before.length, c.fault = none) ∧
      (∃ c, cs[before.length]? = some c ∧ c.fault ≠ none) ∧
      r' = before.foldl (storeEntry chrono id request now) r := by
  induction targets generalizing cs r with
  | nil =>
      rw [List.forM_nil, execRest_run_pure] at ran
      cases ran
  | cons d targets ih =>
      obtain ⟨c, rest, rfl, ⟨error, fault, -, same⟩ | ⟨fault, ran⟩⟩ :=
        execRest_storeEntries_cons ran
      · refine ⟨[], d :: targets, rfl, by simp, ⟨c, rfl, ?_⟩, same⟩
        rw [fault]
        exact Option.some_ne_none error
      · obtain ⟨before, after, rfl, clean, fails, stored⟩ := ih ran
        refine ⟨d :: before, after, rfl, ?_, fails, stored⟩
        simp only [List.length_cons, List.take_succ_cons, List.forall_mem_cons]
        exact ⟨fault, clean⟩

theorem pending_of_stored {id d : Uuid} {now : Nat} (lawful : serde.Lawful)
    (inverse : chrono.Inverse) (member : d ∈ targets) :
    storedWipe serde chrono (targets.foldl (storeEntry chrono id request now) r)
      (wipeKey d id.display) = some ⟨id.display, request, now⟩ := by
  have lasts : 0 < WIPE_TTL_SECONDS.toNat := by decide
  have stored : ∃ serial, (targets.foldl (storeEntry chrono id request now) r).peek
      (wipeKey d id.display) = some
        ⟨Json.toVec (PendingWipe.toJson chrono ⟨id.display, request, now⟩),
        some (r.now + WIPE_TTL_SECONDS.toNat), r.now, serial⟩ :=
    (peek_storeWipes lasts targets r _).2.2 ⟨d, member, rfl⟩
  obtain ⟨serial, found⟩ := stored
  rw [storedWipe, Store.get?, found, Option.map_some, Option.bind_some,
    PendingWipe.fromSlice_toVec lawful inverse]

variable (serde chrono) in
/-- The device is not given a wipe with this id, however SCAN answers. -/
def NeverTold (r : Redis) (deviceId : Uuid) (wipeId : String) : Prop :=
  ∀ pages wipes r', Runs Clean (getPendingWipes serde chrono pages deviceId).run r (.ok wipes) r' →
    ∀ wipe ∈ wipes, wipe.wipeId ≠ wipeId

theorem neverTold_iff {d : Uuid} {wipeId : String} : NeverTold serde chrono r d wipeId ↔
    ∀ id wipe, storedWipe serde chrono r (wipeKey d id) = some wipe → wipe.wipeId ≠ wipeId := by
  constructor
  · intro never id wipe stored
    obtain ⟨outcome, r', run⟩ := total_scanLoop total_pendingPage .zero [] r
    obtain ⟨wipes, rfl⟩ := succeeds_scanLoop succeeds_pendingPage _ _ _ _ _ _ run
    exact never 1 wipes r' run wipe (((runs_getPendingWipes run).2 wipe).mpr ⟨id, stored⟩)
  · intro none_stored pages wipes r' run wipe member
    obtain ⟨id, stored⟩ := ((runs_getPendingWipes run).2 wipe).mp member
    exact none_stored id wipe stored

/-- A call that fails has given no device the wipe exactly if it is the first SET that fails. The
identifier is the one that the call draws, and belongs to no pending wipe yet. -/
theorem failed_issue_harmless_iff (lawful : serde.Lawful) (inverse : chrono.Inverse) {c c' : Chance}
    (fresh : ∀ d ∈ targets, NeverTold serde chrono r d c.uuid.display)
    (failed : execRest (c :: c' :: cs) (Messaging.issueWipe chrono targets request).run r =
      some (.error e, r', left)) :
    (∀ d ∈ targets, NeverTold serde chrono r' d c.uuid.display) ↔
      ∃ first, cs.head? = some first ∧ first.fault ≠ none := by
  obtain ⟨_, _, _, outcome, same, ran, is⟩ := execRest_issueWipe_cases failed
  obtain ⟨rfl, rest⟩ := List.cons.inj same
  obtain ⟨rfl, rfl⟩ := List.cons.inj rest
  cases outcome with
  | ok done => cases is
  | error e' =>
      obtain ⟨before, after, rfl, clean, fails, rfl⟩ := stored_before_failure ran
      cases before with
      | nil =>
          rw [List.head?_eq_getElem?]
          exact iff_of_true fresh fails
      | cons d before =>
          refine iff_of_false (fun never => ?_) ?_
          · have pending : storedWipe serde chrono
                ((d :: before).foldl (storeEntry chrono c.uuid request r.now) r)
                (wipeKey d c.uuid.display) = some ⟨c.uuid.display, request, r.now⟩ :=
              pending_of_stored lawful inverse List.mem_cons_self
            exact neverTold_iff.mp (never d List.mem_cons_self) _ _ pending rfl
          · rintro ⟨first, head, fault⟩
            refine fault (clean first ?_)
            cases cs with
            | nil => cases head
            | cons c'' cs =>
                obtain rfl := Option.some.inj head
                exact List.mem_cons_self

end

/-- A phone and a tablet. -/
def twoTargets : List Uuid := [.replicate 16 1, .replicate 16 2]

def wipeEverything : WipeRequest := ⟨.all, none, none⟩

theorem neverTold_empty (d : Uuid) (wipeId : String) :
    NeverTold .sample .sample (.empty 0) d wipeId :=
  neverTold_iff.mpr fun _ _ stored => by cases stored

/-- The first SET fails. -/
theorem failed_issue_harmless : ∃ e r' left,
    execRest [{}, {}, { fault := some "down" }]
      (Messaging.issueWipe .sample twoTargets wipeEverything).run (.empty 0) =
        some (.error e, r', left) ∧
      ∀ d ∈ twoTargets, NeverTold .sample .sample r' d (Uuid.display (.replicate 16 0)) := by
  have failed : execRest [{}, {}, { fault := some "down" }]
      (Messaging.issueWipe .sample twoTargets wipeEverything).run (.empty 0) = some (_, _, _) := rfl
  exact ⟨_, _, _, failed, (failed_issue_harmless_iff SerdeJson.sample_lawful Chrono.sample_inverse
    (fun d _ => neverTold_empty d _) failed).mpr ⟨_, rfl, Option.some_ne_none _⟩⟩

/-- The second SET fails, and the phone is wiped. -/
theorem failed_issue_wipes : ¬ ∀ (r r' : Redis) (targets : List Uuid) (request : WipeRequest)
    (c c' : Chance) (cs left : List Chance) (e : MessagingError),
    (∀ d ∈ targets, NeverTold .sample .sample r d c.uuid.display) →
      execRest (c :: c' :: cs) (Messaging.issueWipe .sample targets request).run r =
        some (.error e, r', left) →
      ∀ d ∈ targets, NeverTold .sample .sample r' d c.uuid.display := by
  intro all
  have failed : execRest [{}, {}, {}, { fault := some "down" }]
      (Messaging.issueWipe .sample twoTargets wipeEverything).run (.empty 0) = some (_, _, _) := rfl
  have never := all _ _ _ _ _ _ _ _ _ (fun d _ => neverTold_empty d _) failed (.replicate 16 1)
    List.mem_cons_self
  have pending : storedWipe .sample .sample
      ([List.Vector.replicate 16 1].foldl
        (storeEntry .sample (List.Vector.replicate 16 0) wipeEverything 0) (.empty 0))
      (wipeKey (.replicate 16 1) (Uuid.display (.replicate 16 0))) =
        some ⟨Uuid.display (.replicate 16 0), wipeEverything, 0⟩ :=
    pending_of_stored SerdeJson.sample_lawful Chrono.sample_inverse List.mem_cons_self
  exact neverTold_iff.mp never _ _ pending rfl

end Hysj.Api
