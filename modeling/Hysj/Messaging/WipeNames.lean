import Mathlib.Logic.Equiv.Basic
import Hysj.Messaging.Wipe

set_option autoImplicit false

/- Stores that differ only in the ids of a device's pending wipes, and what is read from them. -/
namespace Hysj.Messaging

open Crypto Shared Program

variable (serde : SerdeJson) (chrono : Chrono)

/-- What a pending wipe says beside its id. -/
def PendingWipe.content (wipe : PendingWipe) : WipeRequest × Nat := (wipe.command, wipe.issuedAt)

/-- The same wipes in the same order, up to their ids. -/
def SaysSame (wipes wipes' : List PendingWipe) : Prop :=
  wipes'.map PendingWipe.content = wipes.map PendingWipe.content

/-- The pending wipes of the device have other ids, and nothing else differs. -/
structure Renames (d : Uuid) (rename : String ≃ String) (r r' : Redis) : Prop where
  now : r'.now = r.now
  others : ∀ key, (∀ id, key ≠ wipeKey d id) → r'.peek key = r.peek key
  times : ∀ id, (r'.peek (wipeKey d (rename id))).map (fun e => (e.storedAt, e.expiresAt)) =
    (r.peek (wipeKey d id)).map fun e => (e.storedAt, e.expiresAt)
  content : ∀ id, (storedWipe serde chrono r' (wipeKey d (rename id))).map PendingWipe.content =
    (storedWipe serde chrono r (wipeKey d id)).map PendingWipe.content

/-- The key that a key is renamed to. -/
def renameKey (d : Uuid) (rename : String → String) (key : String) : String :=
  if hasPrefix (keyPrefix "wipe" d) key then
    wipeKey d (rename (stripPrefix (keyPrefix "wipe" d) key))
  else key

section

variable {d : Uuid} {rename : String ≃ String} {r r' : Redis} {key pre : String}

@[simp] theorem renameKey_wipeKey (id : String) :
    renameKey d rename (wipeKey d id) = wipeKey d (rename id) := by
  have named : hasPrefix (keyPrefix "wipe" d) (wipeKey d id) = true := hasPrefix_wipe.mpr ⟨id, rfl⟩
  have rest : stripPrefix (keyPrefix "wipe" d) (wipeKey d id) = id := by
    rw [stripPrefix, if_pos named]
    simp [wipeKey]
  rw [renameKey, if_pos named, rest]

theorem renameKey_of_ne (other : ∀ id, key ≠ wipeKey d id) : renameKey d rename key = key := by
  rw [renameKey, if_neg]
  intro named
  obtain ⟨id, same⟩ := hasPrefix_wipe.mp named
  exact other id same

/-- The pattern does not look at ids. -/
def Coarse (d : Uuid) (rename : String ≃ String) (pre : String) : Prop :=
  ∀ key, hasPrefix pre (renameKey d rename key) = hasPrefix pre key

theorem coarse_of_wipeKey
    (same : ∀ id id', hasPrefix pre (wipeKey d id) = hasPrefix pre (wipeKey d id')) :
    Coarse d rename pre := by
  intro key
  by_cases wipe : ∃ id, key = wipeKey d id
  · obtain ⟨id, rfl⟩ := wipe
    rw [renameKey_wipeKey]
    exact same _ _
  · rw [renameKey_of_ne fun id is => wipe ⟨id, is⟩]

theorem coarse_device (d' : Uuid) : Coarse d rename (keyPrefix "wipe" d') := by
  apply coarse_of_wipeKey
  intro id id'
  rw [Bool.eq_iff_iff, hasPrefix_wipe, hasPrefix_wipe]
  simp only [wipeKey_inj]
  constructor
  · rintro ⟨-, rfl, -⟩
    exact ⟨id', rfl, rfl⟩
  · rintro ⟨-, rfl, -⟩
    exact ⟨id, rfl, rfl⟩

theorem coarse_wipe : Coarse d rename "wipe:" := by
  apply coarse_of_wipeKey
  intro id id'
  have named (id : String) : hasPrefix "wipe:" (wipeKey d id) = true := by
    refine hasPrefix_iff.mpr ⟨d.display ++ ":" ++ id, ?_⟩
    simp only [wipeKey, keyPrefix, String.append_assoc]
    rfl
  rw [named, named]

variable {serde chrono}

theorem Renames.there (renames : Renames serde chrono d rename r r') (id : String) :
    (r'.peek (wipeKey d (rename id))).isSome = (r.peek (wipeKey d id)).isSome := by
  have times := congrArg Option.isSome (renames.times id)
  rw [Option.isSome_map, Option.isSome_map] at times
  exact times

theorem Renames.symm (renames : Renames serde chrono d rename r r') :
    Renames serde chrono d rename.symm r' r := by
  constructor
  · exact renames.now.symm
  · exact fun key other => (renames.others key other).symm
  · intro id
    have times := renames.times (rename.symm id)
    rw [Equiv.apply_symm_apply] at times
    exact times.symm
  · intro id
    have content := renames.content (rename.symm id)
    rw [Equiv.apply_symm_apply] at content
    exact content.symm

theorem Renames.named (renames : Renames serde chrono d rename r r')
    (coarse : Coarse d rename pre) {key' : String × Nat} (listed : key' ∈ named r' pre) :
    ∃ key ∈ named r pre, key'.1 = renameKey d rename key.1 := by
  obtain ⟨name, serial⟩ := key'
  obtain ⟨prefixed, there⟩ := mem_named.mp listed
  obtain ⟨entry, found, is⟩ := Option.map_eq_some_iff.mp (of_decide_eq_true there)
  by_cases wipe : ∃ id, name = wipeKey d id
  · obtain ⟨id, rfl⟩ := wipe
    have before := renames.there (rename.symm id)
    rw [Equiv.apply_symm_apply, found] at before
    obtain ⟨entry', found'⟩ := Option.isSome_iff_exists.mp before.symm
    have renamed : renameKey d rename (wipeKey d (rename.symm id)) = wipeKey d id := by
      rw [renameKey_wipeKey, Equiv.apply_symm_apply]
    refine ⟨(wipeKey d (rename.symm id), entry'.serial), mem_named.mpr ⟨?_, ?_⟩, renamed.symm⟩
    · rw [← coarse, renamed]
      exact prefixed
    · simp [still, found']
  · have other : ∀ id, name ≠ wipeKey d id := fun id same => wipe ⟨id, same⟩
    refine ⟨(name, serial), mem_named.mpr ⟨prefixed, ?_⟩, (renameKey_of_ne other).symm⟩
    rw [still, ← renames.others name other]
    exact there

theorem Renames.stored (renames : Renames serde chrono d rename r r') (key : String) :
    (storedWipe serde chrono r' (renameKey d rename key)).map PendingWipe.content =
      (storedWipe serde chrono r key).map PendingWipe.content := by
  by_cases wipe : ∃ id, key = wipeKey d id
  · obtain ⟨id, rfl⟩ := wipe
    rw [renameKey_wipeKey]
    exact renames.content id
  · have other : ∀ id, key ≠ wipeKey d id := fun id same => wipe ⟨id, same⟩
    rw [renameKey_of_ne other, storedWipe, Store.get?, renames.others key other]
    rfl

/-- Whatever the second iteration owes, the first owes under the old key. -/
def Covers (d : Uuid) (rename : String ≃ String) (pre : String) (r r' : Redis)
    (cursor cursor' : Cursor) : Prop :=
  (cursor = .zero ↔ cursor' = .zero) ∧ ∀ key' ∈ owed r' pre cursor',
    ∃ key ∈ owed r pre cursor, key'.1 = renameKey d rename key.1

theorem Renames.covers (renames : Renames serde chrono d rename r r')
    (coarse : Coarse d rename pre) : Covers d rename pre r r' .zero .zero :=
  ⟨Iff.rfl, fun _ listed => renames.named coarse listed⟩

/-- SCAN can answer with some keys of the pattern and owe the others. -/
theorem runs_scan_more {cursor : Cursor} {keys : List String}
    (prefixed : ∀ key ∈ keys, hasPrefix pre key = true) :
    Runs Clean (scan cursor pre).run r
      (.ok (.owes ((owed r pre cursor).filter fun key => key.1 ∉ keys), keys)) r := by
  have page : (keys.filter fun key => hasPrefix pre key) = keys := List.filter_eq_self.mpr prefixed
  refine runs_command.mpr ⟨{ keys := keys, last := false }, rfl, ?_, rfl⟩
  simp only [page, Bool.false_eq_true, if_false]
  rfl

/-- One answer of SCAN can be given from the other store under the new keys. -/
theorem simulates_scan (renames : Renames serde chrono d rename r r')
    (coarse : Coarse d rename pre) {cursor cursor' : Cursor}
    (covers : Covers d rename pre r r' cursor cursor') :
    Simulates Clean (fun a a' => a = r ∧ a' = r')
      (SameOutcome fun answer answer' : Cursor × List String =>
        answer'.2 = answer.2.map (renameKey d rename) ∧
          Covers d rename pre r r' answer.1 answer'.1)
      (scan cursor pre).run (scan cursor' pre).run := by
  rintro _ _ outcome r₁ ⟨rfl, rfl⟩ run
  obtain ⟨⟨next, keys⟩, rfl⟩ := succeeds_scan _ _ _ _ _ run
  obtain ⟨rfl, prefixed, complete⟩ := runs_scan run
  have prefixed' : ∀ key ∈ keys.map (renameKey d rename), hasPrefix pre key = true := by
    intro key' member
    obtain ⟨key, listed, rfl⟩ := List.mem_map.mp member
    rw [coarse]
    exact prefixed key listed
  cases next with
  | zero =>
      refine ⟨_, _, runs_scan_last prefixed' fun key' owes => ?_, ⟨rfl, rfl⟩, rfl,
        renames.covers coarse⟩
      obtain ⟨key, listed, same⟩ := covers.2 key' owes
      rw [same]
      rcases complete key listed with answered | ⟨rest, more, -⟩
      · exact List.mem_map_of_mem answered
      · cases more
  | owes rest =>
      refine ⟨_, _, runs_scan_more prefixed', ⟨rfl, rfl⟩, rfl, ?_⟩
      refine ⟨by simp, fun key' owes => ?_⟩
      obtain ⟨-, -, listed'⟩ := mem_owed.mp owes
      obtain ⟨owes', absent⟩ := List.mem_filter.mp (listed' _ rfl)
      obtain ⟨key, listed, same⟩ := covers.2 key' owes'
      refine ⟨key, ?_, same⟩
      rcases complete key listed with answered | ⟨rest', more, later⟩
      · have named : key'.1 ∈ keys.map (renameKey d rename) := by
          rw [same]
          exact List.mem_map_of_mem answered
        exact absurd named (of_decide_eq_true absent)
      · obtain ⟨named, there, -⟩ := mem_owed.mp listed
        refine mem_owed.mpr ⟨named, there, ?_⟩
        intro other is
        obtain rfl := Cursor.owes.inj is
        obtain rfl := Cursor.owes.inj more
        exact later

theorem Renames.contents (renames : Renames serde chrono d rename r r') (keys : List String) :
    ((keys.map (renameKey d rename)).filterMap (storedWipe serde chrono r')).map
        PendingWipe.content =
      (keys.filterMap (storedWipe serde chrono r)).map PendingWipe.content := by
  rw [List.filterMap_map, List.map_filterMap, List.map_filterMap]
  apply List.filterMap_congr
  intro key _
  exact renames.stored key

theorem simulates_scanLoop (renames : Renames serde chrono d rename r r')
    (coarse : Coarse d rename pre) {pages : Nat} {cursor cursor' : Cursor}
    {wipes wipes' : List PendingWipe}
    (same : SaysSame wipes wipes')
    (covers : Covers d rename pre r r' cursor cursor') :
    Simulates Clean (fun a a' => a = r ∧ a' = r')
      (SameOutcome SaysSame)
      (scanLoop pre (pendingPage serde chrono) pages cursor wipes).run
      (scanLoop pre (pendingPage serde chrono) pages cursor' wipes').run := by
  induction pages generalizing cursor cursor' wipes wipes' with
  | zero =>
      intro _ _ _ _ _ run
      cases run
  | succ pages ih =>
      refine Simulates.run_bind (simulates_scan renames coarse covers) ?_
      rintro ⟨next, keys⟩ ⟨next', keys'⟩ ⟨rfl, covers'⟩
      have page : Simulates Clean (fun a a' => a = r ∧ a' = r')
          (SameOutcome SaysSame)
          (pendingPage serde chrono keys wipes).run
          (pendingPage serde chrono (keys.map (renameKey d rename)) wipes').run := by
        rintro _ _ outcome r₁ ⟨rfl, rfl⟩ run
        obtain ⟨answer, rfl⟩ := succeeds_pendingPage _ _ _ _ _ run
        obtain ⟨rfl, rfl⟩ := runs_pendingPage.mp run
        refine ⟨_, _, runs_pendingPage.mpr ⟨rfl, rfl⟩, ⟨rfl, rfl⟩, ?_⟩
        rw [SameOutcome, SaysSame, List.map_append, List.map_append, same, renames.contents]
      refine Simulates.run_bind page fun wipes₁ wipes₁' same => ?_
      by_cases done : next = .zero
      · rw [if_pos done, if_pos (covers'.1.mp done)]
        exact simulates_pure same
      · rw [if_neg done, if_neg fun zero => done (covers'.1.mpr zero)]
        exact ih same covers'

/-- What is pending for any device reads the same but for the ids. -/
theorem simulates_getPendingWipes (renames : Renames serde chrono d rename r r') (pages : Nat)
    (d' : Uuid) :
    Simulates Clean (fun a a' => a = r ∧ a' = r')
      (SameOutcome SaysSame)
      (getPendingWipes serde chrono pages d').run (getPendingWipes serde chrono pages d').run :=
  simulates_scanLoop renames (coarse_device d') rfl (renames.covers (coarse_device d'))

theorem swap_eq_right {id id' name : String} (same : Equiv.swap id id' name = id') : name = id := by
  apply (Equiv.swap id id').injective
  rw [same, Equiv.swap_apply_left]

theorem renames_set (lawful : serde.Lawful) (inverse : chrono.Inverse) (d : Uuid) (id id' : String)
    (command : WipeRequest) (now : Nat) {ttl : Nat} (lasts : 0 < ttl) :
    Renames serde chrono d (Equiv.swap id id')
      (Store.set (.empty now) (wipeKey d id)
        (Json.toVec (PendingWipe.toJson chrono ⟨id, command, now⟩)) (some ttl))
      (Store.set (.empty now) (wipeKey d id')
        (Json.toVec (PendingWipe.toJson chrono ⟨id', command, now⟩)) (some ttl)) := by
  have positive : ∀ n ∈ some ttl, 0 < n := by simpa using lasts
  have absent {id id' : String} (value : Bytes) (other : id' ≠ id) :
      (Store.set (.empty now) (wipeKey d id) value (some ttl) : Redis).peek
        (wipeKey d id') = none := by
    rw [Store.peek_set_of_ne fun same => other (wipeKey_inj.mp same).2, Store.peek_empty]
  constructor
  · rfl
  · intro key other
    rw [Store.peek_set_of_ne (other id'), Store.peek_set_of_ne (other id), Store.peek_empty]
  · intro name
    by_cases this : name = id
    · subst this
      rw [Equiv.swap_apply_left, Store.peek_set positive, Store.peek_set positive]
      rfl
    · rw [absent _ this, absent]
      intro same
      exact this (swap_eq_right same)
  · intro name
    by_cases this : name = id
    · subst this
      rw [Equiv.swap_apply_left, storedWipe, storedWipe, Store.get?_set positive,
        Store.get?_set positive, Option.bind_some, Option.bind_some,
        PendingWipe.fromSlice_toVec lawful inverse, PendingWipe.fromSlice_toVec lawful inverse]
      rfl
    · rw [storedWipe, storedWipe, Store.get?, Store.get?, absent _ this, absent]
      intro same
      exact this (swap_eq_right same)

end

end Hysj.Messaging
