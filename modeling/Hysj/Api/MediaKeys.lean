import Hysj.Api.Media

set_option autoImplicit false

/- Which media ids share a key of Redis, and which entries a request can change. -/
namespace Hysj.Messaging

theorem mediaKey_inj {id id' : String} : mediaKey id = mediaKey id' ↔ id = id' := by
  constructor
  · intro same
    have chars := congrArg String.toList same
    simp only [mediaKey, String.toList_append, List.append_cancel_left_eq] at chars
    exact String.toList_inj.mp chars
  · intro same
    rw [same]

theorem mediaMetaKey_inj {id id' : String} : mediaMetaKey id = mediaMetaKey id' ↔ id = id' := by
  constructor
  · intro same
    have chars := congrArg String.toList same
    simp only [mediaMetaKey, String.toList_append, List.append_cancel_right_eq] at chars
    exact mediaKey_inj.mp (String.toList_inj.mp chars)
  · intro same
    rw [same]

/-- The metadata of an id lies where the blob of another one would. -/
theorem mediaMetaKey_eq (id : String) : mediaMetaKey id = mediaKey (id ++ ":meta") := by
  unfold mediaMetaKey mediaKey
  rw [String.append_assoc]

theorem mediaKey_eq_mediaMetaKey {id id' : String} :
    mediaKey id = mediaMetaKey id' ↔ id = id' ++ ":meta" := by
  rw [mediaMetaKey_eq, mediaKey_inj]

end Hysj.Messaging

namespace Hysj.Api

open Crypto Shared Auth Messaging Program

section

variable {α : Type} {key : String} {serde : SerdeJson}

/-- The step leaves what is stored under the key. -/
def LeavesKey (key : String) (s s' : Server) : Prop := Leaves key s.redis s'.redis

theorem leavesKey_refl (key : String) (s : Server) : LeavesKey key s s := leaves_refl key s.redis

theorem leavesKey_onMedia {t : Command α} (leaves : Keeps (Leaves key) t.run) :
    Keeps (LeavesKey key) (onMedia t).run :=
  Keeps.adapt (Keeps.zoom leaves fun _ _ kept => kept)

variable {kind : MediaKind} {id : String}

theorem leavesKey_uploadMedia {body : Bytes} (other : key ≠ mediaKey id) :
    Keeps (LeavesKey key) (uploadMedia serde kind id body).run := by
  refine Keeps.run_bind (leavesKey_onMedia (leaves_getMeta id)) fun info => ?_
  cases info with
  | none => exact keeps_pure _
  | some info =>
      dsimp only
      split
      · exact keeps_pure _
      · split
        · exact keeps_pure _
        · exact leavesKey_onMedia (leaves_of_changes (changes_setEx fun _ => other))

theorem leavesKey_downloadMedia (other : key ≠ mediaKey id) (other' : key ≠ mediaMetaKey id) :
    Keeps (LeavesKey key) (downloadMedia kind id).run := by
  refine Keeps.run_bind (leavesKey_onMedia (leaves_retrieveAndExpire other other')) fun data => ?_
  cases data with
  | none => exact keeps_pure _
  | some data => exact keeps_pure _

theorem leavesKey_mediaInfo : Keeps (LeavesKey key) (mediaInfo serde kind id).run := by
  refine Keeps.run_bind (leavesKey_onMedia (leaves_getMeta id)) fun info => ?_
  cases info with
  | none => exact keeps_pure _
  | some info => exact keeps_pure _

theorem leavesKey_deleteMedia (other : key ≠ mediaKey id) (other' : key ≠ mediaMetaKey id) :
    Keeps (LeavesKey key) (deleteMedia kind id).run := by
  refine Keeps.run_bind (leavesKey_onMedia (leaves_deleteBlob other other')) fun deleted => ?_
  split
  · exact keeps_pure _
  · exact keeps_pure _

theorem leavesKey_audioMeta : Keeps (LeavesKey key) (Audio.audioMeta serde id).run :=
  Keeps.run_bind leavesKey_mediaInfo fun _ => keeps_pure _

theorem leavesKey_fileMeta : Keeps (LeavesKey key) (Files.fileMeta serde id).run := by
  refine Keeps.run_bind leavesKey_mediaInfo fun _ => ?_
  exact Keeps.run_bind
    (Keeps.lift (keeps_act fun _ s => leavesKey_refl key s)) fun _ => keeps_pure _

/-- A request changes nothing but the two keys of the id in its path. -/
theorem MediaCall.leavesKey {call : MediaCall} (names : call.pathId = some id)
    (other : key ≠ mediaKey id) (other' : key ≠ mediaMetaKey id) :
    Keeps (LeavesKey key) (call.program serde) := by
  cases call with
  | initAudio auth request => cases names
  | initFile auth request => cases names
  | uploadAudio _ body =>
      cases names
      exact (leavesKey_uploadMedia other).map _
  | uploadFile _ body =>
      cases names
      exact (leavesKey_uploadMedia other).map _
  | downloadAudio _ =>
      cases names
      exact (leavesKey_downloadMedia other other').map _
  | downloadFile _ =>
      cases names
      exact (leavesKey_downloadMedia other other').map _
  | audioMeta _ =>
      cases names
      exact leavesKey_audioMeta.map _
  | fileMeta _ =>
      cases names
      exact leavesKey_fileMeta.map _
  | deleteAudio _ =>
      cases names
      exact (leavesKey_deleteMedia other other').map _
  | deleteFile _ =>
      cases names
      exact (leavesKey_deleteMedia other other').map _

end

/-- Requests in progress. -/
abbrev MediaCalls := Pool Chance Server MediaCall MediaReply

abbrev MediaStep := Pool.Event Chance MediaCall

section

variable (serde : SerdeJson)

def MediaCalls.follow (p : MediaCalls) (events : List MediaStep) : Option MediaCalls :=
  Pool.follow (MediaCall.program serde) (fun seconds s => s.wait seconds) p events

def MediaCalls.step (p : MediaCalls) (e : MediaStep) : Option MediaCalls :=
  Pool.step (MediaCall.program serde) (fun seconds s => s.wait seconds) p e

/-- No command of a request that names the first id, in any interleaving of requests and whatever
fails, changes the blob or the metadata of the second id, or when they expire. -/
def LeavesMedia (id id' : String) : Prop :=
  id ≠ id' → ∀ (s : Server) (events : List MediaStep) (p p' : MediaCalls) (i : Nat) (c : Chance)
    (thread : Thread Chance Server MediaCall MediaReply),
    MediaCalls.follow serde ⟨s, []⟩ events = some p → p.threads[i]? = some thread →
    thread.call.pathId = some id → MediaCalls.step serde p (.run i c) = some p' →
    LeavesKey (mediaKey id') p.state p'.state ∧ LeavesKey (mediaMetaKey id') p.state p'.state

/-- The two ids share no key: neither for blobs, nor for metadata, nor one for the other. -/
def KeysApart (id id' : String) : Prop :=
  mediaKey id ≠ mediaMetaKey id' ∧ mediaMetaKey id ≠ mediaKey id' ∧
    (id ≠ id' → mediaKey id ≠ mediaKey id' ∧ mediaMetaKey id ≠ mediaMetaKey id')

/-- Neither id is the other with the suffix of the metadata. -/
def Unsuffixed (id id' : String) : Prop := id ≠ id' ++ ":meta" ∧ id' ≠ id ++ ":meta"

theorem keysApart_iff (id id' : String) : KeysApart id id' ↔ Unsuffixed id id' := by
  have first : mediaKey id ≠ mediaMetaKey id' ↔ id ≠ id' ++ ":meta" :=
    not_congr mediaKey_eq_mediaMetaKey
  have second : mediaMetaKey id ≠ mediaKey id' ↔ id' ≠ id ++ ":meta" :=
    not_congr (eq_comm.trans mediaKey_eq_mediaMetaKey)
  unfold KeysApart Unsuffixed
  rw [first, second]
  constructor
  · exact fun apart => ⟨apart.1, apart.2.1⟩
  · rintro ⟨ahead, behind⟩
    refine ⟨ahead, behind, fun different => ⟨?_, ?_⟩⟩
    · exact fun same => different (mediaKey_inj.mp same)
    · exact fun same => different (mediaMetaKey_inj.mp same)

end

section

variable {serde : SerdeJson} {id id' : String}

/-- Whatever is left of a request on another id spares the key. -/
theorem leavesKey_threads {key : String} {s : Server} {events : List MediaStep} {p : MediaCalls}
    (followed : MediaCalls.follow serde ⟨s, []⟩ events = some p) (other : key ≠ mediaKey id)
    (other' : key ≠ mediaMetaKey id) :
    p.Each fun _ thread => thread.call.pathId = some id → Keeps (LeavesKey key) thread.rest := by
  refine Pool.follow_keeps followed (fun j thread found => by cases found) ?_
  intro e _ q q' each stepped
  refine each.step stepped (fun j thread _ kept => kept) (fun call _ names => ?_) ?_
  · exact MediaCall.leavesKey names other other'
  · intro j c call effect next _ _ kept names
    exact (kept names c q.state).2

theorem leavesMedia_of_unsuffixed (unsuffixed : Unsuffixed id id') : LeavesMedia serde id id' := by
  intro different s events p p' i c thread followed found names stepped
  obtain ⟨call, effect, next, at_, rfl⟩ := Pool.step_run.mp stepped
  obtain rfl : thread = _ := Option.some.inj (found.symm.trans at_)
  obtain ⟨blob, info, apart⟩ := (keysApart_iff id id').mpr unsuffixed
  obtain ⟨blobs, infos⟩ := apart different
  exact ⟨(leavesKey_threads followed blobs.symm info.symm i _ found names c p.state).1,
    (leavesKey_threads followed blob.symm infos.symm i _ found names c p.state).1⟩

/-- A server with nothing but an entry under the key. -/
def holding (key : String) : Server :=
  { Server.start 0 {} with redis := (Store.empty 0).set key [] none }

/-- A request to delete an id removes what lies under a key that it shares with another one. -/
theorem not_leavesMedia_of_shared {key : String} (different : id ≠ id')
    (own : key = mediaKey id ∨ key = mediaMetaKey id)
    (other : key = mediaKey id' ∨ key = mediaMetaKey id') : ¬ LeavesMedia serde id id' := by
  intro leaves
  obtain ⟨effect, next, deletes, removes⟩ : ∃ effect next,
      (MediaCall.deleteAudio id).program serde = .step effect next ∧
        (effect {} (holding key)).redis =
          ((holding key).redis.del (mediaKey id)).del (mediaMetaKey id) := ⟨_, _, rfl, rfl⟩
  have stepped : MediaCalls.step serde ⟨holding key, [⟨.deleteAudio id, .step effect next⟩]⟩
      (.run 0 {}) = some
        ⟨effect {} (holding key), [⟨.deleteAudio id, next {} (holding key)⟩]⟩ := rfl
  have called : MediaCalls.follow serde ⟨holding key, []⟩ [.call (.deleteAudio id)] =
      some ⟨holding key, [⟨.deleteAudio id, .step effect next⟩]⟩ := by
    rw [← deletes]
    rfl
  obtain ⟨⟨-, blob⟩, ⟨-, info⟩⟩ := leaves different (holding key) [.call (.deleteAudio id)] _ _ 0 {}
    ⟨.deleteAudio id, .step effect next⟩ called rfl rfl stepped
  have present : (holding key).redis.peek key = some ⟨[], none, 0, 0⟩ :=
    Store.peek_set fun n given => by cases given
  have gone : (effect {} (holding key)).redis.peek key = none := by
    rw [removes]
    rcases own with rfl | rfl
    · rw [Store.peek_del_of_ne (mediaKey_ne_mediaMetaKey id), Store.peek_del]
    · rw [Store.peek_del]
  have kept : (effect {} (holding key)).redis.peek key = (holding key).redis.peek key := by
    rcases other with rfl | rfl
    · exact blob
    · exact info
  rw [gone, present] at kept
  cases kept

theorem leavesMedia_iff (id id' : String) : LeavesMedia serde id id' ↔ Unsuffixed id id' := by
  constructor
  · intro leaves
    by_contra suffixed
    have different : id ≠ id' := by
      rintro rfl
      apply suffixed
      refine ⟨fun same => ?_, fun same => ?_⟩
      · exact mediaKey_ne_mediaMetaKey id (mediaKey_eq_mediaMetaKey.mpr same)
      · exact mediaKey_ne_mediaMetaKey id (mediaKey_eq_mediaMetaKey.mpr same)
    rcases not_and_or.mp suffixed with first | second
    · have shared := mediaKey_eq_mediaMetaKey.mpr (not_not.mp first)
      exact not_leavesMedia_of_shared different (Or.inl rfl) (Or.inr shared) leaves
    · have shared := mediaKey_eq_mediaMetaKey.mpr (not_not.mp second)
      exact not_leavesMedia_of_shared different (Or.inr shared) (Or.inl rfl) leaves
  · exact leavesMedia_of_unsuffixed

end

/-- The keys of two ids are apart, and in every interleaving of requests what names one leaves
the blob, the metadata and the lifetimes of the other alone, exactly if neither id is the other
with `:meta` appended. -/
theorem media_keys_apart_iff (serde : SerdeJson) (id id' : String) :
    (KeysApart id id' ↔ id ≠ id' ++ ":meta" ∧ id' ≠ id ++ ":meta") ∧
      (LeavesMedia serde id id' ↔ id ≠ id' ++ ":meta" ∧ id' ≠ id ++ ":meta") :=
  ⟨keysApart_iff id id', leavesMedia_iff id id'⟩

/-- An upload is announced, and another user asks for the audio `<id>:meta`. -/
def suffixedDownload (id : String) : List MediaStep :=
  [.call (.initAudio ⟨.replicate 16 1, .replicate 16 2, "alice"⟩ ⟨.replicate 16 3, 20, 4096⟩),
    .run 0 {}, .run 0 {}, .run 0 {}, .call (.downloadAudio (id ++ ":meta")), .run 1 {}, .run 1 {}]

/-- The metadata of the upload is left with three minutes instead of three days. -/
theorem suffixed_download_expires_metadata :
    let id := Uuid.display (.replicate 16 0)
    let expiry := fun p : MediaCalls =>
      (p.state.redis.peek (mediaMetaKey id)).bind Entry.expiresAt
    id ++ ":meta" ≠ id ∧ ¬ KeysApart (id ++ ":meta") id ∧ ¬ LeavesMedia .sample (id ++ ":meta") id ∧
      (MediaCalls.follow .sample ⟨Server.start 0 {}, []⟩
        ((suffixedDownload id).take 5)).map expiry =
        some (some 259200) ∧
      (MediaCalls.follow .sample ⟨Server.start 0 {}, []⟩ (suffixedDownload id)).map expiry =
        some (some 180) := by
  intro id expiry
  have different : id ++ ":meta" ≠ id := by decide
  have shared : mediaMetaKey id = mediaKey (id ++ ":meta") := mediaMetaKey_eq id
  refine ⟨different, fun apart => apart.1 shared.symm, ?_, by decide +kernel, by decide +kernel⟩
  exact not_leavesMedia_of_shared different (Or.inl shared) (Or.inr rfl)

end Hysj.Api
