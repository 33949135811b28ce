import Hysj.Api.MediaKeys
import Hysj.Api.WipeStatus
import Hysj.Base.Trail

set_option autoImplicit false

/- How long a blob can be downloaded after its upload and after it was seen. -/
namespace Hysj

namespace Messaging

open Crypto Shared Program

section

variable {r r' : Redis} {key : String} {id : String}

/-- The entry under the key stays as it is, or is given the lifetime. -/
def Renews (key : String) (seconds : Nat) (r r' : Redis) : Prop :=
  r'.now = r.now ∧ (r'.peek key = r.peek key ∨ ∃ entry, r.peek key = some entry ∧
    r'.peek key = some { entry with expiresAt := some (r.now + seconds) })

/-- The entry under the key stays as it is, or goes. -/
def Removes (key : String) (r r' : Redis) : Prop :=
  r'.now = r.now ∧ (r'.peek key = r.peek key ∨ r'.peek key = none)

theorem renews_refl (key : String) (seconds : Nat) (r : Redis) : Renews key seconds r r :=
  ⟨rfl, Or.inl rfl⟩

theorem removes_refl (key : String) (r : Redis) : Removes key r r := ⟨rfl, Or.inl rfl⟩

theorem Renews.trans {seconds : Nat} {m : Redis} (first : Renews key seconds r m)
    (second : Renews key seconds m r') : Renews key seconds r r' := by
  obtain ⟨clock, before⟩ := first
  obtain ⟨clock', after⟩ := second
  refine ⟨clock'.trans clock, ?_⟩
  rw [clock] at after
  rcases after with same | ⟨entry, found, renewed⟩
  · rw [same]
    exact before
  · rcases before with same | ⟨entry', found', renewed'⟩
    · rw [same] at found
      exact Or.inr ⟨entry, found, renewed⟩
    · obtain rfl := Option.some.inj (renewed'.symm.trans found)
      exact Or.inr ⟨entry', found', renewed⟩

theorem Removes.trans {m : Redis} (first : Removes key r m) (second : Removes key m r') :
    Removes key r r' := by
  obtain ⟨clock, before⟩ := first
  obtain ⟨clock', after⟩ := second
  refine ⟨clock'.trans clock, ?_⟩
  rcases after with same | gone
  · rw [same]
    exact before
  · exact Or.inr gone

theorem renews_retrieveAndExpire {ttl : UInt64} (lasts : 0 < ttl.toNat) :
    Keeps (Renews (mediaKey id) ttl.toNat) (retrieveAndExpire id ttl).run := by
  refine Keeps.run_bind
    (keeps_command (renews_refl _ _) fun _ r => renews_refl _ _ r) fun blob => ?_
  split
  · refine Keeps.run_bind (keeps_command (renews_refl _ _) fun _ r => ?_) fun _ => ?_
    · cases found : r.peek (mediaKey id) with
      | none =>
          rw [Store.expire_of_none found]
          exact renews_refl _ _ r
      | some entry =>
          exact ⟨Store.now_expire _, Or.inr ⟨entry, found, Store.peek_expire found lasts⟩⟩
    · refine Keeps.run_bind (keeps_command (renews_refl _ _) fun _ r => ?_) fun _ => keeps_pure _
      exact ⟨Store.now_expire _, Or.inl (Store.peek_expire_of_ne (mediaKey_ne_mediaMetaKey id))⟩
  · exact keeps_pure _

theorem removes_deleteBlob : Keeps (Removes (mediaKey id)) (deleteBlob id).run := by
  refine Keeps.run_bind (keeps_command (removes_refl _) fun _ r => ?_) fun _ => keeps_pure _
  refine ⟨rfl, Or.inr ?_⟩
  rw [Store.peek_del_of_ne (mediaKey_ne_mediaMetaKey id), Store.peek_del]

/-- A download that succeeds has read the blob and given it the lifetime. -/
theorem runs_retrieveAndExpire {ttl : UInt64} {data : Bytes} (lasts : 0 < ttl.toNat)
    (run : Runs Clean (retrieveAndExpire id ttl).run r (.ok (some data)) r') :
    ∃ entry, r.peek (mediaKey id) = some entry ∧ entry.value = data ∧
      r'.peek (mediaKey id) = some { entry with expiresAt := some (r.now + ttl.toNat) } := by
  unfold retrieveAndExpire at run
  obtain ⟨blob, _, read, run⟩ := runs_run_bind_ok.mp run
  obtain ⟨same, rfl⟩ := runs_get.mp read
  obtain rfl := Except.ok.inj same
  split at run
  · obtain ⟨_, m, first, run⟩ := runs_run_bind_ok.mp run
    obtain ⟨_, m', second, run⟩ := runs_run_bind_ok.mp run
    obtain ⟨answer, rfl⟩ := runs_run_pure.mp run
    obtain ⟨-, rfl⟩ := runs_command_const.mp first
    obtain ⟨-, rfl⟩ := runs_command_const.mp second
    obtain ⟨entry, found, value⟩ := Store.get?_eq_some.mp (Except.ok.inj answer)
    refine ⟨entry, found, value, ?_⟩
    rw [Store.peek_expire_of_ne (mediaKey_ne_mediaMetaKey id), Store.peek_expire found lasts]
  · rename_i absent
    obtain ⟨answer, -⟩ := runs_run_pure.mp run
    rw [Except.ok.inj answer] at absent
    exact absurd rfl absent

theorem sure_retrieveAndExpire {ttl : UInt64} : Sure Clean (retrieveAndExpire id ttl) := by
  refine (sure_command _).bind fun blob => ?_
  split
  · exact (sure_command _).bind fun _ => (sure_command _).bind fun _ => sure_pure _
  · exact sure_pure _

/-- Under any decision a command fails and changes nothing, or runs. -/
theorem runs_command_any {α : Type} {f : Chance → Redis → Except String α × Redis}
    {result : Except MessagingError α}
    (run : Runs (fun _ _ => True) (command f).run r result r') :
    ((∃ e, result = .error e) ∧ r' = r) ∨ Runs Clean (command f).run r result r' := by
  rcases of_runs_command run with ⟨⟨e, failed⟩, same⟩ | ⟨c, fault, answer, after⟩
  · exact Or.inl ⟨⟨_, failed⟩, same⟩
  · exact Or.inr (runs_command.mpr ⟨c, fault, answer.symm, after.symm⟩)

/-- A blob is stored with its lifetime, or the command fails and stores nothing. -/
theorem runs_storeBlob {blob : Bytes} {ttl : UInt64} {result : Except MessagingError Unit}
    (lasts : ttl ≠ 0) (run : Runs (fun _ _ => True) (storeBlob id blob ttl).run r result r') :
    ((∃ e, result = .error e) ∧ r' = r) ∨
      result = .ok () ∧ r' = r.set (mediaKey id) blob (some ttl.toNat) := by
  rcases runs_command_any run with failed | clean
  · exact Or.inl failed
  · obtain ⟨rfl, rfl⟩ := (runs_setEx lasts).mp clean
    exact Or.inr ⟨rfl, rfl⟩

end

end Messaging

namespace Api

open Crypto Shared Messaging Program

/-- A request on a media id with its reply, or something else. -/
inductive MediaEvent where
  | request (call : MediaCall) (reply : MediaReply)
  | other

/-- Requests on the id happen one at a time, each with whatever fails. What else happens takes
time and puts no blob there. -/
def Serves (serde : SerdeJson) (id : String) (s : Server) : MediaEvent → Server → Prop
  | .request call reply, s' => call.pathId = some id ∧ Runs Any (call.program serde) s reply s'
  | .other, s' => s.redis.now ≤ s'.redis.now ∧
      ∀ entry, s'.redis.peek (mediaKey id) = some entry → s.redis.peek (mediaKey id) = some entry

/-- An upload that succeeds. -/
def MediaEvent.Stores : MediaEvent → Prop
  | .request _ (.uploaded (.ok ())) => True
  | _ => False

/-- A download that returns the blob. -/
def MediaEvent.Returns : MediaEvent → Prop
  | .request _ (.blob (.ok _)) => True
  | _ => False

/-- A request to download, whatever it returns. -/
def MediaEvent.Asks : MediaEvent → Prop
  | .request (.downloadAudio _) _ | .request (.downloadFile _) _ => True
  | _ => False

abbrev MediaRun := List (Server × MediaEvent × Server)

/-- While no other blob is stored, none is returned later than the lifetime of what was seen after
a download that returned it, nor later than the lifetime of an upload after it was stored. -/
def Disappears (steps : MediaRun) : Prop :=
  ∀ before seen between again after, steps = before ++ seen :: (between ++ again :: after) →
    (∀ x ∈ between, ¬ x.2.1.Stores) → again.2.1.Returns →
    (seen.2.1.Returns → again.1.redis.now ≤ seen.1.redis.now + AUDIO_SEEN_TTL_SECONDS.toNat) ∧
      (seen.2.1.Stores → again.1.redis.now ≤ seen.1.redis.now + AUDIO_TTL_SECONDS.toNat)

/-- A download finds a blob that has at least the lifetime left which it would be given. -/
def InTime (id : String) (s : Server) (e : MediaEvent) : Prop :=
  e.Asks → ∀ entry t, s.redis.peek (mediaKey id) = some entry → entry.expiresAt = some t →
    s.redis.now + AUDIO_SEEN_TTL_SECONDS.toNat ≤ t

/-- If there is a blob, it expires by the time. -/
def ExpiresBy (id : String) (bound : Nat) (s : Server) : Prop :=
  ∀ entry, s.redis.peek (mediaKey id) = some entry → ∃ t ≤ bound, entry.expiresAt = some t

section

variable {serde : SerdeJson} {kind : MediaKind} {id : String} {s s' : Server} {bound : Nat}

theorem runs_onMedia_any {α : Type} {t : Command α} {result : Except HysjError α}
    (run : Runs Any (onMedia t).run s result s') :
    ∃ outcome, Runs (fun _ _ => True) t.run s.redis outcome s'.redis ∧
      outcome.mapError (fun e => .internalError e.display) = result := by
  obtain ⟨outcome, ran, same⟩ := runs_adapt.mp run
  obtain ⟨r, zoomed, rfl⟩ := (@runs_zoom Chance Server Redis (Except MessagingError α) Server.redis
    (fun r s => { s with redis := r }) (fun _ _ => rfl) (fun _ => rfl) (fun _ _ _ => rfl)
    (fun _ _ => True) t.run s s' outcome).mp ran
  exact ⟨outcome, zoomed, same⟩

theorem Runs.leavesKey {α : Type} {key : String} {t : Program Chance Server α} {a : α}
    (run : Runs Any t s a s') (leaves : Keeps (LeavesKey key) t) : LeavesKey key s s' :=
  run.keeps leaves (leavesKey_refl key) fun _ _ _ first second =>
    ⟨second.1.trans first.1, second.2.trans first.2⟩

/-- An upload that succeeds has stored a blob with its whole lifetime; another one has changed
nothing. -/
theorem runs_uploadMedia {body : Bytes} {result : Except HysjError Unit}
    (lasts : kind.ttlSeconds ≠ 0)
    (run : Runs Any (uploadMedia serde kind id body).run s result s') :
    ((∃ e, result = .error e) ∧ LeavesKey (mediaKey id) s s') ∨ result = .ok () ∧
      s'.redis.now = s.redis.now ∧ ∃ entry, s'.redis.peek (mediaKey id) = some entry ∧
        entry.expiresAt = some (s.redis.now + kind.ttlSeconds.toNat) := by
  have reads : Keeps (LeavesKey (mediaKey id)) (onMedia (getMeta serde id)).run :=
    leavesKey_onMedia (leaves_getMeta id)
  unfold uploadMedia at run
  rcases runs_run_bind.mp run with ⟨info, m, first, rest⟩ | ⟨e, rfl, first⟩
  · have kept : LeavesKey (mediaKey id) s m := Runs.leavesKey first reads
    cases info with
    | none =>
        obtain ⟨rfl, rfl⟩ := runs_run_throw.mp rest
        exact Or.inl ⟨⟨_, rfl⟩, kept⟩
    | some info =>
        dsimp only at rest
        split at rest
        · obtain ⟨rfl, rfl⟩ := runs_run_throw.mp rest
          exact Or.inl ⟨⟨_, rfl⟩, kept⟩
        · split at rest
          · obtain ⟨rfl, rfl⟩ := runs_run_throw.mp rest
            exact Or.inl ⟨⟨_, rfl⟩, kept⟩
          · obtain ⟨outcome, ran, rfl⟩ := runs_onMedia_any rest
            rcases runs_storeBlob lasts ran with ⟨⟨e, rfl⟩, same⟩ | ⟨rfl, stored⟩
            · refine Or.inl ⟨⟨_, rfl⟩, ?_⟩
              unfold LeavesKey
              rw [same]
              exact kept
            · refine Or.inr ⟨rfl, ?_, ?_⟩
              · rw [stored, Store.now_set, kept.1]
              · rw [stored, ← kept.1]
                exact ⟨_, Store.peek_set fun n given => by
                  obtain rfl := Option.some.inj given
                  exact Nat.pos_of_ne_zero fun zero => lasts (UInt64.toNat_inj.mp zero), rfl⟩
  · exact Or.inl ⟨⟨e, rfl⟩, Runs.leavesKey first reads⟩

theorem renews_downloadMedia {result : Except HysjError Bytes}
    (run : Runs Any (downloadMedia kind id).run s result s') :
    Renews (mediaKey id) AUDIO_SEEN_TTL_SECONDS.toNat s.redis s'.redis := by
  unfold downloadMedia at run
  have keeps : Keeps (fun s s' : Server =>
      Renews (mediaKey id) AUDIO_SEEN_TTL_SECONDS.toNat s.redis s'.redis)
      (downloadMedia kind id).run := by
    refine Keeps.run_bind (Keeps.adapt (Keeps.zoom (renews_retrieveAndExpire (by decide))
      fun _ _ kept => kept)) fun data => ?_
    cases data with
    | none => exact keeps_pure _
    | some data => exact keeps_pure _
  exact run.keeps keeps (fun s => renews_refl _ _ s.redis) fun _ _ _ first second =>
    first.trans second

theorem runs_downloadMedia {data : Bytes}
    (run : Runs Any (downloadMedia kind id).run s (.ok data) s') :
    ∃ entry, s.redis.peek (mediaKey id) = some entry ∧ entry.value = data ∧
      s'.redis.peek (mediaKey id) = some
        { entry with expiresAt := some (s.redis.now + AUDIO_SEEN_TTL_SECONDS.toNat) } := by
  obtain ⟨blob, m, first, rest⟩ := runs_run_bind_ok.mp run
  have clean := (sure_onRedis sure_retrieveAndExpire).adapt s _ m first
  obtain ⟨r, ran, rfl⟩ := runs_onRedis.mp (runs_adapt_ok.mp clean)
  cases blob with
  | none => cases (runs_run_throw.mp rest).1
  | some blob =>
      obtain ⟨same, rfl⟩ := runs_run_pure.mp rest
      obtain rfl := Except.ok.inj same
      exact runs_retrieveAndExpire (by decide) ran

theorem removes_deleteMedia {result : Except HysjError Unit}
    (run : Runs Any (deleteMedia kind id).run s result s') :
    Removes (mediaKey id) s.redis s'.redis := by
  have keeps : Keeps (fun s s' : Server => Removes (mediaKey id) s.redis s'.redis)
      (deleteMedia kind id).run := by
    refine Keeps.run_bind (Keeps.adapt (Keeps.zoom removes_deleteBlob fun _ _ kept => kept))
      fun deleted => ?_
    split
    · exact keeps_pure _
    · exact keeps_pure _
  exact run.keeps keeps (fun s => removes_refl _ s.redis) fun _ _ _ first second =>
    first.trans second

theorem runs_map_any {α β : Type} {f : α → β} {t : Program Chance Server α} {b : β}
    (run : Runs Any (f <$> t) s b s') : ∃ a, Runs Any t s a s' ∧ f a = b := by
  rw [map_eq_pure_bind] at run
  obtain ⟨a, m, ran, rest⟩ := runs_bind.mp run
  obtain ⟨same, rfl⟩ := runs_pure.mp rest
  exact ⟨a, ran, same⟩

/-- What a request on the id does, by what it is answered with. -/
theorem Serves.cases {call : MediaCall} {reply : MediaReply}
    (serves : Serves serde id s (.request call reply) s') :
    (∃ kind body result, kind.ttlSeconds = AUDIO_TTL_SECONDS ∧ reply = .uploaded result ∧
      Runs Any (uploadMedia serde kind id body).run s result s') ∨
    (∃ kind result, (MediaEvent.request call reply).Asks ∧ reply = .blob result ∧
      Runs Any (downloadMedia kind id).run s result s') ∨
    (∃ kind result, reply = .deleted result ∧ Runs Any (deleteMedia kind id).run s result s') ∨
    ((∃ result, reply = .audioInfo result) ∨ ∃ result, reply = .fileInfo result) ∧
      LeavesKey (mediaKey id) s s' := by
  obtain ⟨names, run⟩ := serves
  cases call with
  | initAudio auth request => cases names
  | initFile auth request => cases names
  | uploadAudio _ body =>
      cases names
      obtain ⟨result, ran, rfl⟩ := runs_map_any run
      exact Or.inl ⟨.audio, body, result, rfl, rfl, ran⟩
  | uploadFile _ body =>
      cases names
      obtain ⟨result, ran, rfl⟩ := runs_map_any run
      exact Or.inl ⟨.file, body, result, rfl, rfl, ran⟩
  | downloadAudio _ =>
      cases names
      obtain ⟨result, ran, rfl⟩ := runs_map_any run
      exact Or.inr (Or.inl ⟨.audio, result, trivial, rfl, ran⟩)
  | downloadFile _ =>
      cases names
      obtain ⟨result, ran, rfl⟩ := runs_map_any run
      exact Or.inr (Or.inl ⟨.file, result, trivial, rfl, ran⟩)
  | deleteAudio _ =>
      cases names
      obtain ⟨result, ran, rfl⟩ := runs_map_any run
      exact Or.inr (Or.inr (Or.inl ⟨.audio, result, rfl, ran⟩))
  | deleteFile _ =>
      cases names
      obtain ⟨result, ran, rfl⟩ := runs_map_any run
      exact Or.inr (Or.inr (Or.inl ⟨.file, result, rfl, ran⟩))
  | audioMeta _ =>
      cases names
      obtain ⟨result, ran, rfl⟩ := runs_map_any run
      exact Or.inr (Or.inr (Or.inr ⟨Or.inl ⟨result, rfl⟩, Runs.leavesKey ran leavesKey_audioMeta⟩))
  | fileMeta _ =>
      cases names
      obtain ⟨result, ran, rfl⟩ := runs_map_any run
      exact Or.inr (Or.inr (Or.inr ⟨Or.inr ⟨result, rfl⟩, Runs.leavesKey ran leavesKey_fileMeta⟩))

theorem ExpiresBy.of_peek (holds : ExpiresBy id bound s)
    (same : s'.redis.peek (mediaKey id) = s.redis.peek (mediaKey id)) : ExpiresBy id bound s' := by
  intro entry found
  exact holds entry (same ▸ found)

/-- A step that stores nothing and takes the blob in time leaves it with no more time. -/
theorem expiresBy_of_serves {e : MediaEvent} (serves : Serves serde id s e s') (calm : ¬ e.Stores)
    (inTime : InTime id s e) (holds : ExpiresBy id bound s) : ExpiresBy id bound s' := by
  cases e with
  | other => exact fun entry found => holds entry (serves.2 entry found)
  | request call reply =>
      rcases serves.cases
        with ⟨kind, body, result, lasts, rfl, ran⟩ | ⟨kind, result, asks, -, ran⟩ |
        ⟨kind, result, -, ran⟩ | ⟨-, kept⟩
      · rcases runs_uploadMedia (by rw [lasts]; decide) ran with ⟨-, kept⟩ | ⟨rfl, -⟩
        · exact holds.of_peek kept.2
        · exact absurd trivial calm
      · rcases (renews_downloadMedia ran).2 with same | ⟨entry, found, renewed⟩
        · exact holds.of_peek same
        · intro entry' found'
          obtain rfl := Option.some.inj (renewed.symm.trans found')
          obtain ⟨t, early, expires⟩ := holds entry found
          exact ⟨_, Nat.le_trans (inTime asks entry t found expires) early, rfl⟩
      · rcases (removes_deleteMedia ran).2 with same | gone
        · exact holds.of_peek same
        · intro entry found
          rw [gone] at found
          cases found
      · exact holds.of_peek kept.2

/-- A download that returns the blob has found it and left it with the short lifetime. -/
theorem Serves.returns {e : MediaEvent} (serves : Serves serde id s e s') (returns : e.Returns) :
    ∃ entry, s.redis.peek (mediaKey id) = some entry ∧
      ExpiresBy id (s.redis.now + AUDIO_SEEN_TTL_SECONDS.toNat) s' := by
  cases e with
  | other => cases returns
  | request call reply =>
      rcases serves.cases with ⟨kind, body, result, -, rfl, -⟩ | ⟨kind, result, -, rfl, ran⟩ |
        ⟨kind, result, rfl, -⟩ | ⟨⟨result, rfl⟩ | ⟨result, rfl⟩, -⟩
      · cases returns
      · cases result with
        | error e => cases returns
        | ok data =>
            obtain ⟨entry, found, -, renewed⟩ := runs_downloadMedia ran
            refine ⟨entry, found, fun entry' found' => ?_⟩
            obtain rfl := Option.some.inj (renewed.symm.trans found')
            exact ⟨_, Nat.le_refl _, rfl⟩
      · cases returns
      · cases returns
      · cases returns

theorem Serves.stores {e : MediaEvent} (serves : Serves serde id s e s') (stores : e.Stores) :
    ExpiresBy id (s.redis.now + AUDIO_TTL_SECONDS.toNat) s' := by
  cases e with
  | other => cases stores
  | request call reply =>
      rcases serves.cases with ⟨kind, body, result, lasts, rfl, ran⟩ | ⟨kind, result, -, rfl, -⟩ |
        ⟨kind, result, rfl, -⟩ | ⟨⟨result, rfl⟩ | ⟨result, rfl⟩, -⟩
      · rcases runs_uploadMedia (by rw [lasts]; decide) ran with ⟨⟨e, rfl⟩, -⟩ | ⟨-, -, stored⟩
        · cases stores
        · obtain ⟨entry, found, expires⟩ := stored
          intro entry' found'
          obtain rfl := Option.some.inj (found.symm.trans found')
          exact ⟨_, Nat.le_refl _, lasts ▸ expires⟩
      · cases stores
      · cases stores
      · cases stores
      · cases stores

theorem ExpiresBy.now_lt {entry : Entry Bytes} (holds : ExpiresBy id bound s)
    (found : s.redis.peek (mediaKey id) = some entry) : s.redis.now < bound := by
  obtain ⟨t, early, expires⟩ := holds entry found
  exact Nat.lt_of_lt_of_le ((Store.peek_eq_some.mp found).2 t expires) early

end

/-- In every run in which each download finds a blob with at least three minutes left, or none, a
blob is not returned later than three minutes after a download returned it, nor later than its
lifetime after its upload. -/
theorem media_disappears {serde : SerdeJson} {id : String} {first last : Server} {steps : MediaRun}
    (trail : Trail (Serves serde id) first steps last) (inTime : ∀ x ∈ steps, InTime id x.1 x.2.1) :
    Disappears steps := by
  intro before seen between again after whole calm returned
  subst whole
  obtain ⟨m, -, trail⟩ := trail.append_inv
  obtain ⟨rfl, took, trail⟩ := trail.cons_inv
  obtain ⟨m, waited, trail⟩ := trail.append_inv
  obtain ⟨rfl, found, -⟩ := trail.cons_inv
  obtain ⟨entry, present, -⟩ := Serves.returns found returned
  -- the bound of the first step lasts up to the second
  have bounded : ∀ bound, ExpiresBy id bound seen.2.2 → again.1.redis.now ≤ bound := by
    intro bound holds
    have lasts : ExpiresBy id bound again.1 := by
      refine waited.keeps (I := ExpiresBy id bound)
        (C := fun s e _ => ¬ e.Stores ∧ InTime id s e) holds ?_ ?_
      · intro s e s' serves meets
        exact expiresBy_of_serves serves meets.1 meets.2
      · intro x member
        refine ⟨calm x member, inTime x ?_⟩
        simp only [List.mem_append, List.mem_cons]
        tauto
    exact (lasts.now_lt present).le
  constructor
  · intro seenThen
    obtain ⟨-, -, holds⟩ := Serves.returns took seenThen
    exact bounded _ holds
  · intro stored
    exact bounded _ (Serves.stores took stored)

theorem exists_download (serde : SerdeJson) {id : String} {s : Server} {entry : Entry Bytes}
    (found : s.redis.peek (mediaKey id) = some entry) :
    ∃ s', Serves serde id s (.request (.downloadAudio id) (.blob (.ok entry.value))) s' ∧
      s'.redis.now = s.redis.now ∧ s'.redis.peek (mediaKey id) = some
        { entry with expiresAt := some (s.redis.now + AUDIO_SEEN_TTL_SECONDS.toNat) } := by
  have read : s.redis.get? (mediaKey id) = some entry.value :=
    Store.get?_eq_some.mpr ⟨entry, found, rfl⟩
  obtain ⟨r, retrieves⟩ : ∃ r, Runs Clean (retrieveAndExpire id AUDIO_SEEN_TTL_SECONDS).run s.redis
      (.ok (some entry.value)) r := by
    refine ⟨(s.redis.expire (mediaKey id) AUDIO_SEEN_TTL_SECONDS.toNat).expire (mediaMetaKey id)
      AUDIO_SEEN_TTL_SECONDS.toNat, ?_⟩
    refine runs_run_bind_ok.mpr ⟨some entry.value, s.redis, runs_get.mpr ⟨by rw [read], rfl⟩, ?_⟩
    refine runs_run_bind_ok.mpr ⟨(), _, runs_command_const.mpr ⟨rfl, rfl⟩, ?_⟩
    refine runs_run_bind_ok.mpr ⟨(), _, runs_command_const.mpr ⟨rfl, rfl⟩, ?_⟩
    exact runs_run_pure.mpr ⟨rfl, rfl⟩
  obtain ⟨s', ran⟩ : ∃ s', Runs Clean (downloadMedia .audio id).run s (.ok entry.value) s' := by
    refine ⟨{ s with redis := r }, ?_⟩
    unfold downloadMedia
    refine runs_run_bind_ok.mpr ⟨some entry.value, { s with redis := r }, ?_, ?_⟩
    · exact runs_adapt_ok.mpr (runs_onRedis.mpr ⟨r, retrieves, rfl⟩)
    · exact runs_run_pure.mpr ⟨rfl, rfl⟩
  have ran : Runs Any (downloadMedia .audio id).run s (.ok entry.value) s' :=
    ran.mono fun _ _ _ => trivial
  obtain ⟨entry', found', -, renewed⟩ := runs_downloadMedia ran
  obtain rfl := Option.some.inj (found.symm.trans found')
  refine ⟨s', ⟨rfl, ?_⟩, (renews_downloadMedia ran).1, renewed⟩
  show Runs Any (MediaReply.blob <$> (downloadMedia .audio id).run) s _ _
  rw [map_eq_pure_bind]
  exact runs_bind.mpr ⟨_, _, ran, runs_pure.mpr ⟨rfl, rfl⟩⟩

theorem serves_wait (serde : SerdeJson) (id : String) (s : Server) (seconds : Nat) :
    Serves serde id s .other (s.wait seconds) :=
  ⟨Nat.le_add_right _ _, fun _ found => (Store.peek_advance.mp found).1⟩

/-- A server where an upload of two bytes was announced. -/
def announced : Server :=
  { Server.start 0 {} with
    redis := (Store.empty 0).set (mediaMetaKey "a")
      (Json.toVec (MediaMeta.toJson ⟨"d", 5, 2⟩)) (some 259200) }

def MediaReply.succeeded : MediaReply → Bool
  | .uploaded (.ok ()) => true
  | _ => false

theorem serves_announced : ∃ s entry, Serves .sample "a" announced
    (.request (.uploadAudio "a" [1, 2]) (.uploaded (.ok ()))) s ∧ s.redis.now = 0 ∧
      s.redis.peek (mediaKey "a") = some entry ∧ entry.expiresAt = some 259200 := by
  have ran : (exec [{}, {}] ((MediaCall.uploadAudio "a" [1, 2]).program .sample) announced).map
      (fun r =>
        (r.1.succeeded, r.2.redis.now, (r.2.redis.peek (mediaKey "a")).bind Entry.expiresAt)) =
        some (true, 0, some 259200) := by decide +kernel
  obtain ⟨⟨reply, s⟩, ran, facts⟩ := Option.map_eq_some_iff.mp ran
  simp only [Prod.mk.injEq] at facts
  obtain ⟨succeeded, now, expires⟩ := facts
  obtain ⟨entry, stored, expires⟩ := Option.bind_eq_some_iff.mp expires
  have uploaded : reply = .uploaded (.ok ()) := by
    unfold MediaReply.succeeded at succeeded
    split at succeeded
    · rfl
    · cases succeeded
  subst uploaded
  exact ⟨s, entry, ⟨rfl, runs_of_exec (fun _ _ _ => trivial) ran⟩, now, stored, expires⟩

/-- A blob that lasts for longer is still there after some time. -/
theorem peek_wait {s : Server} {key : String} {entry : Entry Bytes} {t seconds : Nat}
    (found : s.redis.peek key = some entry) (expires : entry.expiresAt = some t)
    (later : s.redis.now + seconds < t) : (s.wait seconds).redis.peek key = some entry := by
  refine Store.peek_advance.mpr ⟨found, fun t' expires' => ?_⟩
  obtain rfl := Option.some.inj (expires.symm.trans expires')
  exact later

/-- Two downloads at once, 100 seconds after the upload, are in time, and both return the blob. -/
theorem media_disappears_downloaded :
    ∃ steps last, Trail (Serves .sample "a") announced steps last ∧
    steps.length = 4 ∧ (∀ x ∈ steps, InTime "a" x.1 x.2.1) ∧ Disappears steps := by
  obtain ⟨s, entry, uploads, now, stored, expires⟩ := serves_announced
  have waits := serves_wait .sample "a" s 100
  have present := peek_wait stored expires (show s.redis.now + 100 < 259200 by omega)
  obtain ⟨s', downloads, same, renewed⟩ := exists_download .sample present
  obtain ⟨s'', again, -, -⟩ := exists_download .sample renewed
  have trail := (((Trail.start.next uploads).next waits).next downloads).next again
  have inTime : ∀ x ∈ [(announced, .request (.uploadAudio "a" [1, 2]) (.uploaded (.ok ())), s),
      (s, .other, s.wait 100),
      (s.wait 100, .request (.downloadAudio "a") (.blob (.ok entry.value)), s'),
      (s', .request (.downloadAudio "a") (.blob (.ok entry.value)), s'')],
      InTime "a" x.1 x.2.1 := by
    simp only [List.forall_mem_cons]
    refine ⟨fun asks => asks.elim, fun asks => asks.elim, fun _ entry' t found expires' => ?_,
      fun _ entry' t found expires' => ?_, List.forall_mem_nil _⟩
    · obtain rfl := Option.some.inj (present.symm.trans found)
      obtain rfl := Option.some.inj (expires.symm.trans expires')
      show s.redis.now + 100 + 180 ≤ 259200
      omega
    · obtain rfl := Option.some.inj (renewed.symm.trans found)
      obtain rfl := Option.some.inj expires'
      show s'.redis.now + AUDIO_SEEN_TTL_SECONDS.toNat ≤ _
      rw [same]
  exact ⟨_, _, trail, rfl, inTime, media_disappears trail inTime⟩

/-- Each download renews the lifetime: one every 100 seconds returns the blob again. -/
theorem seen_media_renewed : ∃ steps last, Trail (Serves .sample "a") announced steps last ∧
    ¬ Disappears steps := by
  obtain ⟨s, entry, uploads, now, stored, expires⟩ := serves_announced
  obtain ⟨s₁, first, now₁, renewed₁⟩ := exists_download .sample stored
  have waits := serves_wait .sample "a" s₁ 100
  have lifetime : AUDIO_SEEN_TTL_SECONDS.toNat = 180 := by decide
  have present₁ := peek_wait renewed₁ rfl (show s₁.redis.now + 100 < _ by omega)
  obtain ⟨s₂, second, now₂, renewed₂⟩ := exists_download .sample present₁
  have waits' := serves_wait .sample "a" s₂ 100
  have clock : s₂.redis.now = 100 := by
    rw [now₂]
    show s₁.redis.now + 100 = 100
    omega
  have present₂ := peek_wait renewed₂ rfl (show s₂.redis.now + 100 < _ by rw [← now₂]; omega)
  obtain ⟨s₃, third, -, -⟩ := exists_download .sample present₂
  refine ⟨_, _,
    (((((Trail.start.next uploads).next first).next waits).next second).next waits').next
    third, ?_⟩
  intro disappears
  have late := (disappears [(announced, _, s)] (s, _, s₁)
    [(s₁, .other, s₁.wait 100), (s₁.wait 100, _, s₂), (s₂, .other, s₂.wait 100)]
    (s₂.wait 100, _, s₃) [] rfl (by simp [MediaEvent.Stores]) trivial).1 trivial
  have late : s₂.redis.now + 100 ≤ s.redis.now + AUDIO_SEEN_TTL_SECONDS.toNat := late
  omega

end Api

end Hysj
