import Hysj.Api.Tokens
import Hysj.Db.References

set_option autoImplicit false

/- Emoji packs, and which accounts can be deleted. -/
namespace Hysj.Shared

structure CreateEmojiPackRequest where
  name : String
  description : Option String
  isPremium : Bool
  priceCents : Option Int

structure EmojiPackDto where
  id : Uuid
  name : String
  description : Option String
  coverImageUrl : Option String
  isPremium : Bool
  priceCents : Option Int
  emojiCount : Int

end Hysj.Shared

namespace Hysj.Api

open Crypto Shared Auth Messaging Program

/-- `POST /api/emojis/packs` -/
def createPack (auth : AuthUser) (request : CreateEmojiPackRequest) :
    Task HysjError EmojiPackDto := do
  let id ← random
  let pack ← ExceptT.adapt .ofDb (query fun now => Db.createPack
    ⟨id, request.name, request.description, some auth.userId, none, request.isPremium,
      request.priceCents, true, now⟩)
  return ⟨pack.id, pack.name, pack.description, pack.coverImageUrl, pack.isPremium,
    pack.priceCents, 0⟩

section

variable {s s' : Server} {auth : AuthUser} {result : Except HysjError Json.Value}

theorem runs_deleteAccount_iff :
    Runs Clean (deleteAccount auth).run s result s' ↔
      { s with db := (Db.deleteUser auth.userId s.db).2 } = s' ∧
        result = ((Db.deleteUser auth.userId s.db).1.mapError .ofDb).map
          fun _ => .obj [("status", .str "account_deleted")] := by
  rw [deleteAccount, runs_run_bind]
  simp only [runs_adapt, runs_query, runs_run_pure]
  cases answer : (Db.deleteUser auth.userId s.db).1 with
  | ok value =>
      constructor
      · rintro (⟨_, _, ⟨_, ⟨rfl, rfl⟩, -⟩, rfl, rfl⟩ | ⟨e, -, _, ⟨rfl, -⟩, failed⟩)
        · exact ⟨rfl, rfl⟩
        · cases failed
      · rintro ⟨rfl, rfl⟩
        exact Or.inl ⟨(), _, ⟨.ok value, ⟨rfl, rfl⟩, rfl⟩, rfl, rfl⟩
  | error e =>
      constructor
      · rintro (⟨_, _, ⟨_, ⟨rfl, rfl⟩, ok⟩, -⟩ | ⟨_, rfl, _, ⟨rfl, rfl⟩, failed⟩)
        · cases ok
        · obtain rfl := Except.error.inj failed
          exact ⟨rfl, rfl⟩
      · rintro ⟨rfl, rfl⟩
        exact Or.inr ⟨_, rfl, .error e, ⟨rfl, rfl⟩, rfl⟩

end

/-- The request is answered, and the account goes with everything that refers to it, exactly if
the user has made no emoji pack. -/
theorem account_deleted_iff (s : Server) (auth : AuthUser)
    (there : ∃ user ∈ s.db.users, user.id = auth.userId) :
    (∃ result s', Runs Clean (deleteAccount auth).run s result s') ∧
      ∀ result s', Runs Clean (deleteAccount auth).run s result s' →
        ((∃ answer, result = .ok answer) ∧ s'.db.Unreferenced auth.userId ↔
          ∀ pack ∈ s.db.emojiPacks, pack.creatorId ≠ some auth.userId) := by
  refine ⟨⟨_, _, runs_deleteAccount_iff.mpr ⟨rfl, rfl⟩⟩, ?_⟩
  intro result s' run
  obtain ⟨rfl, rfl⟩ := runs_deleteAccount_iff.mp run
  have succeeds := (Db.deleteUser_refines there).1
  rw [Db.blocked_iff there] at succeeds
  push Not at succeeds
  rw [← succeeds]
  cases answer : (Db.deleteUser auth.userId s.db).1 with
  | ok value => exact ⟨fun _ => rfl, fun _ => ⟨⟨_, rfl⟩, Db.unreferenced_deleteUser there answer⟩⟩
  | error e =>
      constructor
      · rintro ⟨⟨_, ok⟩, -⟩
        cases ok
      · intro ok
        cases ok

theorem clean_drawing (byte : UInt8) : ∀ c ∈ drawing byte, ∀ s : Server, Clean c s := by
  intro c member s
  rw [List.eq_of_mem_replicate member]

/-- Alice has a device, and she and Bob are contacts. The emoji pack is his. -/
def aliceAndBob : Server :=
  .start 0 { users := [.sample (.replicate 16 1), .sample (.replicate 16 2)]
             devices := [.sample (.replicate 16 3) (.replicate 16 1)]
             contacts := [⟨.replicate 16 1, .replicate 16 2, some "bob", false, 0⟩,
               ⟨.replicate 16 2, .replicate 16 1, none, false, 0⟩]
             emojiPacks :=
             [⟨.replicate 16 4, "cats", none, some (.replicate 16 2), none, false, none,
               true, 0⟩] }

/-- Alice has no packs. Her account goes with the device and both contacts. -/
theorem account_deleted_iff_alice : ∃ answer s' auth,
    Runs Clean (deleteAccount auth).run aliceAndBob (.ok answer) s' ∧
    auth.userId = .replicate 16 1 ∧
      s'.db.Unreferenced auth.userId := by
  obtain ⟨⟨result, s', ran⟩, deleted⟩ := account_deleted_iff aliceAndBob
    ⟨.replicate 16 1, .replicate 16 3, "alice"⟩ ⟨_, List.mem_cons_self, rfl⟩
  obtain ⟨⟨answer, rfl⟩, unreferenced⟩ := (deleted result s' ran).mpr (by decide)
  exact ⟨answer, s', _, ran, rfl, unreferenced⟩

/-- Alice registers and makes an emoji pack. From then on her account cannot be deleted. -/
theorem creator_not_deletable : ∃ response pack, ∃ s₁ s₂ : Server, ∃ auth : AuthUser,
    Runs Clean (register .sample .sample .sample ⟨none, "secret"⟩ (fun _ => none)
      (registration "alice" "+4711111111" "password1")).run (.start 0 {}) (.ok response) s₁ ∧
    auth = ⟨response.userId, response.deviceId, "alice"⟩ ∧
    Runs Clean (createPack auth ⟨"cats", none, false, none⟩).run s₁ (.ok pack) s₂ ∧
    (∃ user ∈ s₂.db.users, user.id = auth.userId) ∧
    ∀ result s', Runs Clean (deleteAccount auth).run s₂ result s' → ∃ e, result = .error e := by
  refine ⟨_, _, _, _, _, runs_of_exec (clean_drawing 1) rfl, rfl,
    runs_of_exec (clean_drawing 2) rfl,
    ⟨_, List.mem_cons_self, rfl⟩, ?_⟩
  intro result s' run
  exact ⟨_, (runs_deleteAccount_iff.mp run).2⟩

end Hysj.Api
