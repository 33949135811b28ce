import Hysj.Base.ForeignKeys
import Hysj.Db.Tables

set_option autoImplicit false

/- The foreign keys of the tables, and the deletion of a user as they have it. -/
namespace Hysj.Db

open Shared

/-- The keys to which foreign keys refer. -/
inductive Key where
  | user (id : Uuid)
  | device (id : Uuid)
  | group (id : Uuid)
  | vpnServer (id : Uuid)
  | emojiPack (id : Uuid)

inductive Row where
  | user (row : User)
  | device (row : Device)
  | preKey (row : PreKey)
  | loginAttempt (row : LoginAttempt)
  | group (row : Group)
  | groupMember (row : GroupMember)
  | contact (row : Contact)
  | contactRequest (row : ContactRequest)
  | userSettings (row : UserSettings)
  | mutedChat (row : MutedChat)
  | pinnedMessage (row : PinnedMessage)
  | vpnServer (row : VpnServer)
  | userVpnKey (row : UserVpnKey)
  | vpnSession (row : VpnSession)
  | emojiPack (row : EmojiPack)
  | emoji (row : Emoji)
  | userEmojiPack (row : UserEmojiPack)

def Row.key : Row → Option Key
  | .user row => some (.user row.id)
  | .device row => some (.device row.id)
  | .group row => some (.group row.id)
  | .vpnServer row => some (.vpnServer row.id)
  | .emojiPack row => some (.emojiPack row.id)
  | _ => none

/-- The foreign keys of the four migrations. -/
def Row.refs : Row → List (Reference Key)
  | .user _ => []
  | .device row => [⟨.user row.userId, .cascade⟩]
  | .preKey row => [⟨.device row.deviceId, .cascade⟩]
  | .loginAttempt row => row.userId.toList.map fun userId => ⟨.user userId, .setNull⟩
  | .group row => [⟨.user row.creatorId, .cascade⟩]
  | .groupMember row => [⟨.group row.groupId, .cascade⟩, ⟨.user row.userId, .cascade⟩]
  | .contact row => [⟨.user row.userId, .cascade⟩, ⟨.user row.contactUserId, .cascade⟩]
  | .contactRequest row => [⟨.user row.fromUserId, .cascade⟩, ⟨.user row.toUserId, .cascade⟩]
  | .userSettings row => [⟨.user row.userId, .cascade⟩]
  | .mutedChat row => [⟨.user row.userId, .cascade⟩]
  | .pinnedMessage row => [⟨.group row.groupId, .cascade⟩, ⟨.user row.pinnedBy, .cascade⟩]
  | .vpnServer _ => []
  | .userVpnKey row => [⟨.user row.userId, .cascade⟩]
  | .vpnSession row => [⟨.user row.userId, .cascade⟩, ⟨.vpnServer row.serverId, .noAction⟩]
  | .emojiPack row => row.creatorId.toList.map fun userId => ⟨.user userId, .noAction⟩
  | .emoji row => [⟨.emojiPack row.packId, .cascade⟩]
  | .userEmojiPack row => [⟨.user row.userId, .cascade⟩, ⟨.emojiPack row.packId, .cascade⟩]

open Classical in
/-- Login attempts are the only rows that lose a reference. -/
noncomputable def Row.nullify (gone : Key → Prop) : Row → Row
  | .loginAttempt row =>
      .loginAttempt { row with userId := row.userId.filter fun userId => ¬ gone (.user userId) }
  | row => row

def Tables.rows (t : Tables) : Set Row := {row |
  match row with
  | .user row => row ∈ t.users
  | .device row => row ∈ t.devices
  | .preKey row => row ∈ t.preKeys
  | .loginAttempt row => row ∈ t.loginAttempts
  | .group row => row ∈ t.groups
  | .groupMember row => row ∈ t.groupMembers
  | .contact row => row ∈ t.contacts
  | .contactRequest row => row ∈ t.contactRequests
  | .userSettings row => row ∈ t.userSettings
  | .mutedChat row => row ∈ t.mutedChats
  | .pinnedMessage row => row ∈ t.pinnedMessages
  | .vpnServer row => row ∈ t.vpnServers
  | .userVpnKey row => row ∈ t.userVpnKeys
  | .vpnSession row => row ∈ t.vpnSessions
  | .emojiPack row => row ∈ t.emojiPacks
  | .emoji row => row ∈ t.emojis
  | .userEmojiPack row => row ∈ t.userEmojiPacks}

theorem Row.refs_nullify (gone : Key → Prop) (row : Row) (ref : Reference Key) :
    ref ∈ (row.nullify gone).refs ↔
      ref ∈ row.refs ∧ ¬ (ref.onDelete = .setNull ∧ gone ref.target) := by
  cases row with
  | loginAttempt row =>
      cases held : row.userId with
      | none => simp [nullify, refs, held]
      | some userId =>
          by_cases is : gone (.user userId)
          · simp only [nullify, refs, held, Option.filter_some, is, not_true_eq_false, decide_false,
              Bool.false_eq_true, if_false, Option.toList_none, List.map_nil, List.not_mem_nil,
              Option.toList_some, List.map_cons, List.mem_singleton, false_iff, not_and]
            rintro rfl nulled
            exact nulled rfl is
          · simp only [nullify, refs, held, Option.filter_some, is, not_false_eq_true, decide_true,
              if_true, Option.toList_some, List.map_cons, List.map_nil, List.mem_singleton]
            constructor
            · rintro rfl
              exact ⟨rfl, fun both => is both.2⟩
            · exact And.left
  | emojiPack row =>
      cases held : row.creatorId with
      | none => simp [nullify, refs, held]
      | some userId =>
          simp only [nullify, refs, held, Option.toList_some, List.map_cons, List.map_nil,
            List.mem_singleton]
          grind
  | _ =>
      simp only [nullify, refs, List.mem_cons, List.not_mem_nil, or_false]
      grind

noncomputable def schema : Schema Row Key where
  key := Row.key
  refs := Row.refs
  nullify := Row.nullify
  key_nullify gone row := by cases row <;> rfl
  refs_nullify := Row.refs_nullify

/-- The rows that go with a user. -/
def Tables.Takes (t : Tables) (u : Uuid) : Row → Prop
  | .user row => row.id = u
  | .device row => row.userId = u
  | .preKey row => ∃ device ∈ t.devices, device.id = row.deviceId ∧ device.userId = u
  | .group row => row.creatorId = u
  | .groupMember row =>
      (∃ group ∈ t.groups, group.id = row.groupId ∧ group.creatorId = u) ∨ row.userId = u
  | .contact row => row.userId = u ∨ row.contactUserId = u
  | .contactRequest row => row.fromUserId = u ∨ row.toUserId = u
  | .userSettings row => row.userId = u
  | .mutedChat row => row.userId = u
  | .pinnedMessage row =>
      (∃ group ∈ t.groups, group.id = row.groupId ∧ group.creatorId = u) ∨ row.pinnedBy = u
  | .userVpnKey row => row.userId = u
  | .vpnSession row => row.userId = u
  | .userEmojiPack row => row.userId = u
  | _ => False

variable {t : Tables} {u : Uuid} {row : Row}

theorem takes_of_doomed (doomed : schema.Doomed t.rows (.user u) row) : t.Takes u row := by
  induction doomed with
  | @target row member has =>
      cases row with
      | user row =>
          cases has
          rfl
      | _ => cases has
  | @cascade row parent k' member refers has doomed ih =>
      have there := doomed.mem
      cases parent with
      | user parent =>
          obtain rfl := Option.some.inj has
          have is : parent.id = u := ih
          cases row <;> simp [schema, Row.refs, Tables.Takes, is] at refers ⊢ <;> grind
      | device parent =>
          obtain rfl := Option.some.inj has
          have is : parent.userId = u := ih
          have present : parent ∈ t.devices := there
          cases row <;> simp [schema, Row.refs, Tables.Takes] at refers ⊢
          grind
      | group parent =>
          obtain rfl := Option.some.inj has
          have is : parent.creatorId = u := ih
          have present : parent ∈ t.groups := there
          cases row <;> simp [schema, Row.refs, Tables.Takes] at refers ⊢ <;> grind
      | _ => first | exact ih.elim | cases has

theorem doomed_of_takes {user : User} (there : user ∈ t.users) (is : user.id = u)
    (member : row ∈ t.rows) (takes : t.Takes u row) : schema.Doomed t.rows (.user u) row := by
  have whole : schema.Doomed t.rows (.user u) (.user user) := by
    apply Schema.Doomed.target
    · exact there
    · rw [← is]
      rfl
  have direct (row : Row) (member : row ∈ t.rows)
      (refers : ⟨.user u, .cascade⟩ ∈ row.refs) : schema.Doomed t.rows (.user u) row := by
    apply Schema.Doomed.cascade member refers _ whole
    rw [← is]
    rfl
  have viaGroup {row : Row} {groupId : Uuid} (member : row ∈ t.rows)
      (refers : ⟨.group groupId, .cascade⟩ ∈ row.refs)
      (created : ∃ group ∈ t.groups, group.id = groupId ∧ group.creatorId = u) :
      schema.Doomed t.rows (.user u) row := by
    obtain ⟨group, present, rfl, creator⟩ := created
    have doomed : schema.Doomed t.rows (.user u) (.group group) := by
      apply direct (.group group) present
      simp [Row.refs, creator]
    exact .cascade member refers rfl doomed
  cases row with
  | user row => exact .target member (congrArg (fun id => some (Key.user id)) takes)
  | preKey row =>
      obtain ⟨device, present, same, own⟩ := takes
      have doomed : schema.Doomed t.rows (.user u) (.device device) := by
        apply direct (.device device) present
        simp [Row.refs, own]
      refine .cascade member (List.mem_singleton.mpr ?_) rfl doomed
      rw [same]
  | groupMember row =>
      rcases takes with created | own
      · exact viaGroup member List.mem_cons_self created
      · apply direct _ member
        simp [Row.refs, own]
  | pinnedMessage row =>
      rcases takes with created | own
      · exact viaGroup member List.mem_cons_self created
      · apply direct _ member
        simp [Row.refs, own]
  | contact row =>
      apply direct _ member
      rcases takes with own | own <;> simp [Row.refs, own]
  | contactRequest row =>
      apply direct _ member
      rcases takes with own | own <;> simp [Row.refs, own]
  | device row | group row | userSettings row | mutedChat row | userVpnKey row | vpnSession row
  | userEmojiPack row =>
      have own := takes
      rw [Tables.Takes] at own
      apply direct _ member
      simp [Row.refs, own]
  | loginAttempt row | vpnServer row | emojiPack row | emoji row => exact takes.elim

section

variable (there : ∃ user ∈ t.users, user.id = u)
include there

theorem doomed_iff : schema.Doomed t.rows (.user u) row ↔ row ∈ t.rows ∧ t.Takes u row := by
  obtain ⟨user, present, is⟩ := there
  constructor
  · exact fun doomed => ⟨doomed.mem, takes_of_doomed doomed⟩
  · exact fun ⟨member, takes⟩ => doomed_of_takes present is member takes

theorem gone_user {id : Uuid} : schema.Gone t.rows (.user u) (.user id) ↔ id = u := by
  constructor
  · rintro ⟨row, doomed, has⟩
    have takes := takes_of_doomed doomed
    cases row with
    | user row =>
        cases has
        exact takes
    | _ => cases has
  · rintro rfl
    obtain ⟨user, present, rfl⟩ := there
    have member : Row.user user ∈ t.rows := present
    exact Schema.gone_of_mem member rfl

theorem blocked_iff :
    schema.Blocked t.rows (.user u) ↔ ∃ pack ∈ t.emojiPacks, pack.creatorId = some u := by
  constructor
  · rintro ⟨row, member, spared, key, refers, gone⟩
    cases row with
    | emojiPack row =>
        obtain ⟨userId, held, same⟩ := List.mem_map.mp refers
        rw [Reference.mk.injEq] at same
        obtain ⟨rfl, -⟩ := same
        rw [(gone_user there).mp gone, Option.mem_toList] at held
        exact ⟨row, member, held⟩
    | vpnSession row =>
        simp only [schema, Row.refs, List.mem_cons, Reference.mk.injEq, reduceCtorEq, and_false,
          and_true, false_or, List.not_mem_nil, or_false] at refers
        obtain ⟨other, doomed, has⟩ := gone
        subst refers
        cases other with
        | vpnServer other => exact (takes_of_doomed doomed).elim
        | _ => cases has
    | _ => simp [schema, Row.refs] at refers
  · rintro ⟨pack, member, creator⟩
    refine ⟨.emojiPack pack, member, ?_, .user u, ?_, (gone_user there).mpr rfl⟩
    · exact takes_of_doomed
    · simp [schema, Row.refs, creator]

theorem mem_remaining (other : ∀ attempt, row ≠ .loginAttempt attempt) :
    row ∈ schema.remaining t.rows (.user u) ↔ row ∈ t.rows ∧ ¬ t.Takes u row := by
  constructor
  · rintro ⟨old, member, spared, rfl⟩
    have same : schema.nullify (schema.Gone t.rows (.user u)) old = old := by
      cases old with
      | loginAttempt attempt => exact (other _ rfl).elim
      | _ => rfl
    rw [same]
    exact ⟨member, fun takes => spared ((doomed_iff there).mpr ⟨member, takes⟩)⟩
  · rintro ⟨member, spared⟩
    refine ⟨row, member, fun doomed => spared (takes_of_doomed doomed), ?_⟩
    cases row with
    | loginAttempt attempt => exact (other _ rfl).elim
    | _ => rfl

theorem nullify_loginAttempt (attempt : LoginAttempt) :
    schema.nullify (schema.Gone t.rows (.user u)) (.loginAttempt attempt) =
      .loginAttempt
      (if attempt.userId = some u then { attempt with userId := none } else attempt) := by
  obtain ⟨id, ipAddress, held, success, attemptedAt⟩ := attempt
  cases held with
  | none => rfl
  | some userId =>
      change Row.nullify _ (.loginAttempt _) = _
      by_cases is : userId = u
      · simp [Row.nullify, gone_user there, is]
      · simp [Row.nullify, gone_user there, is]

theorem rows_withoutUser : (t.withoutUser u).rows = schema.remaining t.rows (.user u) := by
  ext row
  cases row with
  | loginAttempt row =>
      constructor
      · intro member
        obtain ⟨old, present, rfl⟩ := List.mem_map.mp member
        have spared : ¬ schema.Doomed t.rows (.user u) (.loginAttempt old) := takes_of_doomed
        exact ⟨.loginAttempt old, present, spared, (nullify_loginAttempt there old).symm⟩
      · rintro ⟨old, present, -, same⟩
        cases old with
        | loginAttempt old =>
            rw [nullify_loginAttempt there old] at same
            obtain rfl := Row.loginAttempt.inj same
            exact List.mem_map.mpr ⟨old, present, rfl⟩
        | _ => cases same
  | _ =>
      rw [mem_remaining there fun _ same => by cases same]
      simp [Tables.rows, Tables.withoutUser, Tables.Takes]
      try grind

/-- A user is deleted as the foreign keys have it, unless they block it. -/
theorem deleteUser_refines :
    ((deleteUser u t).1 = .ok () ↔ ¬ schema.Blocked t.rows (.user u)) ∧
      (deleteUser u t).2.rows =
        if (deleteUser u t).1 = .ok () then schema.remaining t.rows (.user u) else t.rows := by
  have found : (t.users.any fun row => row.id = u) = true := by simpa using there
  unfold deleteUser
  rw [if_pos found, blocked_iff there]
  by_cases referenced : (t.emojiPacks.any fun row => row.creatorId = some u) = true
  · rw [if_pos referenced]
    simpa using referenced
  · rw [if_neg referenced]
    refine ⟨by simpa using referenced, ?_⟩
    rw [if_pos rfl, rows_withoutUser there]

theorem consistent_deleteUser (consistent : schema.Consistent t.rows) :
    schema.Consistent (deleteUser u t).2.rows := by
  obtain ⟨succeeds, rows⟩ := deleteUser_refines there
  rw [rows]
  split
  · rename_i deleted
    exact consistent.remaining (succeeds.mp deleted)
  · exact consistent

end

/-- No foreign key refers to the user. -/
def Tables.Unreferenced (t : Tables) (u : Uuid) : Prop :=
  ∀ row ∈ t.rows, ∀ ref ∈ row.refs, ref.target ≠ .user u

theorem unreferenced_deleteUser (there : ∃ user ∈ t.users, user.id = u)
    (deleted : (deleteUser u t).1 = .ok ()) : (deleteUser u t).2.Unreferenced u := by
  obtain ⟨succeeds, rows⟩ := deleteUser_refines there
  rw [if_pos deleted] at rows
  intro row member ref refers is
  rw [rows] at member
  apply Schema.not_gone_of_remaining (succeeds.mp deleted) member refers
  rw [is]
  exact (gone_user there).mpr rfl

end Hysj.Db
