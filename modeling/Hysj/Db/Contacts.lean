import Hysj.Db.Tables

set_option autoImplicit false

/- The statements over contacts, contact requests, settings, muted chats and the contents of emoji
packs. -/
namespace Hysj.Db

open Shared

/-- There is the user. -/
abbrev Tables.HasUser (t : Tables) (userId : Uuid) : Prop := ∃ row ∈ t.users, row.id = userId

/-- A row of which the insertion fails if there is not the user its foreign key names. -/
def ifUser {α : Type} (t : Tables) (userId : Uuid) (constraint : String)
    (inserted : Except DbError α × Tables) : Except DbError α × Tables :=
  if t.users.any fun row => row.id = userId then inserted else (.error (.queryFailed constraint), t)

theorem ifUser_cases {α : Type} (t : Tables) (userId : Uuid) (constraint : String)
    (inserted : Except DbError α × Tables) :
    t.HasUser userId ∧ ifUser t userId constraint inserted = inserted ∨
      ¬ t.HasUser userId ∧
      ifUser t userId constraint inserted = (.error (.queryFailed constraint), t) := by
  unfold ifUser
  split
  · rename_i there
    exact Or.inl ⟨by simpa using there, rfl⟩
  · rename_i absent
    exact Or.inr ⟨by simpa using absent, rfl⟩

namespace Contacts

/-- The row of a contact in the list of a user. -/
abbrev Is (userId contactUserId : Uuid) (row : Contact) : Prop :=
  row.userId = userId ∧ row.contactUserId = contactUserId

/-- `INSERT INTO contacts` of a row that is not there. -/
def insert (contact : Contact) : Statement Contact := fun t =>
  ifUser t contact.userId "contacts_user_id_fkey" <|
    ifUser t contact.contactUserId "contacts_contact_user_id_fkey"
      (.ok contact, { t with contacts := t.contacts ++ [contact] })

/-- Add a contact relationship. -/
def addContact (userId contactUserId : Uuid) (now : Nat) : Statement Contact := fun t =>
  if t.contacts.any fun row => Is userId contactUserId row then
    (.error (duplicateKey "contacts_pkey"), t)
  else insert ⟨userId, contactUserId, none, false, now⟩ t

/-- `UPDATE contacts SET .. WHERE user_id = .. AND contact_user_id = ..` -/
def changed (t : Tables) (userId contactUserId : Uuid) (set : Contact → Contact) : Tables :=
  { t with
    contacts := t.contacts.map fun row => if Is userId contactUserId row then set row else row }

/-- An update of a contact, which has to affect a row. -/
def updateContact (userId contactUserId : Uuid) (set : Contact → Contact) :
    Statement Unit := fun t =>
  if t.contacts.any fun row => Is userId contactUserId row then
    (.ok (), changed t userId contactUserId set)
  else (.error .notFound, t)

/-- Set (or clear) a nickname for a contact. -/
def setNickname (userId contactUserId : Uuid) (nickname : Option String) : Statement Unit :=
  updateContact userId contactUserId fun row => { row with nickname := nickname }

/-- Block a contact: if there is the contact it is updated, otherwise it is inserted as blocked. -/
def blockContact (userId contactUserId : Uuid) (now : Nat) : Statement Unit := fun t =>
  if t.contacts.any fun row => Is userId contactUserId row then
    (.ok (), changed t userId contactUserId fun row => { row with isBlocked := true })
  else
    let inserted := insert ⟨userId, contactUserId, none, true, now⟩ t
    (inserted.1.map fun _ => (), inserted.2)

/-- Unblock a contact. -/
def unblockContact (userId contactUserId : Uuid) : Statement Unit :=
  updateContact userId contactUserId fun row => { row with isBlocked := false }

/-- Remove a contact relationship. -/
def removeContact (userId contactUserId : Uuid) : Statement Unit := fun t =>
  if t.contacts.any fun row => Is userId contactUserId row then
    (.ok (), { t with contacts := t.contacts.filter fun row => ¬ Is userId contactUserId row })
  else (.error .notFound, t)

end Contacts

namespace ContactRequests

def sendRequest (id fromUserId toUserId : Uuid) (now : Nat) : Statement ContactRequest := fun t =>
  let request : ContactRequest := ⟨id, fromUserId, toUserId, now⟩
  if t.contactRequests.any fun row => row.id = id then
    (.error (duplicateKey "contact_requests_pkey"), t)
  else if t.contactRequests.any fun row =>
    row.fromUserId = fromUserId ∧ row.toUserId = toUserId then
    (.error (duplicateKey "contact_requests_from_user_id_to_user_id_key"), t)
  else
    ifUser t fromUserId "contact_requests_from_user_id_fkey" <|
      ifUser t toUserId "contact_requests_to_user_id_fkey"
        (.ok request, { t with contactRequests := t.contactRequests ++ [request] })

/-- The request is one to the user. -/
abbrev IsTo (requestId userId : Uuid) (row : ContactRequest) : Prop :=
  row.id = requestId ∧ row.toUserId = userId

/-- The tables without a request to a user. -/
def dropped (t : Tables) (requestId userId : Uuid) : Tables :=
  { t with contactRequests := t.contactRequests.filter fun row => ¬ IsTo requestId userId row }

/-- `DELETE .. RETURNING *` -/
def accept (requestId userId : Uuid) : Statement ContactRequest := fun t =>
  match t.contactRequests.find? fun row => IsTo requestId userId row with
  | some row => (.ok row, dropped t requestId userId)
  | none => (.error .notFound, t)

def reject (requestId userId : Uuid) : Statement Unit := fun t =>
  if t.contactRequests.any fun row => IsTo requestId userId row then
    (.ok (), dropped t requestId userId)
  else (.error .notFound, t)

section

variable {t : Tables} {requestId userId : Uuid}

theorem dropped_of_not_any
    (absent : ¬ (t.contactRequests.any fun row => IsTo requestId userId row) = true) :
    dropped t requestId userId = t := by
  have all :
      t.contactRequests.filter (fun row => ¬ IsTo requestId userId row) = t.contactRequests := by
    rw [List.filter_eq_self]
    intro row member
    exact decide_eq_true fun is => absent (List.any_eq_true.mpr ⟨row, member, decide_eq_true is⟩)
  unfold dropped
  rw [all]

theorem accept_snd : (accept requestId userId t).2 = dropped t requestId userId := by
  unfold accept
  split
  · rfl
  · rename_i absent
    refine (dropped_of_not_any ?_).symm
    simpa using absent

theorem reject_snd : (reject requestId userId t).2 = dropped t requestId userId := by
  unfold reject
  split
  · rfl
  · rename_i absent
    exact (dropped_of_not_any absent).symm

end

end ContactRequests

namespace Settings

/-- The row of a user's settings, with the defaults of its columns, unless there is one. -/
def ensure (userId : Uuid) : Statement Unit := fun t =>
  if t.userSettings.any fun row => row.userId = userId then (.ok (), t)
  else
    ifUser t userId "user_settings_user_id_fkey"
      (.ok (), { t with userSettings := t.userSettings ++ [⟨userId, true, true, true⟩] })

/-- `UPDATE user_settings SET .. WHERE user_id = ..` -/
def update (userId : Uuid) (set : UserSettings → UserSettings) : Statement Unit := fun t =>
  (.ok (), { t with
    userSettings := t.userSettings.map fun row => if row.userId = userId then set row else row })

def setReadReceipts (userId : Uuid) (enabled : Bool) : Statement Unit :=
  update userId fun row => { row with readReceiptsEnabled := enabled }

def setTypingIndicators (userId : Uuid) (enabled : Bool) : Statement Unit :=
  update userId fun row => { row with typingIndicatorsEnabled := enabled }

def setLastActiveVisible (userId : Uuid) (visible : Bool) : Statement Unit :=
  update userId fun row => { row with lastActiveVisible := visible }

def find (userId : Uuid) : Statement UserSettings := fun t =>
  match t.userSettings.find? fun row => row.userId = userId with
  | some row => (.ok row, t)
  | none => (.error .notFound, t)

def muteChat (userId targetId : Uuid) (now : Nat) : Statement Unit := fun t =>
  if t.mutedChats.any fun row => row.userId = userId ∧ row.targetId = targetId then (.ok (), t)
  else
    ifUser t userId "muted_chats_user_id_fkey"
      (.ok (), { t with mutedChats := t.mutedChats ++ [⟨userId, targetId, now⟩] })

def unmuteChat (userId targetId : Uuid) : Statement Unit := fun t =>
  (.ok (), { t with
    mutedChats :=
    t.mutedChats.filter fun row => ¬ (row.userId = userId ∧ row.targetId = targetId) })

end Settings

namespace Emojis

/-- Get a single emoji pack by ID. -/
def getPack (packId : Uuid) : Statement (Option EmojiPack) := fun t =>
  (.ok (t.emojiPacks.find? fun row => row.id = packId), t)

/-- Add an emoji to a pack. -/
def addEmoji (id packId : Uuid) (shortcode : String) : Statement Unit := fun t =>
  if t.emojis.any fun row => row.id = id then (.error (duplicateKey "emojis_pkey"), t)
  else if t.emojis.any fun row => row.packId = packId ∧ row.shortcode = shortcode then
    (.error (duplicateKey "emojis_pack_id_shortcode_key"), t)
  else if t.emojiPacks.any fun row => row.id = packId then
    (.ok (), { t with emojis := t.emojis ++ [⟨id, packId, shortcode⟩] })
  else (.error (.queryFailed "emojis_pack_id_fkey"), t)

/-- Record a user purchasing/activating an emoji pack. -/
def purchasePack (userId packId : Uuid) : Statement Unit := fun t =>
  if t.userEmojiPacks.any fun row => row.userId = userId ∧ row.packId = packId then (.ok (), t)
  else
    ifUser t userId "user_emoji_packs_user_id_fkey" <|
      if t.emojiPacks.any fun row => row.id = packId then
        (.ok (), { t with userEmojiPacks := t.userEmojiPacks ++ [⟨userId, packId⟩] })
      else (.error (.queryFailed "user_emoji_packs_pack_id_fkey"), t)

end Emojis

end Hysj.Db
