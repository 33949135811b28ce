import Hysj.Base.Pages
import Hysj.Db.Groups

set_option autoImplicit false

/- The statements that answer with a page of a user's rows. The database may choose a new order for
each of them, as far as `ORDER BY` leaves one to choose. -/
namespace Hysj.Db.Pagination

open Pages Shared

/-- What `ORDER BY key LIMIT .. OFFSET ..` may answer. -/
def paginated {α κ : Type} [LinearOrder κ] (key : α → κ) (rows : List α) (limit offset : Int) :
    Set (Except DbError (List α)) := {answer |
  if limit < 0 then answer = .error (.queryFailed "LIMIT must not be negative")
  else if offset < 0 then answer = .error (.queryFailed "OFFSET must not be negative")
  else ∃ order, Legal key rows order ∧ answer = .ok (page order limit.toNat offset.toNat)}

variable (t : Tables) (userId : Uuid)

/-- Get contacts for a user with pagination. -/
def getContactsPaginated : Int → Int → Set (Except DbError (List Contact)) :=
  paginated Contact.createdAt (t.contacts.filter fun row => row.userId = userId)

/-- `FROM groups g INNER JOIN group_members gm ON g.id = gm.group_id WHERE gm.user_id = ..` -/
def joined : List Group :=
  t.groups.flatMap fun group =>
    (t.groupMembers.filter fun row => group.id = row.groupId ∧ row.userId = userId).map
      fun _ => group

/-- `ORDER BY g.created_at DESC` -/
def listGroupsForUserPaginated : Int → Int → Set (Except DbError (List Group)) :=
  paginated (fun row => OrderDual.toDual row.createdAt) (joined t userId)

/-- `ORDER BY created_at DESC` -/
def getPendingPaginated : Int → Int → Set (Except DbError (List ContactRequest)) :=
  paginated (fun row => OrderDual.toDual row.createdAt)
    (t.contactRequests.filter fun row => row.toUserId = userId)

/-- No order is asked for. -/
def getMutedChatsPaginated : Int → Int → Set (Except DbError (List MutedChat)) :=
  paginated (fun _ => ()) (t.mutedChats.filter fun row => row.userId = userId)

/-- The groups of a user. -/
def groupsOf : List Group :=
  t.groups.filter fun group =>
    t.groupMembers.any fun row => row.groupId = group.id ∧ row.userId = userId

/-- Whatever the database answers to a client that asks for page after page until an empty one, no
answer is an error, and the pages show the rows, each once. -/
def Lists {α : Type} (statement : Int → Int → Set (Except DbError (List α))) (rows : List α)
    (limit : Nat) : Prop :=
  ∀ answers :
    Nat → Except DbError (List α), (∀ offset : Nat, answers offset ∈ statement limit offset) →
    ∃ pages, (∀ offset, answers offset = .ok (pages offset)) ∧ Complete rows limit pages

/-- The primary keys of the tables. -/
structure PrimaryKeys : Prop where
  contacts : (t.contacts.map fun row => (row.userId, row.contactUserId)).Nodup
  groups : (t.groups.map Group.id).Nodup
  groupMembers : (t.groupMembers.map fun row => (row.groupId, row.userId)).Nodup
  contactRequests : (t.contactRequests.map ContactRequest.id).Nodup
  mutedChats : (t.mutedChats.map fun row => (row.userId, row.targetId)).Nodup

variable {t userId}

section

variable {α κ : Type} [LinearOrder κ] {key : α → κ} {rows : List α} {limit : Nat}

theorem mem_paginated {offset : Nat} {answer : Except DbError (List α)} :
    answer ∈ paginated key rows limit offset ↔
      ∃ order, Legal key rows order ∧ answer = .ok (page order limit offset) := by
  rw [paginated, Set.mem_ofPred_eq, if_neg (by omega), if_neg (by omega), Int.toNat_natCast,
    Int.toNat_natCast]

theorem lists_iff_partition : Lists (paginated key rows) rows limit ↔ Partition key rows limit := by
  constructor
  · intro lists orders legal
    obtain ⟨pages, same, complete⟩ := lists (fun offset => .ok (page (orders offset) limit offset))
      fun offset => mem_paginated.mpr ⟨orders offset, legal offset, rfl⟩
    have is : pages = fun offset => page (orders offset) limit offset := by
      funext offset
      exact (Except.ok.inj (same offset)).symm
    rwa [is] at complete
  · intro partition answers may
    have each (offset : Nat) := mem_paginated.mp (may offset)
    choose orders legal same using each
    exact ⟨_, same, partition orders legal⟩

/-- The rows are listed exactly if no boundary of pages stands between rows with one key. -/
theorem lists_iff (positive : 0 < limit) (distinct : rows.Nodup) :
    Lists (paginated key rows) rows limit ↔ Separated key rows limit :=
  lists_iff_partition.trans (partition_iff positive distinct)

/-- Pages of every size list the rows exactly if no two rows have one key. -/
theorem lists_all_iff (distinct : rows.Nodup) :
    (∀ limit : Nat, 0 < limit → Lists (paginated key rows) rows limit) ↔ (rows.map key).Nodup := by
  rw [← separated_all_iff]
  constructor
  · intro lists limit positive
    exact (lists_iff positive distinct).mp (lists limit positive)
  · intro separated limit positive
    exact (lists_iff positive distinct).mpr (separated limit positive)

end

theorem once_member (keys : PrimaryKeys t) (groupId : Uuid) :
    (t.groupMembers.filter fun row => groupId = row.groupId ∧ row.userId = userId).length ≤ 1 := by
  generalize found :
    (t.groupMembers.filter fun row => groupId = row.groupId ∧ row.userId = userId) = rows
  have distinct : (rows.map fun row => (row.groupId, row.userId)).Nodup := by
    rw [← found]
    exact keys.groupMembers.sublist (List.filter_sublist.map _)
  have same : rows.map (fun row => (row.groupId, row.userId)) =
      List.replicate rows.length (groupId, userId) := by
    rw [List.map_eq_replicate_iff]
    intro row there
    rw [← found, List.mem_filter, decide_eq_true_eq] at there
    rw [← there.2.1, there.2.2]
  rwa [same, List.nodup_replicate] at distinct

/-- What has a partner has it once in the join, if there are no two of them. -/
theorem flatMap_partners {α β : Type} {partners : α → List β} {kept : α → Bool} (rows : List α)
    (once : ∀ row, (partners row).length ≤ 1) (has : ∀ row, kept row = true ↔ partners row ≠ []) :
    (rows.flatMap fun row => (partners row).map fun _ => row) = rows.filter kept := by
  induction rows with
  | nil => rfl
  | cons row rows ih =>
      rw [List.flatMap_cons, ih]
      have one := once row
      cases found : partners row with
      | nil =>
          have gone : ¬ kept row = true := fun holds => (has row).mp holds found
          rw [List.filter_cons_of_neg gone, List.map_nil, List.nil_append]
      | cons partner others =>
          have stays : kept row = true := by
            rw [has, found]
            exact List.cons_ne_nil partner others
          rw [found, List.length_cons] at one
          obtain rfl : others = [] := List.length_eq_zero_iff.mp (by omega)
          rw [List.filter_cons_of_pos stays, List.map_cons, List.map_nil, List.singleton_append]

/-- Who is a member of a group is one once, and so meets the group once. -/
theorem joined_eq (keys : PrimaryKeys t) : joined t userId = groupsOf t userId := by
  unfold joined groupsOf
  apply flatMap_partners
  · intro group
    exact once_member keys group.id
  · intro group
    rw [List.any_eq_true, Ne, List.filter_eq_nil_iff]
    simp only [not_forall, not_not, exists_prop, eq_comm]

/-- The order in which the rows have been inserted among those of one time is one of the orders
that the statement leaves open. -/
theorem listGroups_mem (keys : PrimaryKeys t) (limit offset : Int) :
    (Groups.listGroupsForUserPaginated userId limit offset t).1 ∈
      listGroupsForUserPaginated t userId limit offset := by
  rw [listGroupsForUserPaginated, joined_eq keys, paginated, Set.mem_ofPred_eq]
  unfold Groups.listGroupsForUserPaginated
  dsimp only
  split
  · rfl
  · split
    · rfl
    · refine ⟨_, ⟨List.perm_insertionSort _ _, ?_⟩, rfl⟩
      exact List.pairwise_insertionSort (fun a b : Group => b.createdAt ≤ a.createdAt) _

theorem lists_contacts_iff (keys : PrimaryKeys t) {limit : Nat} (positive : 0 < limit) :
    Lists (getContactsPaginated t userId) (t.contacts.filter fun row => row.userId = userId) limit ↔
      Separated Contact.createdAt (t.contacts.filter fun row => row.userId = userId) limit :=
  lists_iff positive ((List.Nodup.of_map _ keys.contacts).filter _)

theorem lists_groups_iff (keys : PrimaryKeys t) {limit : Nat} (positive : 0 < limit) :
    Lists (listGroupsForUserPaginated t userId) (groupsOf t userId) limit ↔
      Separated (fun row => OrderDual.toDual row.createdAt) (groupsOf t userId) limit := by
  rw [listGroupsForUserPaginated, joined_eq keys]
  exact lists_iff positive ((List.Nodup.of_map _ keys.groups).filter _)

theorem lists_contactRequests_iff (keys : PrimaryKeys t) {limit : Nat} (positive : 0 < limit) :
    Lists (getPendingPaginated t userId)
        (t.contactRequests.filter fun row => row.toUserId = userId) limit ↔
      Separated (fun row => OrderDual.toDual row.createdAt)
        (t.contactRequests.filter fun row => row.toUserId = userId) limit :=
  lists_iff positive ((List.Nodup.of_map _ keys.contactRequests).filter _)

theorem lists_mutedChats_iff (keys : PrimaryKeys t) {limit : Nat} (positive : 0 < limit) :
    Lists (getMutedChatsPaginated t userId)
        (t.mutedChats.filter fun row => row.userId = userId) limit ↔
      (t.mutedChats.filter fun row => row.userId = userId).length ≤ limit := by
  rw [getMutedChatsPaginated, lists_iff positive ((List.Nodup.of_map _ keys.mutedChats).filter _)]
  exact separated_iff_of_const positive fun _ _ => rfl

/-- A user's rows are listed, each once, whatever orders the database chooses, exactly if no
boundary of pages stands between two rows that have been created at one time; muted chats, which
are not ordered, have to fit on one page. -/
theorem paginated_listings_iff (t : Tables) (userId : Uuid) (limit : Nat) (keys : PrimaryKeys t)
    (positive : 0 < limit) :
    (Lists (getContactsPaginated t userId)
    (t.contacts.filter fun row => row.userId = userId) limit ↔
      Separated Contact.createdAt (t.contacts.filter fun row => row.userId = userId) limit) ∧
    (Lists (listGroupsForUserPaginated t userId) (groupsOf t userId) limit ↔
      Separated (fun row => OrderDual.toDual row.createdAt) (groupsOf t userId) limit) ∧
    (Lists (getPendingPaginated t userId)
        (t.contactRequests.filter fun row => row.toUserId = userId) limit ↔
      Separated (fun row => OrderDual.toDual row.createdAt)
        (t.contactRequests.filter fun row => row.toUserId = userId) limit) ∧
    (Lists (getMutedChatsPaginated t userId)
        (t.mutedChats.filter fun row => row.userId = userId) limit ↔
      (t.mutedChats.filter fun row => row.userId = userId).length ≤ limit) :=
  ⟨lists_contacts_iff keys positive, lists_groups_iff keys positive,
    lists_contactRequests_iff keys positive, lists_mutedChats_iff keys positive⟩

def twin (byte : UInt8) : Uuid := .replicate 16 byte

/-- One user's rows, three of each kind but two muted chats, one made after the other. -/
def siblings : Tables where
  contacts := [⟨twin 0, twin 1, none, false, 1⟩, ⟨twin 0, twin 2, none, false, 2⟩,
    ⟨twin 0, twin 3, none, false, 3⟩]
  groups := [⟨twin 1, "one", twin 0, false, 50, 1⟩, ⟨twin 2, "two", twin 0, false, 50, 2⟩,
    ⟨twin 3, "three", twin 0, false, 50, 3⟩]
  groupMembers := [.sample (twin 1) (twin 0), .sample (twin 2) (twin 0), .sample (twin 3) (twin 0)]
  contactRequests := [⟨twin 1, twin 1, twin 0, 1⟩, ⟨twin 2, twin 2, twin 0, 2⟩,
    ⟨twin 3, twin 3, twin 0, 3⟩]
  mutedChats := [⟨twin 0, twin 1, 0⟩, ⟨twin 0, twin 2, 0⟩]

/-- Pages of two rows show all of them, each once. -/
theorem paginated_listings_siblings :
    Lists (getContactsPaginated siblings (twin 0))
      (siblings.contacts.filter fun row => row.userId = twin 0) 2 ∧
    Lists (listGroupsForUserPaginated siblings (twin 0)) (groupsOf siblings (twin 0)) 2 ∧
    Lists (getPendingPaginated siblings (twin 0))
      (siblings.contactRequests.filter fun row => row.toUserId = twin 0) 2 ∧
    Lists (getMutedChatsPaginated siblings (twin 0))
      (siblings.mutedChats.filter fun row => row.userId = twin 0) 2 := by
  have keys : PrimaryKeys siblings := ⟨by decide, by decide, by decide, by decide, by decide⟩
  obtain ⟨contacts, groups, requests, muted⟩ :=
    paginated_listings_iff siblings (twin 0) 2 keys Nat.two_pos
  refine ⟨contacts.mpr ?_, groups.mpr ?_, requests.mpr ?_, muted.mpr (by decide)⟩
  · exact separated_all_iff.mpr (by decide) 2 Nat.two_pos
  · exact separated_all_iff.mpr (by decide) 2 Nat.two_pos
  · exact separated_all_iff.mpr (by decide) 2 Nat.two_pos

def twinContact (byte : UInt8) : Contact := ⟨twin 0, twin byte, none, false, 0⟩

def twinGroup (byte : UInt8) : Group := ⟨twin byte, "twins", twin 0, false, 50, 0⟩

def twinRequest (byte : UInt8) : ContactRequest := ⟨twin byte, twin byte, twin 0, 0⟩

/-- One user's rows, two of each kind and all of one time. -/
def twins : Tables where
  contacts := [twinContact 1, twinContact 2]
  groups := [twinGroup 1, twinGroup 2]
  groupMembers := [.sample (twin 1) (twin 0), .sample (twin 2) (twin 0)]
  contactRequests := [twinRequest 1, twinRequest 2]
  mutedChats := [⟨twin 0, twin 1, 0⟩, ⟨twin 0, twin 2, 0⟩]

theorem twins_primaryKeys : PrimaryKeys twins :=
  ⟨by decide, by decide, by decide, by decide, by decide⟩

/-- With pages of one row, each of the four may show one of the two rows twice. -/
theorem single_row_pages_repeat : PrimaryKeys twins ∧
    ¬ Lists (getContactsPaginated twins (twin 0))
      (twins.contacts.filter fun row => row.userId = twin 0) 1 ∧
    ¬ Lists (listGroupsForUserPaginated twins (twin 0)) (groupsOf twins (twin 0)) 1 ∧
    ¬ Lists (getPendingPaginated twins (twin 0))
      (twins.contactRequests.filter fun row => row.toUserId = twin 0) 1 ∧
    ¬ Lists (getMutedChatsPaginated twins (twin 0))
      (twins.mutedChats.filter fun row => row.userId = twin 0) 1 := by
  have keys := twins_primaryKeys
  have one : 0 < 1 := Nat.one_pos
  rw [lists_contacts_iff keys one, lists_groups_iff keys one, lists_contactRequests_iff keys one,
    lists_mutedChats_iff keys one]
  refine ⟨keys, ?_, ?_, ?_, by decide⟩
  · intro separated
    have apart := separated (twinContact 1) (List.mem_filter.mpr ⟨List.mem_cons_self, by decide⟩) 1
    exact absurd apart (by decide)
  · intro separated
    have apart := separated (twinGroup 1) (List.mem_filter.mpr ⟨List.mem_cons_self, by decide⟩) 1
    exact absurd apart (by decide)
  · intro separated
    have apart := separated (twinRequest 1) (List.mem_filter.mpr ⟨List.mem_cons_self, by decide⟩) 1
    exact absurd apart (by decide)

end Hysj.Db.Pagination
