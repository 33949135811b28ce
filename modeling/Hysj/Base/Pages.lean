import Mathlib.Data.List.Sort

set_option autoImplicit false

/- Rows that are asked for page by page, each page cut out of an order of the rows of its own. -/
namespace Hysj.Pages

section

variable {α κ : Type} [LinearOrder κ]

/-- An order in which rows sorted by a key may come: equal keys leave it open. -/
structure Legal (key : α → κ) (rows order : List α) : Prop where
  perm : order.Perm rows
  sorted : order.Pairwise fun row later => key row ≤ key later

/-- The page of an order that `LIMIT` and `OFFSET` cut out. -/
def page (order : List α) (limit offset : Nat) : List α := (order.drop offset).take limit

/-- The pages from an offset on until an empty one, if the fuel lasts. -/
def collect (pages : Nat → List α) (limit : Nat) : Nat → Nat → Option (List α)
  | 0, _ => none
  | fuel + 1, offset =>
      match pages offset with
      | [] => some []
      | row :: rows =>
          (collect pages limit fuel (offset + limit)).map fun rest => row :: rows ++ rest

/-- What the pages show altogether is the rows, each once. -/
def Complete (rows : List α) (limit : Nat) (pages : Nat → List α) : Prop :=
  ∃ fuel listed, collect pages limit fuel 0 = some listed ∧ listed.Perm rows

/-- However each page comes to its order, the pages are complete. -/
def Partition (key : α → κ) (rows : List α) (limit : Nat) : Prop :=
  ∀ orders : Nat → List α, (∀ offset, Legal key rows (orders offset)) →
    Complete rows limit fun offset => page (orders offset) limit offset

/-- How many rows come before one with the key in every order. -/
def before (key : α → κ) (rows : List α) (k : κ) : Nat := rows.countP fun row => key row < k

/-- How many rows have come in every order once those with the key have. -/
def through (key : α → κ) (rows : List α) (k : κ) : Nat := rows.countP fun row => key row ≤ k

/-- No boundary of pages stands between rows that the key does not tell apart. -/
def Separated (key : α → κ) (rows : List α) (limit : Nat) : Prop :=
  ∀ row ∈ rows, ∀ n, n * limit ≤ before key rows (key row) ∨ through key rows (key row) ≤ n * limit

variable {key : α → κ} {rows order other : List α} {limit offset boundary : Nat} {k : κ}

theorem Legal.before_eq (legal : Legal key rows order) : before key order k = before key rows k :=
  legal.perm.countP_eq _

theorem Legal.through_eq (legal : Legal key rows order) :
    through key order k = through key rows k :=
  legal.perm.countP_eq _

theorem Legal.length_eq (legal : Legal key rows order) : order.length = rows.length :=
  legal.perm.length_eq

section

variable {p : α → Bool}

/-- A property is closed downwards along an order that never gains it. -/
def Falling (p : α → Bool) (order : List α) : Prop :=
  order.Pairwise fun row later => p later = true → p row = true

theorem Falling.none {row : α} {rest : List α} (falling : Falling p (row :: rest))
    (fails : ¬ p row = true) : ∀ later ∈ row :: rest, ¬ p later = true := by
  intro later there holds
  rcases List.mem_cons.mp there with rfl | there
  · exact fails holds
  · exact fails ((List.pairwise_cons.mp falling).1 later there holds)

theorem Falling.tail {row : α} {rest : List α} (falling : Falling p (row :: rest)) :
    Falling p rest := (List.pairwise_cons.mp falling).2

/-- What falls along an order holds of the beginning of the order. -/
theorem Falling.lt_countP_iff (falling : Falling p order) {i : Nat} (short : i < order.length) :
    i < order.countP p ↔ p order[i] = true := by
  induction order generalizing i with
  | nil => exact absurd short (Nat.not_lt_zero i)
  | cons row rest ih =>
      by_cases holds : p row = true
      · rw [List.countP_cons_of_pos holds]
        cases i with
        | zero => simp [holds]
        | succ i =>
            rw [List.length_cons] at short
            rw [Nat.add_lt_add_iff_right, ih falling.tail (by omega), List.getElem_cons_succ]
      · have zero : (row :: rest).countP p = 0 := List.countP_eq_zero.mpr (falling.none holds)
        rw [zero]
        simp [falling.none holds _ (List.getElem_mem short)]

theorem Falling.take_countP (falling : Falling p order) :
    order.take (order.countP p) = order.filter p := by
  induction order with
  | nil => rfl
  | cons row rest ih =>
      by_cases holds : p row = true
      · rw [List.countP_cons_of_pos holds, List.filter_cons_of_pos holds, List.take_succ_cons,
          ih falling.tail]
      · rw [List.countP_eq_zero.mpr (falling.none holds), List.take_zero,
          List.filter_eq_nil_iff.mpr (falling.none holds)]

end

theorem Legal.falling_lt (legal : Legal key rows order) (k : κ) :
    Falling (fun row => key row < k) order := by
  refine legal.sorted.imp ?_
  intro row later le lt
  rw [decide_eq_true_eq] at lt ⊢
  exact lt_of_le_of_lt le lt

theorem Legal.falling_le (legal : Legal key rows order) (k : κ) :
    Falling (fun row => key row ≤ k) order := by
  refine legal.sorted.imp ?_
  intro row later le le'
  rw [decide_eq_true_eq] at le' ⊢
  exact le_trans le le'

theorem Legal.lt_before_iff (legal : Legal key rows order) {i : Nat} (short : i < order.length) :
    i < before key rows k ↔ key order[i] < k := by
  rw [← legal.before_eq, before, (legal.falling_lt k).lt_countP_iff short, decide_eq_true_eq]

theorem Legal.lt_through_iff (legal : Legal key rows order) {i : Nat} (short : i < order.length) :
    i < through key rows k ↔ key order[i] ≤ k := by
  rw [← legal.through_eq, through, (legal.falling_le k).lt_countP_iff short, decide_eq_true_eq]

/-- What stands neither among those before a key nor after those through it has the key. -/
theorem Legal.key_eq (legal : Legal key rows order) {i : Nat} (short : i < order.length)
    (early : before key rows k ≤ i) (late : i < through key rows k) : key order[i] = k := by
  apply le_antisymm
  · exact (legal.lt_through_iff short).mp late
  · exact not_lt.mp (mt (legal.lt_before_iff short).mpr (not_lt.mpr early))

theorem Legal.take_through (legal : Legal key rows order) (k : κ) :
    order.take (through key rows k) = order.filter fun row => key row ≤ k := by
  rw [← legal.through_eq, through, (legal.falling_le k).take_countP]

/-- Which rows come before a boundary does not depend on the order. -/
theorem Separated.take_perm (separated : Separated key rows limit) (legal : Legal key rows order)
    (legal' : Legal key rows other) (n : Nat) :
    (order.take (n * limit)).Perm (other.take (n * limit)) := by
  generalize boundary : n * limit = b
  by_cases long : rows.length ≤ b
  · rw [List.take_of_length_le (by rw [legal.length_eq]; exact long),
      List.take_of_length_le (by rw [legal'.length_eq]; exact long)]
    exact legal.perm.trans legal'.perm.symm
  · cases b with
    | zero => simp
    | succ i =>
        have short : i < order.length := by
          rw [legal.length_eq]
          omega
        have last : i + 1 = through key rows (key order[i]) := by
          have inside := (legal.lt_through_iff short).mpr (le_refl (key order[i]))
          have outside := mt (legal.lt_before_iff short).mp (lt_irrefl (key order[i]))
          have apart := separated order[i] (legal.perm.mem_iff.mp (List.getElem_mem short)) n
          omega
        rw [last, legal.take_through, legal'.take_through]
        exact (legal.perm.trans legal'.perm.symm).filter _

theorem page_eq_nil_iff (positive : 0 < limit) :
    page order limit offset = [] ↔ order.length ≤ offset := by
  rw [page, List.take_eq_nil_iff, List.drop_eq_nil_iff]
  omega

theorem collect_of_nil {pages : Nat → List α} (empty : pages offset = []) (fuel : Nat) :
    collect pages limit (fuel + 1) offset = some [] := by
  rw [collect, empty]

theorem collect_of_ne_nil {pages : Nat → List α} (full : pages offset ≠ []) (fuel : Nat) :
    collect pages limit (fuel + 1) offset =
      (collect pages limit fuel (offset + limit)).map fun rest => pages offset ++ rest := by
  rw [collect]
  cases shown : pages offset with
  | nil => exact absurd shown full
  | cons row rows => rfl

theorem collect_inj {pages : Nat → List α} {fuel fuel' : Nat} {listed listed' : List α}
    (ends : collect pages limit fuel offset = some listed)
    (ends' : collect pages limit fuel' offset = some listed') : listed = listed' := by
  induction fuel generalizing fuel' offset listed listed' with
  | zero => cases ends
  | succ fuel ih =>
      cases fuel' with
      | zero => cases ends'
      | succ fuel' =>
          by_cases empty : pages offset = []
          · rw [collect_of_nil empty] at ends ends'
            exact Option.some.inj (ends.symm.trans ends')
          · rw [collect_of_ne_nil empty, Option.map_eq_some_iff] at ends ends'
            obtain ⟨rest, shown, rfl⟩ := ends
            obtain ⟨rest', shown', rfl⟩ := ends'
            rw [ih shown shown']

/-- The pages come to an end, and what holds of the last page and is handed on from a page to
the one before holds of what they show. -/
theorem collect_ends {pages : Nat → List α} {length : Nat} (positive : 0 < limit)
    (ends : ∀ offset, pages offset = [] ↔ length ≤ offset) {P : Nat → List α → Prop}
    (last : ∀ n, length ≤ n * limit → P n [])
    (earlier : ∀ n rest,
    n * limit < length → P (n + 1) rest → P n (pages (n * limit) ++ rest)) (n : Nat) :
    ∃ fuel listed, collect pages limit fuel (n * limit) = some listed ∧ P n listed := by
  by_cases past : length ≤ n * limit
  · exact ⟨1, [], collect_of_nil ((ends _).mpr past) 0, last n past⟩
  · have step : n * limit + limit = (n + 1) * limit := (Nat.succ_mul n limit).symm
    obtain ⟨fuel, rest, shown, holds⟩ := collect_ends positive ends last earlier (n + 1)
    refine ⟨fuel + 1, pages (n * limit) ++ rest, ?_, earlier n rest (by omega) holds⟩
    rw [collect_of_ne_nil (mt (ends _).mp past), step, shown, Option.map_some]
  termination_by length - n * limit
  decreasing_by rw [Nat.succ_mul]; omega

theorem exists_legal (key : α → κ) (rows : List α) : ∃ order, Legal key rows order := by
  refine ⟨rows.insertionSort fun row later => key row ≤ key later,
    List.perm_insertionSort _ rows, ?_⟩
  exact List.pairwise_insertionSort _ rows

theorem mem_page {row : α} {i : Nat} (there : order[i]? = some row) (past : offset ≤ i)
    (near : i < offset + limit) : row ∈ page order limit offset := by
  have cut : (page order limit offset)[i - offset]? = some row := by
    rw [page, List.getElem?_take_of_lt (by omega), List.getElem?_drop, Nat.add_sub_cancel' past]
    exact there
  exact List.mem_of_getElem? cut

theorem Legal.exchange (legal : Legal key rows order) {i : Nat} (long : i + 1 < order.length)
    (same : key order[i] = key order[i + 1]) :
    ∃ other, Legal key rows other ∧ other[i + 1]? = some order[i] := by
  have split : order = order.take i ++ order[i] :: order[i + 1] :: order.drop (i + 2) := by
    rw [← List.drop_eq_getElem_cons long, ← List.drop_eq_getElem_cons (Nat.lt_of_succ_lt long),
      List.take_append_drop]
  have counted : (order.take i).length = i := List.length_take_of_le (by omega)
  generalize order[i] = x, order[i + 1] = y, order.take i = A, order.drop (i + 2) = B at *
  refine ⟨A ++ y :: x :: B, ⟨?_, ?_⟩, ?_⟩
  · have perm := legal.perm
    rw [split] at perm
    exact ((List.Perm.swap x y B).append_left A).trans perm
  · have sorted := legal.sorted
    rw [split, ← List.pairwise_map] at sorted
    rw [← List.pairwise_map]
    simpa only [List.map_append, List.map_cons, same] using sorted
  · rw [List.getElem?_append_right (by omega), counted, Nat.add_sub_cancel_left]
    rfl

theorem Complete.apart {pages : Nat → List α} {length : Nat} (positive : 0 < limit)
    (complete : Complete rows limit pages) (distinct : rows.Nodup)
    (ends : ∀ offset, pages offset = [] ↔ length ≤ offset) {n : Nat} {row : α}
    (first : row ∈ pages (n * limit)) : row ∉ pages ((n + 1) * limit) := by
  intro second
  have short : ¬ length ≤ (n + 1) * limit := by
    rw [← ends]
    exact List.ne_nil_of_mem second
  -- up to the second page the row is still to come, and before the first one it is to come twice
  obtain ⟨fuel, listed, shown, holds⟩ := collect_ends positive ends
    (P := fun m rest => m ≤ n + 1 → row ∈ rest ∧ (m ≤ n → ¬ rest.Nodup))
    (by
      intro m far near
      exact absurd (far.trans (Nat.mul_le_mul_right limit near)) short)
    (by
      intro m rest _ later near
      rcases Nat.lt_or_eq_of_le near with before | rfl
      · obtain ⟨still, twice⟩ := later before
        refine ⟨List.mem_append_right _ still, ?_⟩
        intro _ once
        rw [List.nodup_append] at once
        rcases Nat.lt_or_eq_of_le (Nat.le_of_lt_succ before) with before | rfl
        · exact twice before once.2.1
        · exact once.2.2 row first row still rfl
      · exact ⟨List.mem_append_left _ second, by omega⟩)
    0
  obtain ⟨fuel', listed', shown', perm⟩ := complete
  rw [Nat.zero_mul] at shown
  obtain rfl := collect_inj shown shown'
  exact (holds (Nat.zero_le _)).2 (Nat.zero_le _) (perm.nodup_iff.mpr distinct)

theorem Partition.separated (partition : Partition key rows limit) (positive : 0 < limit)
    (distinct : rows.Nodup) : Separated key rows limit := by
  intro row there n
  by_contra! between
  obtain ⟨early, late⟩ := between
  cases n with
  | zero => omega
  | succ n =>
      obtain ⟨order, legal⟩ := exists_legal key rows
      generalize boundary : (n + 1) * limit = b at early late
      cases b with
      | zero => omega
      | succ i =>
          have long : i + 1 < order.length := by
            rw [legal.length_eq]
            exact late.trans_le List.countP_le_length
          have start : key order[i] = key row := legal.key_eq (by omega) (by omega) (by omega)
          have stop : key order[i + 1] = key row := legal.key_eq long (by omega) late
          obtain ⟨other, legal', moved⟩ := legal.exchange long (start.trans stop.symm)
          -- from the boundary on the pages come from the other order, and show the row again
          let orders (offset : Nat) : List α := if offset ≤ i then order else other
          have legals (offset : Nat) : Legal key rows (orders offset) := by
            simp only [orders]
            split
            · exact legal
            · exact legal'
          have ends (offset : Nat) : page (orders offset) limit offset = [] ↔
              rows.length ≤ offset := by
            rw [page_eq_nil_iff positive, (legals offset).length_eq]
          rw [Nat.succ_mul] at boundary
          have first : order[i] ∈ page (orders (n * limit)) limit (n * limit) := by
            rw [show orders (n * limit) = order from if_pos (by omega)]
            exact mem_page (List.getElem?_eq_getElem _) (by omega) (by omega)
          have second : order[i] ∈ page (orders ((n + 1) * limit)) limit ((n + 1) * limit) := by
            rw [Nat.succ_mul, boundary, show orders (i + 1) = other from if_neg (by omega)]
            exact mem_page moved (le_refl _) (by omega)
          exact (partition orders legals).apart positive distinct ends first second

theorem Separated.partition (separated : Separated key rows limit) (positive : 0 < limit) :
    Partition key rows limit := by
  intro orders legal
  have ends (offset : Nat) : page (orders offset) limit offset = [] ↔ rows.length ≤ offset := by
    rw [page_eq_nil_iff positive, (legal offset).length_eq]
  obtain ⟨fuel, listed, shown, perm⟩ := collect_ends positive ends
    (P := fun n rest => ((orders 0).take (n * limit) ++ rest).Perm rows)
    (by
      intro n past
      rw [← (legal 0).length_eq] at past
      rw [List.append_nil, List.take_of_length_le past]
      exact (legal 0).perm)
    (by
      intro n rest _ perm
      have here := separated.take_perm (legal 0) (legal (n * limit)) n
      have next := separated.take_perm (legal (n * limit)) (legal 0) (n + 1)
      rw [Nat.succ_mul, List.take_add] at next
      rw [← List.append_assoc]
      refine ((((here.append_right _).trans next).append_right rest).trans ?_)
      rw [← Nat.succ_mul]
      exact perm)
    0
  refine ⟨fuel, listed, ?_, ?_⟩
  · rwa [Nat.zero_mul] at shown
  · rwa [Nat.zero_mul, List.take_zero, List.nil_append] at perm

/-- Pages out of legal orders are complete, whichever orders they are, exactly if no boundary
stands between rows that the key does not tell apart. -/
theorem partition_iff (positive : 0 < limit) (distinct : rows.Nodup) :
    Partition key rows limit ↔ Separated key rows limit :=
  ⟨fun partition => partition.separated positive distinct,
    fun separated => separated.partition positive⟩

theorem separated_iff_of_const (positive : 0 < limit) (same : ∀ row other, key row = key other) :
    Separated key rows limit ↔ rows.length ≤ limit := by
  have none (row : α) : before key rows (key row) = 0 := by
    rw [before, List.countP_eq_zero]
    intro other _
    simp [same other row]
  have all (row : α) : through key rows (key row) = rows.length := by
    rw [through, List.countP_eq_length]
    intro other _
    simp [same other row]
  constructor
  · intro separated
    cases rows with
    | nil => simp
    | cons row rest =>
        have one := separated row List.mem_cons_self 1
        rw [none, all] at one
        omega
  · intro fits row _ n
    rw [none, all]
    cases n with
    | zero => simp
    | succ n => exact Or.inr (fits.trans (Nat.le_mul_of_pos_left limit n.succ_pos))

theorem through_eq_add (key : α → κ) (rows : List α) (k : κ) :
    through key rows k = before key rows k + (rows.map key).count k := by
  induction rows with
  | nil => rfl
  | cons row rest ih =>
      rw [through, before] at ih ⊢
      rw [List.countP_cons, List.countP_cons, List.map_cons, List.count_cons, ih]
      rcases lt_trichotomy (key row) k with lt | rfl | gt
      · simp [lt, lt.le, lt.ne]
        omega
      · simp
        omega
      · simp [gt.not_gt, gt.ne', gt]

/-- Every size of the pages does exactly if the key tells all rows apart. -/
theorem separated_all_iff :
    (∀ limit, 0 < limit → Separated key rows limit) ↔ (rows.map key).Nodup := by
  rw [List.nodup_iff_count_le_one]
  constructor
  · intro separated k
    by_cases there : k ∈ rows.map key
    · obtain ⟨row, kept, rfl⟩ := List.mem_map.mp there
      have one := separated 1 Nat.one_pos row kept (before key rows (key row) + 1)
      rw [through_eq_add] at one
      omega
    · rw [List.count_eq_zero.mpr there]
      exact Nat.zero_le 1
  · intro once limit _ row _ n
    have one := once (key row)
    rw [through_eq_add]
    omega

end

end Hysj.Pages
