import Mathlib.Data.List.Basic

set_option autoImplicit false

/- Logs of times that forget what no later window of a given length can see. -/
namespace Hysj.SlidingWindow

variable {window horizon clock now later limit : Nat} {history log : List Nat}

/-- The times in the window of the length that ends now and excludes its start. -/
def within (window now : Nat) (times : List Nat) : List Nat :=
  times.filter fun t => now < t + window

/-- The times in the window of the length that includes its start. -/
def starting (window start : Nat) (times : List Nat) : List Nat :=
  times.filter fun t => start ≤ t && t < start + window

/-- From the clock's time on, the log shows every window what the history would. -/
def Tracks (window clock : Nat) (history log : List Nat) : Prop :=
  ∀ now, clock ≤ now → within window now log = within window now history

/-- No window of the length holds more times than the limit. -/
def Sparse (limit window : Nat) (times : List Nat) : Prop :=
  ∀ start, (starting window start times).length ≤ limit

theorem within_append (times more : List Nat) :
    within window now (times ++ more) = within window now times ++ within window now more :=
  List.filter_append times more

/-- A window sees nothing of what an earlier window with a horizon as far has dropped. -/
theorem within_within (far : window ≤ horizon) (elapsed : now ≤ later) (times : List Nat) :
    within window later (within horizon now times) = within window later times := by
  unfold within
  rw [List.filter_filter]
  apply List.filter_congr
  intro t _
  by_cases seen : later < t + window
  · have kept : now < t + horizon := by omega
    simp [seen, kept]
  · simp [seen]

namespace Tracks

theorem refl (window clock : Nat) (history : List Nat) : Tracks window clock history history :=
  fun _ _ => rfl

theorem mono (tracks : Tracks window clock history log) (elapsed : clock ≤ now) :
    Tracks window now history log :=
  fun later after => tracks later (Nat.le_trans elapsed after)

/-- A log may drop what is older than any horizon as far as the window. -/
theorem prune (tracks : Tracks window clock history log) (far : window ≤ horizon)
    (elapsed : clock ≤ now) : Tracks window now history (within horizon now log) := by
  intro later after
  rw [within_within far after]
  exact tracks later (Nat.le_trans elapsed after)

theorem push (tracks : Tracks window now history log) (time : Nat) :
    Tracks window now (history ++ [time]) (log ++ [time]) := by
  intro later after
  rw [within_append, within_append, tracks later after]

end Tracks

theorem sparse_nil (limit window : Nat) : Sparse limit window [] :=
  fun _ => Nat.zero_le limit

/-- One more time keeps every window within the limit if the window that ends with it has room. -/
theorem Sparse.push (sparse : Sparse limit window history)
    (room : (within window now history).length < limit) :
    Sparse limit window (history ++ [now]) := by
  intro start
  have old : (starting window start (history ++ [now])).length =
      (starting window start history).length + (starting window start [now]).length := by
    unfold starting
    rw [List.filter_append, List.length_append]
  rw [old]
  by_cases inside : start ≤ now ∧ now < start + window
  · have earlier : (starting window start history).Sublist (within window now history) := by
      apply List.monotone_filter_right
      intro t seen
      simp only [Bool.and_eq_true, decide_eq_true_eq] at seen ⊢
      omega
    have fewer := earlier.length_le
    have one : (starting window start [now]).length ≤ 1 := List.length_filter_le _ [now]
    omega
  · have outside : starting window start [now] = [] := by
      unfold starting
      rw [List.filter_cons_of_neg]
      · rfl
      · simpa only [Bool.and_eq_true, decide_eq_true_eq] using inside
    rw [outside]
    exact sparse start

end Hysj.SlidingWindow
