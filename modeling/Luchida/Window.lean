import Mathlib.Algebra.Order.BigOperators.Group.List
import Mathlib.Algebra.Order.Field.Basic
import Mathlib.Data.List.DropRight

/- Moving windows over a list that grows at its end. The window of size `n` is
   `List.rtake`, the last `n` entries, and a moving average is any function of it;
   `mean` is the arithmetic mean over a field. The lemmas say how a window moves
   when a value is added, and how replacing the newest value relates to adding
   another one. -/
namespace Window

variable {α K : Type*}

theorem rtake_append_last (l : List α) (a : α) {n : Nat} (hn : 0 < n) :
    (l ++ [a]).rtake n = l.rtake (n - 1) ++ [a] := by
  obtain ⟨m, rfl⟩ : ∃ m, n = m + 1 := ⟨n - 1, by omega⟩
  rw [List.rtake_concat_succ, Nat.add_sub_cancel]

theorem rtake_suffix (l : List α) (n : Nat) : l.rtake n <:+ l :=
  List.drop_suffix _ _

theorem rtake_suffix_rtake (l : List α) {m n : Nat} (h : m ≤ n) : l.rtake m <:+ l.rtake n := by
  simp only [List.rtake]
  exact List.drop_suffix_drop_left l (by omega)

theorem rtake_length (l : List α) {n : Nat} (h : n ≤ l.length) : (l.rtake n).length = n := by
  simp only [List.rtake, List.length_drop]
  omega

theorem rtake_ne_nil (l : List α) {n : Nat} (hn : 0 < n) (h : n ≤ l.length) : l.rtake n ≠ [] := by
  intro hnil
  have := rtake_length l h
  rw [hnil] at this
  simp at this
  omega

/-! ### Lists with the same last entries -/

section
variable {l l' : List α} {m n : Nat}

theorem rtake_congr (h : n ≤ m) (heq : l.rtake m = l'.rtake m) : l.rtake n = l'.rtake n := by
  simp only [List.rtake_eq_reverse_take_reverse, List.reverse_inj] at heq ⊢
  have htake : ∀ r : List α, r.take n = (r.take m).take n := by
    intro r
    rw [List.take_take, Nat.min_eq_left h]
  rw [htake, heq, ← htake]

/-- One entry more has to agree for the windows before the last entry. -/
theorem rtake_dropLast_congr (h : n < m) (heq : l.rtake m = l'.rtake m) :
    l.dropLast.rtake n = l'.dropLast.rtake n := by
  have hdrop : ∀ l : List α, l.dropLast.rtake n = (l.rtake (n + 1)).dropLast := by
    intro l
    simp only [List.rtake_eq_reverse_take_reverse, List.dropLast_reverse, List.reverse_inj]
    rw [← List.tail_reverse, List.tail_take_eq_take_tail, Nat.add_sub_cancel]
  rw [hdrop, hdrop, rtake_congr h heq]

theorem le_length_congr (h : n ≤ m) (heq : l.rtake m = l'.rtake m) (hn : n ≤ l.length) :
    n ≤ l'.length := by
  have hlength := congrArg List.length heq
  simp only [List.rtake, List.length_drop] at hlength
  omega

end

section Average
variable {β : Type*} (average : List α → β)

/-- An average of the last `n` values. -/
def movingAverage (n : Nat) (l : List α) : β := average (l.rtake n)

/-- The moving average once the window is full. -/
def fullAverage (n : Nat) (l : List α) : Option β :=
  if n ≤ l.length then some (movingAverage average n l) else none

variable {average}

theorem fullAverage_of_le {n : Nat} {l : List α} (h : n ≤ l.length) :
    fullAverage average n l = some (movingAverage average n l) := by
  simp [fullAverage, h]

theorem fullAverage_eq_none {n : Nat} {l l' : List α} (hle : l.length ≤ l'.length)
    (h : ¬ n ≤ l'.length) : fullAverage average n l = none := by
  simp only [fullAverage]
  rw [if_neg (by omega)]

theorem movingAverage_append (l : List α) (a : α) {n : Nat} (hn : 0 < n) :
    movingAverage average n (l ++ [a]) = average (l.rtake (n - 1) ++ [a]) := by
  rw [movingAverage, rtake_append_last l a hn]

end Average

section Positive
variable [Zero K] [LT K] {average : List K → K}

/-- The average of positive values is positive. -/
def KeepsPositive (average : List K → K) : Prop :=
  ∀ l, l ≠ [] → (∀ x ∈ l, 0 < x) → 0 < average l

/-- So is that of a window of positive values that is full. -/
theorem KeepsPositive.movingAverage_pos (h : KeepsPositive average) {l : List K} {n : Nat}
    (hn : 0 < n) (hlen : n ≤ l.length) (hpos : ∀ x ∈ l, 0 < x) :
    0 < movingAverage average n l :=
  h _ (rtake_ne_nil l hn hlen) fun x hx => hpos x ((rtake_suffix l n).subset hx)

end Positive

/-- The arithmetic mean. -/
def mean [Field K] (l : List K) : K := l.sum / l.length

theorem mean_keepsPositive [Field K] [LinearOrder K] [IsStrictOrderedRing K] :
    KeepsPositive (mean : List K → K) := by
  intro l hne hpos
  have hlen : 0 < (l.length : K) := by
    have := List.length_pos_iff.mpr hne
    exact_mod_cast this
  exact div_pos (List.sum_pos l hpos hne) hlen

end Window
