import Mathlib.Algebra.Order.Group.Defs
import Mathlib.Algebra.Order.Sub.Defs
import Mathlib.Data.Finset.Lattice.Fold
import Mathlib.Data.List.Infix
import Mathlib.Order.Bounds.Basic
import Mathlib.Tactic.Ring
import Mathlib.Algebra.Order.Field.Basic

/- Extrema over a series, and how one more element changes them: the maximum so far, the
   largest drop from an earlier element to a later one, the longest run of elements with a
   property, and the median. Each is defined over all elements, intervals or sublists of
   the series; the step lemmas are what a single pass with a few accumulators needs. -/
namespace SeriesExtrema

/-! ## The maximum so far -/

section Max

variable {α : Type*} [LinearOrder α]

/-- The maximum of `f 0`, …, `f n`. -/
def runningMax (f : ℕ → α) (n : ℕ) : α :=
  (Finset.range (n + 1)).sup' ⟨0, Finset.mem_range.mpr (Nat.succ_pos n)⟩ f

theorem le_runningMax (f : ℕ → α) {i n : ℕ} (h : i ≤ n) : f i ≤ runningMax f n :=
  Finset.le_sup' f (Finset.mem_range.mpr (Nat.lt_succ_of_le h))

theorem exists_runningMax (f : ℕ → α) (n : ℕ) : ∃ i ≤ n, runningMax f n = f i := by
  obtain ⟨i, hi, heq⟩ := Finset.exists_mem_eq_sup' (s := Finset.range (n + 1))
    ⟨0, Finset.mem_range.mpr (Nat.succ_pos n)⟩ f
  exact ⟨i, Nat.lt_succ_iff.mp (Finset.mem_range.mp hi), heq⟩

@[simp] theorem runningMax_zero (f : ℕ → α) : runningMax f 0 = f 0 := by
  obtain ⟨i, hi, heq⟩ := exists_runningMax f 0
  rw [heq, Nat.le_zero.mp hi]

theorem runningMax_succ (f : ℕ → α) (n : ℕ) :
    runningMax f (n + 1) = max (runningMax f n) (f (n + 1)) := by
  apply le_antisymm
  · obtain ⟨i, hi, heq⟩ := exists_runningMax f (n + 1)
    rw [heq]
    cases Nat.le_succ_iff.mp hi with
    | inl hle => exact le_max_of_le_left (le_runningMax f hle)
    | inr hlast => rw [hlast]; exact le_max_right _ _
  · refine max_le ?_ (le_runningMax f le_rfl)
    obtain ⟨i, hi, heq⟩ := exists_runningMax f n
    rw [heq]
    exact le_runningMax f (hi.trans (Nat.le_succ n))

end Max

/-! ## The largest drop -/

section Drop

variable {α : Type*} [AddCommGroup α] [LinearOrder α]

/-- `d` is the largest of `S i - S j` over `i ≤ j ≤ n`. -/
def IsMaxDrop (S : ℕ → α) (n : ℕ) (d : α) : Prop :=
  IsGreatest {x | ∃ i j, i ≤ j ∧ j ≤ n ∧ x = S i - S j} d

theorem isMaxDrop_zero (S : ℕ → α) : IsMaxDrop S 0 0 := by
  refine ⟨⟨0, 0, le_rfl, le_rfl, (sub_self _).symm⟩, ?_⟩
  intro x hx
  obtain ⟨i, j, hij, hj, rfl⟩ := hx
  have hj0 := Nat.le_zero.mp hj
  have hi0 := Nat.le_zero.mp (hij.trans hj)
  rw [hi0, hj0, sub_self]

theorem IsMaxDrop.nonneg {S : ℕ → α} {n : ℕ} {d : α} (h : IsMaxDrop S n d) : 0 ≤ d :=
  h.2 ⟨0, 0, le_rfl, Nat.zero_le n, (sub_self _).symm⟩

/-- A new element drops furthest from the maximum so far. -/
theorem isMaxDrop_succ [IsOrderedAddMonoid α] {S : ℕ → α} {n : ℕ} {d : α}
    (h : IsMaxDrop S n d) :
    IsMaxDrop S (n + 1) (max d (runningMax S (n + 1) - S (n + 1))) := by
  constructor
  · rcases max_choice d (runningMax S (n + 1) - S (n + 1)) with hmax | hmax
    · rw [hmax]
      obtain ⟨i, j, hij, hj, heq⟩ := h.1
      exact ⟨i, j, hij, hj.trans (Nat.le_succ n), heq⟩
    · rw [hmax]
      obtain ⟨i, hi, heq⟩ := exists_runningMax S (n + 1)
      exact ⟨i, n + 1, hi, le_rfl, by rw [heq]⟩
  · intro x hx
    obtain ⟨i, j, hij, hj, rfl⟩ := hx
    cases Nat.le_succ_iff.mp hj with
    | inl hle => exact le_max_of_le_left (h.2 ⟨i, j, hij, hle, rfl⟩)
    | inr hlast =>
      rw [hlast] at hij ⊢
      exact le_max_of_le_right (sub_le_sub_right (le_runningMax S hij) _)

end Drop

/-! ## The longest run -/

section Runs

variable {α : Type*} {p : α → Prop}

/-- `m` is the length of the longest contiguous run of elements with `p`. -/
def IsLongestRun (p : α → Prop) (l : List α) (m : ℕ) : Prop :=
  IsGreatest {k | ∃ run, run <:+: l ∧ run.length = k ∧ ∀ x ∈ run, p x} m

/-- `m` is the length of the longest run at the end. -/
def IsLastRun (p : α → Prop) (l : List α) (m : ℕ) : Prop :=
  IsGreatest {k | ∃ run, run <:+ l ∧ run.length = k ∧ ∀ x ∈ run, p x} m

theorem isLongestRun_nil : IsLongestRun p [] 0 := by
  refine ⟨⟨[], List.infix_rfl, rfl, by simp⟩, ?_⟩
  intro k hk
  obtain ⟨run, hrun, rfl, _⟩ := hk
  rw [List.infix_nil.mp hrun]
  rfl

theorem isLastRun_nil : IsLastRun p [] 0 := by
  refine ⟨⟨[], List.suffix_rfl, rfl, by simp⟩, ?_⟩
  intro k hk
  obtain ⟨run, hrun, rfl, _⟩ := hk
  rw [List.suffix_nil.mp hrun]
  rfl

/-- An element with `p` makes the last run longer. -/
theorem IsLastRun.concat_of {l : List α} {m : ℕ} {a : α} (h : IsLastRun p l m) (ha : p a) :
    IsLastRun p (l ++ [a]) (m + 1) := by
  constructor
  · obtain ⟨run, hrun, hlen, hall⟩ := h.1
    refine ⟨run ++ [a], ?_, by simp [hlen], ?_⟩
    · obtain ⟨front, rfl⟩ := hrun
      exact ⟨front, by simp⟩
    · intro x hx
      cases List.mem_append.mp hx with
      | inl hold => exact hall x hold
      | inr hnew => rw [List.mem_singleton.mp hnew]; exact ha
  · intro k hk
    obtain ⟨run, hrun, rfl, hall⟩ := hk
    cases List.suffix_concat_iff.mp hrun with
    | inl hnil => rw [hnil]; exact Nat.zero_le _
    | inr hsnoc =>
      obtain ⟨front, rfl, hfront⟩ := hsnoc
      have hle := h.2 ⟨front, hfront, rfl, fun x hx => hall x (by simp [hx])⟩
      simpa using hle

/-- An element without `p` ends it. -/
theorem IsLastRun.concat_of_not {l : List α} {a : α} (ha : ¬ p a) :
    IsLastRun p (l ++ [a]) 0 := by
  refine ⟨⟨[], List.nil_suffix, rfl, by simp⟩, ?_⟩
  intro k hk
  obtain ⟨run, hrun, rfl, hall⟩ := hk
  cases List.suffix_concat_iff.mp hrun with
  | inl hnil => rw [hnil]; rfl
  | inr hsnoc =>
    obtain ⟨front, rfl, _⟩ := hsnoc
    exact absurd (hall a (by simp)) ha

/-- A run in the longer list is one in the shorter, or the last one. -/
theorem IsLongestRun.concat {l : List α} {m c : ℕ} {a : α} (h : IsLongestRun p l m)
    (hlast : IsLastRun p (l ++ [a]) c) : IsLongestRun p (l ++ [a]) (max m c) := by
  constructor
  · rcases max_choice m c with hmax | hmax
    · rw [hmax]
      obtain ⟨run, hrun, hlen, hall⟩ := h.1
      exact ⟨run, hrun.trans (List.prefix_append l [a]).isInfix, hlen, hall⟩
    · rw [hmax]
      obtain ⟨run, hrun, hlen, hall⟩ := hlast.1
      exact ⟨run, hrun.isInfix, hlen, hall⟩
  · intro k hk
    obtain ⟨run, hrun, rfl, hall⟩ := hk
    cases List.infix_concat_iff.mp hrun with
    | inl hsuffix => exact le_max_of_le_right (hlast.2 ⟨run, hsuffix, rfl, hall⟩)
    | inr hinfix => exact le_max_of_le_left (h.2 ⟨run, hinfix, rfl, hall⟩)

end Runs

/-! ## The median -/

/-- `m` is the middle of the sorted list, or the mean of the two in the middle. -/
def IsMedian {α : Type*} [Field α] [LinearOrder α] (l : List α) (m : α) : Prop :=
  ∃ sorted : List α, sorted.Perm l ∧ sorted.Pairwise (· ≤ ·) ∧
    if l.length % 2 = 1 then sorted[l.length / 2]? = some m
    else ∃ a b, sorted[l.length / 2 - 1]? = some a ∧ sorted[l.length / 2]? = some b ∧
      m = (a + b) / 2

end SeriesExtrema
