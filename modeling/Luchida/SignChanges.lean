import Mathlib.Algebra.Notation.Defs
import Mathlib.Data.Nat.Find
import Mathlib.Order.Defs.LinearOrder
import Mathlib.Order.Lattice

/- Sign changes of a sequence that may stay at zero for a while. A sequence rises at `k`
   when it is above zero there and its last value before that was not zero was below
   (`RisesAt`). A detector that looks at two neighbouring values and takes zero for either
   side sees the same, except where the sequence has touched zero and turned back
   (`sees_iff`). Rises and falls alternate (`exists_change`). -/
namespace SignChanges

variable {α : Type*} [Zero α]

/-- `j` is the last place before `k` where the sequence, which begins at `start`, is not
zero. -/
structure LastNonzero (d : ℕ → α) (start k j : ℕ) : Prop where
  start_le : start ≤ j
  lt : j < k
  ne_zero : d j ≠ 0
  eq_zero : ∀ i, j < i → i < k → d i = 0

/-- The sequence was not zero somewhere before `k`. -/
def Started (d : ℕ → α) (start k : ℕ) : Prop := ∃ j, start ≤ j ∧ j < k ∧ d j ≠ 0

section
variable [LinearOrder α]

def RisesAt (d : ℕ → α) (start k : ℕ) : Prop := 0 < d k ∧ ∃ j, LastNonzero d start k j ∧ d j < 0

def FallsAt (d : ℕ → α) (start k : ℕ) : Prop := d k < 0 ∧ ∃ j, LastNonzero d start k j ∧ 0 < d j

/-- The sequence has come from zero back to the side it was on before. -/
def TouchesAt (d : ℕ → α) (start k : ℕ) : Prop :=
  d (k - 1) = 0 ∧ ∃ j, LastNonzero d start k j ∧ (0 < d j ∧ 0 < d k ∨ d j < 0 ∧ d k < 0)

end

variable {d : ℕ → α} {start k : ℕ}

theorem Started.exists_last (h : Started d start k) : ∃ j, LastNonzero d start k j := by
  induction k with
  | zero =>
    obtain ⟨j, -, hlt, -⟩ := h
    omega
  | succ k ih =>
    obtain ⟨j, hstart, hlt, hne⟩ := h
    by_cases hk : d k = 0
    · have hjk : j ≠ k := fun heq => hne (heq ▸ hk)
      obtain ⟨i, hi⟩ := ih ⟨j, hstart, by omega, hne⟩
      refine ⟨i, hi.start_le, Nat.lt_succ_of_lt hi.lt, hi.ne_zero, fun m him hmk => ?_⟩
      rcases Nat.lt_succ_iff_lt_or_eq.mp hmk with hmk | rfl
      · exact hi.eq_zero m him hmk
      · exact hk
    · exact ⟨k, by omega, Nat.lt_succ_self k, hk, fun m hkm hmk => by omega⟩

theorem LastNonzero.started {j : ℕ} (h : LastNonzero d start k j) : Started d start k :=
  ⟨j, h.start_le, h.lt, h.ne_zero⟩

theorem LastNonzero.unique {i j : ℕ} (hi : LastNonzero d start k i) (hj : LastNonzero d start k j) :
    i = j := by
  rcases Nat.lt_trichotomy i j with hlt | heq | hlt
  · exact absurd (hi.eq_zero j hlt hj.lt) hj.ne_zero
  · exact heq
  · exact absurd (hj.eq_zero i hlt hi.lt) hi.ne_zero

/-- Between a place where `p` holds and one whose last value before was of the kind `q`, the
sequence changes from `p` to `q`. -/
theorem exists_change {p q : α → Prop} (hne : ∀ a, p a → a ≠ 0) (hor : ∀ a, a ≠ 0 → p a ∨ q a)
    (hnot : ∀ a, p a → ¬ q a) {i j : ℕ} (hstart : start ≤ i) (hi : p (d i)) (hij : i < j)
    (hj : ∃ m, LastNonzero d start j m ∧ q (d m)) :
    ∃ m, i < m ∧ m < j ∧ q (d m) ∧ ∃ l, LastNonzero d start m l ∧ p (d l) := by
  classical
  obtain ⟨m, hm, hqm⟩ := hj
  have him : i < m := by
    rcases Nat.lt_trichotomy m i with hlt | rfl | hlt
    · exact absurd (hm.eq_zero i hlt hij) (hne _ hi)
    · exact absurd hqm (hnot _ hi)
    · exact hlt
  have hex : ∃ m, i < m ∧ q (d m) := ⟨m, him, hqm⟩
  obtain ⟨hfirst, hqfirst⟩ := Nat.find_spec hex
  have hle : Nat.find hex ≤ m := Nat.find_min' hex ⟨him, hqm⟩
  refine ⟨Nat.find hex, hfirst, lt_of_le_of_lt hle hm.lt, hqfirst, ?_⟩
  obtain ⟨l, hl⟩ := Started.exists_last ⟨i, hstart, hfirst, hne _ hi⟩
  refine ⟨l, hl, ?_⟩
  rcases hor _ hl.ne_zero with hp | hq
  · exact hp
  · -- the first place of the kind `q` has none of it before
    rcases Nat.lt_trichotomy l i with hlt | rfl | hlt
    · exact absurd (hl.eq_zero i hlt hfirst) (hne _ hi)
    · exact hi
    · exact absurd ⟨hlt, hq⟩ (Nat.find_min hex hl.lt)

variable [LinearOrder α]

/-- Once the sequence has started, the detector of two neighbours sees the sign changes at
`k` exactly where it has not come back from a touch. -/
theorem sees_iff (h : Started d start k) :
    ((d (k - 1) ≤ 0 ∧ 0 < d k ↔ RisesAt d start k) ∧
      (0 ≤ d (k - 1) ∧ d k < 0 ↔ FallsAt d start k)) ↔ ¬ TouchesAt d start k := by
  obtain ⟨j, hj⟩ := h.exists_last
  have hrises : RisesAt d start k ↔ 0 < d k ∧ d j < 0 := by
    refine and_congr_right fun _ => ⟨?_, fun hneg => ⟨j, hj, hneg⟩⟩
    rintro ⟨i, hi, hneg⟩
    rwa [← hi.unique hj]
  have hfalls : FallsAt d start k ↔ d k < 0 ∧ 0 < d j := by
    refine and_congr_right fun _ => ⟨?_, fun hpos => ⟨j, hj, hpos⟩⟩
    rintro ⟨i, hi, hpos⟩
    rwa [← hi.unique hj]
  have htouches : TouchesAt d start k ↔
      d (k - 1) = 0 ∧ (0 < d j ∧ 0 < d k ∨ d j < 0 ∧ d k < 0) := by
    refine and_congr_right fun _ => ⟨?_, fun hsame => ⟨j, hj, hsame⟩⟩
    rintro ⟨i, hi, hsame⟩
    rwa [← hi.unique hj]
  rw [hrises, hfalls, htouches]
  have hlt := hj.lt
  rcases Nat.lt_or_ge j (k - 1) with hbefore | hat
  · -- the neighbour is zero, and only the last value before says which side it came from
    have hzero : d (k - 1) = 0 := hj.eq_zero _ hbefore (by omega)
    rcases lt_or_gt_of_ne hj.ne_zero with hneg | hpos
    · simp [hzero, hneg, not_lt_of_gt hneg]
    · simp [hzero, hpos, not_lt_of_gt hpos]
  · -- the neighbour is the last value that is not zero
    have hneighbour : k - 1 = j := by omega
    rw [hneighbour]
    rcases lt_or_gt_of_ne hj.ne_zero with hneg | hpos
    · simp [hneg.le, hneg, not_le_of_gt hneg, not_lt_of_gt hneg, hj.ne_zero]
    · simp [hpos.le, hpos, not_le_of_gt hpos, not_lt_of_gt hpos, hj.ne_zero]

end SignChanges
