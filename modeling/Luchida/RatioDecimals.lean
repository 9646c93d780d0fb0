import Luchida.LotPolicy

/- Ratio.ts as big.js computes it, and that the ratios counted in ticks of 1e-10 are it.

   `divideOne` rounds twice: the division half up at twenty decimals, then down at ten. The
   first rounding never carries into the tenth decimal as long as there are not more than
   10^10 parts (`divideOne_eq`), so the head is exactly the integer part. `complementOf` goes
   through `toFixed(10)` and `Ratio.of`, which both leave a number with ten decimals alone.
   From there on the equal weights are arithmetic of `Nat`. -/
namespace Luchida

open DecimalRounding

namespace Big

/-- `round(dp, Big.roundDown)`. -/
def roundDownTo (dp : Nat) (x : ℚ) : ℚ := roundDown (x * 10 ^ dp) / 10 ^ dp

/-- `toFixed(dp)`, read back. -/
def toFixed (dp : Nat) (x : ℚ) : ℚ := halfUp dp x

theorem roundDownTo_of_nonneg (dp : Nat) {x : ℚ} (h : 0 ≤ x) :
    roundDownTo dp x = (⌊x * 10 ^ dp⌋ : ℚ) / 10 ^ dp := by
  unfold roundDownTo roundDown
  rw [if_neg (not_lt.mpr (by positivity))]

theorem roundDownTo_nonneg (dp : Nat) {x : ℚ} (h : 0 ≤ x) : 0 ≤ roundDownTo dp x := by
  rw [roundDownTo_of_nonneg dp h]
  have hfloor : (0 : ℤ) ≤ ⌊x * 10 ^ dp⌋ := Int.floor_nonneg.mpr (by positivity)
  have hcast : (0 : ℚ) ≤ ⌊x * 10 ^ dp⌋ := by exact_mod_cast hfloor
  positivity

theorem roundDownTo_le (dp : Nat) {x : ℚ} (h : 0 ≤ x) : roundDownTo dp x ≤ x := by
  rw [roundDownTo_of_nonneg dp h, div_le_iff₀ (by positivity)]
  exact Int.floor_le _

theorem roundDownTo_of_decimals {dp : Nat} {x : ℚ} (h : 0 ≤ x) (hdecimals : Decimals dp x) :
    roundDownTo dp x = x := by
  obtain ⟨n, hn⟩ := hdecimals
  have hscale : (10 : ℚ) ^ dp ≠ 0 := by positivity
  rw [roundDownTo_of_nonneg dp h, hn, div_mul_cancel₀ _ hscale, Int.floor_intCast]

end Big

/-! ## Ratio.ts -/

/-- `Ratio`. -/
@[ext] structure DecimalRatio where
  value : ℚ
  nonneg : 0 ≤ value
  le_one : value ≤ 1

namespace DecimalRatio

/-- `SCALE`. -/
def scale : Nat := 10

/-- `EPSILON`. -/
def epsilon : ℚ := 1 / 10 ^ 9

/-- `Ratio.of`, on the number it is given. -/
def of (raw : ℚ) : Option DecimalRatio :=
  if h : 0 ≤ raw ∧ raw ≤ 1 then
    some ⟨Big.roundDownTo scale raw, Big.roundDownTo_nonneg scale h.1,
      (Big.roundDownTo_le scale h.1).trans h.2⟩
  else none

def one : DecimalRatio := ⟨1, zero_le_one, le_rfl⟩

/-- `1/n` lies between 0 and 1, rounded half up as it is exactly. -/
theorem div_one_mem {n : Nat} (hn : 0 < n) : 0 ≤ Big.div 1 n ∧ Big.div 1 n ≤ 1 := by
  have hcast : (1 : ℚ) ≤ n := by exact_mod_cast hn
  have hle : (1 : ℚ) / n ≤ (1 : ℕ) := by
    rw [div_le_iff₀ (by linarith)]
    simpa using hcast
  refine ⟨halfUp_nonneg Big.decimalPlaces (by positivity), ?_⟩
  have hround := halfUp_mono Big.decimalPlaces hle
  rw [halfUp_of_nat] at hround
  exact_mod_cast hround

/-- `divideOne`, which throws for 0. -/
def divideOne (n : Nat) : Option DecimalRatio :=
  if hn : 0 < n then
    if n = 1 then some one
    else some ⟨Big.roundDownTo scale (Big.div 1 n), Big.roundDownTo_nonneg scale (div_one_mem hn).1,
      (Big.roundDownTo_le scale (div_one_mem hn).1).trans (div_one_mem hn).2⟩
  else none

/-- `complementOf`. -/
def complementOf (parts : DecimalRatio) (k : Nat) : Option DecimalRatio :=
  of (Big.toFixed scale (1 - parts.value * k))

/-- `applyTo`. -/
def applyTo (r : DecimalRatio) (lot : Lot) : Option Lot :=
  let scaled := (lot.units : ℚ) * r.value
  let rounded := Big.roundDown (Big.div scaled 100) * 100
  Lot.of rounded.toNat

/-- `computeEqualWeights`. -/
def computeEqualWeights (n : Nat) : Option (List DecimalRatio) :=
  if n = 1 then some [one]
  else do
    let head ← divideOne n
    let last ← complementOf head (n - 1)
    return List.replicate (n - 1) head ++ [last]

/-- `isApproximatelyOne`, of the sum that `LotAllocation.of` adds up. -/
def isApproximatelyOne (sum : ℚ) : Bool := |sum - 1| ≤ epsilon

end DecimalRatio

/-! ## Ticks -/

namespace Ratio

/-- The decimals of a number of ticks. -/
def decimal (r : Ratio) : DecimalRatio where
  value := r.ticks / 10 ^ 10
  nonneg := by positivity
  le_one := by
    rw [div_le_one (by positivity)]
    exact_mod_cast r.le_one

theorem decimal_one : one.decimal = DecimalRatio.one := by
  ext
  norm_num [decimal, one, DecimalRatio.one]

end Ratio

namespace DecimalRatio

/-- The tenth decimal is not reached by the rounding at the twentieth. -/
theorem divideOne_eq {n : Nat} (hn : 0 < n) (hmax : n ≤ 10 ^ 10) :
    divideOne n = some (Ratio.divideOne n).decimal := by
  unfold divideOne
  rw [dif_pos hn]
  split
  · rename_i h1
    subst h1
    exact congrArg some Ratio.decimal_one.symm
  · have hfloor := floor_halfUp_scale (a := 1) (p := 10) (q := 10) hn hmax
    congr 1
    ext
    change Big.roundDownTo scale (Big.div 1 n) = _
    rw [Big.roundDownTo_of_nonneg scale (div_one_mem hn).1]
    unfold Big.div Big.decimalPlaces scale
    rw [Nat.cast_one] at hfloor
    rw [hfloor, Nat.one_mul]
    rfl

theorem complementOf_eq (parts : Ratio) (k : Nat) :
    complementOf parts.decimal k = (Ratio.complementOf parts k).map Ratio.decimal := by
  have hrest : 1 - parts.decimal.value * k = ((10 ^ 10 - parts.ticks * k : ℤ) : ℚ) / 10 ^ 10 := by
    unfold Ratio.decimal
    push_cast
    field_simp
    norm_num
  have hdecimals : Decimals scale (1 - parts.decimal.value * k) := ⟨_, hrest⟩
  unfold complementOf Big.toFixed of Ratio.complementOf
  rw [halfUp_of_decimals hdecimals]
  by_cases hle : parts.ticks * k ≤ 10 ^ 10
  · have hcast : (parts.ticks * k : ℚ) ≤ 10 ^ 10 := by exact_mod_cast hle
    have hmem : 0 ≤ 1 - parts.decimal.value * k ∧ 1 - parts.decimal.value * k ≤ 1 := by
      have hnonneg := mul_nonneg parts.decimal.nonneg (Nat.cast_nonneg (α := ℚ) k)
      refine ⟨?_, by linarith⟩
      rw [hrest]
      push_cast
      exact div_nonneg (by linarith) (by positivity)
    rw [dif_pos hmem, if_pos hle, Option.map_some]
    congr 1
    ext
    change Big.roundDownTo scale _ = _
    rw [Big.roundDownTo_of_decimals hmem.1 hdecimals, hrest]
    change _ = ((10 ^ 10 - parts.ticks * k : ℕ) : ℚ) / 10 ^ 10
    rw [Nat.cast_sub hle]
    push_cast
    rfl
  · have hcast : (10 ^ 10 : ℚ) < parts.ticks * k := by exact_mod_cast not_le.mp hle
    rw [dif_neg, if_neg hle, Option.map_none]
    intro ⟨hnonneg, _⟩
    rw [hrest] at hnonneg
    push_cast at hnonneg
    have := (le_div_iff₀ (by positivity)).mp hnonneg
    linarith

/-- A lot counts whole units, so the quotient by 100 needs twelve decimals. -/
theorem applyTo_eq (r : Ratio) (lot : Lot) : r.decimal.applyTo lot = r.applyTo lot := by
  have hquotient : (lot.units : ℚ) * r.decimal.value / 100 =
      (lot.units * r.ticks : ℕ) / (100 * 10 ^ 10 : ℕ) := by
    unfold Ratio.decimal
    push_cast
    ring
  have hdecimals : Decimals Big.decimalPlaces ((lot.units : ℚ) * r.decimal.value / 100) := by
    refine ⟨lot.units * r.ticks * 10 ^ 8, ?_⟩
    rw [hquotient]
    unfold Big.decimalPlaces
    push_cast
    ring
  have hround : Big.roundDown (Big.div ((lot.units : ℚ) * r.decimal.value) 100) =
      (lot.units * r.ticks / (100 * 10 ^ 10) : ℕ) := by
    unfold Big.div Big.roundDown
    rw [halfUp_of_decimals hdecimals, hquotient, if_neg (not_lt.mpr (by positivity)),
      Rat.floor_natCast_div_natCast]
    rfl
  unfold applyTo Ratio.applyTo
  dsimp only
  rw [hround]
  rfl

theorem computeEqualWeights_eq {n : Nat} (hn : 0 < n) (hmax : n ≤ 10 ^ 10) :
    computeEqualWeights n = (Luchida.computeEqualWeights n).map (List.map Ratio.decimal) := by
  unfold computeEqualWeights Luchida.computeEqualWeights
  split
  · simp [Ratio.decimal_one]
  · rw [divideOne_eq hn hmax]
    simp only [Option.bind_eq_bind, Option.bind_some, complementOf_eq]
    cases Ratio.complementOf (.divideOne n) (n - 1) with
    | none => rfl
    | some last => simp

/-! ## The weights -/

theorem sum_decimal (l : List Ratio) :
    (l.map (fun r => r.decimal.value)).sum = ((l.map (·.ticks)).sum : ℕ) / 10 ^ 10 := by
  induction l with
  | nil => simp
  | cons r rest ih =>
    rw [List.map_cons, List.sum_cons, ih, List.map_cons, List.sum_cons, Nat.cast_add, add_div]
    rfl

/-- The check of the sum in ticks is the one in decimals. -/
theorem isApproximatelyOne_iff (ticks : Nat) :
    isApproximatelyOne ((ticks : ℚ) / 10 ^ 10) = true ↔
      10 ^ 10 ≤ ticks + 10 ∧ ticks ≤ 10 ^ 10 + 10 := by
  have hscale : (0 : ℚ) < 10 ^ 10 := by positivity
  have hlower : -(1 / 10 ^ 9) ≤ (ticks : ℚ) / 10 ^ 10 - 1 ↔ 10 ^ 10 ≤ ticks + 10 := by
    rw [← Nat.cast_le (α := ℚ), le_sub_iff_add_le, le_div_iff₀ hscale]
    push_cast
    constructor <;> intro h <;> linarith
  have hupper : (ticks : ℚ) / 10 ^ 10 - 1 ≤ 1 / 10 ^ 9 ↔ ticks ≤ 10 ^ 10 + 10 := by
    rw [← Nat.cast_le (α := ℚ), sub_le_iff_le_add, div_le_iff₀ hscale]
    push_cast
    constructor <;> intro h <;> linarith
  unfold isApproximatelyOne epsilon
  rw [decide_eq_true_eq, abs_le, hlower, hupper]

/-- The weights in decimals are those in ticks. -/
theorem weights_eq (n : Nat) (last : Ratio) :
    List.replicate (n - 1) (Ratio.divideOne n).decimal ++ [last.decimal] =
      (List.replicate (n - 1) (Ratio.divideOne n) ++ [last]).map Ratio.decimal := by
  rw [List.map_append, List.map_replicate]
  rfl

theorem sum_decimal_weights {n : Nat} {last : Ratio}
    (hsum : last.ticks + (Ratio.divideOne n).ticks * (n - 1) = 10 ^ 10) :
    ((List.replicate (n - 1) (Ratio.divideOne n).decimal ++ [last.decimal]).map (·.value)).sum =
      1 := by
  rw [weights_eq, List.map_map]
  change (List.map (fun r : Ratio => r.decimal.value) _).sum = 1
  rw [sum_decimal, sum_weights hsum]
  norm_num

/-- No weight is zero. -/
theorem weights_pos {n : Nat} {last : Ratio} (hhead : 0 < (Ratio.divideOne n).ticks)
    (hlast : 0 < last.ticks) :
    ∀ w ∈ List.replicate (n - 1) (Ratio.divideOne n).decimal ++ [last.decimal],
      0 < w.value ∧ w.value ≤ 1 := by
  intro w hw
  rw [weights_eq] at hw
  obtain ⟨r, hr, hdecimal⟩ := List.mem_map.mp hw
  have hpos : 0 < r.ticks := by
    rcases List.mem_append.mp hr with hr | hr
    · rw [List.eq_of_mem_replicate hr]
      exact hhead
    · rw [List.mem_singleton.mp hr]
      exact hlast
  have hcast : (0 : ℚ) < r.ticks := by exact_mod_cast hpos
  rw [← hdecimal]
  exact ⟨div_pos hcast (by positivity), r.decimal.le_one⟩

/-- `LotAllocation.of` accepts weights that add up to one. -/
theorem accepts_of_sum {entries : List (StrategyName × Ratio)} {weights : List DecimalRatio}
    (hkeys : (entries.map (·.1)).Nodup) (heq : entries.map (·.2.decimal) = weights)
    (hone : (weights.map (·.value)).sum = 1) : ∃ a, LotAllocation.of entries = .ok a := by
  have hvalues := sum_decimal (entries.map (·.2))
  rw [List.map_map, List.map_map] at hvalues
  have hmapped : entries.map ((fun r : Ratio => r.decimal.value) ∘ (·.2)) =
      (entries.map (·.2.decimal)).map (·.value) := by
    rw [List.map_map]
    rfl
  rw [hmapped, heq, hone, eq_div_iff (by positivity), one_mul] at hvalues
  have hticks : (entries.map (·.2.ticks)).sum = 10 ^ 10 := by exact_mod_cast hvalues.symm
  exact ⟨_, LotAllocation.of_ok hkeys hticks⟩

/-- Up to 10^10 parts the weights are exact: nothing throws, they add up to one, and the last
is the others and less than a tick for each part. -/
theorem equal_weights_exact {n : Nat} (hn : 1 ≤ n) (hmax : n ≤ 10 ^ 10) :
    ∃ head last, divideOne n = some head ∧ complementOf head (n - 1) = some last ∧
      computeEqualWeights n = some (List.replicate (n - 1) head ++ [last]) ∧
      ((List.replicate (n - 1) head ++ [last]).map (·.value)).sum = 1 ∧
      (∀ w ∈ List.replicate (n - 1) head ++ [last], 0 < w.value ∧ w.value ≤ 1) ∧
      head.value ≤ last.value ∧ last.value - head.value < n * (1 / 10 ^ 10) ∧
      isApproximatelyOne ((List.replicate (n - 1) head ++ [last]).map (·.value)).sum = true ∧
      ∀ entries : List (StrategyName × Ratio), (entries.map (·.1)).Nodup →
        entries.map (·.2.decimal) = List.replicate (n - 1) head ++ [last] →
        ∃ a, LotAllocation.of entries = .ok a := by
  obtain ⟨last, hlast, hsum, hrest⟩ := complementOf_divideOne hn
  have hhead : 0 < (Ratio.divideOne n).ticks := Nat.div_pos hmax hn
  have hmod : 10 ^ 10 % n < n := Nat.mod_lt _ hn
  have hone := sum_decimal_weights hsum
  have hdiff : last.decimal.value - (Ratio.divideOne n).decimal.value =
      ((10 ^ 10 % n : ℕ) : ℚ) / 10 ^ 10 := by
    change (last.ticks : ℚ) / 10 ^ 10 - (Ratio.divideOne n).ticks / 10 ^ 10 = _
    rw [← sub_div, hrest, Nat.cast_add, add_sub_cancel_left]
  have hremainder : (0 : ℚ) ≤ ((10 ^ 10 % n : ℕ) : ℚ) / 10 ^ 10 := by positivity
  refine ⟨(Ratio.divideOne n).decimal, last.decimal, divideOne_eq hn hmax, ?_, ?_, hone,
    weights_pos hhead (by omega), ?_, ?_, ?_, ?_⟩
  · rw [complementOf_eq, hlast]
    rfl
  · rw [computeEqualWeights_eq hn hmax, Luchida.computeEqualWeights_eq hlast, weights_eq]
    rfl
  · linarith
  · rw [hdiff, ← div_eq_mul_one_div]
    have hcast : ((10 ^ 10 % n : ℕ) : ℚ) < n := by exact_mod_cast hmod
    exact (div_lt_div_iff_of_pos_right (by positivity)).mpr hcast
  · rw [hone]
    have happrox := (isApproximatelyOne_iff (10 ^ 10)).mpr (by omega)
    norm_num at happrox
    exact happrox
  · intro entries hkeys heq
    exact accepts_of_sum hkeys heq hone

/-- Three parts leave one tick for the last. -/
theorem equal_weights_exact_three :
    ∃ head last, divideOne 3 = some head ∧ complementOf head 2 = some last ∧
      ((List.replicate 2 head ++ [last]).map (·.value)).sum = 1 := by
  obtain ⟨head, last, hhead, hlast, -, hsum, -⟩ :=
    equal_weights_exact (n := 3) (by decide) (by decide)
  exact ⟨head, last, hhead, hlast, hsum⟩

end DecimalRatio

end Luchida
