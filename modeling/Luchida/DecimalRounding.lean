import Mathlib.Algebra.Order.Floor.Ring
import Mathlib.Data.Rat.Floor
import Mathlib.Tactic.FieldSimp
import Mathlib.Tactic.Linarith
import Mathlib.Tactic.Positivity
import Mathlib.Tactic.Ring

/- Rounding of rationals to so many decimals, halves away from zero.

   The rounding is odd and monotone, leaves what has that many decimals alone, and is off
   by half a unit of the last decimal at most (`halfUp_le`). From the last two: a quotient
   that is rounded, divided again and rounded again keeps its integer part, as long as the
   denominators together are below the last decimal (`floor_halfUp_div`), and a quotient
   rounded with decimals to spare and then cut is the quotient cut (`floor_halfUp_scale`).
   A fraction with a small denominator is not near enough to the number above it. -/
namespace DecimalRounding

/-- `x` with `p` decimals, halves away from zero. -/
def halfUp (p : Nat) (x : ℚ) : ℚ :=
  if x < 0 then -((-x * 10 ^ p + 1 / 2).floor / 10 ^ p) else (x * 10 ^ p + 1 / 2).floor / 10 ^ p

/-- A number with at most `p` decimals. -/
def Decimals (p : Nat) (x : ℚ) : Prop := ∃ n : ℤ, x = n / 10 ^ p

theorem halfUp_of_nonneg (p : Nat) {x : ℚ} (h : 0 ≤ x) :
    halfUp p x = (⌊x * 10 ^ p + 1 / 2⌋ : ℚ) / 10 ^ p := if_neg (not_lt.mpr h)

theorem halfUp_nonneg (p : Nat) {x : ℚ} (h : 0 ≤ x) : 0 ≤ halfUp p x := by
  rw [halfUp_of_nonneg p h]
  have hfloor : (0 : ℤ) ≤ ⌊x * 10 ^ p + 1 / 2⌋ := Int.floor_nonneg.mpr (by positivity)
  have hcast : (0 : ℚ) ≤ ⌊x * 10 ^ p + 1 / 2⌋ := by exact_mod_cast hfloor
  positivity

theorem halfUp_neg (p : Nat) (x : ℚ) : halfUp p (-x) = -halfUp p x := by
  unfold halfUp
  rcases lt_trichotomy x 0 with hneg | hzero | hpos
  · rw [if_neg (by linarith), if_pos hneg]
    ring
  · subst hzero
    have hhalf : (1 / 2 : ℚ).floor = 0 := by decide +kernel
    simp only [neg_zero, zero_mul, zero_add, lt_irrefl, if_false]
    rw [hhalf]
    simp
  · rw [if_pos (by linarith), if_neg (by linarith), neg_neg]

theorem halfUp_mono (p : Nat) : Monotone (halfUp p) := by
  have hnonneg : ∀ x y : ℚ, 0 ≤ x → x ≤ y → halfUp p x ≤ halfUp p y := by
    intro x y hx hxy
    rw [halfUp_of_nonneg p hx, halfUp_of_nonneg p (hx.trans hxy)]
    have hfloor : (⌊x * 10 ^ p + 1 / 2⌋ : ℚ) ≤ ⌊y * 10 ^ p + 1 / 2⌋ := by
      exact_mod_cast Int.floor_mono (by gcongr)
    gcongr
  intro x y hxy
  rcases le_or_gt 0 x with hx | hx
  · exact hnonneg x y hx hxy
  · -- a negative number is rounded as its opposite is
    have hodd : halfUp p x = -halfUp p (-x) := by rw [halfUp_neg, neg_neg]
    rcases le_or_gt 0 y with hy | hy
    · have hleft := halfUp_nonneg p (x := -x) (by linarith)
      have hright := halfUp_nonneg p hy
      linarith
    · have hodd' : halfUp p y = -halfUp p (-y) := by rw [halfUp_neg, neg_neg]
      have hopposite := hnonneg (-y) (-x) (by linarith) (by linarith)
      linarith

/-- Rounded, the order is kept, except that two numbers may have become one. -/
theorem halfUp_le_halfUp_iff (p : Nat) {x y : ℚ} :
    halfUp p x ≤ halfUp p y ↔ x ≤ y ∨ halfUp p x = halfUp p y := by
  constructor
  · intro hle
    rcases le_or_gt x y with hxy | hyx
    · exact .inl hxy
    · exact .inr (le_antisymm hle (halfUp_mono p hyx.le))
  · rintro (hxy | heq)
    · exact halfUp_mono p hxy
    · exact heq.le

/-- What has no more decimals is left alone. -/
theorem halfUp_of_decimals {p : Nat} {x : ℚ} (h : Decimals p x) : halfUp p x = x := by
  have hnonneg : ∀ y : ℚ, Decimals p y → 0 ≤ y → halfUp p y = y := by
    intro y ⟨n, hn⟩ hy
    have hscale : (10 : ℚ) ^ p ≠ 0 := by positivity
    have hfloor : ⌊(n : ℚ) + 1 / 2⌋ = n := by
      rw [Int.floor_eq_iff]
      constructor <;> linarith
    rw [halfUp_of_nonneg p hy, hn, div_mul_cancel₀ _ hscale, hfloor]
  rcases le_or_gt 0 x with hx | hx
  · exact hnonneg x h hx
  · obtain ⟨n, hn⟩ := h
    have hopposite : Decimals p (-x) := ⟨-n, by rw [hn, Int.cast_neg, neg_div]⟩
    have hodd : halfUp p x = -halfUp p (-x) := by rw [halfUp_neg, neg_neg]
    rw [hodd, hnonneg (-x) hopposite (by linarith), neg_neg]

theorem halfUp_of_nat (p n : Nat) : halfUp p n = n := by
  apply halfUp_of_decimals
  exact ⟨n * 10 ^ p, by push_cast; field_simp⟩

/-- The rounding adds half a unit of the last decimal at most. -/
theorem halfUp_le (p : Nat) {x : ℚ} (h : 0 ≤ x) : halfUp p x ≤ x + 1 / (2 * 10 ^ p) := by
  have hscale : (0 : ℚ) < 10 ^ p := by positivity
  have hfloor : (⌊x * 10 ^ p + 1 / 2⌋ : ℚ) ≤ x * 10 ^ p + 1 / 2 := Int.floor_le _
  rw [halfUp_of_nonneg p h, div_le_iff₀ hscale]
  calc (⌊x * 10 ^ p + 1 / 2⌋ : ℚ) ≤ x * 10 ^ p + 1 / 2 := hfloor
    _ = (x + 1 / (2 * 10 ^ p)) * 10 ^ p := by field_simp

/-- The integer part of a quotient survives two roundings on the way. -/
theorem floor_halfUp_div {a b k p : Nat} (hb : 0 < b) (hk : 0 < k) (h : b * k < 10 ^ p) :
    ⌊halfUp p (halfUp p ((a : ℚ) / b) / k)⌋ = (a / (b * k) : ℕ) := by
  have hbQ : (0 : ℚ) < b := by exact_mod_cast hb
  have hkQ : (1 : ℚ) ≤ k := by exact_mod_cast hk
  have hk0 : (0 : ℚ) < k := by linarith
  have hquotient : (0 : ℚ) ≤ (a : ℚ) / b := by positivity
  have hraw := halfUp_nonneg p hquotient
  have hlast : (0 : ℚ) < 1 / (2 * 10 ^ p) := by positivity
  rw [Int.floor_eq_iff]
  constructor
  · -- integers are left alone, so nothing is lost below
    have hle : ((a / (b * k) * k : ℕ) : ℚ) ≤ (a : ℚ) / b := by
      have hdiv : a / (b * k) * k * b ≤ a := by
        rw [mul_assoc, mul_comm k b]
        exact Nat.div_mul_le_self a (b * k)
      rw [le_div_iff₀ hbQ]
      exact_mod_cast hdiv
    have hfirst := halfUp_mono p hle
    rw [halfUp_of_nat] at hfirst
    have hdivided : ((a / (b * k) : ℕ) : ℚ) ≤ halfUp p ((a : ℚ) / b) / k := by
      rw [le_div_iff₀ hk0]
      exact_mod_cast hfirst
    have hsecond := halfUp_mono p hdivided
    rw [halfUp_of_nat] at hsecond
    exact_mod_cast hsecond
  · -- the quotient is below the next integer by more than the two roundings add
    have hgap : (a : ℚ) / b / k + 1 / (b * k) ≤ (a / (b * k) : ℕ) + 1 := by
      have hlt := Nat.lt_div_mul_add (a := a) (Nat.mul_pos hb hk)
      have hsucc : ((a + 1 : ℕ) : ℚ) ≤ ((a / (b * k) * (b * k) + b * k : ℕ) : ℚ) := by
        exact_mod_cast hlt
      rw [div_div, ← add_div, div_le_iff₀ (by positivity)]
      push_cast at hsucc ⊢
      linarith
    have hsmall : (1 : ℚ) / 10 ^ p < 1 / (b * k) := by
      apply one_div_lt_one_div_of_lt (by positivity)
      exact_mod_cast h
    have hfirst : halfUp p ((a : ℚ) / b) / k ≤ (a : ℚ) / b / k + 1 / (2 * 10 ^ p) := by
      rw [div_le_iff₀ hk0, add_mul, div_mul_cancel₀ _ hk0.ne']
      have hround := halfUp_le p hquotient
      nlinarith
    have hsecond := halfUp_le p (x := halfUp p ((a : ℚ) / b) / k) (by positivity)
    have htwo : (1 : ℚ) / (2 * 10 ^ p) + 1 / (2 * 10 ^ p) = 1 / 10 ^ p := by
      field_simp
      norm_num
    rw [Int.cast_natCast]
    linarith

/-- A fraction rounded at `p + q` decimals and then cut to `p` is the fraction cut to `p`, as
long as the denominator is not above the last `q` decimals. -/
theorem floor_halfUp_scale {a b p q : Nat} (hb : 0 < b) (h : b ≤ 10 ^ q) :
    ⌊halfUp (p + q) ((a : ℚ) / b) * 10 ^ p⌋ = (a * 10 ^ p / b : ℕ) := by
  have hbQ : (0 : ℚ) < b := by exact_mod_cast hb
  have hp : (0 : ℚ) < 10 ^ p := by positivity
  have hq : (0 : ℚ) < 10 ^ q := by positivity
  have hdiv := Nat.div_add_mod (a * 10 ^ p) b
  have hmod := Nat.mod_lt (a * 10 ^ p) hb
  generalize a * 10 ^ p / b = whole at *
  rw [Int.floor_eq_iff]
  constructor
  · -- what is cut to `p` decimals has no more than `p + q`
    have hle : (whole : ℚ) / 10 ^ p ≤ (a : ℚ) / b := by
      rw [div_le_div_iff₀ hp hbQ]
      have hnat : whole * b ≤ a * 10 ^ p := by
        rw [Nat.mul_comm]
        omega
      exact_mod_cast hnat
    have hdecimals : Decimals (p + q) ((whole : ℚ) / 10 ^ p) := by
      refine ⟨whole * 10 ^ q, ?_⟩
      push_cast
      rw [pow_add]
      field_simp
    have hround := halfUp_mono (p + q) hle
    rw [halfUp_of_decimals hdecimals, div_le_iff₀ hp] at hround
    exact_mod_cast hround
  · -- the next cut is farther away than half a unit of the last decimal
    have hgap : (a : ℚ) / b * 10 ^ p + 1 / b ≤ whole + 1 := by
      rw [div_mul_eq_mul_div, ← add_div, div_le_iff₀ hbQ]
      have hnat : a * 10 ^ p + 1 ≤ (whole + 1) * b := by
        rw [Nat.add_mul, Nat.mul_comm whole, Nat.one_mul]
        omega
      exact_mod_cast hnat
    have hsmall : (1 : ℚ) / (2 * 10 ^ (p + q)) * 10 ^ p < 1 / b := by
      have hbq : (b : ℚ) ≤ 10 ^ q := by exact_mod_cast h
      rw [pow_add, lt_div_iff₀ hbQ]
      calc (1 : ℚ) / (2 * (10 ^ p * 10 ^ q)) * 10 ^ p * b = b / 10 ^ q / 2 := by field_simp
        _ ≤ 1 / 2 := by
          have := (div_le_one hq).mpr hbq
          linarith
        _ < 1 := by norm_num
    have hround := mul_le_mul_of_nonneg_right
      (halfUp_le (p + q) (x := (a : ℚ) / b) (by positivity)) hp.le
    rw [add_mul] at hround
    rw [Int.cast_natCast]
    linarith

end DecimalRounding
