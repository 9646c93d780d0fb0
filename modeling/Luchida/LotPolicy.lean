import Luchida.Allocation
import Luchida.DecimalRounding

/- MaintenanceRatioBasedLotPolicy.ts and the values it decides on: the lot for which the
   maintenance ratio right after the entry is the target, in multiples of 100 between the
   broker's limits.

   Both divisions of big.js are rounded half up at twenty decimals before the quotient is
   cut to an integer. With twelve decimals in the capital and in the margin of one unit no
   rounding reaches the next multiple (`decide_eq`). -/
namespace Luchida

open DecimalRounding

/-! ## big.js -/

namespace Big

/-- `Big.DP`, which nothing in the source changes. -/
def decimalPlaces : Nat := 20

/-- `div`, for a divisor that is not zero. -/
def div (x y : ℚ) : ℚ := halfUp decimalPlaces (x / y)

/-- `round(0, Big.roundDown)`. -/
def roundDown (x : ℚ) : ℤ := if x < 0 then -⌊-x⌋ else ⌊x⌋

end Big

/-! ## Inputs -/

/-- `Balance`: never negative. -/
structure Balance where
  money : Money
  nonneg : 0 ≤ money.value

/-- `Balance.of`. -/
def Balance.of (money : Money) : Option Balance :=
  if h : 0 ≤ money.value then some ⟨money, h⟩ else none

/-- `MaintenanceRatio`: above 1. -/
structure MaintenanceRatio where
  value : ℚ
  one_lt : 1 < value

/-- `MaintenanceRatio.of`. -/
def MaintenanceRatio.of (value : ℚ) : Option MaintenanceRatio :=
  if h : 1 < value then some ⟨value, h⟩ else none

/-- `MarginRate.of`. -/
def MarginRate.of (value : ℚ) : Option MarginRate :=
  if h : 0 < value ∧ value < 1 then some ⟨value, h.1, h.2⟩ else none

/-- `Rate.of`. -/
def Rate.of (value : ℚ) (pair : CurrencyPair) (capturedAt : Int) : Option Rate :=
  if h : 0 < value then some ⟨value, pair, capturedAt, h⟩ else none

/-- `LotDecisionInput`: the rate is one of the pair, the balance is in its quote currency. -/
structure LotDecisionInput where
  pair : CurrencyPair
  balance : Balance
  rate : Rate
  target : MaintenanceRatio
  marginRate : MarginRate
  rate_pair : rate.pair = pair
  balance_currency : balance.money.currency = pair.quote

/-- `LotDecisionInput.of`. -/
def LotDecisionInput.of (pair : CurrencyPair) (balance : Balance) (rate : Rate)
    (target : MaintenanceRatio) (marginRate : MarginRate) : Option LotDecisionInput :=
  if h : rate.pair = pair ∧ balance.money.currency = pair.quote then
    some ⟨pair, balance, rate, target, marginRate, h.1, h.2⟩
  else none

namespace LotDecisionInput

/-- `balance().toMoney().toBig()`. -/
def capital (input : LotDecisionInput) : ℚ := input.balance.money.value

theorem capital_nonneg (input : LotDecisionInput) : 0 ≤ input.capital := input.balance.nonneg

end LotDecisionInput

/-- `requiredMarginBig`. -/
def requiredMarginBig (rate lotUnits marginRate : ℚ) : ℚ := rate * lotUnits * marginRate

/-! ## The policy -/

/-- `Lot.SINGLE_LOT_MIN_UNITS`. -/
def singleLotMinUnits : Int := 100

/-- `Lot.SINGLE_LOT_MAX_UNITS`. -/
def singleLotMaxUnits : Int := 500000

namespace MaintenanceRatioBasedLotPolicy

/-- `decide`, which throws for a pair that is not quoted in yen. -/
def decide (input : LotDecisionInput) : Option Lot :=
  if input.pair.quote ≠ .jpy then none
  else
    let requiredMarginPerUnit := requiredMarginBig input.rate.value 1 input.marginRate.value
    let raw := Big.div input.capital (input.target.value * requiredMarginPerUnit)
    let rounded := Big.roundDown (Big.div raw 100) * 100
    let clamped :=
      if rounded < singleLotMinUnits then singleLotMinUnits
      else if singleLotMaxUnits < rounded then singleLotMaxUnits
      else rounded
    Lot.of clamped.toNat

/-- What one unit asks of the capital: target × rate × marginRate. -/
def demand (input : LotDecisionInput) : ℚ :=
  input.target.value * (input.rate.value * input.marginRate.value)

theorem demand_pos (input : LotDecisionInput) : 0 < demand input := by
  have htarget := input.target.one_lt
  have hrate := input.rate.pos
  have hmargin := input.marginRate.pos
  unfold demand
  positivity

/-- The multiple of 100 that the quotient is cut to. -/
def rounded (input : LotDecisionInput) : Int :=
  Big.roundDown (Big.div (Big.div input.capital (demand input)) 100) * 100

theorem rounded_nonneg (input : LotDecisionInput) : 0 ≤ rounded input := by
  have hquotient : 0 ≤ input.capital / demand input :=
    div_nonneg input.capital_nonneg (demand_pos input).le
  have hraw := halfUp_nonneg Big.decimalPlaces hquotient
  have hdiv := halfUp_nonneg Big.decimalPlaces (div_nonneg hraw (by norm_num : (0 : ℚ) ≤ 100))
  have hfloor := Int.floor_nonneg.mpr hdiv
  unfold rounded Big.roundDown Big.div
  rw [if_neg (not_lt.mpr hdiv)]
  omega

/-- A lot always comes out for a pair quoted in yen. -/
theorem decide_ok (input : LotDecisionInput) (hjpy : input.pair.quote = .jpy) :
    ∃ lot, decide input = some lot ∧
      (lot.units : Int) = max singleLotMinUnits (min singleLotMaxUnits (rounded input)) := by
  have hdemand : input.target.value * requiredMarginBig input.rate.value 1 input.marginRate.value
      = demand input := by
    simp [requiredMarginBig, demand]
  have hnonneg := rounded_nonneg input
  have hdvd : (100 : Int) ∣ rounded input := Dvd.intro_left _ rfl
  simp only [decide, hjpy, ne_eq, not_true_eq_false, if_false, hdemand]
  change ∃ lot, Lot.of (Int.toNat (if rounded input < singleLotMinUnits then singleLotMinUnits
      else if singleLotMaxUnits < rounded input then singleLotMaxUnits
      else rounded input)) = some lot ∧ _
  unfold singleLotMinUnits singleLotMaxUnits
  split
  · refine ⟨⟨100, by omega, by omega, by omega⟩, rfl, ?_⟩
    show (100 : Int) = _
    omega
  · split
    · refine ⟨⟨500000, by omega, by omega, by omega⟩, rfl, ?_⟩
      show (500000 : Int) = _
      omega
    · refine ⟨⟨(rounded input).toNat, by omega, by omega, by omega⟩, ?_, ?_⟩
      · unfold Lot.of
        rw [dif_pos (by omega)]
      · show ((rounded input).toNat : Int) = _
        omega

/-- Capital and demand have twelve decimals at most, and one unit asks for less than
10000. -/
structure Exact (input : LotDecisionInput) : Prop where
  capital : Decimals 12 input.capital
  demand : Decimals 12 (demand input)
  bound : MaintenanceRatioBasedLotPolicy.demand input < 10 ^ 4

/-- The multiples of 100 that the capital carries at the target ratio. -/
def affordable (input : LotDecisionInput) : Set Nat :=
  {m | 100 ∣ m ∧ m * demand input ≤ input.capital}

/-- A nonnegative decimal is a count of its last unit. -/
theorem exists_nat_of_decimals {p : Nat} {x : ℚ} (hx : 0 ≤ x) (h : Decimals p x) :
    ∃ n : Nat, x = n / 10 ^ p := by
  obtain ⟨n, rfl⟩ := h
  have hn : 0 ≤ n := by
    by_contra hneg
    have hcast : (n : ℚ) < 0 := by exact_mod_cast not_le.mp hneg
    have hquotient : (n : ℚ) / 10 ^ p < 0 := div_neg_of_neg_of_pos hcast (by positivity)
    linarith
  obtain ⟨k, rfl⟩ := Int.eq_ofNat_of_zero_le hn
  exact ⟨k, by simp⟩

/-- The roundings of big.js do not show: the lot is the greatest affordable multiple. -/
theorem rounded_greatest {input : LotDecisionInput} (h : Exact input) :
    ∃ L : Nat, rounded input = L ∧ IsGreatest (affordable input) L := by
  obtain ⟨a, ha⟩ := exists_nat_of_decimals input.capital_nonneg h.capital
  obtain ⟨b, hb⟩ := exists_nat_of_decimals (demand_pos input).le h.demand
  have hunit : (0 : ℚ) < 10 ^ 12 := by positivity
  have hbpos : 0 < b := by
    have hpos := demand_pos input
    rw [hb, lt_div_iff₀ hunit, zero_mul] at hpos
    exact_mod_cast hpos
  have hbound : b * 100 < 10 ^ Big.decimalPlaces := by
    have hlt := h.bound
    rw [hb, div_lt_iff₀ hunit] at hlt
    have hnat : b < 10 ^ 16 := by
      have hcast : (b : ℚ) < (10 ^ 16 : ℕ) := by push_cast; linarith
      exact_mod_cast hcast
    unfold Big.decimalPlaces
    omega
  have hquotient : input.capital / demand input = (a : ℚ) / b := by
    rw [ha, hb]
    exact div_div_div_cancel_right₀ hunit.ne' _ _
  have hfloor := floor_halfUp_div (a := a) hbpos (by norm_num : 0 < 100) hbound
  have hmem : ∀ m : Nat, m * demand input ≤ input.capital ↔ m * b ≤ a := by
    intro m
    rw [ha, hb, ← mul_div_assoc, div_le_div_iff_of_pos_right hunit]
    exact_mod_cast Iff.rfl
  refine ⟨a / (b * 100) * 100, ?_, ⟨Dvd.intro_left _ rfl, ?_⟩, ?_⟩
  · have hraw := halfUp_nonneg Big.decimalPlaces (by positivity : (0 : ℚ) ≤ (a : ℚ) / b)
    have hdiv : 0 ≤ halfUp Big.decimalPlaces (halfUp Big.decimalPlaces ((a : ℚ) / b) / (100 : ℕ)) :=
      halfUp_nonneg _ (by positivity)
    unfold rounded Big.roundDown Big.div
    rw [hquotient]
    push_cast at hdiv hfloor ⊢
    rw [if_neg (not_lt.mpr hdiv), hfloor]
  · rw [hmem]
    have hdiv := Nat.div_mul_le_self a (b * 100)
    calc a / (b * 100) * 100 * b = a / (b * 100) * (b * 100) := by ring
      _ ≤ a := hdiv
  · intro m hm
    obtain ⟨⟨k, rfl⟩, hle⟩ := hm
    rw [hmem] at hle
    have hk : k ≤ a / (b * 100) := by
      rw [Nat.le_div_iff_mul_le (by positivity)]
      calc k * (b * 100) = 100 * k * b := by ring
        _ ≤ a := hle
    omega

/-- The greatest affordable multiple grows with the capital. -/
theorem affordable_mono {input other : LotDecisionInput} (hdemand : demand other = demand input)
    (hcapital : input.capital ≤ other.capital) : affordable input ⊆ affordable other := by
  intro m hm
  refine ⟨hm.1, ?_⟩
  rw [hdemand]
  exact hm.2.trans hcapital

/-- The lot is the greatest multiple of 100 that the capital carries at the target ratio,
cut to the broker's limits. It grows with the capital, and above the lower limit the
maintenance ratio is at least the target. -/
theorem decide_exact (input : LotDecisionInput) (hjpy : input.pair.quote = .jpy)
    (hexact : Exact input) :
    ∃ lot L, decide input = some lot ∧ IsGreatest (affordable input) L ∧
      lot.units = max 100 (min 500000 L) ∧
      (∀ other : LotDecisionInput, other.pair.quote = .jpy → Exact other →
        demand other = demand input → input.capital ≤ other.capital →
        ∃ lot', decide other = some lot' ∧ lot.units ≤ lot'.units) ∧
      (100 < lot.units →
        input.target.value ≤
          input.capital / (lot.units * input.rate.value * input.marginRate.value)) := by
  obtain ⟨lot, hlot, hunits⟩ := decide_ok input hjpy
  obtain ⟨L, hL, hgreatest⟩ := rounded_greatest hexact
  unfold singleLotMinUnits singleLotMaxUnits at hunits
  refine ⟨lot, L, hlot, hgreatest, by omega, ?_, ?_⟩
  · intro other hjpy' hexact' hdemand hcapital
    obtain ⟨lot', hlot', hunits'⟩ := decide_ok other hjpy'
    obtain ⟨L', hL', hgreatest'⟩ := rounded_greatest hexact'
    have hle : L ≤ L' := hgreatest'.2 (affordable_mono hdemand hcapital hgreatest.1)
    unfold singleLotMinUnits singleLotMaxUnits at hunits'
    exact ⟨lot', hlot', by omega⟩
  · intro habove
    have hunitsL : lot.units ≤ L := by omega
    have hrate := input.rate.pos
    have hmargin := input.marginRate.pos
    have hpos : (0 : ℚ) < lot.units := by
      have hcast : 0 < lot.units := by omega
      exact_mod_cast hcast
    have hcast : (lot.units : ℚ) ≤ L := by exact_mod_cast hunitsL
    have hcarried : (lot.units : ℚ) * demand input ≤ input.capital :=
      (mul_le_mul_of_nonneg_right hcast (demand_pos input).le).trans hgreatest.1.2
    rw [le_div_iff₀ (by positivity)]
    calc input.target.value * (lot.units * input.rate.value * input.marginRate.value)
        = lot.units * demand input := by unfold demand; ring
      _ ≤ input.capital := hcarried

/-- A capital of 193499 yen at 15 yen for one unit, a hundredth of a lot short of 12900. -/
def shortOfMultiple : LotDecisionInput where
  pair := .usdJpy
  balance := ⟨⟨193499, .jpy⟩, by decide +kernel⟩
  rate := ⟨160, .usdJpy, 0, by decide +kernel⟩
  target := ⟨3 / 2, by decide +kernel⟩
  marginRate := ⟨1 / 16, by decide +kernel, by decide +kernel⟩
  rate_pair := rfl
  balance_currency := rfl

example : (decide shortOfMultiple).map (·.units) = some 12800 := by decide +kernel

theorem shortOfMultiple_demand : demand shortOfMultiple = 15 := by
  norm_num [demand, shortOfMultiple]

theorem shortOfMultiple_exact : Exact shortOfMultiple := by
  refine ⟨⟨193499 * 10 ^ 12, ?_⟩, ⟨15 * 10 ^ 12, ?_⟩, ?_⟩
  · norm_num [LotDecisionInput.capital, shortOfMultiple]
  · rw [shortOfMultiple_demand]
    norm_num
  · rw [shortOfMultiple_demand]
    norm_num

theorem decide_exact_shortOfMultiple :
    ∃ lot L, decide shortOfMultiple = some lot ∧ IsGreatest (affordable shortOfMultiple) L ∧
      lot.units = max 100 (min 500000 L) := by
  obtain ⟨lot, L, hlot, hgreatest, hunits, _, _⟩ :=
    decide_exact shortOfMultiple rfl shortOfMultiple_exact
  exact ⟨lot, L, hlot, hgreatest, hunits⟩

end MaintenanceRatioBasedLotPolicy

end Luchida
