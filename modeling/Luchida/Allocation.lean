import Mathlib.Tactic.Positivity
import Luchida.Domain

/- domain/allocation and SizingResult.ts: the base lot with its margin, and how it is
   divided among the strategies that have signalled. A `Ratio` has ten decimals, so it
   is a count of ticks of 1e-10, and dividing, complementing and applying it to a lot are
   exact in `Nat`.

   `EqualWeightAllocationPolicy.decide` never throws (`decide_ok`): the weights it gives
   out add up to one, and a strategy that holds a position on the pair gets none. -/
namespace Luchida

/-! ## Sizing -/

/-- `Rate`: a positive price of the pair. -/
@[ext] structure Rate where
  value : ℚ
  pair : CurrencyPair
  capturedAt : Int
  pos : 0 < value

instance : DecidableEq Rate := fun _ _ => decidable_of_iff _ Rate.ext_iff.symm

/-- `MarginRate`: above 0 and below 1. -/
@[ext] structure MarginRate where
  value : ℚ
  pos : 0 < value
  lt_one : value < 1

instance : DecidableEq MarginRate := fun _ _ => decidable_of_iff _ MarginRate.ext_iff.symm

/-- `requiredMarginAsJpy`: rounded half up to whole yen. -/
def requiredMarginAsJpy (rate : Rate) (lot : Lot) (marginRate : MarginRate) : Money :=
  ⟨(rate.value * lot.units * marginRate.value + 1 / 2).floor, .jpy⟩

/-- `SizingResult`. -/
structure SizingResult where
  lot : Lot
  rate : Rate
  marginRate : MarginRate
  deriving DecidableEq

namespace SizingResult

def requiredMarginFor (sizing : SizingResult) (lot : Lot) : Money :=
  requiredMarginAsJpy sizing.rate lot sizing.marginRate

def requiredMargin (sizing : SizingResult) : Money := sizing.requiredMarginFor sizing.lot

/-- The margin passes the check of `EntryCommand.of`. -/
theorem requiredMarginFor_nonneg (sizing : SizingResult) (lot : Lot) :
    0 ≤ (sizing.requiredMarginFor lot).value := by
  have hrate := sizing.rate.pos
  have hmargin := sizing.marginRate.pos
  have hlot : (0 : ℚ) ≤ lot.units := Nat.cast_nonneg _
  have hfloor : 0 ≤ (sizing.rate.value * lot.units * sizing.marginRate.value + 1 / 2).floor := by
    rw [Rat.le_floor_iff]
    push_cast
    positivity
  simp only [requiredMarginFor, requiredMarginAsJpy]
  exact_mod_cast hfloor

end SizingResult

/-! ## Ratios -/

/-- `Ratio`: a share between 0 and 1, in units of 1e-10. -/
structure Ratio where
  ticks : Nat
  le_one : ticks ≤ 10 ^ 10
  deriving DecidableEq

namespace Ratio

def zero : Ratio := ⟨0, by decide⟩

def one : Ratio := ⟨10 ^ 10, le_rfl⟩

def isZero (r : Ratio) : Bool := r.ticks == 0

/-- `divideOne`: one `n`-th, rounded down. -/
def divideOne (n : Nat) : Ratio := ⟨10 ^ 10 / n, Nat.div_le_self ..⟩

/-- `complementOf`: one minus `k` times `parts`, which throws below zero. -/
def complementOf (parts : Ratio) (k : Nat) : Option Ratio :=
  if parts.ticks * k ≤ 10 ^ 10 then some ⟨10 ^ 10 - parts.ticks * k, Nat.sub_le ..⟩ else none

/-- `applyTo`: the share of a lot, rounded down to a multiple of 100. `Lot.of` throws
when less than 100 is left. -/
def applyTo (r : Ratio) (lot : Lot) : Option Lot :=
  Lot.of (lot.units * r.ticks / (100 * 10 ^ 10) * 100)

end Ratio

/-! ## Allocations -/

/-- What the allocation classes throw. -/
inductive AllocationError where
  /-- `AllocationContext: balance 通貨 … と pair の quote 通貨 … が一致しません` -/
  | currencyMismatch (balance : Currency) (pair : CurrencyPair)
  /-- `DetectedSignals に重複した戦略` -/
  | duplicateSignal (strategy : StrategyName)
  /-- `LotAllocation に重複した戦略が含まれています` -/
  | duplicateStrategy (strategy : StrategyName)
  /-- `LotAllocation の比率合計は 1.0 ± EPSILON` -/
  | sumNotOne (ticks : Nat)
  /-- `Ratio は 0.0〜1.0` -/
  | ratioRange
  /-- `Lotは100以上` -/
  | lotTooSmall
  deriving DecidableEq

/-- `LotAllocation`: the share of each strategy, in the order of the map. -/
structure LotAllocation where
  ratios : List (StrategyName × Ratio)
  keyed : (ratios.map (·.1)).Nodup
  deriving DecidableEq

/-- The first entry of a list that is among those seen before it. -/
def firstRepeated (seen : List StrategyName) : List StrategyName → Option StrategyName
  | [] => none
  | s :: rest => if s ∈ seen then some s else firstRepeated (s :: seen) rest

theorem firstRepeated_none_iff_from {seen l : List StrategyName} :
    firstRepeated seen l = none ↔ l.Nodup ∧ ∀ s ∈ l, s ∉ seen := by
  induction l generalizing seen with
  | nil => simp [firstRepeated]
  | cons s rest ih =>
    rw [firstRepeated, List.nodup_cons]
    by_cases hs : s ∈ seen
    · simp [hs]
    · rw [if_neg hs, ih]
      simp only [List.mem_cons, forall_eq_or_imp, not_or]
      constructor
      · rintro ⟨hnodup, hout⟩
        exact ⟨⟨fun hmem => (hout s hmem).1 rfl, hnodup⟩, hs, fun t ht => (hout t ht).2⟩
      · rintro ⟨⟨hnot, hnodup⟩, -, hout⟩
        exact ⟨hnodup, fun t ht => ⟨fun heq => hnot (heq ▸ ht), hout t ht⟩⟩

theorem firstRepeated_none_iff {l : List StrategyName} : firstRepeated [] l = none ↔ l.Nodup := by
  simp [firstRepeated_none_iff_from]

namespace LotAllocation

/-- `LotAllocation.of`: no strategy twice, and shares that add up to one within 1e-9
unless all of them are zero. -/
def of (entries : List (StrategyName × Ratio)) : Except AllocationError LotAllocation :=
  match h : firstRepeated [] (entries.map (·.1)) with
  | some s => .error (.duplicateStrategy s)
  | none =>
    let sum := (entries.map (·.2.ticks)).sum
    if entries.all (fun e => e.2.isZero) = false ∧ ¬ (10 ^ 10 ≤ sum + 10 ∧ sum ≤ 10 ^ 10 + 10) then
      .error (.sumNotOne sum)
    else .ok ⟨entries, firstRepeated_none_iff.mp h⟩

/-- `LotAllocation.suppressed`: nothing for any of them. -/
def suppressed (strategies : List StrategyName) (h : strategies.Nodup) : LotAllocation where
  ratios := strategies.map (fun s => (s, Ratio.zero))
  keyed := by simpa [Function.comp_def] using h

/-- `isFullySuppressed`. -/
def isFullySuppressed (a : LotAllocation) : Bool := a.ratios.all (fun e => e.2.isZero)

/-- `apply`, which is `StrategyLots.fromAllocation`: a lot for every share that is not
zero. -/
def applyShares (baseLot : Lot) :
    List (StrategyName × Ratio) → Except AllocationError (List (StrategyName × Lot))
  | [] => .ok []
  | (s, r) :: rest =>
    if r.isZero then applyShares baseLot rest
    else match r.applyTo baseLot with
      | none => .error .lotTooSmall
      | some lot => match applyShares baseLot rest with
        | .error e => .error e
        | .ok lots => .ok ((s, lot) :: lots)

def apply (a : LotAllocation) (baseLot : Lot) :
    Except AllocationError (List (StrategyName × Lot)) :=
  applyShares baseLot a.ratios

/-- `totalLot().isExceedingSingleLotLimit()`. -/
def exceedsSingleLotLimit (lots : List (StrategyName × Lot)) : Bool :=
  500000 < (lots.map (·.2.units)).sum

end LotAllocation

/-! ## Equal weights -/

/-- `holdsStrategyOnPair`. -/
def holdsStrategyOnPair (positions : List Position) (pair : CurrencyPair)
    (strategy : StrategyName) : Bool :=
  positions.any (fun p => p.pair == pair && p.strategyName == strategy)

/-- `computeEqualWeights`: the last share takes what the rounding leaves. -/
def computeEqualWeights (n : Nat) : Option (List Ratio) :=
  if n = 1 then some [Ratio.one]
  else match Ratio.complementOf (.divideOne n) (n - 1) with
    | none => none
    | some last => some (List.replicate (n - 1) (.divideOne n) ++ [last])

/-- `n - 1` shares rounded down leave the last one what a share is, and the remainder. -/
theorem complementOf_divideOne {n : Nat} (hn : 0 < n) :
    ∃ last : Ratio, Ratio.complementOf (.divideOne n) (n - 1) = some last ∧
      last.ticks + (Ratio.divideOne n).ticks * (n - 1) = 10 ^ 10 ∧
      last.ticks = (Ratio.divideOne n).ticks + 10 ^ 10 % n := by
  have hdiv : (Ratio.divideOne n).ticks * (n - 1) + (Ratio.divideOne n).ticks + 10 ^ 10 % n =
      10 ^ 10 := by
    rw [← Nat.mul_succ, Nat.succ_eq_add_one, Nat.sub_add_cancel hn, Nat.mul_comm]
    exact Nat.div_add_mod ..
  have hle : (Ratio.divideOne n).ticks * (n - 1) ≤ 10 ^ 10 := by omega
  rw [Ratio.complementOf, if_pos hle]
  refine ⟨_, rfl, ?_, ?_⟩
  · exact Nat.sub_add_cancel hle
  · change 10 ^ 10 - (Ratio.divideOne n).ticks * (n - 1) = _
    omega

theorem computeEqualWeights_eq {n : Nat} {last : Ratio}
    (h : Ratio.complementOf (.divideOne n) (n - 1) = some last) :
    computeEqualWeights n = some (List.replicate (n - 1) (.divideOne n) ++ [last]) := by
  unfold computeEqualWeights
  split
  · rename_i h1
    subst h1
    cases h
    rfl
  · rw [h]

/-- The head `n - 1` times and the rest of it are one. -/
theorem sum_weights {n : Nat} {head last : Ratio}
    (h : last.ticks + head.ticks * (n - 1) = 10 ^ 10) :
    ((List.replicate (n - 1) head ++ [last]).map (·.ticks)).sum = 10 ^ 10 := by
  rw [List.map_append, List.sum_append, List.map_replicate, List.sum_replicate_nat, Nat.mul_comm]
  simp only [List.map_cons, List.map_nil, List.sum_cons, List.sum_nil]
  omega

theorem computeEqualWeights_ok {n : Nat} (hn : 0 < n) :
    ∃ weights, computeEqualWeights n = some weights ∧ weights.length = n ∧
      (weights.map (·.ticks)).sum = 10 ^ 10 := by
  obtain ⟨last, hlast, hsum, -⟩ := complementOf_divideOne hn
  exact ⟨_, computeEqualWeights_eq hlast, by simp; omega, sum_weights hsum⟩

/-- `EqualWeightAllocationPolicy.decide`: equal shares for the detected strategies that
hold no position on the pair, and none for the others. -/
def EqualWeightAllocationPolicy.decide (pair : CurrencyPair) (detected : List StrategyName)
    (hdetected : detected.Nodup) (positions : List Position) :
    Except AllocationError LotAllocation :=
  let held := fun s => holdsStrategyOnPair positions pair s
  let eligible := detected.filter (fun s => !held s)
  if detected = [] then .ok (.suppressed [] List.nodup_nil)
  else if eligible = [] then .ok (.suppressed detected hdetected)
  else match computeEqualWeights eligible.length with
    | none => .error .ratioRange
    | some weights =>
      LotAllocation.of (eligible.zip weights ++
        (detected.filter held).map (fun s => (s, Ratio.zero)))

theorem zip_map_fst {α β : Type} {l : List α} {r : List β} (h : r.length = l.length) :
    (l.zip r).map (·.1) = l := by
  rw [List.map_fst_zip]
  omega

theorem zip_map_snd {α β : Type} {l : List α} {r : List β} (h : r.length = l.length) :
    (l.zip r).map (·.2) = r := by
  rw [List.map_snd_zip]
  omega

/-- `of` keeps the entries it accepts: those that are all zero, or near enough to one. -/
theorem LotAllocation.of_eq_ok {entries : List (StrategyName × Ratio)} {a : LotAllocation} :
    LotAllocation.of entries = .ok a ↔ a.ratios = entries ∧
      (entries.all (fun e => e.2.isZero) = true ∨
        (10 ^ 10 ≤ (entries.map (·.2.ticks)).sum + 10 ∧
          (entries.map (·.2.ticks)).sum ≤ 10 ^ 10 + 10)) := by
  unfold LotAllocation.of
  constructor
  · intro h
    split at h
    · cases h
    · dsimp only at h
      split at h
      · cases h
      · rename_i hsum
        cases h
        refine ⟨rfl, ?_⟩
        cases hall : entries.all (fun e => e.2.isZero) with
        | true => exact .inl rfl
        | false => exact .inr (not_not.mp fun hout => hsum ⟨hall, hout⟩)
  · intro ⟨hratios, hsum⟩
    subst hratios
    have hnone := firstRepeated_none_iff.mpr a.keyed
    split
    · rename_i s hs
      rw [hnone] at hs
      cases hs
    · dsimp only
      rw [if_neg]
      intro ⟨hall, hout⟩
      rcases hsum with hzero | hnear
      · rw [hall] at hzero
        cases hzero
      · exact hout hnear

/-- Shares that add up to one, with no strategy twice, are accepted. -/
theorem LotAllocation.of_ok {entries : List (StrategyName × Ratio)}
    (hkeys : (entries.map (·.1)).Nodup) (hsum : (entries.map (·.2.ticks)).sum = 10 ^ 10) :
    LotAllocation.of entries = .ok ⟨entries, hkeys⟩ := by
  rw [of_eq_ok]
  refine ⟨rfl, .inr ?_⟩
  rw [hsum]
  exact ⟨Nat.le_add_right .., Nat.le_add_right ..⟩

/-- The detected strategies that hold no position on the pair. -/
def eligibleStrategies (pair : CurrencyPair) (detected : List StrategyName)
    (positions : List Position) : List StrategyName :=
  detected.filter (fun s => !holdsStrategyOnPair positions pair s)

/-- When there is somebody to give to, the shares add up to one and the allocation is made
of them. -/
theorem EqualWeightAllocationPolicy.decide_of_eligible {pair : CurrencyPair}
    {detected : List StrategyName} (hdetected : detected.Nodup) {positions : List Position}
    (hne : eligibleStrategies pair detected positions ≠ []) :
    ∃ weights a,
      computeEqualWeights (eligibleStrategies pair detected positions).length = some weights ∧
      weights.length = (eligibleStrategies pair detected positions).length ∧
      decide pair detected hdetected positions = .ok a ∧
      a.ratios = (eligibleStrategies pair detected positions).zip weights ++
        (detected.filter (fun s => holdsStrategyOnPair positions pair s)).map
          (fun s => (s, Ratio.zero)) := by
  have hdecided : detected ≠ [] := by
    intro hnil
    subst hnil
    exact hne rfl
  obtain ⟨weights, hw, hlen, hsum⟩ := computeEqualWeights_ok (List.length_pos_iff.mpr hne)
  unfold decide
  dsimp only
  rw [if_neg hdecided]
  unfold eligibleStrategies at *
  generalize heligible : detected.filter (fun s => !holdsStrategyOnPair positions pair s) =
    eligible at *
  rw [if_neg hne]
  simp only [hw]
  have hkeys : ((eligible.zip weights ++
      (detected.filter (fun s => holdsStrategyOnPair positions pair s)).map
        (fun s => (s, Ratio.zero))).map (·.1)).Nodup := by
    rw [List.map_append, zip_map_fst hlen, List.map_map, List.nodup_append]
    refine ⟨heligible ▸ hdetected.filter _, ?_, ?_⟩
    · rw [show (Prod.fst ∘ fun s : StrategyName => (s, Ratio.zero)) = id from rfl, List.map_id]
      exact hdetected.filter _
    · intro s hs t ht heq
      subst heq
      simp only [List.mem_map, List.mem_filter, Function.comp_apply] at ht
      obtain ⟨t, ⟨-, hheld⟩, rfl⟩ := ht
      simp [← heligible, hheld] at hs
  -- the shares of the strategies that hold a position are zero
  have hticks : ((eligible.zip weights ++
      (detected.filter (fun s => holdsStrategyOnPair positions pair s)).map
        (fun s => (s, Ratio.zero))).map (·.2.ticks)).sum = 10 ^ 10 := by
    have hzip : (eligible.zip weights).map (·.2.ticks) = weights.map (·.ticks) := by
      conv_rhs => rw [← zip_map_snd hlen, List.map_map]
      rfl
    rw [List.map_append, hzip, List.sum_append, hsum, List.map_map,
      show ((fun e : StrategyName × Ratio => e.2.ticks) ∘ fun s => (s, Ratio.zero)) =
        Function.const _ 0 from rfl, List.map_const, List.sum_replicate_nat, Nat.mul_zero,
      Nat.add_zero]
  exact ⟨weights, _, rfl, hlen, LotAllocation.of_ok hkeys hticks, rfl⟩

/-- The policy always decides, and a strategy with a lot to come holds no position. -/
theorem EqualWeightAllocationPolicy.decide_ok (pair : CurrencyPair) (detected : List StrategyName)
    (hdetected : detected.Nodup) (positions : List Position) :
    ∃ a, decide pair detected hdetected positions = .ok a ∧
      ∀ e ∈ a.ratios, e.1 ∈ detected ∧
        (e.2.isZero = false → holdsStrategyOnPair positions pair e.1 = false) := by
  by_cases hdecided : detected = []
  · subst hdecided
    exact ⟨_, rfl, by simp [LotAllocation.suppressed]⟩
  by_cases hne : eligibleStrategies pair detected positions = []
  · refine ⟨.suppressed detected hdetected, ?_, fun e he => ?_⟩
    · unfold decide
      dsimp only
      rw [if_neg hdecided]
      exact if_pos hne
    · obtain ⟨s, hs, rfl⟩ := List.mem_map.mp he
      exact ⟨hs, by simp [Ratio.isZero, Ratio.zero]⟩
  obtain ⟨weights, a, -, -, hok, hratios⟩ := decide_of_eligible hdetected hne
  refine ⟨a, hok, fun e he => ?_⟩
  rcases List.mem_append.mp (hratios ▸ he) with he | he
  · obtain ⟨hmem, hfree⟩ := List.mem_filter.mp (List.of_mem_zip he).1
    exact ⟨hmem, fun _ => by simpa using hfree⟩
  · obtain ⟨s, hs, rfl⟩ := List.mem_map.mp he
    exact ⟨(List.mem_filter.mp hs).1, by simp [Ratio.isZero, Ratio.zero]⟩

end Luchida
