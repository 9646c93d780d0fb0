import Luchida.BacktestEngine
import Luchida.SeriesExtrema

/- ResultCalculator.ts: the summary of a run, from its trades in one pass for each phase.

   Every `/` of the source is a division that throws on zero (`divide`), so that a result
   is also the proof that none was asked for. Accesses to an element that may be missing
   throw too. The square root is a parameter. -/
namespace Luchida

open SeriesExtrema Throws

/-- What a calculation would have to throw on. -/
inductive CalculationError where
  | divisionByZero
  | missingElement
  deriving DecidableEq, Repr

namespace ResultCalculator

/-- `x / y`. -/
def divide (x y : ℚ) : Except CalculationError ℚ :=
  if y = 0 then .error .divisionByZero else .ok (x / y)

/-- `safeDivide`. -/
def safeDivide (numerator denominator : ℚ) : Except CalculationError ℚ :=
  if denominator = 0 then .ok 0 else divide numerator denominator

/-- `sorted[i]!`. -/
def element (trades : List TradeRecord) (i : Nat) : Except CalculationError TradeRecord :=
  match trades[i]? with
  | some t => .ok t
  | none => .error .missingElement

/-! ## Phase 1: basic stats -/

structure BasicStats where
  totalPnl : ℚ
  grossProfit : ℚ
  grossLoss : ℚ
  avgPnl : ℚ
  avgWin : ℚ
  avgLoss : ℚ
  medianPnl : ℚ
  largestWin : ℚ
  largestLoss : ℚ
  payoffRatio : ℚ
  profitFactor : ℚ
  tradeCount : Nat
  winCount : Nat
  lossCount : Nat
  winRate : ℚ
  longCount : Nat
  shortCount : Nat
  longWinRate : ℚ
  shortWinRate : ℚ
  avgHoldingPeriodMs : ℚ

/-- The accumulators of the first pass. -/
structure Tally where
  grossProfit : ℚ := 0
  grossLoss : ℚ := 0
  totalPnl : ℚ := 0
  winCount : Nat := 0
  lossCount : Nat := 0
  longCount : Nat := 0
  shortCount : Nat := 0
  longWinCount : Nat := 0
  shortWinCount : Nat := 0
  largestWin : ℚ := 0
  largestLoss : ℚ := 0
  totalHoldingMs : Int := 0

namespace Tally

/-- The part of the pass on the sign of the result. -/
def addOutcome (s : Tally) (t : TradeRecord) : Tally :=
  if 0 < t.pnl then
    { s with
      winCount := s.winCount + 1
      grossProfit := s.grossProfit + t.pnl
      largestWin := if s.largestWin < t.pnl then t.pnl else s.largestWin }
  else
    { s with
      lossCount := s.lossCount + 1
      grossLoss := s.grossLoss + |t.pnl|
      largestLoss := if s.largestLoss < |t.pnl| then |t.pnl| else s.largestLoss }

/-- The part of the pass on the side. -/
def addSide (s : Tally) (t : TradeRecord) : Tally :=
  match t.side with
  | .buy =>
    { s with
      longCount := s.longCount + 1
      longWinCount := if 0 < t.pnl then s.longWinCount + 1 else s.longWinCount }
  | .sell =>
    { s with
      shortCount := s.shortCount + 1
      shortWinCount := if 0 < t.pnl then s.shortWinCount + 1 else s.shortWinCount }

/-- One turn of the first pass. -/
def add (s : Tally) (t : TradeRecord) : Tally :=
  let counted := { s with
    totalPnl := s.totalPnl + t.pnl
    totalHoldingMs := s.totalHoldingMs + t.holdingPeriodMs }
  (counted.addOutcome t).addSide t

end Tally

/-- The middle of the trades sorted by result. -/
def calcMedian (trades : List TradeRecord) : Except CalculationError ℚ := do
  let sorted := trades.mergeSort (fun a b => a.pnl ≤ b.pnl)
  let mid := trades.length / 2
  if trades.length % 2 = 1 then
    return (← element sorted mid).pnl
  else
    divide ((← element sorted (mid - 1)).pnl + (← element sorted mid).pnl) 2

/-- `calcBasicStats`. -/
def calcBasicStats (trades : List TradeRecord) : Except CalculationError BasicStats := do
  let s := trades.foldl Tally.add {}
  let n : ℚ := trades.length
  let avgWin ← safeDivide s.grossProfit s.winCount
  let avgLoss ← safeDivide s.grossLoss s.lossCount
  return {
    totalPnl := s.totalPnl
    grossProfit := s.grossProfit
    grossLoss := s.grossLoss
    avgPnl := ← divide s.totalPnl n
    avgWin := avgWin
    avgLoss := avgLoss
    medianPnl := ← calcMedian trades
    largestWin := s.largestWin
    largestLoss := s.largestLoss
    payoffRatio := ← safeDivide avgWin avgLoss
    profitFactor := ← safeDivide s.grossProfit s.grossLoss
    tradeCount := trades.length
    winCount := s.winCount
    lossCount := s.lossCount
    winRate := ← divide s.winCount n
    longCount := s.longCount
    shortCount := s.shortCount
    longWinRate := ← safeDivide s.longWinCount s.longCount
    shortWinRate := ← safeDivide s.shortWinCount s.shortCount
    avgHoldingPeriodMs := ← divide s.totalHoldingMs n }

/-! ## Phase 2: risk metrics -/

structure RiskMetrics where
  maxDrawdown : ℚ
  maxDrawdownPct : ℚ
  maxDrawdownDurationMs : Int
  avgDrawdown : ℚ
  calmarRatio : ℚ
  recoveryFactor : ℚ
  ulcerIndex : ℚ
  expectancyPips : ℚ
  pnlPerDay : ℚ
  tradesPerMonth : ℚ

/-- The accumulators of the second pass. -/
structure Drawdown where
  equity : ℚ := 0
  peak : ℚ := 0
  maxDD : ℚ := 0
  maxDDPct : ℚ := 0
  ddSumSq : ℚ := 0
  ddCount : Nat := 0
  ddSum : ℚ := 0
  maxDDDuration : Int := 0
  lastPeakTime : Int
  currentDDStart : Int
  inDrawdown : Bool := false

namespace Drawdown

/-- A new peak ends the drawdown there was. -/
def rise (s : Drawdown) (t : TradeRecord) : Drawdown :=
  let equity := s.equity + t.pnl
  if s.peak < equity then
    let duration := t.exitTime - s.currentDDStart
    { s with
      equity := equity
      maxDDDuration :=
        if s.inDrawdown ∧ s.maxDDDuration < duration then duration else s.maxDDDuration
      inDrawdown := false
      peak := equity
      lastPeakTime := t.exitTime }
  else { s with equity := equity }

/-- One turn of the second pass. -/
def step (before : Drawdown) (t : TradeRecord) : Except CalculationError Drawdown := do
  let s := before.rise t
  let dd := s.peak - s.equity
  if 0 < dd then
    let ddPct ← safeDivide dd s.peak
    return { s with
      currentDDStart := if s.inDrawdown then s.currentDDStart else s.lastPeakTime
      inDrawdown := true
      maxDD := if s.maxDD < dd then dd else s.maxDD
      maxDDPct := if s.maxDDPct < ddPct then ddPct else s.maxDDPct
      ddSumSq := s.ddSumSq + ddPct * ddPct
      ddCount := s.ddCount + 1
      ddSum := s.ddSum + dd }
  else return s

/-- The duration, with a drawdown that is not over at the last exit. -/
def finalDuration (s : Drawdown) (lastExit : Int) : Int :=
  let duration := lastExit - s.currentDDStart
  if s.inDrawdown ∧ s.maxDDDuration < duration then duration else s.maxDDDuration

end Drawdown

/-- `calcRiskMetrics`. -/
def calcRiskMetrics (sqrt : ℚ → ℚ) (trades : List TradeRecord) (basic : BasicStats)
    (dateFrom dateTo : Int) : Except CalculationError RiskMetrics := do
  let btDaysRaw ← divide (dateTo - dateFrom) 86400000
  let btDays := max btDaysRaw 1
  let lastPeakTime := (← element trades 0).exitTime
  let s ← trades.foldlM Drawdown.step
    { lastPeakTime := lastPeakTime, currentDDStart := lastPeakTime }
  let lastExit := (← element trades (trades.length - 1)).exitTime
  let avgDrawdown ← safeDivide s.ddSum s.ddCount
  let ulcerIndex := sqrt (← safeDivide s.ddSumSq trades.length)
  let annualReturn ←
    if 90 ≤ btDaysRaw then
      let perDay ← divide basic.totalPnl btDays
      pure (perDay * 365)
    else pure 0
  let calmarRatio ← safeDivide annualReturn s.maxDD
  let recoveryFactor ← safeDivide basic.totalPnl s.maxDD
  let btMonths ← divide btDays 30
  return {
    maxDrawdown := s.maxDD
    maxDrawdownPct := s.maxDDPct
    maxDrawdownDurationMs := s.finalDuration lastExit
    avgDrawdown := avgDrawdown
    calmarRatio := calmarRatio
    recoveryFactor := recoveryFactor
    ulcerIndex := ulcerIndex
    expectancyPips := ← safeDivide basic.totalPnl basic.tradeCount
    pnlPerDay := ← divide basic.totalPnl btDays
    tradesPerMonth := ← safeDivide basic.tradeCount btMonths }

/-! ## Phase 3: stability -/

structure StabilityMetrics where
  pnlStddev : ℚ
  sharpeRatio : ℚ
  annualizedSharpeRatio : ℚ
  sortinoRatio : ℚ
  annualizedSortinoRatio : ℚ
  sortinoStandard : ℚ
  annualizedSortinoStandard : ℚ
  sqn : ℚ
  sqnCapped : ℚ
  maxConsecutiveWins : Nat
  maxConsecutiveLosses : Nat
  hasDownsideRisk : Bool

/-- `MS_PER_YEAR`. -/
def msPerYear : ℚ := 365.25 * 86400000

/-- `SQN_TRADE_CAP`. -/
def sqnTradeCap : Nat := 100

/-- The sums of squares of the third pass. -/
structure Deviations where
  sumSq : ℚ := 0
  downsideSumSq : ℚ := 0
  downsideSumSqMar : ℚ := 0

def Deviations.add (mean : ℚ) (s : Deviations) (t : TradeRecord) : Deviations :=
  let diff := t.pnl - mean
  { sumSq := s.sumSq + diff * diff
    downsideSumSq := if diff < 0 then s.downsideSumSq + diff * diff else s.downsideSumSq
    downsideSumSqMar :=
      if t.pnl < 0 then s.downsideSumSqMar + t.pnl * t.pnl else s.downsideSumSqMar }

/-- The streaks of the third pass. -/
structure Streaks where
  maxWins : Nat := 0
  maxLosses : Nat := 0
  currentWins : Nat := 0
  currentLosses : Nat := 0

def Streaks.add (s : Streaks) (t : TradeRecord) : Streaks :=
  if 0 < t.pnl then
    let currentWins := s.currentWins + 1
    { s with
      currentWins := currentWins
      currentLosses := 0
      maxWins := if s.maxWins < currentWins then currentWins else s.maxWins }
  else
    let currentLosses := s.currentLosses + 1
    { s with
      currentLosses := currentLosses
      currentWins := 0
      maxLosses := if s.maxLosses < currentLosses then currentLosses else s.maxLosses }

/-- `calcStability`. -/
def calcStability (sqrt : ℚ → ℚ) (trades : List TradeRecord) (basic : BasicStats)
    (dateFrom dateTo : Int) : Except CalculationError StabilityMetrics := do
  let n : ℚ := trades.length
  let mean := basic.avgPnl
  let d := trades.foldl (Deviations.add mean) {}
  let pnlStddev := sqrt (← divide d.sumSq n)
  let downsideStddev := sqrt (← divide d.downsideSumSq n)
  let downsideDeviationMar := sqrt (← divide d.downsideSumSqMar n)
  let streaks := trades.foldl Streaks.add {}
  let perTradeSharpe ← safeDivide mean pnlStddev
  let perTradeSortino ← safeDivide mean downsideStddev
  let sortinoStandard ← safeDivide mean downsideDeviationMar
  let years := max (← divide (dateTo - dateFrom) msPerYear) (1 / 10 ^ 9)
  let tradesPerYear ← divide n years
  let annualizationFactor := sqrt tradesPerYear
  return {
    pnlStddev := pnlStddev
    sharpeRatio := perTradeSharpe
    annualizedSharpeRatio := perTradeSharpe * annualizationFactor
    sortinoRatio := perTradeSortino
    annualizedSortinoRatio := perTradeSortino * annualizationFactor
    sortinoStandard := sortinoStandard
    annualizedSortinoStandard := sortinoStandard * annualizationFactor
    sqn := perTradeSharpe * sqrt n
    sqnCapped := perTradeSharpe * sqrt (min trades.length sqnTradeCap : Nat)
    maxConsecutiveWins := streaks.maxWins
    maxConsecutiveLosses := streaks.maxLosses
    hasDownsideRisk := 0 < downsideDeviationMar }

/-! ## Phase 4: MFE and MAE -/

structure MfeStats where
  avgMfe : ℚ
  avgMae : ℚ
  mfeEfficiency : ℚ

/-- `calcMfeStats`. -/
def calcMfeStats (trades : List TradeRecord) : Except CalculationError MfeStats := do
  let totalMfe := (trades.map (·.mfePips)).sum
  let totalMae := (trades.map (·.maePips)).sum
  let n : ℚ := trades.length
  let avgMfe ← divide totalMfe n
  let avgMae ← divide totalMae n
  let avgPnlPips ← divide (trades.map (·.pnlPips)).sum n
  return { avgMfe := avgMfe, avgMae := avgMae, mfeEfficiency := ← safeDivide avgPnlPips avgMfe }

/-! ## The result -/

/-- `ResultInput`. What is passed on to the result unread (the ids, the pair, the
parameters and the counts of the run) is one value. -/
structure ResultInput (Labels : Type) where
  labels : Labels
  dateFrom : Int
  dateTo : Int
  trades : List TradeRecord
  durationMs : Int

/-- `BacktestResult`, whose status is always `SUCCESS` here. -/
structure BacktestResult (Labels : Type) extends
    BasicStats, RiskMetrics, StabilityMetrics, MfeStats where
  labels : Labels
  dateFrom : Int
  dateTo : Int
  status : String
  ranAt : Int
  durationMs : Int
  trades : List TradeRecord

variable {Labels : Type}

/-- `assemble`, at the time `ranAt`. -/
def assemble (ranAt : Int) (input : ResultInput Labels) (basic : BasicStats) (risk : RiskMetrics)
    (stability : StabilityMetrics) (mfe : MfeStats) : BacktestResult Labels where
  toBasicStats := basic
  toRiskMetrics := risk
  toStabilityMetrics := stability
  toMfeStats := mfe
  labels := input.labels
  dateFrom := input.dateFrom
  dateTo := input.dateTo
  status := "SUCCESS"
  ranAt := ranAt
  durationMs := input.durationMs
  trades := input.trades

def BasicStats.zero : BasicStats :=
  ⟨0, 0, 0, 0, 0, 0, 0, 0, 0, 0, 0, 0, 0, 0, 0, 0, 0, 0, 0, 0⟩

def RiskMetrics.zero : RiskMetrics := ⟨0, 0, 0, 0, 0, 0, 0, 0, 0, 0⟩

def StabilityMetrics.zero : StabilityMetrics := ⟨0, 0, 0, 0, 0, 0, 0, 0, 0, 0, 0, false⟩

def MfeStats.zero : MfeStats := ⟨0, 0, 0⟩

/-- `assembleZero`. -/
def assembleZero (ranAt : Int) (input : ResultInput Labels) : BacktestResult Labels where
  toBasicStats := .zero
  toRiskMetrics := .zero
  toStabilityMetrics := .zero
  toMfeStats := .zero
  labels := input.labels
  dateFrom := input.dateFrom
  dateTo := input.dateTo
  status := "SUCCESS"
  ranAt := ranAt
  durationMs := input.durationMs
  trades := []

/-- `calculate`. -/
def calculate (sqrt : ℚ → ℚ) (ranAt : Int) (input : ResultInput Labels) :
    Except CalculationError (BacktestResult Labels) := do
  if input.trades.length = 0 then return assembleZero ranAt input
  let basic ← calcBasicStats input.trades
  let risk ← calcRiskMetrics sqrt input.trades basic input.dateFrom input.dateTo
  let stability ← calcStability sqrt input.trades basic input.dateFrom input.dateTo
  let mfeStats ← calcMfeStats input.trades
  return assemble ranAt input basic risk stability mfeStats

/-! ## Divisions -/

/-- The guarded division is the division that takes `x / 0` to be zero. -/
@[simp] theorem safeDivide_eq (x y : ℚ) : safeDivide x y = .ok (x / y) := by
  unfold safeDivide divide
  by_cases hy : y = 0
  · rw [if_pos hy, hy, div_zero]
  · rw [if_neg hy, if_neg hy]

theorem divide_eq {x y : ℚ} (h : y ≠ 0) : divide x y = .ok (x / y) := if_neg h

theorem element_eq {trades : List TradeRecord} {i : Nat} (h : i < trades.length) :
    element trades i = .ok trades[i] := by
  unfold element
  rw [List.getElem?_eq_getElem h]

theorem length_ne_zero {trades : List TradeRecord} (h : trades ≠ []) : (trades.length : ℚ) ≠ 0 := by
  have hpos := List.length_pos_iff.mpr h
  exact_mod_cast hpos.ne'

/-! ## The first pass -/

/-- The results of the trades. -/
def pnls (trades : List TradeRecord) : List ℚ := trades.map (·.pnl)

theorem Tally.addOutcome_counts (s : Tally) (t : TradeRecord) :
    (s.addOutcome t).grossProfit - (s.addOutcome t).grossLoss
      = s.grossProfit - s.grossLoss + t.pnl ∧
    (s.addOutcome t).winCount + (s.addOutcome t).lossCount = s.winCount + s.lossCount + 1 ∧
    (s.addOutcome t).longCount = s.longCount ∧ (s.addOutcome t).shortCount = s.shortCount ∧
    (s.addOutcome t).totalPnl = s.totalPnl := by
  unfold addOutcome
  rcases lt_or_ge 0 t.pnl with hwin | hloss
  · rw [if_pos hwin]
    exact ⟨by ring, Nat.add_right_comm _ 1 _, rfl, rfl, rfl⟩
  · rw [if_neg (not_lt.mpr hloss), abs_of_nonpos hloss]
    exact ⟨by ring, rfl, rfl, rfl, rfl⟩

theorem Tally.addSide_counts (s : Tally) (t : TradeRecord) :
    (s.addSide t).grossProfit = s.grossProfit ∧ (s.addSide t).grossLoss = s.grossLoss ∧
    (s.addSide t).winCount = s.winCount ∧ (s.addSide t).lossCount = s.lossCount ∧
    (s.addSide t).longCount + (s.addSide t).shortCount = s.longCount + s.shortCount + 1 ∧
    (s.addSide t).totalPnl = s.totalPnl := by
  unfold addSide
  cases t.side with
  | buy => exact ⟨rfl, rfl, rfl, rfl, Nat.add_right_comm _ 1 _, rfl⟩
  | sell => exact ⟨rfl, rfl, rfl, rfl, rfl, rfl⟩

/-- Each turn counts the trade once by its outcome and once by its side. -/
theorem Tally.add_counts (s : Tally) (t : TradeRecord) :
    (s.add t).totalPnl = s.totalPnl + t.pnl ∧
    (s.add t).grossProfit - (s.add t).grossLoss = s.grossProfit - s.grossLoss + t.pnl ∧
    (s.add t).winCount + (s.add t).lossCount = s.winCount + s.lossCount + 1 ∧
    (s.add t).longCount + (s.add t).shortCount = s.longCount + s.shortCount + 1 := by
  let counted : Tally := { s with
    totalPnl := s.totalPnl + t.pnl
    totalHoldingMs := s.totalHoldingMs + t.holdingPeriodMs }
  obtain ⟨hgross, houtcomes, hlong, hshort, htotal⟩ := counted.addOutcome_counts t
  obtain ⟨hprofit, hloss, hwins, hlosses, hsides, hkept⟩ := (counted.addOutcome t).addSide_counts t
  refine ⟨hkept.trans htotal, ?_, ?_, ?_⟩
  · calc (s.add t).grossProfit - (s.add t).grossLoss
        = (counted.addOutcome t).grossProfit - (counted.addOutcome t).grossLoss := by
          rw [← hprofit, ← hloss]
          rfl
      _ = s.grossProfit - s.grossLoss + t.pnl := hgross
  · calc (s.add t).winCount + (s.add t).lossCount
        = (counted.addOutcome t).winCount + (counted.addOutcome t).lossCount := by
          rw [← hwins, ← hlosses]
          rfl
      _ = s.winCount + s.lossCount + 1 := houtcomes
  · calc (s.add t).longCount + (s.add t).shortCount
        = (counted.addOutcome t).longCount + (counted.addOutcome t).shortCount + 1 := hsides
      _ = s.longCount + s.shortCount + 1 := by rw [hlong, hshort]

/-- What the first pass has counted after the trades. -/
theorem tally_counts (trades : List TradeRecord) :
    (trades.foldl Tally.add {}).totalPnl = (pnls trades).sum ∧
    (trades.foldl Tally.add {}).grossProfit - (trades.foldl Tally.add {}).grossLoss
      = (pnls trades).sum ∧
    (trades.foldl Tally.add {}).winCount + (trades.foldl Tally.add {}).lossCount
      = trades.length ∧
    (trades.foldl Tally.add {}).longCount + (trades.foldl Tally.add {}).shortCount
      = trades.length := by
  induction trades using List.reverseRecOn with
  | nil => simp [pnls]
  | append_singleton trades t ih =>
    obtain ⟨htotal, hgross, houtcomes, hsides⟩ := ih
    obtain ⟨htotal', hgross', houtcomes', hsides'⟩ :=
      (trades.foldl Tally.add {}).add_counts t
    have hsum : (pnls (trades ++ [t])).sum = (pnls trades).sum + t.pnl := by
      simp [pnls]
    simp only [List.foldl_append, List.foldl_cons, List.foldl_nil, hsum, List.length_append,
      List.length_singleton]
    exact ⟨by rw [htotal', htotal], by rw [hgross', hgross], by rw [houtcomes', houtcomes],
      by rw [hsides', hsides]⟩

theorem calcMedian_ok {trades : List TradeRecord} (h : trades ≠ []) :
    ∃ median, calcMedian trades = .ok median ∧ IsMedian (pnls trades) median := by
  have hpos := List.length_pos_iff.mpr h
  have hlen : (trades.mergeSort (fun a b => a.pnl ≤ b.pnl)).length = trades.length :=
    List.length_mergeSort _
  have hperm : (pnls (trades.mergeSort (fun a b => a.pnl ≤ b.pnl))).Perm (pnls trades) :=
    (List.mergeSort_perm _ _).map _
  have hsorted : (pnls (trades.mergeSort (fun a b => a.pnl ≤ b.pnl))).Pairwise (· ≤ ·) := by
    have hpairwise : (trades.mergeSort (fun a b => a.pnl ≤ b.pnl)).Pairwise
        (fun a b => decide (a.pnl ≤ b.pnl) = true) := by
      apply List.pairwise_mergeSort
      · intro a b c hab hbc
        simp only [decide_eq_true_eq] at *
        exact hab.trans hbc
      · intro a b
        simp only [Bool.or_eq_true, decide_eq_true_eq]
        exact le_total _ _
    exact List.pairwise_map.mpr (hpairwise.imp (by simp))
  have hmid : trades.length / 2 < (trades.mergeSort (fun a b => a.pnl ≤ b.pnl)).length := by
    omega
  have hbelow : trades.length / 2 - 1 <
      (trades.mergeSort (fun a b => a.pnl ≤ b.pnl)).length := by
    omega
  have hget : ∀ i (hi : i < (trades.mergeSort (fun a b => a.pnl ≤ b.pnl)).length),
      (pnls (trades.mergeSort (fun a b => a.pnl ≤ b.pnl)))[i]?
        = some (trades.mergeSort (fun a b => a.pnl ≤ b.pnl))[i].pnl := by
    intro i hi
    simp [pnls, List.getElem?_map, List.getElem?_eq_getElem hi]
  unfold calcMedian
  simp only [element_eq hmid, element_eq hbelow]
  by_cases hodd : trades.length % 2 = 1
  · rw [if_pos hodd]
    refine ⟨_, rfl, _, hperm, hsorted, ?_⟩
    rw [if_pos (by simpa [pnls] using hodd)]
    simpa [pnls] using hget _ hmid
  · rw [if_neg hodd]
    change ∃ median, divide (_ + _) 2 = .ok median ∧ _
    rw [divide_eq (by norm_num)]
    refine ⟨_, rfl, _, hperm, hsorted, ?_⟩
    rw [if_neg (by simpa [pnls] using hodd)]
    refine ⟨_, _, ?_, ?_, rfl⟩
    · simpa [pnls] using hget _ hbelow
    · simpa [pnls] using hget _ hmid

/-- The first phase divides by nothing that is zero. -/
theorem calcBasicStats_ok {trades : List TradeRecord} (h : trades ≠ []) :
    ∃ basic, calcBasicStats trades = .ok basic ∧
      basic.totalPnl = (pnls trades).sum ∧
      basic.totalPnl = basic.grossProfit - basic.grossLoss ∧
      IsMedian (pnls trades) basic.medianPnl ∧
      basic.tradeCount = trades.length ∧
      basic.winCount + basic.lossCount = trades.length ∧
      basic.longCount + basic.shortCount = trades.length := by
  obtain ⟨median, hmedian, hspec⟩ := calcMedian_ok h
  obtain ⟨htotal, hgross, houtcomes, hsides⟩ := tally_counts trades
  have hn := length_ne_zero h
  unfold calcBasicStats
  simp only [safeDivide_eq, divide_eq hn, hmedian]
  exact ⟨_, rfl, htotal, htotal.trans hgross.symm, hspec, rfl, houtcomes, hsides⟩

/-! ## The second pass -/

/-- The sum of the first `k` results. -/
def equity (trades : List TradeRecord) (k : Nat) : ℚ := ((pnls trades).take k).sum

/-- The drawdown after `j` trades as a part of the peak, zero where the peak is. -/
def drawdownPct (trades : List TradeRecord) (j : Nat) : ℚ :=
  if runningMax (equity trades) j = 0 then 0
  else (runningMax (equity trades) j - equity trades j) / runningMax (equity trades) j

theorem equity_succ {trades : List TradeRecord} {k : Nat} (hk : k < trades.length) :
    equity trades (k + 1) = equity trades k + trades[k].pnl := by
  have hlen : k < (pnls trades).length := by simpa [pnls] using hk
  unfold equity
  rw [List.take_succ_eq_append_getElem hlen]
  simp [pnls]

theorem drawdownPct_eq (trades : List TradeRecord) (j : Nat) : drawdownPct trades j =
    (runningMax (equity trades) j - equity trades j) / runningMax (equity trades) j := by
  unfold drawdownPct
  by_cases hpeak : runningMax (equity trades) j = 0
  · rw [if_pos hpeak, hpeak, div_zero]
  · rw [if_neg hpeak]

theorem runningMax_drawdownPct_nonneg (trades : List TradeRecord) (k : Nat) :
    0 ≤ runningMax (drawdownPct trades) k := by
  have hstart : drawdownPct trades 0 = 0 := by simp [drawdownPct, equity]
  rw [← hstart]
  exact le_runningMax _ (Nat.zero_le k)

namespace Drawdown

theorem rise_spec (s : Drawdown) (t : TradeRecord) :
    (s.rise t).equity = s.equity + t.pnl ∧ (s.rise t).peak = max s.peak (s.equity + t.pnl) ∧
    (s.rise t).maxDD = s.maxDD ∧ (s.rise t).maxDDPct = s.maxDDPct := by
  unfold rise
  rw [max_def_lt]
  by_cases hup : s.peak < s.equity + t.pnl
  · simp [hup]
  · simp [hup]

/-- One turn never divides by zero. It raises the two maxima to the drawdown it sees. -/
theorem step_ok (s : Drawdown) (t : TradeRecord) : ∃ s', s.step t = .ok s' ∧
    s'.equity = s.equity + t.pnl ∧ s'.peak = max s.peak (s.equity + t.pnl) ∧
    (0 < s'.peak - s'.equity →
      s'.maxDD = max s.maxDD (s'.peak - s'.equity) ∧
      s'.maxDDPct = max s.maxDDPct ((s'.peak - s'.equity) / s'.peak)) ∧
    (¬ 0 < s'.peak - s'.equity → s'.maxDD = s.maxDD ∧ s'.maxDDPct = s.maxDDPct) := by
  obtain ⟨hequity, hpeak, hmax, hpct⟩ := s.rise_spec t
  unfold step
  by_cases hdown : 0 < (s.rise t).peak - (s.rise t).equity
  · simp only [if_pos hdown, safeDivide_eq]
    refine ⟨_, rfl, hequity, hpeak, ?_, ?_⟩
    · intro _
      rw [max_def_lt, max_def_lt, ← hmax, ← hpct]
      exact ⟨rfl, rfl⟩
    · intro hup
      exact absurd hdown hup
  · simp only [if_neg hdown]
    refine ⟨_, rfl, hequity, hpeak, ?_, ?_⟩
    · intro hpos
      exact absurd hpos hdown
    · intro _
      exact ⟨hmax, hpct⟩

/-- The accumulators after the first `k` trades. -/
structure After (trades : List TradeRecord) (k : Nat) (s : Drawdown) : Prop where
  equity : s.equity = ResultCalculator.equity trades k
  peak : s.peak = runningMax (ResultCalculator.equity trades) k
  maxDD : IsMaxDrop (ResultCalculator.equity trades) k s.maxDD
  maxDDPct : s.maxDDPct = runningMax (drawdownPct trades) k

theorem After.step {trades : List TradeRecord} {k : Nat} {s : Drawdown} (h : After trades k s)
    (hk : k < trades.length) : ∃ s', s.step trades[k] = .ok s' ∧ After trades (k + 1) s' := by
  obtain ⟨s', hstep, hequity, hpeak, hdown, hflat⟩ := s.step_ok trades[k]
  have hequity' : s'.equity = ResultCalculator.equity trades (k + 1) := by
    rw [hequity, h.equity, equity_succ hk]
  have hpeak' : s'.peak = runningMax (ResultCalculator.equity trades) (k + 1) := by
    rw [hpeak, h.peak, h.equity, runningMax_succ, equity_succ hk]
  have hdrop := isMaxDrop_succ h.maxDD
  refine ⟨s', hstep, hequity', hpeak', ?_, ?_⟩
  · rw [← hpeak', ← hequity'] at hdrop
    by_cases hpos : 0 < s'.peak - s'.equity
    · rw [(hdown hpos).1]
      exact hdrop
    · rw [(hflat hpos).1]
      rwa [max_eq_left ((not_lt.mp hpos).trans h.maxDD.nonneg)] at hdrop
  · rw [runningMax_succ, drawdownPct_eq, ← hpeak', ← hequity', ← h.maxDDPct]
    by_cases hpos : 0 < s'.peak - s'.equity
    · exact (hdown hpos).2
    · -- at the peak: there is nothing to divide
      have hle : s'.equity ≤ s'.peak := by
        rw [hequity', hpeak']
        exact le_runningMax _ le_rfl
      have hzero : s'.peak - s'.equity = 0 := by linarith
      have hnonneg := runningMax_drawdownPct_nonneg trades k
      rw [(hflat hpos).2, hzero, zero_div, max_eq_left]
      rw [h.maxDDPct]
      exact hnonneg

theorem run_after (trades : List TradeRecord) {start : Drawdown} (hstart : After trades 0 start)
    {k : Nat} (hk : k ≤ trades.length) :
    ∃ s, (trades.take k).foldlM Drawdown.step start = .ok s ∧ After trades k s := by
  induction k with
  | zero => exact ⟨start, rfl, hstart⟩
  | succ k ih =>
    obtain ⟨s, hrun, hafter⟩ := ih (Nat.le_of_succ_le hk)
    obtain ⟨s', hstep, hafter'⟩ := hafter.step hk
    refine ⟨s', ?_, hafter'⟩
    rw [List.take_succ_eq_append_getElem hk, List.foldlM_append, hrun]
    change s.step trades[k] >>= pure = _
    rw [hstep]
    rfl

theorem after_zero (trades : List TradeRecord) (time : Int) :
    After trades 0 { lastPeakTime := time, currentDDStart := time } where
  equity := by simp [ResultCalculator.equity]
  peak := by simp [ResultCalculator.equity]
  maxDD := isMaxDrop_zero _
  maxDDPct := by simp [drawdownPct, ResultCalculator.equity]

end Drawdown

/-- The second phase divides by nothing that is zero, and finds the largest drawdowns. -/
theorem calcRiskMetrics_ok (sqrt : ℚ → ℚ) {trades : List TradeRecord} (h : trades ≠ [])
    (basic : BasicStats) (dateFrom dateTo : Int) :
    ∃ risk, calcRiskMetrics sqrt trades basic dateFrom dateTo = .ok risk ∧
      IsMaxDrop (equity trades) trades.length risk.maxDrawdown ∧
      risk.maxDrawdownPct = runningMax (drawdownPct trades) trades.length := by
  have hpos := List.length_pos_iff.mpr h
  have hlast : trades.length - 1 < trades.length := by omega
  obtain ⟨s, hrun, hafter⟩ := Drawdown.run_after trades
    (Drawdown.after_zero trades trades[0].exitTime) le_rfl
  rw [List.take_length] at hrun
  have hdays : max (((dateTo : ℚ) - dateFrom) / 86400000) 1 ≠ 0 := by
    have hone : (1 : ℚ) ≤ max (((dateTo : ℚ) - dateFrom) / 86400000) 1 := le_max_right _ _
    linarith
  unfold calcRiskMetrics
  simp only [divide_eq (show (86400000 : ℚ) ≠ 0 by norm_num),
    divide_eq (show (30 : ℚ) ≠ 0 by norm_num), element_eq hpos, element_eq hlast, safeDivide_eq,
    divide_eq hdays, hrun, ok_bind]
  split
  · exact ⟨_, rfl, hafter.maxDD, hafter.maxDDPct⟩
  · exact ⟨_, rfl, hafter.maxDD, hafter.maxDDPct⟩

/-! ## The third and fourth passes -/

namespace Streaks

/-- The counters after some trades. -/
structure After (trades : List TradeRecord) (s : Streaks) : Prop where
  maxWins : IsLongestRun (fun t : TradeRecord => 0 < t.pnl) trades s.maxWins
  maxLosses : IsLongestRun (fun t : TradeRecord => t.pnl ≤ 0) trades s.maxLosses
  currentWins : IsLastRun (fun t : TradeRecord => 0 < t.pnl) trades s.currentWins
  currentLosses : IsLastRun (fun t : TradeRecord => t.pnl ≤ 0) trades s.currentLosses

theorem After.add {trades : List TradeRecord} {s : Streaks} (h : After trades s)
    (t : TradeRecord) : After (trades ++ [t]) (s.add t) := by
  unfold Streaks.add
  rcases lt_or_ge 0 t.pnl with hwin | hloss
  · have hwins := h.currentWins.concat_of hwin
    have hlosses : IsLastRun (fun t : TradeRecord => t.pnl ≤ 0) (trades ++ [t]) 0 :=
      IsLastRun.concat_of_not (not_le.mpr hwin)
    have hlongest := h.maxLosses.concat hlosses
    rw [Nat.max_zero] at hlongest
    rw [if_pos hwin]
    refine ⟨?_, hlongest, hwins, hlosses⟩
    simp only [← max_def_lt]
    exact h.maxWins.concat hwins
  · have hlosses := h.currentLosses.concat_of hloss
    have hwins : IsLastRun (fun t : TradeRecord => 0 < t.pnl) (trades ++ [t]) 0 :=
      IsLastRun.concat_of_not (not_lt.mpr hloss)
    have hlongest := h.maxWins.concat hwins
    rw [Nat.max_zero] at hlongest
    rw [if_neg (not_lt.mpr hloss)]
    refine ⟨hlongest, ?_, hwins, hlosses⟩
    simp only [← max_def_lt]
    exact h.maxLosses.concat hlosses

theorem foldl_after (trades : List TradeRecord) : After trades (trades.foldl Streaks.add {}) := by
  induction trades using List.reverseRecOn with
  | nil => exact ⟨isLongestRun_nil, isLongestRun_nil, isLastRun_nil, isLastRun_nil⟩
  | append_singleton trades t ih =>
    rw [List.foldl_append]
    exact ih.add t

end Streaks

/-- The third phase divides by nothing that is zero, and finds the longest streaks. -/
theorem calcStability_ok (sqrt : ℚ → ℚ) {trades : List TradeRecord} (h : trades ≠ [])
    (basic : BasicStats) (dateFrom dateTo : Int) :
    ∃ stability, calcStability sqrt trades basic dateFrom dateTo = .ok stability ∧
      IsLongestRun (fun t : TradeRecord => 0 < t.pnl) trades stability.maxConsecutiveWins ∧
      IsLongestRun (fun t : TradeRecord => t.pnl ≤ 0) trades stability.maxConsecutiveLosses := by
  have hn := length_ne_zero h
  have hyears : max (((dateTo : ℚ) - dateFrom) / msPerYear) (1 / 10 ^ 9) ≠ 0 := by
    have hfloor := le_max_right (((dateTo : ℚ) - dateFrom) / msPerYear) (1 / 10 ^ 9)
    have hpos : (0 : ℚ) < 1 / 10 ^ 9 := by norm_num
    linarith
  have hstreaks := Streaks.foldl_after trades
  unfold calcStability
  simp only [divide_eq hn, divide_eq (show msPerYear ≠ 0 by norm_num [msPerYear]),
    divide_eq hyears, safeDivide_eq, ok_bind]
  exact ⟨_, rfl, hstreaks.maxWins, hstreaks.maxLosses⟩

theorem calcMfeStats_ok {trades : List TradeRecord} (h : trades ≠ []) :
    ∃ mfe, calcMfeStats trades = .ok mfe := by
  have hn := length_ne_zero h
  unfold calcMfeStats
  simp only [divide_eq hn, safeDivide_eq, ok_bind]
  exact ⟨_, rfl⟩

/-! ## The whole calculation -/

/-- The statistics of a result are what their names say of its trades. -/
structure MeetsDefinitions (trades : List TradeRecord) (r : BacktestResult Labels) : Prop where
  maxDrawdown : IsMaxDrop (equity trades) trades.length r.maxDrawdown
  maxDrawdownPct : r.maxDrawdownPct = runningMax (drawdownPct trades) trades.length
  maxConsecutiveWins :
    IsLongestRun (fun t : TradeRecord => 0 < t.pnl) trades r.maxConsecutiveWins
  maxConsecutiveLosses :
    IsLongestRun (fun t : TradeRecord => t.pnl ≤ 0) trades r.maxConsecutiveLosses
  medianPnl : IsMedian (pnls trades) r.medianPnl
  tradeCount : r.tradeCount = trades.length
  outcomes : r.winCount + r.lossCount = r.tradeCount
  sides : r.longCount + r.shortCount = r.tradeCount
  sum : r.totalPnl = (pnls trades).sum
  gross : r.totalPnl = r.grossProfit - r.grossLoss

/-- The calculation ends with a result. -/
theorem exists_calculate (sqrt : ℚ → ℚ) (ranAt : Int) (input : ResultInput Labels) :
    ∃ r, calculate sqrt ranAt input = .ok r := by
  unfold calculate
  by_cases hnone : input.trades = []
  · rw [if_pos (by simp [hnone])]
    exact ⟨_, rfl⟩
  · obtain ⟨basic, hbasic, -⟩ := calcBasicStats_ok hnone
    obtain ⟨risk, hrisk, -⟩ := calcRiskMetrics_ok sqrt hnone basic input.dateFrom input.dateTo
    obtain ⟨stability, hstability, -⟩ :=
      calcStability_ok sqrt hnone basic input.dateFrom input.dateTo
    obtain ⟨mfe, hmfe⟩ := calcMfeStats_ok hnone
    rw [if_neg (by simp [hnone])]
    simp only [hbasic, hrisk, hstability, hmfe, ok_bind]
    exact ⟨_, rfl⟩

/-- Whatever the trades and the dates, the calculation ends without a division by zero.
Without trades every statistic is zero; otherwise each is what its name says. -/
theorem calculate_meets (sqrt : ℚ → ℚ) (ranAt : Int) (input : ResultInput Labels) :
    ∃ r, calculate sqrt ranAt input = .ok r ∧
      (input.trades = [] → r.toBasicStats = .zero ∧ r.toRiskMetrics = .zero ∧
        r.toStabilityMetrics = .zero ∧ r.toMfeStats = .zero) ∧
      (input.trades ≠ [] → MeetsDefinitions input.trades r) := by
  unfold calculate
  by_cases hnone : input.trades = []
  · rw [if_pos (by simp [hnone])]
    exact ⟨_, rfl, fun _ => ⟨rfl, rfl, rfl, rfl⟩, fun h => absurd hnone h⟩
  · obtain ⟨basic, hbasic, hsum, hgross, hmedian, hcount, houtcomes, hsides⟩ :=
      calcBasicStats_ok hnone
    obtain ⟨risk, hrisk, hdrawdown, hpct⟩ :=
      calcRiskMetrics_ok sqrt hnone basic input.dateFrom input.dateTo
    obtain ⟨stability, hstability, hwins, hlosses⟩ :=
      calcStability_ok sqrt hnone basic input.dateFrom input.dateTo
    obtain ⟨mfe, hmfe⟩ := calcMfeStats_ok hnone
    have hlength : input.trades.length ≠ 0 := by simp [hnone]
    rw [if_neg hlength]
    simp only [hbasic, hrisk, hstability, hmfe, ok_bind]
    refine ⟨_, rfl, fun h => absurd h hnone, fun _ => ?_⟩
    exact {
      maxDrawdown := hdrawdown
      maxDrawdownPct := hpct
      maxConsecutiveWins := hwins
      maxConsecutiveLosses := hlosses
      medianPnl := hmedian
      tradeCount := hcount
      outcomes := houtcomes.trans hcount.symm
      sides := hsides.trans hcount.symm
      sum := hsum
      gross := hgross }

end ResultCalculator

end Luchida
