import Luchida.LotPolicy
import Luchida.SmaCrossRule
import Luchida.TrailingTakeProfit

/- RuleFactory.ts: the rules that a parameter set of the SMA cross stands for. The entry
   rule is the cross behind those of the live filters that the set asks for, and takes its
   lot from the runner. The exit rules (domain/rule/shared, domain/rule/sma-cross) are asked
   one after the other, and the first command wins. No exit rule throws; the entry rule
   throws exactly where it asks for a lot and none can be had
   (`SmaCrossParameters.entryRule_threw_iff`). -/
namespace Luchida

/-! ## Exit rules -/

/-- The arithmetic of the numbers that the rules use, and their texts. -/
structure RuleNumbers extends Numbers ℚ where
  /-- `toFixed(1)` in a template. -/
  fixedText : ℚ → String

theorem isBlank_append {text : String} (h : isBlank text = false) (rest : String) :
    isBlank (text ++ rest) = false := by
  rw [isBlank, String.toList_append, List.all_append, Bool.and_eq_false_iff]
  exact .inl h

/-- The price at which the position would be closed. -/
def closingPrice (snapshot : MarketSnapshot) (position : Position) : Price :=
  match position.buySell with
  | .buy => snapshot.tick.bid
  | .sell => snapshot.tick.ask

/-- `adverseMove`: how far the price has gone against the position. -/
def adverseMove (snapshot : MarketSnapshot) (position : Position) : ℚ :=
  let currentPrice := (closingPrice snapshot position).value
  match position.buySell with
  | .buy => position.entryPrice.value - currentPrice
  | .sell => currentPrice - position.entryPrice.value

/-- `favorableMove`: how far it has gone the way of the position. -/
def favorableMove (snapshot : MarketSnapshot) (position : Position) : ℚ :=
  let currentPrice := (closingPrice snapshot position).value
  match position.buySell with
  | .buy => currentPrice - position.entryPrice.value
  | .sell => position.entryPrice.value - currentPrice

/-- An exit once a move is worth so many pips. -/
def thresholdExit (move : ℚ) (pips : ℚ) (type : ExitType) (reason : ExitReason)
    (snapshot : MarketSnapshot) (position : Position) : Option ExitCommand :=
  if pips * snapshot.pair.pipUnit ≤ move then some ⟨position.id, type, reason⟩ else none

/-- `FixedStopLossExitRule.shouldExit`. -/
def FixedStopLossExitRule.shouldExit (n : RuleNumbers) (stopLossPips : ℚ)
    (snapshot : MarketSnapshot) (position : Position) : Option ExitCommand :=
  thresholdExit (adverseMove snapshot position) stopLossPips .stopLoss
    ⟨"固定ストップロス（" ++ (n.text stopLossPips ++ "pips）"), isBlank_append (by decide) _⟩
    snapshot position

/-- `FixedTakeProfitExitRule.shouldExit`. -/
def FixedTakeProfitExitRule.shouldExit (n : RuleNumbers) (takeProfitPips : ℚ)
    (snapshot : MarketSnapshot) (position : Position) : Option ExitCommand :=
  thresholdExit (favorableMove snapshot position) takeProfitPips .takeProfit
    ⟨"固定利確（" ++ (n.text takeProfitPips ++ "pips）"), isBlank_append (by decide) _⟩
    snapshot position

/-- `TimedExitRule.shouldExit`. -/
def TimedExitRule.shouldExit (n : RuleNumbers) (maxHoldMs : ℚ) (snapshot : MarketSnapshot)
    (position : Position) : Option ExitCommand :=
  let held := snapshot.capturedAt - position.openedAt
  if maxHoldMs ≤ held then
    some ⟨position.id, .forceClose,
      ⟨"時間ベース強制決済（" ++ (n.fixedText (maxHoldMs / 3600000) ++ "時間）"),
        isBlank_append (by decide) _⟩⟩
  else none

/-- `midPrice`. -/
def Tick.midPrice (tick : Tick) : Price where
  value := (tick.ask.value + tick.bid.value) / 2
  pos := by
    have hask := tick.ask.pos
    have hbid := tick.bid.pos
    linarith

namespace SmaCrossExitRule

/-- `buildExitCommand`. -/
def buildExitCommand (snapshot : MarketSnapshot) (position : Position) (reason : ExitReason) :
    ExitCommand :=
  let currentPrice := snapshot.tick.midPrice
  let isProfit := match position.buySell with
    | .buy => currentPrice.isHigherThan position.entryPrice
    | .sell => position.entryPrice.isHigherThan currentPrice
  { positionId := position.id
    type := if isProfit then .takeProfit else .stopLoss
    reason := reason }

/-- `SmaCrossExitRule.shouldExit`. -/
def shouldExit (timeFrame : TimeFrame) (snapshot : MarketSnapshot) (position : Position) :
    Option ExitCommand :=
  match position.buySell, detectCross (snapshot.snapshotOf timeFrame).indicators.confirmed with
  | .buy, .deadCross => some (buildExitCommand snapshot position
      ⟨"SMA デッドクロス（BUYポジション決済）", by decide⟩)
  | .sell, .goldenCross => some (buildExitCommand snapshot position
      ⟨"SMA ゴールデンクロス（SELLポジション決済）", by decide⟩)
  | _, _ => none

end SmaCrossExitRule

/-- The exit rules of the factory. The trailing one has a state of its own. -/
inductive ExitRule where
  | fixedStopLoss (stopLossPips : ℚ)
  | trailingTakeProfit (rule : TrailingTakeProfitExitRule ℚ)
  | fixedTakeProfit (takeProfitPips : ℚ)
  | timed (maxHoldMs : ℚ)
  | smaCross (timeFrame : TimeFrame)

/-- `shouldExit`: the command, or none for `DoNothing`, and the rule afterwards. -/
def ExitRule.shouldExit (n : RuleNumbers) (rule : ExitRule) (snapshot : MarketSnapshot)
    (position : Position) : Option ExitCommand × ExitRule :=
  match rule with
  | .fixedStopLoss pips => (FixedStopLossExitRule.shouldExit n pips snapshot position, rule)
  | .trailingTakeProfit trailing =>
    let (command, trailing) := trailing.shouldExit n.toNumbers snapshot position
    (command, .trailingTakeProfit trailing)
  | .fixedTakeProfit pips => (FixedTakeProfitExitRule.shouldExit n pips snapshot position, rule)
  | .timed maxHoldMs => (TimedExitRule.shouldExit n maxHoldMs snapshot position, rule)
  | .smaCross timeFrame => (SmaCrossExitRule.shouldExit timeFrame snapshot position, rule)

/-- `CompositeExitRule`, which the constructor refuses without rules. -/
structure CompositeExitRule where
  rules : List ExitRule
  nonempty : rules ≠ []

namespace CompositeExitRule

/-- The loop of `shouldExit`: the rules behind the first command are not asked. -/
def ask (n : RuleNumbers) (snapshot : MarketSnapshot) (position : Position) :
    List ExitRule → Option ExitCommand × List ExitRule
  | [] => (none, [])
  | rule :: rest =>
    match rule.shouldExit n snapshot position with
    | (some command, rule) => (some command, rule :: rest)
    | (none, rule) =>
      let (command, rest) := ask n snapshot position rest
      (command, rule :: rest)

theorem ask_length (n : RuleNumbers) (snapshot : MarketSnapshot) (position : Position)
    (rules : List ExitRule) : (ask n snapshot position rules).2.length = rules.length := by
  induction rules with
  | nil => rfl
  | cons rule rest ih =>
    unfold ask
    split
    · rfl
    · simp [ih]

/-- `shouldExit`. -/
def shouldExit (n : RuleNumbers) (composite : CompositeExitRule) (snapshot : MarketSnapshot)
    (position : Position) : Option ExitCommand × CompositeExitRule :=
  ((ask n snapshot position composite.rules).1,
    { rules := (ask n snapshot position composite.rules).2
      nonempty := by
        intro hnil
        have hlength := ask_length n snapshot position composite.rules
        rw [hnil] at hlength
        exact composite.nonempty (List.length_eq_zero_iff.mp hlength.symm) })

end CompositeExitRule

/-! ## The entry rule -/

/-- `BacktestSizingResult`: a lot, at a rate that stands for nothing. -/
structure BacktestSizingResult where
  lot : Lot
  rate : Rate

namespace BacktestSizingResult

/-- `BacktestSizingResult.of`. -/
def of (lot : Lot) (pair : CurrencyPair) : BacktestSizingResult :=
  ⟨lot, ⟨1, pair, 0, one_pos⟩⟩

/-- A backtest checks no margin. -/
def requiredMargin (_ : BacktestSizingResult) : Money := ⟨0, .jpy⟩

end BacktestSizingResult

namespace SmaCrossEntryRule

/-- The command of a cross, sized by a backtest. -/
def backtestCommand (timeFrame : TimeFrame) (snapshot : MarketSnapshot) (buySell : BuySell)
    (cross : String) (sizing : BacktestSizingResult) : EntryCommand where
  pair := snapshot.pair
  buySell := buySell
  lot := sizing.lot
  reason := reason cross timeFrame
  convictionScore := .smaCross
  strategyName := .smaCross
  entrySnapshot := buildSnapshot snapshot (7 / 10)
  requiredMargin := sizing.requiredMargin
  margin_nonneg := le_rfl

/-- `SmaCrossEntryRule.shouldEntry` with the `getSizing` of a backtest in place of the live
one. -/
def shouldEntryWith (timeFrame : TimeFrame) (getSizing : Option BacktestSizingResult) : EntryRule :=
  fun _ snapshot =>
    match detectCross (snapshot.snapshotOf timeFrame).indicators.confirmed with
    | .goldenCross => match getSizing with
      | some sizing => .entry (backtestCommand timeFrame snapshot .buy "ゴールデンクロス" sizing)
      | none => .threw
    | .deadCross => match getSizing with
      | some sizing => .entry (backtestCommand timeFrame snapshot .sell "デッドクロス" sizing)
      | none => .threw
    | .none => .doNothing

end SmaCrossEntryRule

/-! ## Parameter sets -/

/-- `priceBandFilter` of a parameter set. -/
structure PriceBand where
  minSellPrice : Option ℚ
  maxBuyPrice : Option ℚ

/-- `BaseParameters`: what the sets of all strategies have. -/
structure BaseParameters where
  pair : CurrencyPair
  timeframe : TimeFrame
  dateFrom : Int
  dateTo : Int

/-- What the sets of the SMA cross have besides, with the number of bars that an SMA is over. -/
structure StrategyParameters where
  shortPeriod : Nat
  longPeriod : Nat
  stopLossPips : ℚ
  takeProfitPips : Option ℚ
  trailActivatePips : Option ℚ
  trailWidthPips : Option ℚ
  excludeHoursUtc : List Int
  maxHoldBars : ℚ
  riskPct : ℚ
  targetMaintenanceRatio : Option ℚ
  marginRate : Option ℚ
  minCrossStrengthPips : Option ℚ
  excludeMidMonthJstLunchNonBoj : Bool
  maxDirectionalDivergencePct : Option ℚ
  priceBandFilter : Option PriceBand
  short_pos : 0 < shortPeriod
  long_pos : 0 < longPeriod

/-- `SmaCrossParameters`. -/
structure SmaCrossParameters extends BaseParameters, StrategyParameters

/-- What the constructors of the rules throw. -/
inductive RuleFactoryError where
  /-- `minSellPrice は正の値` -/
  | minSellPriceNotPositive (value : ℚ)
  /-- `maxBuyPrice は正の値` -/
  | maxBuyPriceNotPositive (value : ℚ)

/-- `RulePair`. The entry rule is given what `getLot` returns, if it does not throw. -/
structure RulePair where
  entryRule : Option Lot → MarketSnapshot → RuleResult
  exitRule : CompositeExitRule

namespace SmaCrossParameters

variable (isBojMeetingDate : Int → Bool) (ps : SmaCrossParameters)

/-- A filter whose parameter is there and above zero. -/
def filterAbove (parameter : Option ℚ) (filter : ℚ → EntryRule → EntryRule) (rule : EntryRule) :
    EntryRule :=
  match parameter with
  | some value => if 0 < value then filter value rule else rule
  | none => rule

/-- The price bands, if the set has one of them. -/
def priceBands (rule : EntryRule) : EntryRule :=
  match ps.priceBandFilter with
  | some band =>
    if band.minSellPrice.isSome || band.maxBuyPrice.isSome then
      Luchida.priceBandFilter band.minSellPrice band.maxBuyPrice rule
    else rule
  | none => rule

/-- The window in the middle of the month, if the set excludes it. -/
def windowBlock (rule : EntryRule) : EntryRule :=
  if ps.excludeMidMonthJstLunchNonBoj then
    timeWindowBlock [midMonthJstLunchNonBojWindow isBojMeetingDate] rule
  else rule

/-- The excluded hours, if there are any. -/
def hourBlock (rule : EntryRule) : EntryRule :=
  if 0 < ps.excludeHoursUtc.length then timeFiltered ps.excludeHoursUtc rule else rule

/-- The filters of the set, the outermost first. -/
def filters (rule : EntryRule) : EntryRule :=
  ps.hourBlock <|
  ps.windowBlock isBojMeetingDate <|
  ps.priceBands <|
  filterAbove ps.maxDirectionalDivergencePct (smaDivergenceFilter ps.timeframe) <|
  filterAbove ps.minCrossStrengthPips (crossStrengthFilter ps.timeframe) rule

/-- The entry rule. -/
def entryRule (getLot : Option Lot) (snapshot : MarketSnapshot) : RuleResult :=
  let getSizing := getLot.map fun lot => BacktestSizingResult.of lot ps.pair
  ps.filters isBojMeetingDate (SmaCrossEntryRule.shouldEntryWith ps.timeframe getSizing) none
    snapshot

/-- The exit rules: stop loss, take profit, time, cross. -/
def exitRules : List ExitRule :=
  let stopLoss := [ExitRule.fixedStopLoss ps.stopLossPips]
  let takeProfit := match ps.trailActivatePips, ps.trailWidthPips with
    | some activatePips, some trailWidthPips =>
      [ExitRule.trailingTakeProfit (.new activatePips trailWidthPips)]
    | _, _ => ps.takeProfitPips.toList.map ExitRule.fixedTakeProfit
  let timed :=
    if 0 < ps.maxHoldBars then [ExitRule.timed (ps.maxHoldBars * ps.timeframe.durationMs)] else []
  stopLoss ++ takeProfit ++ timed ++ [.smaCross ps.timeframe]

/-- The checks of the constructor of `PriceBandFilterEntryRule`. -/
def checkPriceBands : Except RuleFactoryError Unit :=
  match ps.priceBandFilter with
  | none => .ok ()
  | some band =>
    match band.minSellPrice.filter (· ≤ 0), band.maxBuyPrice.filter (· ≤ 0) with
    | some value, _ => .error (.minSellPriceNotPositive value)
    | none, some value => .error (.maxBuyPriceNotPositive value)
    | none, none => .ok ()

/-- `createRules`. -/
def createRules : Except RuleFactoryError RulePair := do
  ps.checkPriceBands
  return {
    entryRule := ps.entryRule isBojMeetingDate
    exitRule := ⟨ps.exitRules, by simp [exitRules]⟩ }

/-- `calcWarmupCount`. -/
def calcWarmupCount : Nat := max ps.shortPeriod ps.longPeriod

/-! ### Asking for a lot -/

/-- At this snapshot the entry rule asks for a lot: it throws if none can be had. -/
def AsksForLot (snapshot : MarketSnapshot) : Prop :=
  ps.entryRule isBojMeetingDate none snapshot = .threw

theorem blockBefore_ne_threw {blocks : MarketSnapshot → Bool} {inner : EntryRule}
    {getSizing : Option SizingResult} {snapshot : MarketSnapshot}
    (h : inner getSizing snapshot ≠ .threw) :
    blockBefore blocks inner getSizing snapshot ≠ .threw := by
  unfold blockBefore
  split
  · simp
  · exact h

theorem blockAfter_ne_threw {blocks : MarketSnapshot → EntryCommand → Bool} {inner : EntryRule}
    {getSizing : Option SizingResult} {snapshot : MarketSnapshot}
    (h : inner getSizing snapshot ≠ .threw) :
    blockAfter blocks inner getSizing snapshot ≠ .threw := by
  unfold blockAfter
  split
  · split <;> simp
  · exact h

section
variable {inner : EntryRule} {getSizing : Option SizingResult} {snapshot : MarketSnapshot}
  (h : inner getSizing snapshot ≠ .threw)

include h

/-- A filter that a set may leave out. -/
theorem optional_ne_threw {asked : Prop} [Decidable asked] {filtered : EntryRule}
    (hfiltered : filtered getSizing snapshot ≠ .threw) :
    (if asked then filtered else inner) getSizing snapshot ≠ .threw := by
  by_cases hasked : asked
  · rw [if_pos hasked]
    exact hfiltered
  · rw [if_neg hasked]
    exact h

theorem priceBands_ne_threw : ps.priceBands inner getSizing snapshot ≠ .threw := by
  unfold priceBands
  cases ps.priceBandFilter with
  | none => exact h
  | some band => exact optional_ne_threw h (blockAfter_ne_threw h)

theorem windowBlock_ne_threw : ps.windowBlock isBojMeetingDate inner getSizing snapshot ≠ .threw :=
  optional_ne_threw h (blockBefore_ne_threw h)

theorem hourBlock_ne_threw : ps.hourBlock inner getSizing snapshot ≠ .threw :=
  optional_ne_threw h (blockBefore_ne_threw h)

theorem filterAbove_ne_threw (parameter : Option ℚ) {filter : ℚ → EntryRule → EntryRule}
    (hfilter : ∀ value, filter value inner getSizing snapshot ≠ .threw) :
    filterAbove parameter filter inner getSizing snapshot ≠ .threw := by
  unfold filterAbove
  cases parameter with
  | none => exact h
  | some value => exact optional_ne_threw h (hfilter value)

end

/-- The filters throw nothing of their own. -/
theorem filters_ne_threw {rule : EntryRule} {getSizing : Option SizingResult}
    {snapshot : MarketSnapshot} (h : rule getSizing snapshot ≠ .threw) :
    ps.filters isBojMeetingDate rule getSizing snapshot ≠ .threw := by
  have hstrength := filterAbove_ne_threw h ps.minCrossStrengthPips fun value =>
    (blockBefore_ne_threw h : crossStrengthFilter ps.timeframe value rule _ _ ≠ _)
  have hdivergence := filterAbove_ne_threw hstrength ps.maxDirectionalDivergencePct fun value =>
    (blockAfter_ne_threw hstrength : smaDivergenceFilter ps.timeframe value _ _ _ ≠ _)
  have hbands := ps.priceBands_ne_threw hdivergence
  have hwindow := ps.windowBlock_ne_threw isBojMeetingDate hbands
  exact ps.hourBlock_ne_threw hwindow

/-- The entry rule throws exactly where it asks for a lot and none can be had. -/
theorem entryRule_threw_iff (getLot : Option Lot) (snapshot : MarketSnapshot) :
    ps.entryRule isBojMeetingDate getLot snapshot = .threw ↔
      getLot = none ∧ ps.AsksForLot isBojMeetingDate snapshot := by
  cases getLot with
  | none => simp [AsksForLot]
  | some lot =>
    simp only [reduceCtorEq, false_and, iff_false]
    refine ps.filters_ne_threw isBojMeetingDate ?_
    unfold SmaCrossEntryRule.shouldEntryWith
    dsimp only [Option.map_some]
    split <;> simp

end SmaCrossParameters
end Luchida
