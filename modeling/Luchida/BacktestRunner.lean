import Luchida.EngineProgress
import Luchida.ExecutionSimulators
import Luchida.ResultCalculator
import Luchida.RuleFactory
import Luchida.SeededRandom
import Luchida.TickEngine

/- Runner.ts: a batch of parameter sets of the SMA cross on one engine, over bars or over
   ticks, one set after the other. Each entry is sized from the equity that the trades
   before it have left, and `Balance` refuses a negative one (`decideLot_returns_iff`).
   What one set throws ends the batch. -/
namespace Luchida

open OrderedMap Throws ResultCalculator

/-! ## Sizing -/

/-- `DEFAULT_TARGET_MAINTENANCE_RATIO`. -/
def defaultTargetMaintenanceRatio : ℚ := 140 / 100

/-- `DEFAULT_MARGIN_RATE`. -/
def defaultMarginRate : ℚ := 4 / 100

/-- What `decideLot` throws, itself or through the values that it makes. -/
inductive LotError where
  | rateMissing (pair : CurrencyPair)
  | balanceNegative (money : Money)
  | rateNotPositive (value : ℚ)
  | inputRejected (pair : CurrencyPair) (balance : Balance) (rate : Rate)
  | unsupportedPair (pair : CurrencyPair)

/-- The text of a currency. -/
def Currency.name : Currency → String
  | .jpy => "JPY"
  | .usd => "USD"
  | .eur => "EUR"
  | .gbp => "GBP"
  | .aud => "AUD"
  | .nzd => "NZD"
  | .cad => "CAD"
  | .chf => "CHF"
  | .tryLira => "TRY"
  | .zar => "ZAR"
  | .mxn => "MXN"

/-- The message, with the text of a number. -/
def LotError.message (text : ℚ → String) : LotError → String
  | .rateMissing pair => "Lot 計算時に currentRate が未取得です: " ++ pair.name
  | .balanceNegative money =>
    "Balance は非負: " ++ text money.value ++ " " ++ money.currency.name
  | .rateNotPositive value => "Rate は正の数: " ++ text value
  | .inputRejected pair balance rate =>
    if rate.pair ≠ pair then
      "Rate の通貨ペアが一致しません: input=" ++ pair.name ++ " rate=" ++ rate.pair.name
    else
      "Balance の通貨と Rate の quote 通貨が不一致: balance=" ++ balance.money.currency.name ++
        " quote=" ++ pair.quote.name
  | .unsupportedPair pair =>
    "MaintenanceRatioBasedLotPolicy は JPY quote ペア専用: " ++ pair.name

/-- `decideLot`, at the time `now`. -/
def decideLot (pair : CurrencyPair) (equity : ℚ) (currentRate : Option ℚ)
    (target : MaintenanceRatio) (marginRate : MarginRate) (now : Int) : Except LotError Lot :=
  match currentRate with
  | none => .error (.rateMissing pair)
  | some currentRate =>
    match Balance.of ⟨equity, pair.quote⟩ with
    | none => .error (.balanceNegative ⟨equity, pair.quote⟩)
    | some balance =>
      match Rate.of currentRate pair now with
      | none => .error (.rateNotPositive currentRate)
      | some rate =>
        match LotDecisionInput.of pair balance rate target marginRate with
        | none => .error (.inputRejected pair balance rate)
        | some input =>
          match MaintenanceRatioBasedLotPolicy.decide input with
          | none => .error (.unsupportedPair pair)
          | some lot => .ok lot

/-- On a pair quoted in yen, a lot is had at every equity that is not negative. -/
theorem decideLot_returns_iff {pair : CurrencyPair} (hjpy : pair.quote = .jpy) {rate : ℚ}
    (hrate : 0 < rate) (equity : ℚ) (target : MaintenanceRatio) (marginRate : MarginRate)
    (now : Int) :
    (∃ lot, decideLot pair equity (some rate) target marginRate now = .ok lot) ↔ 0 ≤ equity := by
  unfold decideLot
  by_cases hequity : 0 ≤ equity
  · have hbalance : Balance.of ⟨equity, pair.quote⟩ = some ⟨⟨equity, pair.quote⟩, hequity⟩ :=
      dif_pos hequity
    have hrateOf : Rate.of rate pair now = some ⟨rate, pair, now, hrate⟩ := dif_pos hrate
    let input : LotDecisionInput := ⟨pair, ⟨⟨equity, pair.quote⟩, hequity⟩,
      ⟨rate, pair, now, hrate⟩, target, marginRate, rfl, rfl⟩
    have hinput : LotDecisionInput.of pair ⟨⟨equity, pair.quote⟩, hequity⟩
        ⟨rate, pair, now, hrate⟩ target marginRate = some input := dif_pos ⟨rfl, rfl⟩
    obtain ⟨lot, hlot, -⟩ := MaintenanceRatioBasedLotPolicy.decide_ok input hjpy
    simp [hbalance, hrateOf, hinput, hlot, hequity]
  · have hbalance : Balance.of ⟨equity, pair.quote⟩ = none := dif_neg hequity
    simp [hbalance, hequity]

/-! ## The runner -/

inductive BatchStatus where
  | completed
  | failed
  deriving DecidableEq, Repr

/-- What `create` is told of a batch. -/
structure Batch where
  batchId : String
  description : String
  totalRuns : Nat
  strategy : StrategyName
  pair : CurrencyPair
  timeframe : TimeFrame

/-- `BatchStore`. -/
structure BatchStore where
  create : Batch → Except String Unit
  complete : String → BatchStatus → Except String Unit

/-- `EngineMode`. -/
inductive EngineMode where
  | ohlc
  | tick
  deriving DecidableEq

/-- `ExecutionConfig`, with a seed that is not negative. -/
structure ExecutionConfig where
  slippageStddevPips : ℚ
  executionDelayMs : Int
  randomSeed : Nat
  deriving DecidableEq

inductive SampleType where
  | full
  | inSample
  | outOfSample
  | walkForward
  deriving DecidableEq

/-- What `run` is told of the sample. -/
structure SampleMeta where
  sampleType : SampleType
  foldNumber : Option Int

/-- The default. -/
def SampleMeta.full : SampleMeta := ⟨.full, none⟩

/-- What a result says of its run. -/
structure RunLabels where
  id : String
  batchId : String
  strategy : StrategyName
  pair : CurrencyPair
  timeframe : TimeFrame
  params : StrategyParameters
  initialCapital : ℚ
  engineMode : EngineMode
  executionConfig : ExecutionConfig
  codeVersion : String
  tickCount : Nat
  barCount : Nat
  gapCount : Nat
  dataHash : String
  sampleType : SampleType
  foldNumber : Option Int

abbrev RunResult := BacktestResult RunLabels

/-- `BacktestRunner`, and what it takes from its surroundings: the provider and the ids of the
runs by number, the clock, the table of meetings, the square root, the normal distribution of
two uniform numbers, the arithmetic of the runtime, and the texts of numbers. -/
structure BacktestRunner where
  resultStore : RunResult → Except String Unit
  batchStore : Option BatchStore
  dataProviderFactory : Nat → DataProvider
  mode : EngineMode
  executionConfig : ExecutionConfig
  initialCapital : ℚ
  codeVersion : String
  runId : Nat → String
  positionId : Nat → Nat → PositionId
  now : Int
  durationMs : Int
  isBojMeetingDate : Int → Bool
  sqrt : ℚ → ℚ
  boxMuller : ℚ → ℚ → ℚ
  arithmetic : NumberArithmetic
  numbers : RuleNumbers
  text : ℚ → String

/-- What the rules and the simulator of a run change. -/
structure RunWorld where
  exitRule : CompositeExitRule
  opened : Nat
  random : SeededRandom

inductive RunnerError where
  /-- `MaintenanceRatio は 1.0 超` -/
  | maintenanceRatio (value : ℚ)
  /-- `MarginRate は 0 超 1 未満` -/
  | marginRate (value : ℚ)
  | rules (error : RuleFactoryError)
  | adapter (error : SnapshotAdapterError)
  | engine (error : EngineError)
  | calculation (error : CalculationError)
  /-- What a store throws. -/
  | store (message : String)

/-- What `shouldEntry` returns, where `getLot` throws this message if it throws. -/
def RuleResult.outcome (message : String) : RuleResult → Except String (Option EntryCommand)
  | .threw => .error message
  | .doNothing => .ok none
  | .entry command => .ok (some command)

/-- `collectIndicatorSpecs`: one spec, of the signal time frame. -/
def collectIndicatorSpecs (ps : SmaCrossParameters) : List TimeFrameIndicatorSpec :=
  [⟨ps.timeframe, ps.shortPeriod, ps.longPeriod⟩]

/-- The target ratio of the set, or the default. -/
def SmaCrossParameters.decideTarget (ps : SmaCrossParameters) :
    Except RunnerError MaintenanceRatio :=
  let targetRatio := ps.targetMaintenanceRatio.getD defaultTargetMaintenanceRatio
  match MaintenanceRatio.of targetRatio with
  | some target => .ok target
  | none => .error (.maintenanceRatio targetRatio)

/-- The margin rate of the set, or the default. -/
def SmaCrossParameters.decideMarginRate (ps : SmaCrossParameters) :
    Except RunnerError MarginRate :=
  let rate := ps.marginRate.getD defaultMarginRate
  match MarginRate.of rate with
  | some marginRate => .ok marginRate
  | none => .error (.marginRate rate)

namespace BacktestRunner

variable (runner : BacktestRunner)

/-- `getLot`: the equity and the rate are read anew each time. The engine is given both
states. -/
def getLot (ps : SmaCrossParameters) (target : MaintenanceRatio) (marginRate : MarginRate)
    (shared : SharedState) : Except LotError Lot :=
  decideLot ps.pair (shared.equityState.getD runner.initialCapital)
    (shared.marketState.getD none) target marginRate runner.now

/-- `PositionId.generate`. -/
def generateId (run : Nat) (world : RunWorld) : PositionId × RunWorld :=
  (runner.positionId run world.opened, { world with opened := world.opened + 1 })

/-- `nextGaussian`, from two numbers of the generator. The first is kept off zero. -/
def nextGaussian (world : RunWorld) : ℚ × RunWorld :=
  let (u1, random) := world.random.next
  let (u2, random) := random.next
  (runner.boxMuller (max u1 (1 / 2 ^ 52)) u2, { world with random := random })

/-- `createSimulator`. -/
def createSimulator (run : Nat) (pair : CurrencyPair) : ExecutionSimulator RunWorld :=
  match runner.mode with
  | .ohlc => idealExecutionSimulator (runner.generateId run) runner.arithmetic
  | .tick => realisticExecutionSimulator (runner.generateId run) {
      stddev := ⟨runner.executionConfig.slippageStddevPips⟩
      nextGaussian := runner.nextGaussian
      pipUnit := pair.pipUnit } runner.arithmetic

/-- The `EngineRunParams` of the run with this number. -/
def engineRunParams (run : Nat) (ps : SmaCrossParameters) (target : MaintenanceRatio)
    (marginRate : MarginRate) (rules : RulePair) : EngineRunParams RunWorld where
  config := ⟨ps.pair, ps.timeframe, ⟨ps.dateFrom, ps.dateTo⟩, ps.calcWarmupCount⟩
  entryRule shared snapshot world := do
    let lot := runner.getLot ps target marginRate shared
    let message := match lot with
      | .error e => e.message runner.text
      | .ok _ => ""
    let command ← (rules.entryRule lot.toOption snapshot).outcome message
    return (command, world)
  exitRule _ snapshot position world :=
    let (command, exitRule) := world.exitRule.shouldExit runner.numbers snapshot position
    .ok (command, { world with exitRule := exitRule })
  dataProvider := runner.dataProviderFactory run
  executionSimulator := runner.createSimulator run ps.pair
  runId := runner.runId run
  initialCapital := runner.initialCapital
  additionalIndicatorSpecs :=
    (collectIndicatorSpecs ps).filter fun spec => spec.timeFrame ≠ ps.timeframe
  numbers := runner.arithmetic

/-- What a run is made of. -/
structure Setup (σ : Type) [SmaCalculator σ] where
  target : MaintenanceRatio
  marginRate : MarginRate
  params : EngineRunParams RunWorld
  adapter : BacktestSnapshotAdapter σ
  world : RunWorld

/-- The state that the engine is given. -/
def shared : SharedState := ⟨some runner.initialCapital, some none⟩

/-- What an engine passes on to `calculate`. -/
structure EngineOutcome where
  trades : List TradeRecord
  tickCount : Nat
  barCount : Nat

/-- The labels that `calculate` is given: those of `runOne`, and the counts of the engine. -/
def labels (run : Nat) (ps : SmaCrossParameters) (batchId : String) (sampleMeta : SampleMeta)
    (outcome : EngineOutcome) : RunLabels where
  id := runner.runId run
  batchId := batchId
  strategy := .smaCross
  pair := ps.pair
  timeframe := ps.timeframe
  -- `extractStrategyParams`
  params := ps.toStrategyParameters
  initialCapital := runner.initialCapital
  engineMode := runner.mode
  executionConfig := runner.executionConfig
  codeVersion := runner.codeVersion
  tickCount := outcome.tickCount
  barCount := outcome.barCount
  gapCount := 0
  dataHash := ""
  sampleType := sampleMeta.sampleType
  foldNumber := sampleMeta.foldNumber

section
variable (σ : Type) [SmaCalculator σ]

/-- `runOne` up to the engine. -/
def prepare (run : Nat) (ps : SmaCrossParameters) : Except RunnerError (Setup σ) := do
  let target ← ps.decideTarget
  let marginRate ← ps.decideMarginRate
  let rules ← (ps.createRules runner.isBojMeetingDate).mapError .rules
  let adapter ← (BacktestSnapshotAdapter.new ps.pair ps.timeframe
    (collectIndicatorSpecs ps) runner.arithmetic).mapError .adapter
  return {
    target := target
    marginRate := marginRate
    params := runner.engineRunParams run ps target marginRate rules
    adapter := adapter
    world := ⟨rules.exitRule, 0, .ofSeed runner.executionConfig.randomSeed⟩ }

variable {σ} in
/-- `createEngine().run`, up to the call of `calculate`. -/
def runEngine (setup : Setup σ) : Except EngineError EngineOutcome :=
  match runner.mode with
  | .ohlc => do
    let s ← OhlcEngine.run setup.params setup.adapter setup.world runner.shared
    return ⟨s.trades, 0, OhlcEngine.barCount setup.params⟩
  | .tick => do
    let s ← TickEngine.run setup.params runner.executionConfig.executionDelayMs setup.adapter
      setup.world runner.shared
    return ⟨s.trades, s.tickCount, 0⟩

section
variable (batchId : String) (sampleMeta : SampleMeta)

/-- `runOne`. -/
def runOne (run : Nat) (ps : SmaCrossParameters) : Except RunnerError RunResult := do
  let setup ← runner.prepare σ run ps
  let outcome ← (runner.runEngine setup).mapError .engine
  (calculate runner.sqrt runner.now {
    labels := runner.labels run ps batchId sampleMeta outcome
    dateFrom := ps.dateFrom
    dateTo := ps.dateTo
    trades := outcome.trades
    durationMs := runner.durationMs }).mapError .calculation

/-- The loop of `run`, from the run with this number on. -/
def runSets (run : Nat) : List SmaCrossParameters → Except RunnerError (List RunResult)
  | [] => .ok []
  | ps :: rest => do
    let result ← runner.runOne σ batchId sampleMeta run ps
    (runner.resultStore result).mapError .store
    let results ← runSets (run + 1) rest
    return result :: results

end

/-- `batchStore.create`, where there is a store and something to run. -/
def createBatch (parameterSets : List SmaCrossParameters) (batchId description : String) :
    Except RunnerError Unit :=
  match runner.batchStore, parameterSets with
  | some store, ps0 :: _ => (store.create {
      batchId := batchId
      description := description
      totalRuns := parameterSets.length
      strategy := .smaCross
      pair := ps0.pair
      timeframe := ps0.timeframe }).mapError .store
  | _, _ => .ok ()

/-- `batchStore.complete`, where there is a store. -/
def completeBatch (batchId : String) (status : BatchStatus) : Except RunnerError Unit :=
  match runner.batchStore with
  | some store => (store.complete batchId status).mapError .store
  | none => .ok ()

/-- `BacktestRunner.run`. -/
def run (parameterSets : List SmaCrossParameters) (batchId description : String)
    (sampleMeta : SampleMeta) : Except RunnerError (List RunResult) := do
  runner.createBatch parameterSets batchId description
  let attempt := do
    let results ← runner.runSets σ batchId sampleMeta 0 parameterSets
    runner.completeBatch batchId .completed
    return results
  match attempt with
  | .ok results => .ok results
  | .error e => do
    runner.completeBatch batchId .failed
    .error e

end

end BacktestRunner

end Luchida
