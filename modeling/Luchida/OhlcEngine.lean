import Luchida.BacktestEngine

/- OhlcEngine.ts: the backtest over confirmed bars. The rules are asked at each bar after
   the warm-up except the last, and what they order is filled at the open of the next
   bar. What is still open at the end is closed at the last close. -/
namespace Luchida

open OrderedMap Throws

namespace OhlcEngine

variable {α ω : Type} [SnapshotAdapter α]

/-- `makeTick`: a quote one pip wide at the close of a bar. -/
def makeTick (numbers : NumberArithmetic) (price : Price) (pair : CurrencyPair)
    (candle : ConfirmedCandle) : Except QuoteError Tick := do
  let ask ← Price.ofFixed numbers 6 (numbers.plus price.value pair.pipUnit)
  Tick.of ask price candle.closeTime

theorem exists_makeTick_iff {numbers : NumberArithmetic} {price : Price} {pair : CurrencyPair}
    (candle : ConfirmedCandle) : (∃ tick, makeTick numbers price pair candle = .ok tick) ↔
      price.value < numbers.fixed 6 (numbers.plus price.value pair.pipUnit) := by
  constructor
  · intro htick
    obtain ⟨tick, htick⟩ := htick
    obtain ⟨ask, hask, htick⟩ := bind_eq_ok.mp htick
    unfold Tick.of at htick
    split at htick
    · rename_i hlt
      exact Price.ofFixed_eq_ok hask ▸ hlt
    · cases htick
  · intro hlt
    exact ⟨_, bind_eq_ok.mpr ⟨_, Price.ofFixed_of_pos (price.pos.trans hlt), dif_pos hlt⟩⟩

/-- Without rounding, the number a pip above a price is above it. -/
theorem exact_makeTick (price : Price) (pair : CurrencyPair) :
    price.value < NumberArithmetic.exact.fixed 6
      (NumberArithmetic.exact.plus price.value pair.pipUnit) := by
  have hpip : 1 / 10000 ≤ pair.pipUnit := by
    unfold CurrencyPair.pipUnit
    split <;> norm_num
  have hsum : 0 ≤ price.value + pair.pipUnit := by linarith [price.pos, pair.pipUnit_pos]
  -- a pip is worth more steps of the sixth decimal than the rounding takes
  show price.value < toFixed 6 (price.value + pair.pipUnit)
  rw [toFixed_of_nonneg 6 hsum]
  have hfloor := Rat.lt_floor_add_one ((price.value + pair.pipUnit) * 10 ^ 6 + 1 / 2)
  rw [lt_div_iff₀ (by positivity)]
  push_cast at hfloor ⊢
  linarith

/-- Ask the exit rule about one position, and close it at the open of the next bar. -/
def evaluateExit (params : EngineRunParams ω) (snapshot : MarketSnapshot)
    (currentCandle nextCandle : ConfirmedCandle) (s : EngineState α ω)
    (entry : PositionId × Position) : Except EngineError (EngineState α ω) := do
  let (exitResult, world) ← (params.exitRule s.shared snapshot entry.2 s.world).mapError .thrown
  let s := { s with world := world }
  match exitResult with
  | none => return s
  | some command => do
    let s ← s.closePosition params command entry.1 entry.2 nextCandle.openPrice
      nextCandle.openTime currentCandle.closeTime
    return s.forget entry.1

/-- Ask the entry rule, if nothing is open, and fill at the open of the next bar. -/
def evaluateEntry (params : EngineRunParams ω) (snapshot : MarketSnapshot)
    (nextCandle : ConfirmedCandle) (s : EngineState α ω) :
    Except EngineError (EngineState α ω) :=
  if s.positions.length = 0 then do
    let (entryResult, world) ← (params.entryRule s.shared snapshot s.world).mapError .thrown
    let s := { s with world := world }
    match entryResult with
    | none => return s
    | some command => s.openPosition params command nextCandle.openPrice nextCandle.openTime
  else .ok s

/-- Track the range of a bar for every open position. -/
def updateOhlc (candle : ConfirmedCandle) (s : EngineState α ω) : EngineState α ω :=
  { s with
    extremeTracker := s.positions.foldl
      (fun tracker entry => tracker.updateOhlc entry.1 candle.high candle.low) s.extremeTracker }

/-- One round of the loop. -/
def onBar (params : EngineRunParams ω) (currentCandle nextCandle : ConfirmedCandle)
    (s : EngineState α ω) : Except EngineError (EngineState α ω) := do
  let latestTick ← (makeTick params.numbers currentCandle.close params.config.pair
    currentCandle).mapError .quote
  let (snapshot, adapter) ← (SnapshotAdapter.addCandleAndBuild s.adapter currentCandle latestTick
    nextCandle.openPrice).mapError .adapter
  let s := updateOhlc currentCandle
    ({ s with adapter := adapter }.setRate currentCandle.close.value)
  let s ← s.positions.foldlM (evaluateExit params snapshot currentCandle nextCandle) s
  evaluateEntry params snapshot nextCandle s

/-- The loop, up to the last bar but one. -/
def loop (params : EngineRunParams ω) :
    List ConfirmedCandle → EngineState α ω → Except EngineError (EngineState α ω)
  | currentCandle :: nextCandle :: rest, s => do
    let s ← onBar params currentCandle nextCandle s
    loop params (nextCandle :: rest) s
  | _, s => .ok s

/-- Close one position at the close of the last bar. -/
def forceClose (params : EngineRunParams ω) (finalCandle : ConfirmedCandle)
    (s : EngineState α ω) (entry : PositionId × Position) :
    Except EngineError (EngineState α ω) := do
  let s := { s with
    extremeTracker := s.extremeTracker.updateOhlc entry.1 finalCandle.high finalCandle.low }
  let s ← s.closePosition params (EngineState.forceCloseCommand entry.2.id) entry.1 entry.2
    finalCandle.close finalCandle.closeTime finalCandle.closeTime
  return { s with extremeTracker := delete s.extremeTracker entry.1 }

/-- Close what is still open, and clear the positions. -/
def forceCloseAll (params : EngineRunParams ω) (finalCandle : ConfirmedCandle)
    (s : EngineState α ω) : Except EngineError (EngineState α ω) := do
  let s ← s.positions.foldlM (forceClose params finalCandle) s
  return { s with positions := [] }

/-- The warm-up, of several time frames at once where the adapter takes them. -/
def warmUp (params : EngineRunParams ω) (candles : List ConfirmedCandle)
    (additionalBundles : List (TimeFrameIndicatorSpec × List ConfirmedCandle)) (adapter : α) :
    Except SnapshotAdapterError α :=
  let driverWarmUp := candles.take params.config.warmupCount
  match additionalBundles, (SnapshotAdapter.warmUpByTimeFrame : Option (α → _)) with
  | _ :: _, some warmUpByTimeFrame =>
    let warmupCandlesByTf := additionalBundles.foldl
      (fun m bundle => OrderedMap.set m bundle.1.timeFrame (bundle.2.take bundle.1.longPeriod))
      [(params.config.timeframe, driverWarmUp)]
    let upcomingByTf := additionalBundles.foldl
      (fun m bundle => OrderedMap.set m bundle.1.timeFrame (bundle.2.drop bundle.1.longPeriod)) []
    warmUpByTimeFrame adapter warmupCandlesByTf upcomingByTf
  | _, _ => SnapshotAdapter.warmUp adapter driverWarmUp

/-- The bars of the run and of each additional time frame. -/
def fetch (params : EngineRunParams ω) : Except EngineError
    (List ConfirmedCandle × List (TimeFrameIndicatorSpec × List ConfirmedCandle)) := do
  let { pair, timeframe, dateRange, warmupCount } := params.config
  let candles ← (params.dataProvider.fetchCandles pair timeframe dateRange
    warmupCount).mapError .thrown
  let additionalBundles ← params.additionalIndicatorSpecs.mapM fun spec => do
    let bundle ← (params.dataProvider.fetchCandles pair spec.timeFrame dateRange
      spec.longPeriod).mapError .thrown
    return (spec, bundle)
  if candles.length = 0 then .error .noCandles
  else if candles.length ≤ warmupCount then
    .error (.tooFewCandles (warmupCount + 1) candles.length)
  else .ok (candles, additionalBundles)

/-- `barCount`: the bars after the warm-up. -/
def barCount (params : EngineRunParams ω) : Nat :=
  match fetch params with
  | .ok (candles, _) => candles.length - params.config.warmupCount
  | .error _ => 0

/-- The state in which the loop begins. -/
def begin (params : EngineRunParams ω) (candles : List ConfirmedCandle)
    (additionalBundles : List (TimeFrameIndicatorSpec × List ConfirmedCandle)) (adapter : α)
    (world : ω) (shared : SharedState) : Except EngineError (EngineState α ω) := do
  let adapter ← (warmUp params candles additionalBundles adapter).mapError .adapter
  return .start adapter world shared

/-- `OhlcEngine.run`, up to the call of `calculate`. -/
def run (params : EngineRunParams ω) (adapter : α) (world : ω) (shared : SharedState) :
    Except EngineError (EngineState α ω) := do
  let (candles, additionalBundles) ← fetch params
  let s ← begin params candles additionalBundles adapter world shared
  let s ← loop params (candles.drop params.config.warmupCount) s
  match candles.getLast? with
  | some finalCandle => forceCloseAll params finalCandle s
  | none => return s

end OhlcEngine

end Luchida
