import Luchida.BacktestAdapter
import Luchida.ExitGuards
import Luchida.SmaCrossRule

/- What the two backtest engines share: the parties they delegate to (Engine.ts,
   DataProvider.ts, SnapshotAdapter.ts, simulator/), the record of a trade
   (TradeRecordBuilder.ts), and the bookkeeping of a run. The engines repeat one block of
   code for each way a position is closed; it is `EngineState.closePosition` here, with
   the price, the times and the key each block uses.

   Rules and simulators may keep a state of their own, so they act on a world `ω`.
   A run that rejects ends in an `EngineError`, and nothing of its state is left. The
   state also carries `log`, the positions opened and the records pushed, in order. -/
namespace Luchida

open OrderedMap Throws

/-! ## The parties of a run -/

/-- `SnapshotAdapter`. The last field is what the OHLC engine does with an adapter that
is a `BacktestSnapshotAdapter`, when there are further time frames. -/
class SnapshotAdapter (α : Type) where
  warmUp : α → List ConfirmedCandle → Except SnapshotAdapterError α
  addCandleAndBuild :
    α → ConfirmedCandle → Tick → Price → Except SnapshotAdapterError (MarketSnapshot × α)
  warmUpByTimeFrame : Option (α → List (TimeFrame × List ConfirmedCandle) →
    List (TimeFrame × List ConfirmedCandle) → Except SnapshotAdapterError α)

instance {σ : Type} [SmaCalculator σ] : SnapshotAdapter (BacktestSnapshotAdapter σ) where
  warmUp a candles := .ok (a.warmUp candles)
  addCandleAndBuild := BacktestSnapshotAdapter.addCandleAndBuild
  warmUpByTimeFrame := some fun a warmup upcoming =>
    (a.warmUpAll warmup).setUpcomingConfirmsByTimeFrame upcoming

/-- `DateRange`, half open. -/
structure DateRange where
  dateFrom : Int
  dateTo : Int
  deriving DecidableEq

/-- `EngineConfig`. -/
structure EngineConfig where
  pair : CurrencyPair
  timeframe : TimeFrame
  dateRange : DateRange
  warmupCount : Nat

/-- `DataProvider`, as one run sees it. -/
structure DataProvider where
  fetchCandles :
    CurrencyPair → TimeFrame → DateRange → Nat → Except String (List ConfirmedCandle)
  fetchTicks : CurrencyPair → DateRange → List Tick

/-- `EquityState` and `MarketState`, each of which may be missing. The rate is missing
until the first bar or tick. -/
structure SharedState where
  equityState : Option ℚ
  marketState : Option (Option ℚ)

/-- `ExecutionSimulator`. The last time is the one at which the order is carried out. -/
structure ExecutionSimulator (ω : Type) where
  simulateEntry : EntryCommand → Price → CurrencyPair → Int → ω → Except String (EntryResult × ω)
  simulateExit : ExitCommand → Price → CurrencyPair → Price → BuySell → Int → ω →
    Except String (ExitResult × ω)

/-- `EngineRunParams`, without what only labels the result. -/
structure EngineRunParams (ω : Type) where
  config : EngineConfig
  entryRule : SharedState → MarketSnapshot → ω → Except String (Option EntryCommand × ω)
  exitRule : SharedState → MarketSnapshot → Position → ω → Except String (Option ExitCommand × ω)
  dataProvider : DataProvider
  executionSimulator : ExecutionSimulator ω
  runId : String
  initialCapital : ℚ
  additionalIndicatorSpecs : List TimeFrameIndicatorSpec
  /-- The arithmetic of the runtime. -/
  numbers : NumberArithmetic := .exact

/-- What a run rejects with. -/
inductive EngineError where
  /-- `OhlcEngine: DataProvider が 0 本の足を返しました` -/
  | noCandles
  /-- `OhlcEngine: warmup に必要な足数が不足しています` -/
  | tooFewCandles (required fetched : Nat)
  /-- `TickEngine: warmup に必要な足数が不足しています` -/
  | shortWarmUp (required fetched : Nat)
  /-- `PendingOrderManager: pending entry が既に存在します（二重受付）` -/
  | pendingEntryExists
  /-- `PendingOrderManager: pending exit が既に存在します（二重受付）` -/
  | pendingExitExists
  /-- `既にクローズ済みのポジションです` -/
  | alreadyClosed
  /-- The non-null assertion on a field of a position that is not set. -/
  | nullField
  | quote (error : QuoteError)
  | candle (error : CandleError)
  | adapter (error : SnapshotAdapterError)
  /-- What the provider, a rule or the simulator throws. -/
  | thrown (message : String)

/-- The error comes from the data, the adapter, a rule or the simulator. -/
def EngineError.Foreign : EngineError → Prop
  | .noCandles | .tooFewCandles _ _ | .shortWarmUp _ _ | .quote _ | .adapter _ | .thrown _ => True
  | .pendingEntryExists | .pendingExitExists | .alreadyClosed | .nullField | .candle _ => False

/-! ## Trade records -/

/-- `TradeRecord`. -/
structure TradeRecord where
  id : PositionId
  runId : String
  tradeSeq : Nat
  side : BuySell
  entryTime : Int
  exitTime : Int
  entryPrice : ℚ
  exitPrice : ℚ
  lot : Nat
  pnl : ℚ
  pnlPips : ℚ
  pnlAmount : ℚ
  capitalAtEntry : ℚ
  mfe : ℚ
  mfePips : ℚ
  mfeTime : Int
  mae : ℚ
  maePips : ℚ
  maeTime : Int
  atrAtEntry : Option ℚ
  holdingPeriodMs : Int
  exitType : ExitType
  entryHourUtc : Int
  entryDayOfWeek : Int
  slippagePips : ℚ
  equityAfter : ℚ

/-- The extremes of a position, with the time they are dated at. -/
structure DatedExtremes where
  highest : Price
  lowest : Price
  mfeTime : Int
  maeTime : Int

/-- `TradeRecordInput`. -/
structure TradeRecordInput where
  position : Position
  runId : String
  tradeSeq : Nat
  extremes : Option DatedExtremes
  capitalAtEntry : ℚ
  slippagePips : ℚ
  equityAfter : ℚ
  pair : CurrencyPair
  atrAtEntry : Option ℚ

/-- `pipValuePerLotJpy`: the yen value of a pip of one unit, at 130 yen to the dollar. -/
def pipValuePerLotJpy (numbers : NumberArithmetic) (pair : CurrencyPair) : ℚ :=
  if pair.quote = .jpy then 1 / 100 else numbers.times (1 / 10000) 130

/-- `pnlPips * pipValuePerLotJpy(pair) * lot`. -/
def pnlAmountOf (numbers : NumberArithmetic) (pnlPips : ℚ) (pair : CurrencyPair) (lot : Nat) : ℚ :=
  numbers.times (numbers.times pnlPips (pipValuePerLotJpy numbers pair)) lot

/-- `value!` on a field that may be null. -/
def nonNull {α : Type} : Option α → Except EngineError α
  | some a => .ok a
  | none => .error .nullField

/-- `buildTradeRecord`. -/
def buildTradeRecord (numbers : NumberArithmetic) (input : TradeRecordInput) :
    Except EngineError TradeRecord := do
  let position := input.position
  let entryTime := position.openedAt
  let exitTime ← nonNull position.closedAt
  let profitLoss ← nonNull position.profitLoss
  let exitPrice ← nonNull position.exitPrice
  let exitType ← nonNull position.exitType
  let pnlPips := profitLoss.value
  let mfe := (position.mfePips.map (·.value)).getD 0
  let mae := (position.maePips.map (·.value)).getD 0
  return {
    id := position.id
    runId := input.runId
    tradeSeq := input.tradeSeq
    side := position.buySell
    entryTime := entryTime
    exitTime := exitTime
    entryPrice := position.entryPrice.value
    exitPrice := exitPrice.value
    lot := position.lot.units
    pnl := pnlPips
    pnlPips := pnlPips
    pnlAmount := pnlAmountOf numbers pnlPips input.pair position.lot.units
    capitalAtEntry := input.capitalAtEntry
    mfe := mfe
    mfePips := mfe
    mfeTime := (input.extremes.map (·.mfeTime)).getD exitTime
    mae := mae
    maePips := mae
    maeTime := (input.extremes.map (·.maeTime)).getD exitTime
    atrAtEntry := input.atrAtEntry
    holdingPeriodMs := exitTime - entryTime
    exitType := exitType
    entryHourUtc := utcHours entryTime
    entryDayOfWeek := utcDay entryTime
    slippagePips := input.slippagePips
    equityAfter := input.equityAfter }

/-! ## The books of a run -/

/-- What the log of a run holds. -/
inductive TradeEvent where
  | opened (position : Position)
  | closed (record : TradeRecord)

/-- The mutable state of a run: the local variables of `run`, the adapter, the shared
state and the world. -/
structure EngineState (α ω : Type) where
  adapter : α
  world : ω
  shared : SharedState
  positions : List (PositionId × Position)
  extremeTracker : ExtremeTracker
  trades : List TradeRecord
  capitalAtEntryMap : List (PositionId × ℚ)
  tradeSeq : Nat
  log : List TradeEvent

namespace EngineState

variable {α ω : Type}

/-- The state before anything has happened. -/
def start (adapter : α) (world : ω) (shared : SharedState) : EngineState α ω where
  adapter := adapter
  world := world
  shared := shared
  positions := []
  extremeTracker := []
  trades := []
  capitalAtEntryMap := []
  tradeSeq := 0
  log := []

/-- `marketState.currentRate = …`, where there is a market state. -/
def setRate (s : EngineState α ω) (rate : ℚ) : EngineState α ω :=
  { s with shared := { s.shared with marketState := s.shared.marketState.map fun _ => some rate } }

/-- `equityState?.equity ?? initialCapital`. -/
def equityOr (s : EngineState α ω) (initialCapital : ℚ) : ℚ :=
  s.shared.equityState.getD initialCapital

/-- Fill an entry and keep the position that it opens. -/
def openPosition (params : EngineRunParams ω) (command : EntryCommand) (executionPrice : Price)
    (executedAt : Int) (s : EngineState α ω) : Except EngineError (EngineState α ω) := do
  let (simResult, world) ← (params.executionSimulator.simulateEntry command executionPrice
    params.config.pair executedAt s.world).mapError .thrown
  let position := Position.openWith command simResult
  return { s with
    world := world
    positions := OrderedMap.set s.positions position.id position
    capitalAtEntryMap :=
      OrderedMap.set s.capitalAtEntryMap position.id (s.equityOr params.initialCapital)
    log := s.log ++ [.opened position] }

/-- The block that closes a position: its extremes, the fill, the equity and the record,
with the extremes dated at `extremesAt`. -/
def closePosition (params : EngineRunParams ω) (command : ExitCommand) (posId : PositionId)
    (position : Position) (executionPrice : Price) (executedAt extremesAt : Int)
    (s : EngineState α ω) : Except EngineError (EngineState α ω) := do
  let extremes := get s.extremeTracker posId
  let position := match extremes with
    | some e => position.applyExtremes e.highest e.lowest
    | none => position
  let (simResult, world) ← (params.executionSimulator.simulateExit command executionPrice
    params.config.pair position.entryPrice position.buySell executedAt s.world).mapError .thrown
  let position ← match position.close command simResult with
    | some closed => .ok closed
    | none => .error .alreadyClosed
  let profitLoss ← nonNull position.profitLoss
  let pnlAmount :=
    pnlAmountOf params.numbers profitLoss.value params.config.pair position.lot.units
  let s := { s with
    world := world
    shared := { s.shared with
      equityState := s.shared.equityState.map (params.numbers.plus · pnlAmount) } }
  let record ← buildTradeRecord params.numbers {
    position := position
    runId := params.runId
    tradeSeq := s.tradeSeq
    extremes := extremes.map fun e => ⟨e.highest, e.lowest, extremesAt, extremesAt⟩
    capitalAtEntry := (get s.capitalAtEntryMap posId).getD params.initialCapital
    slippagePips := 0
    equityAfter := s.equityOr params.initialCapital
    pair := params.config.pair
    atrAtEntry := none }
  return { s with
    trades := s.trades ++ [record]
    tradeSeq := s.tradeSeq + 1
    log := s.log ++ [.closed record] }

/-- The deletions after a position is closed. -/
def forget (s : EngineState α ω) (posId : PositionId) : EngineState α ω :=
  { s with
    positions := delete s.positions posId
    extremeTracker := delete s.extremeTracker posId
    capitalAtEntryMap := delete s.capitalAtEntryMap posId }

/-- `ExitCommand.of` at the end of the data. -/
def forceCloseCommand (posId : PositionId) : ExitCommand where
  positionId := posId
  type := .forceClose
  reason := ⟨"BT 期間終了", by decide⟩

end EngineState

/-! ### What opening and closing do -/

/-- The record describes the position it was made from. -/
structure Records (position : Position) (record : TradeRecord) : Prop where
  id : record.id = position.id
  side : record.side = position.buySell
  lot : record.lot = position.lot.units
  entryTime : record.entryTime = position.openedAt
  entryPrice : record.entryPrice = position.entryPrice.value

/-- The extremes leave everything else of a position alone. -/
theorem Position.applyExtremes_eq (p : Position) (highest lowest : Price) :
    ∃ mfe mae, p.applyExtremes highest lowest = { p with mfePips := mfe, maePips := mae } := by
  unfold Position.applyExtremes
  split
  · exact ⟨p.mfePips, p.maePips, rfl⟩
  · cases p.buySell with
    | buy => exact ⟨_, _, rfl⟩
    | sell => exact ⟨_, _, rfl⟩

/-- The record of a closed position. -/
theorem buildTradeRecord_closed (numbers : NumberArithmetic) (input : TradeRecordInput)
    {exitTime : Int} {profitLoss : Pips} {exitPrice : Price} {exitType : ExitType}
    (hclosed : input.position.closedAt = some exitTime)
    (hpnl : input.position.profitLoss = some profitLoss)
    (hprice : input.position.exitPrice = some exitPrice)
    (htype : input.position.exitType = some exitType) :
    ∃ record, buildTradeRecord numbers input = .ok record ∧ Records input.position record ∧
      record.exitTime = exitTime ∧ record.tradeSeq = input.tradeSeq ∧
      record.pnlAmount =
        pnlAmountOf numbers profitLoss.value input.pair input.position.lot.units ∧
      record.capitalAtEntry = input.capitalAtEntry ∧ record.equityAfter = input.equityAfter := by
  unfold buildTradeRecord
  simp only [hclosed, hpnl, hprice, htype, nonNull]
  exact ⟨_, rfl, ⟨rfl, rfl, rfl, rfl, rfl⟩, rfl, rfl, rfl, rfl, rfl⟩

theorem Position.close_opened {p : Position} (h : p.status = .opened) (command : ExitCommand)
    (result : ExitResult) :
    p.close command result = some { p with
      status := .closed
      exitPrice := some result.exitPrice
      closedAt := some result.executedAt
      exitType := some command.type
      exitReason := some command.reason
      profitLoss := some result.profitLoss } := by
  simp [Position.close, h]

namespace EngineState

variable {α ω : Type}

theorem foreign_ends {ε β : Type} (f : ε → EngineError) (hf : ∀ e, (f e).Foreign)
    (x : Except ε β) : Ends (fun _ => True) EngineError.Foreign (x.mapError f) := by
  cases x with
  | error e => exact hf e
  | ok _ => trivial

/-- What a rule or the simulator throws is foreign. -/
theorem thrown_ends {β : Type} (x : Except String β) :
    Ends (fun _ => True) EngineError.Foreign (x.mapError .thrown) :=
  foreign_ends EngineError.thrown (fun _ => trivial) x

/-- What closing a position leaves: one more record, which describes the position, and its
amount added to the equity. -/
structure Closes (params : EngineRunParams ω) (posId : PositionId) (position : Position)
    (executedAt : Int) (s s' : EngineState α ω) (record : TradeRecord) : Prop where
  records : Records position record
  filled : ∃ command price result, params.executionSimulator.simulateExit command price
    params.config.pair position.entryPrice position.buySell executedAt s.world =
      .ok (result, s'.world) ∧ record.exitTime = result.executedAt
  tradeSeq : record.tradeSeq = s.tradeSeq
  capitalAtEntry : record.capitalAtEntry =
    (get s.capitalAtEntryMap posId).getD params.initialCapital
  equityAfter : record.equityAfter = s'.equityOr params.initialCapital
  state : s' = { s with
    world := s'.world
    shared := { s.shared with
      equityState := s.shared.equityState.map (params.numbers.plus · record.pnlAmount) }
    trades := s.trades ++ [record]
    tradeSeq := s.tradeSeq + 1
    log := s.log ++ [.closed record] }

/-- Closing an open position ends as the simulator does. -/
theorem closePosition_ends_of {params : EngineRunParams ω} {command : ExitCommand}
    (posId : PositionId) {position : Position} (hopen : position.status = .opened)
    {executionPrice : Price} {executedAt : Int} (extremesAt : Int) {s : EngineState α ω}
    {err : EngineError → Prop}
    (hsim : Ends (fun _ => True) err ((params.executionSimulator.simulateExit command
      executionPrice params.config.pair position.entryPrice position.buySell executedAt
        s.world).mapError .thrown)) :
    Ends (fun s' => ∃ record, Closes params posId position executedAt s s' record) err
      (s.closePosition params command posId position executionPrice executedAt extremesAt) := by
  unfold closePosition
  -- from here on the extremes are two fields that nothing below reads
  obtain ⟨mfe, mae, hextremes⟩ : ∃ mfe mae, (match get s.extremeTracker posId with
      | some e => position.applyExtremes e.highest e.lowest
      | none => position) = { position with mfePips := mfe, maePips := mae } := by
    split
    · exact Position.applyExtremes_eq ..
    · exact ⟨position.mfePips, position.maePips, rfl⟩
  dsimp only
  rw [hextremes]
  refine Ends.bind (fun _ => True) hsim ?_
  · rintro ⟨result, world⟩ hsim -
    have hclosed : ({ position with mfePips := mfe, maePips := mae } : Position).status = .opened :=
      hopen
    dsimp only
    rw [Position.close_opened hclosed]
    refine Ends.bind (· = _) rfl ?_
    rintro _ - rfl
    refine Ends.bind (· = result.profitLoss) rfl ?_
    rintro _ - rfl
    dsimp only
    generalize hinput : TradeRecordInput.mk _ _ _ _ _ _ _ _ _ = input
    obtain ⟨record, hrecord, hrecords, hexit, hseq, hpnl, hcapital, hequity⟩ :=
      buildTradeRecord_closed params.numbers input (by rw [← hinput]) (by rw [← hinput])
        (by rw [← hinput]) (by rw [← hinput])
    rw [hrecord]
    subst hinput
    exact ⟨record, ⟨hrecords.1, hrecords.2, hrecords.3, hrecords.4, hrecords.5⟩,
      ⟨command, executionPrice, result, mapError_eq_ok.mp hsim, hexit⟩, hseq, hcapital, hequity,
      by simp only [hpnl]⟩

/-- Closing an open position throws nothing of its own. -/
theorem closePosition_ends (params : EngineRunParams ω) (command : ExitCommand)
    (posId : PositionId) {position : Position} (hopen : position.status = .opened)
    (executionPrice : Price) (executedAt extremesAt : Int) (s : EngineState α ω) :
    Ends (fun s' => ∃ record, Closes params posId position executedAt s s' record)
      EngineError.Foreign
      (s.closePosition params command posId position executionPrice executedAt extremesAt) :=
  closePosition_ends_of posId hopen extremesAt (thrown_ends _)

/-- What filling an entry leaves: one more position, with the capital it started from. -/
structure Opens (params : EngineRunParams ω) (executedAt : Int) (s s' : EngineState α ω)
    (position : Position) : Prop where
  opened : position.status = .opened
  filled : ∃ command price result, params.executionSimulator.simulateEntry command price
    params.config.pair executedAt s.world = .ok (result, s'.world) ∧
      position.openedAt = result.executedAt ∧ position.id = result.positionId
  state : s' = { s with
    world := s'.world
    positions := OrderedMap.set s.positions position.id position
    capitalAtEntryMap :=
      OrderedMap.set s.capitalAtEntryMap position.id (s.equityOr params.initialCapital)
    log := s.log ++ [.opened position] }

theorem openPosition_ends (params : EngineRunParams ω) (command : EntryCommand)
    (executionPrice : Price) (executedAt : Int) (s : EngineState α ω) :
    Ends (fun s' => ∃ position, Opens params executedAt s s' position) EngineError.Foreign
      (s.openPosition params command executionPrice executedAt) := by
  unfold openPosition
  refine Ends.bind (fun _ => True) (thrown_ends _) ?_
  · rintro ⟨result, world⟩ hsim -
    exact ⟨_, rfl, ⟨command, executionPrice, result, mapError_eq_ok.mp hsim, rfl, rfl⟩, rfl⟩

/-- Closing a position leaves the adapter alone, whatever the position. -/
theorem closePosition_adapter (params : EngineRunParams ω) (command : ExitCommand)
    (posId : PositionId) (position : Position) (executionPrice : Price)
    (executedAt extremesAt : Int) (s : EngineState α ω) :
    Ends (fun s' => s'.adapter = s.adapter) (fun _ => True)
      (s.closePosition params command posId position executionPrice executedAt extremesAt) := by
  rw [ends_iff_ok]
  intro s' h
  obtain ⟨⟨simResult, world⟩, -, h⟩ := bind_eq_ok.mp h
  dsimp only at h
  split at h
  · obtain ⟨closed, -, h⟩ := bind_eq_ok.mp h
    obtain ⟨profitLoss, -, h⟩ := bind_eq_ok.mp h
    obtain ⟨record, -, h⟩ := bind_eq_ok.mp h
    cases h
    rfl
  · cases h

theorem openPosition_adapter (params : EngineRunParams ω) (command : EntryCommand)
    (executionPrice : Price) (executedAt : Int) (s : EngineState α ω) :
    Ends (fun s' => s'.adapter = s.adapter) (fun _ => True)
      (s.openPosition params command executionPrice executedAt) := by
  rw [ends_iff_ok]
  intro s' h
  obtain ⟨⟨simResult, world⟩, -, h⟩ := bind_eq_ok.mp h
  cases h
  rfl

/-- At most one position is open, and it is `held`. -/
structure Holds (s : EngineState α ω) (held : Option Position) : Prop where
  positions : s.positions = held.toList.map fun p => (p.id, p)
  opened : ∀ p ∈ held, p.status = .opened

theorem Holds.of_positions {s s' : EngineState α ω} {held : Option Position} (h : s.Holds held)
    (heq : s'.positions = s.positions) : s'.Holds held :=
  ⟨heq.trans h.positions, h.opened⟩

theorem Holds.length_eq_zero {s : EngineState α ω} {held : Option Position} (h : s.Holds held) :
    s.positions.length = 0 ↔ held = none := by
  cases held <;> simp [h.positions]

/-- A loop over the positions does nothing where none is open, … -/
theorem Holds.foldlM_none {β : Type} {s : EngineState α ω} (h : s.Holds none)
    (f : β → PositionId × Position → Except EngineError β) (b : β) :
    s.positions.foldlM f b = .ok b := by
  rw [h.positions]
  rfl

/-- … and else it is one step. -/
theorem Holds.foldlM_some {β : Type} {s : EngineState α ω} {p : Position} (h : s.Holds (some p))
    (f : β → PositionId × Position → Except EngineError β) (b : β) :
    s.positions.foldlM f b = f b (p.id, p) := by
  rw [h.positions]
  simp

theorem Opens.holds {params : EngineRunParams ω} {executedAt : Int} {s s' : EngineState α ω}
    {p : Position} (h : Opens params executedAt s s' p) (hs : s.Holds none) :
    s'.Holds (some p) := by
  refine ⟨?_, fun q hq => ?_⟩
  · rw [h.state]
    simp [hs.positions, OrderedMap.set, has, OrderedMap.get]
  · obtain rfl : p = q := by simpa using hq
    exact h.opened

/-- Once the only position is closed and forgotten, nothing is open. -/
theorem Closes.forget_positions {params : EngineRunParams ω} {executedAt : Int}
    {s s' : EngineState α ω} {p : Position} {record : TradeRecord}
    (h : Closes params p.id p executedAt s s' record) (hs : s.Holds (some p)) :
    (s'.forget p.id).positions = [] := by
  have hpos : s'.positions = s.positions := by rw [h.state]
  simp [forget, delete, hpos, hs.positions]

end EngineState

end Luchida
