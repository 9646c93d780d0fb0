import Luchida.BacktestEngine

/- TickEngine.ts and PendingOrderManager.ts: the backtest over ticks. The rules are asked
   at the tick that confirms a bar, and what they order waits until the delay has passed.
   Each tick then fills the exit and the entry that are due. At the end of the stream a
   waiting exit is filled anyway, a waiting entry is dropped, and what is still open is
   closed at the last tick. -/
namespace Luchida

open OrderedMap Throws EngineState

/-! ## Pending orders -/

/-- `PendingEntry`. -/
structure PendingEntry where
  command : EntryCommand
  fillableAt : Int

/-- `PendingExit`. -/
structure PendingExit where
  command : ExitCommand
  position : Position
  fillableAt : Int

/-- `PendingOrderManager`. -/
structure PendingOrderManager where
  delayMs : Int
  pendingEntry : Option PendingEntry
  pendingExit : Option PendingExit

namespace PendingOrderManager

def new (delayMs : Int) : PendingOrderManager := ⟨delayMs, none, none⟩

def acceptEntryOrder (m : PendingOrderManager) (command : EntryCommand) (tick : Tick) :
    Except EngineError PendingOrderManager :=
  if m.pendingEntry.isSome then .error .pendingEntryExists
  else .ok { m with pendingEntry := some ⟨command, tick.timestamp + m.delayMs⟩ }

def acceptExitOrder (m : PendingOrderManager) (command : ExitCommand) (position : Position)
    (tick : Tick) : Except EngineError PendingOrderManager :=
  if m.pendingExit.isSome then .error .pendingExitExists
  else .ok { m with pendingExit := some ⟨command, position, tick.timestamp + m.delayMs⟩ }

def hasAnyPending (m : PendingOrderManager) : Bool := m.pendingEntry.isSome || m.pendingExit.isSome

/-- The entry that is due at the tick, and the manager without it. -/
def checkEntryFill (m : PendingOrderManager) (tick : Tick) :
    Option PendingEntry × PendingOrderManager :=
  match m.pendingEntry with
  | none => (none, m)
  | some order =>
    if tick.timestamp < order.fillableAt then (none, m)
    else (some order, { m with pendingEntry := none })

/-- The exit that is due at the tick, and the manager without it. -/
def checkExitFill (m : PendingOrderManager) (tick : Tick) :
    Option PendingExit × PendingOrderManager :=
  match m.pendingExit with
  | none => (none, m)
  | some order =>
    if tick.timestamp < order.fillableAt then (none, m)
    else (some order, { m with pendingExit := none })

/-- The exit that is filled at the end of the stream, whenever it was due. -/
def settleAtStreamEnd (m : PendingOrderManager) : Option PendingExit × PendingOrderManager :=
  (m.pendingExit, { m with pendingEntry := none, pendingExit := none })

end PendingOrderManager

/-! ## The engine -/

/-- An order that a rule has placed, with the index and the time of the tick. -/
inductive Decision where
  | entry (index : Nat) (time : Int) (command : EntryCommand)
  | exit (index : Nat) (time : Int) (command : ExitCommand)

/-- The state of a run over ticks. `decisions` records the orders accepted so far. -/
structure TickState (α ω : Type) extends EngineState α ω where
  accumulator : CandleAccumulator
  pendingOrders : PendingOrderManager
  lastTick : Option Tick
  tickCount : Nat
  decisions : List Decision

namespace TickEngine

variable {α ω : Type} [SnapshotAdapter α]

/-- `selectPrice`: a buyer pays the ask, a seller gets the bid. -/
def selectPrice (tick : Tick) : BuySell → Price
  | .buy => tick.ask
  | .sell => tick.bid

/-- Ask the exit rule about one position, and accept its order. -/
def evaluateExit (params : EngineRunParams ω) (snapshot : MarketSnapshot) (tick : Tick)
    (s : TickState α ω) (entry : PositionId × Position) : Except EngineError (TickState α ω) := do
  let (exitResult, world) ← (params.exitRule s.shared snapshot entry.2 s.world).mapError .thrown
  match exitResult with
  | none => return { s with world := world }
  | some command => do
    let pendingOrders ← s.pendingOrders.acceptExitOrder command entry.2 tick
    return { s with
      world := world
      pendingOrders := pendingOrders
      decisions := s.decisions ++ [.exit (s.tickCount - 1) tick.timestamp command] }

/-- Ask the entry rule, if nothing is open and no order waits, and accept its order. -/
def evaluateEntry (params : EngineRunParams ω) (snapshot : MarketSnapshot) (tick : Tick)
    (s : TickState α ω) : Except EngineError (TickState α ω) :=
  if s.positions.length = 0 ∧ s.pendingOrders.hasAnyPending = false then do
    let (entryResult, world) ← (params.entryRule s.shared snapshot s.world).mapError .thrown
    match entryResult with
    | none => return { s with world := world }
    | some command => do
      let pendingOrders ← s.pendingOrders.acceptEntryOrder command tick
      return { s with
        world := world
        pendingOrders := pendingOrders
        decisions := s.decisions ++ [.entry (s.tickCount - 1) tick.timestamp command] }
  else .ok s

/-- What the tick that confirms a bar does: a snapshot, then exits, then the entry. -/
def onConfirmed (params : EngineRunParams ω) (confirmed : ConfirmedCandle) (tick : Tick)
    (s : TickState α ω) : Except EngineError (TickState α ω) := do
  -- the bid stands in for the open of the next bar
  let (snapshot, adapter) ← (SnapshotAdapter.addCandleAndBuild s.adapter confirmed tick
    tick.bid).mapError .adapter
  let s := { s with adapter := adapter }
  let s ← s.positions.foldlM (evaluateExit params snapshot tick) s
  evaluateEntry params snapshot tick s

/-- Feed the tick to the accumulator. -/
def accumulate (params : EngineRunParams ω) (tick : Tick) (s : TickState α ω) :
    Except EngineError (TickState α ω) := do
  let (event, accumulator) ← (s.accumulator.accumulate tick).mapError .candle
  let s := { s with accumulator := accumulator }
  match event, accumulator.lastConfirmed with
  | .confirmed, some confirmed => onConfirmed params confirmed tick s
  | _, _ => return s

/-- Close the position of a filled exit at the tick. -/
def settleExit (params : EngineRunParams ω) (tick : Tick) (order : PendingExit)
    (s : EngineState α ω) : Except EngineError (EngineState α ω) := do
  let s ← s.closePosition params order.command order.position.id order.position
    (selectPrice tick order.position.buySell.opposite) tick.timestamp tick.timestamp
  return s.forget order.position.id

/-- Fill the exit that is due. -/
def fillExit (params : EngineRunParams ω) (tick : Tick) (s : TickState α ω) :
    Except EngineError (TickState α ω) :=
  match s.pendingOrders.checkExitFill tick with
  | (none, _) => .ok s
  | (some order, pendingOrders) => do
    let books ← settleExit params tick order s.toEngineState
    return { s with toEngineState := books, pendingOrders := pendingOrders }

/-- Fill the entry that is due. -/
def fillEntry (params : EngineRunParams ω) (tick : Tick) (s : TickState α ω) :
    Except EngineError (TickState α ω) :=
  match s.pendingOrders.checkEntryFill tick with
  | (none, _) => .ok s
  | (some order, pendingOrders) => do
    let books ← s.toEngineState.openPosition params order.command
      (selectPrice tick order.command.buySell) tick.timestamp
    return { s with toEngineState := books, pendingOrders := pendingOrders }

/-- Track the price of a tick for every open position. -/
def updateExtremes (tick : Tick) (s : TickState α ω) : TickState α ω :=
  { s with
    extremeTracker := s.positions.foldl
      (fun tracker entry => tracker.update entry.1 tick.bid tick.ask entry.2.buySell)
      s.extremeTracker }

/-- The first lines of the loop. -/
def receive (tick : Tick) (s : TickState α ω) : TickState α ω :=
  { s with
    toEngineState := s.toEngineState.setRate tick.bid.value
    lastTick := some tick
    tickCount := s.tickCount + 1 }

/-- One round of the loop. -/
def onTick (params : EngineRunParams ω) (s : TickState α ω) (tick : Tick) :
    Except EngineError (TickState α ω) := do
  let s ← accumulate params tick (receive tick s)
  let s ← fillExit params tick s
  let s ← fillEntry params tick s
  return updateExtremes tick s

/-- Close one position at the last tick. -/
def forceClose (params : EngineRunParams ω) (lastTick : Tick) (s : EngineState α ω)
    (entry : PositionId × Position) : Except EngineError (EngineState α ω) := do
  let s ← s.closePosition params (EngineState.forceCloseCommand entry.2.id) entry.1 entry.2
    (selectPrice lastTick entry.2.buySell.opposite) lastTick.timestamp lastTick.timestamp
  return { s with extremeTracker := delete s.extremeTracker entry.1 }

/-- Close what is still open, and clear the positions. -/
def forceCloseAll (params : EngineRunParams ω) (lastTick : Tick) (s : EngineState α ω) :
    Except EngineError (EngineState α ω) := do
  let s ← s.positions.foldlM (forceClose params lastTick) s
  return { s with positions := [] }

/-- Settle the exit that still waits at the end of the stream. -/
def settleWaiting (params : EngineRunParams ω) (lastTick : Tick) (exitFill : Option PendingExit)
    (s : EngineState α ω) : Except EngineError (EngineState α ω) :=
  match exitFill with
  | none => .ok s
  | some order => settleExit params lastTick order s

/-- The end of the stream: settle the exit that still waits, then close what is open. -/
def finish (params : EngineRunParams ω) (s : TickState α ω) :
    Except EngineError (TickState α ω) :=
  match s.lastTick with
  | none => .ok { s with positions := [] }
  | some lastTick => do
    let (exitFill, pendingOrders) := s.pendingOrders.settleAtStreamEnd
    let books ← settleWaiting params lastTick exitFill s.toEngineState
    let books ← forceCloseAll params lastTick books
    return { s with toEngineState := books, pendingOrders := pendingOrders }

/-- The bars of the warm-up. -/
def fetchWarmUp (params : EngineRunParams ω) : Except EngineError (List ConfirmedCandle) :=
  let { pair, timeframe, dateRange, warmupCount } := params.config
  if 0 < warmupCount then do
    let warmupCandles ← (params.dataProvider.fetchCandles pair timeframe dateRange
      warmupCount).mapError .thrown
    if warmupCandles.length < warmupCount then
      .error (.shortWarmUp warmupCount warmupCandles.length)
    else .ok (warmupCandles.take warmupCount)
  else .ok []

/-- The state in which the loop begins. -/
def begin (params : EngineRunParams ω) (delayMs : Int) (adapter : α) (world : ω)
    (shared : SharedState) : Except EngineError (TickState α ω) := do
  let warmupCandles ← fetchWarmUp params
  let adapter ← (SnapshotAdapter.warmUp adapter warmupCandles).mapError .adapter
  return {
    toEngineState := .start adapter world shared
    accumulator := .new params.config.timeframe
    pendingOrders := .new delayMs
    lastTick := none
    tickCount := 0
    decisions := [] }

/-- The run up to the end of these ticks. -/
def runOver (params : EngineRunParams ω) (delayMs : Int) (adapter : α) (world : ω)
    (shared : SharedState) (ticks : List Tick) : Except EngineError (TickState α ω) := do
  let s ← begin params delayMs adapter world shared
  ticks.foldlM (onTick params) s

/-- `TickEngine.run` with a fresh `PendingOrderManager`, up to the call of `calculate`. -/
def run (params : EngineRunParams ω) (delayMs : Int) (adapter : α) (world : ω)
    (shared : SharedState) : Except EngineError (TickState α ω) := do
  let s ← runOver params delayMs adapter world shared
    (params.dataProvider.fetchTicks params.config.pair params.config.dateRange)
  finish params s

/-! ### What the stages of a tick do -/

/-- What asking the rules may do to the orders: nothing, an exit for the position held
while none waits, or an entry while nothing is held and nothing waits. -/
inductive Asked (tick : Tick) (held : Option Position) :
    PendingOrderManager → PendingOrderManager → Prop
  | nothing (m : PendingOrderManager) : Asked tick held m m
  | exit {m : PendingOrderManager} {p : Position} (command : ExitCommand) :
      held = some p → m.pendingExit = none →
      Asked tick held m
        { m with pendingExit := some ⟨command, p, tick.timestamp + m.delayMs⟩ }
  | entry {m : PendingOrderManager} (command : EntryCommand) :
      held = none → m.pendingEntry = none → m.pendingExit = none →
      Asked tick held m { m with pendingEntry := some ⟨command, tick.timestamp + m.delayMs⟩ }

/-- An entry waits only while nothing is held and no exit waits, and an exit only for the
position held. -/
structure Orders (held : Option Position) (m : PendingOrderManager) : Prop where
  entry : m.pendingEntry.isSome = true → held = none ∧ m.pendingExit = none
  exit : ∀ o ∈ m.pendingExit, held = some o.position

theorem Orders.new (delayMs : Int) : Orders none (.new delayMs) :=
  ⟨by simp [PendingOrderManager.new], by simp [PendingOrderManager.new]⟩

theorem Orders.asked {tick : Tick} {held : Option Position} {m m' : PendingOrderManager}
    (h : Orders held m) (ha : Asked tick held m m') : Orders held m' := by
  cases ha with
  | nothing => exact h
  | @exit p command hheld hexit =>
    refine ⟨fun hentry => ?_, fun o ho => ?_⟩
    · exact absurd ((h.entry hentry).1.symm.trans hheld) (by simp)
    · obtain rfl := Option.some.inj ho
      exact hheld
  | entry command hheld hentry hexit =>
    refine ⟨fun _ => ⟨hheld, hexit⟩, fun o ho => ?_⟩
    exact absurd (hexit.symm.trans ho) (by simp)

theorem Orders.exitFilled {held : Option Position} {m : PendingOrderManager} (h : Orders held m)
    (hsome : m.pendingExit.isSome = true) : Orders none { m with pendingExit := none } := by
  refine ⟨fun hentry => ?_, by simp⟩
  rw [(h.entry hentry).2] at hsome
  simp at hsome

theorem Orders.entryFilled {held : Option Position} {m : PendingOrderManager} (h : Orders held m)
    (hsome : m.pendingEntry.isSome = true) (p : Position) :
    Orders (some p) { m with pendingEntry := none } :=
  ⟨by simp, fun o ho => absurd ((h.entry hsome).2.symm.trans ho) (by simp)⟩

/-- The state differs in what the adapter and the rules have changed, and in the orders. -/
structure Heard (tick : Tick) (held : Option Position) (s s' : TickState α ω) : Prop where
  books : s'.toEngineState = { s.toEngineState with adapter := s'.adapter, world := s'.world }
  accumulator : s'.accumulator = s.accumulator
  lastTick : s'.lastTick = s.lastTick
  orders : Asked tick held s.pendingOrders s'.pendingOrders

/-- The one error of the engine's own: an exit that is ordered while another waits. -/
def DoubleExit (s : TickState α ω) (e : EngineError) : Prop :=
  e.Foreign ∨ e = .pendingExitExists ∧ s.pendingOrders.pendingExit.isSome = true

omit [SnapshotAdapter α] in
theorem evaluateExit_ends (params : EngineRunParams ω) (snapshot : MarketSnapshot) (tick : Tick)
    (s : TickState α ω) (p : Position) :
    Ends (Heard tick (some p) s) (DoubleExit s)
      (evaluateExit params snapshot tick s (p.id, p)) := by
  unfold evaluateExit
  refine Ends.bind (fun _ => True) ((thrown_ends _).imp_error fun _ => .inl) ?_
  rintro ⟨exitResult, world⟩ - -
  cases exitResult with
  | none => exact ⟨rfl, rfl, rfl, .nothing _⟩
  | some command =>
    dsimp only [PendingOrderManager.acceptExitOrder]
    split
    · rename_i hsome
      exact .inr ⟨rfl, hsome⟩
    · rename_i hnone
      exact ⟨rfl, rfl, rfl, .exit command rfl (by simpa using hnone)⟩

omit [SnapshotAdapter α] in
/-- The entry rule is asked only where its order can be accepted. -/
theorem evaluateEntry_ends (params : EngineRunParams ω) (snapshot : MarketSnapshot) (tick : Tick)
    {s : TickState α ω} {held : Option Position} (hs : s.Holds held) :
    Ends (fun s' => Heard tick held s s' ∧ (held.isSome = true → s' = s)) EngineError.Foreign
      (evaluateEntry params snapshot tick s) := by
  unfold evaluateEntry
  split
  · rename_i hfree
    obtain ⟨hnone, hpending⟩ := hfree
    obtain rfl := hs.length_eq_zero.mp hnone
    obtain ⟨hentry, hexit⟩ : s.pendingOrders.pendingEntry = none ∧
        s.pendingOrders.pendingExit = none := by
      simpa [PendingOrderManager.hasAnyPending] using hpending
    refine Ends.bind (fun _ => True) (thrown_ends _) ?_
    rintro ⟨entryResult, world⟩ - -
    cases entryResult with
    | none => exact ⟨⟨rfl, rfl, rfl, .nothing _⟩, by simp⟩
    | some command =>
      simp only [PendingOrderManager.acceptEntryOrder, hentry, Option.isSome_none,
        Bool.false_eq_true, ↓reduceIte]
      exact ⟨⟨rfl, rfl, rfl, .entry command rfl hentry hexit⟩, by simp⟩
  · exact ⟨⟨rfl, rfl, rfl, .nothing _⟩, fun _ => rfl⟩

omit [SnapshotAdapter α] in
theorem evaluateExits_ends (params : EngineRunParams ω) (snapshot : MarketSnapshot) (tick : Tick)
    {s : TickState α ω} {held : Option Position} (hs : s.Holds held) :
    Ends (fun s' => Heard tick held s s' ∧ (held = none → s' = s)) (DoubleExit s)
      (s.positions.foldlM (evaluateExit params snapshot tick) s) := by
  rw [hs.positions]
  cases held with
  | none => exact ⟨⟨rfl, rfl, rfl, .nothing _⟩, fun _ => rfl⟩
  | some p =>
    simp only [Option.toList_some, List.map_cons, List.map_nil, List.foldlM_cons, List.foldlM_nil,
      bind_pure]
    exact (evaluateExit_ends params snapshot tick s p).imp fun s' h => ⟨h, by simp⟩

theorem onConfirmed_ends (params : EngineRunParams ω) (confirmed : ConfirmedCandle) (tick : Tick)
    {s : TickState α ω} {held : Option Position} (hs : s.Holds held) :
    Ends (Heard tick held s) (DoubleExit s) (onConfirmed params confirmed tick s) := by
  unfold onConfirmed
  refine Ends.bind (fun _ => True)
    ((foreign_ends EngineError.adapter (fun _ => trivial) _).imp_error fun _ => .inl) ?_
  rintro ⟨snapshot, adapter⟩ - -
  have hs₁ : ({ s with adapter := adapter } : TickState α ω).Holds held := hs.of_positions rfl
  refine Ends.bind _ (evaluateExits_ends params snapshot tick hs₁) ?_
  rintro s₂ - ⟨⟨hbooks, hacc, hlast, horders⟩, hsame⟩
  have hs₂ : s₂.Holds held := hs₁.of_positions (by rw [hbooks])
  refine ((evaluateEntry_ends params snapshot tick hs₂).imp ?_).imp_error fun _ => .inl
  rintro s₃ ⟨⟨hbooks', hacc', hlast', horders'⟩, hsame'⟩
  -- of the two rules only one was asked
  cases held with
  | none =>
    obtain rfl := hsame rfl
    exact ⟨hbooks', hacc', hlast', horders'⟩
  | some p =>
    obtain rfl := hsame' rfl
    exact ⟨hbooks, hacc, hlast, horders⟩

/-- What feeding the accumulator leaves. Orders are placed only where it confirms a bar. -/
structure Accumulates (tick : Tick) (held : Option Position) (s s' : TickState α ω) : Prop where
  books : s'.toEngineState = { s.toEngineState with adapter := s'.adapter, world := s'.world }
  lastTick : s'.lastTick = s.lastTick
  event : ∃ event, CandleAccumulator.Accumulated s.accumulator tick event s'.accumulator ∧
    (event = .updated → s'.pendingOrders = s.pendingOrders)
  orders : Asked tick held s.pendingOrders s'.pendingOrders

theorem accumulate_ends (params : EngineRunParams ω) (tick : Tick) {s : TickState α ω}
    {held : Option Position} (hs : s.Holds held) :
    Ends (Accumulates tick held s)
      (fun e => DoubleExit s e ∧
        ∃ acc, CandleAccumulator.Accumulated s.accumulator tick .confirmed acc)
      (accumulate params tick s) := by
  obtain ⟨event, acc, hacc, hcases⟩ := s.accumulator.accumulate_cases tick
  unfold accumulate
  rw [hacc]
  refine Ends.bind (· = (event, acc)) rfl ?_
  rintro _ - rfl
  dsimp only
  cases hcases with
  | first hf => exact ⟨rfl, rfl, ⟨_, .first hf, fun _ => rfl⟩, .nothing _⟩
  | same hf hb htf hl hf' ho =>
    exact ⟨rfl, rfl, ⟨_, .same hf hb htf hl hf' ho, fun _ => rfl⟩, .nothing _⟩
  | @next f c hf hb ho hc htf =>
    have hnext := CandleAccumulator.Accumulated.next hf hb ho hc htf
    have hconfirmed := onConfirmed_ends params c tick
      (s := { s with accumulator := s.accumulator.reopen tick (some c) }) (hs.of_positions rfl)
    refine (hconfirmed.imp ?_).imp_error fun e he => ⟨he, _, hnext⟩
    rintro s' ⟨hbooks, hs', hlast, horders⟩
    exact ⟨hbooks, hlast, ⟨.confirmed, hs' ▸ hnext, by simp⟩, horders⟩

omit [SnapshotAdapter α] in
theorem settleExit_ends (params : EngineRunParams ω) (tick : Tick) (o : PendingExit)
    (s : EngineState α ω) (hopen : o.position.status = .opened) :
    Ends (fun s' => ∃ closed record,
        Closes params o.position.id o.position tick.timestamp s closed record ∧
          s' = closed.forget o.position.id) EngineError.Foreign (settleExit params tick o s) := by
  unfold settleExit
  refine Ends.bind _ (closePosition_ends params o.command _ hopen _ _ _ _) ?_
  rintro closed - ⟨record, hcloses⟩
  exact ⟨closed, record, hcloses, rfl⟩

omit [SnapshotAdapter α] in
/-- The waiting exit, once due, closes the position held. -/
theorem fillExit_ends (params : EngineRunParams ω) (tick : Tick) {s : TickState α ω}
    {held : Option Position} (hs : s.Holds held)
    (hexit : ∀ o ∈ s.pendingOrders.pendingExit, held = some o.position) :
    Ends (fun s' =>
      (s' = s ∧ ∀ o ∈ s.pendingOrders.pendingExit, tick.timestamp < o.fillableAt) ∨
        ∃ o closed record, s.pendingOrders.pendingExit = some o ∧ o.fillableAt ≤ tick.timestamp ∧
          Closes params o.position.id o.position tick.timestamp s.toEngineState closed record ∧
          s' = { s with
            toEngineState := closed.forget o.position.id
            pendingOrders := { s.pendingOrders with pendingExit := none } })
      EngineError.Foreign (fillExit params tick s) := by
  unfold fillExit PendingOrderManager.checkExitFill
  cases horder : s.pendingOrders.pendingExit with
  | none => exact .inl ⟨rfl, by simp⟩
  | some o =>
    dsimp only
    by_cases hlt : tick.timestamp < o.fillableAt
    · rw [if_pos hlt]
      exact .inl ⟨rfl, by simpa using hlt⟩
    · rw [if_neg hlt]
      have hopen : o.position.status = .opened := hs.opened _ (hexit o horder)
      refine Ends.bind _ (settleExit_ends params tick o _ hopen) ?_
      rintro books - ⟨closed, record, hcloses, rfl⟩
      exact .inr ⟨o, closed, record, rfl, not_lt.mp hlt, hcloses, rfl⟩

omit [SnapshotAdapter α] in
/-- The waiting entry, once due, opens a position. -/
theorem fillEntry_ends (params : EngineRunParams ω) (tick : Tick) (s : TickState α ω) :
    Ends (fun s' =>
      (s' = s ∧ ∀ o ∈ s.pendingOrders.pendingEntry, tick.timestamp < o.fillableAt) ∨
        ∃ o p books, s.pendingOrders.pendingEntry = some o ∧ o.fillableAt ≤ tick.timestamp ∧
          Opens params tick.timestamp s.toEngineState books p ∧
          s' = { s with
            toEngineState := books
            pendingOrders := { s.pendingOrders with pendingEntry := none } })
      EngineError.Foreign (fillEntry params tick s) := by
  unfold fillEntry PendingOrderManager.checkEntryFill
  cases horder : s.pendingOrders.pendingEntry with
  | none => exact .inl ⟨rfl, by simp⟩
  | some o =>
    dsimp only
    by_cases hlt : tick.timestamp < o.fillableAt
    · rw [if_pos hlt]
      exact .inl ⟨rfl, by simpa using hlt⟩
    · rw [if_neg hlt]
      refine Ends.bind _ (openPosition_ends params o.command _ _ _) ?_
      rintro books - ⟨p, hopens⟩
      exact .inr ⟨o, p, books, rfl, not_lt.mp hlt, hopens, rfl⟩

end TickEngine

end Luchida
