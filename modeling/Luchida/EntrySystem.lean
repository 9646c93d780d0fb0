import Luchida.EntryExecution
import Luchida.Runs
import Luchida.SmaCrossRule
import Luchida.TradingSession

/- The entry side of the live system: the session hands a snapshot to
   `PositionManager.handleSignals`, which puts commands on the `EntryQueue`, whose timer
   drains them one by one into the broker and the tables.

   A label is one step of one party. What happens between two `await`s is one step, and
   every reply is a label of its own, so a run is any interleaving with any delays: a
   query is served before its caller resumes, and the broker opens a position before
   `placeEntry` answers. The exits of the session, the emergency path and the sync appear
   as what they do to positions: the broker closes one, and later a row becomes CLOSED.

   `EntryView` is what of this matters for a count of entries: the signals that are
   cleared, waiting and in flight, the positions opened, and the rows. Every step of the
   system is a move of the view (`moves_of_step`). -/
namespace Luchida

/-! ## Signals and phases -/

/-- What `detect` throws. -/
inductive DetectError where
  | ruleThrew
  | duplicateSignal (strategy : StrategyName)
  deriving DecidableEq

/-- `DetectedSignals` with the commands of the rules, one for each strategy. -/
structure Detection where
  baseCommands : List EntryCommand
  keyed : (baseCommands.map (·.strategyName)).Nodup

/-- The commands among what the rules returned, up to the first that threw. -/
def entryCommands : List RuleResult → Except DetectError (List EntryCommand)
  | [] => .ok []
  | .threw :: _ => .error .ruleThrew
  | .doNothing :: rest => entryCommands rest
  | .entry c :: rest => (entryCommands rest).map (c :: ·)

/-- `PositionManager.detect`. -/
def detect (results : List RuleResult) : Except DetectError (Option Detection) :=
  match entryCommands results with
  | .error e => .error e
  | .ok [] => .ok none
  | .ok (c :: rest) =>
    match h : firstRepeated [] ((c :: rest).map (·.strategyName)) with
    | some s => .error (.duplicateSignal s)
    | none => .ok (some ⟨c :: rest, firstRepeated_none_iff.mp h⟩)

/-- What the loop of step 6 in `handleSignals` works on. -/
structure EnqueueWork where
  snapshot : MarketSnapshot
  baseCommands : List EntryCommand
  currentPositions : List Position
  sizing : SizingResult

/-- One turn of that loop, waiting for `findOpenByPairAndStrategy`. -/
structure EnqueueTurn where
  work : EnqueueWork
  strategy : StrategyName
  lot : Lot
  base : EntryCommand
  rest : List (StrategyName × Lot)

/-- What the check before `enqueue` was answered. -/
inductive PrecheckReply where
  | failed
  | found (existing : Position)
  | absent

/-- How far `process` has come with a snapshot. -/
inductive EntryPhase where
  /-- `extremesUpdater.update` and `exitDispatcher.dispatch`. -/
  | exiting (snapshot : MarketSnapshot)
  | awaitingBalance (snapshot : MarketSnapshot) (detection : Detection)
  | awaitingPositions (snapshot : MarketSnapshot) (detection : Detection) (balance : Money)
  | awaitingSizing (snapshot : MarketSnapshot) (detection : Detection)
      (currentPositions : List Position) (allocation : LotAllocation)
  | awaitingPrecheck (turn : EnqueueTurn)
  /-- The query is answered, its caller has not resumed. -/
  | prechecked (turn : EnqueueTurn) (reply : PrecheckReply)

/-! ## The system -/

/-- The confirmed bar of the trade time frame that a snapshot shows. -/
def MarketSnapshot.tradeBar (snapshot : MarketSnapshot) : Int :=
  (snapshot.snapshotOf tradeTimeFrame).confirmed.openTime

/-- What a signal is about. -/
structure Ticket where
  pair : CurrencyPair
  strategyName : StrategyName
  bar : Int
  deriving DecidableEq

/-- An entry of the queue with the bar its snapshot showed. -/
structure TicketedEntry where
  entry : QueuedEntry
  bar : Int

def TicketedEntry.ticket (e : TicketedEntry) : Ticket :=
  ⟨e.entry.command.pair, e.entry.command.strategyName, e.bar⟩

/-- How far `drainOne` has come. -/
inductive DrainPhase where
  | idle
  /-- `placeEntry` is sent; `opened` is the position once the broker has it. -/
  | placing (entry : TicketedEntry) (opened : Option PositionId)
  | insertingPosition (entry : TicketedEntry) (result : EntryResult)
  | insertingSnapshot (entry : TicketedEntry) (result : EntryResult)

/-- A position that the broker has opened. -/
structure BrokerEntry where
  id : PositionId
  ticket : Ticket
  live : Bool
  deriving DecidableEq

/-- The entry once the broker has closed the position of that id. -/
def BrokerEntry.close (id : PositionId) (e : BrokerEntry) : BrokerEntry :=
  if e.id = id then { e with live := false } else e

@[simp] theorem BrokerEntry.close_id (e : BrokerEntry) (id : PositionId) :
    (e.close id).id = e.id := by
  unfold close
  split <;> rfl

@[simp] theorem BrokerEntry.close_ticket (e : BrokerEntry) (id : PositionId) :
    (e.close id).ticket = e.ticket := by
  unfold close
  split <;> rfl

theorem BrokerEntry.live_of_close {e : BrokerEntry} {id : PositionId}
    (h : (e.close id).live = true) : e.live = true := by
  unfold close at h
  split at h
  · cases h
  · exact h

structure EntryConfig where
  pair : CurrencyPair
  ttlMs : Int

structure EntrySystem where
  session : TradingSession EntryPhase
  queue : List TicketedEntry
  queueStopped : Bool
  drain : DrainPhase
  db : Database
  opened : List BrokerEntry

/-- How the exits of a snapshot end, and what `handleSignals` meets up to its first
`await`. -/
inductive ExitsOutcome where
  | threw
  /-- The kill switch fires. -/
  | killed
  /-- `admitEntry` blocks. -/
  | blocked
  | ruled (results : List RuleResult)

inductive EntryLabel where
  | onMarketData (snapshot : MarketSnapshot)
  | exitsDone (outcome : ExitsOutcome)
  /-- `freshNow`. -/
  | balance (reply : Option Money)
  /-- `openPositions`. -/
  | openPositions (served : Bool)
  /-- `executeWithFresh`. -/
  | sizing (reply : Option SizingResult)
  /-- `findOpenByPairAndStrategy` is served. -/
  | precheck (served : Bool)
  /-- Its caller resumes. -/
  | resume (now : Int)
  | drain (now : Int)
  | brokerOpens (id : PositionId)
  | placeEntryResolves (entryPrice : Price) (executedAt : Int)
  | placeEntryRejects
  | insertPosition (reply : DbReply)
  | insertSnapshot (reply : DbReply)
  | brokerCloses (id : PositionId)
  /-- `update` writes a position that was closed. -/
  | exitRecorded (closed : Position)
  | markClosed (id : PositionId) (now : Int)
  | stop
  | stopQueue
  /-- One turn of `dropAllAtShutdown`. -/
  | dropQueued

/-! ### handleSignals -/

/-- The strategies that are left, up to the first that waits for the database. One that
already holds a position in memory is skipped. -/
def EnqueueWork.nextTurn (work : EnqueueWork) (pair : CurrencyPair) :
    List (StrategyName × Lot) → Option EnqueueTurn
  | [] => none
  | (strategy, lot) :: rest =>
    match work.baseCommands.find? (fun c => c.strategyName == strategy) with
    | none => work.nextTurn pair rest
    | some base =>
      if holdsStrategyOnPair work.currentPositions pair strategy then work.nextTurn pair rest
      else some ⟨work, strategy, lot, base, rest⟩

/-- The command of one turn. -/
def EnqueueTurn.command (turn : EnqueueTurn) (pair : CurrencyPair) : EntryCommand where
  pair := pair
  buySell := turn.base.buySell
  lot := turn.lot
  reason := turn.base.reason
  convictionScore := turn.base.convictionScore
  strategyName := turn.strategy
  entrySnapshot := turn.base.entrySnapshot
  requiredMargin := turn.work.sizing.requiredMarginFor turn.lot
  margin_nonneg := turn.work.sizing.requiredMarginFor_nonneg turn.lot

def EnqueueTurn.ticket (turn : EnqueueTurn) (pair : CurrencyPair) : Ticket :=
  ⟨pair, turn.strategy, turn.work.snapshot.tradeBar⟩

/-- Steps 3 and 4: `AllocationContext.of`, `decide`, and on to the sizing unless
everything is suppressed. -/
def decideAllocation (pair : CurrencyPair) (snapshot : MarketSnapshot) (detection : Detection)
    (balance : Money) (currentPositions : List Position) : Option EntryPhase :=
  if balance.currency ≠ pair.quote then none
  else match EqualWeightAllocationPolicy.decide pair (detection.baseCommands.map (·.strategyName))
      detection.keyed currentPositions with
    | .error _ => none
    | .ok allocation =>
      if allocation.isFullySuppressed then none
      else some (.awaitingSizing snapshot detection currentPositions allocation)

/-- Step 5 and the first turn of step 6. -/
def applyLots (pair : CurrencyPair) (snapshot : MarketSnapshot) (detection : Detection)
    (currentPositions : List Position) (allocation : LotAllocation) (sizing : SizingResult) :
    Option EnqueueTurn :=
  match allocation.apply sizing.lot with
  | .error _ => none
  | .ok lots =>
    if LotAllocation.exceedsSingleLotLimit lots then none
    else EnqueueWork.nextTurn ⟨snapshot, detection.baseCommands, currentPositions, sizing⟩ pair lots

namespace EntrySystem

/-- On to another phase, or done with the snapshot. -/
def proceed (s : EntrySystem) : Option EntryPhase → EntrySystem
  | some phase => { s with session := s.session.goto phase }
  | none => { s with session := s.session.settle .exiting }

def exitsDone (s : EntrySystem) (snapshot : MarketSnapshot) : ExitsOutcome → EntrySystem
  | .threw | .blocked => s.proceed none
  | .killed => { s with session := s.session.stop.settle .exiting }
  | .ruled results =>
    match detect results with
    | .error _ | .ok none => s.proceed none
    | .ok (some detection) => s.proceed (some (.awaitingBalance snapshot detection))

/-- The answer of `findOpenByPairAndStrategy`. -/
def precheckReply (s : EntrySystem) (pair : CurrencyPair) (strategy : StrategyName) :
    Bool → PrecheckReply
  | false => .failed
  | true => match s.db.findOpenByPairAndStrategy pair strategy with
    | .error _ => .failed
    | .ok none => .absent
    | .ok (some existing) => .found existing

/-- `enqueue`, which ignores the command once the queue is stopped. -/
def enqueue (s : EntrySystem) (entry : TicketedEntry) : EntrySystem :=
  if s.queueStopped = true then s else { s with queue := s.queue ++ [entry] }

/-- The rest of `enqueueFor` after the check, and the next turn of the loop. -/
def resume (s : EntrySystem) (pair : CurrencyPair) (turn : EnqueueTurn) (now : Int) :
    PrecheckReply → EntrySystem
  -- nothing was found a moment ago: between this and the row nobody looks again
  | .absent => (s.enqueue ⟨⟨turn.command pair, now⟩, turn.work.snapshot.tradeBar⟩).proceed
      ((turn.work.nextTurn pair turn.rest).map .awaitingPrecheck)
  | .failed | .found _ => s.proceed ((turn.work.nextTurn pair turn.rest).map .awaitingPrecheck)

def stepSession (config : EntryConfig) (s : EntrySystem) (phase : EntryPhase) :
    EntryLabel → Option EntrySystem
  | .exitsDone outcome => match phase with
    | .exiting snapshot => some (s.exitsDone snapshot outcome)
    | _ => none
  | .balance reply => match phase with
    | .awaitingBalance snapshot detection =>
      some (s.proceed (reply.map (.awaitingPositions snapshot detection)))
    | _ => none
  | .openPositions served => match phase with
    | .awaitingPositions snapshot detection balance => some (s.proceed
        (if served then decideAllocation config.pair snapshot detection balance s.db.openPositions
        else none))
    | _ => none
  | .sizing reply => match phase with
    | .awaitingSizing snapshot detection currentPositions allocation => some (s.proceed
        ((reply.bind (applyLots config.pair snapshot detection currentPositions allocation)).map
          .awaitingPrecheck))
    | _ => none
  | .precheck served => match phase with
    | .awaitingPrecheck turn =>
      some (s.proceed (some (.prechecked turn (s.precheckReply config.pair turn.strategy served))))
    | _ => none
  | .resume now => match phase with
    | .prechecked turn reply => some (s.resume config.pair turn now reply)
    | _ => none
  | _ => none

/-! ### EntryQueue -/

/-- `drain` at time `now`, up to the first `await` of `drainOne`. -/
def drainAt (config : EntryConfig) (s : EntrySystem) (now : Int) : Option EntrySystem :=
  match s.drain, s.queue, s.queueStopped with
  | .idle, head :: rest, false =>
    -- expired: dropped, and `notifyEntryExpired`
    if now - head.entry.submittedAt > config.ttlMs then some { s with queue := rest }
    else some { s with queue := rest, drain := .placing head none }
  | _, _, _ => none

/-- The id is none that the broker has given out. -/
def Fresh (s : EntrySystem) (id : PositionId) : Prop := ∀ e ∈ s.opened, e.id ≠ id

instance (s : EntrySystem) (id : PositionId) : Decidable (s.Fresh id) :=
  inferInstanceAs (Decidable (∀ e ∈ s.opened, _))

/-- The broker holds the position. -/
def Holds (s : EntrySystem) (id : PositionId) : Prop := ∃ e ∈ s.opened, e.id = id ∧ e.live = true

instance (s : EntrySystem) (id : PositionId) : Decidable (s.Holds id) :=
  inferInstanceAs (Decidable (∃ e ∈ s.opened, _))

def stepDrain (s : EntrySystem) : DrainPhase → EntryLabel → Option EntrySystem
  | .placing entry none, .brokerOpens id =>
    if s.Fresh id then some { s with
      drain := .placing entry (some id)
      opened := ⟨id, entry.ticket, true⟩ :: s.opened }
    else none
  | .placing entry (some id), .placeEntryResolves entryPrice executedAt =>
    some { s with drain := .insertingPosition entry ⟨id, entryPrice, executedAt⟩ }
  -- the caller drops the signal even where the broker has opened the position
  | .placing _ _, .placeEntryRejects => some { s with drain := .idle }
  | .insertingPosition entry result, .insertPosition reply =>
    let position := { Position.openWith entry.entry.command result with status := .opened }
    match s.db.write (s.db.insertPosition position) reply with
    | (true, db) => some { s with db := db, drain := .insertingSnapshot entry result }
    | (false, db) => some { s with db := db, drain := .idle }
  | .insertingSnapshot entry result, .insertSnapshot reply =>
    let attempt := s.db.insertSnapshot result.positionId entry.entry.command.entrySnapshot
    some { s with db := (s.db.write attempt reply).2, drain := .idle }
  | _, _ => none

/-- The broker closes a position. -/
def close (s : EntrySystem) (id : PositionId) : EntrySystem :=
  { s with opened := s.opened.map (·.close id) }

def step (config : EntryConfig) (s : EntrySystem) : EntryLabel → Option EntrySystem
  | .onMarketData snapshot =>
    some { s with session := s.session.onMarketData config.pair .exiting snapshot }
  | .drain now => s.drainAt config now
  | .brokerCloses id => if s.Holds id then some (s.close id) else none
  | .exitRecorded closed =>
    if closed.status = .closed ∧ ¬ s.Holds closed.id then some { s with db := s.db.update closed }
    else none
  | .markClosed id now =>
    if s.Holds id then none else some { s with db := s.db.markClosed id now }
  | .stop => some { s with session := s.session.stop }
  | .stopQueue => if s.session.stopped = true then some { s with queueStopped := true } else none
  | .dropQueued => match s.drain, s.queue, s.queueStopped with
    | .idle, _ :: rest, true => some { s with queue := rest }
    | _, _, _ => none
  | .brokerOpens id => s.stepDrain s.drain (.brokerOpens id)
  | .placeEntryResolves entryPrice executedAt =>
    s.stepDrain s.drain (.placeEntryResolves entryPrice executedAt)
  | .placeEntryRejects => s.stepDrain s.drain .placeEntryRejects
  | .insertPosition reply => s.stepDrain s.drain (.insertPosition reply)
  | .insertSnapshot reply => s.stepDrain s.drain (.insertSnapshot reply)
  | a => s.session.phase.bind (fun phase => s.stepSession config phase a)

end EntrySystem

end Luchida
