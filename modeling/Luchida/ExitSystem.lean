import Mathlib.Data.List.Sort
import Luchida.ExitGuards
import Luchida.PositionRepository
import Luchida.Runs
import Luchida.TradingSession

/- The exit side of the live system: `ExitDispatcher.dispatch` with `ExitExecution`, the
   `ExitCompensationQueue` and its timer, `EmergencyCloseAllUseCase`, and the writes of the
   sync, all on one broker and one table.

   A label is one step of one party. A query or a statement is served by one label and its
   caller resumes by another, so the other parties can act in between; the answers of the
   exit rules come with the label under which the dispatch runs on. `log` is what the
   broker saw: each `placeExit` that was sent and each that resolved. -/
namespace Luchida

/-! ## Phases -/

/-- A position after `Position.close`. -/
structure ClosedPosition where
  position : Position
  closed : position.status = .closed

/-- `Position.close`, which throws on a position that is closed already. -/
def ClosedPosition.of? (p : Position) (command : ExitCommand) (result : ExitResult) :
    Option ClosedPosition :=
  match h : p.close command result with
  | none => none
  | some p' => some ⟨p', (Position.close_eq_some h).2⟩

/-- A position as `openPositions` reads it. -/
structure OpenPosition where
  position : Position
  opened : position.status = .opened

/-- The rows of `openPositions`, each with what it was selected by. -/
def Database.openRows (db : Database) : List OpenPosition :=
  db.openPositions.attach.map fun p => ⟨p.1, by simpa using (List.mem_filter.mp p.2).2⟩

/-- `Position.close` does not throw on a position that is OPEN. -/
theorem OpenPosition.close_isSome (p : OpenPosition) (command : ExitCommand)
    (result : ExitResult) : (p.position.close command result).isSome = true :=
  (Position.close_isSome_iff ..).mpr p.opened

def OpenPosition.close (p : OpenPosition) (command : ExitCommand) (result : ExitResult) :
    ClosedPosition where
  position := (p.position.close command result).get (p.close_isSome command result)
  closed := (Position.close_eq_some (Option.some_get _).symm).2

theorem OpenPosition.close_id (p : OpenPosition) (command : ExitCommand) (result : ExitResult) :
    (p.close command result).position.id = p.position.id :=
  (Position.close_eq_some (Option.some_get (p.close_isSome command result)).symm).1

theorem ClosedPosition.of?_id {p : Position} {command : ExitCommand} {result : ExitResult}
    {closed : ClosedPosition} (h : ClosedPosition.of? p command result = some closed) :
    closed.position.id = p.id := by
  unfold ClosedPosition.of? at h
  split at h
  · cases h
  · rename_i p' hp'
    cases h
    exact (Position.close_eq_some hp').1

/-- What the exit rule of a position says. -/
inductive ExitAnswer where
  /-- No rule is registered for the strategy. -/
  | missing
  | threw
  | doNothing
  | exit (command : ExitCommand)

inductive SkipReason where
  | ruleMissing
  | extremesUnavailable
  | compensationPending
  | failureCooldown
  deriving DecidableEq, Repr

/-- `ExitDispatchResult`. -/
structure ExitDispatchResult where
  closed : List PositionId
  skipped : List (PositionId × StrategyName × SkipReason)
  failed : List (PositionId × StrategyName)

/-- A dispatch with the positions that await their turn. -/
structure DispatchRun where
  snapshot : MarketSnapshot
  rest : List Position
  result : ExitDispatchResult

/-- The turn of one position whose rule has said to exit. -/
structure ExitTurn where
  run : DispatchRun
  position : Position
  command : ExitCommand
  extremes : ExtremesSnapshot

/-- How far `process` has come with a snapshot. -/
inductive ExitPhase where
  /-- `extremesUpdater.update` reads the OPEN positions. -/
  | updatingExtremes (snapshot : MarketSnapshot)
  /-- `dispatch` reads them. -/
  | reading (snapshot : MarketSnapshot)
  | listed (snapshot : MarketSnapshot) (rows : List Position)
  /-- `findById`; the reply is there once it is served. -/
  | finding (turn : ExitTurn) (reply : Option (Option Position))
  | placing (turn : ExitTurn) (position : Position)
  /-- `update`; the reply says whether it resolved. -/
  | updating (turn : ExitTurn) (closed : ClosedPosition) (reply : Option Bool)
  | notifying (turn : ExitTurn)
  /-- `handleSignals`. -/
  | entering

/-- A `CompensationEntry`, apart from its count of attempts. -/
inductive CompensationEntry where
  | update (closed : ClosedPosition)
  | markClosed (positionId : PositionId)

/-- The key under which an entry is in the queue. -/
def CompensationEntry.key : CompensationEntry → PositionId
  | .update closed => closed.position.id
  | .markClosed positionId => positionId

/-- The statement of an entry. -/
def CompensationEntry.apply (db : Database) (now : Int) : CompensationEntry → Database
  | .update closed => db.update closed.position
  | .markClosed positionId => db.markClosed positionId now

/-- How far `drainAll` has come; the reply says whether the statement resolved. -/
inductive CompensationPhase where
  | idle
  | retrying (current : CompensationEntry) (reply : Option Bool) (rest : List CompensationEntry)

/-- One `closeOne` that has not settled. -/
inductive EmergencyTask where
  | placing (position : OpenPosition)
  | updating (closed : ClosedPosition)

/-- How far `EmergencyCloseAllUseCase` has come. `inFlight` is true in all but `idle`. -/
inductive EmergencyPhase where
  | idle
  | reading
  | listed (rows : List OpenPosition)
  | closing (tasks : List EmergencyTask)

/-- What the broker saw of the exits. -/
inductive BrokerEvent where
  | sent (id : PositionId)
  | resolved (id : PositionId)
  deriving DecidableEq

structure ExitSystem where
  session : TradingSession ExitPhase
  tracker : ExtremeTracker
  breaker : ExitFailureCircuitBreaker
  /-- `ExitCompensationQueue.entries`. -/
  compensation : List CompensationEntry
  drain : CompensationPhase
  emergency : EmergencyPhase
  db : Database
  /-- The newest event first. -/
  log : List BrokerEvent

inductive ExitLabel where
  | onMarketData (snapshot : MarketSnapshot)
  | extremesRead (served : Bool)
  | dispatchRead (served : Bool)
  | dispatchResume (rules : Position → ExitAnswer)
  | findById (served : Bool)
  | findResume (rules : Position → ExitAnswer)
  | placeExitResolves (result : ExitResult)
  | placeExitRejects (rules : Position → ExitAnswer)
  | update (reply : DbReply)
  | updateResume
  /-- `notifyExitExecuted` is over, well or not. -/
  | notified (rules : Position → ExitAnswer)
  /-- `handleSignals` is over. -/
  | entryDone
  | stop
  | drain
  | retry (reply : DbReply) (now : Int)
  | retryResume
  /-- The sync writes. -/
  | markClosed (id : PositionId) (now : Int)
  /-- The entry side writes a position. -/
  | registered (position : Position)
  | emergencyExecute
  | emergencyRead (served : Bool)
  | emergencyResume
  | emergencyResolves (id : PositionId) (result : ExitResult)
  | emergencyRejects (id : PositionId)
  | emergencyUpdate (id : PositionId) (reply : DbReply)

/-- A step of the emergency path. -/
def ExitLabel.isEmergency : ExitLabel → Bool
  | .emergencyExecute | .emergencyRead _ | .emergencyResume | .emergencyResolves ..
  | .emergencyRejects _ | .emergencyUpdate .. => true
  | _ => false

/-! ## The order of a dispatch -/

/-- Not after the other in `sortedByOpenedAtAsc`. -/
def notAfter (a b : Position) : Prop :=
  a.openedAt < b.openedAt ∨ a.openedAt = b.openedAt ∧ b.id.before a.id = false

instance : DecidableRel notAfter := fun a b =>
  inferInstanceAs (Decidable (a.openedAt < b.openedAt ∨ _ ∧ _))

def sortedByOpenedAtAsc (positions : List Position) : List Position :=
  positions.insertionSort notAfter

def forPair (pair : CurrencyPair) (positions : List Position) : List Position :=
  positions.filter (fun p => p.pair = pair)

theorem mem_ordered {pair : CurrencyPair} {positions : List Position} {p : Position} :
    p ∈ sortedByOpenedAtAsc (forPair pair positions) ↔ p ∈ positions ∧ p.pair = pair := by
  rw [sortedByOpenedAtAsc, List.mem_insertionSort, forPair, List.mem_filter, decide_eq_true_eq]

namespace ExitSystem

/-! ## dispatch -/

/-- `has`. -/
def shields (s : ExitSystem) (id : PositionId) : Bool := s.compensation.any (fun e => e.key = id)

def goto (s : ExitSystem) (phase : ExitPhase) : ExitSystem :=
  { s with session := s.session.goto phase }

/-- `process` is over. -/
def settle (s : ExitSystem) : ExitSystem :=
  { s with session := s.session.settle .updatingExtremes }

/-- After the dispatch: the kill switch stops the session, and otherwise the entries are
evaluated. -/
def dispatched (s : ExitSystem) : ExitSystem :=
  if s.breaker.killDetail.isSome = true then
    { s with session := s.session.stop.settle .updatingExtremes }
  else s.goto .entering

/-- The loop of `dispatch`, up to the first position it has to wait for. -/
def visit (rules : Position → ExitAnswer) (snapshot : MarketSnapshot) :
    List Position → ExitDispatchResult → ExitSystem → ExitSystem
  | [], _, s => s.dispatched
  | p :: rest, result, s =>
    let skip := fun reason =>
      { result with skipped := result.skipped ++ [(p.id, p.strategyName, reason)] }
    let fail := { result with failed := result.failed ++ [(p.id, p.strategyName)] }
    let failing := { s with breaker := s.breaker.recordFailure p.id }
    -- the list was read before, the shield is looked at now
    if s.shields p.id = true then visit rules snapshot rest (skip .compensationPending) s
    else if s.breaker.admitAttempt p.id = false then
      visit rules snapshot rest (skip .failureCooldown) s
    else match rules p with
      | .missing => visit rules snapshot rest (skip .ruleMissing) s
      | .threw => visit rules snapshot rest fail failing
      | .doNothing => visit rules snapshot rest result s
      | .exit command =>
        if command.positionId ≠ p.id then visit rules snapshot rest fail failing
        else match OrderedMap.get s.tracker p.id with
          | none => visit rules snapshot rest (skip .extremesUnavailable) s
          | some extremes => s.goto (.finding ⟨⟨snapshot, rest, result⟩, p, command, extremes⟩ none)

/-- The `catch` of the loop, and on to the next position. -/
def failTurn (s : ExitSystem) (turn : ExitTurn) (rules : Position → ExitAnswer) : ExitSystem :=
  let result := turn.run.result
  visit rules turn.run.snapshot turn.run.rest
    { result with failed := result.failed ++ [(turn.position.id, turn.position.strategyName)] }
    { s with breaker := s.breaker.recordFailure turn.position.id }

/-- `closePosition` has returned and the exit was notified. -/
def succeedTurn (s : ExitSystem) (turn : ExitTurn) (rules : Position → ExitAnswer) : ExitSystem :=
  let result := turn.run.result
  visit rules turn.run.snapshot turn.run.rest
    { result with closed := result.closed ++ [turn.position.id] }
    { s with
      breaker := s.breaker.recordSuccess turn.position.id
      tracker := OrderedMap.delete s.tracker turn.position.id }

/-- `enqueueUpdate` and `enqueueMarkClosed` keep an entry that is there. -/
def enqueue (s : ExitSystem) (entry : CompensationEntry) : ExitSystem :=
  if s.shields entry.key = true then s else { s with compensation := s.compensation ++ [entry] }

/-- The row that `findById` found is sent to the broker. -/
def place (s : ExitSystem) (turn : ExitTurn) (row : Position) : ExitSystem :=
  { s with log := .sent row.id :: s.log }.goto
    (.placing turn (row.applyExtremes turn.extremes.highest turn.extremes.lowest))

/-- `placeExit` has resolved: `close`, and on to `update` or to the compensation. -/
def resolve (s : ExitSystem) (turn : ExitTurn) (position : Position) (result : ExitResult) :
    ExitSystem :=
  let s := { s with log := .resolved position.id :: s.log }
  match ClosedPosition.of? position turn.command result with
  | some closed => s.goto (.updating turn closed none)
  | none => (s.enqueue (.markClosed position.id)).goto (.notifying turn)

def stepSession (pair : CurrencyPair) (s : ExitSystem) :
    ExitPhase → ExitLabel → Option ExitSystem
  | .updatingExtremes snapshot, .extremesRead served =>
    if served then some ({ s with
      tracker := ExtremeTracker.updateAll snapshot.tick.bid snapshot.tick.ask
        (forPair pair s.db.openPositions) s.tracker }.goto (.reading snapshot))
    else some s.settle
  | .reading snapshot, .dispatchRead served =>
    if served then some (s.goto (.listed snapshot s.db.openPositions)) else some s.settle
  | .listed snapshot rows, .dispatchResume rules =>
    let ordered := sortedByOpenedAtAsc (forPair pair rows)
    some (visit rules snapshot ordered ⟨[], [], []⟩
      { s with breaker := s.breaker.beginTick (ordered.map (·.id)) })
  | .finding turn none, .findById served =>
    some (s.goto (.finding turn
      (some (if served then s.db.findById turn.command.positionId else none))))
  | .finding turn (some none), .findResume rules => some (s.failTurn turn rules)
  -- the status of the row is not looked at
  | .finding turn (some (some row)), .findResume _ => some (s.place turn row)
  | .placing turn position, .placeExitResolves result => some (s.resolve turn position result)
  | .placing turn _, .placeExitRejects rules => some (s.failTurn turn rules)
  | .updating turn closed none, .update reply =>
    let (ok, db) := s.db.write (some (s.db.update closed.position)) reply
    some ({ s with db := db }.goto (.updating turn closed (some ok)))
  | .updating turn _ (some true), .updateResume => some (s.goto (.notifying turn))
  | .updating turn closed (some false), .updateResume =>
    some ((s.enqueue (.update closed)).goto (.notifying turn))
  | .notifying turn, .notified rules => some (s.succeedTurn turn rules)
  | .entering, .entryDone => some s.settle
  | _, _ => none

/-! ## ExitCompensationQueue -/

/-- The next entry of `drainAll`. -/
def retryNext : List CompensationEntry → CompensationPhase
  | [] => .idle
  | current :: rest => .retrying current none rest

def stepCompensation (s : ExitSystem) : CompensationPhase → ExitLabel → Option ExitSystem
  | .idle, .drain =>
    if s.compensation = [] then none else some { s with drain := retryNext s.compensation }
  | .retrying current none rest, .retry reply now =>
    let (ok, db) := s.db.write (some (current.apply s.db now)) reply
    some { s with db := db, drain := .retrying current (some ok) rest }
  -- the row is written, and the shield goes
  | .retrying current (some true) rest, .retryResume => some { s with
      compensation := s.compensation.filter (fun e => e.key ≠ current.key)
      drain := retryNext rest }
  | .retrying _ (some false) rest, .retryResume => some { s with drain := retryNext rest }
  | _, _ => none

/-! ## EmergencyCloseAllUseCase -/

/-- The tasks that are left; with the last one `inFlight` is reset. -/
def closingWith : List EmergencyTask → EmergencyPhase
  | [] => .idle
  | tasks => .closing tasks

/-- The command of an emergency exit. -/
def forceClose (id : PositionId) : ExitCommand := ⟨id, .forceClose, ⟨"緊急全決済", by decide⟩⟩

/-- The first element that `pick` takes, and the others. -/
def takeFirst {α β : Type} (pick : α → Option β) : List α → Option (β × List α)
  | [] => none
  | x :: rest =>
    match pick x with
    | some y => some (y, rest)
    | none => (takeFirst pick rest).map (fun r => (r.1, x :: r.2))

/-- The task whose `placeExit` of the id has not settled. -/
def pickPlacing (id : PositionId) : EmergencyTask → Option OpenPosition
  | .placing position => if position.position.id = id then some position else none
  | .updating _ => none

/-- The task whose `update` of the id has not settled. -/
def pickUpdating (id : PositionId) : EmergencyTask → Option ClosedPosition
  | .placing _ => none
  | .updating closed => if closed.position.id = id then some closed else none

def stepEmergency (s : ExitSystem) : EmergencyPhase → ExitLabel → Option ExitSystem
  | .idle, .emergencyExecute => some { s with emergency := .reading }
  | .reading, .emergencyRead served =>
    if served then some { s with emergency := .listed s.db.openRows }
    else some { s with emergency := .idle }
  | .listed rows, .emergencyResume => some { s with
      emergency := closingWith (rows.map .placing)
      log := (rows.map (fun p => .sent p.position.id)).reverse ++ s.log }
  | .closing tasks, .emergencyResolves id result =>
      (takeFirst (pickPlacing id) tasks).map fun task =>
      { s with
        emergency := .closing (.updating (task.1.close (forceClose id) result) :: task.2)
        log := .resolved id :: s.log }
  | .closing tasks, .emergencyRejects id => (takeFirst (pickPlacing id) tasks).map fun task =>
      { s with emergency := closingWith task.2 }
  | .closing tasks, .emergencyUpdate id reply => (takeFirst (pickUpdating id) tasks).map fun task =>
      { s with
        -- an update that fails is logged and nothing else, the sync is to notice
        db := (s.db.write (some (s.db.update task.1.position)) reply).2
        emergency := closingWith task.2 }
  | _, _ => none

/-! ## The system -/

/-- The broker has seen no exit of the id. -/
def Unseen (s : ExitSystem) (id : PositionId) : Prop := .sent id ∉ s.log ∧ .resolved id ∉ s.log

instance (s : ExitSystem) (id : PositionId) : Decidable (s.Unseen id) :=
  inferInstanceAs (Decidable (_ ∉ s.log ∧ _ ∉ s.log))

/-- One step. The broker gives a new position an id it has seen no exit of. -/
def step (pair : CurrencyPair) (s : ExitSystem) : ExitLabel → Option ExitSystem
  | .onMarketData snapshot =>
    some { s with session := s.session.onMarketData pair .updatingExtremes snapshot }
  | .stop => some { s with session := s.session.stop }
  | .markClosed id now => some { s with db := s.db.markClosed id now }
  | .registered position =>
    if s.Unseen position.id then
      (s.db.insertPosition { position with status := .opened }).map fun db => { s with db := db }
    else none
  | .drain => s.stepCompensation s.drain .drain
  | .retry reply now => s.stepCompensation s.drain (.retry reply now)
  | .retryResume => s.stepCompensation s.drain .retryResume
  | .emergencyExecute => s.stepEmergency s.emergency .emergencyExecute
  | .emergencyRead served => s.stepEmergency s.emergency (.emergencyRead served)
  | .emergencyResume => s.stepEmergency s.emergency .emergencyResume
  | .emergencyResolves id result => s.stepEmergency s.emergency (.emergencyResolves id result)
  | .emergencyRejects id => s.stepEmergency s.emergency (.emergencyRejects id)
  | .emergencyUpdate id reply => s.stepEmergency s.emergency (.emergencyUpdate id reply)
  | a => s.session.phase.bind (fun phase => s.stepSession pair phase a)

end ExitSystem

end Luchida
