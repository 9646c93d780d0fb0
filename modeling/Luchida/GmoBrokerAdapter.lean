import Luchida.GmoRest

/- GmoBrokerAdapter.ts: entry and exit orders, the list of open positions, and the
   connectivity check, over the tapes of what GMO answers on each path.

   A number or a date that GMO sends as text is an `Option`: `none` is a text the
   factories of the source throw on. -/
namespace Luchida

/-! ## What GMO answers -/

/-- An element of the `speedOrder` or `closeOrder` answer. -/
structure GmoOrderData where
  orderId : Nat
  status : String

/-- `GmoExecution`, the fields that are read. `lossGain` may be missing. -/
structure GmoExecution where
  side : String
  size : String
  price : Option ℚ
  lossGain : Option (Option ℚ)
  timestamp : Option Int

/-- `GmoOpenPosition`, the fields that are read. -/
structure GmoOpenPosition where
  positionId : Nat
  side : String
  size : String
  timestamp : Option Int

/-- The answers on the paths of one order. The data of a list answer may be missing. -/
structure OrderTapes where
  order : Nat → HttpOutcome (List GmoOrderData)
  executions : Nat → HttpOutcome (Option (List GmoExecution))
  openPositions : Nat → HttpOutcome (Option (List GmoOpenPosition))

namespace GmoBrokerAdapter

/-! ## Orders -/

/-- `EXECUTION_POLL_MAX_ATTEMPTS`. -/
def executionPollMaxAttempts : Nat := 20

/-- The answer of a poll that has not found an execution yet. -/
inductive PollResult where
  | found (execution : GmoExecution)
  | aborted (error : GmoApiError)
  | retry

/-- One attempt of `waitForExecution`: an empty list and a failed connection are
tried again, an API error is not. -/
def pollOnce (answer : Except RequestError (GmoApiResponse (Option (List GmoExecution)))) :
    PollResult :=
  match answer with
  | .ok response =>
    match response.data with
    | some (execution :: _) => .found execution
    | _ => .retry
  | .error (.api e) => .aborted e
  | .error .network => .retry

/-- `waitForExecution` with `attempts` left. -/
def waitForExecution (tape : Nat → HttpOutcome (Option (List GmoExecution))) (orderId : String) :
    Nat → Nat → Except BrokerError GmoExecution
  | 0, _ => .error (.executionTimeout orderId)
  | attempts + 1, pos =>
    match pollOnce (send tape pos).1 with
    | .found execution => .ok execution
    -- an order that GMO has accepted is reported as rejected
    | .aborted e => .error (.orderRejected ("約定確認中にAPIエラー: " ++ e.message) (some (.api e)))
    | .retry => waitForExecution tape orderId attempts (send tape pos).2

/-- `new Date(a).getTime() > new Date(b).getTime()`, which is false for a date that
cannot be read. -/
def laterThan (a b : Option Int) : Bool :=
  match a, b with
  | some s, some t => t < s
  | _, _ => false

/-- The newest of `newest` and the positions after it. -/
def newestOf : GmoOpenPosition → List GmoOpenPosition → GmoOpenPosition
  | newest, [] => newest
  | newest, pos :: rest =>
    newestOf (if laterThan pos.timestamp newest.timestamp then pos else newest) rest

/-- `findOpenPosition`: the newest position of that side and size, or the newest of
all where there is none. -/
def findOpenPosition (tape : Nat → HttpOutcome (Option (List GmoOpenPosition)))
    (side size : String) : Except AdapterError GmoOpenPosition :=
  match (send tape 0).1 with
  | .error e => .error (.request e)
  | .ok response =>
    match response.data with
    | none | some [] =>
      .error (.broker (.unexpected "openPositions が空。約定直後にポジションが見つからない" none))
    | some (first :: rest) =>
      match (first :: rest).filter (fun pos => pos.side == side && pos.size == size) with
      | candidate :: others => .ok (newestOf candidate others)
      | [] => .ok (newestOf first rest)

/-- The POST of an order, and the id in its answer. -/
def postOrder (tape : Nat → HttpOutcome (List GmoOrderData)) : Except AdapterError Nat :=
  match (send tape 0).1 with
  | .error e => .error (.request e)
  | .ok response =>
    match response.data with
    | [] => .error .other
    | order :: _ => .ok order.orderId

/-- `Price.of` and `Timestamp.of` on the texts of an execution. -/
def readExecution (execution : GmoExecution) : Option (Price × Int) := do
  let price ← execution.price.bind Price.of
  let executedAt ← execution.timestamp
  return (price, executedAt)

/-- `Pips.of(execution.lossGain ?? '0')`. -/
def readLossGain (execution : GmoExecution) : Option Pips :=
  match execution.lossGain with
  | none => some ⟨0⟩
  | some text => text.map Pips.mk

/-- The part of `placeEntry` after the POST. -/
def confirmEntry (tapes : OrderTapes) (orderId : Nat) : Except AdapterError EntryResult :=
  match waitForExecution tapes.executions orderId.repr executionPollMaxAttempts 0 with
  | .error e => .error (.broker e)
  | .ok execution =>
    match findOpenPosition tapes.openPositions execution.side execution.size with
    | .error e => .error e
    | .ok openPosition =>
      match readExecution execution with
      | none => .error .other
      | some (entryPrice, executedAt) =>
        .ok ⟨.ofNat openPosition.positionId, entryPrice, executedAt⟩

/-- The part of `placeExit` after the POST. -/
def confirmExit (tapes : OrderTapes) (orderId : Nat) : Except AdapterError ExitResult :=
  match waitForExecution tapes.executions orderId.repr executionPollMaxAttempts 0 with
  | .error e => .error (.broker e)
  | .ok execution =>
    match readExecution execution, readLossGain execution with
    | some (exitPrice, executedAt), some profitLoss => .ok ⟨exitPrice, executedAt, profitLoss⟩
    | _, _ => .error .other

/-- The `catch` of `placeEntry` and of `placeExit`. -/
def translateOrderError : AdapterError → BrokerError
  | .broker e => e
  | .request (.api e) => .orderRejected e.message (some (.api e))
  | .request .network => .networkError (some .network)
  | .other => .networkError none

def translate {α : Type} (translateError : AdapterError → BrokerError) :
    Except AdapterError α → Except BrokerError α
  | .error e => .error (translateError e)
  | .ok a => .ok a

/-- `placeEntry`. The command shapes the body of the POST, which the tape answers. -/
def placeEntry (_command : EntryCommand) (tapes : OrderTapes) : Except BrokerError EntryResult :=
  translate translateOrderError <|
    match postOrder tapes.order with
    | .error e => .error e
    | .ok orderId => confirmEntry tapes orderId

/-- `placeExit`. -/
def placeExit (_position : Position) (tapes : OrderTapes) : Except BrokerError ExitResult :=
  translate translateOrderError <|
    match postOrder tapes.order with
    | .error e => .error e
    | .ok orderId => confirmExit tapes orderId

/-! ## Queries -/

/-- `OPEN_POSITIONS_PAGE_SIZE`. -/
def openPositionsPageSize : Nat := 100

/-- `OPEN_POSITIONS_MAX_PAGES`. -/
def openPositionsMaxPages : Nat := 100

/-- The smallest position id of a page, which is the next cursor. -/
def smallestId : Nat → List GmoOpenPosition → Nat
  | smallest, [] => smallest
  | smallest, pos :: rest =>
    smallestId (if pos.positionId < smallest then pos.positionId else smallest) rest

/-- The loop of `fetchOpenPositionIds`, with `pages` requests left. -/
def fetchPages (tape : Nat → HttpOutcome (Option (List GmoOpenPosition))) :
    Nat → Nat → Option Nat → List PositionId → Except AdapterError (List PositionId)
  | 0, _, _, _ => .error (.broker (.unexpected
      ("建玉一覧の全件取得がページ上限 " ++ openPositionsMaxPages.repr ++ " を超過") none))
  | pages + 1, pos, prevId, ids =>
    match send tape pos with
    | (.error e, _) => .error (.request e)
    | (.ok response, pos') =>
      match response.data.getD [] with
      | [] => .ok ids
      | first :: rest =>
        let ids' := ids ++ (first :: rest).map (fun p => .ofNat p.positionId)
        if (first :: rest).length < openPositionsPageSize then .ok ids'
        else
          let nextPrevId := smallestId first.positionId (first :: rest)
          match prevId with
          | some prev =>
            -- a cursor that does not fall would ask for the same page again
            if prev ≤ nextPrevId then
              .error (.broker (.unexpected
                ("建玉一覧のページングカーソルが前進しない（prevId=" ++ prev.repr ++ ", next="
                  ++ nextPrevId.repr ++ "）") none))
            else fetchPages tape pages pos' (some nextPrevId) ids'
          | none => fetchPages tape pages pos' (some nextPrevId) ids'

/-- The pages of `fetchOpenPositionIds`, before its `catch`. One page more than the
limit may be asked for, to see the end of the list. -/
def fetchAllPages (tape : Nat → HttpOutcome (Option (List GmoOpenPosition))) :
    Except AdapterError (List PositionId) :=
  fetchPages tape (openPositionsMaxPages + 1) 0 none []

/-- The `catch` of `fetchOpenPositionIds`. -/
def translateFetchError : AdapterError → BrokerError
  | .broker e => e
  -- `isAuthenticationFailed` is not asked here, as it is in `verifyConnectivity`
  | .request (.api e) => .unexpected ("建玉一覧の取得に失敗: " ++ e.message) (some (.api e))
  | .request .network => .networkError (some .network)
  | .other => .networkError none

/-- `fetchOpenPositionIds`. -/
def fetchOpenPositionIds (tape : Nat → HttpOutcome (Option (List GmoOpenPosition))) :
    Except BrokerError (List PositionId) :=
  translate translateFetchError (fetchAllPages tape)

/-- The `catch` of `verifyConnectivity`, which tells authentication failures and rate
limits from the rest. -/
def translateConnectivityError : RequestError → BrokerError
  | .api e =>
    if e.isAuthenticationFailed then .authenticationFailed (some (.api e))
    else if e.isRateLimited then .rateLimited (some (.api e))
    else .unexpected ("接続性確認に失敗: " ++ e.message) (some (.api e))
  | .network => .networkError (some .network)

/-- `verifyConnectivity`. -/
def verifyConnectivity (tape : Nat → HttpOutcome Unit) : Except BrokerError Unit :=
  match (send tape 0).1 with
  | .error e => .error (translateConnectivityError e)
  | .ok _ => .ok ()

/-! ## Authentication failures -/

/-- The connectivity check reports an authentication failure as one, and nothing
else as one. -/
theorem translateConnectivityError_auth (e : RequestError) :
    (translateConnectivityError e).isAuthenticationFailure = true ↔
      ∃ error, e = .api error ∧ error.isAuthenticationFailed = true := by
  cases e with
  | network => simp [translateConnectivityError, BrokerError.networkError,
      BrokerError.isAuthenticationFailure]
  | api error =>
    simp only [translateConnectivityError]
    split
    · rename_i h
      simp [BrokerError.authenticationFailed, BrokerError.isAuthenticationFailure, h]
    · rename_i h
      split <;> simp [BrokerError.rateLimited, BrokerError.unexpected,
        BrokerError.isAuthenticationFailure, h]

/-- No error that the paging itself throws is an authentication failure. -/
theorem fetchPages_broker {tape : Nat → HttpOutcome (Option (List GmoOpenPosition))}
    {pages pos : Nat} {prevId : Option Nat} {ids : List PositionId} {e : BrokerError}
    (h : fetchPages tape pages pos prevId ids = .error (.broker e)) :
    e.isAuthenticationFailure = false := by
  induction pages generalizing pos prevId ids with
  | zero =>
    cases h
    rfl
  | succ pages ih =>
    unfold fetchPages at h
    split at h
    · cases h
    · split at h
      · cases h
      · dsimp only at h
        split at h
        · cases h
        · split at h
          · split at h
            · cases h
              rfl
            · exact ih h
          · exact ih h

/-- The list of open positions never reports an authentication failure: whatever GMO
answers, the error that leaves the adapter has another code. -/
theorem fetchOpenPositionIds_not_auth {tape : Nat → HttpOutcome (Option (List GmoOpenPosition))}
    {e : BrokerError} (h : fetchOpenPositionIds tape = .error e) :
    e.isAuthenticationFailure = false := by
  unfold fetchOpenPositionIds translate at h
  split at h
  · rename_i error herror
    obtain rfl : translateFetchError error = e := by simpa using h
    cases error with
    | broker e => exact fetchPages_broker herror
    | request e => cases e <;> rfl
    | other => rfl
  · cases h

end GmoBrokerAdapter

end Luchida
