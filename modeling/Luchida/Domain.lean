import Luchida.Candle

/- The values that orders, positions and rows are made of (domain/market, domain/command,
   domain/position, domain/rule). Each factory of the source that throws is a structure
   whose fields are what it checks; text keeps only the check that it is not blank. -/
namespace Luchida

/-! ## Pairs and amounts -/

/-- `ALL_CURRENCIES`. -/
inductive Currency where
  | jpy | usd | eur | gbp | aud | nzd | cad | chf | tryLira | zar | mxn
  deriving DecidableEq, Repr

/-- `CurrencyPair`: the entries of `BUSINESS_PAIRS_LIST`. -/
inductive CurrencyPair where
  | usdJpy | eurJpy | gbpJpy | audJpy | nzdJpy | cadJpy | chfJpy | tryJpy | zarJpy | mxnJpy
  | eurUsd | gbpUsd | audUsd | nzdUsd
  deriving DecidableEq, Repr

/-- `quote`: the currency on the right of the pair. -/
def CurrencyPair.quote : CurrencyPair → Currency
  | .eurUsd | .gbpUsd | .audUsd | .nzdUsd => .usd
  | _ => .jpy

/-- The text of a pair, which is the GMO symbol too (`toGmoSymbol`). -/
def CurrencyPair.name : CurrencyPair → String
  | .usdJpy => "USD_JPY"
  | .eurJpy => "EUR_JPY"
  | .gbpJpy => "GBP_JPY"
  | .audJpy => "AUD_JPY"
  | .nzdJpy => "NZD_JPY"
  | .cadJpy => "CAD_JPY"
  | .chfJpy => "CHF_JPY"
  | .tryJpy => "TRY_JPY"
  | .zarJpy => "ZAR_JPY"
  | .mxnJpy => "MXN_JPY"
  | .eurUsd => "EUR_USD"
  | .gbpUsd => "GBP_USD"
  | .audUsd => "AUD_USD"
  | .nzdUsd => "NZD_USD"

/-- `pipUnit`: one pip of the pair. -/
def CurrencyPair.pipUnit (pair : CurrencyPair) : ℚ :=
  if pair.quote = .jpy then 1 / 100 else 1 / 10000

theorem CurrencyPair.pipUnit_pos (pair : CurrencyPair) : 0 < pair.pipUnit := by
  cases pair <;> decide +kernel

/-- `Money`. -/
structure Money where
  value : ℚ
  currency : Currency
  deriving DecidableEq

/-- `Pips`. -/
structure Pips where
  value : ℚ
  deriving DecidableEq

/-! ## Names -/

/-- A text that `trim` leaves empty. -/
def isBlank (text : String) : Bool := text.toList.all Char.isWhitespace

/-- `PositionId`. -/
structure PositionId where
  value : String
  nonblank : isBlank value = false
  deriving DecidableEq

namespace PositionId

/-- `PositionId.from`. -/
def from? (value : String) : Option PositionId :=
  if h : isBlank value = false then some ⟨value, h⟩ else none

theorem isBlank_repr (n : Nat) : isBlank n.repr = false := by
  unfold isBlank
  rw [Nat.toList_repr]
  obtain ⟨c, hc⟩ := List.exists_mem_of_ne_nil _ (Nat.toDigits_ne_nil (n := n) (b := 10))
  have hdigit : c.isDigit = true := Nat.isDigit_of_mem_toDigits (by decide) (by decide) hc
  rw [List.all_eq_false]
  refine ⟨c, hc, ?_⟩
  simp only [Char.isDigit, Bool.and_eq_true, decide_eq_true_eq] at hdigit
  simp only [Char.isWhitespace, Bool.or_eq_true, decide_eq_true_eq, not_or]
  refine ⟨⟨⟨?_, ?_⟩, ?_⟩, ?_⟩ <;> (rintro rfl; revert hdigit; decide)

/-- `PositionId.from(String(n))` for a numeric id, which is never blank. -/
def ofNat (n : Nat) : PositionId := ⟨n.repr, isBlank_repr n⟩

/-- `compareTo(other) < 0`: the order of the id texts. -/
def before (a b : PositionId) : Bool := a.value < b.value

end PositionId

/-- `StrategyName`. -/
inductive StrategyName where
  | smaCross | rsiReversal | smaDistance | wickReversal
  deriving DecidableEq, Repr

inductive BuySell where
  | buy
  | sell
  deriving DecidableEq, Repr

def BuySell.opposite : BuySell → BuySell
  | .buy => .sell
  | .sell => .buy

/-! ## Commands -/

/-- `Lot`: a multiple of 100 between the broker's limits for one order. -/
structure Lot where
  units : Nat
  min_le : 100 ≤ units
  le_max : units ≤ 500000
  dvd : 100 ∣ units
  deriving DecidableEq

/-- `Lot.of`. -/
def Lot.of (units : Nat) : Option Lot :=
  if h : 100 ≤ units ∧ units ≤ 500000 ∧ 100 ∣ units then some ⟨units, h.1, h.2.1, h.2.2⟩ else none

/-- `ConvictionScore`: between 0 and 1. -/
structure ConvictionScore where
  value : ℚ
  nonneg : 0 ≤ value
  le_one : value ≤ 1
  deriving DecidableEq

/-- The conviction of every signal of the SMA cross. -/
def ConvictionScore.smaCross : ConvictionScore := ⟨7 / 10, by decide +kernel, by decide +kernel⟩

/-- `EntryReason`. -/
structure EntryReason where
  value : String
  nonblank : isBlank value = false
  deriving DecidableEq

/-- `EntrySnapshot`: the market at the time of the signal, kept for later analysis. -/
structure EntrySnapshot where
  convictionScore : ℚ
  spreadPips : Option ℚ
  entryHour : Int
  entryDayOfWeek : Int
  smaSpreadAtrRatio : Option ℚ
  adx : Option ℚ
  atrPips : Option ℚ
  rsi : Option ℚ
  trendAlignment : Option Int
  deriving DecidableEq

/-- `EntryCommand`. The factory throws on a negative margin. -/
structure EntryCommand where
  pair : CurrencyPair
  buySell : BuySell
  lot : Lot
  reason : EntryReason
  convictionScore : ConvictionScore
  strategyName : StrategyName
  entrySnapshot : EntrySnapshot
  requiredMargin : Money
  margin_nonneg : 0 ≤ requiredMargin.value
  deriving DecidableEq

inductive ExitType where
  | takeProfit
  | stopLoss
  | forceClose
  deriving DecidableEq, Repr

/-- `ExitReason`. -/
structure ExitReason where
  value : String
  nonblank : isBlank value = false
  deriving DecidableEq

structure ExitCommand where
  positionId : PositionId
  type : ExitType
  reason : ExitReason
  deriving DecidableEq

/-- `EntryResult`: how the broker filled an entry. -/
structure EntryResult where
  positionId : PositionId
  entryPrice : Price
  executedAt : Int
  deriving DecidableEq

/-- `ExitResult`: how the broker filled an exit. -/
structure ExitResult where
  exitPrice : Price
  executedAt : Int
  profitLoss : Pips
  deriving DecidableEq

/-! ## Positions -/

inductive PositionStatus where
  | opened
  | closed
  deriving DecidableEq, Repr

structure Position where
  id : PositionId
  pair : CurrencyPair
  buySell : BuySell
  lot : Lot
  entryPrice : Price
  openedAt : Int
  strategyName : StrategyName
  status : PositionStatus
  exitPrice : Option Price
  closedAt : Option Int
  exitType : Option ExitType
  exitReason : Option ExitReason
  profitLoss : Option Pips
  mfePips : Option Pips
  maePips : Option Pips
  deriving DecidableEq

namespace Position

/-- `Position.open`. -/
def openWith (command : EntryCommand) (result : EntryResult) : Position where
  id := result.positionId
  pair := command.pair
  buySell := command.buySell
  lot := command.lot
  entryPrice := result.entryPrice
  openedAt := result.executedAt
  strategyName := command.strategyName
  status := .opened
  exitPrice := none
  closedAt := none
  exitType := none
  exitReason := none
  profitLoss := none
  mfePips := none
  maePips := none

/-- `toFixed(4)`: four decimals, halves away from zero. -/
def toFixed4 (x : ℚ) : ℚ :=
  if x < 0 then -((-x * 10000 + 1 / 2).floor / 10000 : ℚ) else (x * 10000 + 1 / 2).floor / 10000

/-- `applyExtremes`: the best and the worst excursion, in pips. -/
def applyExtremes (p : Position) (highest lowest : Price) : Position :=
  if p.status = .closed then p
  else
    let up : Pips := ⟨toFixed4 ((highest.value - p.entryPrice.value) / p.pair.pipUnit)⟩
    let down : Pips := ⟨toFixed4 ((p.entryPrice.value - lowest.value) / p.pair.pipUnit)⟩
    match p.buySell with
    | .buy => { p with mfePips := some up, maePips := some down }
    | .sell => { p with mfePips := some down, maePips := some up }

/-- `Position.close`, which throws on a position that is closed already. -/
def close (p : Position) (command : ExitCommand) (result : ExitResult) : Option Position :=
  if p.status = .closed then none
  else some { p with
    status := .closed
    exitPrice := some result.exitPrice
    closedAt := some result.executedAt
    exitType := some command.type
    exitReason := some command.reason
    profitLoss := some result.profitLoss }

@[simp] theorem applyExtremes_id (p : Position) (highest lowest : Price) :
    (p.applyExtremes highest lowest).id = p.id := by
  unfold applyExtremes
  split
  · rfl
  · cases p.buySell <;> rfl

@[simp] theorem applyExtremes_status (p : Position) (highest lowest : Price) :
    (p.applyExtremes highest lowest).status = p.status := by
  unfold applyExtremes
  split
  · rfl
  · cases p.buySell <;> rfl

theorem close_eq_some {p p' : Position} {command : ExitCommand} {result : ExitResult}
    (h : p.close command result = some p') : p'.id = p.id ∧ p'.status = .closed := by
  unfold close at h
  split at h
  · cases h
  · cases h
    exact ⟨rfl, rfl⟩

theorem close_isSome_iff (p : Position) (command : ExitCommand) (result : ExitResult) :
    (p.close command result).isSome = true ↔ p.status = .opened := by
  unfold close
  cases p.status <;> simp

end Position

/-! ## Values that the examples share -/

def quietPrice : Price := ⟨150, by decide +kernel⟩

def crossPrice : Price := ⟨151, by decide +kernel⟩

def thousandLot : Lot := ⟨1000, by decide, by decide, by decide⟩

/-- An entry at the conviction of the SMA cross. -/
def filledEntry : EntryCommand where
  pair := .usdJpy
  buySell := .buy
  lot := thousandLot
  reason := ⟨"SMA", by decide⟩
  convictionScore := .smaCross
  strategyName := .smaCross
  entrySnapshot := ⟨7 / 10, none, 0, 0, none, none, none, none, none⟩
  requiredMargin := ⟨6000, .jpy⟩
  margin_nonneg := by decide +kernel

end Luchida
