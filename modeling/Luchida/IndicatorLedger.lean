import Luchida.Candle
import Luchida.Window

/- IndicatorLedger.ts: the short and the long SMA of one time frame, each over the
   confirmed closes and over the confirmed closes with the forming one on top.
   The SMA itself is a port (`SmaCalculator`), so the ledger is stated for any
   state type `σ` of a calculator. JavaScript numbers are rationals here. -/
namespace Luchida

/-- The ports `SmaCalculator` and `SmaCalculatorFactory`: the state of one
calculator and what a call does to it. -/
class SmaCalculator (σ : Type) where
  create : Nat → σ
  add : σ → ℚ → σ
  replace : σ → ℚ → σ
  isStable : σ → Bool
  getResult : σ → ℚ

/-- The plainest calculator: its period and the values it was given. -/
structure RecordedSma where
  period : Nat
  values : List ℚ

instance : SmaCalculator RecordedSma where
  create period := ⟨period, []⟩
  add c v := { c with values := c.values ++ [v] }
  replace c v := { c with values := c.values.dropLast ++ [v] }
  isStable c := c.period ≤ c.values.length
  getResult c := Window.movingAverage Window.mean c.period c.values

/-- `SmaValue`. The factory throws on a value that is not positive. -/
@[ext] structure SmaValue where
  value : ℚ
  pos : 0 < value

instance : DecidableEq SmaValue := fun _ _ => decidable_of_iff _ SmaValue.ext_iff.symm

/-- What the ledger throws. -/
inductive LedgerError where
  /-- `SMA は正の数` -/
  | smaNotPositive (value : ℚ)
  /-- `IndicatorLedger: SMA がまだ安定していません。warmUp() に十分な確定足を渡してください。` -/
  | notStable
  deriving DecidableEq

def SmaValue.of (value : ℚ) : Except LedgerError SmaValue :=
  if h : 0 < value then .ok ⟨value, h⟩ else .error (.smaNotPositive value)

theorem SmaValue.of_pos {value : ℚ} (h : 0 < value) : SmaValue.of value = .ok ⟨value, h⟩ := by
  simp [SmaValue.of, h]

structure SmaSnapshot where
  shortSma : SmaValue
  longSma : SmaValue
  previousShortSma : SmaValue
  previousLongSma : SmaValue
  deriving DecidableEq

structure IndicatorValues where
  confirmed : SmaSnapshot
  forming : SmaSnapshot
  deriving DecidableEq

/-! ## One SMA line -/

structure SmaTracker (σ : Type) where
  period : Nat
  confirmed : σ
  forming : σ
  current : Option ℚ
  prev : Option ℚ
  formingCurrent : Option ℚ
  hasFormingValue : Bool

namespace SmaTracker

variable {σ : Type} [SmaCalculator σ]

def new (period : Nat) : SmaTracker σ where
  period := period
  confirmed := SmaCalculator.create period
  forming := SmaCalculator.create period
  current := none
  prev := none
  formingCurrent := none
  hasFormingValue := false

/-- The value a getter keeps: the new result once the calculator is stable, what
was there before until then. -/
def resultOr (c : σ) (old : Option ℚ) : Option ℚ :=
  if SmaCalculator.isStable c then some (SmaCalculator.getResult c) else old

def addConfirmed (t : SmaTracker σ) (close : ℚ) : SmaTracker σ :=
  let confirmed := SmaCalculator.add t.confirmed close
  { t with
    prev := t.current
    confirmed := confirmed
    current := resultOr confirmed t.current }

def addFormingForWarmUp (t : SmaTracker σ) (close : ℚ) : SmaTracker σ :=
  { t with forming := SmaCalculator.add t.forming close }

def resetForming (t : SmaTracker σ) (confirmedClose : ℚ) : SmaTracker σ :=
  { t with
    forming :=
      -- the forming close is in the window already, and gives way to the confirmed one
      if t.hasFormingValue then SmaCalculator.replace t.forming confirmedClose
      else SmaCalculator.add t.forming confirmedClose
    formingCurrent := none
    hasFormingValue := false }

def updateForming (t : SmaTracker σ) (close : ℚ) : SmaTracker σ :=
  let forming :=
    if t.hasFormingValue then SmaCalculator.replace t.forming close
    else SmaCalculator.add t.forming close
  { t with
    forming := forming
    hasFormingValue := true
    formingCurrent := resultOr forming t.formingCurrent }

/-- `SmaTracker.reseed`: start over and feed the closes to both calculators. -/
def reseed (t : SmaTracker σ) (closes : List ℚ) : SmaTracker σ :=
  closes.foldl (fun t close => (t.addConfirmed close).addFormingForWarmUp close) (new t.period)

def isStable (t : SmaTracker σ) : Bool := t.current.isSome

/-- The confirmed calculator of the line is what adding these closes makes. -/
def FedWith (t : SmaTracker σ) (closes : List ℚ) : Prop :=
  t.confirmed = closes.foldl SmaCalculator.add (SmaCalculator.create t.period)

theorem FedWith.addConfirmed {t : SmaTracker σ} {closes : List ℚ} (h : t.FedWith closes)
    (close : ℚ) : (t.addConfirmed close).FedWith (closes ++ [close]) := by
  simp only [FedWith] at h
  simp [FedWith, SmaTracker.addConfirmed, h]

theorem fedWith_seed (closes : List ℚ) {t : SmaTracker σ} {l : List ℚ} (h : t.FedWith l) :
    SmaTracker.FedWith
      (closes.foldl (fun t close => (t.addConfirmed close).addFormingForWarmUp close) t)
      (l ++ closes) := by
  induction closes generalizing t l with
  | nil => simpa using h
  | cons close closes ih =>
    have hnext : ((t.addConfirmed close).addFormingForWarmUp close).FedWith (l ++ [close]) :=
      h.addConfirmed close
    simpa using ih hnext

theorem fedWith_reseed (t : SmaTracker σ) (closes : List ℚ) : (t.reseed closes).FedWith closes := by
  have hnew : (new t.period : SmaTracker σ).FedWith [] := rfl
  exact fedWith_seed closes hnew

end SmaTracker

/-! ## The ledger -/

structure IndicatorLedger (σ : Type) where
  short : SmaTracker σ
  long : SmaTracker σ
  requiredBarsForStable : Nat

/-- What `reconcileWith` reports. -/
structure Reconciliation where
  before : Option SmaSnapshot
  after : Option SmaSnapshot
  corrected : Bool

namespace IndicatorLedger

variable {σ : Type}

/-- Both lines move the same way. -/
def map (ledger : IndicatorLedger σ) (f : SmaTracker σ → SmaTracker σ) : IndicatorLedger σ :=
  { ledger with short := f ledger.short, long := f ledger.long }

@[simp] theorem map_short (ledger : IndicatorLedger σ) (f : SmaTracker σ → SmaTracker σ) :
    (ledger.map f).short = f ledger.short := rfl

@[simp] theorem map_long (ledger : IndicatorLedger σ) (f : SmaTracker σ → SmaTracker σ) :
    (ledger.map f).long = f ledger.long := rfl

@[simp] theorem map_requiredBarsForStable (ledger : IndicatorLedger σ)
    (f : SmaTracker σ → SmaTracker σ) :
    (ledger.map f).requiredBarsForStable = ledger.requiredBarsForStable := rfl

variable [SmaCalculator σ]

def new (shortPeriod longPeriod : Nat) : IndicatorLedger σ where
  short := .new shortPeriod
  long := .new longPeriod
  requiredBarsForStable := max shortPeriod longPeriod

def warmUp (ledger : IndicatorLedger σ) (confirmedCandles : List ConfirmedCandle) :
    IndicatorLedger σ :=
  confirmedCandles.foldl (fun ledger candle =>
    ledger.map fun t =>
      (t.addConfirmed candle.close.value).addFormingForWarmUp candle.close.value) ledger

def onCandleConfirmed (ledger : IndicatorLedger σ) (confirmedCandle : ConfirmedCandle) :
    IndicatorLedger σ :=
  let close := confirmedCandle.close.value
  ledger.map fun t => (t.addConfirmed close).resetForming close

def onCandleUpdated (ledger : IndicatorLedger σ) (formingCandle : FormingCandle) :
    IndicatorLedger σ :=
  ledger.map fun t => t.updateForming formingCandle.close.value

def buildConfirmedSnapshot (ledger : IndicatorLedger σ) (sc lc : ℚ) :
    Except LedgerError SmaSnapshot := do
  -- `prev ?? current`, for the first confirmation that fills the window
  let sp := ledger.short.prev.getD sc
  let lp := ledger.long.prev.getD lc
  return {
    shortSma := ← SmaValue.of sc
    longSma := ← SmaValue.of lc
    previousShortSma := ← SmaValue.of sp
    previousLongSma := ← SmaValue.of lp }

def buildFormingSnapshot (ledger : IndicatorLedger σ) (sc lc : ℚ) :
    Except LedgerError SmaSnapshot := do
  let sfc := ledger.short.formingCurrent.getD sc
  let lfc := ledger.long.formingCurrent.getD lc
  return {
    shortSma := ← SmaValue.of sfc
    longSma := ← SmaValue.of lfc
    previousShortSma := ← SmaValue.of sc
    previousLongSma := ← SmaValue.of lc }

/-- `snapshotOrNull`: no snapshot until both lines are stable. -/
def snapshotOrNull (ledger : IndicatorLedger σ) : Except LedgerError (Option SmaSnapshot) :=
  match ledger.short.current, ledger.long.current with
  | some sc, some lc => (ledger.buildConfirmedSnapshot sc lc).map some
  | _, _ => .ok none

def currentValues (ledger : IndicatorLedger σ) : Except LedgerError IndicatorValues :=
  match ledger.short.current, ledger.long.current with
  | some sc, some lc => do
    return {
      confirmed := ← ledger.buildConfirmedSnapshot sc lc
      forming := ← ledger.buildFormingSnapshot sc lc }
  | _, _ => .error .notStable

omit [SmaCalculator σ] in
theorem currentValues_of_unstable {ledger : IndicatorLedger σ} (h : ledger.long.current = none) :
    ledger.currentValues = .error .notStable := by
  unfold currentValues
  rw [h]
  cases ledger.short.current <;> rfl

/-- The ledger that `reconcileWith` leaves behind. -/
def reseed (ledger : IndicatorLedger σ) (officialCandles : List ConfirmedCandle) :
    IndicatorLedger σ :=
  ledger.map fun t => t.reseed (officialCandles.map fun c => c.close.value)

/-- `reconcileWith`: what it returns or throws, and the ledger afterwards. The
snapshot taken first can throw before anything has changed. -/
def reconcileWith (ledger : IndicatorLedger σ) (officialCandles : List ConfirmedCandle) :
    Except LedgerError Reconciliation × IndicatorLedger σ :=
  match ledger.snapshotOrNull with
  | .error e => (.error e, ledger)
  | .ok before =>
    let reseeded := ledger.reseed officialCandles
    match reseeded.snapshotOrNull with
    | .error e => (.error e, reseeded)
    | .ok after => (.ok ⟨before, after, before ≠ after⟩, reseeded)

/-- The confirmed SMAs of the ledger have been fed the closes of these candles. -/
structure FedWith (ledger : IndicatorLedger σ) (bars : List ConfirmedCandle) : Prop where
  short : ledger.short.FedWith (bars.map fun c => c.close.value)
  long : ledger.long.FedWith (bars.map fun c => c.close.value)

namespace FedWith

variable {ledger : IndicatorLedger σ} {bars : List ConfirmedCandle}

theorem onCandleConfirmed (h : ledger.FedWith bars) (c : ConfirmedCandle) :
    (ledger.onCandleConfirmed c).FedWith (bars ++ [c]) := by
  constructor
  · simpa using! h.short.addConfirmed c.close.value
  · simpa using! h.long.addConfirmed c.close.value

theorem onCandleUpdated (h : ledger.FedWith bars) (f : FormingCandle) :
    (ledger.onCandleUpdated f).FedWith bars :=
  ⟨h.short, h.long⟩

theorem warmUp (h : ledger.FedWith bars) (candles : List ConfirmedCandle) :
    (ledger.warmUp candles).FedWith (bars ++ candles) := by
  induction candles using List.reverseRecOn with
  | nil => simpa using! h
  | append_singleton candles c ih =>
    have := ih.onCandleConfirmed c
    rw [← List.append_assoc]
    simp only [IndicatorLedger.warmUp, List.foldl_append, List.foldl_cons, List.foldl_nil]
    exact ⟨this.short, this.long⟩

end FedWith

theorem fedWith_reseed (ledger : IndicatorLedger σ) (bars : List ConfirmedCandle) :
    (ledger.reseed bars).FedWith bars :=
  ⟨SmaTracker.fedWith_reseed .., SmaTracker.fedWith_reseed ..⟩

theorem fedWith_new (short long : Nat) : (new short long : IndicatorLedger σ).FedWith [] :=
  ⟨rfl, rfl⟩

theorem fedWith_warmUp (short long : Nat) (bars : List ConfirmedCandle) :
    ((new short long : IndicatorLedger σ).warmUp bars).FedWith bars := by
  simpa using (fedWith_new short long).warmUp bars

end IndicatorLedger

end Luchida
