import Luchida.Candle
import Luchida.GmoBalanceAdapter

/- PositionSizingService.ts, and MarketDataRateAdapter.ts, where it has its rate from. What
   the service sizes with are the balance it was answered, the bid of the last tick, and the
   target ratio it was built with.

   `executeSizing` takes what is there; `executeWithFresh` takes a balance that the port
   vouches for and a rate that is at most `maxAgeMillis` old, or it throws. -/
namespace Luchida

open DecimalRounding

/-! ## Rates -/

/-- `RatePortError`, with what its message shows. -/
inductive RatePortError where
  /-- `Rate がまだ届いていない（初回 tick 未到着）` -/
  | notYetAvailable (pair : CurrencyPair)
  /-- `Rate が鮮度切れ` -/
  | stale (pair : CurrencyPair) (ageMillis maxAgeMillis : Int)
  /-- `RatePort にバインドされていない通貨ペアが要求された` -/
  | pairMismatch (expected actual : CurrencyPair)
  deriving DecidableEq

/-- `isFreshEnough`. -/
def Rate.isFreshEnough (rate : Rate) (now maxAgeMillis : Int) : Bool :=
  now - rate.capturedAt ≤ maxAgeMillis

theorem Rate.isFreshEnough_iff {rate : Rate} {now maxAgeMillis : Int} :
    rate.isFreshEnough now maxAgeMillis = true ↔ now - rate.capturedAt ≤ maxAgeMillis := by
  simp [isFreshEnough]

/-- `MarketDataRateAdapter`: `subscribed` is whether it holds an `unsubscribe`. -/
structure MarketDataRateAdapter where
  pair : CurrencyPair
  maxAgeMillis : Int
  latest : Option Rate
  subscribed : Bool

inductive RateLabel where
  | start
  | stop
  | tick (tick : Tick)

namespace MarketDataRateAdapter

/-- The rate of a tick is its bid. A `Price` passes the check of `Rate.of`. -/
def rateOf (pair : CurrencyPair) (tick : Tick) : Rate :=
  ⟨tick.bid.value, pair, tick.timestamp, tick.bid.pos⟩

def step (ratePort : MarketDataRateAdapter) : RateLabel → MarketDataRateAdapter
  -- a second `start` or `stop` changes nothing
  | .start => { ratePort with subscribed := true }
  | .stop => { ratePort with subscribed := false }
  | .tick tick =>
    if ratePort.subscribed = true then
      { ratePort with latest := some (rateOf ratePort.pair tick) }
    else ratePort

@[simp] theorem step_pair (ratePort : MarketDataRateAdapter) (a : RateLabel) :
    (ratePort.step a).pair = ratePort.pair := by
  cases a with
  | tick tick => unfold step; dsimp only; split <;> rfl
  | _ => rfl

@[simp] theorem step_maxAgeMillis (ratePort : MarketDataRateAdapter) (a : RateLabel) :
    (ratePort.step a).maxAgeMillis = ratePort.maxAgeMillis := by
  cases a with
  | tick tick => unfold step; dsimp only; split <;> rfl
  | _ => rfl

theorem step_tick_subscribed (ratePort : MarketDataRateAdapter) (tick : Tick) :
    (ratePort.step (.tick tick)).subscribed = ratePort.subscribed := by
  unfold step
  dsimp only
  split <;> rfl

/-- A tick is the rate, where the adapter listens. -/
theorem step_tick_latest (ratePort : MarketDataRateAdapter) (tick : Tick) :
    (ratePort.step (.tick tick)).latest =
      if ratePort.subscribed = true then some (rateOf ratePort.pair tick) else ratePort.latest := by
  unfold step
  dsimp only
  split <;> rfl

/-- `currentOf`. -/
def currentOf (ratePort : MarketDataRateAdapter) (pair : CurrencyPair) :
    Except RatePortError (Option Rate) :=
  if pair ≠ ratePort.pair then .error (.pairMismatch ratePort.pair pair) else .ok ratePort.latest

/-- `currentFresh`. -/
def currentFresh (ratePort : MarketDataRateAdapter) (pair : CurrencyPair) (now : Int) :
    Except RatePortError Rate :=
  if pair ≠ ratePort.pair then .error (.pairMismatch ratePort.pair pair)
  else match ratePort.latest with
    | none => .error (.notYetAvailable pair)
    | some rate =>
      if rate.isFreshEnough now ratePort.maxAgeMillis = true then .ok rate
      else .error (.stale pair (now - rate.capturedAt) ratePort.maxAgeMillis)

theorem currentFresh_ok {ratePort : MarketDataRateAdapter} {pair : CurrencyPair} {now : Int}
    {rate : Rate} (h : ratePort.currentFresh pair now = .ok rate) :
    ratePort.latest = some rate ∧ now - rate.capturedAt ≤ ratePort.maxAgeMillis := by
  unfold currentFresh at h
  split at h
  · cases h
  · split at h
    · cases h
    · rename_i latest hlatest
      split at h
      · rename_i hfresh
        cases h
        exact ⟨hlatest, Rate.isFreshEnough_iff.mp hfresh⟩
      · cases h

end MarketDataRateAdapter

/-! ## The service -/

/-- What keeps the service from a result. -/
inductive SizingError where
  | balancePort (error : BalancePortError)
  | ratePort (error : RatePortError)
  /-- `LotDecisionInput.of` throws. -/
  | input
  /-- `decide` throws. -/
  | lotPolicy
  deriving DecidableEq

/-- `PositionSizingService` but for its two ports. -/
structure PositionSizingService where
  lotPolicy : LotDecisionInput → Option Lot
  fallbackBalance : Balance
  target : MaintenanceRatio
  marginRate : MarginRate

namespace PositionSizingService

/-- What both ways of sizing end with. -/
def size (service : PositionSizingService) (pair : CurrencyPair) (balance : Balance)
    (rate : Rate) : Except SizingError SizingResult :=
  match LotDecisionInput.of pair balance rate service.target service.marginRate with
  | none => .error .input
  | some input =>
    match service.lotPolicy input with
    | none => .error .lotPolicy
    | some lot => .ok ⟨lot, rate, service.marginRate⟩

/-- `executeSizing`. `balance` is what `current` returns. -/
def executeSizing (service : PositionSizingService) (ratePort : MarketDataRateAdapter)
    (pair : CurrencyPair) (balance : Option Balance) : Except SizingError SizingResult :=
  match ratePort.currentOf pair with
  | .error e => .error (.ratePort e)
  | .ok none => .error (.ratePort (.notYetAvailable pair))
  | .ok (some rate) => service.size pair (balance.getD service.fallbackBalance) rate

/-- `execute`. -/
def execute (service : PositionSizingService) (ratePort : MarketDataRateAdapter)
    (pair : CurrencyPair) (balance : Option Balance) : Except SizingError Lot :=
  (service.executeSizing ratePort pair balance).map (·.lot)

/-- `executeWithFresh`. `balance` is how `freshNow` settles, `now` when it goes on. -/
def executeWithFresh (service : PositionSizingService) (ratePort : MarketDataRateAdapter)
    (pair : CurrencyPair) (balance : Except BalancePortError Balance) (now : Int) :
    Except SizingError SizingResult :=
  match balance with
  | .error e => .error (.balancePort e)
  | .ok balance =>
    match ratePort.currentFresh pair now with
    | .error e => .error (.ratePort e)
    | .ok rate => service.size pair balance rate

/-- The lot of a sizing is what the policy decides on its own rate and margin rate. -/
structure Decides (service : PositionSizingService) (pair : CurrencyPair) (balance : Balance)
    (sizing : SizingResult) : Prop where
  marginRate : sizing.marginRate = service.marginRate
  decided : ∃ input, LotDecisionInput.of pair balance sizing.rate service.target
    service.marginRate = some input ∧ service.lotPolicy input = some sizing.lot

theorem decides_of_size {service : PositionSizingService} {pair : CurrencyPair}
    {balance : Balance} {rate : Rate} {sizing : SizingResult}
    (h : service.size pair balance rate = .ok sizing) :
    service.Decides pair balance sizing ∧ sizing.rate = rate := by
  unfold size at h
  split at h
  · cases h
  · rename_i input hinput
    split at h
    · cases h
    · rename_i lot hlot
      cases h
      exact ⟨⟨rfl, input, hinput, hlot⟩, rfl⟩

theorem executeWithFresh_ok {service : PositionSizingService} {ratePort : MarketDataRateAdapter}
    {pair : CurrencyPair} {reply : Except BalancePortError Balance} {now : Int}
    {sizing : SizingResult} (h : service.executeWithFresh ratePort pair reply now = .ok sizing) :
    ∃ balance, reply = .ok balance ∧ service.Decides pair balance sizing ∧
      ratePort.latest = some sizing.rate ∧
      now - sizing.rate.capturedAt ≤ ratePort.maxAgeMillis := by
  unfold executeWithFresh at h
  split at h
  · cases h
  · rename_i balance
    split at h
    · cases h
    · rename_i rate hrate
      obtain ⟨hdecides, rfl⟩ := decides_of_size h
      obtain ⟨hlatest, hfresh⟩ := MarketDataRateAdapter.currentFresh_ok hrate
      exact ⟨balance, rfl, hdecides, hlatest, hfresh⟩

end PositionSizingService

/-! ## What a lot asks of the balance -/

theorem LotDecisionInput.of_eq_some {pair : CurrencyPair} {balance : Balance} {rate : Rate}
    {target : MaintenanceRatio} {marginRate : MarginRate} {input : LotDecisionInput}
    (h : of pair balance rate target marginRate = some input) :
    input.pair = pair ∧ input.balance = balance ∧ input.rate = rate ∧ input.target = target ∧
      input.marginRate = marginRate := by
  unfold of at h
  split at h
  · cases h
    exact ⟨rfl, rfl, rfl, rfl, rfl⟩
  · cases h

namespace MaintenanceRatioBasedLotPolicy

/-- Above the lower limit the balance carries the lot at the target ratio. -/
theorem carries_of_decide {input : LotDecisionInput} {lot : Lot}
    (h : decide input = some lot) (hexact : Exact input) (habove : 100 < lot.units) :
    lot.units * demand input ≤ input.capital := by
  have hjpy : input.pair.quote = .jpy := by
    by_contra hjpy
    unfold decide at h
    rw [if_pos hjpy] at h
    cases h
  obtain ⟨lot', hlot, hunits⟩ := decide_ok input hjpy
  obtain rfl : lot' = lot := Option.some.inj (hlot.symm.trans h)
  obtain ⟨L, hL, hgreatest⟩ := rounded_greatest hexact
  have hle : lot'.units ≤ L := by
    unfold singleLotMinUnits singleLotMaxUnits at hunits
    omega
  calc (lot'.units : ℚ) * demand input ≤ L * demand input := by
        exact mul_le_mul_of_nonneg_right (by exact_mod_cast hle) (demand_pos input).le
    _ ≤ input.capital := hgreatest.1.2

end MaintenanceRatioBasedLotPolicy

/-- `sizingService` of main.ts, whose fallback is what the environment says. -/
def sizingService (fallbackBalance : Balance) : PositionSizingService where
  lotPolicy := MaintenanceRatioBasedLotPolicy.decide
  fallbackBalance := fallbackBalance
  target := ⟨14 / 10, by norm_num⟩
  marginRate := ⟨4 / 100, by norm_num, by norm_num⟩

/-- With these ratios nine decimals of a rate and twelve of the balance are few enough. -/
theorem exact_of_sizingService {fallbackBalance : Balance} {pair : CurrencyPair}
    {balance : Balance} {rate : Rate} {input : LotDecisionInput}
    (hinput : LotDecisionInput.of pair balance rate (sizingService fallbackBalance).target
      (sizingService fallbackBalance).marginRate = some input)
    (hbalance : Decimals 12 balance.money.value) (hrate : Decimals 9 rate.value)
    (hbound : rate.value < 178571) : MaintenanceRatioBasedLotPolicy.Exact input := by
  obtain ⟨-, rfl, rfl, htarget, hmarginRate⟩ := LotDecisionInput.of_eq_some hinput
  have hdemand : MaintenanceRatioBasedLotPolicy.demand input =
      56 / 1000 * input.rate.value := by
    unfold MaintenanceRatioBasedLotPolicy.demand
    rw [htarget, hmarginRate]
    show (14 / 10 : ℚ) * (input.rate.value * (4 / 100)) = _
    ring
  refine ⟨hbalance, ?_, ?_⟩
  · obtain ⟨n, hn⟩ := hrate
    refine ⟨56 * n, ?_⟩
    rw [hdemand, hn]
    push_cast
    ring
  · rw [hdemand]
    linarith

/-- Rounded to whole yen, a margin is half a yen more at most. -/
theorem SizingResult.requiredMarginFor_le (sizing : SizingResult) (lot : Lot) :
    (sizing.requiredMarginFor lot).value ≤
      lot.units * (sizing.rate.value * sizing.marginRate.value) + 1 / 2 := by
  show ((sizing.rate.value * lot.units * sizing.marginRate.value + 1 / 2).floor : ℚ) ≤ _
  calc ((sizing.rate.value * lot.units * sizing.marginRate.value + 1 / 2).floor : ℚ)
      ≤ sizing.rate.value * lot.units * sizing.marginRate.value + 1 / 2 := Int.floor_le _
    _ = lot.units * (sizing.rate.value * sizing.marginRate.value) + 1 / 2 := by ring

end Luchida
