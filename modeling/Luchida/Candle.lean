import Mathlib.Data.Rat.Defs
import Luchida.TimeFrame

/- Prices, ticks and candles, and `CandleAccumulator`, which folds ticks into
   candles (domain/market/Price.ts, tick/, candle/). Every number that the source
   holds in a `Big` is a rational.

   The values carry what their factories check: a `Price` is positive, a `Tick`
   has its ask above its bid, and a candle's open and close lie between its low
   and its high. What is proved is that `accumulate` never throws
   (`accumulate_cases`): the candle it confirms always passes
   `ConfirmedCandle.of`. -/
namespace Luchida

/-- `Price`. The factory `Price.of` throws on a value that is not positive. -/
structure Price where
  value : ℚ
  pos : 0 < value
  deriving DecidableEq

namespace Price

def of (value : ℚ) : Option Price :=
  if h : 0 < value then some ⟨value, h⟩ else none

def isHigherThan (p other : Price) : Bool := other.value < p.value

theorem isHigherThan_iff {p other : Price} :
    p.isHigherThan other = true ↔ other.value < p.value := by
  simp [isHigherThan]

end Price

/-- `Tick`. The factory throws unless the ask is above the bid. -/
structure Tick where
  ask : Price
  bid : Price
  timestamp : Int
  bid_lt_ask : bid.value < ask.value

/-- What the candle classes throw. Each constructor is one `throw`, with the
values its message interpolates. -/
inductive CandleError where
  /-- `high は open 以上である必要があります` -/
  | highBelowOpen (high openPrice : Price)
  /-- `high は close 以上である必要があります` -/
  | highBelowClose (high close : Price)
  /-- `low は open 以下である必要があります` -/
  | lowAboveOpen (low openPrice : Price)
  /-- `low は close 以下である必要があります` -/
  | lowAboveClose (low close : Price)
  /-- `high は low 以上である必要があります` -/
  | highBelowLow (high low : Price)
  /-- `openTime は closeTime より前である必要があります` -/
  | opensAfterClose (openTime closeTime : Int)
  /-- `確定済みの足に update() を呼ぶことはできません` -/
  | updateConfirmed
  /-- `seedHistory: 空の配列は受け付けません` -/
  | emptyHistory
  /-- `reconcileLastConfirmed: 別時間足の足は受け付けません` -/
  | otherTimeFrame (timeFrame : TimeFrame)
  /-- `reconcileLastConfirmed: 公式確定足が形成中足の足境界に踏み込んでいます` -/
  | overlapsForming
  deriving DecidableEq

/-! ## Confirmed candles -/

structure ConfirmedCandleParams where
  openPrice : Price
  high : Price
  low : Price
  close : Price
  openTime : Int
  closeTime : Int
  timeFrame : TimeFrame

/-- `ConfirmedCandle`: parameters that pass the checks of the factory. -/
structure ConfirmedCandle extends ConfirmedCandleParams where
  low_le_open : low.value ≤ openPrice.value
  open_le_high : openPrice.value ≤ high.value
  low_le_close : low.value ≤ close.value
  close_le_high : close.value ≤ high.value
  opens_before : openTime < closeTime

/-- `ConfirmedCandle.of`, its checks in the source's order. -/
def ConfirmedCandle.of (p : ConfirmedCandleParams) : Except CandleError ConfirmedCandle :=
  if h1 : p.high.value < p.openPrice.value then .error (.highBelowOpen p.high p.openPrice)
  else if h2 : p.high.value < p.close.value then .error (.highBelowClose p.high p.close)
  else if h3 : p.openPrice.value < p.low.value then .error (.lowAboveOpen p.low p.openPrice)
  else if h4 : p.close.value < p.low.value then .error (.lowAboveClose p.low p.close)
  else if p.high.value < p.low.value then .error (.highBelowLow p.high p.low)
  else if h5 : p.openTime ≥ p.closeTime then .error (.opensAfterClose p.openTime p.closeTime)
  else .ok { p with
    low_le_open := not_lt.mp h3
    open_le_high := not_lt.mp h1
    low_le_close := not_lt.mp h4
    close_le_high := not_lt.mp h2
    opens_before := not_le.mp h5 }

/-- The factory gives back every candle that satisfies its checks. -/
theorem ConfirmedCandle.of_params (c : ConfirmedCandle) :
    ConfirmedCandle.of c.toConfirmedCandleParams = .ok c := by
  have hlh : ¬ c.high.value < c.low.value :=
    not_lt.mpr (le_trans c.low_le_open c.open_le_high)
  simp [ConfirmedCandle.of, not_lt.mpr c.open_le_high, not_lt.mpr c.close_le_high,
    not_lt.mpr c.low_le_open, not_lt.mpr c.low_le_close, hlh, not_le.mpr c.opens_before]

/-- The candle of a whole period in which the price never moved. -/
def flatCandle (timeFrame : TimeFrame) (openTime : Int) (price : Price) : ConfirmedCandle where
  openPrice := price
  high := price
  low := price
  close := price
  openTime := openTime
  closeTime := openTime + timeFrame.durationMs
  timeFrame := timeFrame
  low_le_open := le_rfl
  open_le_high := le_rfl
  low_le_close := le_rfl
  close_le_high := le_rfl
  opens_before := lt_add_of_pos_right _ timeFrame.durationMs_pos

/-! ## The forming candle -/

inductive CandleEvent where
  | updated
  | confirmed
  deriving DecidableEq, Repr

/-- `FormingCandle`: the candle ticks are still being added to. -/
structure FormingCandle where
  openPrice : Price
  high : Price
  low : Price
  close : Price
  openTime : Int
  timeFrame : TimeFrame
  confirmed : Bool
  low_le_open : low.value ≤ openPrice.value
  open_le_high : openPrice.value ≤ high.value
  low_le_close : low.value ≤ close.value
  close_le_high : close.value ≤ high.value

namespace FormingCandle

/-- `FormingCandle.open`: every price is the bid of the first tick, and the open
time is that tick's own time, not the start of its bucket. -/
def openWith (firstTick : Tick) (timeFrame : TimeFrame) : FormingCandle where
  openPrice := firstTick.bid
  high := firstTick.bid
  low := firstTick.bid
  close := firstTick.bid
  openTime := firstTick.timestamp
  timeFrame := timeFrame
  confirmed := false
  low_le_open := le_rfl
  open_le_high := le_rfl
  low_le_close := le_rfl
  close_le_high := le_rfl

/-- `max(high, bid)`, as the source writes it. -/
def raisedHigh (f : FormingCandle) (bid : Price) : Price :=
  if bid.isHigherThan f.high then bid else f.high

/-- `min(low, bid)`, as the source writes it. -/
def loweredLow (f : FormingCandle) (bid : Price) : Price :=
  if f.low.isHigherThan bid then bid else f.low

theorem le_raisedHigh (f : FormingCandle) (bid : Price) :
    f.high.value ≤ (f.raisedHigh bid).value ∧ bid.value ≤ (f.raisedHigh bid).value := by
  unfold raisedHigh
  split
  · rename_i h
    exact ⟨le_of_lt (Price.isHigherThan_iff.mp h), le_rfl⟩
  · rename_i h
    exact ⟨le_rfl, not_lt.mp (mt Price.isHigherThan_iff.mpr h)⟩

theorem loweredLow_le (f : FormingCandle) (bid : Price) :
    (f.loweredLow bid).value ≤ f.low.value ∧ (f.loweredLow bid).value ≤ bid.value := by
  unfold loweredLow
  split
  · rename_i h
    exact ⟨le_of_lt (Price.isHigherThan_iff.mp h), le_rfl⟩
  · rename_i h
    exact ⟨le_rfl, not_lt.mp (mt Price.isHigherThan_iff.mpr h)⟩

/-- `FormingCandle.update`. -/
def update (f : FormingCandle) (tick : Tick) : Except CandleError (CandleEvent × FormingCandle) :=
  if f.confirmed then .error .updateConfirmed
  else .ok (.updated,
    { f with
      high := f.raisedHigh tick.bid
      low := f.loweredLow tick.bid
      close := tick.bid
      low_le_open := le_trans (f.loweredLow_le tick.bid).1 f.low_le_open
      open_le_high := le_trans f.open_le_high (f.le_raisedHigh tick.bid).1
      low_le_close := (f.loweredLow_le tick.bid).2
      close_le_high := (f.le_raisedHigh tick.bid).2 })

/-- `FormingCandle.confirm`: no update is accepted afterwards. -/
def confirm (f : FormingCandle) : FormingCandle := { f with confirmed := true }

/-- `FormingCandle.toConfirmed`. -/
def toConfirmed (f : FormingCandle) (closeTime : Int) : Except CandleError ConfirmedCandle :=
  ConfirmedCandle.of {
    openPrice := f.openPrice
    high := f.high
    low := f.low
    close := f.close
    openTime := f.openTime
    closeTime := closeTime
    timeFrame := f.timeFrame }

/-- A forming candle confirmed at a later time passes every check. -/
theorem toConfirmed_ok (f : FormingCandle) {closeTime : Int} (h : f.openTime < closeTime) :
    ∃ c, f.toConfirmed closeTime = .ok c ∧ c.openTime = f.openTime ∧ c.close = f.close ∧
      c.timeFrame = f.timeFrame :=
  let c : ConfirmedCandle :=
    { openPrice := f.openPrice, high := f.high, low := f.low, close := f.close
      openTime := f.openTime, closeTime := closeTime, timeFrame := f.timeFrame
      low_le_open := f.low_le_open, open_le_high := f.open_le_high
      low_le_close := f.low_le_close, close_le_high := f.close_le_high
      opens_before := h }
  ⟨c, c.of_params, rfl, rfl, rfl⟩

end FormingCandle

/-! ## The accumulator -/

/-- `CandleAccumulator`. The candle it holds is of its own time frame and has
not been confirmed. -/
structure CandleAccumulator where
  timeFrame : TimeFrame
  forming : Option FormingCandle
  lastConfirmed : Option ConfirmedCandle
  sound : ∀ f ∈ forming, f.timeFrame = timeFrame ∧ f.confirmed = false

namespace CandleAccumulator

def new (timeFrame : TimeFrame) : CandleAccumulator where
  timeFrame := timeFrame
  forming := none
  lastConfirmed := none
  sound := by simp

/-- The accumulator that goes on with the candle `tick` opens. -/
def reopen (acc : CandleAccumulator) (tick : Tick) (last : Option ConfirmedCandle) :
    CandleAccumulator where
  timeFrame := acc.timeFrame
  forming := some (FormingCandle.openWith tick acc.timeFrame)
  lastConfirmed := last
  sound := by simp [FormingCandle.openWith]

/-- The accumulator with its forming candle updated by `tick`. -/
def extend (acc : CandleAccumulator) (f : FormingCandle) (hf : acc.forming = some f)
    (tick : Tick) : Except CandleError (CandleEvent × CandleAccumulator) :=
  match h : f.update tick with
  | .error e => .error e
  | .ok (event, f') => .ok (event, { acc with
      forming := some f'
      sound := by
        intro g hg
        obtain rfl : f' = g := by simpa using hg
        obtain ⟨htf, hopen⟩ := acc.sound f (by simp [hf])
        unfold FormingCandle.update at h
        split at h
        · simp at h
        · obtain ⟨-, rfl⟩ : _ ∧ _ = f' := by simpa using h
          exact ⟨htf, hopen⟩ })

/-- `CandleAccumulator.accumulate`: start the first candle, add to the current
one, or confirm it and start the next, by the bucket of the tick. -/
def accumulate (acc : CandleAccumulator) (tick : Tick) :
    Except CandleError (CandleEvent × CandleAccumulator) :=
  match hf : acc.forming with
  | none => .ok (.updated, acc.reopen tick acc.lastConfirmed)
  | some f =>
    -- buckets are compared here, open times in `reconcileLastConfirmed`
    let formingPeriodStart := acc.timeFrame.periodStart f.openTime
    if acc.timeFrame.periodStart tick.timestamp = formingPeriodStart then
      acc.extend f hf tick
    else
      let closeTime := formingPeriodStart + acc.timeFrame.durationMs
      match f.confirm.toConfirmed closeTime with
      | .error e => .error e
      | .ok c => .ok (.confirmed, acc.reopen tick (some c))

/-- `CandleAccumulator.seedHistory`. -/
def seedHistory (acc : CandleAccumulator) (candles : List ConfirmedCandle) :
    Except CandleError CandleAccumulator :=
  match candles.getLast? with
  | none => .error .emptyHistory
  | some c => .ok { acc with lastConfirmed := some c }

/-- `CandleAccumulator.reconcileLastConfirmed`: the guard compares open times, the
official one with the time of the first tick of the forming candle. -/
def reconcileLastConfirmed (acc : CandleAccumulator) (official : ConfirmedCandle) :
    Except CandleError CandleAccumulator :=
  if official.timeFrame ≠ acc.timeFrame then .error (.otherTimeFrame official.timeFrame)
  else if acc.forming.any (fun f => f.openTime ≤ official.openTime) then .error .overlapsForming
  else .ok { acc with lastConfirmed := some official }

/-! ### What the operations do -/

/-- What one tick does: it starts the first candle, it stays in the bucket of the
forming candle and leaves the confirmed one alone, or it confirms the forming
candle and starts the next. -/
inductive Accumulated (acc : CandleAccumulator) (tick : Tick) :
    CandleEvent → CandleAccumulator → Prop
  | first : acc.forming = none →
      Accumulated acc tick .updated (acc.reopen tick acc.lastConfirmed)
  | same {acc' : CandleAccumulator} {f f' : FormingCandle} :
      acc.forming = some f → acc.timeFrame.bucket tick.timestamp = acc.timeFrame.bucket f.openTime →
      acc'.timeFrame = acc.timeFrame → acc'.lastConfirmed = acc.lastConfirmed →
      acc'.forming = some f' → f'.openTime = f.openTime →
      Accumulated acc tick .updated acc'
  | next {f : FormingCandle} {c : ConfirmedCandle} :
      acc.forming = some f → acc.timeFrame.bucket tick.timestamp ≠ acc.timeFrame.bucket f.openTime →
      c.openTime = f.openTime → c.close = f.close → c.timeFrame = acc.timeFrame →
      Accumulated acc tick .confirmed (acc.reopen tick (some c))

/-- Adding to an open candle cannot throw. -/
theorem extend_ok (acc : CandleAccumulator) {f : FormingCandle} (hf : acc.forming = some f)
    (tick : Tick) :
    ∃ acc' f', acc.extend f hf tick = .ok (.updated, acc') ∧ acc'.timeFrame = acc.timeFrame ∧
      acc'.lastConfirmed = acc.lastConfirmed ∧ acc'.forming = some f' ∧
      f'.openTime = f.openTime := by
  obtain ⟨htf, hopen⟩ := acc.sound f (by simp [hf])
  unfold extend
  split
  · rename_i e h
    simp [FormingCandle.update, hopen] at h
  · rename_i event f' h
    simp only [FormingCandle.update, hopen, Bool.false_eq_true, ↓reduceIte, Except.ok.injEq,
      Prod.mk.injEq] at h
    obtain ⟨rfl, rfl⟩ := h
    exact ⟨_, _, rfl, rfl, rfl, rfl, rfl⟩

/-- `accumulate` never throws, and does one of three things. -/
theorem accumulate_cases (acc : CandleAccumulator) (tick : Tick) :
    ∃ event acc', acc.accumulate tick = .ok (event, acc') ∧ Accumulated acc tick event acc' := by
  unfold accumulate
  split
  · rename_i hf
    exact ⟨_, _, rfl, .first hf⟩
  · rename_i f hf
    dsimp only
    split
    · rename_i hsame
      obtain ⟨acc', f', heq, htf, hlast, hf', hopen⟩ := acc.extend_ok hf tick
      exact ⟨_, _, heq, .same hf ((TimeFrame.periodStart_eq_iff ..).mp hsame) htf hlast hf' hopen⟩
    · rename_i hne
      -- the end of the bucket is after every tick in it, so confirming cannot throw
      obtain ⟨c, hc, ho, hclose, htf⟩ :=
        f.confirm.toConfirmed_ok (acc.timeFrame.lt_periodStart_add f.openTime)
      obtain ⟨hftf, -⟩ := acc.sound f (by simp [hf])
      simp only [hc]
      exact ⟨_, _, rfl, .next hf (mt (TimeFrame.periodStart_eq_iff ..).mpr hne) ho hclose
        (htf.trans hftf)⟩

/-- The last confirmed candle has no say in what a tick does. -/
theorem accumulate_congr {acc acc' : CandleAccumulator} (htf : acc.timeFrame = acc'.timeFrame)
    (hforming : acc.forming = acc'.forming) (tick : Tick) {event : CandleEvent}
    {next : CandleAccumulator} (h : acc.accumulate tick = .ok (event, next)) :
    ∃ next', acc'.accumulate tick = .ok (event, next') ∧ next.forming = next'.forming ∧
      (event = .confirmed → next.lastConfirmed = next'.lastConfirmed) := by
  obtain ⟨tf, forming, last, sound⟩ := acc
  obtain ⟨tf', forming', last', sound'⟩ := acc'
  obtain rfl : tf = tf' := htf
  obtain rfl : forming = forming' := hforming
  cases forming with
  | none =>
    cases h
    exact ⟨_, rfl, rfl, by simp⟩
  | some f =>
    unfold accumulate at h ⊢
    dsimp only at h ⊢
    by_cases hsame : tf.periodStart tick.timestamp = tf.periodStart f.openTime
    · rw [if_pos hsame] at h ⊢
      unfold extend at h ⊢
      split at h
      · cases h
      · rename_i f' hf'
        cases h
        refine ⟨_, rfl, rfl, fun hconfirmed => ?_⟩
        -- an update never confirms
        subst hconfirmed
        unfold FormingCandle.update at hf'
        split at hf'
        · cases hf'
        · cases hf'
    · rw [if_neg hsame] at h ⊢
      split at h
      · cases h
      · cases h
        exact ⟨_, rfl, rfl, fun _ => rfl⟩

theorem Accumulated.timeFrame_eq {acc acc' : CandleAccumulator} {tick : Tick} {event : CandleEvent}
    (h : Accumulated acc tick event acc') : acc'.timeFrame = acc.timeFrame := by
  cases h with
  | first _ => rfl
  | same _ _ htf _ _ _ => exact htf
  | next _ _ _ _ _ => rfl

theorem seedHistory_ok {acc acc' : CandleAccumulator} {candles : List ConfirmedCandle}
    (h : acc.seedHistory candles = .ok acc') :
    acc'.timeFrame = acc.timeFrame ∧ acc' = { acc with lastConfirmed := candles.getLast? } := by
  unfold seedHistory at h
  split at h
  · cases h
  · rename_i c hc
    cases h
    exact ⟨rfl, by rw [hc]⟩

/-- What an accepted official candle changes: only the confirmed one. -/
theorem reconcileLastConfirmed_ok {acc acc' : CandleAccumulator} {official : ConfirmedCandle}
    (h : acc.reconcileLastConfirmed official = .ok acc') :
    official.timeFrame = acc.timeFrame ∧ acc'.timeFrame = acc.timeFrame ∧
      acc'.forming = acc.forming ∧ acc'.lastConfirmed = some official ∧
      ∀ f ∈ acc.forming, official.openTime < f.openTime := by
  unfold reconcileLastConfirmed at h
  split at h
  · cases h
  · rename_i htf
    split at h
    · cases h
    · rename_i hbefore
      cases h
      refine ⟨not_not.mp htf, rfl, rfl, rfl, ?_⟩
      intro f hf
      have : ¬ f.openTime ≤ official.openTime := by
        intro hle
        exact hbefore (by simpa [Option.any_eq_true] using ⟨f, hf, hle⟩)
      omega

end CandleAccumulator

end Luchida
