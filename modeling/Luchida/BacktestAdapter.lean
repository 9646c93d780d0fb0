import Mathlib.Tactic.Positivity
import Mathlib.Tactic.Ring
import Luchida.OrderedMap
import Luchida.Throws
import Luchida.TimeFrameBook

/- BacktestSnapshotAdapter.ts: market snapshots made from confirmed bars, for the
   backtest engines. The adapter keeps a ledger for each time frame it was given a
   spec of. The bars of the signal time frame are handed to it one by one; those of
   the other time frames wait in a queue, and one is released when the close of a
   signal bar is the end of its bucket.

   A state of a time frame carries the bars its ledger was given (`fed`), with the
   proofs that the confirmed SMAs hold them and that the last of them is the
   confirmed bar shown. -/
namespace Luchida

open OrderedMap Throws

/-! ## Quotes -/

/-- `toFixed(digits)` of a number: halves away from zero. -/
def toFixed (digits : Nat) (x : ℚ) : ℚ :=
  let scale : ℚ := 10 ^ digits
  if x < 0 then -((-x * scale + 1 / 2).floor / scale) else (x * scale + 1 / 2).floor / scale

/-- What the operators of `number` and `toFixed` make of numbers, rounding and all. A number
is given by the decimal that it prints, the one that `Big` reads. -/
structure NumberArithmetic where
  plus : ℚ → ℚ → ℚ
  minus : ℚ → ℚ → ℚ
  times : ℚ → ℚ → ℚ
  divide : ℚ → ℚ → ℚ
  fixed : Nat → ℚ → ℚ

/-- Numbers that are not rounded. -/
def NumberArithmetic.exact : NumberArithmetic where
  plus x y := x + y
  minus x y := x - y
  times x y := x * y
  divide x y := x / y
  fixed := toFixed

/-- What `Price.of` and `Tick.of` throw. -/
inductive QuoteError where
  /-- `価格は正の数` -/
  | priceNotPositive (value : ℚ)
  /-- `Tick: ask は bid より大きくなければなりません` -/
  | askNotAbove (ask bid : Price)

theorem toFixed_of_nonneg (digits : Nat) {x : ℚ} (h : 0 ≤ x) :
    toFixed digits x = (x * 10 ^ digits + 1 / 2).floor / 10 ^ digits := by
  simp [toFixed, not_lt.mpr h]

theorem toFixed_pos_iff (digits : Nat) (x : ℚ) :
    0 < toFixed digits x ↔ 1 / 2 ≤ x * 10 ^ digits := by
  have hscale : (0 : ℚ) < 10 ^ digits := by positivity
  rcases lt_or_ge x 0 with hx | hx
  · have hneg : 0 ≤ -x * 10 ^ digits + 1 / 2 := by
      have := mul_pos (neg_pos.mpr hx) hscale
      linarith
    have hfloor : (0 : ℚ) ≤ ((-x * 10 ^ digits + 1 / 2).floor : ℚ) := by
      exact_mod_cast Rat.le_floor_iff.mpr (by exact_mod_cast hneg)
    have hfixed : toFixed digits x = -((-x * 10 ^ digits + 1 / 2).floor / 10 ^ digits) := by
      simp [toFixed, hx]
    constructor
    · intro hpos
      have := div_nonneg hfloor hscale.le
      linarith
    · intro hhalf
      have := mul_neg_of_neg_of_pos hx hscale
      linarith
  · rw [toFixed_of_nonneg digits hx, div_pos_iff_of_pos_right hscale, Int.cast_pos,
      Int.lt_iff_add_one_le, Rat.le_floor_iff]
    push_cast
    constructor <;> intro h <;> linarith

/-- `Price.of` on the text of a number with so many decimals. -/
def Price.ofFixed (numbers : NumberArithmetic) (digits : Nat) (x : ℚ) : Except QuoteError Price :=
  match Price.of (numbers.fixed digits x) with
  | some price => .ok price
  | none => .error (.priceNotPositive (numbers.fixed digits x))

theorem Price.ofFixed_of_pos {numbers : NumberArithmetic} {digits : Nat} {x : ℚ}
    (h : 0 < numbers.fixed digits x) :
    Price.ofFixed numbers digits x = .ok ⟨numbers.fixed digits x, h⟩ := by
  simp [Price.ofFixed, Price.of, h]

theorem Price.ofFixed_eq_ok {numbers : NumberArithmetic} {digits : Nat} {x : ℚ} {price : Price}
    (h : Price.ofFixed numbers digits x = .ok price) : price.value = numbers.fixed digits x := by
  by_cases hpos : 0 < numbers.fixed digits x
  · rw [Price.ofFixed_of_pos hpos] at h
    cases h
    rfl
  · simp [Price.ofFixed, Price.of, hpos] at h

/-- `Tick.of`. -/
def Tick.of (ask bid : Price) (timestamp : Int) : Except QuoteError Tick :=
  if h : bid.value < ask.value then .ok ⟨ask, bid, timestamp, h⟩ else .error (.askNotAbove ask bid)

/-! ## One time frame -/

/-- `TimeFrameIndicatorSpec`. -/
structure TimeFrameIndicatorSpec where
  timeFrame : TimeFrame
  shortPeriod : Nat
  longPeriod : Nat
  deriving DecidableEq

/-- What a snapshot adapter throws. -/
inductive SnapshotAdapterError where
  /-- `BacktestSnapshotAdapter: specs に signalTimeFrame が含まれていません` -/
  | signalSpecMissing (timeFrame : TimeFrame)
  /-- `BacktestSnapshotAdapter: timeFrame が重複` -/
  | duplicateTimeFrame (timeFrame : TimeFrame)
  /-- `BacktestSnapshotAdapter: … の upcoming 先頭が warmup 末尾以前。` -/
  | upcomingBeforeWarmUp (timeFrame : TimeFrame) (warmupEnd upcomingStart : Int)
  /-- `BacktestSnapshotAdapter: warmUp() を先に呼んでください` -/
  | notWarmedUp
  | quote (error : QuoteError)
  | candle (error : CandleError)
  | ledger (error : LedgerError)
  | snapshot (error : BookError)
  /-- What another adapter throws. -/
  | thrown (message : String)

/-- `TimeFrameState`, with the bars its ledger was given, in order. -/
structure TimeFrameState (σ : Type) [SmaCalculator σ] where
  spec : TimeFrameIndicatorSpec
  ledger : IndicatorLedger σ
  lastConfirmed : Option ConfirmedCandle
  upcomingConfirms : List ConfirmedCandle
  fed : List ConfirmedCandle
  ledger_fed : ledger.FedWith fed
  last_fed : lastConfirmed = fed.getLast?

namespace TimeFrameState

variable {σ : Type} [SmaCalculator σ]

def new (spec : TimeFrameIndicatorSpec) : TimeFrameState σ where
  spec := spec
  ledger := .new spec.shortPeriod spec.longPeriod
  lastConfirmed := none
  upcomingConfirms := []
  fed := []
  ledger_fed := IndicatorLedger.fedWith_new ..
  last_fed := rfl

/-- Feed warm-up bars. An empty list is passed over. -/
def warmUp (st : TimeFrameState σ) (candles : List ConfirmedCandle) : TimeFrameState σ :=
  match h : candles.getLast? with
  | none => st
  | some last => { st with
      ledger := st.ledger.warmUp candles
      lastConfirmed := some last
      fed := st.fed ++ candles
      ledger_fed := st.ledger_fed.warmUp candles
      last_fed := by simp [List.getLast?_append, h] }

/-- Feed one confirmed bar. -/
def confirm (st : TimeFrameState σ) (candle : ConfirmedCandle) : TimeFrameState σ :=
  { st with
    ledger := st.ledger.onCandleConfirmed candle
    lastConfirmed := some candle
    fed := st.fed ++ [candle]
    ledger_fed := st.ledger_fed.onCandleConfirmed candle
    last_fed := by simp }

def updateForming (st : TimeFrameState σ) (forming : FormingCandle) : TimeFrameState σ :=
  { st with
    ledger := st.ledger.onCandleUpdated forming
    ledger_fed := st.ledger_fed.onCandleUpdated forming }

/-- The loop over the queue: the bar of the expected bucket, if it is reached, and
what is left. Bars that open earlier are thrown away. -/
def takeExpected (expectedOpenMs : Int) :
    List ConfirmedCandle → Option ConfirmedCandle × List ConfirmedCandle
  | [] => (none, [])
  | head :: rest =>
    if head.openTime = expectedOpenMs then (some head, rest)
    else if expectedOpenMs < head.openTime then (none, head :: rest)
    else takeExpected expectedOpenMs rest

/-- Confirm the bar that has just closed, if the queue has it. -/
def release (st : TimeFrameState σ) (expectedOpenMs : Int) : TimeFrameState σ :=
  match takeExpected expectedOpenMs st.upcomingConfirms with
  | (some next, rest) => { st.confirm next with upcomingConfirms := rest }
  | (none, rest) => { st with upcomingConfirms := rest }

@[simp] theorem new_fed (spec : TimeFrameIndicatorSpec) : (new spec : TimeFrameState σ).fed = [] :=
  rfl

@[simp] theorem warmUp_fed (st : TimeFrameState σ) (candles : List ConfirmedCandle) :
    (st.warmUp candles).fed = st.fed ++ candles := by
  unfold warmUp
  split
  · rename_i h
    simp [List.getLast?_eq_none_iff.mp h]
  · rfl

@[simp] theorem warmUp_ledger (st : TimeFrameState σ) (candles : List ConfirmedCandle) :
    (st.warmUp candles).ledger = st.ledger.warmUp candles := by
  unfold warmUp
  split
  · rename_i h
    rw [List.getLast?_eq_none_iff.mp h]
    rfl
  · rfl

@[simp] theorem warmUp_upcoming (st : TimeFrameState σ) (candles : List ConfirmedCandle) :
    (st.warmUp candles).upcomingConfirms = st.upcomingConfirms := by
  unfold warmUp
  split <;> rfl

@[simp] theorem confirm_fed (st : TimeFrameState σ) (candle : ConfirmedCandle) :
    (st.confirm candle).fed = st.fed ++ [candle] := rfl

@[simp] theorem updateForming_fed (st : TimeFrameState σ) (forming : FormingCandle) :
    (st.updateForming forming).fed = st.fed := rfl

@[simp] theorem updateForming_upcoming (st : TimeFrameState σ) (forming : FormingCandle) :
    (st.updateForming forming).upcomingConfirms = st.upcomingConfirms := rfl

@[simp] theorem release_upcoming (st : TimeFrameState σ) (expectedOpenMs : Int) :
    (st.release expectedOpenMs).upcomingConfirms =
      (takeExpected expectedOpenMs st.upcomingConfirms).2 := by
  unfold release
  split <;> rename_i h <;> rw [h]

@[simp] theorem release_fed (st : TimeFrameState σ) (expectedOpenMs : Int) :
    (st.release expectedOpenMs).fed =
      st.fed ++ (takeExpected expectedOpenMs st.upcomingConfirms).1.toList := by
  unfold release
  split <;> rename_i h <;> simp [h]

/-- On an ascending queue the loop keeps the bars that open later, and takes the one
that opens at the expected time. -/
theorem takeExpected_eq (expectedOpenMs : Int) {queue : List ConfirmedCandle}
    (h : queue.Pairwise (fun a b => a.openTime < b.openTime)) :
    (takeExpected expectedOpenMs queue).1.toList =
        queue.filter (fun c => c.openTime = expectedOpenMs) ∧
      (takeExpected expectedOpenMs queue).2 =
        queue.filter (fun c => expectedOpenMs < c.openTime) := by
  induction queue with
  | nil => simp [takeExpected]
  | cons head rest ih =>
    obtain ⟨hhead, hrest⟩ := List.pairwise_cons.mp h
    unfold takeExpected
    split
    · rename_i heq
      subst heq
      constructor
      · have hnone : rest.filter (fun c => c.openTime = head.openTime) = [] := by
          rw [List.filter_eq_nil_iff]
          intro c hc
          simpa using Int.ne_of_gt (hhead c hc)
        simp [hnone]
      · have hall : rest.filter (fun c => head.openTime < c.openTime) = rest := by
          rw [List.filter_eq_self]
          intro c hc
          simpa using hhead c hc
        simp [hall]
    · rename_i hne
      split
      · rename_i hlt
        -- everything behind the head opens later still
        have hlater : ∀ c ∈ rest, expectedOpenMs < c.openTime :=
          fun c hc => Int.lt_trans hlt (hhead c hc)
        constructor
        · symm
          simp only [Option.toList_none, List.filter_eq_nil_iff, decide_eq_true_eq]
          intro c hc
          rcases List.mem_cons.mp hc with rfl | hc
          · exact hne
          · exact Int.ne_of_gt (hlater c hc)
        · symm
          simp only [List.filter_eq_self, decide_eq_true_eq]
          intro c hc
          rcases List.mem_cons.mp hc with rfl | hc
          · exact hlt
          · exact hlater c hc
      · rename_i hnlt
        simpa [hne, hnlt] using ih hrest

end TimeFrameState

/-! ## Synthetic candles -/

/-- A forming candle at a price: the first tick of a bar that has only just begun, with
a spread of a tenth of a pip around it. -/
def makeForming (numbers : NumberArithmetic) (price : Price) (latestTick : Tick) (tf : TimeFrame) :
    Except QuoteError FormingCandle := do
  let spread : ℚ := 5 / 10000
  let ask ← Price.ofFixed numbers 6 (numbers.plus price.value spread)
  let bid ← Price.ofFixed numbers 6 (numbers.minus price.value spread)
  let tick ← Tick.of ask bid latestTick.timestamp
  return FormingCandle.openWith tick tf

/-- `makeFormingFromOpen`: at the open of the next bar. -/
def makeFormingFromOpen (numbers : NumberArithmetic) (nextCandleOpen : Price) :
    Tick → TimeFrame → Except QuoteError FormingCandle :=
  makeForming numbers nextCandleOpen

/-- `makeFormingFromCandle`: at the close of the confirmed bar. -/
def makeFormingFromCandle (numbers : NumberArithmetic) (base : ConfirmedCandle) :
    Tick → TimeFrame → Except QuoteError FormingCandle :=
  makeForming numbers base.close

theorem makeForming_timeFrame {numbers : NumberArithmetic} {price : Price} {latestTick : Tick}
    {tf : TimeFrame} {f : FormingCandle} (h : makeForming numbers price latestTick tf = .ok f) :
    f.timeFrame = tf := by
  obtain ⟨ask, -, h⟩ := bind_eq_ok.mp h
  obtain ⟨bid, -, h⟩ := bind_eq_ok.mp h
  obtain ⟨tick, -, h⟩ := bind_eq_ok.mp h
  cases h
  rfl

/-- The two numbers around the price are a quote. -/
def NumberArithmetic.Quotable (numbers : NumberArithmetic) (price : Price) : Prop :=
  0 < numbers.fixed 6 (numbers.minus price.value (5 / 10000)) ∧
    numbers.fixed 6 (numbers.minus price.value (5 / 10000)) <
      numbers.fixed 6 (numbers.plus price.value (5 / 10000))

theorem exists_makeForming_iff {numbers : NumberArithmetic} {price : Price} (latestTick : Tick)
    (tf : TimeFrame) :
    (∃ f, makeForming numbers price latestTick tf = .ok f) ↔ numbers.Quotable price := by
  constructor
  · intro hforming
    obtain ⟨f, hf⟩ := hforming
    obtain ⟨ask, hask, hf⟩ := bind_eq_ok.mp hf
    obtain ⟨bid, hbid, hf⟩ := bind_eq_ok.mp hf
    obtain ⟨tick, htick, -⟩ := bind_eq_ok.mp hf
    unfold Tick.of at htick
    split at htick
    · rename_i hlt
      rw [Price.ofFixed_eq_ok hask, Price.ofFixed_eq_ok hbid] at hlt
      exact ⟨Price.ofFixed_eq_ok hbid ▸ bid.pos, hlt⟩
    · cases htick
  · intro hquotable
    obtain ⟨hbid, hlt⟩ := hquotable
    exact ⟨_, bind_eq_ok.mpr ⟨_, Price.ofFixed_of_pos (hbid.trans hlt), bind_eq_ok.mpr ⟨_,
      Price.ofFixed_of_pos hbid, bind_eq_ok.mpr ⟨_, dif_pos hlt, rfl⟩⟩⟩⟩

/-- Numbers that are not rounded are a quote from half a millionth above the spread on. -/
theorem exact_quotable_iff (price : Price) :
    NumberArithmetic.exact.Quotable price ↔ 1001 / 2000000 ≤ price.value := by
  have hbidPos : 0 < toFixed 6 (price.value - 5 / 10000) ↔ 1001 / 2000000 ≤ price.value := by
    rw [toFixed_pos_iff]
    constructor <;> intro h <;> linarith
  refine ⟨fun h => hbidPos.mp h.1, fun hprice => ⟨hbidPos.mpr hprice, ?_⟩⟩
  have hbid : 0 ≤ price.value - 5 / 10000 := by linarith
  have hask : 0 ≤ price.value + 5 / 10000 := by linarith
  -- the two numbers are a thousand steps of the sixth decimal apart
  have hsplit : (price.value + 5 / 10000) * 10 ^ 6 + 1 / 2 =
      (price.value - 5 / 10000) * 10 ^ 6 + 1 / 2 + (1000 : Int) := by
    push_cast
    ring
  have hstep :=
    Rat.floor_add_intCast (x := (price.value - 5 / 10000) * 10 ^ 6 + 1 / 2) (y := 1000)
  rw [← hsplit] at hstep
  show toFixed 6 (price.value - 5 / 10000) < toFixed 6 (price.value + 5 / 10000)
  rw [toFixed_of_nonneg 6 hbid, toFixed_of_nonneg 6 hask, hstep]
  push_cast
  linarith

/-- Above a tenth of a pip they are one. -/
theorem exists_makeForming {price : Price} (h : 1 / 1000 < price.value) (latestTick : Tick)
    (tf : TimeFrame) : ∃ f, makeForming .exact price latestTick tf = .ok f :=
  (exists_makeForming_iff latestTick tf).mpr ((exact_quotable_iff price).mpr (by linarith))

/-- `makeDummyTimeFrameSnapshot`, for a time frame without bars. -/
def makeDummyTimeFrameSnapshot (tf : TimeFrame) (sourceCandle : ConfirmedCandle) (tick : Tick) :
    Except SnapshotAdapterError TimeFrameSnapshot := do
  let confirmed ← (ConfirmedCandle.of {
    openPrice := sourceCandle.openPrice
    high := sourceCandle.high
    low := sourceCandle.low
    close := sourceCandle.close
    openTime := tf.periodStart sourceCandle.openTime
    closeTime := tf.periodStart sourceCandle.openTime + tf.durationMs - 1
    timeFrame := tf }).mapError .candle
  let sma ← (SmaValue.of sourceCandle.close.value).mapError .ledger
  let dummySma : SmaSnapshot := ⟨sma, sma, sma, sma⟩
  (TimeFrameSnapshot.of tf confirmed (.openWith tick tf) ⟨dummySma, dummySma⟩).mapError .snapshot

theorem exists_makeDummyTimeFrameSnapshot (tf : TimeFrame) (sourceCandle : ConfirmedCandle)
    (tick : Tick) : ∃ s, makeDummyTimeFrameSnapshot tf sourceCandle tick = .ok s := by
  let c : ConfirmedCandle := { sourceCandle with
    openTime := tf.periodStart sourceCandle.openTime
    closeTime := tf.periodStart sourceCandle.openTime + tf.durationMs - 1
    timeFrame := tf
    opens_before := by
      have : 60000 ≤ tf.durationMs := by cases tf <;> decide
      omega }
  have hcandle := c.of_params
  have hsma := SmaValue.of_pos sourceCandle.close.pos
  let dummySma : SmaSnapshot := ⟨⟨_, sourceCandle.close.pos⟩, ⟨_, sourceCandle.close.pos⟩,
    ⟨_, sourceCandle.close.pos⟩, ⟨_, sourceCandle.close.pos⟩⟩
  have hshot : ∃ s, TimeFrameSnapshot.of tf c (.openWith tick tf) ⟨dummySma, dummySma⟩ = .ok s := by
    simp [TimeFrameSnapshot.of, c, FormingCandle.openWith]
  obtain ⟨s, hs⟩ := hshot
  exact ⟨s, bind_eq_ok.mpr ⟨_, mapError_eq_ok.mpr hcandle, bind_eq_ok.mpr ⟨_,
    mapError_eq_ok.mpr hsma, mapError_eq_ok.mpr hs⟩⟩⟩

/-! ## The adapter -/

/-- `BacktestSnapshotAdapter`. The signal time frame is one of those it has a state of. -/
structure BacktestSnapshotAdapter (σ : Type) [SmaCalculator σ] where
  pair : CurrencyPair
  signalTimeFrame : TimeFrame
  states : List (TimeFrame × TimeFrameState σ)
  warmedUp : Bool
  numbers : NumberArithmetic
  signal_mem : has states signalTimeFrame = true

namespace BacktestSnapshotAdapter

variable {σ : Type} [SmaCalculator σ]

/-- The loop of the constructor over the specs. -/
def register : List TimeFrameIndicatorSpec → List (TimeFrame × TimeFrameState σ) →
    Except SnapshotAdapterError (List (TimeFrame × TimeFrameState σ))
  | [], states => .ok states
  | spec :: rest, states =>
    if has states spec.timeFrame = true then .error (.duplicateTimeFrame spec.timeFrame)
    else register rest (set states spec.timeFrame (.new spec))

/-- The states in the order of the specs. -/
def freshStates (specs : List TimeFrameIndicatorSpec) : List (TimeFrame × TimeFrameState σ) :=
  specs.map fun spec => (spec.timeFrame, .new spec)

theorem register_ok {specs : List TimeFrameIndicatorSpec}
    {states states' : List (TimeFrame × TimeFrameState σ)}
    (h : register specs states = .ok states') : states' = states ++ freshStates specs := by
  induction specs generalizing states with
  | nil =>
    cases h
    simp [freshStates]
  | cons spec rest ih =>
    unfold register at h
    split at h
    · cases h
    · rename_i hnew
      rw [ih h, OrderedMap.set, if_neg hnew]
      simp [freshStates]

/-- The constructor. -/
def new (pair : CurrencyPair) (signalTimeFrame : TimeFrame) (specs : List TimeFrameIndicatorSpec)
    (numbers : NumberArithmetic := .exact) :
    Except SnapshotAdapterError (BacktestSnapshotAdapter σ) :=
  if hsome : specs.any (fun spec => spec.timeFrame = signalTimeFrame) = true then
    match hreg : register specs [] with
    | .error e => .error e
    | .ok states => .ok {
        pair := pair
        signalTimeFrame := signalTimeFrame
        states := states
        warmedUp := false
        numbers := numbers
        signal_mem := by
          obtain ⟨spec, hmem, heq⟩ := List.any_eq_true.mp hsome
          rw [register_ok hreg, List.nil_append, has_iff]
          exact List.mem_map.mpr ⟨_, List.mem_map.mpr ⟨spec, hmem, rfl⟩, of_decide_eq_true heq⟩ }
  else .error (.signalSpecMissing signalTimeFrame)

/-- `singleTimeFrame`. -/
def singleTimeFrame (pair : CurrencyPair) (timeFrame : TimeFrame) (shortPeriod longPeriod : Nat) :
    Except SnapshotAdapterError (BacktestSnapshotAdapter σ) :=
  new pair timeFrame [⟨timeFrame, shortPeriod, longPeriod⟩]

/-- A change of every state keeps the signal time frame. -/
def mapStates (a : BacktestSnapshotAdapter σ)
    (f : TimeFrame → TimeFrameState σ → TimeFrameState σ) : BacktestSnapshotAdapter σ :=
  { a with
    states := mapValues f a.states
    signal_mem := by
      have := a.signal_mem
      simpa [has] using this }

/-- The same for a change that may throw. -/
def mapStatesM (a : BacktestSnapshotAdapter σ)
    (f : TimeFrame → TimeFrameState σ → Except SnapshotAdapterError (TimeFrameState σ)) :
    Except SnapshotAdapterError (BacktestSnapshotAdapter σ) :=
  match h : mapValuesM f a.states with
  | .error e => .error e
  | .ok states => .ok { a with
      states := states
      signal_mem := by
        have hget := congrArg Option.isSome (get_mapValuesM h a.signalTimeFrame)
        have hsome := a.signal_mem
        simp only [Option.isSome_map] at hget
        simp only [has] at hsome ⊢
        rw [← hget, hsome] }

theorem mapStatesM_ok {a a' : BacktestSnapshotAdapter σ}
    {f : TimeFrame → TimeFrameState σ → Except SnapshotAdapterError (TimeFrameState σ)}
    (h : a.mapStatesM f = .ok a') :
    a'.pair = a.pair ∧ a'.signalTimeFrame = a.signalTimeFrame ∧ a'.warmedUp = a.warmedUp ∧
      a'.numbers = a.numbers ∧
      ∀ tf, (get a.states tf).map (f tf) = (get a'.states tf).map .ok := by
  unfold mapStatesM at h
  split at h
  · cases h
  · rename_i hstates
    cases h
    exact ⟨rfl, rfl, rfl, rfl, fun tf => get_mapValuesM hstates tf⟩

theorem of_mem_mapStatesM {a a' : BacktestSnapshotAdapter σ}
    {f : TimeFrame → TimeFrameState σ → Except SnapshotAdapterError (TimeFrameState σ)}
    (h : a.mapStatesM f = .ok a') {e' : TimeFrame × TimeFrameState σ} (he' : e' ∈ a'.states) :
    ∃ e ∈ a.states, e.1 = e'.1 ∧ f e.1 e.2 = .ok e'.2 := by
  unfold mapStatesM at h
  split at h
  · cases h
  · rename_i hstates
    cases h
    exact of_mem_mapValuesM hstates he'

theorem exists_mapStatesM {a : BacktestSnapshotAdapter σ}
    {f : TimeFrame → TimeFrameState σ → Except SnapshotAdapterError (TimeFrameState σ)}
    (h : ∀ e ∈ a.states, ∃ st, f e.1 e.2 = .ok st) : ∃ a', a.mapStatesM f = .ok a' := by
  obtain ⟨states, hstates⟩ := exists_mapValuesM h
  unfold mapStatesM
  split
  · rename_i e he
    rw [hstates] at he
    cases he
  · exact ⟨_, rfl⟩

/-- `warmUpAll`. -/
def warmUpAll (a : BacktestSnapshotAdapter σ)
    (confirmedCandlesByTf : List (TimeFrame × List ConfirmedCandle)) : BacktestSnapshotAdapter σ :=
  { a.mapStates fun tf st => match get confirmedCandlesByTf tf with
      | some candles => st.warmUp candles
      | none => st with
    warmedUp := true }

/-- `warmUp`. -/
def warmUp (a : BacktestSnapshotAdapter σ) (confirmedCandles : List ConfirmedCandle) :
    BacktestSnapshotAdapter σ :=
  a.warmUpAll [(a.signalTimeFrame, confirmedCandles)]

/-- The queue of one time frame, checked to start after the warm-up. -/
def setUpcoming (a : BacktestSnapshotAdapter σ)
    (upcoming : List (TimeFrame × List ConfirmedCandle)) (tf : TimeFrame) (st : TimeFrameState σ) :
    Except SnapshotAdapterError (TimeFrameState σ) :=
  if tf = a.signalTimeFrame then .ok st
  else match get upcoming tf with
    | none | some [] => .ok st
    | some (first :: rest) => match st.lastConfirmed with
      | none => .ok { st with upcomingConfirms := first :: rest }
      | some last =>
        if first.openTime ≤ last.openTime then
          .error (.upcomingBeforeWarmUp tf last.openTime first.openTime)
        else .ok { st with upcomingConfirms := first :: rest }

/-- `setUpcomingConfirmsByTimeFrame`. -/
def setUpcomingConfirmsByTimeFrame (a : BacktestSnapshotAdapter σ)
    (upcoming : List (TimeFrame × List ConfirmedCandle)) :
    Except SnapshotAdapterError (BacktestSnapshotAdapter σ) :=
  a.mapStatesM (a.setUpcoming upcoming)

/-- What a confirmed signal bar does to one time frame. -/
def advance (a : BacktestSnapshotAdapter σ) (newCandle : ConfirmedCandle) (latestTick : Tick)
    (signalForming : FormingCandle) (tf : TimeFrame) (st : TimeFrameState σ) :
    Except SnapshotAdapterError (TimeFrameState σ) :=
  if tf = a.signalTimeFrame then .ok ((st.confirm newCandle).updateForming signalForming)
  else
    -- the close of the signal bar is the open of the next one
    let nextOpenTime := newCandle.closeTime
    let st :=
      if tf.isAligned nextOpenTime = true then st.release (nextOpenTime - tf.durationMs) else st
    match st.lastConfirmed with
    | none => .ok st
    | some confirmed => do
      let forming ← (makeFormingFromCandle a.numbers confirmed latestTick tf).mapError .quote
      return st.updateForming forming

/-- The snapshot of one time frame: its bars, or a dummy made from the signal bar. -/
def timeFrameSnapshot (a : BacktestSnapshotAdapter σ) (newCandle : ConfirmedCandle)
    (latestTick : Tick) (signalForming : FormingCandle) (tf : TimeFrame) :
    Except SnapshotAdapterError TimeFrameSnapshot :=
  match (get a.states tf).bind fun st => st.lastConfirmed.map fun c => (st, c) with
  | some (st, confirmed) => do
    let forming ← if tf = a.signalTimeFrame then pure signalForming
      else (makeFormingFromCandle a.numbers confirmed latestTick tf).mapError .quote
    let indicators ← st.ledger.currentValues.mapError .ledger
    (TimeFrameSnapshot.of tf confirmed forming indicators).mapError .snapshot
  | none => makeDummyTimeFrameSnapshot tf newCandle latestTick

/-- `addCandleAndBuild`. -/
def addCandleAndBuild (a : BacktestSnapshotAdapter σ) (newCandle : ConfirmedCandle)
    (latestTick : Tick) (nextCandleOpen : Price) :
    Except SnapshotAdapterError (MarketSnapshot × BacktestSnapshotAdapter σ) :=
  if a.warmedUp = false then .error .notWarmedUp
  else do
    let signalForming ←
      (makeFormingFromOpen a.numbers nextCandleOpen latestTick a.signalTimeFrame).mapError .quote
    let a ← a.mapStatesM (a.advance newCandle latestTick signalForming)
    let timeFrames ← mapValuesM
      (fun tf () => a.timeFrameSnapshot newCandle latestTick signalForming tf)
      (TimeFrame.liveTimeframes.map fun tf => (tf, ()))
    let snapshot ← (MarketSnapshot.of (get timeFrames) latestTick a.pair
      latestTick.timestamp).mapError .snapshot
    return (snapshot, a)

/-! ### What the operations do -/

theorem new_ok {pair : CurrencyPair} {signalTimeFrame : TimeFrame}
    {specs : List TimeFrameIndicatorSpec} {numbers : NumberArithmetic}
    {a : BacktestSnapshotAdapter σ} (h : new pair signalTimeFrame specs numbers = .ok a) :
    a.states = freshStates specs ∧ a.signalTimeFrame = signalTimeFrame ∧ a.warmedUp = false ∧
      a.numbers = numbers := by
  unfold new at h
  split at h
  · split at h
    · cases h
    · rename_i hreg
      cases h
      exact ⟨by simpa using register_ok hreg, rfl, rfl, rfl⟩
  · cases h

/-- A time frame the adapter was given a spec of starts empty. -/
theorem new_get {pair : CurrencyPair} {signalTimeFrame tf : TimeFrame}
    {specs : List TimeFrameIndicatorSpec} {numbers : NumberArithmetic}
    {a : BacktestSnapshotAdapter σ} (h : new pair signalTimeFrame specs numbers = .ok a)
    {st : TimeFrameState σ} (hst : get a.states tf = some st) :
    ∃ spec ∈ specs, spec.timeFrame = tf ∧ st = .new spec := by
  rw [(new_ok h).1] at hst
  obtain ⟨spec, hmem, heq⟩ := List.mem_map.mp (mem_of_get hst)
  cases heq
  exact ⟨spec, hmem, rfl, rfl⟩

@[simp] theorem warmUpAll_get (a : BacktestSnapshotAdapter σ)
    (candles : List (TimeFrame × List ConfirmedCandle)) (tf : TimeFrame) :
    get (a.warmUpAll candles).states tf = (get a.states tf).map fun st =>
      match get candles tf with
      | some l => st.warmUp l
      | none => st := by
  simp [warmUpAll, mapStates]

/-- The queue that `setUpcoming` leaves, where the list is not empty. -/
theorem setUpcoming_ok {a : BacktestSnapshotAdapter σ}
    {upcoming : List (TimeFrame × List ConfirmedCandle)} {tf : TimeFrame}
    {st st' : TimeFrameState σ} (h : a.setUpcoming upcoming tf st = .ok st') :
    st'.fed = st.fed ∧
      (tf ≠ a.signalTimeFrame → ∀ queue, get upcoming tf = some queue →
        st'.upcomingConfirms = if queue = [] then st.upcomingConfirms else queue) := by
  unfold setUpcoming at h
  split at h
  · rename_i heq
    cases h
    exact ⟨rfl, fun hne => absurd heq hne⟩
  · split at h
    · rename_i hget
      cases h
      exact ⟨rfl, fun _ queue hq => by simp [hget] at hq⟩
    · rename_i hget
      cases h
      exact ⟨rfl, fun _ queue hq => by simp [← Option.some.inj (hget.symm.trans hq)]⟩
    · rename_i first rest hget
      have hqueue : ∀ queue, get upcoming tf = some queue → queue = first :: rest :=
        fun queue hq => Option.some.inj (hq.symm.trans hget)
      split at h
      · cases h
        exact ⟨rfl, fun _ queue hq => by simp [hqueue queue hq]⟩
      · split at h
        · cases h
        · cases h
          exact ⟨rfl, fun _ queue hq => by simp [hqueue queue hq]⟩

/-- The signal bar is fed to its own time frame. -/
theorem advance_signal {a : BacktestSnapshotAdapter σ} {candle : ConfirmedCandle} {tick : Tick}
    {forming : FormingCandle} {st st' : TimeFrameState σ}
    (h : a.advance candle tick forming a.signalTimeFrame st = .ok st') :
    st' = (st.confirm candle).updateForming forming := by
  simp only [advance, ↓reduceIte, Except.ok.injEq] at h
  exact h.symm

/-- Another time frame is fed what its queue releases, when the bar ends its bucket. -/
theorem advance_other {a : BacktestSnapshotAdapter σ} {candle : ConfirmedCandle} {tick : Tick}
    {forming : FormingCandle} {tf : TimeFrame} (hne : tf ≠ a.signalTimeFrame)
    {st st' : TimeFrameState σ} (h : a.advance candle tick forming tf st = .ok st') :
    st'.fed = (if tf.isAligned candle.closeTime = true then
        (st.release (candle.closeTime - tf.durationMs)).fed else st.fed) ∧
      st'.upcomingConfirms = (if tf.isAligned candle.closeTime = true then
        (st.release (candle.closeTime - tf.durationMs)).upcomingConfirms
        else st.upcomingConfirms) := by
  simp only [advance, if_neg hne] at h
  split at h
  · cases h
    constructor <;> split <;> rfl
  · obtain ⟨higher, -, h⟩ := bind_eq_ok.mp h
    cases h
    constructor <;> (simp only [TimeFrameState.updateForming_fed,
      TimeFrameState.updateForming_upcoming]; split <;> rfl)

/-- Every time frame gets a snapshot. -/
theorem get_liveTimeframes (tf : TimeFrame) :
    get (TimeFrame.liveTimeframes.map fun tf => (tf, ())) tf = some () := by
  cases tf <;> rfl

/-- What a call leaves, and what its snapshot shows. -/
theorem addCandleAndBuild_ok {a a' : BacktestSnapshotAdapter σ} {candle : ConfirmedCandle}
    {tick : Tick} {nextOpen : Price} {snapshot : MarketSnapshot}
    (h : a.addCandleAndBuild candle tick nextOpen = .ok (snapshot, a')) :
    a.warmedUp = true ∧ ∃ forming,
      makeFormingFromOpen a.numbers nextOpen tick a.signalTimeFrame = .ok forming ∧
      a.mapStatesM (a.advance candle tick forming) = .ok a' ∧ snapshot.tick = tick ∧
      ∀ tf, a'.timeFrameSnapshot candle tick forming tf = .ok (snapshot.snapshotOf tf) := by
  unfold addCandleAndBuild at h
  split at h
  · cases h
  · rename_i hwarm
    obtain ⟨forming, hforming, h⟩ := bind_eq_ok.mp h
    obtain ⟨a₁, hstates, h⟩ := bind_eq_ok.mp h
    obtain ⟨shots, hshots, h⟩ := bind_eq_ok.mp h
    obtain ⟨s, hs, h⟩ := bind_eq_ok.mp h
    cases h
    obtain ⟨hof, htick⟩ := MarketSnapshot.of_ok (mapError_eq_ok.mp hs)
    refine ⟨by simpa using hwarm, forming, mapError_eq_ok.mp hforming, hstates, htick, fun tf => ?_⟩
    have hget := get_mapValuesM hshots tf
    rw [get_liveTimeframes, hof tf] at hget
    simpa using hget

/-- A call goes through where no time frame throws. -/
theorem exists_addCandleAndBuild {a a' : BacktestSnapshotAdapter σ} {candle : ConfirmedCandle}
    {tick : Tick} {nextOpen : Price} {forming : FormingCandle} (hwarm : a.warmedUp = true)
    (hforming : makeFormingFromOpen a.numbers nextOpen tick a.signalTimeFrame = .ok forming)
    (hstates : a.mapStatesM (a.advance candle tick forming) = .ok a')
    (hshots : ∀ tf, ∃ s, a'.timeFrameSnapshot candle tick forming tf = .ok s) :
    ∃ snapshot, a.addCandleAndBuild candle tick nextOpen = .ok (snapshot, a') := by
  obtain ⟨shots, hshots'⟩ := exists_mapValuesM
    (f := fun tf (_ : Unit) => a'.timeFrameSnapshot candle tick forming tf)
    (m := TimeFrame.liveTimeframes.map fun tf => (tf, ())) fun e _ => hshots e.1
  have hsome : ∀ tf, (get shots tf).isSome = true := by
    intro tf
    have hget := congrArg Option.isSome (get_mapValuesM hshots' tf)
    rw [get_liveTimeframes] at hget
    simpa using hget.symm
  obtain ⟨snapshot, hs⟩ := MarketSnapshot.exists_of hsome tick a'.pair tick.timestamp
  refine ⟨snapshot, ?_⟩
  unfold addCandleAndBuild
  rw [if_neg (by simp [hwarm])]
  exact bind_eq_ok.mpr ⟨_, mapError_eq_ok.mpr hforming, bind_eq_ok.mpr ⟨_, hstates,
    bind_eq_ok.mpr ⟨_, hshots', bind_eq_ok.mpr ⟨_, mapError_eq_ok.mpr hs, rfl⟩⟩⟩⟩

/-- The signal time frame shows its last bar beside the forming candle of the tick. -/
theorem timeFrameSnapshot_signal {a : BacktestSnapshotAdapter σ} {st : TimeFrameState σ}
    {candle newCandle : ConfirmedCandle} {tick : Tick} {forming : FormingCandle} {tf : TimeFrame}
    {values : IndicatorValues} (htf : tf = a.signalTimeFrame) (hst : get a.states tf = some st)
    (hlast : st.lastConfirmed = some candle) (hvalues : st.ledger.currentValues = .ok values)
    (hctf : candle.timeFrame = tf) (hftf : forming.timeFrame = tf) :
    a.timeFrameSnapshot newCandle tick forming tf =
      .ok ⟨tf, candle, forming, values, hctf, hftf⟩ := by
  have hof : TimeFrameSnapshot.of tf candle forming values =
      .ok ⟨tf, candle, forming, values, hctf, hftf⟩ := by
    simp [TimeFrameSnapshot.of, hctf, hftf]
  unfold timeFrameSnapshot
  rw [hst]
  simp only [Option.bind_some, hlast, Option.map_some, if_pos htf]
  exact bind_eq_ok.mpr ⟨forming, rfl, bind_eq_ok.mpr ⟨values, mapError_eq_ok.mpr hvalues,
    mapError_eq_ok.mpr hof⟩⟩

/-- A time frame without bars shows a dummy. -/
theorem exists_timeFrameSnapshot_dummy {a : BacktestSnapshotAdapter σ} {tf : TimeFrame}
    (h : ∀ st, get a.states tf = some st → st.lastConfirmed = none) (newCandle : ConfirmedCandle)
    (tick : Tick) (forming : FormingCandle) :
    ∃ s, a.timeFrameSnapshot newCandle tick forming tf = .ok s := by
  have hnone : (get a.states tf).bind
      (fun st => st.lastConfirmed.map fun c => (st, c)) = none := by
    cases hget : get a.states tf with
    | none => rfl
    | some st => simp [h st hget]
  unfold timeFrameSnapshot
  rw [hnone]
  exact exists_makeDummyTimeFrameSnapshot tf newCandle tick

/-! ### One time frame alone -/

/-- No time frame but the signal one has bars. -/
def Lone (a : BacktestSnapshotAdapter σ) : Prop :=
  ∀ e ∈ a.states, e.1 ≠ a.signalTimeFrame →
    e.2.lastConfirmed = none ∧ e.2.upcomingConfirms = []

/-- Once only the signal time frame is warmed up, it has the bars, … -/
theorem new_warmUp_get {pair : CurrencyPair} {signalTimeFrame : TimeFrame}
    {specs : List TimeFrameIndicatorSpec} {numbers : NumberArithmetic}
    {a : BacktestSnapshotAdapter σ} (h : new pair signalTimeFrame specs numbers = .ok a)
    (candles : List ConfirmedCandle) :
    ∃ spec ∈ specs, spec.timeFrame = signalTimeFrame ∧
      get (a.warmUp candles).states signalTimeFrame =
        some ((TimeFrameState.new spec).warmUp candles) := by
  obtain ⟨-, hsignal, -⟩ := new_ok h
  obtain ⟨st, hst⟩ := Option.isSome_iff_exists.mp a.signal_mem
  rw [hsignal] at hst
  obtain ⟨spec, hmem, htf, rfl⟩ := new_get h hst
  refine ⟨spec, hmem, htf, ?_⟩
  unfold warmUp
  rw [warmUpAll_get, hst, hsignal]
  simp [OrderedMap.get]

/-- … and it alone. -/
theorem new_warmUp_lone {pair : CurrencyPair} {signalTimeFrame : TimeFrame}
    {specs : List TimeFrameIndicatorSpec} {numbers : NumberArithmetic}
    {a : BacktestSnapshotAdapter σ} (h : new pair signalTimeFrame specs numbers = .ok a)
    (candles : List ConfirmedCandle) :
    (a.warmUp candles).Lone := by
  intro e he hne
  obtain ⟨e₀, he₀, rfl⟩ := List.mem_map.mp he
  rw [(new_ok h).1] at he₀
  obtain ⟨spec, -, rfl⟩ := List.mem_map.mp he₀
  have hnone : get [(a.signalTimeFrame, candles)] spec.timeFrame = none := by
    have hne' : ¬ a.signalTimeFrame = spec.timeFrame := fun heq => hne heq.symm
    simp [OrderedMap.get, hne']
  simp only [hnone]
  exact ⟨rfl, rfl⟩

/-- A time frame without bars stays without bars. -/
theorem advance_without_bars {a : BacktestSnapshotAdapter σ} {candle : ConfirmedCandle}
    {tick : Tick} {forming : FormingCandle} {tf : TimeFrame} (hne : tf ≠ a.signalTimeFrame)
    {st : TimeFrameState σ} (h : st.lastConfirmed = none ∧ st.upcomingConfirms = []) :
    ∃ st', a.advance candle tick forming tf st = .ok st' ∧ st'.lastConfirmed = none ∧
      st'.upcomingConfirms = [] := by
  have hrelease : ∀ t, st.release t = { st with upcomingConfirms := [] } := by
    intro t
    simp [TimeFrameState.release, h.2, TimeFrameState.takeExpected]
  have hreleased : ∃ st₁ : TimeFrameState σ, (if tf.isAligned candle.closeTime = true then
      st.release (candle.closeTime - tf.durationMs) else st) = st₁ ∧
      st₁.lastConfirmed = none ∧ st₁.upcomingConfirms = [] := by
    split
    · exact ⟨_, hrelease _, h.1, rfl⟩
    · exact ⟨_, rfl, h⟩
  obtain ⟨st₁, hst₁, hnone⟩ := hreleased
  unfold advance
  rw [if_neg hne]
  dsimp only
  rw [hst₁]
  simp only [hnone.1]
  exact ⟨st₁, rfl, hnone⟩

/-- The time frames advance, and the others than the signal one stay without bars. -/
theorem Lone.exists_advance {a : BacktestSnapshotAdapter σ} (h : Lone a)
    (candle : ConfirmedCandle) (tick : Tick) (forming : FormingCandle)
    {e : TimeFrame × TimeFrameState σ} (he : e ∈ a.states) :
    ∃ st', a.advance candle tick forming e.1 e.2 = .ok st' ∧
      (e.1 ≠ a.signalTimeFrame → st'.lastConfirmed = none ∧ st'.upcomingConfirms = []) := by
  by_cases heq : e.1 = a.signalTimeFrame
  · exact ⟨_, by rw [advance, if_pos heq], fun hne => absurd heq hne⟩
  · obtain ⟨st', hst', hnone⟩ := advance_without_bars heq (h e he heq)
    exact ⟨st', hst', fun _ => hnone⟩

/-- The signal time frame has the bar after it. -/
theorem get_advanced {a a' : BacktestSnapshotAdapter σ} {candle : ConfirmedCandle} {tick : Tick}
    {forming : FormingCandle} {st : TimeFrameState σ}
    (ha' : a.mapStatesM (a.advance candle tick forming) = .ok a')
    (hst : get a.states a.signalTimeFrame = some st) :
    get a'.states a.signalTimeFrame = some ((st.confirm candle).updateForming forming) := by
  obtain ⟨-, -, -, -, hget⟩ := mapStatesM_ok ha'
  have hmap := hget a.signalTimeFrame
  rw [hst, Option.map_some, advance, if_pos rfl] at hmap
  obtain ⟨st', hst', heq⟩ := Option.map_eq_some_iff.mp hmap.symm
  rw [hst', Except.ok.inj heq]

/-- Where the ledger of the signal time frame has its values, a call goes through, and the
snapshot shows the bar and the values. -/
theorem exists_addCandle_lone {a : BacktestSnapshotAdapter σ} (hwarm : a.warmedUp = true)
    (h : Lone a) {st : TimeFrameState σ} (hst : get a.states a.signalTimeFrame = some st)
    {candle : ConfirmedCandle} (hctf : candle.timeFrame = a.signalTimeFrame) {tick : Tick}
    {nextOpen : Price} {forming : FormingCandle}
    (hforming : makeFormingFromOpen a.numbers nextOpen tick a.signalTimeFrame = .ok forming)
    {v : IndicatorValues}
    (hv : ((st.confirm candle).updateForming forming).ledger.currentValues = .ok v) :
    ∃ snapshot a', a.addCandleAndBuild candle tick nextOpen = .ok (snapshot, a') ∧
      a'.warmedUp = true ∧ a'.signalTimeFrame = a.signalTimeFrame ∧ a'.numbers = a.numbers ∧
      get a'.states a.signalTimeFrame = some ((st.confirm candle).updateForming forming) ∧
      Lone a' ∧ (snapshot.snapshotOf a.signalTimeFrame).confirmed = candle ∧
      (snapshot.snapshotOf a.signalTimeFrame).indicators = v := by
  obtain ⟨a', ha'⟩ := exists_mapStatesM (a := a) (f := a.advance candle tick forming)
    fun e he => (h.exists_advance candle tick forming he).imp fun _ hst' => hst'.1
  obtain ⟨-, hsignal, hwarm', hnumbers, -⟩ := mapStatesM_ok ha'
  have hst' := get_advanced ha' hst
  have hlone : Lone a' := by
    intro e' he' hne
    obtain ⟨e, he, hkey, hok⟩ := of_mem_mapStatesM ha' he'
    obtain ⟨st₂, hst₂, hnone⟩ := h.exists_advance candle tick forming he
    rw [hst₂] at hok
    rw [← Except.ok.inj hok]
    exact hnone (hkey ▸ hsignal ▸ hne)
  -- the snapshot of the signal time frame shows the bar, and the others have dummies
  have hshot : a'.timeFrameSnapshot candle tick forming a.signalTimeFrame =
      .ok ⟨a.signalTimeFrame, candle, forming, v, hctf, makeForming_timeFrame hforming⟩ :=
    timeFrameSnapshot_signal hsignal.symm hst' rfl hv hctf _
  have hshots : ∀ tf, ∃ s, a'.timeFrameSnapshot candle tick forming tf = .ok s := by
    intro tf
    by_cases heq : tf = a.signalTimeFrame
    · exact heq ▸ ⟨_, hshot⟩
    · refine exists_timeFrameSnapshot_dummy (fun st₂ hget' => ?_) ..
      exact (hlone _ (mem_of_get hget') (hsignal ▸ heq)).1
  obtain ⟨snapshot, hbuild⟩ := exists_addCandleAndBuild hwarm hforming ha' hshots
  obtain ⟨-, forming', hforming', -, -, hof⟩ := addCandleAndBuild_ok hbuild
  obtain rfl : forming = forming' := Except.ok.inj (hforming.symm.trans hforming')
  have hshown := Except.ok.inj ((hof a.signalTimeFrame).symm.trans hshot)
  refine ⟨snapshot, a', hbuild, hwarm'.trans hwarm, hsignal, hnumbers, hst', hlone, ?_, ?_⟩
  · rw [hshown]
  · rw [hshown]

end BacktestSnapshotAdapter

end Luchida
