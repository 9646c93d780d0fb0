import Luchida.Allocation
import Luchida.BarHistory

/- The entry rule of the live system (domain/rule/sma-cross, domain/rule/shared, main.ts):
   the SMA cross on the confirmed bar of one time frame, behind five filters. A rule
   answers from a market snapshot and from what its `getSizing` gives, which may throw.

   Two of the filters look at the command of the rule inside them, the other three do not
   ask it at all when they block. A filter only takes signals away, so what the whole
   chain signals is what the cross itself signals (`liveEntryRule_entry`). -/
namespace Luchida

/-! ## Rules -/

/-- What `shouldEntry` ends in. -/
inductive RuleResult where
  | threw
  | doNothing
  | entry (command : EntryCommand)
  deriving DecidableEq

/-- `EntryRule`. The first argument is what `getSizing` returns, if it does not throw. -/
abbrev EntryRule := Option SizingResult → MarketSnapshot → RuleResult

inductive CrossType where
  | goldenCross
  | deadCross
  | none
  deriving DecidableEq, Repr

def detectCross (sma : SmaSnapshot) : CrossType :=
  let isGoldenCross :=
    (sma.previousShortSma.value < sma.previousLongSma.value ∨
      sma.previousShortSma.value = sma.previousLongSma.value) ∧
    sma.longSma.value < sma.shortSma.value
  let isDeadCross :=
    (sma.previousLongSma.value < sma.previousShortSma.value ∨
      sma.previousShortSma.value = sma.previousLongSma.value) ∧
    sma.shortSma.value < sma.longSma.value
  -- the two cannot both hold: one has the short SMA on top, the other the long one
  if isGoldenCross then .goldenCross else if isDeadCross then .deadCross else .none

/-- The two bars that each cross is made of. -/
theorem detectCross_iff (sma : SmaSnapshot) :
    (detectCross sma = .goldenCross ↔
      sma.previousShortSma.value - sma.previousLongSma.value ≤ 0 ∧
        0 < sma.shortSma.value - sma.longSma.value) ∧
    (detectCross sma = .deadCross ↔
      0 ≤ sma.previousShortSma.value - sma.previousLongSma.value ∧
        sma.shortSma.value - sma.longSma.value < 0) := by
  have hle : sma.previousLongSma.value < sma.previousShortSma.value ∨
      sma.previousShortSma.value = sma.previousLongSma.value ↔
      sma.previousLongSma.value ≤ sma.previousShortSma.value := by
    rw [le_iff_lt_or_eq, eq_comm]
  simp only [detectCross, sub_nonpos, sub_pos, sub_nonneg, sub_neg, ← le_iff_lt_or_eq, hle]
  constructor
  · split
    · rename_i hgolden
      simp [hgolden]
    · rename_i hgolden
      split <;> simp [hgolden]
  · split
    · rename_i hgolden
      simp [not_lt_of_gt hgolden.2]
    · split
      · rename_i hdead
        simp [hdead]
      · rename_i hdead
        simp [hdead]

/-- The constant name of a time frame. -/
def TimeFrame.name : TimeFrame → String
  | .oneMinute => "ONE_MINUTE"
  | .fifteenMinute => "FIFTEEN_MINUTE"
  | .oneHour => "ONE_HOUR"
  | .oneDay => "ONE_DAY"

/-- `getUTCHours`. -/
def utcHours (ms : Int) : Int := ms / 3600000 % 24

/-- `getUTCDay`: 0 on Sundays. The epoch was a Thursday. -/
def utcDay (ms : Int) : Int := (ms / 86400000 + 4) % 7

/-- `getUTCDate`: the day of the month, from the days since 0000-03-01. -/
def utcDate (ms : Int) : Int :=
  -- eras of 400 years, each of 146097 days
  let days := ms / 86400000 + 719468
  let dayOfEra := days % 146097
  let yearOfEra :=
    (dayOfEra - dayOfEra / 1460 + dayOfEra / 36524 - dayOfEra / 146096) / 365
  let dayOfYear := dayOfEra - (365 * yearOfEra + yearOfEra / 4 - yearOfEra / 100)
  let month := (5 * dayOfYear + 2) / 153
  dayOfYear - (153 * month + 2) / 5 + 1

example : (utcDate 951782400000, utcDay 951782400000) = (29, 2) := by decide

/-! ## The cross -/

namespace SmaCrossEntryRule

/-- `buildSnapshot`. -/
def buildSnapshot (snapshot : MarketSnapshot) (conviction : ℚ) : EntrySnapshot where
  convictionScore := conviction
  spreadPips := some (Position.toFixed4
    ((snapshot.tick.ask.value - snapshot.tick.bid.value) / snapshot.pair.pipUnit))
  entryHour := utcHours snapshot.capturedAt
  entryDayOfWeek := utcDay snapshot.capturedAt
  smaSpreadAtrRatio := none
  adx := none
  atrPips := none
  rsi := none
  trendAlignment := none

/-- The reason of a signal, which is never blank. -/
def reason (cross : String) (timeFrame : TimeFrame) : EntryReason where
  value := "SMA " ++ cross ++ "（" ++ timeFrame.name ++ "）"
  nonblank := by simp [isBlank, Char.isWhitespace]

/-- The command of a cross, at the base lot. -/
def command (timeFrame : TimeFrame) (snapshot : MarketSnapshot) (buySell : BuySell)
    (cross : String) (sizing : SizingResult) : EntryCommand where
  pair := snapshot.pair
  buySell := buySell
  lot := sizing.lot
  reason := reason cross timeFrame
  convictionScore := .smaCross
  strategyName := .smaCross
  entrySnapshot := buildSnapshot snapshot (7 / 10)
  requiredMargin := sizing.requiredMargin
  margin_nonneg := sizing.requiredMarginFor_nonneg _

/-- `SmaCrossEntryRule.shouldEntry`. -/
def shouldEntry (timeFrame : TimeFrame) : EntryRule := fun getSizing snapshot =>
  match detectCross (snapshot.snapshotOf timeFrame).indicators.confirmed with
  | .goldenCross => match getSizing with
    | some sizing => .entry (command timeFrame snapshot .buy "ゴールデンクロス" sizing)
    | none => .threw
  | .deadCross => match getSizing with
    | some sizing => .entry (command timeFrame snapshot .sell "デッドクロス" sizing)
    | none => .threw
  | .none => .doNothing

/-- A signal is a buy on a golden cross and a sell on a dead one, at the base lot. -/
theorem shouldEntry_entry {timeFrame : TimeFrame} {getSizing : Option SizingResult}
    {snapshot : MarketSnapshot} {c : EntryCommand}
    (h : shouldEntry timeFrame getSizing snapshot = .entry c) :
    c.pair = snapshot.pair ∧ c.strategyName = .smaCross ∧ getSizing.map (·.lot) = some c.lot ∧
      detectCross (snapshot.snapshotOf timeFrame).indicators.confirmed =
        (match c.buySell with
          | .buy => .goldenCross
          | .sell => .deadCross) := by
  unfold shouldEntry at h
  split at h <;> rename_i hcross
  · split at h
    · cases h
      exact ⟨rfl, rfl, rfl, hcross⟩
    · cases h
  · split at h
    · cases h
      exact ⟨rfl, rfl, rfl, hcross⟩
    · cases h
  · cases h

end SmaCrossEntryRule

/-! ## The filters -/

/-- A filter that does not ask the rule inside it where it blocks. -/
def blockBefore (blocks : MarketSnapshot → Bool) (inner : EntryRule) : EntryRule :=
  fun getSizing snapshot =>
    if blocks snapshot then .doNothing else inner getSizing snapshot

/-- A filter that looks at the command of the rule inside it. -/
def blockAfter (blocks : MarketSnapshot → EntryCommand → Bool) (inner : EntryRule) : EntryRule :=
  fun getSizing snapshot =>
    match inner getSizing snapshot with
    | .entry c => if blocks snapshot c then .doNothing else .entry c
    | result => result

theorem blockBefore_entry {blocks : MarketSnapshot → Bool} {inner : EntryRule}
    {getSizing : Option SizingResult} {snapshot : MarketSnapshot} {c : EntryCommand}
    (h : blockBefore blocks inner getSizing snapshot = .entry c) :
    inner getSizing snapshot = .entry c := by
  unfold blockBefore at h
  split at h
  · cases h
  · exact h

theorem blockAfter_entry {blocks : MarketSnapshot → EntryCommand → Bool} {inner : EntryRule}
    {getSizing : Option SizingResult} {snapshot : MarketSnapshot} {c : EntryCommand}
    (h : blockAfter blocks inner getSizing snapshot = .entry c) :
    inner getSizing snapshot = .entry c := by
  unfold blockAfter at h
  split at h
  · rename_i c' hc'
    split at h
    · cases h
    · rwa [hc']
  · exact h

/-- `CrossStrengthFilterEntryRule`: the two SMAs moved apart by too little in one bar. -/
def crossStrengthFilter (timeFrame : TimeFrame) (minStrengthPips : ℚ) : EntryRule → EntryRule :=
  blockBefore fun snapshot =>
    let sma := (snapshot.snapshotOf timeFrame).indicators.confirmed
    let currentDiff := sma.shortSma.value - sma.longSma.value
    let prevDiff := sma.previousShortSma.value - sma.previousLongSma.value
    |currentDiff - prevDiff| / snapshot.pair.pipUnit < minStrengthPips

/-- `SmaDivergenceFilterEntryRule`: the bid has run too far past the short SMA. -/
def smaDivergenceFilter (timeFrame : TimeFrame) (maxDivergencePct : ℚ) : EntryRule → EntryRule :=
  blockAfter fun snapshot c =>
    let sma20 := (snapshot.snapshotOf timeFrame).indicators.confirmed.shortSma.value
    let price := snapshot.tick.bid.value
    let diff := match c.buySell with
      | .buy => price - sma20
      | .sell => sma20 - price
    maxDivergencePct < diff / sma20 * 100

/-- `PriceBandFilterEntryRule`: no sell below one price, no buy above another. -/
def priceBandFilter (minSellPrice maxBuyPrice : Option ℚ) : EntryRule → EntryRule :=
  blockAfter fun snapshot c =>
    let mid := (snapshot.tick.bid.value + snapshot.tick.ask.value) / 2
    match c.buySell with
    | .sell => minSellPrice.any (fun limit => mid < limit)
    | .buy => maxBuyPrice.any (fun limit => limit < mid)

/-- `TimeWindowBlockEntryRule`: one of the windows matches. -/
def timeWindowBlock (windows : List (Int → Bool)) : EntryRule → EntryRule :=
  blockBefore fun snapshot => windows.any (fun matchesAt => matchesAt snapshot.capturedAt)

/-- `TimeFilteredEntryRule`: an excluded hour. -/
def timeFiltered (excludeHoursUtc : List Int) : EntryRule → EntryRule :=
  blockBefore fun snapshot => utcHours snapshot.capturedAt ∈ excludeHoursUtc

/-- `MID_MONTH_JST_LUNCH_NON_BOJ_WINDOW`: 02:00 to 03:59 UTC from the 16th to the 21st of
the Japanese month, unless the Japanese date is in the table of meetings. -/
def midMonthJstLunchNonBojWindow (isBojMeetingDate : Int → Bool) (ms : Int) : Bool :=
  let jst := ms + 9 * 60 * 60 * 1000
  let jstDay := utcDate jst
  if jstDay < 16 ∨ 21 < jstDay then false
  else if utcHours ms < 2 ∨ 4 ≤ utcHours ms then false
  else !isBojMeetingDate (jst / 86400000)

/-! ## The chain of main.ts -/

/-- `TRADE_TIMEFRAME`. -/
def tradeTimeFrame : TimeFrame := .fifteenMinute

/-- The one entry rule that is wired. The table of meetings is by Japanese day. -/
def liveEntryRule (isBojMeetingDate : Int → Bool) : EntryRule :=
  timeFiltered [0, 7, 18] <|
  timeWindowBlock [midMonthJstLunchNonBojWindow isBojMeetingDate] <|
  priceBandFilter (some 85) none <|
  smaDivergenceFilter tradeTimeFrame (1 / 10) <|
  crossStrengthFilter tradeTimeFrame (1 / 10) <|
  SmaCrossEntryRule.shouldEntry tradeTimeFrame

/-- What the chain signals, the cross signals. -/
theorem liveEntryRule_entry {isBojMeetingDate : Int → Bool} {getSizing : Option SizingResult}
    {snapshot : MarketSnapshot} {c : EntryCommand}
    (h : liveEntryRule isBojMeetingDate getSizing snapshot = .entry c) :
    SmaCrossEntryRule.shouldEntry tradeTimeFrame getSizing snapshot = .entry c := by
  unfold liveEntryRule timeFiltered timeWindowBlock priceBandFilter smaDivergenceFilter
    crossStrengthFilter at h
  have hband := blockBefore_entry (blockBefore_entry h)
  exact blockBefore_entry (blockAfter_entry (blockAfter_entry hband))

/-! ## A golden cross -/

/-- Two flat bars and one that closes higher, up to one in the morning of the eleventh. -/
def crossHistory (tf : TimeFrame) : List ConfirmedCandle :=
  let start := tf.periodStart 867600000
  [flatCandle tf (start - 3 * tf.durationMs) quietPrice,
    flatCandle tf (start - 2 * tf.durationMs) quietPrice,
    flatCandle tf (start - tf.durationMs) crossPrice]

/-- The book warmed up with it. -/
def crossBook : TimeFrameBook RecordedSma :=
  match BarState.warmedUp .usdJpy quietConfig crossHistory with
  | .ok s => s.book
  | .error _ => .new .usdJpy quietConfig

def crossTick (t : Int) : Tick :=
  ⟨⟨15102 / 100, by decide +kernel⟩, crossPrice, t, by decide +kernel⟩

/-- The snapshot of a tick at 01:00:05. -/
def crossSnapshot : MarketSnapshot :=
  (crossBook.onTick (crossTick 867605000) 867605000).1.toOption.get (by decide +kernel)

/-- The snapshot of the next tick, a second later. -/
def nextCrossSnapshot : MarketSnapshot :=
  ((crossBook.onTick (crossTick 867605000) 867605000).2.onTick
    (crossTick 867606000) 867606000).1.toOption.get (by decide +kernel)

def crossSizing : SizingResult where
  lot := thousandLot
  rate := ⟨crossPrice.value, .usdJpy, 867605000, crossPrice.pos⟩
  marginRate := ⟨4 / 100, by decide +kernel, by decide +kernel⟩

/-- The whole chain signals a buy on both. -/
example : liveEntryRule (fun _ => false) (some crossSizing) crossSnapshot =
    .entry (SmaCrossEntryRule.command tradeTimeFrame crossSnapshot .buy "ゴールデンクロス"
      crossSizing) ∧
    liveEntryRule (fun _ => false) (some crossSizing) nextCrossSnapshot =
      .entry (SmaCrossEntryRule.command tradeTimeFrame nextCrossSnapshot .buy "ゴールデンクロス"
        crossSizing) := by
  decide +kernel

end Luchida
