import Mathlib.Data.Rat.Floor
import Luchida.GmoRest
import Luchida.Newest
import Luchida.SmaCrossRule
import Luchida.Throws

/- GmoCandleHistoryAdapter.ts: the klines of GMO, asked for one date at a time, newest date
   first, and cut down to the newest finished bars. The watchdog and the warm-up take the
   answer for the official history, and the design has the adapter throw when a request
   fails, so that the book is left alone. `fetchRecent` logs a failed date and goes on with
   the next one. The bars of that date are then missing from the answer, which is as long
   and as ascending as a good one.

   `fetchRecent_newest_iff` says when nothing is lost: `candleCount` finished bars are newer
   than every bar of a failed date. Two clocks are read: the dates are counted back from
   `new Date()` (`systemNow`), the bars are finished by the injected one (`now`). -/
namespace Luchida

open Newest

/-! ## Dates -/

/-- `getUTCMonth() + 1`, by the calendar of `utcDate`, whose years begin in March. -/
def utcMonth (ms : Int) : Int :=
  let dayOfEra := (ms / 86400000 + 719468) % 146097
  let yearOfEra :=
    (dayOfEra - dayOfEra / 1460 + dayOfEra / 36524 - dayOfEra / 146096) / 365
  let dayOfYear := dayOfEra - (365 * yearOfEra + yearOfEra / 4 - yearOfEra / 100)
  let month := (5 * dayOfYear + 2) / 153
  if month < 10 then month + 3 else month - 9

/-- `getUTCFullYear`. -/
def utcFullYear (ms : Int) : Int :=
  let days := ms / 86400000 + 719468
  let dayOfEra := days % 146097
  let yearOfEra :=
    (dayOfEra - dayOfEra / 1460 + dayOfEra / 36524 - dayOfEra / 146096) / 365
  days / 146097 * 400 + yearOfEra + if utcMonth ms ≤ 2 then 1 else 0

/-- `String(n).padStart(2, '0')`. -/
def padStart2 (n : Int) : String :=
  let text := toString n
  "".pushn '0' (2 - text.length) ++ text

/-- `formatDate`: `YYYYMMDD`. -/
def formatDate (ms : Int) : String :=
  toString (utcFullYear ms) ++ padStart2 (utcMonth ms) ++ padStart2 (utcDate ms)

example : (formatDate 951782400000, formatDate 951868800000) = ("20000229", "20000301") := by
  decide +kernel

/-! ## Bars -/

/-- `GmoKlineData`, with its numerals read: the time of `new Date(Number(openTime))` and the
decimals of `new Big(price)`, where there is one. -/
structure GmoKlineData where
  openTime : Option Int
  openPrice : Option ℚ
  high : Option ℚ
  low : Option ℚ
  close : Option ℚ

/-- `MarketDataError`. -/
inductive MarketDataError where
  /-- `WebSocket 接続に失敗した` -/
  | connectionFailed
  /-- `WebSocket 接続が切断された` -/
  | disconnected
  /-- `チャネルの購読に失敗した` -/
  | subscriptionFailed (channel : String)
  /-- `市場データの取得に失敗した` -/
  | fetchFailed (reason : String)
  | unexpected (message : String)
  deriving DecidableEq, Repr

/-- What goes wrong with one date. -/
inductive KlinesError where
  | marketData (error : MarketDataError)
  | request (error : RequestError)
  /-- `[big.js] Invalid number` -/
  | invalidNumber
  /-- `価格は正の数` -/
  | priceNotPositive (value : ℚ)
  /-- `CandleOpenTime: 無効な日時から生成できません` -/
  | invalidOpenTime
  | candle (error : CandleError)

/-- `Price.of` on the text of a price. -/
def parsePrice : Option ℚ → Except KlinesError Price
  | none => .error .invalidNumber
  | some value => match Price.of value with
    | none => .error (.priceNotPositive value)
    | some price => .ok price

/-- The parameters of `/public/v1/klines`. -/
structure KlinesParams where
  symbol : String
  priceType : String
  interval : String
  date : String
  deriving DecidableEq

namespace GmoCandleHistoryAdapter

/-- `toGmoInterval`. -/
def toGmoInterval : TimeFrame → String
  | .oneMinute => "1min"
  | .fifteenMinute => "15min"
  | .oneHour => "1hour"
  | .oneDay => "1day"

/-- `toConfirmedCandle`: the bar closes one millisecond before the next one opens. -/
def toConfirmedCandle (timeFrame : TimeFrame) (k : GmoKlineData) :
    Except KlinesError ConfirmedCandle := do
  let openPrice ← parsePrice k.openPrice
  let high ← parsePrice k.high
  let low ← parsePrice k.low
  let close ← parsePrice k.close
  match k.openTime with
  | none => .error .invalidOpenTime
  | some openTime =>
    (ConfirmedCandle.of {
      openPrice := openPrice
      high := high
      low := low
      close := close
      openTime := openTime
      closeTime := openTime + timeFrame.durationMs - 1
      timeFrame := timeFrame }).mapError .candle

/-- `buildDateParams`: this year and the last one for daily bars, else so many days back that
the bars fit in, and seven more. -/
def buildDateParams (timeFrame : TimeFrame) (candleCount : Nat) (systemNow : Int) :
    List String :=
  if timeFrame = .oneDay then
    [toString (utcFullYear systemNow), toString (utcFullYear systemNow - 1)]
  else
    let candlesPerDay : ℚ := 86400000 / timeFrame.durationMs
    let daysNeeded := Nat.ceil ((candleCount : ℚ) / candlesPerDay) + 7
    (List.range daysNeeded).map fun i => formatDate (systemNow - i * 86400000)

/-- The answer to the klines request of a date, or what `publicGet` throws. -/
abbrev PublicGet := KlinesParams → Except KlinesError (List GmoKlineData)

variable (publicGet : PublicGet) (pair : CurrencyPair) (timeFrame : TimeFrame)

/-- The body of the `try`: the request of one date, and its bars. -/
def fetchDate (date : String) : Except KlinesError (List ConfirmedCandle) := do
  let data ← publicGet ⟨pair.name, "BID", toGmoInterval timeFrame, date⟩
  data.mapM (toConfirmedCandle timeFrame)

/-- The loop over the dates. -/
def fetchDates : List String → Except MarketDataError (List ConfirmedCandle)
  | [] => .ok []
  | date :: dates =>
    match fetchDate publicGet pair timeFrame date with
    | .ok candles => (fetchDates dates).map (candles ++ ·)
    | .error (.marketData e) => .error e
    -- a warning, and on to the next date
    | .error _ => fetchDates dates

/-- The bars that have closed by `now`. -/
def finished (now : Int) (candles : List ConfirmedCandle) : List ConfirmedCandle :=
  candles.filter fun c => c.closeTime < now

/-- `fetchRecent`. -/
def fetchRecent (candleCount : Nat) (systemNow now : Int) :
    Except MarketDataError (List ConfirmedCandle) :=
  match fetchDates publicGet pair timeFrame (buildDateParams timeFrame candleCount systemNow) with
  | .error e => .error e
  | .ok allCandles =>
    let confirmed := finished now allCandles
    let newestFirst := confirmed.mergeSort fun a b => b.openTime ≤ a.openTime
    let result := (newestFirst.take candleCount).reverse
    if result.length = 0 then
      .error (.fetchFailed ("ローソク足が0本: pair=" ++ pair.name ++ ", timeFrame=" ++ timeFrame.name))
    else .ok result

/-! ## What one run does -/

variable {publicGet pair timeFrame}

/-- The bars of the dates that went well, in the order of the dates. -/
def fetched (publicGet : PublicGet) (pair : CurrencyPair) (timeFrame : TimeFrame)
    (dates : List String) : List ConfirmedCandle :=
  dates.flatMap fun date => (fetchDate publicGet pair timeFrame date).toOption.getD []

/-- A `MarketDataError` is the only failure that ends the loop. -/
def Aborts (publicGet : PublicGet) (pair : CurrencyPair) (timeFrame : TimeFrame)
    (dates : List String) : Prop :=
  ∃ date ∈ dates, ∃ e, fetchDate publicGet pair timeFrame date = .error (.marketData e)

theorem fetchDates_cases (dates : List String) :
    (Aborts publicGet pair timeFrame dates ∧
        ∃ e, fetchDates publicGet pair timeFrame dates = .error e) ∨
      (¬ Aborts publicGet pair timeFrame dates ∧
        fetchDates publicGet pair timeFrame dates =
          .ok (fetched publicGet pair timeFrame dates)) := by
  induction dates with
  | nil => exact .inr ⟨by simp [Aborts], rfl⟩
  | cons date dates ih =>
    have haborts : Aborts publicGet pair timeFrame (date :: dates) ↔
        (∃ e, fetchDate publicGet pair timeFrame date = .error (.marketData e)) ∨
          Aborts publicGet pair timeFrame dates := by
      simp [Aborts]
    rw [haborts]
    simp only [fetchDates, fetched, List.flatMap_cons]
    cases hdate : fetchDate publicGet pair timeFrame date with
    | ok candles =>
      rcases ih with ⟨hrest, e, he⟩ | ⟨hrest, hok⟩
      · exact .inl ⟨.inr hrest, e, by simp [he, Except.map]⟩
      · exact .inr ⟨by simpa using hrest, by simp [hok, Except.map, Except.toOption, fetched]⟩
    | error e =>
      cases e with
      | marketData e => exact .inl ⟨.inl ⟨e, rfl⟩, e, rfl⟩
      | request | invalidNumber | priceNotPositive | invalidOpenTime | candle =>
        rcases ih with ⟨hrest, e, he⟩ | ⟨hrest, hok⟩
        · exact .inl ⟨.inr hrest, e, he⟩
        · exact .inr ⟨by simpa using hrest, by simpa [Except.toOption, fetched] using hok⟩

/-! ## The history behind the dates -/

/-- What GMO holds for the dates, each bar in one of them, and a request that goes well
brings. -/
structure Covers (publicGet : PublicGet) (pair : CurrencyPair) (timeFrame : TimeFrame)
    (dates : List String) (history : String → List ConfirmedCandle) : Prop where
  ascending : ∀ date ∈ dates, (history date).Pairwise fun a b => a.openTime < b.openTime
  disjoint : dates.Pairwise fun date date' =>
    ∀ a ∈ history date, ∀ b ∈ history date', a.openTime ≠ b.openTime
  served : ∀ date ∈ dates, ∀ candles, fetchDate publicGet pair timeFrame date = .ok candles →
    candles = history date

abbrev barTime (c : ConfirmedCandle) : Int := c.openTime

/-- The finished bars of all the dates. -/
def fullHistory (history : String → List ConfirmedCandle) (dates : List String) (now : Int) :
    List ConfirmedCandle :=
  finished now (dates.flatMap history)

/-- Each finished bar of a failed date has `candleCount` newer ones, and is not asked for. -/
def NothingLost (publicGet : PublicGet) (pair : CurrencyPair) (timeFrame : TimeFrame)
    (dates : List String) (history : String → List ConfirmedCandle) (candleCount : Nat)
    (now : Int) : Prop :=
  ∀ date ∈ dates, (∃ e, fetchDate publicGet pair timeFrame date = .error e) →
    ∀ bar ∈ finished now (history date),
      candleCount ≤ (newer barTime (fullHistory history dates now) bar).length

namespace Covers

variable {dates : List String} {history : String → List ConfirmedCandle}

theorem distinct (h : Covers publicGet pair timeFrame dates history) (now : Int) :
    Distinct barTime (fullHistory history dates now) := by
  have hflat : Distinct barTime (dates.flatMap history) := by
    refine List.pairwise_flatMap.mpr ⟨fun date hdate => ?_, h.disjoint⟩
    exact (h.ascending date hdate).imp fun hlt => ne_of_lt hlt
  exact hflat.filter _

theorem fetched_sublist (h : Covers publicGet pair timeFrame dates history) :
    (fetched publicGet pair timeFrame dates).Sublist (dates.flatMap history) := by
  refine List.Sublist.flatMap_right dates fun date hdate => ?_
  cases hfetch : fetchDate publicGet pair timeFrame date with
  | ok candles =>
    rw [h.served date hdate candles hfetch]
    exact List.Sublist.refl _
  | error e => exact List.nil_sublist _

theorem finished_sublist (h : Covers publicGet pair timeFrame dates history) (now : Int) :
    (finished now (fetched publicGet pair timeFrame dates)).Sublist
      (fullHistory history dates now) :=
  h.fetched_sublist.filter _

/-- What the failed dates hold is what is missing. -/
theorem notMem_fetched_iff (h : Covers publicGet pair timeFrame dates history)
    {bar : ConfirmedCandle} :
    bar ∈ dates.flatMap history ∧ bar ∉ fetched publicGet pair timeFrame dates ↔
      ∃ date ∈ dates, (∃ e, fetchDate publicGet pair timeFrame date = .error e) ∧
        bar ∈ history date := by
  constructor
  · rintro ⟨hmem, hnot⟩
    obtain ⟨date, hdate, hbar⟩ := List.mem_flatMap.mp hmem
    refine ⟨date, hdate, ?_, hbar⟩
    cases hfetch : fetchDate publicGet pair timeFrame date with
    | ok candles =>
      rw [← h.served date hdate candles hfetch] at hbar
      refine absurd (List.mem_flatMap.mpr ⟨date, hdate, ?_⟩) hnot
      rw [hfetch]
      exact hbar
    | error e => exact ⟨e, rfl⟩
  · rintro ⟨date, hdate, ⟨e, he⟩, hbar⟩
    refine ⟨List.mem_flatMap.mpr ⟨date, hdate, hbar⟩, fun hmem => ?_⟩
    obtain ⟨date', hdate', hbar'⟩ := List.mem_flatMap.mp hmem
    cases hfetch : fetchDate publicGet pair timeFrame date' with
    | ok candles =>
      rw [hfetch] at hbar'
      have hbar' : bar ∈ history date' := h.served date' hdate' candles hfetch ▸ hbar'
      -- the bar is in one date only
      have hne : date ≠ date' := by
        intro heq
        rw [heq, hfetch] at he
        cases he
      have hsymm : Std.Symm fun date date' => ∀ a ∈ history date, ∀ b ∈ history date',
          a.openTime ≠ b.openTime :=
        ⟨fun _ _ hab a ha b hb => (hab b hb a ha).symm⟩
      exact h.disjoint.forall hdate hdate' hne bar hbar bar hbar' rfl
    | error e' =>
      rw [hfetch] at hbar'
      cases hbar'

theorem nothingLost_iff (h : Covers publicGet pair timeFrame dates history) {candleCount : Nat}
    {now : Int} :
    NothingLost publicGet pair timeFrame dates history candleCount now ↔
      ∀ bar ∈ fullHistory history dates now,
        bar ∉ finished now (fetched publicGet pair timeFrame dates) →
        candleCount ≤ (newer barTime (fullHistory history dates now) bar).length := by
  constructor
  · intro hlost bar hbar hnot
    obtain ⟨hmem, hfinished⟩ := List.mem_filter.mp hbar
    obtain ⟨date, hdate, hfailed, hheld⟩ := h.notMem_fetched_iff.mp
      ⟨hmem, fun hfetched => hnot (List.mem_filter.mpr ⟨hfetched, hfinished⟩)⟩
    exact hlost date hdate hfailed bar (List.mem_filter.mpr ⟨hheld, hfinished⟩)
  · intro hlost date hdate hfailed bar hbar
    obtain ⟨hheld, hfinished⟩ := List.mem_filter.mp hbar
    obtain ⟨hmem, hnot⟩ := h.notMem_fetched_iff.mpr ⟨date, hdate, hfailed, hheld⟩
    exact hlost bar (List.mem_filter.mpr ⟨hmem, hfinished⟩)
      fun hfetched => hnot (List.mem_filter.mp hfetched).1

end Covers

/-! ## What comes back -/

/-- Past the loop, `fetchRecent` throws when there is nothing to return, and else returns the
newest of what was fetched. -/
theorem fetchRecent_cases {dates : List String} {history : String → List ConfirmedCandle}
    {candleCount : Nat} {systemNow : Int} (now : Int)
    (hdates : buildDateParams timeFrame candleCount systemNow = dates)
    (h : Covers publicGet pair timeFrame dates history)
    (haborts : ¬ Aborts publicGet pair timeFrame dates) :
    ((candleCount = 0 ∨ finished now (fetched publicGet pair timeFrame dates) = []) ∧
        ∃ e, fetchRecent publicGet pair timeFrame candleCount systemNow now = .error e) ∨
      ((0 < candleCount ∧ finished now (fetched publicGet pair timeFrame dates) ≠ []) ∧
        ∃ result, fetchRecent publicGet pair timeFrame candleCount systemNow now = .ok result ∧
          IsNewest barTime candleCount
            (finished now (fetched publicGet pair timeFrame dates)) result) := by
  have hfetch : fetchDates publicGet pair timeFrame dates =
      .ok (fetched publicGet pair timeFrame dates) := by
    rcases fetchDates_cases dates with ⟨h', -⟩ | ⟨-, hok⟩
    · exact absurd h' haborts
    · exact hok
  have hdistinct := (h.distinct now).sublist (h.finished_sublist now)
  have hnewest := isNewest_mergeSort candleCount hdistinct
  have hempty := hnewest.length_eq
  unfold fetchRecent
  rw [hdates, hfetch]
  dsimp only
  split
  · rename_i hzero
    refine .inl ⟨?_, _, rfl⟩
    rw [← List.length_eq_zero_iff]
    have hmin := hempty.symm.trans hzero
    omega
  · rename_i hpos
    refine .inr ⟨?_, _, rfl, hnewest⟩
    rw [ne_eq, ← List.length_eq_zero_iff]
    have hmin : min candleCount _ ≠ 0 := fun hzero => hpos (hempty.trans hzero)
    omega

/-- No date that went well has a finished bar. -/
theorem finished_fetched_eq_nil_iff (dates : List String) (now : Int) :
    finished now (fetched publicGet pair timeFrame dates) = [] ↔
      ∀ date ∈ dates, ∀ candles, fetchDate publicGet pair timeFrame date = .ok candles →
        finished now candles = [] := by
  have hnil : finished now (fetched publicGet pair timeFrame dates) = [] ↔
      ∀ date ∈ dates, finished now
        ((fetchDate publicGet pair timeFrame date).toOption.getD []) = [] := by
    simp only [finished, fetched, List.filter_eq_nil_iff, List.mem_flatMap]
    constructor
    · intro h date hdate bar hbar
      exact h bar ⟨date, hdate, hbar⟩
    · rintro h bar ⟨date, hdate, hbar⟩
      exact h date hdate bar hbar
  rw [hnil]
  refine forall₂_congr fun date _ => ?_
  cases fetchDate publicGet pair timeFrame date with
  | ok candles => simp [Except.toOption]
  | error e => simp [Except.toOption, finished]

/-- The answer is an error, or the newest finished bars of the full history, exactly when
the loop is ended by a `MarketDataError`, or no finished bar was fetched, or nothing is lost. -/
theorem fetchRecent_newest_iff (candleCount : Nat) (systemNow now : Int)
    {history : String → List ConfirmedCandle}
    (h : Covers publicGet pair timeFrame (buildDateParams timeFrame candleCount systemNow)
      history) :
    ((∃ e, fetchRecent publicGet pair timeFrame candleCount systemNow now = .error e) ∨
        ∃ result, fetchRecent publicGet pair timeFrame candleCount systemNow now = .ok result ∧
          IsNewest barTime candleCount
            (fullHistory history (buildDateParams timeFrame candleCount systemNow) now) result) ↔
      Aborts publicGet pair timeFrame (buildDateParams timeFrame candleCount systemNow) ∨
        (∀ date ∈ buildDateParams timeFrame candleCount systemNow, ∀ candles,
          fetchDate publicGet pair timeFrame date = .ok candles → finished now candles = []) ∨
        NothingLost publicGet pair timeFrame (buildDateParams timeFrame candleCount systemNow)
          history candleCount now := by
  generalize hdates : buildDateParams timeFrame candleCount systemNow = dates at h ⊢
  rw [← finished_fetched_eq_nil_iff]
  by_cases haborts : Aborts publicGet pair timeFrame dates
  · refine iff_of_true (.inl ?_) (.inl haborts)
    obtain ⟨e, he⟩ : ∃ e, fetchDates publicGet pair timeFrame dates = .error e := by
      rcases fetchDates_cases dates with ⟨-, herror⟩ | ⟨hnot, -⟩
      · exact herror
      · exact absurd haborts hnot
    exact ⟨e, by simp [fetchRecent, hdates, he]⟩
  rcases fetchRecent_cases now hdates h haborts with ⟨hnone, e, he⟩ | ⟨hsome, result, hok, hnewest⟩
  · refine iff_of_true (.inl ⟨e, he⟩) (.inr ?_)
    rcases hnone with hzero | hnil
    · exact .inr fun _ _ _ _ _ => by simp [hzero]
    · exact .inl hnil
  · have hpart := hnewest.of_part_iff (h.distinct now) (h.finished_sublist now)
    have hreturned : ((∃ e, fetchRecent publicGet pair timeFrame candleCount systemNow now =
        .error e) ∨ ∃ result, fetchRecent publicGet pair timeFrame candleCount systemNow now =
          .ok result ∧ IsNewest barTime candleCount (fullHistory history dates now) result) ↔
        IsNewest barTime candleCount (fullHistory history dates now) result := by
      rw [hok]
      simp
    rw [hreturned, h.nothingLost_iff, hpart]
    simp [haborts, hsome.2]

/-! ## Today's request fails -/

def quietKline (openTime : Int) : GmoKlineData :=
  ⟨some openTime, some 150, some 150, some 150, some 150⟩

/-- The bar of it. -/
def quietKlineBar (openTime : Int) : ConfirmedCandle :=
  { flatCandle .oneMinute openTime quietPrice with
    closeTime := openTime + 60000 - 1
    opens_before := by show openTime < openTime + 60000 - 1; omega }

/-- The last bar before midnight and the first one after it. -/
def midnightBars (date : String) : List Int :=
  if date = "19700111" then [864000000] else if date = "19700110" then [863940000] else []

def midnightHistory (date : String) : List ConfirmedCandle := (midnightBars date).map quietKlineBar

/-- Some of the dates fail. -/
def midnightGet (failing : List String) : PublicGet := fun params =>
  if params.date ∈ failing then .error (.request .network)
  else .ok ((midnightBars params.date).map quietKline)

theorem toConfirmedCandle_quietKline (openTime : Int) :
    toConfirmedCandle .oneMinute (quietKline openTime) = .ok (quietKlineBar openTime) := by
  have hprice : parsePrice (some 150) = .ok quietPrice := rfl
  have hcandle := ConfirmedCandle.of_params (quietKlineBar openTime)
  simp only [toConfirmedCandle, quietKline, hprice, Throws.ok_bind]
  exact congrArg (Except.mapError KlinesError.candle) hcandle

theorem fetchDate_midnight {failing : List String} {date : String} (h : date ∉ failing) :
    fetchDate (midnightGet failing) .usdJpy .oneMinute date = .ok (midnightHistory date) := by
  have hmapM : ∀ bars : List Int, (bars.map quietKline).mapM (toConfirmedCandle .oneMinute) =
      .ok (bars.map quietKlineBar) := by
    intro bars
    induction bars with
    | nil => rfl
    | cons openTime bars ih =>
      rw [List.map_cons, List.mapM_cons, toConfirmedCandle_quietKline, Throws.ok_bind, ih]
      rfl
  simp only [fetchDate, midnightGet, h, if_false, Throws.ok_bind]
  exact hmapM (midnightBars date)

/-- The dates asked for ten minutes after midnight. -/
theorem covers_midnight (failing : List String) :
    Covers (midnightGet failing) .usdJpy .oneMinute (buildDateParams .oneMinute 1 864600000)
      midnightHistory where
  ascending := by decide +kernel
  disjoint := by decide +kernel
  served := by
    intro date _ candles hfetch
    by_cases hfailing : date ∈ failing
    · obtain ⟨data, hget, -⟩ := Throws.bind_eq_ok.mp hfetch
      simp [midnightGet, hfailing] at hget
    · exact Except.ok.inj (hfetch.symm.trans (fetchDate_midnight hfailing))

/-- With every date served the bar after midnight comes back. -/
theorem fetchRecent_newest_midnight :
    (∃ e, fetchRecent (midnightGet []) .usdJpy .oneMinute 1 864600000 864600000 = .error e) ∨
      ∃ result, fetchRecent (midnightGet []) .usdJpy .oneMinute 1 864600000 864600000 =
          .ok result ∧
        IsNewest barTime 1 (fullHistory midnightHistory
          (buildDateParams .oneMinute 1 864600000) 864600000) result := by
  refine (fetchRecent_newest_iff 1 864600000 864600000 (covers_midnight [])).mpr (.inr (.inr ?_))
  intro date _ ⟨e, he⟩
  rw [fetchDate_midnight (by simp)] at he
  cases he

/-- With today's request failed the answer is yesterday's bar, although the one after
midnight has closed. -/
theorem exists_newest_lost :
    Covers (midnightGet ["19700111"]) .usdJpy .oneMinute (buildDateParams .oneMinute 1 864600000)
        midnightHistory ∧
      (fullHistory midnightHistory (buildDateParams .oneMinute 1 864600000) 864600000).map barTime =
        [864000000, 863940000] ∧
      ∃ result, fetchRecent (midnightGet ["19700111"]) .usdJpy .oneMinute 1 864600000 864600000 =
          .ok result ∧ result.map barTime = [863940000] ∧
        ¬ IsNewest barTime 1 (fullHistory midnightHistory
          (buildDateParams .oneMinute 1 864600000) 864600000) result := by
  obtain ⟨result, hresult, htimes⟩ : ∃ result, fetchRecent (midnightGet ["19700111"]) .usdJpy
      .oneMinute 1 864600000 864600000 = .ok result ∧
        decide (result.map barTime = [863940000]) = true := Throws.exists_ok (by decide +kernel)
  have htimes := of_decide_eq_true htimes
  have hfull : (fullHistory midnightHistory (buildDateParams .oneMinute 1 864600000)
      864600000).map barTime = [864000000, 863940000] := by decide +kernel
  refine ⟨covers_midnight _, hfull, result, hresult, htimes, fun hnewest => ?_⟩
  obtain ⟨today, htoday, htime⟩ := List.mem_map.mp (hfull ▸ List.mem_cons_self ..)
  obtain ⟨yesterday, hyesterday, htime'⟩ := List.mem_map.mp (htimes ▸ List.mem_singleton_self _)
  have hnot : today ∉ result := by
    intro hmem
    have htimeMem : barTime today ∈ result.map barTime := List.mem_map_of_mem hmem
    simp [htimes, htime] at htimeMem
  have hlt := hnewest.newest today htoday hnot yesterday hyesterday
  rw [htime, htime'] at hlt
  exact absurd hlt (by decide)

end GmoCandleHistoryAdapter

end Luchida
