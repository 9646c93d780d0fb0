import Luchida.BookReadiness
import Luchida.CrossHistory

/- The cross that `reconcile` leaves for the rules. An official list starts both SMAs over,
   and the detector compares the SMAs at its last bar with those at the bar before it.
   The long one before it needs `longSmaPeriod + 1` bars, as the doc of the warm-up says.
   `reconcile` asks for `longSmaPeriod`, and puts the long SMA of today in the place of
   the one that is missing (`exists_cross_fabricated`). With one bar more the snapshot is
   that of two neighbouring bars (`reconcile_showsLastPair_iff`).

   The book may be any that the methods make of a new one, in whatever order they are
   called and whatever they throw: of the ledger only the confirmed side matters
   (`Seeded`), since the list replaces the forming one. -/
namespace Luchida

open Window

variable {σ : Type} [SmaCalculator σ] {average : List ℚ → ℚ} {config : IndicatorConfig}

/-! ## Any book -/

/-- The calls on a book. -/
inductive BookCall where
  | warmUp (timeFrame : TimeFrame) (confirmedCandles : List ConfirmedCandle)
  | onTick (tick : Tick) (now : Int)
  | reconcile (timeFrame : TimeFrame) (official : List ConfirmedCandle) (now : Int)

namespace TimeFrameBook

/-- The book that a call leaves, whether it returns or throws. -/
def apply (book : TimeFrameBook σ) : BookCall → TimeFrameBook σ
  | .warmUp timeFrame confirmedCandles =>
    match book.warmUp timeFrame confirmedCandles with
    | .ok book' => book'
    -- the list is checked before anything changes
    | .error _ => book
  | .onTick tick now => (book.onTick tick now).2
  | .reconcile timeFrame official now => (book.reconcile timeFrame official now).2

def run (book : TimeFrameBook σ) (calls : List BookCall) : TimeFrameBook σ :=
  calls.foldl apply book

end TimeFrameBook

/-! ## The confirmed side of a ledger -/

/-- The confirmed values of the ledger are those of some closes, all of them prices. -/
structure Seeded (average : List ℚ → ℚ) (config : IndicatorConfig) (closes : List ℚ)
    (ledger : IndicatorLedger σ) : Prop where
  short : ConfirmedTracks average config.shortSmaPeriod closes ledger.short
  long : ConfirmedTracks average config.longSmaPeriod closes ledger.long
  positive : ∀ x ∈ closes, 0 < x
  required : ledger.requiredBarsForStable = config.longSmaPeriod

/-- The closes of a list of candles. -/
def closesOf (candles : List ConfirmedCandle) : List ℚ := candles.map fun c => c.close.value

theorem closesOf_pos (candles : List ConfirmedCandle) : ∀ x ∈ closesOf candles, 0 < x :=
  (History.ofWarmUp_positive candles).1

namespace Seeded

variable {closes : List ℚ} {ledger : IndicatorLedger σ}

theorem new (config : IndicatorConfig) : Seeded average config []
    (.new config.shortSmaPeriod config.longSmaPeriod : IndicatorLedger σ) where
  short := (Tracks.new _ config.short_pos).confirmedTracks
  long := (Tracks.new _ config.long_pos).confirmedTracks
  positive := by simp
  required := config.max_periods

theorem onCandleUpdated (h : Seeded average config closes ledger) (forming : FormingCandle) :
    Seeded average config closes (ledger.onCandleUpdated forming) :=
  ⟨⟨h.short.period, h.short.confirmed, h.short.current, h.short.prev⟩,
    ⟨h.long.period, h.long.confirmed, h.long.current, h.long.prev⟩, h.positive, h.required⟩

variable (hσ : AveragesBy average σ)
include hσ

theorem snapshotOrNull_ok (h : Seeded average config closes ledger) :
    ∃ snapshot, ledger.snapshotOrNull = .ok snapshot :=
  snapshotOrNull_ok_of_confirmed hσ config.short_pos
    config.long_pos h.short h.long h.positive

/-- The report of `reconcileWith` throws nothing before the SMAs have started over. -/
theorem reconcileWith_eq (h : Seeded average config closes ledger)
    (official : List ConfirmedCandle) :
    (ledger.reconcileWith official).2 = ledger.reseed official := by
  obtain ⟨before, hbefore⟩ := h.snapshotOrNull_ok hσ
  unfold IndicatorLedger.reconcileWith
  rw [hbefore]
  dsimp only
  split <;> rfl

theorem onCandleConfirmed (h : Seeded average config closes ledger) (candle : ConfirmedCandle) :
    Seeded average config (closes ++ [candle.close.value]) (ledger.onCandleConfirmed candle) := by
  have hshort := h.short.addConfirmed hσ candle.close.value
  have hlong := h.long.addConfirmed hσ candle.close.value
  refine ⟨⟨hshort.period, hshort.confirmed, hshort.current, hshort.prev⟩,
    ⟨hlong.period, hlong.confirmed, hlong.current, hlong.prev⟩, ?_, h.required⟩
  intro x hx
  rcases List.mem_append.mp hx with hx | hx
  · exact h.positive x hx
  · rw [List.mem_singleton.mp hx]
    exact candle.close.pos

theorem warmUp (h : Seeded average config closes ledger) (candles : List ConfirmedCandle) :
    Seeded average config (closes ++ closesOf candles) (ledger.warmUp candles) := by
  induction candles generalizing closes ledger with
  | nil => simpa [closesOf] using! h
  | cons c candles ih =>
    have hnext := h.onCandleConfirmed hσ c
    -- a warm-up does to the confirmed side what a confirmation does
    have hseed : Seeded average config (closes ++ [c.close.value]) (ledger.map fun t =>
        (t.addConfirmed c.close.value).addFormingForWarmUp c.close.value) :=
      ⟨⟨hnext.short.period, hnext.short.confirmed, hnext.short.current, hnext.short.prev⟩,
        ⟨hnext.long.period, hnext.long.confirmed, hnext.long.current, hnext.long.prev⟩,
        hnext.positive, hnext.required⟩
    simpa [closesOf, IndicatorLedger.warmUp] using! ih hseed

/-- Started over, both lines are those of the official closes. -/
theorem reseed_tracks (h : Seeded average config closes ledger) (official : List ConfirmedCandle) :
    LedgerTracks average config.shortSmaPeriod config.longSmaPeriod (.ofWarmUp official)
      (ledger.reseed official) where
  short := h.short.reseed hσ config.short_pos _
  long := h.long.reseed hσ config.long_pos _

theorem reconcileWith (h : Seeded average config closes ledger) (official : List ConfirmedCandle) :
    Seeded average config (closesOf official) (ledger.reconcileWith official).2 := by
  have htracks := h.reseed_tracks hσ official
  rw [h.reconcileWith_eq hσ official]
  exact ⟨htracks.short.confirmedTracks, htracks.long.confirmedTracks, closesOf_pos official,
    h.required⟩

end Seeded

/-! ## The ledgers of any book -/

namespace TimeFrameBook

variable {book : TimeFrameBook σ}

def AllSeeded (average : List ℚ → ℚ) (config : IndicatorConfig) (book : TimeFrameBook σ) : Prop :=
  ∀ tf, ∃ closes, Seeded average config closes (book.entries tf).ledger

theorem AllSeeded.apply (hσ : AveragesBy average σ) (h : book.AllSeeded average config)
    (call : BookCall) : (book.apply call).AllSeeded average config := by
  intro tf
  cases call with
  | warmUp tf' candles =>
    unfold TimeFrameBook.apply
    dsimp only
    split
    · rename_i book' hbook'
      obtain ⟨-, hentries⟩ := warmUp_ok hbook'
      rw [hentries]
      by_cases heq : tf = tf'
      · subst heq
        obtain ⟨closes, hcloses⟩ := h tf
        exact ⟨_, by simpa using hcloses.warmUp hσ candles⟩
      · simpa [heq] using h tf
    · exact h tf
  | onTick tick now =>
    show ∃ closes, Seeded average config closes ((book.onTick tick now).2.entries tf).ledger
    rcases book.onTick_entries tick now tf with heq | heq
    · rw [heq]
      exact h tf
    · rw [heq]
      refine processEntry_ledger (P := fun ledger => ∃ closes, Seeded average config closes ledger)
        (fun ledger c hledger => ?_) (fun ledger f hledger => ?_) tf tick (h tf)
      · obtain ⟨closes, hcloses⟩ := hledger
        exact ⟨_, hcloses.onCandleConfirmed hσ c⟩
      · obtain ⟨closes, hcloses⟩ := hledger
        exact ⟨_, hcloses.onCandleUpdated f⟩
  | reconcile tf' official now =>
    show ∃ closes, Seeded average config closes
      ((book.reconcile tf' official now).2.entries tf).ledger
    rcases book.reconcile_entries tf' official now tf with heq | ⟨rfl, acc, -, heq⟩
    · rw [heq]
      exact h tf
    · obtain ⟨closes, hcloses⟩ := h tf
      rw [heq]
      exact ⟨_, hcloses.reconcileWith hσ official⟩

theorem AllSeeded.run (hσ : AveragesBy average σ) (pair : CurrencyPair) (calls : List BookCall) :
    ((new pair config : TimeFrameBook σ).run calls).AllSeeded average config := by
  induction calls using List.reverseRecOn with
  | nil => exact fun _ => ⟨[], Seeded.new config⟩
  | append_singleton calls call ih =>
    rw [TimeFrameBook.run, List.foldl_append]
    exact ih.apply hσ call

end TimeFrameBook

/-! ## The cross of the official closes -/

/-- The cross at the last of the closes, where the averages at it and at the one before it are
defined. -/
def closesCross (average : List ℚ → ℚ) (short long : Nat) (closes : List ℚ) : Option CrossType := do
  let previousShort ← fullAverage average short closes.dropLast
  let previousLong ← fullAverage average long closes.dropLast
  let currentShort ← fullAverage average short closes
  let currentLong ← fullAverage average long closes
  return if previousShort ≤ previousLong ∧ currentLong < currentShort then .goldenCross
    else if previousLong ≤ previousShort ∧ currentShort < currentLong then .deadCross
    else .none

/-- The confirmed snapshot is that of the last two official bars, and so is its cross. -/
def ShowsLastPair (average : List ℚ → ℚ) (config : IndicatorConfig)
    (official : List ConfirmedCandle) (ledger : IndicatorLedger σ) : Prop :=
  ∃ values, ledger.currentValues = .ok values ∧
    fullAverage average config.shortSmaPeriod (closesOf official) =
      some values.confirmed.shortSma.value ∧
    fullAverage average config.longSmaPeriod (closesOf official) =
      some values.confirmed.longSma.value ∧
    fullAverage average config.shortSmaPeriod (closesOf official).dropLast =
      some values.confirmed.previousShortSma.value ∧
    fullAverage average config.longSmaPeriod (closesOf official).dropLast =
      some values.confirmed.previousLongSma.value ∧
    closesCross average config.shortSmaPeriod config.longSmaPeriod (closesOf official) =
      some (detectCross values.confirmed)

theorem closesCross_eq {short long : Nat} {closes : List ℚ} {sma : SmaSnapshot}
    (hshort : fullAverage average short closes = some sma.shortSma.value)
    (hlong : fullAverage average long closes = some sma.longSma.value)
    (hpreviousShort : fullAverage average short closes.dropLast = some sma.previousShortSma.value)
    (hpreviousLong : fullAverage average long closes.dropLast = some sma.previousLongSma.value) :
    closesCross average short long closes = some (detectCross sma) := by
  have hle : sma.previousLongSma.value < sma.previousShortSma.value ∨
      sma.previousShortSma.value = sma.previousLongSma.value ↔
      sma.previousLongSma.value ≤ sma.previousShortSma.value := by
    rw [le_iff_lt_or_eq, eq_comm]
  simp only [closesCross, hshort, hlong, hpreviousShort, hpreviousLong, detectCross, hle,
    ← le_iff_lt_or_eq, bind, Option.bind_some, pure]

theorem showsLastPair_reseed_iff (hσ : AveragesBy average σ) {closes : List ℚ}
    {ledger : IndicatorLedger σ}
    (h : Seeded average config closes ledger) (official : List ConfirmedCandle) :
    ShowsLastPair average config official (ledger.reseed official) ↔
      config.longSmaPeriod + 1 ≤ official.length := by
  have hlt := config.short_lt_long
  constructor
  · rintro ⟨values, -, -, -, -, hpreviousLong, -⟩
    by_contra hshort
    have hnone : fullAverage average config.longSmaPeriod (closesOf official).dropLast = none := by
      refine fullAverage_eq_none le_rfl ?_
      rw [List.length_dropLast, closesOf, List.length_map]
      omega
    rw [hnone] at hpreviousLong
    cases hpreviousLong
  · intro henough
    have hlength : (closesOf official).length = official.length := List.length_map ..
    have hpreviousLength : (closesOf official).dropLast.length = official.length - 1 := by
      rw [List.length_dropLast, hlength]
    obtain ⟨values, hvalues, hstate⟩ := (h.reseed_tracks hσ official).currentValues_ok
      config.short_pos config.long_pos hσ (History.ofWarmUp_positive official) (by
        rw [config.max_periods]
        exact hlength ▸ Nat.le_of_succ_le henough)
    have hcurrent : ∀ n, n < official.length →
        fullAverage average n (closesOf official) =
          some ((History.ofWarmUp official).current average n) := by
      intro n hn
      exact fullAverage_of_le (by omega)
    have hprevious : ∀ n, n < official.length →
        fullAverage average n (closesOf official).dropLast =
          some ((History.ofWarmUp official).previous average n) := by
      intro n hn
      rw [History.previous_of_lt (by simpa [History.ofWarmUp] using hn)]
      exact fullAverage_of_le (by omega)
    have hshort := hcurrent config.shortSmaPeriod (by omega)
    have hlong := hcurrent config.longSmaPeriod (by omega)
    have hpreviousShort := hprevious config.shortSmaPeriod (by omega)
    have hpreviousLong := hprevious config.longSmaPeriod (by omega)
    rw [← hstate.shortSma] at hshort
    rw [← hstate.longSma] at hlong
    rw [← hstate.previousShortSma] at hpreviousShort
    rw [← hstate.previousLongSma] at hpreviousLong
    exact ⟨values, hvalues, hshort, hlong, hpreviousShort, hpreviousLong,
      closesCross_eq hshort hlong hpreviousShort hpreviousLong⟩

/-- Of any book, an official list that is accepted leaves the snapshot of its last two bars,
and their cross, exactly when it has one bar more than the long window. -/
theorem reconcile_showsLastPair_iff (hσ : AveragesBy average σ) (pair : CurrencyPair)
    (calls : List BookCall) {tf : TimeFrame} {official : List ConfirmedCandle}
    {acc : CandleAccumulator} (now : Int)
    (hacc : ((TimeFrameBook.new pair config : TimeFrameBook σ).run calls).acceptOfficial tf
      official = .ok (some acc)) :
    ShowsLastPair average config official ((((TimeFrameBook.new pair config : TimeFrameBook σ).run
        calls).reconcile tf official now).2.entries tf).ledger ↔
      config.longSmaPeriod + 1 ≤ official.length := by
  obtain ⟨closes, hcloses⟩ := TimeFrameBook.AllSeeded.run hσ pair calls tf
  rw [TimeFrameBook.reconcile_accepted now hacc, Function.update_self,
    hcloses.reconcileWith_eq hσ official]
  exact showsLastPair_reseed_iff hσ hcloses official

/-! ## One bar short -/

/-- Closes at 1, 2 and 3: with periods of 1 and 2 bars the short mean was above the long
one already. -/
def risingOfficial : List ConfirmedCandle :=
  [barAt 863820000 1, barAt 863880000 2, barAt 863940000 3]

def minuteWarmUp : List BookCall := [.warmUp .oneMinute (quietHistory .oneMinute)]

/-- All three bars show their last pair. -/
theorem reconcile_showsLastPair_rising :
    ShowsLastPair mean quietConfig risingOfficial ((((TimeFrameBook.new .usdJpy quietConfig :
      TimeFrameBook RecordedSma).run minuteWarmUp).reconcile .oneMinute risingOfficial
        863950000).2.entries .oneMinute).ledger := by
  obtain ⟨acc, hacc, hsome⟩ : ∃ acc, ((TimeFrameBook.new .usdJpy quietConfig :
      TimeFrameBook RecordedSma).run minuteWarmUp).acceptOfficial .oneMinute risingOfficial =
        .ok acc ∧ acc.isSome = true := Throws.exists_ok (by decide +kernel)
  obtain ⟨acc, rfl⟩ := Option.isSome_iff_exists.mp hsome
  exact (reconcile_showsLastPair_iff RecordedSma.exactSma.averagesBy .usdJpy minuteWarmUp 863950000
    hacc).mpr (by decide)

/-- The newest two of them are accepted. The long mean at the first of the two is not
defined, and a golden cross is reported; with the bar before it there is none. -/
theorem exists_cross_fabricated :
    ∃ acc values, ((TimeFrameBook.new .usdJpy quietConfig : TimeFrameBook RecordedSma).run
        minuteWarmUp).acceptOfficial .oneMinute risingOfficial.tail = .ok (some acc) ∧
      ((((TimeFrameBook.new .usdJpy quietConfig : TimeFrameBook RecordedSma).run
        minuteWarmUp).reconcile .oneMinute risingOfficial.tail 863950000).2.entries
          .oneMinute).ledger.currentValues = .ok values ∧
      detectCross values.confirmed = .goldenCross ∧
      closesCross mean 1 2 (closesOf risingOfficial.tail) = none ∧
      closesCross mean 1 2 (closesOf risingOfficial) = some .none ∧
      ¬ ShowsLastPair mean quietConfig risingOfficial.tail
        ((((TimeFrameBook.new .usdJpy quietConfig :
        TimeFrameBook RecordedSma).run minuteWarmUp).reconcile .oneMinute risingOfficial.tail
          863950000).2.entries .oneMinute).ledger := by
  obtain ⟨acc, hacc, hsome⟩ : ∃ acc, ((TimeFrameBook.new .usdJpy quietConfig :
      TimeFrameBook RecordedSma).run minuteWarmUp).acceptOfficial .oneMinute risingOfficial.tail =
        .ok acc ∧ acc.isSome = true := Throws.exists_ok (by decide +kernel)
  obtain ⟨acc, rfl⟩ := Option.isSome_iff_exists.mp hsome
  obtain ⟨values, hvalues, hgolden⟩ : ∃ values, ((((TimeFrameBook.new .usdJpy quietConfig :
      TimeFrameBook RecordedSma).run minuteWarmUp).reconcile .oneMinute risingOfficial.tail
        863950000).2.entries .oneMinute).ledger.currentValues = .ok values ∧
      decide (detectCross values.confirmed = .goldenCross) = true :=
    Throws.exists_ok (by decide +kernel)
  have hundefined : closesCross mean 1 2 (closesOf risingOfficial.tail) = none := by decide +kernel
  refine ⟨acc, values, hacc, hvalues, of_decide_eq_true hgolden, hundefined, by decide +kernel,
    ?_⟩
  rintro ⟨_, -, -, -, -, -, hcross⟩
  exact absurd (hundefined.symm.trans hcross) (by simp)

end Luchida
