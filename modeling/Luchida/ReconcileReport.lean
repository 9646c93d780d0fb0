import Luchida.ReconciledCross

/- What `reconcile` tells of its corrections. It rewrites the confirmed candle and the
   SMAs of a time frame, and its doc promises a `BarReconciled` whenever one of them was
   off and `null` when there was no difference. The difference is taken from the SMA
   snapshots alone. A candle with another high, low or open and the same close is replaced
   without a word, and so is one whose close moves no average.

   The failures are atomic on every book that the methods make of a new one: the checks
   throw before anything changes, and the SMAs started over from prices that are positive
   throw nothing. The report is complete except where the SMAs held are those of the
   official closes already (`reconcile_reports_iff`). -/
namespace Luchida

variable {σ : Type} {average : List ℚ → ℚ} {config : IndicatorConfig}

/-! ## What the operators see -/

/-- A confirmed candle as a bar: its prices and the bucket it belongs to. -/
structure ConfirmedBar where
  openPrice : Price
  high : Price
  low : Price
  close : Price
  bucket : Int
  deriving DecidableEq

def ConfirmedCandle.bar (tf : TimeFrame) (c : ConfirmedCandle) : ConfirmedBar where
  openPrice := c.openPrice
  high := c.high
  low := c.low
  close := c.close
  bucket := tf.bucket c.openTime

namespace TimeFrameEntry

/-- The confirmed bar of the entry. -/
def confirmedBar (tf : TimeFrame) (entry : TimeFrameEntry σ) : Option ConfirmedBar :=
  entry.accumulator.lastConfirmed.map (ConfirmedCandle.bar tf)

/-- The confirmed bar, or one of the four confirmed SMA values, is another one. -/
def Differs (tf : TimeFrame) (before after : TimeFrameEntry σ) : Prop :=
  before.confirmedBar tf ≠ after.confirmedBar tf ∨
    before.ledger.snapshotOrNull ≠ after.ledger.snapshotOrNull

end TimeFrameEntry

namespace TimeFrameBook

variable [SmaCalculator σ]

/-- A call that fails, or has too few bars, is as if it had not been made; any other one
reports exactly when something changed. -/
structure ReportsCorrections (book : TimeFrameBook σ) (tf : TimeFrame)
    (official : List ConfirmedCandle) (now : Int) : Prop where
  atomic : (∃ e, (book.reconcile tf official now).1 = .error e) ∨
      official.length < (book.entries tf).ledger.requiredBarsForStable →
    ∀ tick now', (book.reconcile tf official now).2.onTick tick now' = book.onTick tick now'
  reports : ∀ report, (book.reconcile tf official now).1 = .ok report →
    (book.entries tf).ledger.requiredBarsForStable ≤ official.length →
    (report.isSome = true ↔ TimeFrameEntry.Differs tf (book.entries tf)
      ((book.reconcile tf official now).2.entries tf))

end TimeFrameBook

/-! ## What the ledger holds already -/

/-- The confirmed SMAs of the ledger are the averages at the last of the closes, and at the
one before it. -/
def HoldsAveragesOf (average : List ℚ → ℚ) (config : IndicatorConfig) (h : History)
    (ledger : IndicatorLedger σ) : Prop :=
  ∃ sma, ledger.snapshotOrNull = .ok (some sma) ∧
    sma.shortSma.value = h.current average config.shortSmaPeriod ∧
    sma.longSma.value = h.current average config.longSmaPeriod ∧
    sma.previousShortSma.value = h.previous average config.shortSmaPeriod ∧
    sma.previousLongSma.value = h.previous average config.longSmaPeriod

namespace HoldsAveragesOf

variable {h : History} {ledger ledger' : IndicatorLedger σ}

/-- Two ledgers that hold the same averages show the same snapshot. -/
theorem snapshotOrNull_eq (hk : HoldsAveragesOf average config h ledger)
    (hk' : HoldsAveragesOf average config h ledger') :
    ledger.snapshotOrNull = ledger'.snapshotOrNull := by
  obtain ⟨⟨⟨a, _⟩, ⟨b, _⟩, ⟨c, _⟩, ⟨d, _⟩⟩, hsma, ha, hb, hc, hd⟩ := hk
  obtain ⟨⟨⟨a', _⟩, ⟨b', _⟩, ⟨c', _⟩, ⟨d', _⟩⟩, hsma', ha', hb', hc', hd'⟩ := hk'
  obtain rfl : a = a' := ha.trans ha'.symm
  obtain rfl : b = b' := hb.trans hb'.symm
  obtain rfl : c = c' := hc.trans hc'.symm
  obtain rfl : d = d' := hd.trans hd'.symm
  rw [hsma, hsma']

/-- So the averages are held exactly when the snapshot is that of a ledger that holds them. -/
theorem iff_snapshotOrNull_eq (hk' : HoldsAveragesOf average config h ledger') :
    HoldsAveragesOf average config h ledger ↔ ledger.snapshotOrNull = ledger'.snapshotOrNull := by
  constructor
  · intro hk
    exact hk.snapshotOrNull_eq hk'
  · intro heq
    obtain ⟨sma, hsma, haverages⟩ := hk'
    exact ⟨sma, heq.trans hsma, haverages⟩

end HoldsAveragesOf

variable [SmaCalculator σ]

namespace LedgerTracks

variable {h : History} {ledger : IndicatorLedger σ}

/-- A ledger in step with a history that fills its windows holds the averages of it. -/
theorem holdsAveragesOf (hσ : AveragesBy average σ)
    (hk : LedgerTracks average config.shortSmaPeriod config.longSmaPeriod h ledger)
    (hpos : h.Positive) (hle : config.longSmaPeriod ≤ h.closes.length) :
    HoldsAveragesOf average config h ledger := by
  obtain ⟨v, hv, hstate⟩ := hk.currentValues_ok config.short_pos config.long_pos hσ hpos
    (config.max_periods.symm ▸ hle)
  refine ⟨v.confirmed, ?_, hstate.shortSma, hstate.longSma, hstate.previousShortSma,
    hstate.previousLongSma⟩
  -- the snapshot for the log is the confirmed half of the values
  unfold IndicatorLedger.currentValues at hv
  unfold IndicatorLedger.snapshotOrNull
  split at hv
  · rename_i sc lc hsc hlc
    obtain ⟨confirmed, hconfirmed, hv⟩ := Throws.bind_eq_ok.mp hv
    obtain ⟨forming, -, hv⟩ := Throws.bind_eq_ok.mp hv
    cases hv
    simp only [hconfirmed]
    rfl
  · cases hv

end LedgerTracks

/-- With enough official bars `reconcileWith` returns the snapshots before and after. -/
theorem Seeded.reconcileWith_ok (hσ : AveragesBy average σ) {closes : List ℚ}
    {ledger : IndicatorLedger σ}
    (h : Seeded average config closes ledger) {official : List ConfirmedCandle}
    (henough : config.longSmaPeriod ≤ official.length) :
    HoldsAveragesOf average config (.ofWarmUp official) (ledger.reseed official) ∧
      ∃ before after, ledger.snapshotOrNull = .ok before ∧
        (ledger.reseed official).snapshotOrNull = .ok (some after) ∧
        ledger.reconcileWith official =
          (.ok ⟨before, some after, before ≠ some after⟩, ledger.reseed official) := by
  have hlength : config.longSmaPeriod ≤ (History.ofWarmUp official).closes.length := by
    simpa [History.ofWarmUp] using henough
  have haverages :=
    (h.reseed_tracks hσ official).holdsAveragesOf hσ (History.ofWarmUp_positive official)
    hlength
  obtain ⟨before, hbefore⟩ := h.snapshotOrNull_ok hσ
  obtain ⟨after, hafter, -⟩ := id haverages
  refine ⟨haverages, before, after, hbefore, hafter, ?_⟩
  simp [IndicatorLedger.reconcileWith, hbefore, hafter]

/-! ## When the report is complete -/

namespace TimeFrameBook

variable {book : TimeFrameBook σ} {tf : TimeFrame} {official : List ConfirmedCandle}

omit [SmaCalculator σ] in
/-- A list that satisfies the checks is accepted. -/
theorem acceptOfficial_of_accepts {last : ConfirmedCandle} (h : book.Accepts tf official last)
    (htf : ∀ c ∈ official, c.timeFrame = tf) :
    ∃ acc, book.acceptOfficial tf official = .ok (some acc) := by
  have hmem : last ∈ official := List.mem_of_getLast? h.last_eq
  have hcheck : checkCandles .reconcile tf official = .ok () := by
    have hne : official.length ≠ 0 := by
      intro hzero
      rw [List.length_eq_zero_iff.mp hzero] at hmem
      cases hmem
    have hasc := ascendingByOpenTime_iff.mpr h.ascending
    simpa [checkCandles, hne, hasc] using htf
  have hsame : last.timeFrame = (book.entries tf).accumulator.timeFrame :=
    (htf last hmem).trans (book.sound tf).symm
  have hforming : (book.entries tf).accumulator.forming.any
      (fun f => f.openTime ≤ last.openTime) = false := by
    cases hf : (book.entries tf).accumulator.forming with
    | none => rfl
    | some f =>
      have hlt := h.before_forming f hf
      simpa using hlt
  refine ⟨{ (book.entries tf).accumulator with lastConfirmed := some last }, ?_⟩
  simp only [acceptOfficial, hcheck, h.last_eq, if_neg (not_lt.mpr h.enough),
    CandleAccumulator.reconcileLastConfirmed, ne_eq, hsame, not_true, if_false, hforming,
    Bool.false_eq_true]

/-- What an accepted list makes `reconcile` return. -/
theorem reconcile_report {acc : CandleAccumulator} {before : Option SmaSnapshot}
    {after : SmaSnapshot} {ledger : IndicatorLedger σ} (now : Int)
    (hacc : book.acceptOfficial tf official = .ok (some acc))
    (hledger : (book.entries tf).ledger.reconcileWith official =
      (.ok ⟨before, some after, before ≠ some after⟩, ledger)) :
    (book.reconcile tf official now).1 =
      .ok (if before = some after then none else some ⟨tf, now, before, after⟩) := by
  unfold reconcile
  split
  · rename_i h
    rw [hacc] at h
    cases h
  · rename_i h
    rw [hacc] at h
    cases h
  · dsimp only
    rw [hledger]
    by_cases heq : before = some after
    · simp [heq]
    · simp [heq]

/-- A list that is not accepted throws or is too short. -/
theorem reconcile_of_rejected (now : Int)
    (h : ∀ acc, book.acceptOfficial tf official ≠ .ok (some acc)) :
    (∃ e, (book.reconcile tf official now).1 = .error e) ∨
      official.length < (book.entries tf).ledger.requiredBarsForStable := by
  unfold reconcile
  split
  · rename_i e _
    exact .inl ⟨e, rfl⟩
  · rename_i hnone
    refine .inr ?_
    unfold acceptOfficial at hnone
    split at hnone
    · cases hnone
    · cases hnone
    · dsimp only at hnone
      split at hnone
      · assumption
      · split at hnone <;> cases hnone
  · rename_i acc hacc
    exact absurd hacc (h acc)

/-- Of any book, every call fails atomically and reports all it corrected, unless the list
is accepted with a newest bar other than the one held, and the SMAs held are the averages of
its closes already. -/
theorem reconcile_reports_iff (hσ : AveragesBy average σ) (pair : CurrencyPair)
    (calls : List BookCall) (tf : TimeFrame) (official : List ConfirmedCandle) (now : Int) :
    ((new pair config : TimeFrameBook σ).run calls).ReportsCorrections tf official now ↔
      ∀ last, ((new pair config : TimeFrameBook σ).run calls).Accepts tf official last →
        (∀ c ∈ official, c.timeFrame = tf) →
        (((new pair config : TimeFrameBook σ).run calls).entries tf).confirmedBar tf ≠
          some (last.bar tf) →
        ¬ HoldsAveragesOf average config (.ofWarmUp official)
          (((new pair config : TimeFrameBook σ).run calls).entries tf).ledger := by
  obtain ⟨closes, hseeded⟩ := AllSeeded.run hσ pair calls tf
  generalize (new pair config : TimeFrameBook σ).run calls = book at hseeded ⊢
  have hrequired := hseeded.required
  by_cases haccepted : ∃ acc, book.acceptOfficial tf official = .ok (some acc)
  · obtain ⟨acc, hacc⟩ := haccepted
    obtain ⟨-, -, last, hlast, haccepts⟩ := acceptOfficial_ok hacc
    have htimeFrame := checkCandles_timeFrame (checkCandles_of_acceptOfficial hacc)
    have henough : config.longSmaPeriod ≤ official.length := hrequired ▸ haccepts.enough
    obtain ⟨haverages, before, after, hbefore, hafter, hledger⟩ :=
      hseeded.reconcileWith_ok hσ henough
    have hreport := reconcile_report now hacc hledger
    have hentry : (book.reconcile tf official now).2.entries tf =
        ⟨acc, (book.entries tf).ledger.reseed official⟩ := by
      rw [reconcile_accepted now hacc, Function.update_self, hledger]
    have hsame : HoldsAveragesOf average config (.ofWarmUp official) (book.entries tf).ledger ↔
        before = some after := by
      rw [haverages.iff_snapshotOrNull_eq, hbefore, hafter, Except.ok.injEq]
    have hdiffers : TimeFrameEntry.Differs tf (book.entries tf)
        ((book.reconcile tf official now).2.entries tf) ↔
        (book.entries tf).confirmedBar tf ≠ some (last.bar tf) ∨ before ≠ some after := by
      rw [hentry, TimeFrameEntry.Differs, hbefore, hafter]
      simp [TimeFrameEntry.confirmedBar, hlast]
    constructor
    · intro hprop last' haccepts' _ hbar hheld
      obtain rfl : last = last' :=
        Option.some.inj (haccepts.last_eq.symm.trans haccepts'.last_eq)
      -- the averages are the same, so nothing is reported, and the bar differs
      have hreports := (hprop.reports _ hreport haccepts.enough).mpr (hdiffers.mpr (.inl hbar))
      simp [hsame.mp hheld] at hreports
    · intro hcondition
      refine ⟨fun hfails => ?_, fun report hreport' _ => ?_⟩
      · rcases hfails with ⟨e, he⟩ | hshort
        · rw [hreport] at he
          cases he
        · exact absurd haccepts.enough (not_le.mpr hshort)
      · obtain rfl := Except.ok.inj (hreport.symm.trans hreport')
        rw [hdiffers]
        by_cases heq : before = some after
        · have hbar := mt (hcondition last haccepts htimeFrame) (not_not.mpr (hsame.mpr heq))
          simp [heq, not_not.mp hbar]
        · simp [heq]
  · simp only [not_exists] at haccepted
    have hfails := reconcile_of_rejected now haccepted
    constructor
    · intro _ last haccepts htimeFrame
      obtain ⟨acc, hacc⟩ := acceptOfficial_of_accepts haccepts htimeFrame
      exact absurd hacc (haccepted acc)
    · intro _
      refine ⟨fun _ tick now' => by rw [reconcile_rejected now haccepted], ?_⟩
      intro report hreport henough
      rcases hfails with ⟨e, he⟩ | hshort
      · rw [hreport] at he
        cases he
      · exact absurd henough (not_le.mpr hshort)

end TimeFrameBook

/-! ## A wick that nobody is told of -/

/-- The bars of the warm-up as the exchange has them: the last one reached `crossPrice`
before it closed where it had opened. -/
def wickedOfficial : List ConfirmedCandle :=
  [barAt 863880000 150,
    { barAt 863940000 150 with
      high := crossPrice
      open_le_high := by decide +kernel
      close_le_high := by decide +kernel }]

/-- A list with other closes is reported. -/
theorem reconcile_reports_rising :
    ((TimeFrameBook.new .usdJpy quietConfig : TimeFrameBook RecordedSma).run
      minuteWarmUp).ReportsCorrections .oneMinute risingOfficial 863950000 := by
  refine (TimeFrameBook.reconcile_reports_iff RecordedSma.exactSma.averagesBy .usdJpy minuteWarmUp
    .oneMinute risingOfficial 863950000).mpr fun _ _ _ _ hheld => ?_
  obtain ⟨held, hheld', hshort⟩ : ∃ held, (((TimeFrameBook.new .usdJpy quietConfig :
      TimeFrameBook RecordedSma).run minuteWarmUp).entries .oneMinute).ledger.snapshotOrNull =
        .ok held ∧ held.any (fun sma => sma.shortSma.value ≠ 3) = true :=
    Throws.exists_ok (by decide +kernel)
  -- the short mean held is not the last official close
  obtain ⟨sma, hsma, hmean, -⟩ := hheld
  obtain rfl := Except.ok.inj (hheld'.symm.trans hsma)
  rw [Option.any_some, hmean] at hshort
  exact absurd hshort (by decide +kernel)

/-- The confirmed bar gets its high, the SMAs stay, and the answer is that of a list without
a difference. -/
theorem exists_correction_unreported :
    (∃ report, (((TimeFrameBook.new .usdJpy quietConfig : TimeFrameBook RecordedSma).run
        minuteWarmUp).reconcile .oneMinute wickedOfficial 863950000).1 = .ok report ∧
      report.isNone = true) ∧
      ((((TimeFrameBook.new .usdJpy quietConfig : TimeFrameBook RecordedSma).run
        minuteWarmUp).entries .oneMinute).confirmedBar .oneMinute).map ConfirmedBar.high =
          some quietPrice ∧
      (((((TimeFrameBook.new .usdJpy quietConfig : TimeFrameBook RecordedSma).run
        minuteWarmUp).reconcile .oneMinute wickedOfficial 863950000).2.entries
          .oneMinute).confirmedBar .oneMinute).map ConfirmedBar.high = some crossPrice ∧
      ¬ ((TimeFrameBook.new .usdJpy quietConfig : TimeFrameBook RecordedSma).run
        minuteWarmUp).ReportsCorrections .oneMinute wickedOfficial 863950000 := by
  obtain ⟨report, hreport, hnone⟩ : ∃ report, (((TimeFrameBook.new .usdJpy quietConfig :
      TimeFrameBook RecordedSma).run minuteWarmUp).reconcile .oneMinute wickedOfficial
        863950000).1 = .ok report ∧ report.isNone = true := Throws.exists_ok (by decide +kernel)
  have hbefore : ((((TimeFrameBook.new .usdJpy quietConfig : TimeFrameBook RecordedSma).run
      minuteWarmUp).entries .oneMinute).confirmedBar .oneMinute).map ConfirmedBar.high =
        some quietPrice := by decide +kernel
  have hafter : (((((TimeFrameBook.new .usdJpy quietConfig : TimeFrameBook RecordedSma).run
      minuteWarmUp).reconcile .oneMinute wickedOfficial 863950000).2.entries
        .oneMinute).confirmedBar .oneMinute).map ConfirmedBar.high = some crossPrice := by
    decide +kernel
  refine ⟨⟨report, hreport, hnone⟩, hbefore, hafter, fun hprop => ?_⟩
  have hsome := (hprop.reports report hreport (by decide +kernel)).mpr (.inl fun heq => ?_)
  · rw [Option.isNone_iff_eq_none.mp hnone] at hsome
    cases hsome
  · rw [heq, hafter] at hbefore
    exact absurd hbefore (by decide +kernel)

end Luchida
