import Luchida.BacktestRunner
import Luchida.LedgerRefinement

/- Which batches end with a result of every set? While a run goes on, its adapter stays
   warmed up and its rate is the close just shown (`Running`), so a round stops only at an
   open that no quote can be put around, or where the rule asks for a lot and gets none.
   `Balance` refuses a negative equity, and nothing in the engine keeps the equity above
   zero: one gap through the stop is enough.

   So a set runs to its result exactly when its parameters pass the checks of the
   constructors, the closes and the opens can be quoted, and the equity is not negative
   wherever the rule asks for a lot (`runOne_returns_iff`). The sets after one that does not
   are never run (`run_survives_iff`, `exists_batch_aborted`). Prices and equity are numbers
   of the runtime, and the condition is one on its arithmetic. -/
namespace Luchida

open OrderedMap Throws ResultCalculator

/-! ## The adapter of a run -/

section
variable {σ : Type} [SmaCalculator σ] {average : List ℚ → ℚ} {short long : Nat} {tf : TimeFrame}
  {a a' : BacktestSnapshotAdapter σ}

/-- The windows of the signal time frame are full, and no other time frame has bars. -/
structure Warmed (average : List ℚ → ℚ) (numbers : NumberArithmetic) (short long : Nat)
    (tf : TimeFrame) (a : BacktestSnapshotAdapter σ) : Prop where
  warmedUp : a.warmedUp = true
  signal : a.signalTimeFrame = tf
  numbers : a.numbers = numbers
  lone : a.Lone
  state : ∃ st hist, get a.states tf = some st ∧ LedgerTracks average short long hist st.ledger ∧
    hist.Positive ∧ max short long ≤ hist.closes.length

namespace Warmed

variable {numbers : NumberArithmetic}

/-- A warm-up that fills the windows. -/
theorem of_new (hσ : AveragesBy average σ) (hshort : 0 < short) (hlong : 0 < long)
    {pair : CurrencyPair}
    (h : BacktestSnapshotAdapter.new pair tf [⟨tf, short, long⟩] numbers = .ok a)
    {candles : List ConfirmedCandle} (hfull : max short long ≤ candles.length) :
    Warmed average numbers short long tf (a.warmUp candles) := by
  obtain ⟨-, hsignal, -, hnumbers⟩ := BacktestSnapshotAdapter.new_ok h
  obtain ⟨spec, hspec, -, hst⟩ := BacktestSnapshotAdapter.new_warmUp_get h candles
  obtain rfl := List.mem_singleton.mp hspec
  refine ⟨rfl, hsignal, hnumbers, BacktestSnapshotAdapter.new_warmUp_lone h candles, _,
    .ofWarmUp candles, hst, ?_, History.ofWarmUp_positive candles, ?_⟩
  · rw [TimeFrameState.warmUp_ledger]
    exact LedgerTracks.warmUp hshort hlong hσ candles
  · simpa [History.ofWarmUp] using hfull

variable (hσ : AveragesBy average σ) (hshort : 0 < short) (hlong : 0 < long)
  {candle : ConfirmedCandle} {tick : Tick} {nextOpen : Price}

include hσ hshort hlong

/-- A bar of the signal time frame is shown as soon as the next open can be quoted. -/
theorem addCandle (h : Warmed average numbers short long tf a) (hctf : candle.timeFrame = tf)
    {forming : FormingCandle}
    (hforming : makeFormingFromOpen numbers nextOpen tick tf = .ok forming) :
    ∃ snapshot a', a.addCandleAndBuild candle tick nextOpen = .ok (snapshot, a') ∧
      Warmed average numbers short long tf a' := by
  obtain ⟨hwarm, rfl, rfl, hlone, st, hist, hst, htracks, hpos, hfull⟩ := h
  -- the ledger has the bar and the forming candle
  have htracks' := (htracks.apply hshort hlong hσ hpos (.onCandleConfirmed candle)).apply hshort
    hlong hσ (History.after_positive hpos _) (.onCandleUpdated forming)
  have hpos' := History.after_positive (History.after_positive hpos (.onCandleConfirmed candle))
    (.onCandleUpdated forming)
  have hfull' : max short long ≤ ((hist.after (.onCandleConfirmed candle)).after
      (.onCandleUpdated forming)).closes.length := by
    simp only [History.after, List.length_append, List.length_singleton]
    omega
  obtain ⟨v, hv, -⟩ := htracks'.currentValues_ok hshort hlong hσ hpos' hfull'
  obtain ⟨snapshot, a', hbuild, hwarm', hsignal, hnumbers, hst', hlone', -, -⟩ :=
    BacktestSnapshotAdapter.exists_addCandle_lone hwarm hlone hst hctf hforming hv
  exact ⟨snapshot, a', hbuild, hwarm', hsignal, hnumbers, hlone', _, _, hst', htracks', hpos',
    hfull'⟩

theorem exists_addCandle_iff (h : Warmed average numbers short long tf a)
    (hctf : candle.timeFrame = tf) :
    (∃ shown, a.addCandleAndBuild candle tick nextOpen = .ok shown) ↔
      numbers.Quotable nextOpen := by
  rw [← exists_makeForming_iff tick tf]
  constructor
  · intro hshown
    obtain ⟨⟨snapshot, a'⟩, hbuild⟩ := hshown
    obtain ⟨-, forming, hforming, -⟩ := BacktestSnapshotAdapter.addCandleAndBuild_ok hbuild
    exact ⟨forming, h.signal ▸ h.numbers ▸ hforming⟩
  · intro hquoted
    obtain ⟨forming, hforming⟩ := hquoted
    obtain ⟨snapshot, a', hbuild, -⟩ := h.addCandle hσ hshort hlong hctf hforming
    exact ⟨(snapshot, a'), hbuild⟩

theorem after (h : Warmed average numbers short long tf a) (hctf : candle.timeFrame = tf)
    {snapshot : MarketSnapshot}
    (hbuild : a.addCandleAndBuild candle tick nextOpen = .ok (snapshot, a')) :
    Warmed average numbers short long tf a' := by
  obtain ⟨-, forming, hforming, -⟩ := BacktestSnapshotAdapter.addCandleAndBuild_ok hbuild
  obtain ⟨snapshot', a'', hbuild', hwarmed⟩ :=
    h.addCandle hσ hshort hlong hctf (h.signal ▸ h.numbers ▸ hforming)
  obtain ⟨-, rfl⟩ := Prod.mk.inj (Except.ok.inj (hbuild.symm.trans hbuild'))
  exact hwarmed

end Warmed

end

/-! ## The rounds of a run -/

section
variable {σ ω : Type} [SmaCalculator σ] {average : List ℚ → ℚ}
  {params : EngineRunParams ω} {ps : SmaCrossParameters}
  {s s' asked exited : EngineState (BacktestSnapshotAdapter σ) ω} {held : Option Position}
  {snapshot : MarketSnapshot} {currentCandle nextCandle : ConfirmedCandle}

/-- Where a run of the set stands between two rounds. -/
structure Running (average : List ℚ → ℚ) (numbers : NumberArithmetic)
    (ps : SmaCrossParameters) (s : EngineState (BacktestSnapshotAdapter σ) ω) : Prop where
  adapter : Warmed average numbers ps.shortPeriod ps.longPeriod ps.timeframe s.adapter
  marketState : s.shared.marketState.isSome = true
  holds : ∃ held, s.Holds held

/-- The numbers that a round makes of its prices are quotes: a pip above the close, and those
around the next open. -/
structure Quoted (numbers : NumberArithmetic) (pair : CurrencyPair)
    (currentCandle nextCandle : ConfirmedCandle) : Prop where
  close : currentCandle.close.value <
    numbers.fixed 6 (numbers.plus currentCandle.close.value pair.pipUnit)
  nextOpen : numbers.Quotable nextCandle.openPrice

/-- With exact numbers the close always is, and the open from half a millionth above the spread
on. -/
theorem exact_quoted_iff (pair : CurrencyPair) (currentCandle nextCandle : ConfirmedCandle) :
    Quoted .exact pair currentCandle nextCandle ↔
      1001 / 2000000 ≤ nextCandle.openPrice.value := by
  rw [← exact_quotable_iff]
  exact ⟨Quoted.nextOpen, fun hopen => ⟨OhlcEngine.exact_makeTick .., hopen⟩⟩

namespace Running

variable {numbers : NumberArithmetic} (hσ : AveragesBy average σ) (h : Running average numbers ps s)
  (htf : currentCandle.timeFrame = ps.timeframe)

include hσ h htf

/-- The market is shown unless the close or the next open cannot be quoted. -/
theorem exists_asks_iff (hnumbers : params.numbers = numbers) :
    (∃ snapshot asked, OhlcEngine.Asks params currentCandle nextCandle s snapshot asked) ↔
      Quoted numbers params.config.pair currentCandle nextCandle := by
  subst hnumbers
  have hshown : ∀ tick, (∃ shown, s.adapter.addCandleAndBuild currentCandle tick
      nextCandle.openPrice = .ok shown) ↔ params.numbers.Quotable nextCandle.openPrice :=
    fun tick => h.adapter.exists_addCandle_iff hσ ps.short_pos ps.long_pos htf
  constructor
  · intro hasks
    obtain ⟨snapshot, asked, tick, adapter, htick, hbuild, -⟩ := hasks
    exact ⟨(OhlcEngine.exists_makeTick_iff currentCandle).mp ⟨tick, htick⟩,
      (hshown tick).mp ⟨(snapshot, adapter), hbuild⟩⟩
  · intro hquoted
    obtain ⟨tick, htick⟩ := (OhlcEngine.exists_makeTick_iff currentCandle).mpr hquoted.close
    obtain ⟨⟨snapshot, adapter⟩, hbuild⟩ := (hshown tick).mpr hquoted.nextOpen
    exact ⟨snapshot, _, tick, adapter, htick, hbuild, rfl⟩

/-- The rules are asked at the close of the bar. -/
theorem of_asks (hasks : OhlcEngine.Asks params currentCandle nextCandle s snapshot asked) :
    Running average numbers ps asked ∧
      asked.shared.marketState = some (some currentCandle.close.value) := by
  obtain ⟨tick, adapter, htick, hbuild, rfl⟩ := hasks
  obtain ⟨rate, hrate⟩ := Option.isSome_iff_exists.mp h.marketState
  obtain ⟨held, hheld⟩ := h.holds
  have hset : (OhlcEngine.updateOhlc currentCandle
      ({ s with adapter := adapter }.setRate currentCandle.close.value)).shared.marketState =
        some (some currentCandle.close.value) := by
    simp [OhlcEngine.updateOhlc, EngineState.setRate, hrate]
  refine ⟨⟨h.adapter.after hσ ps.short_pos ps.long_pos htf hbuild, ?_, held, ?_⟩, hset⟩
  · rw [hset]
    rfl
  · exact hheld.of_positions rfl

/-- … and the entry rule at the same rate, whatever the exit rule did. -/
theorem rate_at_entry
    (hasks : OhlcEngine.AsksEntry params currentCandle nextCandle s snapshot exited) :
    exited.shared.marketState = some (some currentCandle.close.value) := by
  obtain ⟨asked, hasks, hexits, -⟩ := hasks
  obtain ⟨hrunning, hrate⟩ := h.of_asks hσ htf hasks
  obtain ⟨held, hheld⟩ := hrunning.holds
  rw [((OhlcEngine.evaluateExits_ok hheld hexits).market hheld).2, hrate]

theorem onBar (hround : OhlcEngine.onBar params currentCandle nextCandle s = .ok s') :
    Running average numbers ps s' := by
  obtain ⟨held, hheld⟩ := h.holds
  obtain ⟨snapshot, asked, exited, hasks, hasked, hexits, henters⟩ :=
    OhlcEngine.onBar_ok hheld hround
  obtain ⟨hrunning, -⟩ := h.of_asks hσ htf hasks
  obtain ⟨hadapter, hrate⟩ := hexits.market hasked
  obtain ⟨hadapter', hrate'⟩ := henters.market
  refine ⟨?_, ?_, OhlcEngine.onBar_holds h.holds hround⟩
  · rw [hadapter', hadapter]
    exact hrunning.adapter
  · rw [hrate', hrate]
    exact hrunning.marketState

end Running

end

/-! ## A set -/

/-- The parameters pass the checks of the constructors. -/
structure SmaCrossParameters.Accepted (ps : SmaCrossParameters) : Prop where
  ratio : 1 < ps.targetMaintenanceRatio.getD defaultTargetMaintenanceRatio
  margin : 0 < ps.marginRate.getD defaultMarginRate ∧ ps.marginRate.getD defaultMarginRate < 1
  bands : ∀ band ∈ ps.priceBandFilter,
    (∀ value ∈ band.minSellPrice, 0 < value) ∧ ∀ value ∈ band.maxBuyPrice, 0 < value

theorem SmaCrossParameters.checkPriceBands_iff (ps : SmaCrossParameters) :
    ps.checkPriceBands = .ok () ↔ ∀ band ∈ ps.priceBandFilter,
      (∀ value ∈ band.minSellPrice, 0 < value) ∧ ∀ value ∈ band.maxBuyPrice, 0 < value := by
  have hfilter : ∀ bound : Option ℚ,
      bound.filter (· ≤ 0) = none ↔ ∀ value ∈ bound, 0 < value := by
    intro bound
    simp [Option.filter_eq_none_iff]
  unfold checkPriceBands
  cases ps.priceBandFilter with
  | none => simp
  | some band =>
    simp only [Option.mem_some_iff, forall_eq', ← hfilter]
    cases band.minSellPrice.filter (· ≤ 0) <;> cases band.maxBuyPrice.filter (· ≤ 0) <;> simp

theorem RuleResult.exists_outcome_iff (message : String) (result : RuleResult) :
    (∃ command, result.outcome message = .ok command) ↔ result ≠ .threw := by
  cases result <;> simp [outcome]

namespace BacktestRunner

section
variable {runner : BacktestRunner} {run : Nat} {ps : SmaCrossParameters}
  {target : MaintenanceRatio} {marginRate : MarginRate} {rules : RulePair}

theorem answers (hmode : runner.mode = .ohlc) :
    OhlcEngine.Answers (runner.engineRunParams run ps target marginRate rules) := by
  have hsimulator : runner.createSimulator run ps.pair =
      idealExecutionSimulator (runner.generateId run) runner.arithmetic := by
    simp only [createSimulator, hmode]
  refine ⟨fun _ _ _ _ => ⟨_, rfl⟩, ?_, ?_⟩
  · intro command price pair executedAt world
    refine ⟨_, (congrArg (·.simulateEntry command price pair executedAt world) hsimulator).trans
      rfl⟩
  · intro command price pair entryPrice buySell executedAt world
    refine ⟨_, (congrArg (·.simulateExit command price pair entryPrice buySell executedAt world)
      hsimulator).trans rfl⟩

/-- The entry rule throws only what `getLot` throws. -/
theorem entryRule_returns_iff (hrules : rules.entryRule = ps.entryRule runner.isBojMeetingDate)
    (shared : SharedState) (snapshot : MarketSnapshot) (world : RunWorld) :
    (∃ r, (runner.engineRunParams run ps target marginRate rules).entryRule shared snapshot world =
        .ok r) ↔
      (ps.AsksForLot runner.isBojMeetingDate snapshot →
        ∃ lot, runner.getLot ps target marginRate shared = .ok lot) := by
  have houtcome : (∃ r, (runner.engineRunParams run ps target marginRate rules).entryRule shared
      snapshot world = .ok r) ↔
        ps.entryRule runner.isBojMeetingDate
          (runner.getLot ps target marginRate shared).toOption snapshot ≠ .threw := by
    rw [← RuleResult.exists_outcome_iff, ← hrules]
    constructor
    · intro hrule
      obtain ⟨r, hrule⟩ := hrule
      obtain ⟨command, hcommand, -⟩ := bind_eq_ok.mp hrule
      exact ⟨command, hcommand⟩
    · intro hcommand
      obtain ⟨command, hcommand⟩ := hcommand
      exact ⟨_, bind_eq_ok.mpr ⟨command, hcommand, rfl⟩⟩
  rw [houtcome, Ne, SmaCrossParameters.entryRule_threw_iff]
  cases runner.getLot ps target marginRate shared <;> simp [Except.toOption]

/-- At the rate of a bar a lot is had at every equity that is not negative. -/
theorem getLot_returns_iff (hjpy : ps.pair.quote = .jpy) {shared : SharedState} {rate : Price}
    (hrate : shared.marketState = some (some rate.value)) :
    (∃ lot, runner.getLot ps target marginRate shared = .ok lot) ↔
      0 ≤ shared.equityState.getD runner.initialCapital := by
  unfold getLot
  rw [hrate]
  exact decideLot_returns_iff hjpy rate.pos ..

end

section
variable (runner : BacktestRunner) (σ : Type) [SmaCalculator σ] (run : Nat)
  (ps : SmaCrossParameters)

/-- The provider has the bars of the run, more of them than the warm-up takes. -/
structure Provides (candles : List ConfirmedCandle) : Prop where
  fetched : (runner.dataProviderFactory run).fetchCandles ps.pair ps.timeframe
    ⟨ps.dateFrom, ps.dateTo⟩ ps.calcWarmupCount = .ok candles
  timeFrame : ∀ candle ∈ candles, candle.timeFrame = ps.timeframe
  enough : ps.calcWarmupCount < candles.length

/-- Somewhere in the run, in this state, the entry rule asks for a lot. -/
def AsksLot (setup : Setup σ)
    (exited : EngineState (BacktestSnapshotAdapter σ) RunWorld) : Prop :=
  runner.prepare σ run ps = .ok setup ∧ ∃ currentCandle nextCandle s snapshot,
    OhlcEngine.Visits setup.params setup.adapter setup.world runner.shared currentCandle
      nextCandle s ∧
    OhlcEngine.AsksEntry setup.params currentCandle nextCandle s snapshot exited ∧
    ps.AsksForLot runner.isBojMeetingDate snapshot

/-- Every lot that the entry rule asks for is had. -/
def ObtainsLots : Prop :=
  ∀ setup exited, runner.AsksLot σ run ps setup exited →
    ∃ lot, runner.getLot ps setup.target setup.marginRate exited.shared = .ok lot

/-- What a set needs to run to its result. -/
structure Endures (candles : List ConfirmedCandle) : Prop where
  accepted : ps.Accepted
  quoted : ∀ e ∈ (candles.drop ps.calcWarmupCount).zip (candles.drop (ps.calcWarmupCount + 1)),
    Quoted runner.arithmetic ps.pair e.1 e.2
  solvent : ∀ setup exited, runner.AsksLot σ run ps setup exited →
    0 ≤ exited.equityOr runner.initialCapital

end

section
variable {runner : BacktestRunner} {σ : Type} [SmaCalculator σ] {average : List ℚ → ℚ} {run : Nat}
  {ps : SmaCrossParameters} {setup : Setup σ} {candles : List ConfirmedCandle}

/-- The parts of a run are those of the set. -/
theorem prepare_ok (h : runner.prepare σ run ps = .ok setup) :
    ps.Accepted ∧ BacktestSnapshotAdapter.new ps.pair ps.timeframe
        [⟨ps.timeframe, ps.shortPeriod, ps.longPeriod⟩] runner.arithmetic = .ok setup.adapter ∧
      ∃ rules : RulePair, rules.entryRule = ps.entryRule runner.isBojMeetingDate ∧
        setup.params = runner.engineRunParams run ps setup.target setup.marginRate rules := by
  obtain ⟨target, htarget, h⟩ := bind_eq_ok.mp h
  obtain ⟨marginRate, hmargin, h⟩ := bind_eq_ok.mp h
  obtain ⟨rules, hrules, h⟩ := bind_eq_ok.mp h
  obtain ⟨adapter, hadapter, h⟩ := bind_eq_ok.mp h
  cases h
  obtain ⟨⟨⟩, hbands, hpair⟩ := bind_eq_ok.mp (mapError_eq_ok.mp hrules)
  cases hpair
  refine ⟨⟨?_, ?_, ps.checkPriceBands_iff.mp hbands⟩, mapError_eq_ok.mp hadapter, _, rfl, rfl⟩
  · by_contra hratio
    simp [SmaCrossParameters.decideTarget, MaintenanceRatio.of, hratio] at htarget
  · by_contra hrate
    simp [SmaCrossParameters.decideMarginRate, MarginRate.of, hrate] at hmargin

/-- A set that the constructors accept is run. -/
theorem exists_prepare (h : ps.Accepted) : ∃ setup, runner.prepare σ run ps = .ok setup := by
  have htarget : ps.decideTarget = .ok ⟨_, h.ratio⟩ := by
    simp [SmaCrossParameters.decideTarget, MaintenanceRatio.of, h.ratio]
  have hmargin : ps.decideMarginRate = .ok ⟨_, h.margin.1, h.margin.2⟩ := by
    simp [SmaCrossParameters.decideMarginRate, MarginRate.of, h.margin.1, h.margin.2]
  have hrules : ∃ rules, ps.createRules runner.isBojMeetingDate = .ok rules :=
    ⟨_, bind_eq_ok.mpr ⟨(), ps.checkPriceBands_iff.mpr h.bands, rfl⟩⟩
  have hadapter : ∃ a : BacktestSnapshotAdapter σ, BacktestSnapshotAdapter.new ps.pair ps.timeframe
      (collectIndicatorSpecs ps) runner.arithmetic = .ok a := by
    unfold BacktestSnapshotAdapter.new
    rw [dif_pos (by simp [collectIndicatorSpecs])]
    split
    · rename_i hregister
      cases hregister
    · exact ⟨_, rfl⟩
  obtain ⟨rules, hrules⟩ := hrules
  obtain ⟨adapter, hadapter⟩ := hadapter
  unfold prepare
  simp only [htarget, hmargin, hrules, hadapter, ok_bind, mapError_ok]
  exact ⟨_, rfl⟩

/-- The run begins with an adapter that the first bars have warmed up. -/
theorem begins_iff (hprepare : runner.prepare σ run ps = .ok setup)
    (hprovides : runner.Provides run ps candles) {bars : List ConfirmedCandle}
    {s : EngineState (BacktestSnapshotAdapter σ) RunWorld} :
    OhlcEngine.Begins setup.params setup.adapter setup.world runner.shared bars s ↔
      bars = candles.drop ps.calcWarmupCount ∧ s = .start
        (setup.adapter.warmUp (candles.take ps.calcWarmupCount)) setup.world runner.shared := by
  obtain ⟨-, -, rules, -, hparams⟩ := prepare_ok hprepare
  have hspecs : setup.params.additionalIndicatorSpecs = [] := by
    rw [hparams]
    simp [engineRunParams, collectIndicatorSpecs]
  have hfetch : OhlcEngine.fetch setup.params = .ok (candles, []) := by
    have hlength : candles.length ≠ 0 := fun h => absurd hprovides.enough (by omega)
    unfold OhlcEngine.fetch
    rw [hspecs, hparams]
    dsimp only [engineRunParams]
    simp only [hprovides.fetched, mapError_ok, ok_bind, List.mapM_nil, pure, Except.pure,
      if_neg hlength, if_neg (not_le.mpr hprovides.enough)]
  have hwarmup : setup.params.config.warmupCount = ps.calcWarmupCount := by
    rw [hparams]
    rfl
  constructor
  · intro hbegins
    obtain ⟨candles', bundles, hfetch', hbegin, hbars⟩ := hbegins
    obtain ⟨rfl, rfl⟩ := Prod.mk.inj (Except.ok.inj (hfetch.symm.trans hfetch'))
    rw [hwarmup] at hbars
    cases hbegin
    rw [← hwarmup]
    exact ⟨hwarmup ▸ hbars, rfl⟩
  · intro hstart
    obtain ⟨rfl, rfl⟩ := hstart
    refine ⟨candles, [], hfetch, ?_, by rw [hwarmup]⟩
    rw [← hwarmup]
    rfl

variable (hσ : AveragesBy average σ) (hprepare : runner.prepare σ run ps = .ok setup)
  (hprovides : runner.Provides run ps candles)

section
variable {currentCandle nextCandle : ConfirmedCandle}
  {s : EngineState (BacktestSnapshotAdapter σ) RunWorld}
  (hvisits : OhlcEngine.Visits setup.params setup.adapter setup.world runner.shared currentCandle
    nextCandle s)

include hσ hprepare hprovides hvisits

/-- Every round is at a bar of the set, with the adapter warmed up. -/
theorem visits_running : Running average runner.arithmetic ps s ∧
    currentCandle.timeFrame = ps.timeframe ∧ (currentCandle, nextCandle) ∈
      (candles.drop ps.calcWarmupCount).zip (candles.drop (ps.calcWarmupCount + 1)) := by
  obtain ⟨-, hadapter, -⟩ := prepare_ok hprepare
  obtain ⟨bars, start, hbegins, hreaches⟩ := hvisits
  obtain ⟨rfl, rfl⟩ := (begins_iff hprepare hprovides).mp hbegins
  have hzip := hreaches.mem_zip
  obtain ⟨before, after, hbars, hloop⟩ := hreaches
  have htf : ∀ candle ∈ before ++ [currentCandle], candle.timeFrame = ps.timeframe := by
    intro candle hcandle
    refine hprovides.timeFrame candle (List.mem_of_mem_drop (i := ps.calcWarmupCount) ?_)
    rw [hbars]
    simp only [List.mem_append, List.mem_cons, List.not_mem_nil, or_false] at hcandle ⊢
    tauto
  have hwarmed : Warmed average runner.arithmetic ps.shortPeriod ps.longPeriod ps.timeframe
      (setup.adapter.warmUp (candles.take ps.calcWarmupCount)) := by
    refine .of_new hσ ps.short_pos ps.long_pos hadapter ?_
    rw [List.length_take]
    exact le_min le_rfl hprovides.enough.le
  refine ⟨OhlcEngine.loop_induction (P := Running average runner.arithmetic ps)
    (fun candle hcandle _ _ _ hs hround => hs.onBar hσ (htf candle hcandle) hround)
    ⟨hwarmed, rfl, none, rfl, by simp⟩ hloop, htf currentCandle (by simp), ?_⟩
  rw [← List.tail_drop]
  exact hzip

/-- A round stops at a price that cannot be quoted, or where a lot is asked for and the
equity is negative. -/
theorem proceeds_iff (hjpy : ps.pair.quote = .jpy) :
    OhlcEngine.Proceeds setup.params currentCandle nextCandle s ↔
      Quoted runner.arithmetic ps.pair currentCandle nextCandle ∧
      ∀ snapshot exited,
        OhlcEngine.AsksEntry setup.params currentCandle nextCandle s snapshot exited →
        ps.AsksForLot runner.isBojMeetingDate snapshot →
        0 ≤ exited.equityOr runner.initialCapital := by
  obtain ⟨hrunning, htf, -⟩ := visits_running hσ hprepare hprovides hvisits
  obtain ⟨-, -, rules, hrules, hparams⟩ := prepare_ok hprepare
  have hanswers : ∀ snapshot exited,
      OhlcEngine.AsksEntry setup.params currentCandle nextCandle s snapshot exited →
      ((∃ r, setup.params.entryRule exited.shared snapshot exited.world = .ok r) ↔
        (ps.AsksForLot runner.isBojMeetingDate snapshot →
          0 ≤ exited.equityOr runner.initialCapital)) := by
    intro snapshot exited hentry
    have hrate := hrunning.rate_at_entry hσ htf hentry
    rw [hparams, entryRule_returns_iff hrules, getLot_returns_iff hjpy hrate]
    rfl
  have hshown : (∃ snapshot asked, OhlcEngine.Asks setup.params currentCandle nextCandle s
      snapshot asked) ↔ Quoted runner.arithmetic ps.pair currentCandle nextCandle := by
    rw [hrunning.exists_asks_iff hσ htf (by rw [hparams]; rfl), hparams]
    rfl
  constructor
  · intro hproceeds
    refine ⟨hshown.mp hproceeds.shown, fun snapshot exited hentry => ?_⟩
    exact (hanswers snapshot exited hentry).mp (hproceeds.answers snapshot exited hentry)
  · intro hround
    obtain ⟨hquoted, hsolvent⟩ := hround
    refine ⟨hshown.mpr hquoted, fun snapshot exited hentry => ?_⟩
    exact (hanswers snapshot exited hentry).mpr (hsolvent snapshot exited hentry)

end

omit hσ hprovides in
/-- Over bars the engine of a set returns as `OhlcEngine.run` does. -/
theorem runEngine_returns_iff (hmode : runner.mode = .ohlc) :
    (∃ outcome, runner.runEngine setup = .ok outcome) ↔
      ∃ s, OhlcEngine.run setup.params setup.adapter setup.world runner.shared = .ok s := by
  simp only [runEngine, hmode]
  constructor
  · intro h
    obtain ⟨outcome, h⟩ := h
    obtain ⟨s, hs, -⟩ := bind_eq_ok.mp h
    exact ⟨s, hs⟩
  · intro h
    obtain ⟨s, hs⟩ := h
    exact ⟨_, bind_eq_ok.mpr ⟨s, hs, rfl⟩⟩

variable {batchId : String} {sampleMeta : SampleMeta}

include hσ hprovides

/-- A set runs to its result exactly when it has what it needs. -/
theorem runOne_returns_iff (hmode : runner.mode = .ohlc) (hjpy : ps.pair.quote = .jpy) :
    (∃ result, runner.runOne σ batchId sampleMeta run ps = .ok result) ↔
      runner.Endures σ run ps candles := by
  constructor
  · intro hreturns
    obtain ⟨result, hreturns⟩ := hreturns
    obtain ⟨setup, hprepare, hreturns⟩ := bind_eq_ok.mp hreturns
    obtain ⟨outcome, hengine, -⟩ := bind_eq_ok.mp hreturns
    obtain ⟨s', hrun⟩ := (runEngine_returns_iff hmode).mp ⟨outcome, mapError_eq_ok.mp hengine⟩
    obtain ⟨haccepted, -, rules, -, hparams⟩ := prepare_ok hprepare
    have hanswers : OhlcEngine.Answers setup.params := hparams ▸ answers hmode
    obtain ⟨-, hproceeds⟩ := hanswers.run_returns_iff.mp ⟨s', hrun⟩
    refine ⟨haccepted, ?_, ?_⟩
    · rintro ⟨currentCandle, nextCandle⟩ hbars
      rw [← List.tail_drop] at hbars
      obtain ⟨s, hvisits⟩ := OhlcEngine.exists_visits hrun
        ((begins_iff hprepare hprovides).mpr ⟨rfl, rfl⟩) hbars
      exact ((proceeds_iff hσ hprepare hprovides hvisits hjpy).mp (hproceeds _ _ _ hvisits)).1
    · intro setup' exited hasks
      obtain ⟨hprepare', currentCandle, nextCandle, s, snapshot, hvisits, hentry, hlot⟩ := hasks
      obtain rfl := Except.ok.inj (hprepare.symm.trans hprepare')
      exact ((proceeds_iff hσ hprepare hprovides hvisits hjpy).mp
        (hproceeds _ _ _ hvisits)).2 snapshot exited hentry hlot
  · intro hendures
    obtain ⟨setup, hprepare⟩ : ∃ setup, runner.prepare σ run ps = .ok setup :=
      exists_prepare hendures.accepted
    obtain ⟨-, -, rules, -, hparams⟩ := prepare_ok hprepare
    have hanswers : OhlcEngine.Answers setup.params := hparams ▸ answers hmode
    obtain ⟨s', hrun⟩ : ∃ s', OhlcEngine.run setup.params setup.adapter setup.world
        runner.shared = .ok s' := by
      refine hanswers.run_returns_iff.mpr
        ⟨⟨_, _, (begins_iff hprepare hprovides).mpr ⟨rfl, rfl⟩⟩, ?_⟩
      intro currentCandle nextCandle s hvisits
      obtain ⟨-, -, hbars⟩ := visits_running hσ hprepare hprovides hvisits
      refine (proceeds_iff hσ hprepare hprovides hvisits hjpy).mpr
        ⟨hendures.quoted _ hbars, fun snapshot exited hentry hlot => ?_⟩
      exact hendures.solvent setup exited
        ⟨hprepare, currentCandle, nextCandle, s, snapshot, hvisits, hentry, hlot⟩
    obtain ⟨outcome, hengine⟩ := (runEngine_returns_iff hmode).mpr ⟨s', hrun⟩
    obtain ⟨result, hresult⟩ := exists_calculate runner.sqrt runner.now {
      labels := runner.labels run ps batchId sampleMeta outcome
      dateFrom := ps.dateFrom
      dateTo := ps.dateTo
      trades := outcome.trades
      durationMs := runner.durationMs }
    exact ⟨result, bind_eq_ok.mpr ⟨setup, hprepare, bind_eq_ok.mpr ⟨outcome,
      mapError_eq_ok.mpr hengine, mapError_eq_ok.mpr hresult⟩⟩⟩

/-- A set that has what it needs obtains every lot. -/
theorem Endures.obtainsLots (hjpy : ps.pair.quote = .jpy)
    (h : runner.Endures σ run ps candles) : runner.ObtainsLots σ run ps := by
  intro setup exited hasks
  obtain ⟨hprepare, currentCandle, nextCandle, s, snapshot, hvisits, hentry, -⟩ := id hasks
  obtain ⟨hrunning, htf, -⟩ := visits_running hσ hprepare hprovides hvisits
  exact (getLot_returns_iff hjpy (hrunning.rate_at_entry hσ htf hentry)).mpr
    (h.solvent setup exited hasks)

end

/-! ## A batch -/

/-- A relation that relates each element to something relates the list to a list. -/
theorem exists_forall₂_iff {α β : Type*} {R : α → β → Prop} {l : List α} :
    (∃ l', List.Forall₂ R l l') ↔ ∀ a ∈ l, ∃ b, R a b := by
  induction l with
  | nil => simp
  | cons a l ih =>
    simp only [List.forall₂_cons_left_iff, List.forall_mem_cons, ← ih]
    constructor
    · intro h
      obtain ⟨-, b, l', hb, hl', -⟩ := h
      exact ⟨⟨b, hb⟩, l', hl'⟩
    · intro h
      obtain ⟨⟨b, hb⟩, l', hl'⟩ := h
      exact ⟨b :: l', b, l', hb, hl', rfl⟩

section
variable (runner : BacktestRunner) (σ : Type) [SmaCalculator σ]

/-- The stores take whatever they are given. -/
structure Keeps : Prop where
  save : ∀ result, runner.resultStore result = .ok ()
  create : ∀ store ∈ runner.batchStore, ∀ batch, store.create batch = .ok ()
  complete : ∀ store ∈ runner.batchStore, ∀ batchId status,
    store.complete batchId status = .ok ()

/-- The batch ends with the result of each set, and with every lot that a rule asked for. -/
structure Survives (parameterSets : List SmaCrossParameters) (batchId description : String)
    (sampleMeta : SampleMeta) : Prop where
  lots : ∀ e ∈ parameterSets.zipIdx, runner.ObtainsLots σ e.2 e.1
  results : ∃ results,
    runner.run σ parameterSets batchId description sampleMeta = .ok results ∧
    List.Forall₂ (fun e result => runner.runOne σ batchId sampleMeta e.2 e.1 = .ok result)
      parameterSets.zipIdx results

variable {runner σ} {average : List ℚ → ℚ} {batchId description : String} {sampleMeta : SampleMeta}

/-- The loop returns what each set returned, in order. -/
theorem runSets_eq_ok (hkeeps : runner.Keeps) {run : Nat} {sets : List SmaCrossParameters}
    {results : List RunResult} :
    runner.runSets σ batchId sampleMeta run sets = .ok results ↔
      List.Forall₂ (fun e result => runner.runOne σ batchId sampleMeta e.2 e.1 = .ok result)
        (sets.zipIdx run) results := by
  induction sets generalizing run results with
  | nil => simp [runSets, eq_comm]
  | cons ps rest ih =>
    rw [List.zipIdx_cons, List.forall₂_cons_left_iff]
    constructor
    · intro h
      obtain ⟨result, hresult, h⟩ := bind_eq_ok.mp h
      obtain ⟨⟨⟩, -, h⟩ := bind_eq_ok.mp h
      obtain ⟨rest', hrest, h⟩ := bind_eq_ok.mp h
      cases h
      exact ⟨result, rest', hresult, ih.mp hrest, rfl⟩
    · intro h
      obtain ⟨result, rest', hresult, hrest, rfl⟩ := h
      exact bind_eq_ok.mpr ⟨result, hresult, bind_eq_ok.mpr ⟨(),
        mapError_eq_ok.mpr (hkeeps.save result), bind_eq_ok.mpr ⟨rest', ih.mpr hrest, rfl⟩⟩⟩

/-- With stores that take everything, a batch returns what its loop returns. -/
theorem run_eq_ok (hkeeps : runner.Keeps) {sets : List SmaCrossParameters}
    {results : List RunResult} :
    runner.run σ sets batchId description sampleMeta = .ok results ↔
      runner.runSets σ batchId sampleMeta 0 sets = .ok results := by
  have hcreate : runner.createBatch sets batchId description = .ok () := by
    unfold createBatch
    split
    · rename_i store _ _ hstore
      exact mapError_eq_ok.mpr (hkeeps.create store hstore _)
    · rfl
  have hcomplete : ∀ status, runner.completeBatch batchId status = .ok () := by
    intro status
    unfold completeBatch
    split
    · rename_i store hstore
      exact mapError_eq_ok.mpr (hkeeps.complete store hstore _ _)
    · rfl
  unfold run
  simp only [hcreate, hcomplete, ok_bind]
  cases runner.runSets σ batchId sampleMeta 0 sets <;> simp [bind, Except.bind, pure, Except.pure]

/-- A batch ends with the result of every set, and with every lot that was asked for,
exactly when each set has what it needs. -/
theorem run_survives_iff (hσ : AveragesBy average σ) (hmode : runner.mode = .ohlc)
    (hkeeps : runner.Keeps) {sets : List SmaCrossParameters} (bars : Nat → List ConfirmedCandle)
    (hjpy : ∀ ps ∈ sets, ps.pair.quote = .jpy)
    (hprovides : ∀ e ∈ sets.zipIdx, runner.Provides e.2 e.1 (bars e.2))
    (batchId description : String) (sampleMeta : SampleMeta) :
    runner.Survives σ sets batchId description sampleMeta ↔
      ∀ e ∈ sets.zipIdx, runner.Endures σ e.2 e.1 (bars e.2) := by
  have hquote : ∀ e ∈ sets.zipIdx, e.1.pair.quote = .jpy :=
    fun e he => hjpy e.1 (List.fst_mem_of_mem_zipIdx he)
  have hreturns : (∃ results, List.Forall₂
      (fun (e : SmaCrossParameters × Nat) result =>
        runner.runOne σ batchId sampleMeta e.2 e.1 = .ok result) sets.zipIdx results) ↔
        ∀ e ∈ sets.zipIdx, runner.Endures σ e.2 e.1 (bars e.2) := by
    rw [exists_forall₂_iff]
    exact forall₂_congr fun e he => runOne_returns_iff hσ (hprovides e he) hmode (hquote e he)
  rw [← hreturns]
  constructor
  · intro hsurvives
    obtain ⟨results, -, hresults⟩ := hsurvives.results
    exact ⟨results, hresults⟩
  · intro hresults
    have hendures := hreturns.mp hresults
    obtain ⟨results, hresults⟩ := hresults
    refine ⟨fun e he => ?_, results, ?_, hresults⟩
    · exact (hendures e he).obtainsLots hσ (hprovides e he) (hquote e he)
    · exact (run_eq_ok hkeeps).mpr ((runSets_eq_ok hkeeps).mpr hresults)

end

/-! ## A gap through the stop -/

/-- Eleven yen below `crossPrice`. -/
def gapPrice : Price := ⟨140, by decide +kernel⟩

/-- A cross upwards, and then the gap. -/
def gapBars : List ConfirmedCandle :=
  [quietPrice, quietPrice, crossPrice, crossPrice, gapPrice, gapPrice].zipIdx.map fun e =>
    flatCandle .oneMinute (60000 * e.2) e.1

/-- A runner over these bars, with a hundred thousand yen. The text is that of a whole
number. -/
def gapRunner : BacktestRunner where
  resultStore _ := .ok ()
  batchStore := some ⟨fun _ => .ok (), fun _ _ => .ok ()⟩
  dataProviderFactory _ := ⟨fun _ _ _ _ => .ok gapBars, fun _ _ => []⟩
  mode := .ohlc
  executionConfig := ⟨0, 0, 42⟩
  initialCapital := 100000
  codeVersion := "unknown"
  runId _ := "run"
  positionId _ n := .ofNat n
  now := 0
  durationMs := 0
  isBojMeetingDate _ := false
  sqrt x := x
  boxMuller u1 _ := u1
  arithmetic := .exact
  numbers := { TrailingTakeProfitExitRule.exactNumbers with fixedText _ := "" }
  text x := toString x.num

/-- A stop fifteen pips away, and no filters. -/
def gapSet : SmaCrossParameters where
  pair := .usdJpy
  timeframe := .oneMinute
  dateFrom := 120000
  dateTo := 360000
  shortPeriod := 1
  longPeriod := 2
  stopLossPips := 15
  takeProfitPips := some 150
  trailActivatePips := none
  trailWidthPips := none
  excludeHoursUtc := []
  maxHoldBars := 0
  riskPct := 2 / 100
  targetMaintenanceRatio := none
  marginRate := none
  minCrossStrengthPips := none
  excludeMidMonthJstLunchNonBoj := false
  maxDirectionalDivergencePct := none
  priceBandFilter := none
  short_pos := Nat.one_pos
  long_pos := Nat.two_pos

/-- The same, with the hour of the bars excluded. -/
def idleSet : SmaCrossParameters := { gapSet with excludeHoursUtc := [0] }

theorem gapRunner_keeps : gapRunner.Keeps := by
  constructor
  · intro result
    rfl
  · intro store hstore batch
    cases hstore
    rfl
  · intro store hstore batchId status
    cases hstore
    rfl

theorem gapRunner_provides (run : Nat) : gapRunner.Provides run gapSet gapBars := by
  refine ⟨rfl, ?_, by decide⟩
  intro candle hcandle
  obtain ⟨e, -, rfl⟩ := List.mem_map.mp hcandle
  rfl

theorem idleSet_runs (run : Nat) :
    ∃ result, gapRunner.runOne RecordedSma "batch" .full run idleSet = .ok result := by
  have hrun : ∃ result, gapRunner.runOne RecordedSma "batch" .full 0 idleSet = .ok result ∧
      result.trades.isEmpty = true := exists_ok (by decide +kernel)
  obtain ⟨result, hresult, -⟩ := hrun
  exact ⟨result, hresult⟩

/-- Two sets that never trade. -/
theorem run_survives_idle : gapRunner.Survives RecordedSma [idleSet, idleSet] "batch" "" .full := by
  have hprovides : ∀ e ∈ [idleSet, idleSet].zipIdx, gapRunner.Provides e.2 e.1 gapBars := by
    intro e he
    obtain rfl | rfl : e = (idleSet, 0) ∨ e = (idleSet, 1) := by simpa using he
    · exact ⟨rfl, (gapRunner_provides 0).timeFrame, (gapRunner_provides 0).enough⟩
    · exact ⟨rfl, (gapRunner_provides 1).timeFrame, (gapRunner_provides 1).enough⟩
  refine (run_survives_iff RecordedSma.exactSma.averagesBy rfl gapRunner_keeps (fun _ => gapBars)
    (by simp [idleSet, gapSet, CurrencyPair.quote]) hprovides "batch" "" .full).mpr fun e he => ?_
  obtain rfl | rfl : e = (idleSet, 0) ∨ e = (idleSet, 1) := by simpa using he
  · exact (runOne_returns_iff RecordedSma.exactSma.averagesBy (hprovides _ (by simp)) rfl rfl).mp
      (idleSet_runs 0)
  · exact (runOne_returns_iff RecordedSma.exactSma.averagesBy (hprovides _ (by simp)) rfl rfl).mp
      (idleSet_runs 1)

/-- Bought at 151 and stopped at the open of 140, the position loses more than there was.
The cross downwards in the same round asks for a lot, which throws, and the second set,
which would have ended with a result, is never run. -/
theorem exists_batch_aborted :
    gapRunner.Keeps ∧
    (∀ e ∈ [gapSet, idleSet].zipIdx, e.1.pair.quote = .jpy ∧ e.1.Accepted ∧
      gapRunner.Provides e.2 e.1 gapBars) ∧
    (∃ result, gapRunner.runOne RecordedSma "batch" .full 1 idleSet = .ok result) ∧
    gapRunner.run RecordedSma [gapSet, idleSet] "batch" "" .full =
      .error (.engine (.thrown "Balance は非負: -29800 JPY")) ∧
    ¬ gapRunner.Survives RecordedSma [gapSet, idleSet] "batch" "" .full := by
  have haccepted : gapSet.Accepted := by
    constructor
    · norm_num [gapSet, defaultTargetMaintenanceRatio]
    · norm_num [gapSet, defaultMarginRate]
    · simp [gapSet]
  have haborts : gapRunner.run RecordedSma [gapSet, idleSet] "batch" "" .full =
      .error (.engine (.thrown "Balance は非負: -29800 JPY")) := by
    obtain ⟨e, he, hmessage⟩ := exists_error (p := fun e => match e with
      | .engine (.thrown message) => message == "Balance は非負: -29800 JPY"
      | _ => false) (x := gapRunner.run RecordedSma [gapSet, idleSet] "batch" "" .full)
      (by decide +kernel)
    split at hmessage
    · rw [he, eq_of_beq hmessage]
    · cases hmessage
  refine ⟨gapRunner_keeps, ?_, idleSet_runs 1, haborts, ?_⟩
  · intro e he
    obtain rfl | rfl : e = (gapSet, 0) ∨ e = (idleSet, 1) := by simpa using he
    · exact ⟨rfl, haccepted, gapRunner_provides 0⟩
    · exact ⟨rfl, ⟨haccepted.ratio, haccepted.margin, haccepted.bands⟩, rfl,
        (gapRunner_provides 1).timeFrame, (gapRunner_provides 1).enough⟩
  · intro hsurvives
    obtain ⟨results, hresults, -⟩ := hsurvives.results
    rw [haborts] at hresults
    cases hresults

end BacktestRunner

end Luchida
