import Luchida.BookReadiness
import Luchida.ExecutionSimulators
import Luchida.TickEngine

/- The live system and the backtest over ticks read the market with the same parts. The
   live side is `TimeFrameBook.onTick`. The other side is a `Kernel`, the accumulator and
   the adapter of a tick run (`accumulate_eq_feed`). Warmed up with the same bars and fed
   the same ticks, the two are `Paired` at every point: their forming candles are equal and
   their ledgers were fed the same confirmed closes. The closes of the forming candles that
   the ledgers see in between differ, and the confirmed values do not depend on them
   (`Stateless.confirmed_eq`). -/
namespace Luchida

open OrderedMap Throws

/-! ## The market side of a tick run -/

/-- What a tick run keeps of the market. -/
structure Kernel (α : Type) where
  adapter : α
  accumulator : CandleAccumulator

namespace Kernel

variable {α ω : Type} [SnapshotAdapter α]

/-- Feed a tick: the snapshot of the bar it confirms, if it confirms one. -/
def feed (k : Kernel α) (tick : Tick) : Except EngineError (Option MarketSnapshot × Kernel α) := do
  let (event, accumulator) ← (k.accumulator.accumulate tick).mapError .candle
  match event, accumulator.lastConfirmed with
  | .confirmed, some confirmed => do
    let (snapshot, adapter) ← (SnapshotAdapter.addCandleAndBuild k.adapter confirmed tick
      tick.bid).mapError .adapter
    return (some snapshot, ⟨adapter, accumulator⟩)
  | _, _ => return (none, ⟨k.adapter, accumulator⟩)

/-- Feed ticks, for what they leave. -/
def feedAll (k : Kernel α) (ticks : List Tick) : Except EngineError (Kernel α) :=
  ticks.foldlM (fun k tick => return (← k.feed tick).2) k

/-- The first half of a round of the engine is the kernel, and then the rules. -/
theorem accumulate_eq_feed (params : EngineRunParams ω) (tick : Tick) (s : TickState α ω) :
    TickEngine.accumulate params tick s = (do
      let (snapshot, k) ← feed ⟨s.adapter, s.accumulator⟩ tick
      let s := { s with adapter := k.adapter, accumulator := k.accumulator }
      match snapshot with
      | none => return s
      | some snapshot => do
        let s ← s.positions.foldlM (TickEngine.evaluateExit params snapshot tick) s
        TickEngine.evaluateEntry params snapshot tick s) := by
  obtain ⟨event, acc, hacc, -⟩ := s.accumulator.accumulate_cases tick
  unfold TickEngine.accumulate feed
  rw [hacc]
  cases event with
  | updated => rfl
  | confirmed =>
    cases hlast : acc.lastConfirmed with
    | none => simp only [mapError_ok, bind, Except.bind, hlast]; rfl
    | some confirmed =>
      simp only [mapError_ok, bind, Except.bind, hlast]
      unfold TickEngine.onConfirmed
      cases hbuild : SnapshotAdapter.addCandleAndBuild s.adapter confirmed tick tick.bid with
      | error e => simp only [mapError_error, bind, Except.bind]
      | ok built => simp only [mapError_ok, bind, Except.bind]; rfl

end Kernel

/-! ## The adapter of a tick run -/

section
variable {σ : Type} [SmaCalculator σ] {average : List ℚ → ℚ} {config : IndicatorConfig}
  {tf : TimeFrame} {hist : History} {a : BacktestSnapshotAdapter σ}

/-- The adapter shows the bars of its signal time frame, and of no other. -/
structure Charted (average : List ℚ → ℚ) (config : IndicatorConfig) (tf : TimeFrame)
    (hist : History) (a : BacktestSnapshotAdapter σ) : Prop where
  warmedUp : a.warmedUp = true
  signal : a.signalTimeFrame = tf
  numbers : a.numbers = .exact
  state : ∃ st, get a.states tf = some st ∧ Stable average config hist st.ledger
  others : ∀ e ∈ a.states, e.1 ≠ tf → e.2.lastConfirmed = none ∧ e.2.upcomingConfirms = []

/-- A confirmed bar is charted, and nothing throws. -/
theorem addCandleAndBuild_charted (hσ : AveragesBy average σ) (h : Charted average config tf hist a)
    {candle : ConfirmedCandle} (hctf : candle.timeFrame = tf) {tick : Tick}
    (hprice : 1 / 1000 < tick.bid.value) :
    ∃ snapshot a' hist', a.addCandleAndBuild candle tick tick.bid = .ok (snapshot, a') ∧
      Charted average config tf hist' a' ∧ hist'.closes = hist.closes ++ [candle.close.value] ∧
      (snapshot.snapshotOf tf).confirmed = candle ∧
      Stateless average config.shortSmaPeriod config.longSmaPeriod hist'
        (snapshot.snapshotOf tf).indicators := by
  obtain ⟨hwarm, rfl, hexact, ⟨st, hst, hstable⟩, hothers⟩ := h
  obtain ⟨forming, hforming⟩ := exists_makeForming hprice tick a.signalTimeFrame
  rw [← hexact] at hforming
  -- the state of the signal time frame has the bar
  have hstable' : Stable average config _ ((st.confirm candle).updateForming forming).ledger :=
    (hstable.onConfirmed hσ candle).onUpdated hσ forming
  obtain ⟨v, hv, hstateless⟩ := hstable'.currentValues_ok hσ
  obtain ⟨snapshot, a', hbuild, hwarm', hsignal, hnumbers, hst', hlone, hcandle, hvalues⟩ :=
    BacktestSnapshotAdapter.exists_addCandle_lone hwarm hothers hst hctf hforming hv
  refine ⟨snapshot, a', _, hbuild, ⟨hwarm', hsignal, hnumbers.trans hexact, ⟨_, hst', hstable'⟩,
    hsignal ▸ hlone⟩, rfl, hcandle, ?_⟩
  rw [hvalues]
  exact hstateless

end

/-! ## Both sides -/

section
variable {σ : Type} [SmaCalculator σ] {average : List ℚ → ℚ} {config : IndicatorConfig}
  {tf : TimeFrame} {hist : TimeFrame → History} {book : TimeFrameBook σ}
  {kernel : Kernel (BacktestSnapshotAdapter σ)}

/-- The tick confirms a bar of the time frame. -/
def TimeFrameBook.Confirms (book : TimeFrameBook σ) (tf : TimeFrame) (tick : Tick) : Prop :=
  ∃ acc, (book.entries tf).accumulator.accumulate tick = .ok (.confirmed, acc)

/-- The book after ticks, each with the wall-clock time at which it is handled. -/
def TimeFrameBook.onTicks (book : TimeFrameBook σ) (ticks : List (Tick × Int)) : TimeFrameBook σ :=
  ticks.foldl (fun book t => (book.onTick t.1 t.2).2) book

/-- The two sides have the same forming candle and the same confirmed closes. -/
structure Paired (average : List ℚ → ℚ) (config : IndicatorConfig) (tf : TimeFrame)
    (hist : TimeFrame → History) (book : TimeFrameBook σ)
    (kernel : Kernel (BacktestSnapshotAdapter σ)) : Prop where
  ready : ∀ tf, Ready average config tf (hist tf) (book.entries tf)
  timeFrame : kernel.accumulator.timeFrame = tf
  forming : (book.entries tf).accumulator.forming = kernel.accumulator.forming
  charted : ∃ hist', Charted average config tf hist' kernel.adapter ∧
    hist'.closes = (hist tf).closes

/-- What the two sides show of the time frame at a tick: the same bar is confirmed, and
its candle and the confirmed values are the same. -/
structure Agree (book : TimeFrameBook σ) (tf : TimeFrame) (tick : Tick) (shown : MarketSnapshot)
    (shot : Option MarketSnapshot) : Prop where
  confirms : shot.isSome = true ↔ book.Confirms tf tick
  confirmed : ∀ s ∈ shot, (s.snapshotOf tf).confirmed = (shown.snapshotOf tf).confirmed
  indicators : ∀ s ∈ shot, (s.snapshotOf tf).indicators.confirmed =
    (shown.snapshotOf tf).indicators.confirmed

/-- A tick keeps the two sides paired; neither throws, and they agree. -/
theorem Paired.step (hσ : AveragesBy average σ) (h : Paired average config tf hist book kernel)
    (tick : Tick) (now : Int) (hprice : 1 / 1000 < tick.bid.value) :
    ∃ hist' shown shot kernel', (book.onTick tick now).1 = .ok shown ∧
      kernel.feed tick = .ok (shot, kernel') ∧
      Paired average config tf hist' (book.onTick tick now).2 kernel' ∧
      Agree book tf tick shown shot := by
  choose event acc hist' shot hacc hshot hbook hready hshows using
    fun tf => processEntry_ready hσ (h.ready tf) tick
  obtain ⟨shown, hshown, hall⟩ := TimeFrameBook.exists_onTick now fun tf => ⟨shot tf, hshot tf⟩
  have hshotOf : ∀ tf, shot tf = shown.snapshotOf tf := fun tf =>
    Except.ok.inj ((hshot tf).symm.trans (hall tf).1)
  have hready' : ∀ tf,
      Ready average config tf (hist' tf) ((book.onTick tick now).2.entries tf) := by
    intro tf
    rw [(hall tf).2]
    exact hready tf
  have hforming' : ((book.onTick tick now).2.entries tf).accumulator = acc tf := by
    rw [(hall tf).2, hbook tf]
  -- the accumulator of the run does what that of the book does
  obtain ⟨acc', hacc', hforming, hlast⟩ := CandleAccumulator.accumulate_congr
    ((h.ready tf).timeFrame.trans h.timeFrame.symm) h.forming tick (hacc tf)
  have htf : acc'.timeFrame = tf := by
    obtain ⟨_, _, heq, hcases⟩ := kernel.accumulator.accumulate_cases tick
    rw [hacc'] at heq
    cases heq
    exact hcases.timeFrame_eq.trans h.timeFrame
  obtain ⟨histK, hcharted, hcloses⟩ := h.charted
  have hcloses' := (hshows tf).closes
  unfold Kernel.feed
  rw [hacc']
  cases hevent : event tf with
  | updated =>
    rw [hevent] at hcloses'
    refine ⟨hist', shown, none, ⟨kernel.adapter, acc'⟩, hshown, rfl,
      ⟨hready', htf, ?_, histK, hcharted, hcloses.trans hcloses'.symm⟩, ?_, by simp, by simp⟩
    · rw [hforming', hforming]
    · simp [TimeFrameBook.Confirms, hacc tf, hevent]
  | confirmed =>
    rw [hevent] at hcloses'
    have hlast' : acc'.lastConfirmed = some (shot tf).confirmed := by
      rw [← hlast hevent, (hshows tf).confirmed]
    have hctf : (shot tf).confirmed.timeFrame = tf := by
      obtain ⟨c, hc, hctf⟩ := (hready' tf).confirmed
      rw [hforming', (hshows tf).confirmed] at hc
      rw [Option.some.inj hc, hctf]
    obtain ⟨snapshot, adapter, histK', hbuild, hcharted', hclosesK, hcandle, hstateless⟩ :=
      addCandleAndBuild_charted hσ hcharted hctf hprice
    have hpaired : Paired average config tf hist' (book.onTick tick now).2 ⟨adapter, acc'⟩ :=
      ⟨hready', htf, by rw [hforming', hforming],
        histK', hcharted', by rw [hclosesK, hcloses, hcloses']⟩
    have hfed : (SnapshotAdapter.addCandleAndBuild kernel.adapter (shot tf).confirmed tick
        tick.bid).mapError EngineError.adapter = .ok (snapshot, adapter) :=
      mapError_eq_ok.mpr hbuild
    refine ⟨hist', shown, some snapshot, ⟨adapter, acc'⟩, hshown, ?_, hpaired, ?_, ?_, ?_⟩
    · simp only [mapError_ok, bind, Except.bind, hlast', hfed]
      rfl
    · simp [TimeFrameBook.Confirms, hacc tf, hevent]
    · rintro s ⟨⟩
      rw [hcandle, hshotOf tf]
    · rintro s ⟨⟩
      rw [← hshotOf tf]
      exact hstateless.confirmed_eq (hshows tf).indicators (by rw [hclosesK, hcloses, hcloses'])

/-- Fed the same ticks the two sides stay paired. -/
theorem Paired.run (hσ : AveragesBy average σ) (h : Paired average config tf hist book kernel)
    (ticks : List (Tick × Int)) (hprices : ∀ t ∈ ticks, 1 / 1000 < t.1.bid.value) :
    ∃ hist' kernel', kernel.feedAll (ticks.map (·.1)) = .ok kernel' ∧
      Paired average config tf hist' (book.onTicks ticks) kernel' := by
  induction ticks generalizing hist book kernel with
  | nil => exact ⟨hist, kernel, rfl, h⟩
  | cons t ticks ih =>
    obtain ⟨hist₁, -, shot, kernel₁, -, hfeed, h₁, -⟩ := h.step hσ t.1 t.2 (hprices t (by simp))
    obtain ⟨hist', kernel', hfeeds, h'⟩ := ih h₁ fun u hu => hprices u (List.mem_cons_of_mem _ hu)
    refine ⟨hist', kernel', ?_, h'⟩
    unfold Kernel.feedAll at hfeeds ⊢
    rw [List.map_cons, List.foldlM_cons]
    exact bind_eq_ok.mpr ⟨kernel₁, bind_eq_ok.mpr ⟨_, hfeed, rfl⟩, hfeeds⟩

variable {history : TimeFrame → List ConfirmedCandle}

theorem WarmUpLists.charted (hσ : AveragesBy average σ) (h : WarmUpLists config history)
    {pair : CurrencyPair} {specs : List TimeFrameIndicatorSpec}
    {adapter : BacktestSnapshotAdapter σ}
    (hadapter : BacktestSnapshotAdapter.new pair tf specs = .ok adapter)
    (hspecs : ∀ spec ∈ specs, spec.timeFrame = tf →
      spec = ⟨tf, config.shortSmaPeriod, config.longSmaPeriod⟩) :
    Charted average config tf (.ofWarmUp (history tf)) (adapter.warmUp (history tf)) := by
  obtain ⟨-, hsignal, -, hexact⟩ := BacktestSnapshotAdapter.new_ok hadapter
  obtain ⟨spec, hmem, htf, hst⟩ := BacktestSnapshotAdapter.new_warmUp_get hadapter (history tf)
  refine ⟨rfl, hsignal, hexact, ⟨_, hst, ?_⟩, fun e he hne => ?_⟩
  · rw [TimeFrameState.warmUp_ledger, hspecs spec hmem htf]
    exact Stable.warmUp hσ (h.long tf)
  · exact BacktestSnapshotAdapter.new_warmUp_lone hadapter (history tf) e he (hsignal ▸ hne)

/-- Warmed up with the same bars and fed the same ticks, the live book and the market side
of a tick run throw nothing, confirm the same bars, and show the same confirmed candle and
the same confirmed values for each. -/
theorem same_market (hσ : AveragesBy average σ) (h : WarmUpLists config history)
    (pair : CurrencyPair) {specs : List TimeFrameIndicatorSpec}
    {adapter : BacktestSnapshotAdapter σ}
    (hadapter : BacktestSnapshotAdapter.new pair tf specs = .ok adapter)
    (hspecs : ∀ spec ∈ specs, spec.timeFrame = tf →
      spec = ⟨tf, config.shortSmaPeriod, config.longSmaPeriod⟩)
    (past : List (Tick × Int)) (tick : Tick) (now : Int)
    (hprices : ∀ t ∈ past ++ [(tick, now)], 1 / 1000 < t.1.bid.value) :
    ∃ book, BarState.warmUpFrom history TimeFrame.liveTimeframes
        (.new pair config : TimeFrameBook σ) = .ok book ∧
      ∃ kernel, (Kernel.mk (adapter.warmUp (history tf)) (.new tf)).feedAll (past.map (·.1)) =
        .ok kernel ∧
      ∃ shown shot kernel', ((book.onTicks past).onTick tick now).1 = .ok shown ∧
        kernel.feed tick = .ok (shot, kernel') ∧ Agree (book.onTicks past) tf tick shown shot := by
  obtain ⟨book, hbook⟩ := h.exists_warmUpFrom TimeFrame.liveTimeframes
    (.new pair config : TimeFrameBook σ)
  have hready := h.ready hσ hbook
  have hentry := ((BarState.warmUpFrom_ok TimeFrame.liveTimeframes_nodup hbook tf).2
    (TimeFrame.mem_liveTimeframes tf)).2
  have hpaired : Paired average config tf (fun tf => .ofWarmUp (history tf)) book
      ⟨adapter.warmUp (history tf), .new tf⟩ :=
    ⟨hready, rfl, by rw [hentry]; rfl, _, h.charted hσ hadapter hspecs, rfl⟩
  obtain ⟨hist', kernel, hfeeds, hpaired'⟩ := hpaired.run hσ past fun t ht =>
    hprices t (List.mem_append_left _ ht)
  obtain ⟨-, shown, shot, kernel', hshown, hfeed, -, hagree⟩ :=
    hpaired'.step hσ tick now (hprices (tick, now) (by simp))
  exact ⟨book, hbook, kernel, hfeeds, shown, shot, kernel', hshown, hfeed, hagree⟩

end

/-- A tick in the first minute, and one in the second, which confirms the first. -/
theorem same_market_quiet :
    ∃ book, BarState.warmUpFrom quietHistory TimeFrame.liveTimeframes
        (.new .usdJpy quietConfig : TimeFrameBook RecordedSma) = .ok book ∧
      ∃ kernel, (Kernel.mk (quietAdapter.warmUp (quietHistory .oneMinute))
        (.new .oneMinute)).feedAll [quietTick 864005000] = .ok kernel ∧
      ∃ shown shot kernel', ((book.onTicks [(quietTick 864005000, 864005000)]).onTick
          (quietTick 864065000) 864065000).1 = .ok shown ∧
        kernel.feed (quietTick 864065000) = .ok (shot, kernel') ∧
        Agree (book.onTicks [(quietTick 864005000, 864005000)]) .oneMinute (quietTick 864065000)
          shown shot := by
  have hadapter : BacktestSnapshotAdapter.new .usdJpy .oneMinute [⟨.oneMinute, 1, 2⟩] =
    .ok quietAdapter := rfl
  have hprice : 1 / 1000 < quietPrice.value := by decide +kernel
  exact same_market RecordedSma.exactSma.averagesBy quietHistory_lists .usdJpy hadapter
    (by simp [quietConfig])
    [(quietTick 864005000, 864005000)] (quietTick 864065000) 864065000
    (by simpa [quietTick] using hprice)

end Luchida
