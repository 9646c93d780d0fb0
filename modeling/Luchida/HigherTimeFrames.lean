import Luchida.OhlcLookAhead
import Luchida.TimescaleDataProvider

/- The bars of the additional time frames in a run over bars. The first `longPeriod` of
   them are the warm-up, and the others wait in the queue of the adapter (`begin_released`).
   A driver bar releases the one that closes with it and throws away those that closed
   earlier (`Released.advance`). So when the rules are asked, a time frame has been given
   its warm-up and the queued bars that close with a driver bar asked so far
   (`asked_released`), which are the bars that have closed where no warm-up bar is still to
   close and every other bar closes with a driver bar (`Released.showsClosed_iff`). -/
namespace Luchida

open OrderedMap Throws

/-! ## Bars in order -/

/-- The bars that have closed by a time. -/
def closedBy (time : Int) (bars : List ConfirmedCandle) : List ConfirmedCandle :=
  bars.filter fun c => c.closeTime ≤ time

/-- In an ascending list the elements below a value come before those at it. -/
theorem filter_or_eq {α : Type*} {f : α → Int} {l : List α}
    (h : l.Pairwise (fun a b => f a < f b)) {p : α → Bool} {t : Int}
    (hp : ∀ a ∈ l, p a = true → f a < t) :
    l.filter (fun a => p a || f a = t) = l.filter p ++ l.filter (fun a => f a = t) := by
  have hasc := (h.imp Int.le_of_lt).sublist
    (List.filter_sublist (l := l) (p := fun a => p a || f a = t))
  rw [← filter_lt_append_filter_le hasc t, List.filter_filter, List.filter_filter]
  congr 1
  · refine List.filter_congr fun a ha => ?_
    cases hpa : p a with
    | true => simpa using hp a ha hpa
    | false => simpa using fun hlt : f a < t => Int.ne_of_lt hlt
  · refine List.filter_congr fun a ha => ?_
    cases hpa : p a with
    | true =>
      have := hp a ha hpa
      simpa using by omega
    | false => simpa using fun heq : f a = t => Int.le_of_eq heq.symm

/-! ## What the queue releases -/

section
variable {σ : Type} [SmaCalculator σ] {tf : TimeFrame} {warmup queue : List ConfirmedCandle}
  {closes : List Int}

/-- The state of a time frame after driver bars with these closes: it was given the
warm-up and the queued bars that close with one of them, and those that close after all of
them still wait. -/
structure TimeFrameState.Released (tf : TimeFrame) (warmup queue : List ConfirmedCandle)
    (closes : List Int) (st : TimeFrameState σ) : Prop where
  fed : st.fed = warmup ++ queue.filter fun c => c.closeTime ∈ closes
  upcoming : st.upcomingConfirms =
    queue.filter fun c => ∀ t ∈ closes, tf.isAligned t = true → t < c.closeTime

/-- One more driver bar. -/
theorem TimeFrameState.Released.advance {a : BacktestSnapshotAdapter σ}
    (hqueue : BarSeries tf queue) (hne : tf ≠ a.signalTimeFrame) {candle : ConfirmedCandle}
    {tick : Tick} {forming : FormingCandle} {st st' : TimeFrameState σ}
    (h : st.Released tf warmup queue closes) (hlt : ∀ t ∈ closes, t < candle.closeTime)
    (hadvance : a.advance candle tick forming tf st = .ok st') :
    st'.Released tf warmup queue (closes ++ [candle.closeTime]) := by
  obtain ⟨hfed, hupcoming⟩ := BacktestSnapshotAdapter.advance_other hne hadvance
  have hsplit : queue.filter (fun c => c.closeTime ∈ closes ++ [candle.closeTime]) =
      queue.filter (fun c => c.closeTime ∈ closes) ++
        queue.filter (fun c => c.closeTime = candle.closeTime) := by
    rw [← filter_or_eq hqueue.closes_ascending (by simpa using fun c _ hc => hlt _ hc)]
    simp
  by_cases haligned : tf.isAligned candle.closeTime = true
  · rw [if_pos haligned, TimeFrameState.release_fed] at hfed
    rw [if_pos haligned, TimeFrameState.release_upcoming] at hupcoming
    have hwaiting : st.upcomingConfirms.Pairwise (fun a b => a.openTime < b.openTime) := by
      rw [h.upcoming]
      exact hqueue.ascending.sublist List.filter_sublist
    obtain ⟨htaken, hleft⟩ :=
      TimeFrameState.takeExpected_eq (candle.closeTime - tf.durationMs) hwaiting
    constructor
    · rw [hfed, htaken, h.fed, h.upcoming, hsplit, List.append_assoc, List.filter_filter]
      congr 2
      refine List.filter_congr fun c hc => ?_
      have hclose := hqueue.closeTime c hc
      by_cases heq : c.closeTime = candle.closeTime
      · have hopen : c.openTime = candle.closeTime - tf.durationMs := by omega
        simpa [heq, hopen] using fun t ht _ => hlt t ht
      · have hopen : c.openTime ≠ candle.closeTime - tf.durationMs := by omega
        simp [heq, hopen]
    · rw [hupcoming, hleft, h.upcoming, List.filter_filter]
      refine List.filter_congr fun c hc => ?_
      have hclose := hqueue.closeTime c hc
      have hlater : candle.closeTime - tf.durationMs < c.openTime ↔
          candle.closeTime < c.closeTime := by omega
      simp [hlater, or_imp, forall_and, haligned, and_comm]
  · rw [if_neg haligned] at hfed hupcoming
    -- no queued bar closes off the boundaries of its time frame
    have hnone : queue.filter (fun c => c.closeTime = candle.closeTime) = [] := by
      rw [List.filter_eq_nil_iff]
      intro c hc heq
      rw [decide_eq_true_eq] at heq
      exact haligned (heq ▸ hqueue.aligned_closeTime hc)
    constructor
    · rw [hfed, h.fed, hsplit, hnone, List.append_nil]
    · rw [hupcoming, h.upcoming]
      refine List.filter_congr fun c _ => ?_
      simp [or_imp, forall_and, haligned]

/-- The state shows the bars that have closed by a time, and the last of them. -/
structure TimeFrameState.ShowsClosed (time : Int) (bars : List ConfirmedCandle)
    (st : TimeFrameState σ) : Prop where
  fed : st.fed = closedBy time bars
  last : st.lastConfirmed = (closedBy time bars).getLast?

/-- A time frame shows what has closed where no warm-up bar closes later, and every other
bar that has closed did so with a driver bar. -/
theorem TimeFrameState.Released.showsClosed_iff {bars : List ConfirmedCandle} {n : Nat}
    {time : Int} {st : TimeFrameState σ} (hbars : BarSeries tf bars)
    (h : st.Released tf (bars.take n) (bars.drop n) closes) (hle : ∀ t ∈ closes, t ≤ time) :
    st.ShowsClosed time bars ↔ (∀ c ∈ bars.take n, c.closeTime ≤ time) ∧
      ∀ c ∈ bars.drop n, c.closeTime ≤ time → c.closeTime ∈ closes := by
  constructor
  · intro hshows
    have hfed := h.fed.symm.trans hshows.fed
    refine ⟨fun c hc => ?_, fun c hc hclosed => ?_⟩
    · have hmem : c ∈ closedBy time bars := hfed ▸ List.mem_append_left _ hc
      simpa [closedBy] using (List.mem_filter.mp hmem).2
    · have hmem : c ∈ closedBy time bars :=
        List.mem_filter.mpr ⟨List.mem_of_mem_drop hc, by simpa using hclosed⟩
      rw [← hfed] at hmem
      rcases List.mem_append.mp hmem with hwarm | hqueue
      · have hasc := hbars.ascending
        rw [← List.take_append_drop n bars] at hasc
        exact absurd ((List.pairwise_append.mp hasc).2.2 c hwarm c hc) (lt_irrefl _)
      · simpa using (List.mem_filter.mp hqueue).2
  · rintro ⟨hwarm, hqueue⟩
    have hfed : st.fed = closedBy time bars := by
      have hsplit : closedBy time bars =
          closedBy time (bars.take n) ++ closedBy time (bars.drop n) := by
        conv_lhs => rw [← List.take_append_drop n bars]
        exact List.filter_append ..
      have htake : closedBy time (bars.take n) = bars.take n :=
        List.filter_eq_self.mpr fun c hc => by simpa using hwarm c hc
      rw [h.fed, hsplit, htake]
      congr 1
      refine List.filter_congr fun c hc => ?_
      simpa using ⟨hle c.closeTime, hqueue c hc⟩
    exact ⟨hfed, hfed ▸ st.last_fed⟩

/-- The adapter has a time frame, not the driving one, in such a state. -/
structure BacktestSnapshotAdapter.Released (tf : TimeFrame) (warmup queue : List ConfirmedCandle)
    (closes : List Int) (a : BacktestSnapshotAdapter σ) : Prop where
  ne_signal : tf ≠ a.signalTimeFrame
  state : ∃ st, get a.states tf = some st ∧ st.Released tf warmup queue closes

theorem BacktestSnapshotAdapter.Released.addCandleAndBuild (hqueue : BarSeries tf queue)
    {a a' : BacktestSnapshotAdapter σ} {candle : ConfirmedCandle} {tick : Tick}
    {nextOpen : Price} {snapshot : MarketSnapshot} (h : a.Released tf warmup queue closes)
    (hlt : ∀ t ∈ closes, t < candle.closeTime)
    (hbuild : a.addCandleAndBuild candle tick nextOpen = .ok (snapshot, a')) :
    a'.Released tf warmup queue (closes ++ [candle.closeTime]) := by
  obtain ⟨st, hst, hreleased⟩ := h.state
  obtain ⟨-, forming, -, hstates, -⟩ := BacktestSnapshotAdapter.addCandleAndBuild_ok hbuild
  obtain ⟨-, hsignal, -, -, hget⟩ := BacktestSnapshotAdapter.mapStatesM_ok hstates
  refine ⟨hsignal ▸ h.ne_signal, ?_⟩
  have hadvance := hget tf
  rw [hst, Option.map_some] at hadvance
  obtain ⟨st', hst', heq⟩ := Option.map_eq_some_iff.mp hadvance.symm
  exact ⟨st', hst', hreleased.advance hqueue h.ne_signal hlt heq.symm⟩

end

/-! ## The rounds of the loop -/

namespace OhlcEngine

section
variable {α ω : Type} [SnapshotAdapter α] (params : EngineRunParams ω)

/-- The snapshot with which the rules are asked after a bar, and the adapter then. -/
def observe (currentCandle nextCandle : ConfirmedCandle) (s : EngineState α ω) :
    Except EngineError (MarketSnapshot × α) := do
  let latestTick ← (makeTick params.numbers currentCandle.close params.config.pair
    currentCandle).mapError .quote
  (SnapshotAdapter.addCandleAndBuild s.adapter currentCandle latestTick
    nextCandle.openPrice).mapError .adapter

/-- The rest of the round. -/
def ask (snapshot : MarketSnapshot) (currentCandle nextCandle : ConfirmedCandle) (adapter : α)
    (s : EngineState α ω) : Except EngineError (EngineState α ω) := do
  let s := updateOhlc currentCandle
    ({ s with adapter := adapter }.setRate currentCandle.close.value)
  let s ← s.positions.foldlM (evaluateExit params snapshot currentCandle nextCandle) s
  evaluateEntry params snapshot nextCandle s

theorem onBar_eq_observe (currentCandle nextCandle : ConfirmedCandle) (s : EngineState α ω) :
    onBar params currentCandle nextCandle s = (do
      let (snapshot, adapter) ← observe params currentCandle nextCandle s
      ask params snapshot currentCandle nextCandle adapter s) := by
  unfold observe
  rw [bind_assoc]
  rfl

/-- The snapshot with which the rules are asked after the bar `i`, and the adapter then. -/
def asked (candles : List ConfirmedCandle)
    (additionalBundles : List (TimeFrameIndicatorSpec × List ConfirmedCandle)) (adapter : α)
    (world : ω) (shared : SharedState) (i : Nat) (hi : i + 1 < candles.length) :
    Except EngineError (MarketSnapshot × α) := do
  let s ← begin params candles additionalBundles adapter world shared
  let s ← loop params ((candles.take (i + 1)).drop params.config.warmupCount) s
  observe params candles[i] candles[i + 1] s

variable {params}

omit [SnapshotAdapter α] in
theorem evaluateExit_adapter (snapshot : MarketSnapshot)
    (currentCandle nextCandle : ConfirmedCandle) (s : EngineState α ω)
    (entry : PositionId × Position) :
    Ends (fun s' => s'.adapter = s.adapter) (fun _ => True)
      (evaluateExit params snapshot currentCandle nextCandle s entry) := by
  unfold evaluateExit
  refine Ends.bind (fun _ => True) (ends_iff_ok.mpr fun _ _ => trivial) ?_
  rintro ⟨exitResult, world⟩ - -
  cases exitResult with
  | none => rfl
  | some command =>
    exact Ends.bind _ (EngineState.closePosition_adapter ..) fun s' _ hs' => hs'

omit [SnapshotAdapter α] in
theorem evaluateEntry_adapter (snapshot : MarketSnapshot) (nextCandle : ConfirmedCandle)
    (s : EngineState α ω) :
    Ends (fun s' => s'.adapter = s.adapter) (fun _ => True)
      (evaluateEntry params snapshot nextCandle s) := by
  unfold evaluateEntry
  split
  · refine Ends.bind (fun _ => True) (ends_iff_ok.mpr fun _ _ => trivial) ?_
    rintro ⟨entryResult, world⟩ - -
    cases entryResult with
    | none => rfl
    | some command => exact EngineState.openPosition_adapter ..
  · rfl

omit [SnapshotAdapter α] in
/-- Asking the rules leaves the adapter alone. -/
theorem ask_adapter (snapshot : MarketSnapshot) (currentCandle nextCandle : ConfirmedCandle)
    (adapter : α) (s : EngineState α ω) :
    Ends (fun s' => s'.adapter = adapter) (fun _ => True)
      (ask params snapshot currentCandle nextCandle adapter s) := by
  unfold ask
  refine Ends.bind (fun s' : EngineState α ω => s'.adapter = adapter) ?_ fun s' _ hs' => ?_
  · refine Ends.foldlM (fun _ (s' : EngineState α ω) => s'.adapter = adapter)
      (fun done entry rest _ s' hs' => ?_) rfl
    exact (evaluateExit_adapter snapshot currentCandle nextCandle s' entry).imp
      fun s'' h => h.trans hs'
  · exact (evaluateEntry_adapter snapshot nextCandle s').imp fun s'' h => h.trans hs'

end

/-! ## A run -/

/-- There is one list of bars for each additional spec, in their order. -/
theorem fetch_specs {ω : Type} {params : EngineRunParams ω} {candles : List ConfirmedCandle}
    {additionalBundles : List (TimeFrameIndicatorSpec × List ConfirmedCandle)}
    (hfetch : fetch params = .ok (candles, additionalBundles)) :
    additionalBundles.map (·.1) = params.additionalIndicatorSpecs := by
  unfold fetch at hfetch
  obtain ⟨fetched, -, hfetch⟩ := bind_eq_ok.mp hfetch
  obtain ⟨bundles, hbundles, hfetch⟩ := bind_eq_ok.mp hfetch
  have hspecs : bundles.map (·.1) = params.additionalIndicatorSpecs := by
    refine map_of_mapM (fun spec bundle hbundle => ?_) hbundles
    obtain ⟨bars, -, hbundle⟩ := bind_eq_ok.mp hbundle
    cases hbundle
    rfl
  split at hfetch
  · cases hfetch
  · split at hfetch
    · cases hfetch
    · cases hfetch
      exact hspecs

section
variable {σ ω : Type} [SmaCalculator σ] {params : EngineRunParams ω}
  {candles : List ConfirmedCandle}
  {additionalBundles : List (TimeFrameIndicatorSpec × List ConfirmedCandle)}
  {adapter : BacktestSnapshotAdapter σ} {world : ω} {shared : SharedState}

/-- The closes of the driver bars asked up to the bar `i`. -/
def askedCloses (params : EngineRunParams ω) (candles : List ConfirmedCandle) (i : Nat) :
    List Int :=
  ((candles.take (i + 1)).drop params.config.warmupCount).map (·.closeTime)

theorem askedCloses_le (hdriver : BarSeries params.config.timeframe candles) {i : Nat}
    (hw : params.config.warmupCount ≤ i) (hi : i < candles.length) :
    ∀ t ∈ askedCloses params candles i, t ≤ candles[i].closeTime := by
  have hasc : ((candles.take (i + 1)).drop params.config.warmupCount).Pairwise
      (fun a b => a.closeTime < b.closeTime) :=
    hdriver.closes_ascending.sublist ((List.drop_sublist ..).trans (List.take_sublist ..))
  unfold askedCloses
  rw [drop_take_succ hw hi] at hasc ⊢
  intro t ht
  obtain ⟨c, hc, rfl⟩ := List.mem_map.mp ht
  rcases List.mem_append.mp hc with hc | hc
  · exact Int.le_of_lt ((List.pairwise_append.mp hasc).2.2 c hc _ (by simp))
  · rw [List.mem_singleton.mp hc]

/-- The adapter has a state of each additional time frame; none of these drives the run,
and each is named once. -/
structure Additional (params : EngineRunParams ω) (specs : List TimeFrameIndicatorSpec) : Prop where
  registered : ∀ spec ∈ params.additionalIndicatorSpecs,
    spec.timeFrame ∈ specs.map (·.timeFrame)
  ne_driver : ∀ spec ∈ params.additionalIndicatorSpecs, spec.timeFrame ≠ params.config.timeframe
  nodup : (params.additionalIndicatorSpecs.map (·.timeFrame)).Nodup

/-- The loop begins with the warm-up fed and everything after it in the queue. -/
theorem begin_released {specs : List TimeFrameIndicatorSpec} {pair : CurrencyPair}
    (hadapter : BacktestSnapshotAdapter.new pair params.config.timeframe specs = .ok adapter)
    (hspecs : Additional params specs)
    (hbundles : additionalBundles.map (·.1) = params.additionalIndicatorSpecs)
    {s : EngineState (BacktestSnapshotAdapter σ) ω}
    (hbegin : begin params candles additionalBundles adapter world shared = .ok s)
    {bundle : TimeFrameIndicatorSpec × List ConfirmedCandle}
    (hbundle : bundle ∈ additionalBundles) :
    s.adapter.Released bundle.1.timeFrame (bundle.2.take bundle.1.longPeriod)
      (bundle.2.drop bundle.1.longPeriod) [] := by
  have hmem : bundle.1 ∈ params.additionalIndicatorSpecs :=
    hbundles ▸ List.mem_map_of_mem hbundle
  have hnodup : (additionalBundles.map fun b => b.1.timeFrame).Nodup := by
    have := hspecs.nodup
    rwa [← hbundles, List.map_map] at this
  obtain ⟨hfresh, hsignal, -⟩ := BacktestSnapshotAdapter.new_ok hadapter
  have hne : bundle.1.timeFrame ≠ adapter.signalTimeFrame := by
    rw [hsignal]
    exact hspecs.ne_driver _ hmem
  -- the time frame starts empty
  have hhas : has adapter.states bundle.1.timeFrame = true := by
    rw [hfresh, has_iff]
    simpa [BacktestSnapshotAdapter.freshStates] using hspecs.registered _ hmem
  obtain ⟨st, hst⟩ := Option.isSome_iff_exists.mp hhas
  obtain ⟨spec, -, -, rfl⟩ := BacktestSnapshotAdapter.new_get hadapter hst
  unfold begin at hbegin
  obtain ⟨adapter', hwarm, hbegin⟩ := bind_eq_ok.mp hbegin
  cases hbegin
  have hwarmup := get_foldl_set (fun b : TimeFrameIndicatorSpec × List ConfirmedCandle =>
    b.1.timeFrame) (fun b => b.2.take b.1.longPeriod)
    [(params.config.timeframe, candles.take params.config.warmupCount)] hnodup hbundle
  have hqueue := get_foldl_set (fun b : TimeFrameIndicatorSpec × List ConfirmedCandle =>
    b.1.timeFrame) (fun b => b.2.drop b.1.longPeriod) [] hnodup hbundle
  cases additionalBundles with
  | nil => simp at hbundle
  | cons first rest =>
    obtain ⟨-, hsignal', -, -, hget⟩ :=
      BacktestSnapshotAdapter.mapStatesM_ok (mapError_eq_ok.mp hwarm)
    have hstate := hget bundle.1.timeFrame
    rw [BacktestSnapshotAdapter.warmUpAll_get, hst, Option.map_some, hwarmup,
      Option.map_some] at hstate
    obtain ⟨st', hst', heq⟩ := Option.map_eq_some_iff.mp hstate.symm
    obtain ⟨hfed, hupcoming⟩ := BacktestSnapshotAdapter.setUpcoming_ok heq.symm
    refine ⟨?_, st', hst', ?_, ?_⟩
    · show bundle.1.timeFrame ≠ adapter'.signalTimeFrame
      rw [hsignal']
      exact hne
    · simpa using hfed
    · rw [hupcoming hne _ hqueue]
      simp only [TimeFrameState.warmUp_upcoming, TimeFrameState.new]
      split
      · rename_i hnil
        simp [hnil]
      · simp

/-- Each driver bar of the loop releases what closes with it. -/
theorem loop_released {tf : TimeFrame} {warmup queue : List ConfirmedCandle} {closes : List Int}
    (hqueue : BarSeries tf queue) {bars : List ConfirmedCandle} {next : ConfirmedCandle}
    {s s' : EngineState (BacktestSnapshotAdapter σ) ω}
    (h : s.adapter.Released tf warmup queue closes)
    (hasc : (closes ++ bars.map (·.closeTime)).Pairwise (· < ·))
    (hloop : loop params (bars ++ [next]) s = .ok s') :
    s'.adapter.Released tf warmup queue (closes ++ bars.map (·.closeTime)) := by
  induction bars generalizing closes s with
  | nil =>
    cases hloop
    simpa using h
  | cons c bars ih =>
    have hlt : ∀ t ∈ closes, t < c.closeTime := fun t ht =>
      (List.pairwise_append.mp hasc).2.2 t ht _ (by simp)
    rw [List.map_cons, List.append_cons] at hasc ⊢
    rw [List.cons_append] at hloop
    cases hrest : bars ++ [next] with
    | nil => simp at hrest
    | cons d rest =>
      rw [hrest] at hloop
      unfold loop at hloop
      obtain ⟨s₁, hs₁, hloop⟩ := bind_eq_ok.mp hloop
      rw [onBar_eq_observe] at hs₁
      obtain ⟨⟨snapshot, adapter'⟩, hobserve, hask⟩ := bind_eq_ok.mp hs₁
      obtain ⟨tick, -, hbuild⟩ := bind_eq_ok.mp hobserve
      have hreleased := h.addCandleAndBuild hqueue hlt (mapError_eq_ok.mp hbuild)
      have hkept := (ask_adapter snapshot c d adapter' s).of_ok hask
      exact ih (hkept ▸ hreleased) hasc (hrest ▸ hloop)

/-- When the rules are asked after a bar, every additional time frame was given its warm-up
and the later bars that close with a driver bar asked so far. -/
theorem asked_released {specs : List TimeFrameIndicatorSpec} {pair : CurrencyPair}
    (hadapter : BacktestSnapshotAdapter.new pair params.config.timeframe specs = .ok adapter)
    (hspecs : Additional params specs)
    (hbundles : additionalBundles.map (·.1) = params.additionalIndicatorSpecs)
    (hdriver : BarSeries params.config.timeframe candles)
    {bundle : TimeFrameIndicatorSpec × List ConfirmedCandle} (hbundle : bundle ∈ additionalBundles)
    (hseries : BarSeries bundle.1.timeFrame bundle.2) {i : Nat}
    (hw : params.config.warmupCount ≤ i) {hi : i + 1 < candles.length}
    {snapshot : MarketSnapshot} {adapter' : BacktestSnapshotAdapter σ}
    (hasked : asked params candles additionalBundles adapter world shared i hi =
      .ok (snapshot, adapter')) :
    adapter'.Released bundle.1.timeFrame (bundle.2.take bundle.1.longPeriod)
      (bundle.2.drop bundle.1.longPeriod) (askedCloses params candles i) := by
  have hqueue := hseries.sublist (List.drop_sublist bundle.1.longPeriod bundle.2)
  have hasc : (askedCloses params candles i).Pairwise (· < ·) := by
    refine List.pairwise_map.mpr (hdriver.closes_ascending.sublist ?_)
    exact (List.drop_sublist ..).trans (List.take_sublist ..)
  unfold askedCloses at hasc ⊢
  unfold asked at hasked
  rw [drop_take_succ hw (by omega)] at hasked hasc ⊢
  rw [List.map_append, List.map_cons, List.map_nil] at hasc ⊢
  obtain ⟨hasc, -, hlt⟩ := List.pairwise_append.mp hasc
  obtain ⟨s, hs, hasked⟩ := bind_eq_ok.mp hasked
  obtain ⟨s', hs', hobserve⟩ := bind_eq_ok.mp hasked
  obtain ⟨tick, -, hbuild⟩ := bind_eq_ok.mp hobserve
  have hbegin := begin_released hadapter hspecs hbundles hs hbundle
  have hloop := loop_released hqueue hbegin (by simpa using hasc) hs'
  rw [List.nil_append] at hloop
  exact hloop.addCandleAndBuild hqueue (fun t ht => hlt t ht _ (by simp)) (mapError_eq_ok.mp hbuild)

/-- Where the warm-up of a time frame has closed, the rules are asked with the bars of it
that have closed, each once and in order, save those after the warm-up that close with no
driver bar asked so far; the last of them is the confirmed bar. -/
theorem asked_with_closed {specs : List TimeFrameIndicatorSpec} {pair : CurrencyPair}
    (hadapter : BacktestSnapshotAdapter.new pair params.config.timeframe specs = .ok adapter)
    (hspecs : Additional params specs)
    (hfetch : fetch params = .ok (candles, additionalBundles))
    (hdriver : BarSeries params.config.timeframe candles)
    {bundle : TimeFrameIndicatorSpec × List ConfirmedCandle} (hbundle : bundle ∈ additionalBundles)
    (hseries : BarSeries bundle.1.timeFrame bundle.2) {i : Nat}
    (hw : params.config.warmupCount ≤ i) {hi : i + 1 < candles.length}
    {snapshot : MarketSnapshot} {adapter' : BacktestSnapshotAdapter σ}
    (hasked : asked params candles additionalBundles adapter world shared i hi =
      .ok (snapshot, adapter'))
    (hwarm : ∀ c ∈ bundle.2.take bundle.1.longPeriod, c.closeTime ≤ candles[i].closeTime) :
    let closed := closedBy candles[i].closeTime
    let shown := closed (bundle.2.take bundle.1.longPeriod) ++
      (closed (bundle.2.drop bundle.1.longPeriod)).filter fun c =>
        c.closeTime ∈ askedCloses params candles i
    ∃ st, get adapter'.states bundle.1.timeFrame = some st ∧ st.fed = shown ∧
      st.ledger.FedWith shown ∧ st.lastConfirmed = shown.getLast? := by
  intro closed shown
  obtain ⟨st, hst, hreleased⟩ := (asked_released hadapter hspecs (fetch_specs hfetch) hdriver
    hbundle hseries hw hasked).state
  have hle := askedCloses_le hdriver hw (Nat.lt_of_succ_lt hi)
  have hshown : st.fed = shown := by
    have htake : closed (bundle.2.take bundle.1.longPeriod) = bundle.2.take bundle.1.longPeriod :=
      List.filter_eq_self.mpr fun c hc => by simpa using hwarm c hc
    have hdrop : (closed (bundle.2.drop bundle.1.longPeriod)).filter
        (fun c => c.closeTime ∈ askedCloses params candles i) =
          (bundle.2.drop bundle.1.longPeriod).filter
            (fun c => c.closeTime ∈ askedCloses params candles i) := by
      simp only [closed, closedBy, List.filter_filter]
      refine List.filter_congr fun c _ => ?_
      simpa using hle c.closeTime
    show st.fed = closed _ ++ _
    rw [hreleased.fed, htake, hdrop]
  exact ⟨st, hst, hshown, hshown ▸ st.ledger_fed, hshown ▸ st.last_fed⟩

end

/-! ### A gap before a boundary -/

/-- Minute bars with no bar that closes at 45 minutes. -/
def gappedBars : List ConfirmedCandle :=
  [28, 29, 30, 45, 59, 60].map fun minute => flatCandle .oneMinute (60000 * minute) quietPrice

def quarterBars : List ConfirmedCandle :=
  [0, 1, 2, 3, 4].map fun quarter => flatCandle .fifteenMinute (900000 * quarter) quietPrice

/-- A run from the half hour, with two bars of warm-up in either time frame. -/
def gappedParams : EngineRunParams Nat :=
  { quietParams (idealExecutionSimulator countedIds) [] [] with
    config := ⟨.usdJpy, .oneMinute, ⟨1800000, 4500000⟩, 2⟩
    dataProvider := ⟨fun _ tf _ _ => .ok (if tf = .oneMinute then gappedBars else quarterBars),
      fun _ _ => []⟩
    additionalIndicatorSpecs := [⟨.fifteenMinute, 1, 2⟩] }

def gappedBundle : TimeFrameIndicatorSpec × List ConfirmedCandle :=
  (⟨.fifteenMinute, 1, 2⟩, quarterBars)

def gappedSpecs : List TimeFrameIndicatorSpec := [⟨.oneMinute, 1, 2⟩, ⟨.fifteenMinute, 1, 2⟩]

def gappedAdapter : BacktestSnapshotAdapter RecordedSma :=
  (BacktestSnapshotAdapter.new .usdJpy .oneMinute gappedSpecs).toOption.get (by decide)

theorem gappedBars_series : BarSeries .oneMinute gappedBars :=
  ⟨by decide +kernel, by decide +kernel, by decide +kernel⟩

theorem quarterBars_series : BarSeries .fifteenMinute quarterBars :=
  ⟨by decide +kernel, by decide +kernel, by decide +kernel⟩

theorem gappedSpecs_additional : Additional gappedParams gappedSpecs :=
  ⟨by decide, by decide, by decide⟩

/-- At the hour the bar of the third quarter has been thrown away. -/
theorem gapped_asked : ∃ asking : MarketSnapshot × BacktestSnapshotAdapter RecordedSma,
    asked gappedParams gappedBars [gappedBundle] gappedAdapter 0 ⟨none, none⟩ 4 (by decide) =
        .ok asking ∧
      ((get asking.2.states .fifteenMinute).any
        fun st => st.fed.map (·.openTime) = [0, 900000, 2700000]) = true :=
  exists_ok (by decide +kernel)

theorem asked_with_closed_gapped : ∃ adapter' : BacktestSnapshotAdapter RecordedSma, ∃ st,
    get adapter'.states .fifteenMinute = some st ∧
      st.fed = closedBy 3600000 (quarterBars.take 2) ++
        (closedBy 3600000 (quarterBars.drop 2)).filter
          (fun c => c.closeTime ∈ askedCloses gappedParams gappedBars 4) := by
  obtain ⟨⟨snapshot, adapter'⟩, hasked, -⟩ := gapped_asked
  have hadapter : BacktestSnapshotAdapter.new .usdJpy gappedParams.config.timeframe gappedSpecs =
    .ok gappedAdapter := rfl
  obtain ⟨st, hst, hfed, -, -⟩ := asked_with_closed hadapter gappedSpecs_additional rfl
    gappedBars_series (List.mem_singleton_self gappedBundle) quarterBars_series (by decide) hasked
    (by decide +kernel)
  exact ⟨adapter', st, hst, hfed⟩

/-- The provider serves whole bars in order, all of the requested period, and at the hour
the rules are asked without a bar that has closed. -/
theorem exists_lost_bar :
    fetch gappedParams = .ok (gappedBars, [gappedBundle]) ∧
      BarSeries .oneMinute gappedBars ∧ BarSeries .fifteenMinute quarterBars ∧
      Additional gappedParams gappedSpecs ∧
      BacktestSnapshotAdapter.new .usdJpy gappedParams.config.timeframe gappedSpecs =
        .ok gappedAdapter ∧
      ∃ snapshot adapter' st, asked gappedParams gappedBars [gappedBundle] gappedAdapter 0
          ⟨none, none⟩ 4 (by decide) = .ok (snapshot, adapter') ∧
        get adapter'.states .fifteenMinute = some st ∧
        gappedBars[4].closeTime = 3600000 ∧ ¬ st.ShowsClosed 3600000 quarterBars := by
  obtain ⟨⟨snapshot, adapter'⟩, hasked, hfed⟩ := gapped_asked
  obtain ⟨st, hst, hfed⟩ := (Option.any_eq_true _ _).mp hfed
  refine ⟨rfl, gappedBars_series, quarterBars_series, gappedSpecs_additional, rfl, snapshot,
    adapter', st, hasked, hst, rfl, fun hshows => ?_⟩
  have hopen : (closedBy 3600000 quarterBars).map (·.openTime) = [0, 900000, 2700000] :=
    hshows.fed ▸ of_decide_eq_true hfed
  exact absurd hopen (by decide +kernel)

end OhlcEngine

end Luchida
