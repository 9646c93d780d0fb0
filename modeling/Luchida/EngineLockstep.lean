import Luchida.EngineBars
import Luchida.EngineRounds
import Luchida.HigherTimeFrames

/- The two backtests over one table of ticks. Where the warm-up is filled, both begin with the
   same adapter, and then they go in lockstep: a tick that confirms no bar leaves the rules of
   the tick engine alone, and one that does is the open of the bar after the one it confirms,
   which is the next round of the OHLC engine (`Lockstep`). In each of these rounds the rules
   of the two are shown the same bar, the same forming price and the same values of the
   indicators (`SameShown`). What differs is the quote, and the time that the candles are
   dated at. -/
namespace Luchida

open OrderedMap Throws

/-! ## One accumulator -/

namespace CandleAccumulator

variable {acc acc' : CandleAccumulator} {done : List Confirmation} {tick : Tick}
  {ticks : List Tick}

theorem watch_from (done : List Confirmation) (acc : CandleAccumulator) (tick : Tick) :
    watch (done, acc) tick =
      (watch ([], acc) tick).map (fun seen => (done ++ seen.1, seen.2)) := by
  unfold watch
  cases h : acc.accumulate tick with
  | error e => rfl
  | ok r =>
    obtain ⟨event, acc'⟩ := r
    cases event with
    | updated => simp [Except.map, bind, Except.bind, pure, Except.pure]
    | confirmed => simp [Except.map, bind, Except.bind, pure, Except.pure]

/-- What was confirmed before stays in front. -/
theorem watchAll_from (done : List Confirmation) (acc : CandleAccumulator) (ticks : List Tick) :
    ticks.foldlM watch (done, acc) =
      (acc.watchAll ticks).map (fun seen => (done ++ seen.1, seen.2)) := by
  unfold watchAll
  induction ticks generalizing done acc with
  | nil => simp [Except.map, pure, Except.pure]
  | cons tick ticks ih =>
    rw [List.foldlM_cons, List.foldlM_cons, watch_from done]
    cases h : watch ([], acc) tick with
    | error e => rfl
    | ok seen =>
      obtain ⟨seen, acc'⟩ := seen
      show ticks.foldlM watch (done ++ seen, acc') = _
      rw [ih]
      show _ = (ticks.foldlM watch (seen, acc')).map _
      rw [ih seen]
      cases ticks.foldlM watch ([], acc') with
      | error e => rfl
      | ok r => simp [Except.map, List.append_assoc]

/-- Watching the first of some ticks. -/
theorem watchAll_cons (h : acc.watchAll (tick :: ticks) = .ok (done, acc')) :
    ∃ seen acc₁ rest, Watched acc [] tick (seen, acc₁) ∧
      watch ([], acc) tick = .ok (seen, acc₁) ∧ acc₁.watchAll ticks = .ok (rest, acc') ∧
      done = seen ++ rest := by
  unfold watchAll at h
  rw [List.foldlM_cons] at h
  obtain ⟨⟨seen, acc₁⟩, hseen, h⟩ := bind_eq_ok.mp h
  rw [watchAll_from] at h
  obtain ⟨seen', hok, hwatched⟩ := watch_ok [] acc tick
  obtain rfl : (seen, acc₁) = seen' := Except.ok.inj (hseen.symm.trans hok)
  cases hrest : acc₁.watchAll ticks with
  | error e =>
    rw [hrest] at h
    cases h
  | ok r =>
    rw [hrest] at h
    cases h
    exact ⟨seen, acc₁, r.1, hwatched, hseen, hrest, rfl⟩

/-- The first bar that is confirmed, or that still forms, is the one that is forming. -/
theorem watchedBars_head (tf : TimeFrame) {f : FormingCandle} (hf : acc.forming = some f)
    (h : acc.watchAll ticks = .ok (done, acc')) :
    ∃ bar rest, watchedBars tf done acc' = bar :: rest ∧ bar.openPrice = f.openPrice ∧
      bar.openTime = tf.periodStart f.openTime := by
  induction ticks generalizing acc f done with
  | nil =>
    cases h
    exact ⟨f.toBar tf, [], by simp [watchedBars, hf], rfl, rfl⟩
  | cons tick ticks ih =>
    obtain ⟨seen, acc₁, rest, hwatched, -, hrest, rfl⟩ := watchAll_cons h
    cases hwatched with
    | first hnone => simp [hf] at hnone
    | @same _ f₁ f' hf₁ hbucket htf hf' hupdate =>
      obtain rfl := Option.some.inj (hf.symm.trans hf₁)
      obtain ⟨bar, bars, hbars, hopen, htime⟩ := ih hf' hrest
      refine ⟨bar, bars, hbars, hopen.trans ?_, ?_⟩
      · unfold FormingCandle.update at hupdate
        split at hupdate
        · cases hupdate
        · cases hupdate
          rfl
      · rw [htime, FormingCandle.update_openTime hupdate]
    | @next f₁ c hf₁ hbucket hc =>
      obtain rfl := Option.some.inj (hf.symm.trans hf₁)
      refine ⟨c.toBar tf, watchedBars tf rest acc', rfl, ?_, ?_⟩
      · show c.openPrice = f.openPrice
        rw [hc]
      · show tf.periodStart c.openTime = _
        rw [hc]

end CandleAccumulator

/-! ## What the rules are shown -/

/-- The OHLC engine shows the same of the time frame in the first snapshot as the tick engine
in the second. -/
structure SameShown (tf : TimeFrame) (snapshot shot : MarketSnapshot) : Prop where
  confirmed : (snapshot.snapshotOf tf).confirmed = (shot.snapshotOf tf).confirmed.toBar tf
  indicators : (snapshot.snapshotOf tf).indicators = (shot.snapshotOf tf).indicators
  forming : ∃ time,
    (shot.snapshotOf tf).forming = { (snapshot.snapshotOf tf).forming with openTime := time }

section
variable {σ : Type} [SmaCalculator σ] {tf : TimeFrame} {a a' a₁ a₁' : BacktestSnapshotAdapter σ}

/-- Two adapters that have been fed the same. -/
structure SameLedger (tf : TimeFrame) (a a' : BacktestSnapshotAdapter σ) : Prop where
  signal : a.signalTimeFrame = tf
  signal' : a'.signalTimeFrame = tf
  numbers : a.numbers = a'.numbers
  ledger : (get a.states tf).map (·.ledger) = (get a'.states tf).map (·.ledger)

theorem makeForming_congr {numbers : NumberArithmetic} {price : Price} {tick tick' : Tick}
    {f f' : FormingCandle} (h : makeForming numbers price tick tf = .ok f)
    (h' : makeForming numbers price tick' tf = .ok f') :
    f' = { f with openTime := tick'.timestamp } := by
  obtain ⟨ask, hask, h⟩ := bind_eq_ok.mp h
  obtain ⟨bid, hbid, h⟩ := bind_eq_ok.mp h
  obtain ⟨quote, hquote, h⟩ := bind_eq_ok.mp h
  cases h
  obtain ⟨ask', hask', h'⟩ := bind_eq_ok.mp h'
  obtain ⟨bid', hbid', h'⟩ := bind_eq_ok.mp h'
  obtain ⟨quote', hquote', h'⟩ := bind_eq_ok.mp h'
  cases h'
  obtain rfl := Except.ok.inj (hask.symm.trans hask')
  obtain rfl := Except.ok.inj (hbid.symm.trans hbid')
  unfold Tick.of at hquote hquote'
  split at hquote
  · rename_i hlt
    rw [dif_pos hlt] at hquote'
    cases hquote
    cases hquote'
    rfl
  · cases hquote

/-- What is shown of the signal time frame. -/
theorem timeFrameSnapshot_ok {c newCandle : ConfirmedCandle} {tick : Tick}
    {forming : FormingCandle} {st : TimeFrameState σ} {shot : TimeFrameSnapshot}
    (hsignal : a.signalTimeFrame = tf) (hst : get a.states tf = some st)
    (hlast : st.lastConfirmed = some c)
    (h : a.timeFrameSnapshot newCandle tick forming tf = .ok shot) :
    shot.confirmed = c ∧ shot.forming = forming ∧
      st.ledger.currentValues = .ok shot.indicators := by
  unfold BacktestSnapshotAdapter.timeFrameSnapshot at h
  rw [hst, Option.bind_some, hlast, Option.map_some] at h
  dsimp only at h
  rw [if_pos hsignal.symm] at h
  obtain ⟨forming', hforming, h⟩ := bind_eq_ok.mp h
  cases hforming
  obtain ⟨indicators, hvalues, h⟩ := bind_eq_ok.mp h
  have hshot := mapError_eq_ok.mp h
  unfold TimeFrameSnapshot.of at hshot
  split at hshot
  · split at hshot
    · cases hshot
      exact ⟨rfl, rfl, mapError_eq_ok.mp hvalues⟩
    · cases hshot
  · cases hshot

/-- Fed the same bar, dated by its bucket and by its first tick, and the same open after it. -/
theorem SameLedger.addCandleAndBuild (h : SameLedger tf a a') {c : ConfirmedCandle}
    {tick tick' : Tick} {nextOpen : Price} {snapshot shot : MarketSnapshot}
    (hbuild : a.addCandleAndBuild (c.toBar tf) tick nextOpen = .ok (snapshot, a₁))
    (hbuild' : a'.addCandleAndBuild c tick' nextOpen = .ok (shot, a₁')) :
    SameLedger tf a₁ a₁' ∧ SameShown tf snapshot shot := by
  obtain ⟨hsignal, hsignal', hnumbers, hledger⟩ := h
  obtain ⟨-, forming, hforming, hstates, -, hshot⟩ :=
    BacktestSnapshotAdapter.addCandleAndBuild_ok hbuild
  obtain ⟨-, forming', hforming', hstates', -, hshot'⟩ :=
    BacktestSnapshotAdapter.addCandleAndBuild_ok hbuild'
  obtain ⟨st, hst⟩ := Option.isSome_iff_exists.mp a.signal_mem
  obtain ⟨st', hst'⟩ := Option.isSome_iff_exists.mp a'.signal_mem
  have hadvanced := BacktestSnapshotAdapter.get_advanced hstates hst
  have hadvanced' := BacktestSnapshotAdapter.get_advanced hstates' hst'
  obtain ⟨-, hkept, -, hsame, -⟩ := BacktestSnapshotAdapter.mapStatesM_ok hstates
  obtain ⟨-, hkept', -, hsame', -⟩ := BacktestSnapshotAdapter.mapStatesM_ok hstates'
  rw [hsignal, hnumbers] at hforming
  rw [hsignal] at hst hadvanced hkept
  rw [hsignal'] at hforming' hst' hadvanced' hkept'
  rw [hst, hst', Option.map_some, Option.map_some, Option.some.injEq] at hledger
  have hprice := makeForming_congr hforming hforming'
  have hledgers : ((st.confirm (c.toBar tf)).updateForming forming).ledger =
      ((st'.confirm c).updateForming forming').ledger := by
    show (st.ledger.onCandleConfirmed (c.toBar tf)).onCandleUpdated forming =
      (st'.ledger.onCandleConfirmed c).onCandleUpdated forming'
    rw [hledger, hprice]
    rfl
  refine ⟨⟨hkept, hkept', hsame.trans (hnumbers.trans hsame'.symm), ?_⟩, ?_⟩
  · rw [hadvanced, hadvanced', Option.map_some, Option.map_some, hledgers]
  · obtain ⟨hconfirmed, hform, hvalues⟩ := timeFrameSnapshot_ok hkept hadvanced rfl (hshot tf)
    obtain ⟨hconfirmed', hform', hvalues'⟩ :=
      timeFrameSnapshot_ok hkept' hadvanced' rfl (hshot' tf)
    refine ⟨by rw [hconfirmed, hconfirmed'], ?_, tick'.timestamp, by rw [hform, hform', hprice]⟩
    rw [hledgers] at hvalues
    exact Except.ok.inj (hvalues.symm.trans hvalues')

end

/-! ## Rounds -/

section
variable {α ω : Type} [SnapshotAdapter α] {params : EngineRunParams ω}

theorem OhlcEngine.Asks.adapter {currentCandle nextCandle : ConfirmedCandle}
    {s s' asked : EngineState α ω} {snapshot : MarketSnapshot}
    (h : Asks params currentCandle nextCandle s snapshot asked)
    (hround : onBar params currentCandle nextCandle s = .ok s') : s'.adapter = asked.adapter := by
  obtain ⟨latestTick, adapter, htick, hbuild, rfl⟩ := h
  rw [onBar_eq_observe] at hround
  obtain ⟨⟨snapshot', adapter'⟩, hobserve, hask⟩ := bind_eq_ok.mp hround
  obtain ⟨latestTick', htick', hbuild'⟩ := bind_eq_ok.mp hobserve
  obtain rfl := Except.ok.inj (htick.symm.trans (mapError_eq_ok.mp htick'))
  obtain ⟨-, rfl⟩ := Prod.mk.inj (Except.ok.inj (hbuild.symm.trans (mapError_eq_ok.mp hbuild')))
  exact (ask_adapter ..).of_ok hask

theorem OhlcEngine.loop_short {bars : List ConfirmedCandle} {s s' : EngineState α ω}
    (hshort : bars.length < 2) (h : loop params bars s = .ok s') : s' = s := by
  cases bars with
  | nil =>
    cases h
    rfl
  | cons c bars =>
    cases bars with
    | nil =>
      cases h
      rfl
    | cons d bars =>
      simp only [List.length_cons] at hshort
      omega

/-- A round of the OHLC engine asks its rules. -/
theorem OhlcEngine.exists_asks {currentCandle nextCandle : ConfirmedCandle}
    {s s' : EngineState α ω} (h : onBar params currentCandle nextCandle s = .ok s') :
    ∃ snapshot asked, Asks params currentCandle nextCandle s snapshot asked := by
  obtain ⟨latestTick, htick, h⟩ := bind_eq_ok.mp h
  obtain ⟨⟨snapshot, adapter⟩, hbuild, -⟩ := bind_eq_ok.mp h
  exact ⟨snapshot, _, latestTick, adapter, mapError_eq_ok.mp htick, mapError_eq_ok.mp hbuild, rfl⟩

namespace TickEngine

variable {t t' asked : TickState α ω} {tick : Tick} {shot : MarketSnapshot}
  {acc : CandleAccumulator} {c : ConfirmedCandle}

/-- A tick that confirms no bar leaves the market side with the accumulator. -/
theorem onTick_updated (hacc : t.accumulator.accumulate tick = .ok (.updated, acc))
    (h : onTick params t tick = .ok t') :
    t'.adapter = t.adapter ∧ t'.accumulator = acc ∧ ∀ shot asked, ¬ Asks tick t shot asked := by
  obtain ⟨shot, kernel, hfeed, hplaces⟩ := (onTick_ends params tick t).of_ok h
  unfold Kernel.feed at hfeed
  rw [hacc] at hfeed
  cases hfeed
  refine ⟨hplaces.adapter, hplaces.accumulator, fun shot asked hasks => ?_⟩
  obtain ⟨acc', -, -, hacc', -⟩ := hasks
  rw [hacc] at hacc'
  cases hacc'

/-- A tick that confirms a bar asks the rules. -/
theorem onTick_confirmed (hacc : t.accumulator.accumulate tick = .ok (.confirmed, acc))
    (hlast : acc.lastConfirmed = some c) (h : onTick params t tick = .ok t') :
    ∃ shot adapter, SnapshotAdapter.addCandleAndBuild t.adapter c tick tick.bid =
        .ok (shot, adapter) ∧ t'.adapter = adapter ∧ t'.accumulator = acc ∧
      Asks tick t shot { receive tick t with accumulator := acc, adapter := adapter } := by
  obtain ⟨shot, kernel, hfeed, hplaces⟩ := (onTick_ends params tick t).of_ok h
  unfold Kernel.feed at hfeed
  rw [hacc, mapError_ok, ok_bind] at hfeed
  dsimp only at hfeed
  rw [hlast] at hfeed
  obtain ⟨⟨shot', adapter⟩, hbuild, hfeed⟩ := bind_eq_ok.mp hfeed
  cases hfeed
  have hbuild := mapError_eq_ok.mp hbuild
  exact ⟨shot', adapter, hbuild, hplaces.adapter, hplaces.accumulator, acc, c, adapter, hacc,
    hlast, hbuild, rfl⟩

end TickEngine

/-- The two runs go on together, from these states to those. `shown` are the snapshots that the
rules are shown, of the OHLC engine and of the tick engine. -/
inductive Lockstep (params : EngineRunParams ω) (s' : EngineState α ω) (t' : TickState α ω) :
    List ConfirmedCandle → EngineState α ω → List Tick → TickState α ω →
      List (MarketSnapshot × MarketSnapshot) → Prop
  | stop {bars : List ConfirmedCandle} : bars.length < 2 → Lockstep params s' t' bars s' [] t' []
  /-- The tick confirms no bar. -/
  | quiet {bars : List ConfirmedCandle} {s : EngineState α ω} {tick : Tick} {ticks : List Tick}
      {t t₁ : TickState α ω} {shown : List (MarketSnapshot × MarketSnapshot)} :
      (∀ shot asked, ¬ TickEngine.Asks tick t shot asked) →
      TickEngine.onTick params t tick = .ok t₁ → Lockstep params s' t' bars s ticks t₁ shown →
      Lockstep params s' t' bars s (tick :: ticks) t shown
  /-- The tick confirms a bar, and opens the next one. -/
  | round {currentCandle nextCandle : ConfirmedCandle} {bars : List ConfirmedCandle}
      {s s₁ asked : EngineState α ω} {tick : Tick} {ticks : List Tick}
      {t t₁ asked' : TickState α ω} {snapshot shot : MarketSnapshot}
      {shown : List (MarketSnapshot × MarketSnapshot)} :
      nextCandle.openTime = params.config.timeframe.periodStart tick.timestamp →
      nextCandle.openPrice = tick.bid →
      OhlcEngine.Asks params currentCandle nextCandle s snapshot asked →
      TickEngine.Asks tick t shot asked' → SameShown params.config.timeframe snapshot shot →
      OhlcEngine.onBar params currentCandle nextCandle s = .ok s₁ →
      TickEngine.onTick params t tick = .ok t₁ →
      Lockstep params s' t' (nextCandle :: bars) s₁ ticks t₁ shown →
      Lockstep params s' t' (currentCandle :: nextCandle :: bars) s (tick :: ticks) t
        ((snapshot, shot) :: shown)

end

section
variable {σ ω : Type} [SmaCalculator σ] {params : EngineRunParams ω}
  {s s' : EngineState (BacktestSnapshotAdapter σ) ω}
  {t t' : TickState (BacktestSnapshotAdapter σ) ω} {done : List Confirmation}
  {acc : CandleAccumulator} {bars : List ConfirmedCandle} {ticks : List Tick}

/-- A loop over the bars that the accumulator of the other makes of its ticks. -/
theorem exists_lockstep (hwatch : t.accumulator.watchAll ticks = .ok (done, acc))
    (hbars : bars = watchedBars params.config.timeframe done acc)
    (hsame : SameLedger params.config.timeframe s.adapter t.adapter)
    (hloop : OhlcEngine.loop params bars s = .ok s')
    (hticks : ticks.foldlM (TickEngine.onTick params) t = .ok t') :
    ∃ shown, Lockstep params s' t' bars s ticks t shown := by
  subst hbars
  induction ticks generalizing s t done with
  | nil =>
    cases hwatch
    obtain rfl : t = t' := Except.ok.inj hticks
    have hshort : (watchedBars params.config.timeframe [] t.accumulator).length < 2 := by
      unfold watchedBars
      cases t.accumulator.forming with
      | none => exact Nat.zero_lt_two
      | some f => exact Nat.one_lt_two
    obtain rfl := OhlcEngine.loop_short hshort hloop
    exact ⟨[], .stop hshort⟩
  | cons tick ticks ih =>
    rw [List.foldlM_cons] at hticks
    obtain ⟨t₁, hround, hticks⟩ := bind_eq_ok.mp hticks
    obtain ⟨seen, acc₁, rest, -, hseen, hrest, rfl⟩ := CandleAccumulator.watchAll_cons hwatch
    obtain ⟨event, acc₂, hacc, hcases⟩ := t.accumulator.accumulate_cases tick
    unfold CandleAccumulator.watch at hseen
    rw [hacc, ok_bind] at hseen
    cases event with
    | updated =>
      obtain ⟨rfl, rfl⟩ : [] = seen ∧ acc₂ = acc₁ := Prod.mk.inj (Except.ok.inj hseen)
      obtain ⟨hadapter, rfl, hquiet⟩ := TickEngine.onTick_updated hacc hround
      have hsame₁ : SameLedger params.config.timeframe s.adapter t₁.adapter := by
        rw [hadapter]
        exact hsame
      obtain ⟨shown, hshown⟩ := ih hrest hsame₁ hticks hloop
      exact ⟨shown, .quiet hquiet hround hshown⟩
    | confirmed =>
      cases hcases with
      | @next f c hf _ _ _ _ =>
        obtain ⟨rfl, rfl⟩ : [⟨c, tick⟩] = seen ∧ t.accumulator.reopen tick (some c) = acc₁ :=
          Prod.mk.inj (Except.ok.inj hseen)
        obtain ⟨shot, adapter, hbuild, hadapter, haccumulator, hasks⟩ :=
          TickEngine.onTick_confirmed hacc rfl hround
        -- the tick opens the bar after the one it confirms
        obtain ⟨nextCandle, bars, hbars, hopen, htime⟩ :=
          CandleAccumulator.watchedBars_head params.config.timeframe rfl hrest
        have hbars' : watchedBars params.config.timeframe ([⟨c, tick⟩] ++ rest) acc =
            c.toBar params.config.timeframe :: nextCandle :: bars := by
          rw [← hbars]
          rfl
        rw [hbars'] at hloop ⊢
        obtain ⟨s₁, hbar, hloop⟩ := bind_eq_ok.mp hloop
        obtain ⟨snapshot, asked, hasked⟩ := OhlcEngine.exists_asks hbar
        have hasked' := hasked
        obtain ⟨latestTick, adapter', -, hobserve, rfl⟩ := hasked'
        have hopen : nextCandle.openPrice = tick.bid := hopen
        rw [hopen] at hobserve
        obtain ⟨hsame₁, hshown⟩ := hsame.addCandleAndBuild hobserve hbuild
        rw [← hbars] at hloop
        have hsame₁ : SameLedger params.config.timeframe s₁.adapter t₁.adapter := by
          rw [hasked.adapter hbar, hadapter]
          exact hsame₁
        rw [← haccumulator] at hrest
        obtain ⟨shown, hlock⟩ := ih hrest hsame₁ hticks hloop
        rw [hbars] at hlock
        exact ⟨(snapshot, shot) :: shown,
          .round htime hopen hasked hasks hshown hbar hround hlock⟩

end

/-! ## Two runs -/

section
variable {r : CandleRequest} {p : TimescaleDataProvider}

/-- With every bucket before the start filled, the provider queries the whole period. -/
theorem TickEngine.WarmUpFilled.fetchCandles_eq (h : WarmUpFilled p.table r) (hsound : p.Sound)
    (haligned : r.timeframe.isAligned r.range.dateFrom = true) (hwarm : 1 ≤ r.warmupCount) :
    (p.fetchCandles r).1 = p.table.query r.pair r.timeframe
      (TimescaleDataProvider.requestedFrom r) r.range.dateTo := by
  rcases p.fetchCandles_cases hsound (requestedFrom_aligned haligned) with hquery | ⟨hnone, -⟩
  · exact hquery
  · -- a filled bucket holds a tick
    have hmem : r.range.dateFrom - r.timeframe.durationMs ∈
        bucketsBefore r.timeframe r.range.dateFrom r.warmupCount :=
      List.mem_map.mpr ⟨0, List.mem_range.mpr hwarm, by simp⟩
    obtain ⟨tick, htick, -⟩ := h _ hmem
    rw [hnone] at htick
    cases htick

/-- There are as many bars before the start as the warm-up takes. -/
theorem TickEngine.WarmUpFilled.length_eq {table : FxTick} (h : WarmUpFilled table r)
    (haligned : r.timeframe.isAligned r.range.dateFrom = true) :
    (table.query r.pair r.timeframe (TimescaleDataProvider.requestedFrom r)
      r.range.dateFrom).length = r.warmupCount := by
  apply le_antisymm
  · have hseries := table.query_series r.pair r.timeframe
      (TimescaleDataProvider.requestedFrom r) r.range.dateFrom
    have hnodup : ((table.query r.pair r.timeframe (TimescaleDataProvider.requestedFrom r)
        r.range.dateFrom).map (·.openTime)).Nodup := by
      refine List.Pairwise.imp Int.ne_of_lt ?_
      exact List.pairwise_map.mpr hseries.ascending
    have hsubset : (table.query r.pair r.timeframe (TimescaleDataProvider.requestedFrom r)
        r.range.dateFrom).map (·.openTime) ⊆
          bucketsBefore r.timeframe r.range.dateFrom r.warmupCount := by
      intro t ht
      obtain ⟨tick, htick, rfl⟩ := FxTick.mem_query.mp ht
      obtain ⟨-, hfrom, hto⟩ := FxTick.mem_between.mp htick
      refine (mem_bucketsBefore haligned).mpr ⟨r.timeframe.isAligned_periodStart _, ?_, ?_⟩
      · exact r.timeframe.le_periodStart (requestedFrom_aligned haligned) hfrom
      · exact (r.timeframe.periodStart_le _).trans_lt hto
    have hle := (hnodup.subperm hsubset).length_le
    rwa [bucketsBefore_length, List.length_map] at hle
  · exact h.length_le haligned

/-- The bars after the warm-up are those of the period. -/
theorem TickEngine.WarmUpFilled.drop_eq {table : FxTick} (h : WarmUpFilled table r)
    (haligned : r.timeframe.isAligned r.range.dateFrom = true)
    (hrange : r.range.dateFrom ≤ r.range.dateTo) :
    (table.query r.pair r.timeframe (TimescaleDataProvider.requestedFrom r)
      r.range.dateTo).drop r.warmupCount =
        table.query r.pair r.timeframe r.range.dateFrom r.range.dateTo := by
  rw [table.query_split r.pair haligned (requestedFrom_le r) hrange]
  exact List.drop_left' (h.length_eq haligned)

end

section
variable {α ω : Type} [SnapshotAdapter α] {params : EngineRunParams ω}

/-- The rules are shown a snapshot after each bar but the last. -/
theorem Lockstep.length {bars : List ConfirmedCandle} {s s' : EngineState α ω} {ticks : List Tick}
    {t t' : TickState α ω} {shown : List (MarketSnapshot × MarketSnapshot)}
    (h : Lockstep params s' t' bars s ticks t shown) : shown.length = bars.length - 1 := by
  induction h with
  | stop hshort =>
    rw [List.length_nil]
    omega
  | quiet _ _ _ ih => exact ih
  | round _ _ _ _ _ _ _ _ ih =>
    simp only [List.length_cons] at ih ⊢
    omega

end

section
variable {σ ω : Type} [SmaCalculator σ] {params : EngineRunParams ω}
  {adapter : BacktestSnapshotAdapter σ} {p : TimescaleDataProvider} {world : ω}
  {shared : SharedState}

/-- How a run of the OHLC engine begins. -/
theorem OhlcEngine.begins_ok (hspecs : params.additionalIndicatorSpecs = [])
    {bars : List ConfirmedCandle} {s : EngineState (BacktestSnapshotAdapter σ) ω}
    (h : Begins (TickEngine.readFrom params p) adapter world shared bars s) :
    bars = (p.fetchCandles (TickEngine.candleRequest params.config)).1.drop
        params.config.warmupCount ∧
      s.adapter = adapter.warmUp
        ((p.fetchCandles (TickEngine.candleRequest params.config)).1.take
          params.config.warmupCount) := by
  obtain ⟨candles, bundles, hfetch, hbegin, rfl⟩ := h
  have hnone : bundles = [] := by
    have hmap := fetch_specs hfetch
    rw [show (TickEngine.readFrom params p).additionalIndicatorSpecs = [] from hspecs] at hmap
    exact List.map_eq_nil_iff.mp hmap
  have hcandles : candles = (p.fetchCandles (TickEngine.candleRequest params.config)).1 := by
    obtain ⟨fetched, hfetched, hfetch⟩ := bind_eq_ok.mp hfetch
    cases hfetched
    obtain ⟨bundles', -, hfetch⟩ := bind_eq_ok.mp hfetch
    split at hfetch
    · cases hfetch
    · split at hfetch
      · cases hfetch
      · cases hfetch
        rfl
  subst hnone hcandles
  obtain ⟨adapter', hwarmUp, hbegin⟩ := bind_eq_ok.mp hbegin
  cases hwarmUp
  cases hbegin
  exact ⟨rfl, rfl⟩

/-- The loop asks no provider. -/
theorem OhlcEngine.loop_readFrom {α : Type} [SnapshotAdapter α] (bars : List ConfirmedCandle)
    (s : EngineState α ω) :
    loop (TickEngine.readFrom params p) bars s = loop params bars s := by
  induction bars generalizing s with
  | nil => rfl
  | cons c bars ih =>
    cases bars with
    | nil => rfl
    | cons d bars =>
      simp only [loop]
      refine congrArg _ (funext fun s₁ => ?_)
      exact ih s₁

/-- Where every bucket before the start holds a tick and no two ticks have one time, the two
backtests of one period that both return go in lockstep: their rules are shown the same after
every bar but the last. -/
theorem engines_lockstep (params : EngineRunParams ω)
    (hspecs : params.additionalIndicatorSpecs = []) (adapter : BacktestSnapshotAdapter σ)
    (hsignal : adapter.signalTimeFrame = params.config.timeframe)
    (haligned : params.config.timeframe.isAligned params.config.dateRange.dateFrom = true)
    (hrange : params.config.dateRange.dateFrom ≤ params.config.dateRange.dateTo)
    (hwarm : 1 ≤ params.config.warmupCount) (table : FxTick)
    (huntied : table.Untied params.config.pair)
    (hfilled : TickEngine.WarmUpFilled table (TickEngine.candleRequest params.config))
    (requests requests' : List CandleRequest) (delayMs : Int) (world world' : ω)
    (shared shared' : SharedState) (s : EngineState (BacktestSnapshotAdapter σ) ω)
    (t : TickState (BacktestSnapshotAdapter σ) ω)
    (hohlc : OhlcEngine.run (TickEngine.readFrom params
      ((TimescaleDataProvider.new table).after requests)) adapter world shared = .ok s)
    (htick : TickEngine.run (TickEngine.readFrom params
      ((TimescaleDataProvider.new table).after requests')) delayMs adapter world' shared' =
        .ok t) :
    ∃ bars start start' looped looped' shown,
      OhlcEngine.Begins (TickEngine.readFrom params
        ((TimescaleDataProvider.new table).after requests)) adapter world shared bars start ∧
      TickEngine.begin (TickEngine.readFrom params
        ((TimescaleDataProvider.new table).after requests')) delayMs adapter world' shared' =
          .ok start' ∧
      Lockstep params looped looped' bars start
        (table.between params.config.pair params.config.dateRange.dateFrom
          params.config.dateRange.dateTo) start' shown ∧
      shown.length = bars.length - 1 := by
  obtain ⟨hsound, htable⟩ :=
    TimescaleDataProvider.after_sound (TimescaleDataProvider.new_sound table) requests
  obtain ⟨hsound', htable'⟩ :=
    TimescaleDataProvider.after_sound (TimescaleDataProvider.new_sound table) requests'
  generalize (TimescaleDataProvider.new table).after requests = p at *
  generalize (TimescaleDataProvider.new table).after requests' = p' at *
  obtain rfl : p.table = table := htable
  have htable' : p'.table = p.table := htable'
  obtain ⟨bars, start, looped, hbegins, hloop⟩ := OhlcEngine.exists_loop hohlc
  obtain ⟨start', looped', hbegin, hticks, -⟩ := TickEngine.run_ok htick
  obtain ⟨hbars, hadapter⟩ := OhlcEngine.begins_ok hspecs hbegins
  obtain ⟨warmup, hwarmup, hadapter', haccumulator, -⟩ := TickEngine.begin_ok hbegin
  have hquery := hfilled.fetchCandles_eq hsound haligned hwarm
  have hquery' := (htable'.symm ▸ hfilled : TickEngine.WarmUpFilled p'.table _).fetchCandles_eq
    hsound' haligned hwarm
  rw [htable'] at hquery'
  rw [hquery] at hbars hadapter
  rw [(TickEngine.fetchWarmUp_ok hwarm hwarmup).2, hquery'] at hadapter'
  rw [show params.config.warmupCount = (TickEngine.candleRequest params.config).warmupCount
    from rfl, hfilled.drop_eq haligned hrange] at hbars
  have hsame : SameLedger params.config.timeframe start.adapter start'.adapter := by
    rw [hadapter, ← Except.ok.inj hadapter']
    exact ⟨hsignal, hsignal, rfl, rfl⟩
  have hticks : (p.table.between params.config.pair params.config.dateRange.dateFrom
      params.config.dateRange.dateTo).foldlM (TickEngine.onTick params) start' = .ok looped' := by
    rw [← htable']
    exact hticks
  have hin : InBuckets params.config.timeframe (p.table.between params.config.pair
      params.config.dateRange.dateFrom params.config.dateRange.dateTo) :=
    .of_timestamps (p.table.between_ordered ..)
  obtain ⟨done, acc, hwatch, hagg⟩ :=
    (CandleAccumulator.new params.config.timeframe).aggregated_of_inBuckets rfl hin
  rw [← haccumulator] at hwatch
  have hwatched : bars = watchedBars params.config.timeframe done acc :=
    hbars.trans (FxTick.query_eq_watchedBars huntied hagg)
  rw [OhlcEngine.loop_readFrom] at hloop
  obtain ⟨shown, hlock⟩ := exists_lockstep hwatch hwatched hsame hloop hticks
  exact ⟨bars, start, start', looped, looped', shown, hbegins, hbegin, hlock, hlock.length⟩

end

/-- The third to the fifth minute, after a warm-up of two. -/
theorem engines_lockstep_full :
    ∃ s t, OhlcEngine.run (TickEngine.readFrom
        (quietParams (idealExecutionSimulator countedIds) [] []) (.new TickEngine.fullTable))
        quietAdapter 0 ⟨none, none⟩ = .ok s ∧
      TickEngine.run (TickEngine.readFrom (quietParams (idealExecutionSimulator countedIds) [] [])
        (.new TickEngine.fullTable)) 100 quietAdapter 0 ⟨none, none⟩ = .ok t ∧
      ∃ bars start start' looped looped' shown,
        OhlcEngine.Begins (TickEngine.readFrom
          (quietParams (idealExecutionSimulator countedIds) [] []) (.new TickEngine.fullTable))
          quietAdapter 0 ⟨none, none⟩ bars start ∧
        TickEngine.begin (TickEngine.readFrom
          (quietParams (idealExecutionSimulator countedIds) [] []) (.new TickEngine.fullTable))
          100 quietAdapter 0 ⟨none, none⟩ = .ok start' ∧
        Lockstep (quietParams (idealExecutionSimulator countedIds) [] []) looped looped' bars start
          (TickEngine.fullTable.between .usdJpy 120000 300000) start' shown ∧
        shown.length = bars.length - 1 := by
  have hohlc : ∃ s, OhlcEngine.run (TickEngine.readFrom
      (quietParams (idealExecutionSimulator countedIds) [] []) (.new TickEngine.fullTable))
      quietAdapter 0 ⟨none, none⟩ = .ok s ∧ true = true := exists_ok (by decide +kernel)
  have htick : ∃ t, TickEngine.run (TickEngine.readFrom
      (quietParams (idealExecutionSimulator countedIds) [] []) (.new TickEngine.fullTable)) 100
      quietAdapter 0 ⟨none, none⟩ = .ok t ∧ true = true := exists_ok (by decide +kernel)
  obtain ⟨s, hs, -⟩ := hohlc
  obtain ⟨t, ht, -⟩ := htick
  have hfilled : TickEngine.WarmUpFilled TickEngine.fullTable (TickEngine.candleRequest
      (quietParams (idealExecutionSimulator countedIds) [] []).config) := by
    unfold TickEngine.WarmUpFilled
    decide +kernel
  exact ⟨s, t, hs, ht, engines_lockstep (quietParams (idealExecutionSimulator countedIds) [] [])
    rfl quietAdapter rfl (by decide) (by decide) (by decide) TickEngine.fullTable
    (by unfold FxTick.Untied; decide +kernel) hfilled [] [] 100 0 0 ⟨none, none⟩ ⟨none, none⟩ s t
    hs ht⟩

end Luchida
