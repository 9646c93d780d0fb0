import Luchida.BarHistory
import Luchida.LedgerRefinement
import Luchida.Throws

/- Can a session that has started evaluate every tick? `onTick` goes through the time
   frames in order and throws at the first whose SMA is not stable, when those before it
   have taken the tick. A time frame is `Ready` when a snapshot can be taken of it once a
   tick has come; ticks keep it ready (`processEntry_ready`), and so does every official
   list, accepted or not (`Ready.reconciled`).

   `warmUp` checks its list in every way but its length, so a session starts with lists
   too short for the SMA, and then no tick of it is evaluated (`exists_blind_start`).
   Lists that fill the long window are what it takes (`evaluatesEveryTick_iff`). -/
namespace Luchida

/-! ## One time frame -/

section
variable {σ : Type} [SmaCalculator σ] {average : List ℚ → ℚ} {config : IndicatorConfig}
  {tf : TimeFrame} {hist : History}

/-- A ledger that stands where a history puts it, with both windows full. -/
structure Stable (average : List ℚ → ℚ) (config : IndicatorConfig) (hist : History)
    (ledger : IndicatorLedger σ) : Prop where
  tracks : LedgerTracks average config.shortSmaPeriod config.longSmaPeriod hist ledger
  positive : hist.Positive
  full : config.longSmaPeriod ≤ hist.closes.length

namespace Stable

variable {ledger : IndicatorLedger σ} (hσ : AveragesBy average σ)
include hσ

theorem currentValues_ok (h : Stable average config hist ledger) :
    ∃ v, ledger.currentValues = .ok v ∧
      Stateless average config.shortSmaPeriod config.longSmaPeriod hist v := by
  have hfull : max config.shortSmaPeriod config.longSmaPeriod ≤ hist.closes.length := by
    rw [config.max_periods]
    exact h.full
  exact h.tracks.currentValues_ok config.short_pos config.long_pos hσ h.positive hfull

theorem onConfirmed (h : Stable average config hist ledger) (candle : ConfirmedCandle) :
    Stable average config (hist.after (.onCandleConfirmed candle))
      (ledger.onCandleConfirmed candle) where
  tracks := ⟨h.tracks.short.onConfirmed hσ _, h.tracks.long.onConfirmed hσ _⟩
  positive := History.after_positive h.positive _
  full := by
    have := h.full
    simp only [History.after, List.length_append, List.length_singleton]
    omega

theorem onUpdated (h : Stable average config hist ledger) (forming : FormingCandle) :
    Stable average config (hist.after (.onCandleUpdated forming))
      (ledger.onCandleUpdated forming) where
  tracks := ⟨h.tracks.short.onUpdated hσ _, h.tracks.long.onUpdated hσ _⟩
  positive := History.after_positive h.positive _
  full := h.full

theorem warmUp {candles : List ConfirmedCandle} (hlong : config.longSmaPeriod ≤ candles.length) :
    Stable average config (.ofWarmUp candles) ((IndicatorLedger.new config.shortSmaPeriod
      config.longSmaPeriod : IndicatorLedger σ).warmUp candles) where
  tracks := LedgerTracks.warmUp config.short_pos
    config.long_pos hσ candles
  positive := History.ofWarmUp_positive candles
  full := by simpa [History.ofWarmUp] using hlong

end Stable

/-- An entry of the book from which a snapshot can be taken once a tick has come. -/
structure Ready (average : List ℚ → ℚ) (config : IndicatorConfig) (tf : TimeFrame) (hist : History)
    (entry : TimeFrameEntry σ) : Prop where
  ledger : Stable average config hist entry.ledger
  timeFrame : entry.accumulator.timeFrame = tf
  confirmed : ∃ c, entry.accumulator.lastConfirmed = some c ∧ c.timeFrame = tf

/-- What a tick does to an entry that is ready: it shows its confirmed candle and the
values of its history. -/
structure Shows (average : List ℚ → ℚ) (config : IndicatorConfig) (tf : TimeFrame)
    (hist : History) (acc : CandleAccumulator) (event : CandleEvent) (hist' : History)
    (shot : TimeFrameSnapshot) : Prop where
  confirmed : acc.lastConfirmed = some shot.confirmed
  indicators : Stateless average config.shortSmaPeriod config.longSmaPeriod hist' shot.indicators
  closes : hist'.closes = match event with
    | .confirmed => hist.closes ++ [shot.confirmed.close.value]
    | .updated => hist.closes

theorem snapshotEntry_ok (hσ : AveragesBy average σ) {acc : CandleAccumulator}
    {ledger : IndicatorLedger σ} {f : FormingCandle} {c : ConfirmedCandle}
    (h : Stable average config hist ledger) (hf : acc.forming = some f)
    (hftf : f.timeFrame = tf) (hc : acc.lastConfirmed = some c) (hctf : c.timeFrame = tf) :
    ∃ shot, TimeFrameBook.snapshotEntry tf acc ledger = .ok shot ∧ shot.confirmed = c ∧
      Stateless average config.shortSmaPeriod config.longSmaPeriod hist shot.indicators := by
  obtain ⟨v, hv, hstateless⟩ := h.currentValues_ok hσ
  unfold TimeFrameBook.snapshotEntry
  simp only [hf, hc, hv, TimeFrameSnapshot.of, hctf, hftf, ↓reduceDIte]
  exact ⟨_, rfl, rfl, hstateless⟩

/-- A tick leaves a ready entry ready, and nothing throws. -/
theorem processEntry_ready (hσ : AveragesBy average σ) {entry : TimeFrameEntry σ}
    (h : Ready average config tf hist entry) (tick : Tick) :
    ∃ event acc hist' shot, entry.accumulator.accumulate tick = .ok (event, acc) ∧
      (TimeFrameBook.processEntry tf entry tick).1 = .ok shot ∧
      (TimeFrameBook.processEntry tf entry tick).2.accumulator = acc ∧
      Ready average config tf hist' (TimeFrameBook.processEntry tf entry tick).2 ∧
      Shows average config tf hist acc event hist' shot := by
  obtain ⟨event, acc, hacc, hcases⟩ := entry.accumulator.accumulate_cases tick
  have htf : acc.timeFrame = tf := hcases.timeFrame_eq.trans h.timeFrame
  have hsound : ∀ f, acc.forming = some f → f.timeFrame = tf := fun f hf =>
    (acc.sound f hf).1.trans htf
  obtain ⟨last, hlast, hlastTf⟩ := h.confirmed
  -- a tick that does not confirm changes the forming side only
  have hupdated : ∀ f, event = .updated → acc.forming = some f → acc.lastConfirmed = some last →
      ∃ hist' shot, (TimeFrameBook.processEntry tf entry tick).1 = .ok shot ∧
        (TimeFrameBook.processEntry tf entry tick).2.accumulator = acc ∧
        Ready average config tf hist' (TimeFrameBook.processEntry tf entry tick).2 ∧
        Shows average config tf hist acc event hist' shot := by
    intro f hevent hf hl
    subst hevent
    have hledger := h.ledger.onUpdated hσ f
    obtain ⟨shot, hshot, rfl, hstateless⟩ := snapshotEntry_ok hσ hledger hf (hsound f hf) hl hlastTf
    have hprocess : TimeFrameBook.processEntry tf entry tick =
        (.ok shot, ⟨acc, entry.ledger.onCandleUpdated f⟩) := by
      rw [← hshot]
      simp only [TimeFrameBook.processEntry, hacc, TimeFrameBook.advanceLedger, hf]
    rw [hprocess]
    exact ⟨_, shot, rfl, rfl, ⟨hledger, htf, _, hl, hlastTf⟩, hl, hstateless, rfl⟩
  cases hcases with
  | first hf =>
    obtain ⟨hist', shot, hrest⟩ := hupdated _ rfl rfl hlast
    exact ⟨_, _, hist', shot, hacc, hrest⟩
  | same hf hb htf' hl hf' ho =>
    obtain ⟨hist', shot, hrest⟩ := hupdated _ rfl hf' (hl.trans hlast)
    exact ⟨_, _, hist', shot, hacc, hrest⟩
  | @next f c hf hb ho hc hctf =>
    have hcTf : c.timeFrame = tf := hctf.trans h.timeFrame
    have hconfirmed := h.ledger.onConfirmed hσ c
    have hledger := hconfirmed.onUpdated hσ (.openWith tick entry.accumulator.timeFrame)
    obtain ⟨log, hlog⟩ := hconfirmed.tracks.snapshotOrNull_ok config.short_pos
      config.long_pos hσ hconfirmed.positive
    have hforming : (entry.accumulator.reopen tick (some c)).forming =
      some (.openWith tick entry.accumulator.timeFrame) := rfl
    obtain ⟨shot, hshot, rfl, hstateless⟩ :=
      snapshotEntry_ok hσ hledger hforming h.timeFrame rfl hcTf
    have hprocess : TimeFrameBook.processEntry tf entry tick =
        (.ok shot, ⟨entry.accumulator.reopen tick (some shot.confirmed),
          (entry.ledger.onCandleConfirmed shot.confirmed).onCandleUpdated
            (.openWith tick entry.accumulator.timeFrame)⟩) := by
      rw [← hshot]
      simp only [TimeFrameBook.processEntry, hacc, TimeFrameBook.advanceLedger,
        CandleAccumulator.reopen, hlog]
    rw [hprocess]
    exact ⟨_, _, _, shot, hacc, rfl, rfl, ⟨hledger, h.timeFrame, _, rfl, hcTf⟩, rfl,
      hstateless, rfl⟩

/-- An official list that is accepted puts its last candle in place of the confirmed one,
and the SMAs start over from it. It has the bars that takes. -/
theorem Ready.reconciled (hσ : AveragesBy average σ) {book : TimeFrameBook σ}
    {official : List ConfirmedCandle}
    {acc : CandleAccumulator} (h : Ready average config tf hist (book.entries tf))
    (hacc : book.acceptOfficial tf official = .ok (some acc))
    (hrequired : (book.entries tf).ledger.requiredBarsForStable = config.longSmaPeriod) :
    Ready average config tf (.ofWarmUp official)
      ⟨acc, ((book.entries tf).ledger.reconcileWith official).2⟩ := by
  obtain ⟨htf, -, last, hlast, haccepts⟩ := TimeFrameBook.acceptOfficial_ok hacc
  have htimeFrame := checkCandles_timeFrame (TimeFrameBook.checkCandles_of_acceptOfficial hacc)
  have henough := haccepts.enough
  rw [hrequired] at henough
  refine ⟨⟨?_, History.ofWarmUp_positive official, ?_⟩, htf, last, hlast, ?_⟩
  · exact h.ledger.tracks.apply config.short_pos config.long_pos hσ h.ledger.positive
      (.reconcileWith official)
  · rw [History.ofWarmUp, List.length_map]
    exact henough
  · exact htimeFrame last (List.mem_of_getLast? haccepts.last_eq)

theorem reconcileWith_required (ledger : IndicatorLedger σ) (official : List ConfirmedCandle) :
    (ledger.reconcileWith official).2.requiredBarsForStable = ledger.requiredBarsForStable := by
  unfold IndicatorLedger.reconcileWith
  split
  · rfl
  · dsimp only
    split <;> rfl

/-! ## Warm-up -/

variable {book : TimeFrameBook σ}

/-- Warm-up lists that the book accepts: of their time frame, ascending, and long enough
for both windows. -/
structure WarmUpLists (config : IndicatorConfig) (history : TimeFrame → List ConfirmedCandle) :
    Prop where
  timeFrame : ∀ tf, ∀ c ∈ history tf, c.timeFrame = tf
  ascending : ∀ tf, (history tf).Pairwise (fun a b => a.openTime < b.openTime)
  long : ∀ tf, config.longSmaPeriod ≤ (history tf).length

variable {history : TimeFrame → List ConfirmedCandle}

/-- Such lists warm up any book. -/
theorem WarmUpLists.exists_warmUpFrom (h : WarmUpLists config history) (tfs : List TimeFrame)
    (book : TimeFrameBook σ) : ∃ book', BarState.warmUpFrom history tfs book = .ok book' := by
  induction tfs generalizing book with
  | nil => exact ⟨book, rfl⟩
  | cons tf tfs ih =>
    have hpos : 0 < (history tf).length := Nat.lt_of_lt_of_le config.long_pos (h.long tf)
    have hcheck : checkCandles .warmUp tf (history tf) = .ok () := by
      unfold checkCandles
      rw [if_neg (by omega), if_neg, if_neg]
      · simpa using ascendingByOpenTime_iff.mpr (h.ascending tf)
      · simpa using h.timeFrame tf
    have hwarm : ∃ book₁, book.warmUp tf (history tf) = .ok book₁ := by
      unfold TimeFrameBook.warmUp
      rw [hcheck]
      dsimp only
      split
      · rename_i e he
        unfold CandleAccumulator.seedHistory at he
        split at he
        · rename_i hnone
          simp [List.getLast?_eq_none_iff.mp hnone] at hpos
        · cases he
      · exact ⟨_, rfl⟩
    obtain ⟨book₁, hbook₁⟩ := hwarm
    simp only [BarState.warmUpFrom, hbook₁]
    exact ih book₁

theorem WarmUpLists.ready (hσ : AveragesBy average σ) (h : WarmUpLists config history)
    {pair : CurrencyPair}
    (hbook : BarState.warmUpFrom history TimeFrame.liveTimeframes (.new pair config) = .ok book)
    (tf : TimeFrame) : Ready average config tf (.ofWarmUp (history tf)) (book.entries tf) := by
  have hentry := ((BarState.warmUpFrom_ok TimeFrame.liveTimeframes_nodup hbook tf).2
    (TimeFrame.mem_liveTimeframes tf)).2
  rw [hentry]
  refine ⟨Stable.warmUp hσ (h.long tf), rfl, ?_⟩
  cases hlast : (history tf).getLast? with
  | none =>
    have hlong := h.long tf
    have hlt := config.short_lt_long
    rw [List.getLast?_eq_none_iff.mp hlast, List.length_nil] at hlong
    omega
  | some c => exact ⟨c, rfl, h.timeFrame tf c (List.mem_of_getLast? hlast)⟩

/-- A book whose warm-up did not throw was given lists that pass the checks. -/
theorem checkCandles_of_warmUpFrom {tfs : List TimeFrame} {book' : TimeFrameBook σ}
    (h : BarState.warmUpFrom history tfs book = .ok book') :
    ∀ tf ∈ tfs, checkCandles .warmUp tf (history tf) = .ok () := by
  induction tfs generalizing book with
  | nil => simp
  | cons tf tfs ih =>
    simp only [BarState.warmUpFrom] at h
    split at h
    · cases h
    · rename_i mid hmid
      intro tf' hmem
      rcases List.mem_cons.mp hmem with rfl | hmem
      · unfold TimeFrameBook.warmUp at hmid
        split at hmid
        · cases hmid
        · rename_i hcheck
          exact hcheck
      · exact ih h tf' hmem

theorem warmUp_required (ledger : IndicatorLedger σ) (candles : List ConfirmedCandle) :
    (ledger.warmUp candles).requiredBarsForStable = ledger.requiredBarsForStable := by
  unfold IndicatorLedger.warmUp
  induction candles generalizing ledger with
  | nil => rfl
  | cons c candles ih =>
    rw [List.foldl_cons, ih]
    rfl

end

/-! ## Sessions -/

namespace BarState

variable {σ : Type} [SmaCalculator σ] {average : List ℚ → ℚ} {pair : CurrencyPair}
  {config : IndicatorConfig} {history : TimeFrame → List ConfirmedCandle} {s₀ s : BarState σ}

/-- Whatever ticks come and whatever official lists, `onTick` does not throw and every
time frame takes the tick. -/
structure EvaluatesEveryTick (s₀ : BarState σ) : Prop where
  shown : ∀ s, Runs.Reaches step (fun _ _ => True) s₀ s → ∀ tick now,
    ∃ snapshot, (s.book.onTick tick now).1 = .ok snapshot
  taken : ∀ s, Runs.Reaches step (fun _ _ => True) s₀ s → ∀ tick now tf,
    (s.book.onTick tick now).2.entries tf =
      (TimeFrameBook.processEntry tf (s.book.entries tf) tick).2

/-- What every run keeps: the time frames are ready, and none of them settles for fewer
bars. -/
structure AllReady (average : List ℚ → ℚ) (config : IndicatorConfig) (s : BarState σ) : Prop where
  ready : ∀ tf, ∃ hist, Ready average config tf hist (s.book.entries tf)
  required : ∀ tf, (s.book.entries tf).ledger.requiredBarsForStable = config.longSmaPeriod

/-- Where all time frames are ready no tick throws. -/
theorem AllReady.onTick (hσ : AveragesBy average σ) (h : s.AllReady average config)
    (tick : Tick) (now : Int) :
    ∃ snapshot, (s.book.onTick tick now).1 = .ok snapshot ∧
      ∀ tf, (s.book.onTick tick now).2.entries tf =
        (TimeFrameBook.processEntry tf (s.book.entries tf) tick).2 := by
  have hok : ∀ tf, ∃ shot,
      (TimeFrameBook.processEntry tf (s.book.entries tf) tick).1 = .ok shot := by
    intro tf
    obtain ⟨hist, hready⟩ := h.ready tf
    obtain ⟨-, -, -, shot, -, hshot, -⟩ := processEntry_ready hσ hready tick
    exact ⟨shot, hshot⟩
  obtain ⟨snapshot, hsnapshot, hall⟩ := TimeFrameBook.exists_onTick now hok
  exact ⟨snapshot, hsnapshot, fun tf => (hall tf).2⟩

theorem AllReady.step (hσ : AveragesBy average σ) {a : BarLabel} {s' : BarState σ}
    (h : s.AllReady average config)
    (hstep : BarState.step s a = some s') : s'.AllReady average config := by
  cases a with
  | onTick tick now =>
    obtain ⟨-, -, hentries⟩ := h.onTick hσ tick now
    cases hstep
    refine ⟨fun tf => ?_, fun tf => ?_⟩
    · obtain ⟨hist, hready⟩ := h.ready tf
      obtain ⟨-, -, hist', -, -, -, -, hready', -⟩ := processEntry_ready hσ hready tick
      exact ⟨hist', by rw [hentries tf]; exact hready'⟩
    · show ((s.book.onTick tick now).2.entries tf).ledger.requiredBarsForStable = _
      rw [hentries tf]
      exact TimeFrameBook.processEntry_ledger
        (P := fun ledger => ledger.requiredBarsForStable = config.longSmaPeriod)
        (fun _ _ h => h) (fun _ _ h => h) tf tick (h.required tf)
  | reconcile tf official now =>
    cases hstep
    refine ⟨fun tf' => ?_, fun tf' => ?_⟩
    · show ∃ hist, Ready average config tf' hist ((s.book.reconcile tf official now).2.entries tf')
      rcases s.book.reconcile_entries tf official now tf' with heq | ⟨rfl, acc, hacc, heq⟩
      · rw [heq]
        exact h.ready tf'
      · obtain ⟨hist, hready⟩ := h.ready tf'
        rw [heq]
        exact ⟨_, hready.reconciled hσ hacc (h.required tf')⟩
    · show ((s.book.reconcile tf official now).2.entries tf').ledger.requiredBarsForStable = _
      rcases s.book.reconcile_entries tf official now tf' with heq | ⟨rfl, acc, hacc, heq⟩
      · rw [heq]
        exact h.required tf'
      · rw [heq]
        exact (reconcileWith_required _ _).trans (h.required tf')

/-- A session that started with lists that fill the long window. -/
theorem allReady_warmedUp (hσ : AveragesBy average σ) (h₀ : warmedUp pair config history = .ok s₀)
    (hlong : ∀ tf, config.longSmaPeriod ≤ (history tf).length) : s₀.AllReady average config := by
  unfold warmedUp at h₀
  split at h₀
  · cases h₀
  · rename_i book hbook
    cases h₀
    have hcheck := fun tf => checkCandles_of_warmUpFrom hbook tf (TimeFrame.mem_liveTimeframes tf)
    have hlists : WarmUpLists config history :=
      ⟨fun tf => checkCandles_timeFrame (hcheck tf), fun tf => (checkCandles_ok (hcheck tf)).2,
        hlong⟩
    refine ⟨fun tf => ⟨_, hlists.ready hσ hbook tf⟩, fun tf => ?_⟩
    have hentry := ((warmUpFrom_ok TimeFrame.liveTimeframes_nodup hbook tf).2
      (TimeFrame.mem_liveTimeframes tf)).2
    rw [hentry]
    refine (warmUp_required _ _).trans ?_
    exact config.max_periods

/-- The first tick finds a time frame whose long window is not full, and throws. -/
theorem processEntry_error_of_short (hσ : AveragesBy average σ)
    (h₀ : warmedUp pair config history = .ok s₀)
    {tf : TimeFrame} (hshort : (history tf).length < config.longSmaPeriod) (tick : Tick) :
    (TimeFrameBook.processEntry tf (s₀.book.entries tf) tick).1 = .error (.ledger .notStable) := by
  unfold warmedUp at h₀
  split at h₀
  · cases h₀
  · rename_i book hbook
    cases h₀
    have hcheck := checkCandles_of_warmUpFrom hbook tf (TimeFrame.mem_liveTimeframes tf)
    have hentry := ((warmUpFrom_ok TimeFrame.liveTimeframes_nodup hbook tf).2
      (TimeFrame.mem_liveTimeframes tf)).2
    have htracks := LedgerTracks.warmUp config.short_pos
      config.long_pos hσ (history tf)
    have hnone : ((IndicatorLedger.new config.shortSmaPeriod config.longSmaPeriod :
        IndicatorLedger σ).warmUp (history tf)).long.current = none := by
      rw [htracks.long.current]
      refine Window.fullAverage_eq_none le_rfl ?_
      rw [History.ofWarmUp, List.length_map]
      exact not_le.mpr hshort
    -- the tick opens the first candle, which the confirmed SMA does not see
    have hvalues : ∀ f : FormingCandle, (((IndicatorLedger.new config.shortSmaPeriod
        config.longSmaPeriod : IndicatorLedger σ).warmUp (history tf)).onCandleUpdated
          f).currentValues = .error .notStable :=
      fun _ => IndicatorLedger.currentValues_of_unstable hnone
    rw [hentry]
    cases hlast : (history tf).getLast? with
    | none => exact absurd (List.getLast?_eq_none_iff.mp hlast) (checkCandles_ok hcheck).1
    | some c =>
      simp [TimeFrameBook.processEntry, TimeFrameBook.new, CandleAccumulator.accumulate,
        CandleAccumulator.new, CandleAccumulator.reopen, TimeFrameBook.advanceLedger,
        TimeFrameBook.snapshotEntry, hvalues]

/-- A session that has started evaluates every tick exactly when every list it was warmed
up with fills the long window. -/
theorem evaluatesEveryTick_iff (hσ : AveragesBy average σ)
    (h₀ : warmedUp pair config history = .ok s₀) :
    s₀.EvaluatesEveryTick ↔ ∀ tf, config.longSmaPeriod ≤ (history tf).length := by
  constructor
  · intro h tf
    by_contra hshort
    obtain ⟨snapshot, hsnapshot⟩ := h.shown s₀ .start (quietTick 0) 0
    obtain ⟨shot, hshot⟩ := TimeFrameBook.processEntry_of_onTick_ok hsnapshot tf
    rw [processEntry_error_of_short hσ h₀ (Nat.lt_of_not_le hshort)] at hshot
    cases hshot
  · intro hlong
    have hready : ∀ s, Runs.Reaches step (fun _ _ => True) s₀ s → s.AllReady average config := by
      intro s hs
      exact hs.invariant (allReady_warmedUp hσ h₀ hlong) fun _ _ _ hinv _ hstep =>
        hinv.step hσ hstep
    refine ⟨fun s hs tick now => ?_, fun s hs tick now tf => ?_⟩
    · obtain ⟨snapshot, hsnapshot, -⟩ := (hready s hs).onTick hσ tick now
      exact ⟨snapshot, hsnapshot⟩
    · obtain ⟨-, -, hentries⟩ := (hready s hs).onTick hσ tick now
      exact hentries tf

end BarState

/-! ## A short list -/

theorem quietHistory_lists : WarmUpLists quietConfig quietHistory where
  timeFrame tf := by simp [quietHistory, flatCandle]
  ascending tf := by
    have := tf.durationMs_pos
    simp only [quietHistory, flatCandle, List.pairwise_cons, List.mem_singleton, forall_eq]
    refine ⟨by omega, by simp, .nil⟩
  long tf := le_refl 2

/-- Two bars of every time frame, with periods of 1 and 2: every tick is evaluated. -/
theorem evaluatesEveryTick_quiet : quietStart.EvaluatesEveryTick := by
  refine (BarState.evaluatesEveryTick_iff RecordedSma.exactSma.averagesBy quietStart_eq).mpr ?_
  exact quietHistory_lists.long

/-- The same with the older of the two hour bars missing. -/
def partialHistory (tf : TimeFrame) : List ConfirmedCandle :=
  if tf = .oneHour then (quietHistory tf).tail else quietHistory tf

/-- The session starts. Its first tick throws at the hour, when the minute has taken it, and
the day never sees it. -/
theorem exists_blind_start :
    ∃ s : BarState RecordedSma, BarState.warmedUp .usdJpy quietConfig partialHistory = .ok s ∧
      (∃ e, (s.book.onTick (quietTick 864005000) 864005000).1 = .error e) ∧
      ((s.book.onTick (quietTick 864005000) 864005000).2.entries
        .oneMinute).accumulator.forming.isSome = true ∧
      ((s.book.onTick (quietTick 864005000) 864005000).2.entries
        .oneDay).accumulator.forming.isNone = true ∧
      ¬ s.EvaluatesEveryTick := by
  obtain ⟨s, hs, hrun⟩ : ∃ s : BarState RecordedSma,
      BarState.warmedUp .usdJpy quietConfig partialHistory = .ok s ∧
        ((s.book.onTick (quietTick 864005000) 864005000).1.toOption.isNone &&
        ((s.book.onTick (quietTick 864005000) 864005000).2.entries
          .oneMinute).accumulator.forming.isSome &&
        ((s.book.onTick (quietTick 864005000) 864005000).2.entries
          .oneDay).accumulator.forming.isNone) = true := Throws.exists_ok (by decide +kernel)
  simp only [Bool.and_eq_true] at hrun
  obtain ⟨⟨hthrows, hminute⟩, hday⟩ := hrun
  have herror : ∃ e, (s.book.onTick (quietTick 864005000) 864005000).1 = .error e := by
    cases hresult : (s.book.onTick (quietTick 864005000) 864005000).1 with
    | error e => exact ⟨e, rfl⟩
    | ok snapshot =>
      rw [hresult] at hthrows
      cases hthrows
  refine ⟨s, hs, herror, hminute, hday, fun h => ?_⟩
  obtain ⟨e, he⟩ := herror
  obtain ⟨snapshot, hsnapshot⟩ := h.shown s .start (quietTick 864005000) 864005000
  rw [he] at hsnapshot
  cases hsnapshot

end Luchida
