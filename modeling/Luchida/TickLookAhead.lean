import Luchida.MarketKernel
import Luchida.TimescaleDataProvider

/- What the tick engine sees of the future. The warm-up is the first `warmupCount` bars
   that the provider returns from that many buckets before the start. They have all closed
   by the start exactly where each of these buckets holds a tick (`warmUp_closed_iff`).
   Where one is empty the slice takes bars of the period itself, which the ticks then
   confirm a second time. -/
namespace Luchida

open OrderedMap Throws

/-- The time at which an order was placed. -/
def Decision.time : Decision → Int
  | .entry _ time _ => time
  | .exit _ time _ => time

namespace TickEngine

variable {α ω : Type} [SnapshotAdapter α]

/-! ## What a tick leaves alone -/

/-- Between the two states the rules and the fills have acted: the market side is the
same, and the orders placed are dated at the tick. -/
structure Places (tick : Tick) (s s' : TickState α ω) : Prop where
  adapter : s'.adapter = s.adapter
  accumulator : s'.accumulator = s.accumulator
  decisions : ∃ placed, s'.decisions = s.decisions ++ placed ∧
    ∀ d ∈ placed, d.time = tick.timestamp

section
omit [SnapshotAdapter α]

namespace Places

variable {tick : Tick} {s s' s'' : TickState α ω}

theorem refl (tick : Tick) (s : TickState α ω) : Places tick s s :=
  ⟨rfl, rfl, [], by simp, by simp⟩

theorem trans (h : Places tick s s') (h' : Places tick s' s'') : Places tick s s'' := by
  obtain ⟨placed, hplaced, htime⟩ := h.decisions
  obtain ⟨placed', hplaced', htime'⟩ := h'.decisions
  refine ⟨h'.adapter.trans h.adapter, h'.accumulator.trans h.accumulator, placed ++ placed', ?_, ?_⟩
  · rw [hplaced', hplaced, List.append_assoc]
  · intro d hd
    rcases List.mem_append.mp hd with hd | hd
    · exact htime d hd
    · exact htime' d hd

end Places

variable (params : EngineRunParams ω) (snapshot : MarketSnapshot) (tick : Tick) (s : TickState α ω)

theorem evaluateExit_places (entry : PositionId × Position) :
    Ends (Places tick s) (fun _ => True) (evaluateExit params snapshot tick s entry) := by
  unfold evaluateExit
  refine Ends.bind (fun _ => True) (ends_iff_ok.mpr fun _ _ => trivial) ?_
  rintro ⟨exitResult, world⟩ - -
  cases exitResult with
  | none => exact ⟨rfl, rfl, [], by simp, by simp⟩
  | some command =>
    refine Ends.bind (fun _ => True) (ends_iff_ok.mpr fun _ _ => trivial) ?_
    rintro pendingOrders - -
    exact ⟨rfl, rfl, [.exit (s.tickCount - 1) tick.timestamp command], rfl, by simp [Decision.time]⟩

theorem evaluateEntry_places :
    Ends (Places tick s) (fun _ => True) (evaluateEntry params snapshot tick s) := by
  unfold evaluateEntry
  split
  · refine Ends.bind (fun _ => True) (ends_iff_ok.mpr fun _ _ => trivial) ?_
    rintro ⟨entryResult, world⟩ - -
    cases entryResult with
    | none => exact ⟨rfl, rfl, [], by simp, by simp⟩
    | some command =>
      refine Ends.bind (fun _ => True) (ends_iff_ok.mpr fun _ _ => trivial) ?_
      rintro pendingOrders - -
      exact ⟨rfl, rfl, [.entry (s.tickCount - 1) tick.timestamp command], rfl,
        by simp [Decision.time]⟩
  · exact .refl tick s

/-- The rules, as they are asked at the tick that confirms a bar. -/
theorem rules_places :
    Ends (Places tick s) (fun _ => True) (do
      let s ← s.positions.foldlM (evaluateExit params snapshot tick) s
      evaluateEntry params snapshot tick s) := by
  refine Ends.bind (Places tick s) ?_ fun s' _ hs' => ?_
  · refine Ends.foldlM (fun _ => Places tick s) (fun _ entry _ _ s' hs' => ?_) (.refl tick s)
    exact (evaluateExit_places params snapshot tick s' entry).imp fun _ => hs'.trans
  · exact (evaluateEntry_places params snapshot tick s').imp fun _ => hs'.trans

theorem settleExit_adapter (order : PendingExit) (s : EngineState α ω) :
    Ends (fun s' => s'.adapter = s.adapter) (fun _ => True) (settleExit params tick order s) := by
  unfold settleExit
  exact Ends.bind _ (EngineState.closePosition_adapter ..) fun s' _ hs' => hs'

theorem fillExit_places : Ends (Places tick s) (fun _ => True) (fillExit params tick s) := by
  unfold fillExit
  split
  · exact .refl tick s
  · refine Ends.bind _ (settleExit_adapter params tick _ s.toEngineState) fun books _ hbooks => ?_
    exact ⟨hbooks, rfl, [], by simp, by simp⟩

theorem fillEntry_places : Ends (Places tick s) (fun _ => True) (fillEntry params tick s) := by
  unfold fillEntry
  split
  · exact .refl tick s
  · refine Ends.bind _ (EngineState.openPosition_adapter ..) fun books _ hbooks => ?_
    exact ⟨hbooks, rfl, [], by simp, by simp⟩

end

/-- A round is the kernel on the market side, and then the rules and the fills. -/
theorem onTick_ends (params : EngineRunParams ω) (tick : Tick) (s : TickState α ω) :
    Ends (fun s' => ∃ shot kernel,
        Kernel.feed ⟨s.adapter, s.accumulator⟩ tick = .ok (shot, kernel) ∧
        Places tick { s with adapter := kernel.adapter, accumulator := kernel.accumulator } s')
      (fun _ => True) (onTick params s tick) := by
  unfold onTick
  rw [Kernel.accumulate_eq_feed, bind_assoc]
  refine Ends.bind (fun _ => True) (ends_iff_ok.mpr fun _ _ => trivial) ?_
  rintro ⟨shot, kernel⟩ hfeed -
  let s₁ : TickState α ω :=
    { receive tick s with adapter := kernel.adapter, accumulator := kernel.accumulator }
  have hfill : ∀ x, Ends (Places tick s₁) (fun _ => True) x →
      Ends (Places tick s₁) (fun _ => True) (do
        let s ← x
        let s ← fillExit params tick s
        let s ← fillEntry params tick s
        return updateExtremes tick s) := by
    intro x hx
    refine Ends.bind _ hx fun s₂ _ h₂ => ?_
    refine Ends.bind _ (fillExit_places params tick s₂) fun s₃ _ h₃ => ?_
    refine Ends.bind _ (fillEntry_places params tick s₃) fun s₄ _ h₄ => ?_
    obtain ⟨hadapter, haccumulator, hdecisions⟩ := (h₂.trans h₃).trans h₄
    exact ⟨hadapter, haccumulator, hdecisions⟩
  have hround : ∀ s', Places tick s₁ s' → ∃ shot' kernel',
      Kernel.feed ⟨s.adapter, s.accumulator⟩ tick = .ok (shot', kernel') ∧
      Places tick { s with adapter := kernel'.adapter, accumulator := kernel'.accumulator } s' :=
    fun s' h => ⟨shot, kernel, hfeed, h.adapter, h.accumulator, h.decisions⟩
  cases shot with
  | none => exact (hfill (.ok s₁) (Places.refl tick s₁)).imp hround
  | some snapshot => exact (hfill _ (rules_places params snapshot tick s₁)).imp hround

section
omit [SnapshotAdapter α]

theorem forceClose_adapter (params : EngineRunParams ω) (lastTick : Tick) (s : EngineState α ω)
    (entry : PositionId × Position) :
    Ends (fun s' => s'.adapter = s.adapter) (fun _ => True)
      (forceClose params lastTick s entry) := by
  unfold forceClose
  exact Ends.bind _ (EngineState.closePosition_adapter ..) fun s' _ hs' => hs'

/-- The end of the stream places no order. -/
theorem finish_keeps (params : EngineRunParams ω) (s : TickState α ω) :
    Ends (fun s' => s'.adapter = s.adapter ∧ s'.decisions = s.decisions) (fun _ => True)
      (finish params s) := by
  unfold finish
  split
  · exact ⟨rfl, rfl⟩
  · rename_i lastTick _
    refine Ends.bind (fun books => books.adapter = s.adapter) ?_ fun books _ hbooks => ?_
    · unfold settleWaiting
      split
      · rfl
      · exact settleExit_adapter params lastTick _ s.toEngineState
    refine Ends.bind (fun books' => books'.adapter = s.adapter) ?_ fun books' _ hbooks' => ?_
    · unfold forceCloseAll
      refine Ends.bind (fun books' : EngineState α ω => books'.adapter = s.adapter) ?_
        fun books' _ hbooks' => hbooks'
      refine Ends.foldlM (fun _ (books' : EngineState α ω) => books'.adapter = s.adapter)
        (fun _ entry _ _ books' hbooks' => ?_) hbooks
      exact (forceClose_adapter params lastTick books' entry).imp fun _ h => h.trans hbooks'
    exact ⟨hbooks', rfl⟩

end

/-- A run that returns has begun and gone through its ticks. -/
theorem run_ok {params : EngineRunParams ω} {delayMs : Int} {adapter : α} {world : ω}
    {shared : SharedState} {s : TickState α ω}
    (h : run params delayMs adapter world shared = .ok s) :
    ∃ s₀ s₁, begin params delayMs adapter world shared = .ok s₀ ∧
      (params.dataProvider.fetchTicks params.config.pair params.config.dateRange).foldlM
        (onTick params) s₀ = .ok s₁ ∧ s.adapter = s₁.adapter ∧ s.decisions = s₁.decisions := by
  obtain ⟨s₁, hover, hfinish⟩ := bind_eq_ok.mp h
  obtain ⟨s₀, hbegin, hticks⟩ := bind_eq_ok.mp hover
  obtain ⟨hadapter, hdecisions⟩ := (finish_keeps params s₁).of_ok hfinish
  exact ⟨s₀, s₁, hbegin, hticks, hadapter, hdecisions⟩

/-- The orders of a stretch of ticks are dated at its ticks. -/
theorem onTicks_decisions {params : EngineRunParams ω} {ticks : List Tick} {s s' : TickState α ω}
    (h : ticks.foldlM (onTick params) s = .ok s') :
    ∃ placed, s'.decisions = s.decisions ++ placed ∧
      ∀ d ∈ placed, ∃ tick ∈ ticks, d.time = tick.timestamp := by
  refine (Ends.foldlM (fun done (s' : TickState α ω) => ∃ placed,
    s'.decisions = s.decisions ++ placed ∧ ∀ d ∈ placed, ∃ tick ∈ done, d.time = tick.timestamp)
    (fun done tick _ _ s₁ hs₁ => ?_) ⟨[], by simp, by simp⟩ :
      Ends _ (fun _ => True) _).of_ok h
  obtain ⟨placed, hplaced, htime⟩ := hs₁
  refine (onTick_ends params tick s₁).imp fun s₂ hs₂ => ?_
  obtain ⟨shot, kernel, -, hplaces⟩ := hs₂
  obtain ⟨placed', hplaced', htime'⟩ := hplaces.decisions
  refine ⟨placed ++ placed', by rw [hplaced', hplaced, List.append_assoc], fun d hd => ?_⟩
  rcases List.mem_append.mp hd with hd | hd
  · obtain ⟨u, hu, hdu⟩ := htime d hd
    exact ⟨u, List.mem_append_left _ hu, hdu⟩
  · exact ⟨tick, by simp, htime' d hd⟩

/-! ## Each bucket once -/

section
variable {σ : Type} [SmaCalculator σ] {tf : TimeFrame} {now : Int}

/-- The ledger of the time frame was fed bars of ascending buckets, all before the bucket
of the forming candle, or before the present one while there is none. -/
structure OncePerBucket (tf : TimeFrame) (now : Int)
    (kernel : Kernel (BacktestSnapshotAdapter σ)) : Prop where
  timeFrame : kernel.accumulator.timeFrame = tf
  signal : kernel.adapter.signalTimeFrame = tf
  forming : ∀ f ∈ kernel.accumulator.forming, tf.bucket f.openTime ≤ tf.bucket now
  fed : ∃ st, get kernel.adapter.states tf = some st ∧
    (st.fed.map fun c => tf.bucket c.openTime).Pairwise (· < ·) ∧
    ∀ c ∈ st.fed, tf.bucket c.openTime <
      tf.bucket ((kernel.accumulator.forming.map (·.openTime)).getD now)

/-- A tick that is no earlier keeps it so. -/
theorem OncePerBucket.feed {kernel kernel' : Kernel (BacktestSnapshotAdapter σ)} {tick : Tick}
    {shot : Option MarketSnapshot} (h : OncePerBucket tf now kernel) (hnow : now ≤ tick.timestamp)
    (hfeed : kernel.feed tick = .ok (shot, kernel')) :
    OncePerBucket tf tick.timestamp kernel' := by
  obtain ⟨event, acc, hacc, hcases⟩ := kernel.accumulator.accumulate_cases tick
  obtain ⟨st, hst, hasc, hbefore⟩ := h.fed
  have hbucket := tf.bucket_mono hnow
  unfold Kernel.feed at hfeed
  rw [hacc] at hfeed
  obtain ⟨_, heq, hfeed⟩ := bind_eq_ok.mp hfeed
  cases heq
  cases hcases with
  | first hnone =>
    cases hfeed
    rw [hnone] at hbefore
    refine ⟨h.timeFrame, h.signal, ?_, st, hst, hasc, fun c hc => ?_⟩
    · rintro f ⟨⟩
      exact le_rfl
    · exact lt_of_lt_of_le (hbefore c hc) hbucket
  | @same acc f f' hf hb htf hl hf' ho =>
    cases hfeed
    rw [hf] at hbefore
    refine ⟨htf.trans h.timeFrame, h.signal, ?_, st, hst, hasc, fun c hc => ?_⟩
    · intro g hg
      obtain rfl : f' = g := Option.some.inj (hf'.symm.trans hg)
      rw [ho]
      exact (h.forming f hf).trans hbucket
    · have := hbefore c hc
      simpa [hf', ho] using this
  | @next f c hf hb ho hc htf =>
    obtain ⟨⟨snapshot, adapter⟩, hbuild, hfeed⟩ := bind_eq_ok.mp hfeed
    cases hfeed
    obtain ⟨-, forming, -, hstates, -⟩ :=
      BacktestSnapshotAdapter.addCandleAndBuild_ok (mapError_eq_ok.mp hbuild)
    obtain ⟨-, hsignal, -, -, hget⟩ := BacktestSnapshotAdapter.mapStatesM_ok hstates
    -- the confirmed bar is of the bucket of the candle that was forming
    have hadvance := hget tf
    rw [hst, Option.map_some] at hadvance
    obtain ⟨st', hst', heq⟩ := Option.map_eq_some_iff.mp hadvance.symm
    have hfed : st'.fed = st.fed ++ [c] := by
      rw [← h.signal] at heq
      rw [BacktestSnapshotAdapter.advance_signal heq.symm]
      rfl
    rw [hf] at hbefore
    have hlt : tf.bucket c.openTime < tf.bucket tick.timestamp := by
      rw [ho]
      refine lt_of_le_of_ne ((h.forming f hf).trans hbucket) ?_
      rw [h.timeFrame] at hb
      exact fun heq => hb heq.symm
    refine ⟨h.timeFrame, hsignal.trans h.signal, ?_, st', hst', ?_, fun d hd => ?_⟩
    · rintro g ⟨⟩
      exact le_rfl
    · rw [hfed, List.map_append, List.pairwise_append]
      refine ⟨hasc, List.pairwise_singleton .., fun b hb' b' hb'' => ?_⟩
      obtain ⟨d, hd, rfl⟩ := List.mem_map.mp hb'
      rw [List.map_singleton, List.mem_singleton] at hb''
      rw [hb'', ho]
      exact hbefore d hd
    · rw [hfed] at hd
      rcases List.mem_append.mp hd with hd | hd
      · exact ((hbefore d hd).trans_eq (by rw [ho]; rfl)).trans hlt
      · rw [List.mem_singleton.mp hd]
        exact hlt

/-- Ticks in order keep it so. -/
theorem onTicks_oncePerBucket {params : EngineRunParams ω} {ticks : List Tick}
    {s s' : TickState (BacktestSnapshotAdapter σ) ω}
    (h : OncePerBucket tf now ⟨s.adapter, s.accumulator⟩)
    (hnow : ∀ tick ∈ ticks, now ≤ tick.timestamp)
    (hordered : ticks.Pairwise (fun a b => a.timestamp ≤ b.timestamp))
    (hticks : ticks.foldlM (onTick params) s = .ok s') :
    ∃ now', OncePerBucket tf now' ⟨s'.adapter, s'.accumulator⟩ := by
  induction ticks generalizing now s with
  | nil =>
    cases hticks
    exact ⟨now, h⟩
  | cons tick ticks ih =>
    obtain ⟨hlater, hordered⟩ := List.pairwise_cons.mp hordered
    rw [List.foldlM_cons] at hticks
    obtain ⟨s₁, hs₁, hticks⟩ := bind_eq_ok.mp hticks
    obtain ⟨shot, kernel, hfeed, hplaces⟩ := (onTick_ends params tick s).of_ok hs₁
    have h₁ := h.feed (hnow tick (by simp)) hfeed
    exact ih (by rwa [hplaces.adapter, hplaces.accumulator]) hlater hordered hticks

end

/-! ## The warm-up -/

/-- The starts of the buckets before a boundary, the last one first. -/
def bucketsBefore (tf : TimeFrame) (dateFrom : Int) (n : Nat) : List Int :=
  (List.range n).map fun k : Nat => dateFrom - tf.durationMs * (k + 1)

/-- Each of the buckets before the start holds a tick of the period with the warm-up. -/
def WarmUpFilled (table : FxTick) (r : CandleRequest) : Prop :=
  ∀ t ∈ bucketsBefore r.timeframe r.range.dateFrom r.warmupCount,
    ∃ tick ∈ table.between r.pair (TimescaleDataProvider.requestedFrom r) r.range.dateTo,
      r.timeframe.periodStart tick.timestamp = t

section
variable {tf : TimeFrame} {dateFrom : Int} {n : Nat}

theorem bucketsBefore_length : (bucketsBefore tf dateFrom n).length = n := by
  simp [bucketsBefore]

theorem bucketsBefore_nodup : (bucketsBefore tf dateFrom n).Nodup := by
  refine List.nodup_range.map fun j k heq => ?_
  have heq : tf.durationMs * ((j : Int) + 1) = tf.durationMs * ((k : Int) + 1) := by
    omega
  have := Int.eq_of_mul_eq_mul_left (Int.ne_of_gt tf.durationMs_pos) heq
  omega

/-- They are the boundaries from the first of them on that lie before the start. -/
theorem mem_bucketsBefore (haligned : tf.isAligned dateFrom = true) {t : Int} :
    t ∈ bucketsBefore tf dateFrom n ↔
      tf.isAligned t = true ∧ dateFrom - tf.durationMs * n ≤ t ∧ t < dateFrom := by
  have hpos := tf.durationMs_pos
  simp only [TimeFrame.isAligned, beq_iff_eq] at haligned ⊢
  obtain ⟨q, rfl⟩ := Int.dvd_of_emod_eq_zero haligned
  simp only [bucketsBefore, List.mem_map, List.mem_range]
  constructor
  · rintro ⟨k, hk, rfl⟩
    have hle : tf.durationMs * ((k : Int) + 1) ≤ tf.durationMs * n :=
      Int.mul_le_mul_of_nonneg_left (by omega) (Int.le_of_lt hpos)
    have hpos' : 0 < tf.durationMs * ((k : Int) + 1) := Int.mul_pos hpos (by omega)
    refine ⟨?_, by omega, by omega⟩
    rw [← Int.mul_sub]
    exact Int.mul_emod_right ..
  · rintro ⟨ht, hle, hlt⟩
    obtain ⟨m, rfl⟩ := Int.dvd_of_emod_eq_zero ht
    rw [← Int.mul_sub] at hle
    have hm : m < q := Int.lt_of_mul_lt_mul_left hlt (Int.le_of_lt hpos)
    have hn : q - n ≤ m := Int.le_of_mul_le_mul_left hle hpos
    refine ⟨(q - m - 1).toNat, by omega, ?_⟩
    rw [← Int.mul_sub, Int.toNat_of_nonneg (by omega)]
    congr 1
    ring

end

theorem requestedFrom_aligned {r : CandleRequest}
    (haligned : r.timeframe.isAligned r.range.dateFrom = true) :
    r.timeframe.isAligned (TimescaleDataProvider.requestedFrom r) = true := by
  simp only [TimeFrame.isAligned, beq_iff_eq] at haligned ⊢
  unfold TimescaleDataProvider.requestedFrom
  rw [Int.sub_mul_emod_self_left, haligned]

/-- The bars of the query that have closed by the start are the first ones, and there are
as many of them as the warm-up takes exactly where every bucket before the start is filled. -/
theorem take_query_closed_iff {table : FxTick} {r : CandleRequest}
    (haligned : r.timeframe.isAligned r.range.dateFrom = true) {candles : List ConfirmedCandle}
    (hquery : candles = table.query r.pair r.timeframe (TimescaleDataProvider.requestedFrom r)
      r.range.dateTo) (hlength : r.warmupCount ≤ candles.length) :
    (∀ c ∈ candles.take r.warmupCount, c.closeTime ≤ r.range.dateFrom) ↔ WarmUpFilled table r := by
  have hseries : BarSeries r.timeframe candles := hquery ▸ FxTick.query_series ..
  have hmem : ∀ t, t ∈ candles.map (·.openTime) ↔ ∃ tick ∈ table.between r.pair
      (TimescaleDataProvider.requestedFrom r) r.range.dateTo,
        r.timeframe.periodStart tick.timestamp = t := fun t => hquery ▸ FxTick.mem_query
  have hstart : ∀ c ∈ candles, TimescaleDataProvider.requestedFrom r ≤ c.openTime := by
    intro c hc
    obtain ⟨tick, htick, heq⟩ := (hmem _).mp (List.mem_map_of_mem hc)
    rw [← heq]
    exact r.timeframe.le_periodStart (requestedFrom_aligned haligned)
      (FxTick.mem_between.mp htick).2.1
  have hnodup : (candles.map (·.openTime)).Nodup := by
    refine List.Pairwise.imp Int.ne_of_lt ?_
    exact List.pairwise_map.mpr hseries.ascending
  have hbuckets : (bucketsBefore r.timeframe r.range.dateFrom r.warmupCount).length =
      r.warmupCount := bucketsBefore_length
  constructor
  · intro hclosed
    -- as many different buckets before the start as there are
    have hsubset : (candles.take r.warmupCount).map (·.openTime) ⊆
        bucketsBefore r.timeframe r.range.dateFrom r.warmupCount := by
      intro t ht
      obtain ⟨c, hc, rfl⟩ := List.mem_map.mp ht
      have hc' := List.mem_of_mem_take hc
      refine (mem_bucketsBefore haligned).mpr ⟨hseries.aligned c hc', hstart c hc', ?_⟩
      exact (hseries.closeTime_le_iff hc' haligned).mp (hclosed c hc)
    have hperm : (candles.take r.warmupCount).map (·.openTime) |>.Perm
        (bucketsBefore r.timeframe r.range.dateFrom r.warmupCount) := by
      refine (List.Nodup.subperm ?_ hsubset).perm_of_length_le ?_
      · exact hnodup.sublist ((List.take_sublist ..).map _)
      · simp [hbuckets, Nat.min_eq_left hlength]
    intro t ht
    obtain ⟨c, hc, rfl⟩ := List.mem_map.mp (hperm.mem_iff.mpr ht)
    exact (hmem _).mp (List.mem_map_of_mem (List.mem_of_mem_take hc))
  · intro hfilled
    have hsplit := filter_lt_append_filter_le (hseries.ascending.imp Int.le_of_lt) r.range.dateFrom
    have hmany : r.warmupCount ≤
        (candles.filter fun c => c.openTime < r.range.dateFrom).length := by
      have hsubset : bucketsBefore r.timeframe r.range.dateFrom r.warmupCount ⊆
          (candles.filter fun c => c.openTime < r.range.dateFrom).map (·.openTime) := by
        intro t ht
        obtain ⟨c, hc, rfl⟩ := List.mem_map.mp ((hmem t).mpr (hfilled t ht))
        refine List.mem_map_of_mem (List.mem_filter.mpr ⟨hc, ?_⟩)
        exact decide_eq_true ((mem_bucketsBefore haligned).mp ht).2.2
      have := (bucketsBefore_nodup.subperm hsubset).length_le
      rwa [hbuckets, List.length_map] at this
    intro c hc
    rw [← hsplit, List.take_append_of_le_length hmany] at hc
    obtain ⟨hc, hlt⟩ := List.mem_filter.mp (List.mem_of_mem_take hc)
    exact (hseries.closeTime_le_iff hc haligned).mpr (of_decide_eq_true hlt)

/-- Where they are filled, the bars before the start are enough for the warm-up. -/
theorem WarmUpFilled.length_le {table : FxTick} {r : CandleRequest} (h : WarmUpFilled table r)
    (haligned : r.timeframe.isAligned r.range.dateFrom = true) :
    r.warmupCount ≤ (table.query r.pair r.timeframe (TimescaleDataProvider.requestedFrom r)
      r.range.dateFrom).length := by
  have hsubset : bucketsBefore r.timeframe r.range.dateFrom r.warmupCount ⊆
      (table.query r.pair r.timeframe (TimescaleDataProvider.requestedFrom r)
        r.range.dateFrom).map (·.openTime) := by
    intro t ht
    obtain ⟨tick, htick, heq⟩ := h t ht
    obtain ⟨hmem, hstart, -⟩ := FxTick.mem_between.mp htick
    obtain ⟨hbound, -, hlt⟩ := (mem_bucketsBefore haligned).mp ht
    have hle := r.timeframe.add_durationMs_le hbound haligned hlt
    have hend := r.timeframe.lt_periodStart_add tick.timestamp
    exact FxTick.mem_query.mpr ⟨tick, FxTick.mem_between.mpr ⟨hmem, hstart, by omega⟩, heq⟩
  have := (bucketsBefore_nodup.subperm hsubset).length_le
  rwa [bucketsBefore_length, List.length_map] at this

theorem requestedFrom_le (r : CandleRequest) :
    TimescaleDataProvider.requestedFrom r ≤ r.range.dateFrom := by
  have := Int.mul_nonneg (Int.le_of_lt r.timeframe.durationMs_pos)
    (Int.natCast_nonneg r.warmupCount)
  unfold TimescaleDataProvider.requestedFrom
  omega

/-- The warm-up has closed by the start where every bucket before the start is filled, or
where the provider returned bars of before the requested period because it is empty. -/
theorem warmUp_closed_iff {p : TimescaleDataProvider} (hsound : p.Sound) {r : CandleRequest}
    (haligned : r.timeframe.isAligned r.range.dateFrom = true) (hwarm : 1 ≤ r.warmupCount)
    (hlength : r.warmupCount ≤ (p.fetchCandles r).1.length) :
    (∀ c ∈ (p.fetchCandles r).1.take r.warmupCount, c.closeTime ≤ r.range.dateFrom) ↔
      WarmUpFilled p.table r ∨
        p.table.between r.pair (TimescaleDataProvider.requestedFrom r) r.range.dateTo = [] := by
  rcases p.fetchCandles_cases hsound (requestedFrom_aligned haligned) with
    hquery | ⟨hnone, dateFrom, hquery⟩
  · have hiff := take_query_closed_iff haligned hquery hlength
    refine ⟨fun hclosed => .inl (hiff.mp hclosed), ?_⟩
    rintro (hfilled | hnone)
    · exact hiff.mpr hfilled
    · rw [hquery, FxTick.query_eq_nil_iff.mpr hnone, List.length_nil] at hlength
      omega
  · refine ⟨fun _ => .inr hnone, fun _ c hc => ?_⟩
    have hmem := hquery ▸ List.mem_of_mem_take hc
    have hseries := p.table.query_series r.pair r.timeframe dateFrom r.range.dateTo
    refine (hseries.closeTime_le_iff hmem haligned).mpr ?_
    -- its first tick lies before the requested period
    obtain ⟨tick, htick, heq⟩ := FxTick.mem_query.mp (List.mem_map_of_mem (f := (·.openTime)) hmem)
    obtain ⟨htable, -, hto⟩ := FxTick.mem_between.mp htick
    have hbefore : tick.timestamp < TimescaleDataProvider.requestedFrom r := by
      by_contra hge
      have := FxTick.mem_between.mpr ⟨htable, not_lt.mp hge, hto⟩
      rw [hnone] at this
      simp at this
    have := requestedFrom_le r
    have := r.timeframe.periodStart_le tick.timestamp
    omega

/-- With every bucket before the start filled, the warm-up is made of the ticks before the
start. -/
theorem WarmUpFilled.take_fetchCandles {p : TimescaleDataProvider} (hsound : p.Sound)
    {r : CandleRequest} (h : WarmUpFilled p.table r)
    (haligned : r.timeframe.isAligned r.range.dateFrom = true)
    (hwarm : 1 ≤ r.warmupCount) (hrange : r.range.dateFrom ≤ r.range.dateTo) :
    (p.fetchCandles r).1.take r.warmupCount = (p.table.query r.pair r.timeframe
      (TimescaleDataProvider.requestedFrom r) r.range.dateFrom).take r.warmupCount := by
  rcases p.fetchCandles_cases hsound (requestedFrom_aligned haligned) with
    hquery | ⟨hnone, -⟩
  · rw [hquery, p.table.query_split r.pair haligned (requestedFrom_le r) hrange,
      List.take_append_of_le_length (h.length_le haligned)]
  · -- a filled bucket holds a tick
    have hmem : r.range.dateFrom - r.timeframe.durationMs ∈
        bucketsBefore r.timeframe r.range.dateFrom r.warmupCount :=
      List.mem_map.mpr ⟨0, List.mem_range.mpr hwarm, by simp⟩
    obtain ⟨tick, htick, -⟩ := h _ hmem
    rw [hnone] at htick
    simp at htick

/-! ## A run over the table -/

/-- The bars that a run asks its provider for. -/
def candleRequest (config : EngineConfig) : CandleRequest :=
  ⟨config.pair, config.timeframe, config.dateRange, config.warmupCount⟩

/-- The run with this provider. -/
abbrev readFrom (params : EngineRunParams ω) (p : TimescaleDataProvider) : EngineRunParams ω :=
  { params with dataProvider := p.toDataProvider }

section
variable {params : EngineRunParams ω} {p p' : TimescaleDataProvider}

omit [SnapshotAdapter α] in
theorem fetchWarmUp_ok (hwarm : 1 ≤ params.config.warmupCount) {warmup : List ConfirmedCandle}
    (h : fetchWarmUp (readFrom params p) = .ok warmup) :
    params.config.warmupCount ≤ (p.fetchCandles (candleRequest params.config)).1.length ∧
      warmup = (p.fetchCandles (candleRequest params.config)).1.take params.config.warmupCount := by
  unfold fetchWarmUp at h
  dsimp only at h
  rw [if_pos (Nat.lt_of_lt_of_le Nat.one_pos hwarm)] at h
  obtain ⟨candles, hcandles, h⟩ := bind_eq_ok.mp h
  cases hcandles
  split at h
  · cases h
  · rename_i hlength
    cases h
    exact ⟨not_lt.mp hlength, rfl⟩

theorem begin_ok {delayMs : Int} {adapter : α} {world : ω} {shared : SharedState}
    {s : TickState α ω} (h : begin params delayMs adapter world shared = .ok s) :
    ∃ warmup, fetchWarmUp params = .ok warmup ∧
      SnapshotAdapter.warmUp adapter warmup = .ok s.adapter ∧
      s.accumulator = .new params.config.timeframe ∧ s.decisions = [] := by
  obtain ⟨warmup, hwarmup, h⟩ := bind_eq_ok.mp h
  obtain ⟨adapter', hadapter, h⟩ := bind_eq_ok.mp h
  cases h
  exact ⟨warmup, hwarmup, mapError_eq_ok.mp hadapter, rfl, rfl⟩

end

/-! ### Decisions before a time -/

/-- The ticks of the pair agree before a time, in two tables of one server. -/
structure AgreeBefore (table table' : FxTick) (pair : CurrencyPair) (time : Int) : Prop where
  ties : table.ties = table'.ties
  ticks : (table.ticks pair).filter (fun tick => tick.timestamp < time) =
    (table'.ticks pair).filter (fun tick => tick.timestamp < time)

section
variable {table table' : FxTick} {pair : CurrencyPair} {time : Int}

theorem AgreeBefore.mem_iff (h : AgreeBefore table table' pair time) {tick : Tick}
    (hlt : tick.timestamp < time) : tick ∈ table.ticks pair ↔ tick ∈ table'.ticks pair := by
  have := congrArg (tick ∈ ·) h.ticks
  simpa [hlt] using this

/-- What a query of the time before finds is the same. -/
theorem AgreeBefore.between_filter (h : AgreeBefore table table' pair time)
    (dateFrom dateTo : Int) :
    (table.between pair dateFrom dateTo).filter (fun tick => tick.timestamp < time) =
      (table'.between pair dateFrom dateTo).filter (fun tick => tick.timestamp < time) := by
  unfold FxTick.between
  rw [List.filter_comm, h.ticks, List.filter_comm]

theorem AgreeBefore.query_eq (h : AgreeBefore table table' pair time) (tf : TimeFrame)
    (dateFrom : Int) {dateTo : Int} (hle : dateTo ≤ time) :
    table.query pair tf dateFrom dateTo = table'.query pair tf dateFrom dateTo := by
  have hself : ∀ t : FxTick, (t.between pair dateFrom dateTo).filter
      (fun tick => tick.timestamp < time) = t.between pair dateFrom dateTo := by
    intro t
    rw [List.filter_eq_self]
    intro tick htick
    have := (FxTick.mem_between.mp htick).2.2
    simp only [decide_eq_true_eq]
    omega
  unfold FxTick.query
  rw [← hself table, ← hself table', h.between_filter, h.ties]

end

/-- The decisions before a time are those of the ticks before it. -/
theorem decisions_before {params : EngineRunParams ω} {delayMs : Int} {adapter : α} {world : ω}
    {shared : SharedState} {p : TimescaleDataProvider} {s : TickState α ω}
    (h : run (readFrom params p) delayMs adapter world shared = .ok s) (time : Int) :
    ∃ s₀ s₁, begin (readFrom params p) delayMs adapter world shared = .ok s₀ ∧
      ((p.table.between params.config.pair params.config.dateRange.dateFrom
        params.config.dateRange.dateTo).filter fun tick => tick.timestamp < time).foldlM
          (onTick params) s₀ = .ok s₁ ∧
      s.decisions.filter (fun d => d.time < time) = s₁.decisions := by
  obtain ⟨s₀, s₂, hbegin, hticks, -, hdecisions⟩ := run_ok h
  have hordered := p.table.between_ordered params.config.pair params.config.dateRange.dateFrom
    params.config.dateRange.dateTo
  have hsplit := filter_lt_append_filter_le hordered time
  have hticks : (p.table.between params.config.pair params.config.dateRange.dateFrom
      params.config.dateRange.dateTo).foldlM (onTick params) s₀ = .ok s₂ := hticks
  rw [← hsplit, List.foldlM_append] at hticks
  obtain ⟨s₁, hpast, hfuture⟩ := bind_eq_ok.mp hticks
  refine ⟨s₀, s₁, hbegin, hpast, ?_⟩
  obtain ⟨-, -, -, -, hnone⟩ := begin_ok hbegin
  obtain ⟨placed, hplaced, htime⟩ := onTicks_decisions hpast
  obtain ⟨later, hlater, htime'⟩ := onTicks_decisions hfuture
  rw [hnone, List.nil_append] at hplaced
  rw [hdecisions, hlater, hplaced, List.filter_append]
  have hkept : placed.filter (fun d => d.time < time) = placed := by
    rw [List.filter_eq_self]
    intro d hd
    obtain ⟨tick, htick, heq⟩ := htime d hd
    rw [heq]
    exact (List.mem_filter.mp htick).2
  have hdropped : later.filter (fun d => d.time < time) = [] := by
    rw [List.filter_eq_nil_iff]
    intro d hd
    obtain ⟨tick, htick, heq⟩ := htime' d hd
    have := (List.mem_filter.mp htick).2
    rw [heq]
    simpa using this
  rw [hkept, hdropped, List.append_nil]

/-! ### No look-ahead -/

section
variable {σ : Type} [SmaCalculator σ] (params : EngineRunParams ω) (delayMs : Int)
  (adapter : BacktestSnapshotAdapter σ) (world : ω) (shared : SharedState)

/-- A run over a table of ticks does not look ahead. Another table may be read through a
provider that has served other requests. -/
structure NoLookAhead (p : TimescaleDataProvider) (s : TickState (BacktestSnapshotAdapter σ) ω) :
    Prop where
  /-- The warm-up has closed by the start. -/
  warmUp : ∀ warmup, fetchWarmUp (readFrom params p) = .ok warmup →
    ∀ c ∈ warmup, c.closeTime ≤ params.config.dateRange.dateFrom
  /-- The ledger is fed one bar a bucket at most, in order. -/
  once : ∃ st, get s.adapter.states params.config.timeframe = some st ∧
    (st.fed.map fun c => params.config.timeframe.bucket c.openTime).Pairwise (· < ·)
  /-- What is decided before a time does not depend on later ticks. -/
  decisions : ∀ (table : FxTick) (requests : List CandleRequest) (time : Int)
    (s' : TickState (BacktestSnapshotAdapter σ) ω),
    AgreeBefore p.table table params.config.pair time →
    run (readFrom params ((TimescaleDataProvider.new table).after requests)) delayMs adapter world
      shared = .ok s' →
    s.decisions.filter (fun d => d.time < time) = s'.decisions.filter (fun d => d.time < time)

variable {params delayMs adapter world shared}

/-- A warm-up that has closed by the start is fed bucket by bucket, before the first tick. -/
theorem OncePerBucket.warmUp {tf : TimeFrame} {dateFrom : Int} {pair : CurrencyPair}
    {specs : List TimeFrameIndicatorSpec}
    (hadapter : BacktestSnapshotAdapter.new pair tf specs = .ok adapter)
    (haligned : tf.isAligned dateFrom = true) {warmup : List ConfirmedCandle}
    (hseries : BarSeries tf warmup) (hclosed : ∀ c ∈ warmup, c.closeTime ≤ dateFrom) :
    OncePerBucket tf dateFrom ⟨adapter.warmUp warmup, .new tf⟩ := by
  obtain ⟨-, hsignal, -⟩ := BacktestSnapshotAdapter.new_ok hadapter
  obtain ⟨st, hst⟩ := Option.isSome_iff_exists.mp adapter.signal_mem
  rw [hsignal] at hst
  obtain ⟨spec, -, -, rfl⟩ := BacktestSnapshotAdapter.new_get hadapter hst
  have hfed : ∃ st, get (adapter.warmUp warmup).states tf = some st ∧ st.fed = warmup := by
    refine ⟨(TimeFrameState.new spec).warmUp warmup, ?_, by simp⟩
    unfold BacktestSnapshotAdapter.warmUp
    rw [BacktestSnapshotAdapter.warmUpAll_get, hst, hsignal]
    simp [OrderedMap.get]
  obtain ⟨st, hst, hfed⟩ := hfed
  refine ⟨rfl, hsignal, by simp [CandleAccumulator.new], st, hst, ?_, ?_⟩
  · rw [hfed]
    refine List.pairwise_map.mpr (hseries.ascending.imp_of_mem fun {a b} ha hb hlt => ?_)
    exact tf.bucket_lt_of_aligned (hseries.aligned a ha) (hseries.aligned b hb) hlt
  · intro c hc
    rw [hfed] at hc
    have hlt := (hseries.closeTime_le_iff hc haligned).mp (hclosed c hc)
    exact tf.bucket_lt_of_aligned (hseries.aligned c hc) haligned hlt

/-- A run whose warm-up has closed by the start feeds each bucket once. -/
theorem run_once {p : TimescaleDataProvider} (hsound : p.Sound) {pair : CurrencyPair}
    {specs : List TimeFrameIndicatorSpec}
    (hadapter : BacktestSnapshotAdapter.new pair params.config.timeframe specs = .ok adapter)
    (haligned : params.config.timeframe.isAligned params.config.dateRange.dateFrom = true)
    (hwarm : 1 ≤ params.config.warmupCount)
    {s : TickState (BacktestSnapshotAdapter σ) ω}
    (hrun : run (readFrom params p) delayMs adapter world shared = .ok s)
    (hclosed : ∀ warmup, fetchWarmUp (readFrom params p) = .ok warmup →
      ∀ c ∈ warmup, c.closeTime ≤ params.config.dateRange.dateFrom) :
    ∃ st, get s.adapter.states params.config.timeframe = some st ∧
      (st.fed.map fun c => params.config.timeframe.bucket c.openTime).Pairwise (· < ·) := by
  obtain ⟨s₀, s₁, hbegin, hticks, hadapter', -⟩ := run_ok hrun
  obtain ⟨warmup, hwarmup, hfirst, haccumulator, -⟩ := begin_ok hbegin
  have hfirst : adapter.warmUp warmup = s₀.adapter := Except.ok.inj hfirst
  obtain ⟨-, htake⟩ := fetchWarmUp_ok hwarm hwarmup
  have hseries : BarSeries params.config.timeframe warmup := by
    rw [htake]
    refine BarSeries.sublist ?_ (List.take_sublist ..)
    rcases p.fetchCandles_cases hsound
        (requestedFrom_aligned (r := candleRequest params.config) haligned) with
      hquery | ⟨-, dateFrom, hquery⟩
    · exact hquery ▸ FxTick.query_series ..
    · exact hquery ▸ FxTick.query_series ..
  have hstart : OncePerBucket params.config.timeframe params.config.dateRange.dateFrom
      ⟨s₀.adapter, s₀.accumulator⟩ := by
    rw [haccumulator, ← hfirst]
    exact .warmUp hadapter haligned hseries (hclosed warmup hwarmup)
  have hnow : ∀ tick ∈ p.table.between params.config.pair params.config.dateRange.dateFrom
      params.config.dateRange.dateTo, params.config.dateRange.dateFrom ≤ tick.timestamp :=
    fun tick htick => (FxTick.mem_between.mp htick).2.1
  obtain ⟨now, hend⟩ := onTicks_oncePerBucket hstart hnow (p.table.between_ordered ..) hticks
  obtain ⟨st, hst, hasc, -⟩ := hend.fed
  exact ⟨st, hadapter' ▸ hst, hasc⟩

/-- Two runs over tables that agree before a time decide the same before it, where the
first has every bucket before the start filled, or nothing at all to read. -/
theorem run_decisions {p p' : TimescaleDataProvider} (hsound : p.Sound) (hsound' : p'.Sound)
    {time : Int} (hagree : AgreeBefore p.table p'.table params.config.pair time)
    (haligned : params.config.timeframe.isAligned params.config.dateRange.dateFrom = true)
    (hwarm : 1 ≤ params.config.warmupCount)
    {s s' : TickState (BacktestSnapshotAdapter σ) ω}
    (hrun : run (readFrom params p) delayMs adapter world shared = .ok s)
    (hrun' : run (readFrom params p') delayMs adapter world shared = .ok s')
    (hfilled : WarmUpFilled p.table (candleRequest params.config) ∨
      p.table.between params.config.pair
        (TimescaleDataProvider.requestedFrom (candleRequest params.config))
        params.config.dateRange.dateTo = []) :
    s.decisions.filter (fun d => d.time < time) = s'.decisions.filter (fun d => d.time < time) := by
  obtain ⟨s₀, s₁, hbegin, hpast, hdecisions⟩ := decisions_before hrun time
  obtain ⟨s₀', s₁', hbegin', hpast', hdecisions'⟩ := decisions_before hrun' time
  rw [← hagree.between_filter] at hpast'
  rw [hdecisions, hdecisions']
  obtain ⟨warmup, hwarmup, -, -, hnone⟩ := begin_ok hbegin
  obtain ⟨warmup', hwarmup', -, -, hnone'⟩ := begin_ok hbegin'
  by_cases hempty : (p.table.between params.config.pair params.config.dateRange.dateFrom
      params.config.dateRange.dateTo).filter (fun tick => tick.timestamp < time) = []
  · -- no tick of the run lies before the time
    rw [hempty] at hpast hpast'
    cases hpast
    cases hpast'
    rw [hnone, hnone']
  · obtain ⟨tick, htick⟩ := List.exists_mem_of_ne_nil _ hempty
    obtain ⟨htick, hlt⟩ := List.mem_filter.mp htick
    have hlt : tick.timestamp < time := of_decide_eq_true hlt
    obtain ⟨hmem, hfrom, hto⟩ := FxTick.mem_between.mp htick
    have hle := requestedFrom_le (candleRequest params.config)
    have hfilled : WarmUpFilled p.table (candleRequest params.config) := by
      refine hfilled.resolve_right fun hnone => ?_
      have := FxTick.mem_between.mpr ⟨hmem, hle.trans hfrom, hto⟩
      rw [hnone] at this
      simp at this
    have hfilled' : WarmUpFilled p'.table (candleRequest params.config) := by
      intro t ht
      obtain ⟨u, hu, heq⟩ := hfilled t ht
      obtain ⟨hmemu, hfromu, htou⟩ := FxTick.mem_between.mp hu
      obtain ⟨hbound, -, hbefore⟩ := (mem_bucketsBefore haligned).mp ht
      have hend := (candleRequest params.config).timeframe.lt_periodStart_add u.timestamp
      have hnext :=
        (candleRequest params.config).timeframe.add_durationMs_le hbound haligned hbefore
      have hultime : u.timestamp < time := by
        rw [heq] at hend
        exact (hend.trans_le hnext).trans_le (hfrom.trans (Int.le_of_lt hlt))
      exact ⟨u, FxTick.mem_between.mpr ⟨(hagree.mem_iff hultime).mp hmemu, hfromu, htou⟩, heq⟩
    -- both warm-ups are made of the ticks before the start
    have hsame : warmup = warmup' := by
      rw [(fetchWarmUp_ok hwarm hwarmup).2, (fetchWarmUp_ok hwarm hwarmup').2]
      have hrange : params.config.dateRange.dateFrom ≤ params.config.dateRange.dateTo := by omega
      have h := hfilled.take_fetchCandles hsound haligned hwarm hrange
      have h' := hfilled'.take_fetchCandles hsound' haligned hwarm hrange
      have hquery := hagree.query_eq params.config.timeframe
        (TimescaleDataProvider.requestedFrom (candleRequest params.config))
        (hfrom.trans (Int.le_of_lt hlt))
      exact h.trans ((congrArg (List.take params.config.warmupCount) hquery).trans h'.symm)
    subst hsame
    have hstates : s₀ = s₀' := by
      have heq : begin (readFrom params p) delayMs adapter world shared =
          begin (readFrom params p') delayMs adapter world shared := by
        unfold begin
        rw [hwarmup, hwarmup']
      exact Except.ok.inj (hbegin.symm.trans (heq.trans hbegin'))
    subst hstates
    rw [Except.ok.inj (hpast.symm.trans hpast')]

/-- A run that returns does not look ahead exactly where each of the buckets before the
start holds a tick, or where the provider had bars of earlier periods to give and the
requested period is empty. -/
theorem noLookAhead_iff {pair : CurrencyPair} {specs : List TimeFrameIndicatorSpec}
    (hadapter : BacktestSnapshotAdapter.new pair params.config.timeframe specs = .ok adapter)
    (haligned : params.config.timeframe.isAligned params.config.dateRange.dateFrom = true)
    (hwarm : 1 ≤ params.config.warmupCount) (table : FxTick) (requests : List CandleRequest)
    {s : TickState (BacktestSnapshotAdapter σ) ω}
    (hrun : run (readFrom params ((TimescaleDataProvider.new table).after requests)) delayMs adapter
      world shared = .ok s) :
    NoLookAhead params delayMs adapter world shared
        ((TimescaleDataProvider.new table).after requests) s ↔
      WarmUpFilled table (candleRequest params.config) ∨
        table.between params.config.pair
          (TimescaleDataProvider.requestedFrom (candleRequest params.config))
          params.config.dateRange.dateTo = [] := by
  obtain ⟨hsound, htable⟩ :=
    TimescaleDataProvider.after_sound (TimescaleDataProvider.new_sound table) requests
  have htable : ((TimescaleDataProvider.new table).after requests).table = table := htable
  obtain ⟨s₀, -, hbegin, -⟩ := run_ok hrun
  obtain ⟨warmup, hwarmup, -⟩ := begin_ok hbegin
  have hiff : (∀ warmup, fetchWarmUp (readFrom params ((TimescaleDataProvider.new table).after
      requests)) = .ok warmup → ∀ c ∈ warmup, c.closeTime ≤ params.config.dateRange.dateFrom) ↔
      WarmUpFilled table (candleRequest params.config) ∨ table.between params.config.pair
        (TimescaleDataProvider.requestedFrom (candleRequest params.config))
        params.config.dateRange.dateTo = [] := by
    obtain ⟨hlength, rfl⟩ := fetchWarmUp_ok hwarm hwarmup
    have hclosed :=
      warmUp_closed_iff hsound (r := candleRequest params.config) haligned hwarm hlength
    rw [htable] at hclosed
    rw [hwarmup]
    exact ⟨fun h => hclosed.mp (h _ rfl), by rintro h _ ⟨⟩; exact hclosed.mpr h⟩
  constructor
  · exact fun h => hiff.mp h.warmUp
  · intro hfilled
    refine ⟨hiff.mpr hfilled, run_once hsound hadapter haligned hwarm hrun (hiff.mpr hfilled), ?_⟩
    intro table' requests' time s' hagree hrun'
    obtain ⟨hsound', htable'⟩ :=
      TimescaleDataProvider.after_sound (TimescaleDataProvider.new_sound table') requests'
    refine run_decisions hsound hsound' ?_ haligned hwarm hrun hrun' ?_
    · rwa [htable']
    · rwa [htable]

end

/-! ### An empty bucket before the start -/

/-- A tick in each of the first five minutes. -/
def fullTable : FxTick :=
  .ofTicks ([30000, 90000, 125000, 185000, 245000].map quietTick) (by decide +kernel)

/-- The same without the second. -/
def emptyBucketTable : FxTick :=
  .ofTicks ([30000, 125000, 185000, 245000].map quietTick) (by decide +kernel)

/-- A run from the third minute with two bars of warm-up. -/
def quietTickRun (table : FxTick) :
    Except EngineError (TickState (BacktestSnapshotAdapter RecordedSma) Nat) :=
  run (readFrom (quietParams (idealExecutionSimulator countedIds) [] []) (.new table)) 0
    quietAdapter 0 ⟨none, none⟩

theorem noLookAhead_full : ∃ s, quietTickRun fullTable = .ok s ∧
    NoLookAhead (quietParams (idealExecutionSimulator countedIds) [] []) 0 quietAdapter 0
      ⟨none, none⟩ (.new fullTable) s := by
  have hadapter : BacktestSnapshotAdapter.new .usdJpy .oneMinute [⟨.oneMinute, 1, 2⟩] =
    .ok quietAdapter := rfl
  have hreturns : ((quietTickRun fullTable).toOption.any fun _ => true) = true := by
    decide +kernel
  obtain ⟨s, hs, -⟩ := exists_ok hreturns
  have hiff := noLookAhead_iff hadapter (by decide) (by decide) fullTable [] hs
  exact ⟨s, hs, hiff.mpr (.inl (by unfold WarmUpFilled; decide +kernel))⟩

/-- The second bar of the warm-up is of the first minute of the run, and that minute is
fed to the ledger twice. -/
theorem exists_look_ahead :
    ∃ s, quietTickRun emptyBucketTable = .ok s ∧
      (∃ st, get s.adapter.states .oneMinute = some st ∧
        st.fed.map (fun c => TimeFrame.oneMinute.bucket c.openTime) = [0, 2, 2, 3]) ∧
      ¬ NoLookAhead (quietParams (idealExecutionSimulator countedIds) [] []) 0 quietAdapter 0
        ⟨none, none⟩ (.new emptyBucketTable) s := by
  have hreturns : ((quietTickRun emptyBucketTable).toOption.any fun s =>
      (get s.adapter.states .oneMinute).any fun st =>
        st.fed.map (fun c => TimeFrame.oneMinute.bucket c.openTime) = [0, 2, 2, 3]) = true := by
    decide +kernel
  obtain ⟨s, hs, hfed⟩ := exists_ok hreturns
  obtain ⟨st, hst, hfed⟩ := (Option.any_eq_true _ _).mp hfed
  refine ⟨s, hs, ⟨st, hst, of_decide_eq_true hfed⟩, fun h => ?_⟩
  obtain ⟨st', hst', hasc⟩ := h.once
  obtain rfl : st = st' := Option.some.inj (hst.symm.trans hst')
  have hfed : st.fed.map (fun c => TimeFrame.oneMinute.bucket c.openTime) = [0, 2, 2, 3] :=
    of_decide_eq_true hfed
  have hasc : (st.fed.map fun c => TimeFrame.oneMinute.bucket c.openTime).Pairwise (· < ·) := hasc
  rw [hfed] at hasc
  exact absurd hasc (by decide)

end TickEngine

end Luchida
