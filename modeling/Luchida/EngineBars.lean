import Mathlib.Data.List.Sort
import Luchida.CandleAggregation
import Luchida.CandleCache
import Luchida.TickLookAhead

/- The bars of the two backtests. The OHLC engine takes them from a query of the provider,
   which groups the ticks of a period by their buckets. The tick engine makes them itself: it
   feeds the ticks of the period to an accumulator, which confirms a candle once a later bucket
   has a tick, and dates it by its first tick, not by its bucket.

   The two are the same bars (`query_eq_watched`): the query returns the confirmed candles and
   the one still forming, each dated by its bucket. A bar is what sums up all ticks of a bucket
   (`BarOf`), so there is one for a bucket, and either side has one for each bucket with ticks.
   Of ticks of one time the server chooses the open and the close of a bar, and so the two are
   compared where no two ticks have one time (`FxTick.Untied`). -/
namespace Luchida

open Throws

/-! ## The bar of a bucket -/

/-- A confirmed candle that is dated by its bucket. -/
def ConfirmedCandle.toBar (tf : TimeFrame) (c : ConfirmedCandle) : ConfirmedCandle :=
  { c with
    openTime := tf.periodStart c.openTime
    opens_before := (tf.periodStart_le c.openTime).trans_lt c.opens_before }

/-- A forming candle as the bar of its bucket. -/
def FormingCandle.toBar (tf : TimeFrame) (f : FormingCandle) : ConfirmedCandle :=
  (CandleRow.ofCandle (tf.periodStart f.openTime) f).toCandle tf

/-- A candle that sums up the ticks of a bucket. -/
structure BarOf (tf : TimeFrame) (ticks : List Tick) (c : ConfirmedCandle) : Prop where
  prices : ∃ openTime, Summarises (ticks.filter fun t => tf.periodStart t.timestamp = c.openTime)
    c.openPrice c.high c.low c.close openTime
  closeTime : c.closeTime = c.openTime + tf.durationMs
  timeFrame : c.timeFrame = tf

theorem ConfirmedCandle.ext_params {c c' : ConfirmedCandle}
    (h : c.toConfirmedCandleParams = c'.toConfirmedCandleParams) : c = c' := by
  cases c
  cases c'
  cases h
  rfl

/-- The prices are those of the ticks. -/
theorem Summarises.unique {ticks : List Tick} {openPrice high low close openPrice' high' low'
    close' : Price} {openTime openTime' : Int}
    (h : Summarises ticks openPrice high low close openTime)
    (h' : Summarises ticks openPrice' high' low' close' openTime') :
    openPrice = openPrice' ∧ high = high' ∧ low = low' ∧ close = close' := by
  obtain ⟨first, hfirst, hopen, -⟩ := h.opens
  obtain ⟨first', hfirst', hopen', -⟩ := h'.opens
  obtain ⟨last, hlast, hclose⟩ := h.closes
  obtain ⟨last', hlast', hclose'⟩ := h'.closes
  obtain rfl := Option.some.inj (hfirst.symm.trans hfirst')
  obtain rfl := Option.some.inj (hlast.symm.trans hlast')
  refine ⟨hopen.symm.trans hopen', Price.ext_value ?_, Price.ext_value ?_,
    hclose.symm.trans hclose'⟩
  · obtain ⟨t, ht, hhigh⟩ := h.high_reached
    obtain ⟨t', ht', hhigh'⟩ := h'.high_reached
    apply le_antisymm
    · rw [← hhigh]
      exact h'.le_high t ht
    · rw [← hhigh']
      exact h.le_high t' ht'
  · obtain ⟨t, ht, hlow⟩ := h.low_reached
    obtain ⟨t', ht', hlow'⟩ := h'.low_reached
    apply le_antisymm
    · rw [← hlow']
      exact h.low_le t' ht'
    · rw [← hlow]
      exact h'.low_le t ht

namespace BarOf

variable {tf : TimeFrame} {ticks : List Tick} {c c' : ConfirmedCandle}

/-- A bucket has one bar. -/
theorem unique (h : BarOf tf ticks c) (h' : BarOf tf ticks c') (heq : c.openTime = c'.openTime) :
    c = c' := by
  obtain ⟨t, hprices⟩ := h.prices
  obtain ⟨t', hprices'⟩ := h'.prices
  rw [← heq] at hprices'
  obtain ⟨hopen, hhigh, hlow, hclose⟩ := hprices.unique hprices'
  have hend : c.closeTime = c'.closeTime := by rw [h.closeTime, h'.closeTime, heq]
  have htf : c.timeFrame = c'.timeFrame := h.timeFrame.trans h'.timeFrame.symm
  apply ConfirmedCandle.ext_params
  show ConfirmedCandleParams.mk .. = ConfirmedCandleParams.mk ..
  rw [hopen, hhigh, hlow, hclose, heq, hend, htf]

/-- Its bucket has a tick. -/
theorem exists_tick (h : BarOf tf ticks c) :
    ∃ t ∈ ticks, tf.periodStart t.timestamp = c.openTime := by
  obtain ⟨t, hprices⟩ := h.prices
  obtain ⟨first, hfirst, -⟩ := hprices.opens
  have hmem := List.mem_filter.mp (List.mem_of_mem_head? hfirst)
  exact ⟨first, hmem.1, of_decide_eq_true hmem.2⟩

/-- Where each bucket with ticks has one, these are all bars. -/
theorem mem_iff_of_complete {bars : List ConfirmedCandle} (hbars : ∀ c ∈ bars, BarOf tf ticks c)
    (hcomplete : ∀ t ∈ ticks, tf.periodStart t.timestamp ∈ bars.map (·.openTime)) :
    c ∈ bars ↔ BarOf tf ticks c := by
  constructor
  · exact hbars c
  · intro h
    obtain ⟨t, ht, hbucket⟩ := h.exists_tick
    obtain ⟨d, hd, hopen⟩ := List.mem_map.mp (hcomplete t ht)
    exact (hbars d hd).unique h (hopen.trans hbucket) ▸ hd

end BarOf

/-- Bars in order, one for each bucket with ticks, are determined by the ticks. -/
theorem bars_unique {tf : TimeFrame} {ticks : List Tick} {bars bars' : List ConfirmedCandle}
    (hbars : ∀ c ∈ bars, BarOf tf ticks c) (hbars' : ∀ c ∈ bars', BarOf tf ticks c)
    (hcomplete : ∀ t ∈ ticks, tf.periodStart t.timestamp ∈ bars.map (·.openTime))
    (hcomplete' : ∀ t ∈ ticks, tf.periodStart t.timestamp ∈ bars'.map (·.openTime))
    (hasc : bars.Pairwise (fun a b => a.openTime < b.openTime))
    (hasc' : bars'.Pairwise (fun a b => a.openTime < b.openTime)) : bars = bars' := by
  have hmem : ∀ c, c ∈ bars ↔ c ∈ bars' := fun c => by
    rw [BarOf.mem_iff_of_complete hbars hcomplete, BarOf.mem_iff_of_complete hbars' hcomplete']
  have hperm : bars.Perm bars' := by
    refine (List.perm_ext_iff_of_nodup ?_ ?_).mpr hmem
    · exact hasc.imp fun hlt heq => absurd (heq ▸ hlt) (lt_irrefl _)
    · exact hasc'.imp fun hlt heq => absurd (heq ▸ hlt) (lt_irrefl _)
  exact hperm.eq_of_pairwise (fun a b _ _ hlt hlt' => absurd (hlt.trans hlt') (lt_irrefl _))
    hasc hasc'

/-! ## The bars of a query -/

/-- Without ticks of one time, the row of a group sums up its ticks in their order. -/
theorem CandleRow.Summarises.inOrder {ties : TieRule} {row : CandleRow} {bucket : Int}
    {ticks : List Tick} (h : row.Summarises ties bucket ticks)
    (hstrict : ticks.Pairwise (fun a b => a.timestamp < b.timestamp)) :
    ∃ openTime, Luchida.Summarises ticks row.openPrice row.high row.low row.close openTime := by
  have hopens := h.opens
  have hcloses := h.closes
  rw [ties.firstTick_eq_head? hstrict] at hopens
  rw [ties.lastTick_eq_getLast? hstrict] at hcloses
  obtain ⟨first, hfirst, hopen⟩ := Option.map_eq_some_iff.mp hopens
  obtain ⟨last, hlast, hclose⟩ := Option.map_eq_some_iff.mp hcloses
  obtain ⟨highest, hhighest, hhigh⟩ := h.high_mem
  obtain ⟨lowest, hlowest, hlow⟩ := h.low_mem
  exact ⟨first.timestamp, ⟨first, hfirst, hopen, rfl⟩, ⟨highest, hhighest, hhigh.symm⟩,
    h.le_high, ⟨lowest, hlowest, hlow.symm⟩, h.low_le, ⟨last, hlast, hclose⟩⟩

section
variable {tf : TimeFrame} {ticks : List Tick} {tick : Tick}

/-- A tick that is the only one of its bucket. -/
theorem ofTick_ticks (h : ∀ t ∈ ticks, tf.periodStart t.timestamp ≠ tf.periodStart tick.timestamp) :
    (TickGroup.ofTick tf tick).ticks = (tick :: ticks).filter fun t =>
      tf.periodStart t.timestamp = (TickGroup.ofTick tf tick).bucket := by
  have hnone : ticks.filter (fun t =>
      tf.periodStart t.timestamp = tf.periodStart tick.timestamp) = [] := by
    rw [List.filter_eq_nil_iff]
    intro t ht
    simpa using h t ht
  have hfilter : (tick :: ticks).filter (fun t =>
      tf.periodStart t.timestamp = tf.periodStart tick.timestamp) = [tick] := by
    rw [List.filter_cons_of_pos (by simp), hnone]
  exact hfilter.symm

/-- A group has the ticks of its bucket. -/
theorem groupByBucket_ticks (h : ticks.Pairwise (fun a b => a.timestamp ≤ b.timestamp)) :
    ∀ group ∈ groupByBucket tf ticks,
      group.ticks = ticks.filter fun t => tf.periodStart t.timestamp = group.bucket := by
  induction ticks with
  | nil => simp [groupByBucket]
  | cons tick ticks ih =>
    have hgroups : (groupByBucket tf (tick :: ticks)).Pairwise (fun a b => a.bucket < b.bucket) :=
      groupByBucket_ascending h
    obtain ⟨-, hrest⟩ := List.pairwise_cons.mp h
    have hticks := ih hrest
    have hbucket : ∀ t ∈ ticks, tf.periodStart t.timestamp ∈
        (groupByBucket tf ticks).map (·.bucket) := fun t ht => mem_groupByBucket.mpr ⟨t, ht, rfl⟩
    -- the tick is of no later bucket
    have hlater : ∀ group : TickGroup, tf.periodStart tick.timestamp < group.bucket →
        (tick :: ticks).filter (fun t => tf.periodStart t.timestamp = group.bucket) =
          ticks.filter (fun t => tf.periodStart t.timestamp = group.bucket) := by
      intro group hlt
      rw [List.filter_cons_of_neg]
      simpa using hlt.ne
    rw [groupByBucket] at hgroups ⊢
    cases hcases : groupByBucket tf ticks with
    | nil =>
      rw [hcases] at hbucket
      intro group hgroup
      obtain rfl := List.mem_singleton.mp hgroup
      exact ofTick_ticks fun t ht => absurd (hbucket t ht) (by simp)
    | cons first groups =>
      rw [hcases] at hgroups hticks hbucket
      simp only [prependTick] at hgroups ⊢
      split at hgroups
      · rename_i heq
        rw [if_pos heq]
        obtain ⟨hfirst, -⟩ := List.pairwise_cons.mp hgroups
        intro group hgroup
        rcases List.mem_cons.mp hgroup with rfl | hgroup
        · have hfilter : (tick :: ticks).filter (fun t =>
              tf.periodStart t.timestamp = (first.precede tick).bucket) =
                tick :: ticks.filter (fun t => tf.periodStart t.timestamp = first.bucket) :=
            List.filter_cons_of_pos (decide_eq_true heq.symm)
          rw [hfilter, ← hticks first List.mem_cons_self]
          rfl
        · rw [hlater group (heq ▸ hfirst group hgroup)]
          exact hticks group (List.mem_cons_of_mem _ hgroup)
      · rename_i hne
        rw [if_neg hne]
        obtain ⟨hfirst, -⟩ := List.pairwise_cons.mp hgroups
        intro group hgroup
        rcases List.mem_cons.mp hgroup with rfl | hgroup
        · refine ofTick_ticks fun t ht heq => ?_
          obtain ⟨group, hgroup, hopen⟩ := List.mem_map.mp (hbucket t ht)
          have hlt := hfirst group hgroup
          rw [hopen, heq] at hlt
          exact lt_irrefl _ hlt
        · rw [hlater group (hfirst group hgroup)]
          exact hticks group hgroup

end

/-- A table without two ticks of a pair at one time: what the server chooses among such ticks
does not show. -/
def FxTick.Untied (table : FxTick) (pair : CurrencyPair) : Prop :=
  (table.ticks pair).Pairwise (fun a b => a.timestamp < b.timestamp)

/-- A query returns the bars of the ticks in its period. -/
theorem FxTick.query_bars {table : FxTick} {pair : CurrencyPair} (huntied : table.Untied pair)
    (tf : TimeFrame) (dateFrom dateTo : Int) : ∀ c ∈ table.query pair tf dateFrom dateTo,
      BarOf tf (table.between pair dateFrom dateTo) c := by
  intro c hc
  obtain ⟨row, hrow, rfl⟩ := List.mem_map.mp hc
  obtain ⟨group, hgroup, rfl⟩ := List.mem_map.mp hrow
  have hticks := groupByBucket_ticks (table.between_ordered pair dateFrom dateTo) group hgroup
  have hsums := group.row_sums table.ties
  rw [hticks] at hsums
  refine ⟨hsums.inOrder (huntied.sublist ?_), rfl, rfl⟩
  exact List.filter_sublist.trans List.filter_sublist

/-! ## The bars of an accumulator -/

/-- What an accumulator has made of its ticks, as bars: those confirmed, and the one that is
forming. -/
def watchedBars (tf : TimeFrame) (done : List Confirmation) (acc : CandleAccumulator) :
    List ConfirmedCandle :=
  done.map (fun c => c.candle.toBar tf) ++ (acc.forming.map (·.toBar tf)).toList

namespace Aggregated

variable {tf : TimeFrame} {ticks : List Tick} {done : List Confirmation} {acc : CandleAccumulator}

/-- Ticks of a bucket. -/
theorem filter_bucket (tf : TimeFrame) (ticks : List Tick) (time : Int) :
    ticks.filter (fun t => tf.bucket t.timestamp = tf.bucket time) =
      ticks.filter (fun t => tf.periodStart t.timestamp = tf.periodStart time) := by
  refine List.filter_congr fun t _ => ?_
  rw [decide_eq_decide]
  exact (tf.periodStart_eq_iff ..).symm

theorem bars (h : Aggregated tf ticks done acc) :
    ∀ c ∈ watchedBars tf done acc, BarOf tf ticks c := by
  intro c hc
  rcases List.mem_append.mp hc with hc | hc
  · obtain ⟨d, hd, rfl⟩ := List.mem_map.mp hc
    obtain ⟨hprices, hclose, htf⟩ := h.sums d hd
    rw [filter_bucket] at hprices
    exact ⟨⟨_, hprices⟩, hclose, htf⟩
  · obtain ⟨f, hf, rfl⟩ := Option.map_eq_some_iff.mp (Option.mem_toList.mp hc)
    obtain ⟨last, -, hsums, hbucket⟩ := h.forming_last hf
    rw [← hbucket, filter_bucket] at hsums
    exact ⟨⟨_, hsums⟩, rfl, rfl⟩

/-- Each bucket with ticks has been confirmed, or is the last one. -/
theorem bars_complete (h : Aggregated tf ticks done acc) (hin : InBuckets tf ticks) :
    ∀ t ∈ ticks, tf.periodStart t.timestamp ∈ (watchedBars tf done acc).map (·.openTime) := by
  intro t ht
  obtain ⟨last, hlast⟩ : ∃ last, last ∈ ticks.getLast? :=
    ⟨_, List.getLast?_eq_some_getLast (List.ne_nil_of_mem ht)⟩
  obtain ⟨f, hf, hsums⟩ := h.forming last hlast
  unfold watchedBars
  rw [List.map_append, List.mem_append]
  rcases lt_or_eq_of_le (hin.le_last hlast t ht) with hlt | heq
  · obtain ⟨c, hc, hbucket⟩ :=
      (h.confirmed_iff _).mpr ⟨⟨t, ht, rfl⟩, last, List.mem_of_getLast? hlast, hlt⟩
    refine .inl (List.mem_map.mpr ⟨_, List.mem_map.mpr ⟨c, hc, rfl⟩, ?_⟩)
    exact (tf.periodStart_eq_iff ..).mpr hbucket
  · refine .inr (List.mem_map.mpr ⟨f.toBar tf, ?_, ?_⟩)
    · rw [Option.mem_def.mp hf]
      simp
    · exact (tf.periodStart_eq_iff ..).mpr (hsums.bucket_eq.trans heq.symm)

theorem bars_ascending (h : Aggregated tf ticks done acc) (hin : InBuckets tf ticks) :
    (watchedBars tf done acc).Pairwise (fun a b => a.openTime < b.openTime) := by
  have hstart : ∀ {s t : Int}, tf.bucket s < tf.bucket t → tf.periodStart s < tf.periodStart t :=
    fun hlt => Int.mul_lt_mul_of_pos_right hlt tf.durationMs_pos
  refine List.pairwise_append.mpr ⟨?_, ?_, fun a ha b hb => ?_⟩
  · have hasc := List.pairwise_map.mp h.ascending
    exact List.pairwise_map.mpr (hasc.imp hstart)
  · cases acc.forming <;> simp
  · obtain ⟨d, hd, rfl⟩ := List.mem_map.mp ha
    obtain ⟨f, hf, rfl⟩ := Option.map_eq_some_iff.mp (Option.mem_toList.mp hb)
    obtain ⟨last, hlast, -, hbucket⟩ := h.forming_last hf
    refine hstart ?_
    rw [hbucket]
    exact h.confirmed_lt (hin.le_last hlast) hd

end Aggregated

namespace FxTick

variable {table : FxTick} {pair : CurrencyPair} {tf : TimeFrame} {dateFrom dateTo : Int}

/-- A query returns what the accumulator has made of the ticks. -/
theorem query_eq_watchedBars (huntied : table.Untied pair) {done : List Confirmation}
    {acc : CandleAccumulator} (h : Aggregated tf (table.between pair dateFrom dateTo) done acc) :
    table.query pair tf dateFrom dateTo = watchedBars tf done acc := by
  have hin : InBuckets tf (table.between pair dateFrom dateTo) :=
    .of_timestamps (table.between_ordered pair dateFrom dateTo)
  refine bars_unique (query_bars huntied tf dateFrom dateTo) h.bars (fun t ht => ?_)
    (h.bars_complete hin) (table.query_series pair tf dateFrom dateTo).ascending
    (h.bars_ascending hin)
  exact mem_query.mpr ⟨t, ht, rfl⟩

/-- Fed the ticks of a period, no two of one time, an accumulator confirms the bars that the
query of the period returns, each dated by its first tick, but for the last one, which is still
forming. -/
theorem query_eq_watched (table : FxTick) (pair : CurrencyPair) (huntied : table.Untied pair)
    (tf : TimeFrame) (dateFrom dateTo : Int) :
    ∃ done acc, (CandleAccumulator.new tf).watchAll (table.between pair dateFrom dateTo) =
        .ok (done, acc) ∧
      table.query pair tf dateFrom dateTo = watchedBars tf done acc := by
  have hin : InBuckets tf (table.between pair dateFrom dateTo) :=
    .of_timestamps (table.between_ordered pair dateFrom dateTo)
  obtain ⟨done, acc, hrun, hagg⟩ :=
    (CandleAccumulator.new tf).aggregated_of_inBuckets rfl hin
  exact ⟨done, acc, hrun, query_eq_watchedBars huntied hagg⟩

theorem query_eq_watched_full :
    TickEngine.fullTable.Untied .usdJpy ∧ ∃ done acc,
      (CandleAccumulator.new .oneMinute).watchAll
        (TickEngine.fullTable.between .usdJpy 60000 300000) = .ok (done, acc) ∧
      TickEngine.fullTable.query .usdJpy .oneMinute 60000 300000 =
        watchedBars .oneMinute done acc := by
  have huntied : TickEngine.fullTable.Untied .usdJpy := by
    unfold Untied
    decide +kernel
  exact ⟨huntied, query_eq_watched TickEngine.fullTable .usdJpy huntied .oneMinute 60000 300000⟩

end FxTick

end Luchida
