import Luchida.TimescaleDataProvider

/- The candle cache of TimescaleDataProvider.ts against a provider without one. A call that
   is served from the cache gets the bars of a longer period with the front cut off. The
   search for the cut compares open times, which are bucket starts:

   - a bar of the requested period that opened before its start is cut off too, so a start
     inside a bucket that has ticks loses its first bar;
   - where no bar opens at or after the start, nothing is cut (`startIdx > 0 ? … : all`),
     and the bars of the longer period come back (`exists_stale_bars`).

   `cut_query_eq_iff` says exactly when neither shows, and `transparent_iff` says it of
   every sequence of calls. -/
namespace Luchida

open OrderedMap

/-! ## Bars of one bucket -/

/-- The row is the open, high, low and close of these ticks. -/
structure CandleRow.Summarises (ties : TieRule) (row : CandleRow) (bucket : Int)
    (ticks : List Tick) : Prop where
  bucket : row.bucket = bucket
  opens : (ties.firstTick ticks).map (·.bid) = some row.openPrice
  high_mem : ∃ t ∈ ticks, row.high = t.bid
  le_high : ∀ t ∈ ticks, t.bid.value ≤ row.high.value
  low_mem : ∃ t ∈ ticks, row.low = t.bid
  low_le : ∀ t ∈ ticks, row.low.value ≤ t.bid.value
  closes : (ties.lastTick ticks).map (·.bid) = some row.close

theorem TickGroup.row_sums (ties : TieRule) (group : TickGroup) :
    (group.row ties).Summarises ties group.bucket group.ticks where
  bucket := rfl
  opens := by
    obtain ⟨first, hfirst⟩ := ties.exists_firstTick (List.cons_ne_nil group.first group.rest)
    show (ties.firstTick group.ticks).map _ = some (group.bidOf (ties.firstTick group.ticks))
    rw [show ties.firstTick group.ticks = some first from hfirst]
    rfl
  high_mem := group.maxBid_mem
  le_high _ := le_maxBid
  low_mem := group.minBid_mem
  low_le _ := minBid_le
  closes := by
    obtain ⟨last, hlast⟩ := ties.exists_lastTick (List.cons_ne_nil group.first group.rest)
    show (ties.lastTick group.ticks).map _ = some (group.bidOf (ties.lastTick group.ticks))
    rw [show ties.lastTick group.ticks = some last from hlast]
    rfl

/-- Ticks of one bucket make one group. -/
theorem groupByBucket_one {tf : TimeFrame} {bucket : Int} {ticks : List Tick} (hne : ticks ≠ [])
    (h : ∀ t ∈ ticks, tf.periodStart t.timestamp = bucket) :
    ∃ group, groupByBucket tf ticks = [group] ∧ group.bucket = bucket ∧ group.ticks = ticks := by
  induction ticks with
  | nil => exact absurd rfl hne
  | cons tick ticks ih =>
    have hbucket := h tick List.mem_cons_self
    by_cases hlast : ticks = []
    · subst hlast
      exact ⟨.ofTick tf tick, rfl, hbucket, rfl⟩
    · obtain ⟨group, hgroup, hsame, rfl⟩ := ih hlast fun t ht => h t (List.mem_cons_of_mem _ ht)
      refine ⟨group.precede tick, ?_, hsame, rfl⟩
      rw [groupByBucket, hgroup, prependTick, if_pos (hsame.trans hbucket.symm)]

/-- Their row sums them up. -/
theorem candleRows_one (ties : TieRule) {tf : TimeFrame} {bucket : Int} {ticks : List Tick}
    (hne : ticks ≠ []) (h : ∀ t ∈ ticks, tf.periodStart t.timestamp = bucket) :
    ∃ row, candleRows ties tf ticks = [row] ∧ row.Summarises ties bucket ticks := by
  obtain ⟨group, hgroup, rfl, rfl⟩ := groupByBucket_one hne h
  refine ⟨group.row ties, ?_, group.row_sums ties⟩
  unfold candleRows
  rw [hgroup]
  rfl

theorem mem_candleRows {ties : TieRule} {tf : TimeFrame} {ticks : List Tick} {b : Int} :
    b ∈ (candleRows ties tf ticks).map (·.bucket) ↔
      ∃ tick ∈ ticks, tf.periodStart tick.timestamp = b := by
  rw [← mem_groupByBucket]
  simp [candleRows, TickGroup.row]

theorem Price.ext_value {p q : Price} (h : p.value = q.value) : p = q := by
  cases p
  cases q
  simpa using h

theorem CandleRow.eq_of_fields {r s : CandleRow} (hbucket : r.bucket = s.bucket)
    (hopen : r.openPrice = s.openPrice) (hhigh : r.high = s.high) (hlow : r.low = s.low)
    (hclose : r.close = s.close) : r = s := by
  cases r
  cases s
  simp_all

theorem CandleRow.toCandle_injective (tf : TimeFrame) :
    Function.Injective (CandleRow.toCandle tf) := by
  intro r s h
  have hparams := congrArg ConfirmedCandle.toConfirmedCandleParams h
  simp only [CandleRow.toCandle, ConfirmedCandleParams.mk.injEq] at hparams
  obtain ⟨hopen, hhigh, hlow, hclose, hbucket, _⟩ := hparams
  exact CandleRow.eq_of_fields hbucket hopen hhigh hlow hclose

/-! ## Ticks that leave a bar as it is -/

/-- Ticks in front of others that change nothing about the bar of those: they are in its
bucket and inside its range, and the first of them is at its open. -/
structure LeavesBar (ties : TieRule) (tf : TimeFrame) (bucket : Int) (early late : List Tick) :
    Prop where
  bucket : ∀ t ∈ early, tf.periodStart t.timestamp = bucket
  opens : (ties.firstTick early).map (·.bid) = (ties.firstTick late).map (·.bid)
  above : ∀ t ∈ early, ∃ lo ∈ late, lo.bid.value ≤ t.bid.value
  below : ∀ t ∈ early, ∃ hi ∈ late, t.bid.value ≤ hi.bid.value

/-- Of two rows of one bucket, one with ticks in front, the bars are the same exactly when
those ticks leave it as it is. -/
theorem CandleRow.Summarises.eq_iff {ties : TieRule} {tf : TimeFrame} {bucket : Int}
    {early late : List Tick} {whole row : CandleRow}
    (hwhole : whole.Summarises ties bucket (early ++ late)) (hrow : row.Summarises ties bucket late)
    (hne : early ≠ []) (hbucket : ∀ t ∈ early, tf.periodStart t.timestamp = bucket)
    (hbefore : ∀ t ∈ early, ∀ u ∈ late, t.timestamp < u.timestamp) :
    whole = row ↔ LeavesBar ties tf bucket early late := by
  have hlate : late ≠ [] := by
    obtain ⟨t, ht, -⟩ := hrow.high_mem
    exact List.ne_nil_of_mem ht
  have hopens := hwhole.opens
  have hcloses := hwhole.closes
  rw [ties.firstTick_append hne hbefore] at hopens
  rw [ties.lastTick_append hlate hbefore, hrow.closes] at hcloses
  constructor
  · intro heq
    subst heq
    obtain ⟨lo, hlo, hlow⟩ := hrow.low_mem
    obtain ⟨hi, hhi, hhigh⟩ := hrow.high_mem
    refine ⟨hbucket, hopens.trans hrow.opens.symm, ?_, ?_⟩
    · intro t ht
      refine ⟨lo, hlo, ?_⟩
      rw [← hlow]
      exact hwhole.low_le t (List.mem_append_left _ ht)
    · intro t ht
      refine ⟨hi, hhi, ?_⟩
      rw [← hhigh]
      exact hwhole.le_high t (List.mem_append_left _ ht)
  · intro h
    have hopen : whole.openPrice = row.openPrice := by
      have hboth := hopens.symm.trans (h.opens.trans hrow.opens)
      exact Option.some.inj hboth
    have hhigh : whole.high = row.high := by
      apply Price.ext_value
      apply le_antisymm
      · obtain ⟨t, ht, heq⟩ := hwhole.high_mem
        rw [heq]
        cases List.mem_append.mp ht with
        | inl hearly =>
          obtain ⟨hi, hhi, hle⟩ := h.below t hearly
          exact hle.trans (hrow.le_high hi hhi)
        | inr hlate => exact hrow.le_high t hlate
      · obtain ⟨t, ht, heq⟩ := hrow.high_mem
        rw [heq]
        exact hwhole.le_high t (List.mem_append_right _ ht)
    have hlow : whole.low = row.low := by
      apply Price.ext_value
      apply le_antisymm
      · obtain ⟨t, ht, heq⟩ := hrow.low_mem
        rw [heq]
        exact hwhole.low_le t (List.mem_append_right _ ht)
      · obtain ⟨t, ht, heq⟩ := hwhole.low_mem
        rw [heq]
        cases List.mem_append.mp ht with
        | inl hearly =>
          obtain ⟨lo, hlo, hle⟩ := h.above t hearly
          exact (hrow.low_le lo hlo).trans hle
        | inr hlate => exact hrow.low_le t hlate
    exact CandleRow.eq_of_fields (hwhole.bucket.trans hrow.bucket.symm) hopen hhigh hlow
      (Option.some.inj hcloses).symm

/-- Ticks in front of those of one bucket, or of none, leave the bars as they are exactly
when there are none of them or they leave the one bar as it is. -/
theorem candleRows_append_eq_iff {ties : TieRule} {tf : TimeFrame} {bucket : Int}
    {early late : List Tick} (hlate : ∀ t ∈ late, tf.periodStart t.timestamp = bucket)
    (hbefore : ∀ t ∈ early, ∀ u ∈ late, t.timestamp < u.timestamp) :
    candleRows ties tf (early ++ late) = candleRows ties tf late ↔
      early = [] ∨ LeavesBar ties tf bucket early late := by
  by_cases hearly : early = []
  · simp [hearly]
  · simp only [hearly, false_or]
    by_cases hbucket : ∀ t ∈ early, tf.periodStart t.timestamp = bucket
    · have hboth : ∀ t ∈ early ++ late, tf.periodStart t.timestamp = bucket := by
        intro t ht
        cases List.mem_append.mp ht with
        | inl h => exact hbucket t h
        | inr h => exact hlate t h
      obtain ⟨whole, hwhole, hwholeSum⟩ := candleRows_one ties (by simp [hearly]) hboth
      rw [hwhole]
      by_cases hnone : late = []
      · subst hnone
        obtain ⟨t, ht⟩ := List.exists_mem_of_ne_nil _ hearly
        constructor
        · intro h
          exact absurd h (by simp [candleRows, groupByBucket])
        · intro h
          obtain ⟨lo, hlo, _⟩ := h.above t ht
          exact absurd hlo List.not_mem_nil
      · obtain ⟨row, hrow, hrowSum⟩ := candleRows_one ties hnone hlate
        rw [hrow, List.cons.injEq]
        simpa using hwholeSum.eq_iff hrowSum hearly hbucket hbefore
    · constructor
      · intro heq
        -- a tick of another bucket brings a row that the later ticks do not have
        refine absurd ?_ hbucket
        intro t ht
        have hmem : tf.periodStart t.timestamp ∈
            (candleRows ties tf (early ++ late)).map (·.bucket) :=
          mem_candleRows.mpr ⟨t, List.mem_append_left _ ht, rfl⟩
        rw [heq] at hmem
        obtain ⟨u, hu, hsame⟩ := mem_candleRows.mp hmem
        rw [← hsame]
        exact hlate u hu
      · intro h
        exact absurd h.bucket hbucket

/-! ## The cut -/

/-- The first boundary that is not before a time. -/
def TimeFrame.nextBoundary (tf : TimeFrame) (t : Int) : Int :=
  if tf.isAligned t = true then t else tf.periodStart t + tf.durationMs

namespace TimeFrame

theorem le_nextBoundary (tf : TimeFrame) (t : Int) : t ≤ tf.nextBoundary t := by
  unfold nextBoundary
  split
  · exact le_rfl
  · exact (tf.lt_periodStart_add t).le

theorem isAligned_nextBoundary (tf : TimeFrame) (t : Int) :
    tf.isAligned (tf.nextBoundary t) = true := by
  unfold nextBoundary
  split
  · assumption
  · have hstart := tf.isAligned_periodStart t
    simp only [isAligned, beq_iff_eq] at hstart ⊢
    rw [Int.add_emod_right, hstart]

/-- The bucket of a time before the boundary begins before the time the boundary is for. -/
theorem periodStart_lt_of_lt_nextBoundary (tf : TimeFrame) {s t : Int}
    (h : s < tf.nextBoundary t) : tf.periodStart s < t := by
  unfold nextBoundary at h
  split at h
  · exact (tf.periodStart_le s).trans_lt h
  · rename_i halign
    have hbucket : tf.periodStart s ≤ tf.periodStart t := by
      by_contra hlt
      have hnext := tf.add_durationMs_le (tf.isAligned_periodStart t)
        (tf.isAligned_periodStart s) (not_le.mp hlt)
      have hle := tf.periodStart_le s
      omega
    have hne : tf.periodStart t ≠ t := by
      intro heq
      apply halign
      rw [← heq]
      exact tf.isAligned_periodStart t
    exact lt_of_le_of_lt hbucket (lt_of_le_of_ne (tf.periodStart_le t) hne)

end TimeFrame

namespace TimescaleDataProvider

section Cut

variable {table : FxTick} {pair : CurrencyPair} {tf : TimeFrame} {effectiveFrom start dateTo : Int}

theorem opens_before_start (hto : dateTo ≤ tf.nextBoundary start) :
    ∀ c ∈ table.query pair tf effectiveFrom dateTo, c.openTime < start := by
  intro c hc
  obtain ⟨tick, htick, heq⟩ := FxTick.mem_query.mp (List.mem_map_of_mem (f := (·.openTime)) hc)
  rw [← heq]
  apply tf.periodStart_lt_of_lt_nextBoundary
  exact (FxTick.mem_between.mp htick).2.2.trans_le hto

theorem opens_from_start :
    ∀ c ∈ table.query pair tf (tf.nextBoundary start) dateTo, start ≤ c.openTime := by
  intro c hc
  obtain ⟨tick, htick, heq⟩ := FxTick.mem_query.mp (List.mem_map_of_mem (f := (·.openTime)) hc)
  rw [← heq]
  have hle := tf.le_periodStart (tf.isAligned_nextBoundary start) (FxTick.mem_between.mp htick).2.1
  exact (tf.le_nextBoundary start).trans hle

/-- What the cut leaves: the bars from the next boundary on, or all of them where there
are no ticks from there on. -/
theorem cut_query (hle : effectiveFrom ≤ start) :
    cut start (table.query pair tf effectiveFrom dateTo) =
      if table.between pair (tf.nextBoundary start) dateTo = [] then
        table.query pair tf effectiveFrom dateTo
      else table.query pair tf (tf.nextBoundary start) dateTo := by
  have hboundary := hle.trans (tf.le_nextBoundary start)
  by_cases hto : tf.nextBoundary start ≤ dateTo
  · have hnil : table.query pair tf (tf.nextBoundary start) dateTo = [] ↔
        table.between pair (tf.nextBoundary start) dateTo = [] := FxTick.query_eq_nil_iff
    rw [table.query_split pair (tf.isAligned_nextBoundary start) hboundary hto,
      cut_append (opens_before_start le_rfl) opens_from_start]
    by_cases hnone : table.between pair (tf.nextBoundary start) dateTo = []
    · rw [if_pos (hnil.mpr hnone), if_pos hnone, hnil.mpr hnone, List.append_nil]
    · rw [if_neg (mt hnil.mp hnone), if_neg hnone]
  · have hnone : table.between pair (tf.nextBoundary start) dateTo = [] := by
      rw [List.eq_nil_iff_forall_not_mem]
      intro tick htick
      have hmem := FxTick.mem_between.mp htick
      omega
    have hearly : ∀ c ∈ table.query pair tf effectiveFrom dateTo, c.openTime < start :=
      opens_before_start (not_le.mp hto).le
    have hlate : ∀ c ∈ ([] : List ConfirmedCandle), start ≤ c.openTime := by simp
    have hcut := cut_append hearly hlate
    rw [if_pos hnone]
    rwa [List.append_nil, if_pos rfl] at hcut

end Cut

/-- The cut of a period that began at `effectiveFrom` gives the bars of the request. With a
tick from the next boundary on, there is none between the start and that boundary. With
none, the ticks of the longer period before the start leave the bars as they are. -/
def CutsRight (table : FxTick) (r : CandleRequest) (effectiveFrom : Int) : Prop :=
  let start := requestedFrom r
  let boundary := r.timeframe.nextBoundary start
  let early := table.between r.pair effectiveFrom (min start r.range.dateTo)
  if table.between r.pair boundary r.range.dateTo = [] then
    early = [] ∨ LeavesBar table.ties r.timeframe (r.timeframe.periodStart start) early
      (table.between r.pair start r.range.dateTo)
  else table.between r.pair start boundary = []

theorem cut_query_eq_iff {table : FxTick} {r : CandleRequest} {effectiveFrom : Int}
    (hle : effectiveFrom ≤ requestedFrom r) :
    cut (requestedFrom r) (table.query r.pair r.timeframe effectiveFrom r.range.dateTo) =
        table.query r.pair r.timeframe (requestedFrom r) r.range.dateTo ↔
      CutsRight table r effectiveFrom := by
  unfold CutsRight
  dsimp only
  rw [cut_query hle]
  by_cases hnone : table.between r.pair (r.timeframe.nextBoundary (requestedFrom r))
      r.range.dateTo = []
  · rw [if_pos hnone, if_pos hnone]
    -- what is left of the requested period is in the bucket of its start
    have hbucket : ∀ t ∈ table.between r.pair (requestedFrom r) r.range.dateTo,
        r.timeframe.periodStart t.timestamp = r.timeframe.periodStart (requestedFrom r) := by
      intro t ht
      obtain ⟨hmem, hfrom, hto⟩ := FxTick.mem_between.mp ht
      have hbefore : t.timestamp < r.timeframe.nextBoundary (requestedFrom r) := by
        by_contra hlate
        have hin : t ∈ table.between r.pair (r.timeframe.nextBoundary (requestedFrom r))
            r.range.dateTo := FxTick.mem_between.mpr ⟨hmem, not_lt.mp hlate, hto⟩
        rw [hnone] at hin
        exact absurd hin List.not_mem_nil
      apply le_antisymm
      · exact r.timeframe.le_periodStart (r.timeframe.isAligned_periodStart t.timestamp)
          (r.timeframe.periodStart_lt_of_lt_nextBoundary hbefore).le
      · exact r.timeframe.periodStart_mono hfrom
    have hsplit : table.between r.pair effectiveFrom r.range.dateTo =
        table.between r.pair effectiveFrom (min (requestedFrom r) r.range.dateTo) ++
          table.between r.pair (requestedFrom r) r.range.dateTo := by
      by_cases hto : requestedFrom r ≤ r.range.dateTo
      · rw [min_eq_left hto]
        exact table.between_split r.pair hle hto
      · have hlate : table.between r.pair (requestedFrom r) r.range.dateTo = [] := by
          rw [List.eq_nil_iff_forall_not_mem]
          intro tick htick
          have hmem := FxTick.mem_between.mp htick
          omega
        rw [min_eq_right (not_le.mp hto).le, hlate, List.append_nil]
    have hinjective := List.map_injective_iff.mpr (CandleRow.toCandle_injective r.timeframe)
    unfold FxTick.query
    rw [hinjective.eq_iff, hsplit]
    refine candleRows_append_eq_iff hbucket fun t ht u hu => ?_
    have hbefore := (FxTick.mem_between.mp ht).2.2.trans_le (min_le_left ..)
    exact hbefore.trans_le (FxTick.mem_between.mp hu).2.1
  · rw [if_neg hnone, if_neg hnone]
    obtain ⟨tick, htick⟩ := List.exists_mem_of_ne_nil _ hnone
    have hmem := FxTick.mem_between.mp htick
    rw [table.query_split r.pair (r.timeframe.isAligned_nextBoundary (requestedFrom r))
      (r.timeframe.le_nextBoundary (requestedFrom r)) (by omega), List.self_eq_append_left]
    exact FxTick.query_eq_nil_iff

/-! ## Sequences of calls -/

/-- A call returns what it would return on a fresh provider. -/
def Transparent (p : TimescaleDataProvider) (r : CandleRequest) : Prop :=
  (p.fetchCandles r).1 = ((new p.table).fetchCandles r).1

/-- A call that the cache serves gets a cut of the right bars. -/
def ServedRight (p : TimescaleDataProvider) (r : CandleRequest) : Prop :=
  ∀ cached, get p.cache (r.pair, r.timeframe, r.range) = some cached →
    cached.effectiveFrom ≤ requestedFrom r → CutsRight p.table r cached.effectiveFrom

/-- Every call of the sequence has the property, in the state that it finds. -/
def EveryCall (P : TimescaleDataProvider → CandleRequest → Prop) :
    TimescaleDataProvider → List CandleRequest → Prop
  | _, [] => True
  | p, r :: rest => P p r ∧ EveryCall P (p.fetchCandles r).2 rest

theorem fresh_fetchCandles (table : FxTick) (r : CandleRequest) :
    ((new table).fetchCandles r).1 =
      table.query r.pair r.timeframe (requestedFrom r) r.range.dateTo := rfl

theorem transparent_call_iff {p : TimescaleDataProvider} (h : p.Sound) (r : CandleRequest) :
    p.Transparent r ↔ p.ServedRight r := by
  unfold Transparent ServedRight
  rw [fresh_fetchCandles]
  unfold fetchCandles
  dsimp only
  cases hget : get p.cache (r.pair, r.timeframe, r.range) with
  | none => simp
  | some cached =>
    by_cases hle : cached.effectiveFrom ≤ requestedFrom r
    · have hiff : cut (requestedFrom r) (p.table.query r.pair r.timeframe cached.effectiveFrom
          r.range.dateTo) = p.table.query r.pair r.timeframe (requestedFrom r) r.range.dateTo ↔
            CutsRight p.table r cached.effectiveFrom := cut_query_eq_iff hle
      rw [← h _ _ _ _ hget] at hiff
      simpa [Option.filter, hle] using hiff
    · simp [Option.filter, hle]

/-- In any sequence of calls on a new provider the cache does not show exactly when every
call that it serves gets a cut of the right bars. -/
theorem transparent_iff (table : FxTick) (requests : List CandleRequest) :
    EveryCall Transparent (new table) requests ↔ EveryCall ServedRight (new table) requests := by
  have hevery : ∀ requests (p : TimescaleDataProvider), p.Sound →
      (EveryCall Transparent p requests ↔ EveryCall ServedRight p requests) := by
    intro requests
    induction requests with
    | nil =>
      intro p _
      exact Iff.rfl
    | cons r rest ih =>
      intro p h
      exact and_congr (transparent_call_iff h r) (ih _ (fetchCandles_sound h r).1)
  exact hevery requests (new table) (new_sound table)

/-- One tick, two minutes before the range of the requests. -/
def lonelyTick : FxTick := .ofTicks [quietTick 10000] (List.pairwise_singleton ..)

/-- A range without ticks, with this warm-up. -/
def emptyRange (warmupCount : Nat) : CandleRequest :=
  ⟨.usdJpy, .oneMinute, ⟨120000, 300000⟩, warmupCount⟩

/-- The bar of the longer warm-up comes back to a call that asked for none. -/
theorem exists_stale_bars :
    ¬ EveryCall Transparent (new lonelyTick) [emptyRange 2, emptyRange 0] := by
  intro h
  have hlength := congrArg List.length h.2.1
  revert hlength
  decide +kernel

/-- The same call twice, from the middle of a minute: the second one loses its first bar. -/
example : (((new (.ofTicks [quietTick 95000, quietTick 130000] (by decide))).after
      [⟨.usdJpy, .oneMinute, ⟨90000, 180000⟩, 0⟩]).fetchCandles
        ⟨.usdJpy, .oneMinute, ⟨90000, 180000⟩, 0⟩).1.map (·.openTime) = [120000] := by
  decide +kernel

end TimescaleDataProvider

end Luchida
