import Mathlib.Data.List.MinMax
import Luchida.BacktestEngine

/- TimescaleDataProvider.ts: bars and ticks out of one table of ticks. A query groups the
   ticks of a period by their time bucket; a bucket without ticks has no bar. What a query
   returns is kept under the pair, the time frame and the range, and a later call that
   asks for no more warm-up is served from it by cutting bars off the front. The period
   of a query splits at every bucket boundary (`query_split`), so what is cut is what the
   shorter query would return, unless it returns nothing (`fetchCandles_cases`). -/
namespace Luchida

open OrderedMap

/-- In a list in order, what is below a value stands before what is not. -/
theorem filter_lt_append_filter_le {α : Type*} {f : α → Int} {l : List α}
    (h : l.Pairwise (fun a b => f a ≤ f b)) (t : Int) :
    l.filter (fun a => f a < t) ++ l.filter (fun a => t ≤ f a) = l := by
  induction l with
  | nil => rfl
  | cons a l ih =>
    obtain ⟨hhead, hrest⟩ := List.pairwise_cons.mp h
    by_cases hlt : f a < t
    · simpa [hlt, not_le.mpr hlt] using ih hrest
    · have hnone : l.filter (fun b => f b < t) = [] := by
        rw [List.filter_eq_nil_iff]
        intro b hb
        have := hhead b hb
        simp only [decide_eq_true_eq]
        omega
      have hall : l.filter (fun b => t ≤ f b) = l := by
        have := ih hrest
        rwa [hnone, List.nil_append] at this
      simp [hnone, hall, not_lt.mp hlt, hlt]

/-! ## Bars of a series -/

/-- Bars of a time frame as a provider returns them: whole buckets, each later than the
one before. There may be gaps. -/
structure BarSeries (tf : TimeFrame) (bars : List ConfirmedCandle) : Prop where
  ascending : bars.Pairwise (fun a b => a.openTime < b.openTime)
  aligned : ∀ c ∈ bars, tf.isAligned c.openTime = true
  closeTime : ∀ c ∈ bars, c.closeTime = c.openTime + tf.durationMs

namespace BarSeries

variable {tf : TimeFrame} {bars part : List ConfirmedCandle}

theorem sublist (h : BarSeries tf bars) (hpart : part.Sublist bars) : BarSeries tf part where
  ascending := h.ascending.sublist hpart
  aligned c hc := h.aligned c (hpart.subset hc)
  closeTime c hc := h.closeTime c (hpart.subset hc)

theorem closes_ascending (h : BarSeries tf bars) :
    bars.Pairwise (fun a b => a.closeTime < b.closeTime) := by
  refine h.ascending.imp_of_mem fun {a b} ha hb hlt => ?_
  rw [h.closeTime a ha, h.closeTime b hb]
  omega

theorem aligned_closeTime (h : BarSeries tf bars) {c : ConfirmedCandle} (hc : c ∈ bars) :
    tf.isAligned c.closeTime = true := by
  have hopen := h.aligned c hc
  simp only [TimeFrame.isAligned, beq_iff_eq] at hopen ⊢
  rw [h.closeTime c hc, Int.add_emod_right, hopen]

/-- A bar that opens before a boundary has closed by it. -/
theorem closeTime_le_iff (h : BarSeries tf bars) {c : ConfirmedCandle} (hc : c ∈ bars) {t : Int}
    (ht : tf.isAligned t = true) : c.closeTime ≤ t ↔ c.openTime < t := by
  have hpos := tf.durationMs_pos
  rw [h.closeTime c hc]
  refine ⟨fun hle => by omega, fun hlt => ?_⟩
  exact tf.add_durationMs_le (h.aligned c hc) ht hlt

end BarSeries

/-! ## The table -/

/-- Which of several ticks of one time `first(bid, time)` and `last(bid, time)` take, by its
place among them. The server does not say. -/
structure TieRule where
  first : List Tick → Nat
  last : List Tick → Nat

/-- `fx_tick`: the ticks of each pair, in the order of `ORDER BY time`. Where several have one
time, the order among them is the server's, and so is the choice of an aggregate. -/
structure FxTick where
  ticks : CurrencyPair → List Tick
  ordered : ∀ pair, (ticks pair).Pairwise (fun a b => a.timestamp ≤ b.timestamp)
  ties : TieRule

/-- The same ticks for every pair. -/
def FxTick.ofTicks (ticks : List Tick)
    (ordered : ticks.Pairwise (fun a b => a.timestamp ≤ b.timestamp)) : FxTick :=
  ⟨fun _ => ticks, fun _ => ordered, ⟨fun _ => 0, fun _ => 0⟩⟩

/-- `WHERE pair = … AND time >= … AND time < …`. -/
def FxTick.between (table : FxTick) (pair : CurrencyPair) (dateFrom dateTo : Int) : List Tick :=
  (table.ticks pair).filter fun tick => dateFrom ≤ tick.timestamp ∧ tick.timestamp < dateTo

theorem FxTick.between_ordered (table : FxTick) (pair : CurrencyPair) (dateFrom dateTo : Int) :
    (table.between pair dateFrom dateTo).Pairwise (fun a b => a.timestamp ≤ b.timestamp) :=
  (table.ordered pair).sublist List.filter_sublist

theorem FxTick.mem_between {table : FxTick} {pair : CurrencyPair} {dateFrom dateTo : Int}
    {tick : Tick} : tick ∈ table.between pair dateFrom dateTo ↔
      tick ∈ table.ticks pair ∧ dateFrom ≤ tick.timestamp ∧ tick.timestamp < dateTo := by
  simp [between]

/-- A period splits at a time in it. -/
theorem FxTick.between_split (table : FxTick) (pair : CurrencyPair) {dateFrom mid dateTo : Int}
    (hfrom : dateFrom ≤ mid) (hto : mid ≤ dateTo) : table.between pair dateFrom dateTo =
      table.between pair dateFrom mid ++ table.between pair mid dateTo := by
  rw [← filter_lt_append_filter_le (table.between_ordered pair dateFrom dateTo) mid]
  unfold between
  rw [List.filter_filter, List.filter_filter]
  congr 1
  · refine List.filter_congr fun tick _ => ?_
    rw [← Bool.decide_and]
    exact decide_eq_decide.mpr (by omega)
  · refine List.filter_congr fun tick _ => ?_
    rw [← Bool.decide_and]
    exact decide_eq_decide.mpr (by omega)

/-! ## Bars of a query -/

/-- The tick at a place, or the first one where nothing stands at that place. -/
def tickAt (place : Nat) (ticks : List Tick) : Option Tick :=
  ticks[place]?.or ticks.head?

theorem tickAt_mem {place : Nat} {ticks : List Tick} {tick : Tick}
    (h : tick ∈ tickAt place ticks) : tick ∈ ticks := by
  rcases Option.or_eq_some_iff.mp h with hplace | ⟨-, hhead⟩
  · exact List.mem_of_getElem? hplace
  · exact List.mem_of_mem_head? hhead

theorem exists_tickAt (place : Nat) {ticks : List Tick} (hne : ticks ≠ []) :
    ∃ tick, tickAt place ticks = some tick := by
  obtain ⟨tick, ticks, rfl⟩ := List.exists_cons_of_ne_nil hne
  unfold tickAt
  cases (tick :: ticks)[place]? with
  | none => exact ⟨tick, rfl⟩
  | some found => exact ⟨found, rfl⟩

@[simp] theorem tickAt_singleton (place : Nat) (tick : Tick) :
    tickAt place [tick] = some tick := by
  cases place <;> rfl

/-- The ticks of the least time. -/
def earliest (ticks : List Tick) : List Tick :=
  ticks.filter fun t => ∀ u ∈ ticks, t.timestamp ≤ u.timestamp

/-- The ticks of the greatest time. -/
def latest (ticks : List Tick) : List Tick :=
  ticks.filter fun t => ∀ u ∈ ticks, u.timestamp ≤ t.timestamp

theorem earliest_ne_nil {ticks : List Tick} (hne : ticks ≠ []) : earliest ticks ≠ [] := by
  obtain ⟨t, ht⟩ := Option.ne_none_iff_exists'.mp
    (mt (List.argmin_eq_none (f := Tick.timestamp)).mp hne)
  have hleast : ∀ u ∈ ticks, t.timestamp ≤ u.timestamp := fun u hu => List.le_of_mem_argmin hu ht
  exact List.ne_nil_of_mem
    (List.mem_filter.mpr ⟨List.argmin_mem ht, decide_eq_true hleast⟩)

theorem latest_ne_nil {ticks : List Tick} (hne : ticks ≠ []) : latest ticks ≠ [] := by
  obtain ⟨t, ht⟩ := Option.ne_none_iff_exists'.mp
    (mt (List.argmax_eq_none (f := Tick.timestamp)).mp hne)
  have hgreatest : ∀ u ∈ ticks, u.timestamp ≤ t.timestamp :=
    fun u hu => List.le_of_mem_argmax hu ht
  exact List.ne_nil_of_mem
    (List.mem_filter.mpr ⟨List.argmax_mem ht, decide_eq_true hgreatest⟩)

/-- Ticks that lie after some of the others are not among the earliest. -/
theorem earliest_append {early late : List Tick} (hne : early ≠ [])
    (h : ∀ t ∈ early, ∀ u ∈ late, t.timestamp < u.timestamp) :
    earliest (early ++ late) = earliest early := by
  obtain ⟨t, ht⟩ := List.exists_mem_of_ne_nil _ hne
  unfold earliest
  rw [List.filter_append]
  have hlate : late.filter (fun u => ∀ v ∈ early ++ late, u.timestamp ≤ v.timestamp) = [] := by
    rw [List.filter_eq_nil_iff]
    intro u hu hleast
    have hle := of_decide_eq_true hleast t (List.mem_append_left _ ht)
    exact absurd (h t ht u hu) (not_lt.mpr hle)
  rw [hlate, List.append_nil]
  refine List.filter_congr fun u hu => decide_eq_decide.mpr ?_
  constructor
  · exact fun hle v hv => hle v (List.mem_append_left _ hv)
  · intro hle v hv
    rcases List.mem_append.mp hv with hv | hv
    · exact hle v hv
    · exact (h u hu v hv).le

/-- Ticks that lie before some of the others are not among the latest. -/
theorem latest_append {early late : List Tick} (hne : late ≠ [])
    (h : ∀ t ∈ early, ∀ u ∈ late, t.timestamp < u.timestamp) :
    latest (early ++ late) = latest late := by
  obtain ⟨u, hu⟩ := List.exists_mem_of_ne_nil _ hne
  unfold latest
  rw [List.filter_append]
  have hearly : early.filter (fun t => ∀ v ∈ early ++ late, v.timestamp ≤ t.timestamp) = [] := by
    rw [List.filter_eq_nil_iff]
    intro t ht hgreatest
    have hle := of_decide_eq_true hgreatest u (List.mem_append_right _ hu)
    exact absurd (h t ht u hu) (not_lt.mpr hle)
  rw [hearly, List.nil_append]
  refine List.filter_congr fun v hv => decide_eq_decide.mpr ?_
  constructor
  · exact fun hle w hw => hle w (List.mem_append_right _ hw)
  · intro hle w hw
    rcases List.mem_append.mp hw with hw | hw
    · exact (h w hw v hv).le
    · exact hle w hw

namespace TieRule

/-- `first(bid, time)`: the tick whose bid it is. -/
def firstTick (ties : TieRule) (ticks : List Tick) : Option Tick :=
  tickAt (ties.first (earliest ticks)) (earliest ticks)

/-- `last(bid, time)`. -/
def lastTick (ties : TieRule) (ticks : List Tick) : Option Tick :=
  tickAt (ties.last (latest ticks)) (latest ticks)

variable {ties : TieRule} {ticks early late : List Tick} {tick : Tick}

theorem firstTick_mem (h : tick ∈ ties.firstTick ticks) : tick ∈ ticks :=
  List.mem_of_mem_filter (tickAt_mem h)

theorem lastTick_mem (h : tick ∈ ties.lastTick ticks) : tick ∈ ticks :=
  List.mem_of_mem_filter (tickAt_mem h)

theorem exists_firstTick (ties : TieRule) (hne : ticks ≠ []) :
    ∃ tick, ties.firstTick ticks = some tick := exists_tickAt _ (earliest_ne_nil hne)

theorem exists_lastTick (ties : TieRule) (hne : ticks ≠ []) :
    ∃ tick, ties.lastTick ticks = some tick := exists_tickAt _ (latest_ne_nil hne)

theorem firstTick_append (hne : early ≠ [])
    (h : ∀ t ∈ early, ∀ u ∈ late, t.timestamp < u.timestamp) :
    ties.firstTick (early ++ late) = ties.firstTick early := by
  unfold firstTick
  rw [earliest_append hne h]

theorem lastTick_append (hne : late ≠ [])
    (h : ∀ t ∈ early, ∀ u ∈ late, t.timestamp < u.timestamp) :
    ties.lastTick (early ++ late) = ties.lastTick late := by
  unfold lastTick
  rw [latest_append hne h]

/-- Without ticks of one time the server has nothing to choose. -/
theorem firstTick_eq_head? (h : ticks.Pairwise (fun a b => a.timestamp < b.timestamp)) :
    ties.firstTick ticks = ticks.head? := by
  cases ticks with
  | nil => rfl
  | cons t ticks =>
    obtain ⟨hfirst, -⟩ := List.pairwise_cons.mp h
    have halone : ties.firstTick ([t] ++ ticks) = ties.firstTick [t] :=
      firstTick_append (List.cons_ne_nil _ _) (by simpa using hfirst)
    rw [List.singleton_append] at halone
    rw [halone]
    simp [firstTick, earliest]

theorem lastTick_eq_getLast? (h : ticks.Pairwise (fun a b => a.timestamp < b.timestamp)) :
    ties.lastTick ticks = ticks.getLast? := by
  induction ticks using List.reverseRecOn with
  | nil => rfl
  | append_singleton ticks t _ =>
    obtain ⟨-, -, hlast⟩ := List.pairwise_append.mp h
    rw [lastTick_append (List.cons_ne_nil _ _) hlast]
    simp [lastTick, latest]

end TieRule

/-- The ticks that `GROUP BY bucket` puts together: at least one. -/
structure TickGroup where
  bucket : Int
  first : Tick
  rest : List Tick

namespace TickGroup

def ticks (group : TickGroup) : List Tick := group.first :: group.rest

/-- A tick that is alone in its bucket. -/
def ofTick (tf : TimeFrame) (tick : Tick) : TickGroup :=
  ⟨tf.periodStart tick.timestamp, tick, []⟩

/-- A group with an earlier tick added. -/
def precede (tick : Tick) (group : TickGroup) : TickGroup :=
  { group with first := tick, rest := group.ticks }

/-- The bid that an aggregate has found. -/
def bidOf (group : TickGroup) (found : Option Tick) : Price :=
  (found.getD group.first).bid

/-- `max(bid)`. -/
def maxBid (group : TickGroup) : Price := group.bidOf (group.ticks.argmax (·.bid.value))

/-- `min(bid)`. -/
def minBid (group : TickGroup) : Price := group.bidOf (group.ticks.argmin (·.bid.value))

variable {group : TickGroup}

/-- An aggregate that finds ticks of the group only has the bid of one. -/
theorem bidOf_mem {found : Option Tick} (h : ∀ t ∈ found, t ∈ group.ticks) :
    ∃ t ∈ group.ticks, group.bidOf found = t.bid := by
  cases found with
  | none => exact ⟨group.first, List.mem_cons_self, rfl⟩
  | some t => exact ⟨t, h t rfl, rfl⟩

theorem maxBid_mem (group : TickGroup) : ∃ t ∈ group.ticks, group.maxBid = t.bid :=
  bidOf_mem fun _ => List.argmax_mem

theorem minBid_mem (group : TickGroup) : ∃ t ∈ group.ticks, group.minBid = t.bid :=
  bidOf_mem fun _ => List.argmin_mem

theorem le_maxBid {t : Tick} (h : t ∈ group.ticks) : t.bid.value ≤ group.maxBid.value := by
  have hne : group.ticks.argmax (·.bid.value) ≠ none :=
    mt List.argmax_eq_none.mp (List.ne_nil_of_mem h)
  obtain ⟨highest, hhighest⟩ := Option.ne_none_iff_exists'.mp hne
  have hle : t.bid.value ≤ highest.bid.value :=
    List.le_of_mem_argmax (f := fun t : Tick => t.bid.value) h hhighest
  unfold maxBid
  rwa [hhighest]

theorem minBid_le {t : Tick} (h : t ∈ group.ticks) : group.minBid.value ≤ t.bid.value := by
  have hne : group.ticks.argmin (·.bid.value) ≠ none :=
    mt List.argmin_eq_none.mp (List.ne_nil_of_mem h)
  obtain ⟨lowest, hlowest⟩ := Option.ne_none_iff_exists'.mp hne
  have hle : lowest.bid.value ≤ t.bid.value :=
    List.le_of_mem_argmin (f := fun t : Tick => t.bid.value) h hlowest
  unfold minBid
  rwa [hlowest]

end TickGroup

/-- A row of the result: the `first`, `max`, `min` and `last` bid of a bucket. -/
structure CandleRow where
  bucket : Int
  openPrice : Price
  high : Price
  low : Price
  close : Price
  low_le_open : low.value ≤ openPrice.value
  open_le_high : openPrice.value ≤ high.value
  low_le_close : low.value ≤ close.value
  close_le_high : close.value ≤ high.value

namespace CandleRow

/-- The row of a bucket whose ticks make this candle. -/
def ofCandle (bucket : Int) (candle : FormingCandle) : CandleRow where
  bucket := bucket
  openPrice := candle.openPrice
  high := candle.high
  low := candle.low
  close := candle.close
  low_le_open := candle.low_le_open
  open_le_high := candle.open_le_high
  low_le_close := candle.low_le_close
  close_le_high := candle.close_le_high

/-- The candle of a row. -/
def toCandle (tf : TimeFrame) (row : CandleRow) : ConfirmedCandle where
  openPrice := row.openPrice
  high := row.high
  low := row.low
  close := row.close
  openTime := row.bucket
  closeTime := row.bucket + tf.durationMs
  timeFrame := tf
  low_le_open := row.low_le_open
  open_le_high := row.open_le_high
  low_le_close := row.low_le_close
  close_le_high := row.close_le_high
  opens_before := lt_add_of_pos_right _ tf.durationMs_pos

end CandleRow

/-- The row of a group: `first(bid, time)`, `max(bid)`, `min(bid)`, `last(bid, time)`. -/
def TickGroup.row (ties : TieRule) (group : TickGroup) : CandleRow where
  bucket := group.bucket
  openPrice := group.bidOf (ties.firstTick group.ticks)
  high := group.maxBid
  low := group.minBid
  close := group.bidOf (ties.lastTick group.ticks)
  low_le_open := by
    obtain ⟨t, ht, heq⟩ := group.bidOf_mem fun _ => ties.firstTick_mem
    exact heq ▸ minBid_le ht
  open_le_high := by
    obtain ⟨t, ht, heq⟩ := group.bidOf_mem fun _ => ties.firstTick_mem
    exact heq ▸ le_maxBid ht
  low_le_close := by
    obtain ⟨t, ht, heq⟩ := group.bidOf_mem fun _ => ties.lastTick_mem
    exact heq ▸ minBid_le ht
  close_le_high := by
    obtain ⟨t, ht, heq⟩ := group.bidOf_mem fun _ => ties.lastTick_mem
    exact heq ▸ le_maxBid ht

/-- Add a tick in front of groups that begin with its bucket or with a later one. -/
def prependTick (tf : TimeFrame) (tick : Tick) : List TickGroup → List TickGroup
  | [] => [.ofTick tf tick]
  | group :: groups =>
    if group.bucket = tf.periodStart tick.timestamp then group.precede tick :: groups
    else .ofTick tf tick :: group :: groups

/-- `GROUP BY bucket ORDER BY bucket`, over ticks in order. -/
def groupByBucket (tf : TimeFrame) : List Tick → List TickGroup
  | [] => []
  | tick :: ticks => prependTick tf tick (groupByBucket tf ticks)

/-- The rows of the query over these ticks. -/
def candleRows (ties : TieRule) (tf : TimeFrame) (ticks : List Tick) : List CandleRow :=
  (groupByBucket tf ticks).map (·.row ties)

/-- The candles of a period. -/
def FxTick.query (table : FxTick) (pair : CurrencyPair) (tf : TimeFrame) (dateFrom dateTo : Int) :
    List ConfirmedCandle :=
  (candleRows table.ties tf (table.between pair dateFrom dateTo)).map fun row => row.toCandle tf

section
variable {tf : TimeFrame}

/-- The buckets of the groups are the buckets of the ticks. -/
theorem mem_groupByBucket {ticks : List Tick} {b : Int} :
    b ∈ (groupByBucket tf ticks).map (·.bucket) ↔
      ∃ tick ∈ ticks, tf.periodStart tick.timestamp = b := by
  induction ticks with
  | nil => simp [groupByBucket]
  | cons tick ticks ih =>
    have hprepend : ∀ groups : List TickGroup, b ∈ (prependTick tf tick groups).map (·.bucket) ↔
        tf.periodStart tick.timestamp = b ∨ b ∈ groups.map (·.bucket) := by
      intro groups
      cases groups with
      | nil => simp [prependTick, TickGroup.ofTick, eq_comm]
      | cons group groups =>
        simp only [prependTick]
        split
        · rename_i heq
          simp [TickGroup.precede, ← heq, eq_comm]
        · simp [TickGroup.ofTick, eq_comm]
    rw [groupByBucket, hprepend, ih]
    simp

/-- Of ticks in order the groups are in order, each bucket once. -/
theorem groupByBucket_ascending {ticks : List Tick}
    (h : ticks.Pairwise (fun a b => a.timestamp ≤ b.timestamp)) :
    (groupByBucket tf ticks).Pairwise (fun a b => a.bucket < b.bucket) := by
  induction ticks with
  | nil => exact .nil
  | cons tick ticks ih =>
    obtain ⟨hhead, hrest⟩ := List.pairwise_cons.mp h
    have hgroups := ih hrest
    -- no group begins before the bucket of the tick
    have hle : ∀ group ∈ groupByBucket tf ticks,
        tf.periodStart tick.timestamp ≤ group.bucket := by
      intro group hgroup
      obtain ⟨u, hu, heq⟩ := mem_groupByBucket.mp (List.mem_map_of_mem (f := (·.bucket)) hgroup)
      rw [← heq]
      exact tf.periodStart_mono (hhead u hu)
    unfold groupByBucket
    cases heq : groupByBucket tf ticks with
    | nil => exact List.pairwise_singleton ..
    | cons group groups =>
      rw [heq] at hgroups hle
      obtain ⟨hgroup, hlater⟩ := List.pairwise_cons.mp hgroups
      simp only [prependTick]
      split
      · exact List.pairwise_cons.mpr ⟨hgroup, hlater⟩
      · rename_i hne
        refine List.pairwise_cons.mpr ⟨fun g hg => ?_, hgroups⟩
        have hfirst : tf.periodStart tick.timestamp < group.bucket :=
          lt_of_le_of_ne (hle group (by simp)) (Ne.symm hne)
        rcases List.mem_cons.mp hg with rfl | hg
        · exact hfirst
        · exact hfirst.trans (hgroup g hg)

/-- Ticks in different buckets are grouped apart. -/
theorem groupByBucket_append {ticks ticks' : List Tick}
    (h : ∀ t ∈ ticks, ∀ u ∈ ticks', tf.periodStart t.timestamp ≠ tf.periodStart u.timestamp) :
    groupByBucket tf (ticks ++ ticks') = groupByBucket tf ticks ++ groupByBucket tf ticks' := by
  induction ticks with
  | nil => rfl
  | cons tick ticks ih =>
    rw [List.cons_append, groupByBucket, groupByBucket,
      ih fun t ht => h t (List.mem_cons_of_mem _ ht)]
    cases groupByBucket tf ticks with
    | cons group groups =>
      simp only [List.cons_append, prependTick]
      split <;> rfl
    | nil =>
      cases hgroup : groupByBucket tf ticks' with
      | nil => rfl
      | cons group groups =>
        have hmem : group.bucket ∈ (groupByBucket tf ticks').map (·.bucket) := by simp [hgroup]
        obtain ⟨u, hu, heq⟩ := mem_groupByBucket.mp hmem
        have hne : group.bucket ≠ tf.periodStart tick.timestamp := by
          rw [← heq]
          exact (h tick (by simp) u hu).symm
        simp [prependTick, hne]

end

namespace FxTick

variable {table : FxTick} {pair : CurrencyPair} {tf : TimeFrame} {dateFrom dateTo : Int}

theorem query_openTimes (table : FxTick) (pair : CurrencyPair) (tf : TimeFrame)
    (dateFrom dateTo : Int) : (table.query pair tf dateFrom dateTo).map (·.openTime) =
      (groupByBucket tf (table.between pair dateFrom dateTo)).map (·.bucket) := by
  simp [query, candleRows, CandleRow.toCandle, TickGroup.row]

/-- There is a bar for each bucket that holds a tick of the period. -/
theorem mem_query {t : Int} : t ∈ (table.query pair tf dateFrom dateTo).map (·.openTime) ↔
    ∃ tick ∈ table.between pair dateFrom dateTo, tf.periodStart tick.timestamp = t := by
  rw [query_openTimes, mem_groupByBucket]

theorem query_series (table : FxTick) (pair : CurrencyPair) (tf : TimeFrame)
    (dateFrom dateTo : Int) : BarSeries tf (table.query pair tf dateFrom dateTo) where
  ascending := by
    have hgroups : (groupByBucket tf (table.between pair dateFrom dateTo)).Pairwise
        (fun a b => a.bucket < b.bucket) :=
      groupByBucket_ascending (table.between_ordered pair dateFrom dateTo)
    exact List.pairwise_map.mpr (List.pairwise_map.mpr hgroups)
  aligned c hc := by
    obtain ⟨tick, -, heq⟩ := mem_query.mp (List.mem_map_of_mem (f := (·.openTime)) hc)
    rw [← heq]
    exact tf.isAligned_periodStart tick.timestamp
  closeTime c hc := by
    obtain ⟨row, -, rfl⟩ := List.mem_map.mp hc
    rfl

/-- A period splits at a boundary, and its bars with it. -/
theorem query_split (table : FxTick) (pair : CurrencyPair) {mid : Int}
    (hmid : tf.isAligned mid = true) (hfrom : dateFrom ≤ mid) (hto : mid ≤ dateTo) :
    table.query pair tf dateFrom dateTo =
      table.query pair tf dateFrom mid ++ table.query pair tf mid dateTo := by
  unfold query candleRows
  rw [table.between_split pair hfrom hto, groupByBucket_append, List.map_append, List.map_append]
  intro t ht u hu
  have ht' := (mem_between.mp ht).2.2
  have hu' := (mem_between.mp hu).2.1
  have hle := tf.periodStart_le t.timestamp
  have hge := tf.le_periodStart hmid hu'
  omega

theorem query_eq_nil_iff : table.query pair tf dateFrom dateTo = [] ↔
    table.between pair dateFrom dateTo = [] := by
  constructor
  · intro h
    by_contra hne
    obtain ⟨tick, htick⟩ := List.exists_mem_of_ne_nil _ hne
    have hmem : tf.periodStart tick.timestamp ∈
        (table.query pair tf dateFrom dateTo).map (·.openTime) := mem_query.mpr ⟨tick, htick, rfl⟩
    simp [h] at hmem
  · intro h
    simp [query, candleRows, h, groupByBucket]

end FxTick

/-! ## The provider -/

/-- An entry of the cache: the start of the period that was queried, and its bars. -/
structure CachedCandles where
  effectiveFrom : Int
  candles : List ConfirmedCandle

/-- `TimescaleDataProvider`. -/
structure TimescaleDataProvider where
  table : FxTick
  cache : List ((CurrencyPair × TimeFrame × DateRange) × CachedCandles)

/-- The arguments of one call of `fetchCandles`. -/
structure CandleRequest where
  pair : CurrencyPair
  timeframe : TimeFrame
  range : DateRange
  warmupCount : Nat

namespace TimescaleDataProvider

def new (table : FxTick) : TimescaleDataProvider := ⟨table, []⟩

/-- The start of the period with the warm-up. -/
def requestedFrom (r : CandleRequest) : Int :=
  r.range.dateFrom - r.timeframe.durationMs * r.warmupCount

/-- `findIndex` and `slice`: without an index, or at the index 0, nothing is cut. -/
def cut (start : Int) (candles : List ConfirmedCandle) : List ConfirmedCandle :=
  match candles.findIdx? fun c => start ≤ c.openTime with
  | some (startIdx + 1) => candles.drop (startIdx + 1)
  | _ => candles

/-- `fetchCandles`: the bars, and the provider with what it keeps. -/
def fetchCandles (p : TimescaleDataProvider) (r : CandleRequest) :
    List ConfirmedCandle × TimescaleDataProvider :=
  let cacheKey := (r.pair, r.timeframe, r.range)
  match (get p.cache cacheKey).filter fun cached => cached.effectiveFrom ≤ requestedFrom r with
  | some cached => (cut (requestedFrom r) cached.candles, p)
  | none =>
    let candles := p.table.query r.pair r.timeframe (requestedFrom r) r.range.dateTo
    (candles, { p with cache := set p.cache cacheKey ⟨requestedFrom r, candles⟩ })

/-- `fetchTicks`. -/
def fetchTicks (p : TimescaleDataProvider) (pair : CurrencyPair) (range : DateRange) : List Tick :=
  p.table.between pair range.dateFrom range.dateTo

/-- The provider after these calls of `fetchCandles`. -/
def after (p : TimescaleDataProvider) (requests : List CandleRequest) : TimescaleDataProvider :=
  requests.foldl (fun p r => (p.fetchCandles r).2) p

/-- What one run, which fetches bars once, sees of the provider. -/
def toDataProvider (p : TimescaleDataProvider) : DataProvider where
  fetchCandles pair timeframe range warmupCount :=
    .ok (p.fetchCandles ⟨pair, timeframe, range, warmupCount⟩).1
  fetchTicks := p.fetchTicks

/-- Each entry of the cache is what its query returned. -/
def Sound (p : TimescaleDataProvider) : Prop :=
  ∀ pair tf range cached, get p.cache (pair, tf, range) = some cached →
    cached.candles = p.table.query pair tf cached.effectiveFrom range.dateTo

variable {p : TimescaleDataProvider}

theorem new_sound (table : FxTick) : (new table).Sound := fun _ _ _ _ h => by cases h

theorem fetchCandles_sound (h : p.Sound) (r : CandleRequest) :
    (p.fetchCandles r).2.Sound ∧ (p.fetchCandles r).2.table = p.table := by
  unfold fetchCandles
  dsimp only
  split
  · exact ⟨h, rfl⟩
  · refine ⟨fun pair tf range cached hcached => ?_, rfl⟩
    by_cases heq : (pair, tf, range) = (r.pair, r.timeframe, r.range)
    · cases heq
      rw [get_set_self] at hcached
      cases hcached
      rfl
    · rw [get_set_of_ne _ _ heq] at hcached
      exact h pair tf range cached hcached

theorem after_sound (h : p.Sound) (requests : List CandleRequest) :
    (p.after requests).Sound ∧ (p.after requests).table = p.table := by
  induction requests generalizing p with
  | nil => exact ⟨h, rfl⟩
  | cons r requests ih =>
    obtain ⟨hsound, htable⟩ := fetchCandles_sound h r
    obtain ⟨hsound', htable'⟩ := ih hsound
    exact ⟨hsound', htable'.trans htable⟩

/-- In a series that is cut in two at the start, the second part is kept, or all of it
where there is none. -/
theorem cut_append {start : Int} {early late : List ConfirmedCandle}
    (hearly : ∀ c ∈ early, c.openTime < start) (hlate : ∀ c ∈ late, start ≤ c.openTime) :
    cut start (early ++ late) = if late = [] then early else late := by
  have hnone : early.findIdx? (fun c => start ≤ c.openTime) = none := by
    rw [List.findIdx?_eq_none_iff]
    intro c hc
    simpa using hearly c hc
  unfold cut
  cases late with
  | nil => simp [hnone]
  | cons c late =>
    have hc : start ≤ c.openTime := hlate c (by simp)
    rw [List.findIdx?_append, hnone, List.findIdx?_cons]
    cases early with
    | nil => simp [hc]
    | cons e early => simp [hc]

/-- From a boundary on, a call returns what the query of its period returns. Where that is
nothing, it may return bars of an earlier period. -/
theorem fetchCandles_cases (h : p.Sound) {r : CandleRequest}
    (haligned : r.timeframe.isAligned (requestedFrom r) = true) :
    (p.fetchCandles r).1 = p.table.query r.pair r.timeframe (requestedFrom r) r.range.dateTo ∨
      p.table.between r.pair (requestedFrom r) r.range.dateTo = [] ∧
        ∃ dateFrom, (p.fetchCandles r).1 =
          p.table.query r.pair r.timeframe dateFrom r.range.dateTo := by
  unfold fetchCandles
  dsimp only
  split
  · rename_i cached hcached
    obtain ⟨hget, hle⟩ := Option.filter_eq_some_iff.mp hcached
    rw [h _ _ _ _ hget]
    have hle : cached.effectiveFrom ≤ requestedFrom r := of_decide_eq_true hle
    have hearly : ∀ dateTo ≤ requestedFrom r, ∀ c ∈ p.table.query r.pair r.timeframe
        cached.effectiveFrom dateTo, c.openTime < requestedFrom r := by
      intro dateTo hto c hc
      obtain ⟨tick, htick, heq⟩ := FxTick.mem_query.mp (List.mem_map_of_mem (f := (·.openTime)) hc)
      have := (FxTick.mem_between.mp htick).2.2
      have := r.timeframe.periodStart_le tick.timestamp
      omega
    by_cases hto : requestedFrom r ≤ r.range.dateTo
    · rw [p.table.query_split r.pair haligned hle hto, cut_append (hearly _ le_rfl)]
      · split
        · rename_i hnone
          refine .inr ⟨FxTick.query_eq_nil_iff.mp hnone, cached.effectiveFrom, ?_⟩
          rw [p.table.query_split r.pair haligned hle hto, hnone, List.append_nil]
        · exact .inl rfl
      · intro c hc
        obtain ⟨tick, htick, heq⟩ :=
          FxTick.mem_query.mp (List.mem_map_of_mem (f := (·.openTime)) hc)
        rw [← heq]
        exact r.timeframe.le_periodStart haligned (FxTick.mem_between.mp htick).2.1
    · refine .inr ⟨?_, cached.effectiveFrom, ?_⟩
      · rw [List.eq_nil_iff_forall_not_mem]
        intro tick htick
        have := FxTick.mem_between.mp htick
        omega
      · have hnone : ∀ c ∈ ([] : List ConfirmedCandle), requestedFrom r ≤ c.openTime := by simp
        have hcut := cut_append (hearly r.range.dateTo (by omega)) hnone
        rwa [List.append_nil, if_pos rfl] at hcut
  · exact .inl rfl

end TimescaleDataProvider

end Luchida
