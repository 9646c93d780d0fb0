import Luchida.BarHistory
import Luchida.Throws

/- What `CandleAccumulator.accumulate` makes of a whole stream of ticks. `watchAll` is its
   caller: it feeds the ticks one by one and reads `lastConfirmed` whenever a candle was
   confirmed.

   As long as the times do not decrease, each bucket with ticks but the last is confirmed
   once, in order, by the first tick after it, and every candle sums up the ticks of its
   bucket (`aggregates`). The test for a new bucket is an inequality, so a tick that comes
   late confirms the forming candle early and opens a candle of a bucket that was over
   (`exists_bucket_confirmed_twice`). The candles stay in order exactly where no tick
   falls into an earlier bucket than one before it (`barsInOrder_iff`). -/
namespace Luchida

open Throws

/-! ## Candles of ticks -/

/-- These are the first, the highest, the lowest and the last bid of the ticks, and the
time of the first. -/
structure Summarises (ticks : List Tick) (openPrice high low close : Price) (openTime : Int) :
    Prop where
  opens : ∃ first ∈ ticks.head?, first.bid = openPrice ∧ first.timestamp = openTime
  high_reached : ∃ t ∈ ticks, t.bid = high
  le_high : ∀ t ∈ ticks, t.bid.value ≤ high.value
  low_reached : ∃ t ∈ ticks, t.bid = low
  low_le : ∀ t ∈ ticks, low.value ≤ t.bid.value
  closes : ∃ last ∈ ticks.getLast?, last.bid = close

namespace FormingCandle

def Sums (f : FormingCandle) (ticks : List Tick) : Prop :=
  Summarises ticks f.openPrice f.high f.low f.close f.openTime

theorem update_openTime {f f' : FormingCandle} {tick : Tick} {event : CandleEvent}
    (hf : f.update tick = .ok (event, f')) : f'.openTime = f.openTime := by
  unfold FormingCandle.update at hf
  split at hf
  · cases hf
  · cases hf
    rfl

theorem sums_openWith (tick : Tick) (tf : TimeFrame) : (openWith tick tf).Sums [tick] where
  opens := ⟨tick, rfl, rfl, rfl⟩
  high_reached := ⟨tick, by simp, rfl⟩
  le_high t ht := by rw [List.mem_singleton.mp ht]; exact le_rfl
  low_reached := ⟨tick, by simp, rfl⟩
  low_le t ht := by rw [List.mem_singleton.mp ht]; exact le_rfl
  closes := ⟨tick, rfl, rfl⟩

/-- An update adds its tick to the candle. -/
theorem Sums.update {f f' : FormingCandle} {ticks : List Tick} {tick : Tick} {event : CandleEvent}
    (h : f.Sums ticks) (hf : f.update tick = .ok (event, f')) : f'.Sums (ticks ++ [tick]) := by
  unfold FormingCandle.update at hf
  split at hf
  · cases hf
  cases hf
  obtain ⟨first, hfirst, hopen⟩ := h.opens
  have hhead : (ticks ++ [tick]).head? = some first := by
    simp [List.head?_append, Option.mem_def.mp hfirst]
  refine ⟨⟨first, hhead, hopen⟩, ?_, fun t ht => ?_, ?_, fun t ht => ?_, ⟨tick, by simp, rfl⟩⟩
  · obtain ⟨t, ht, hbid⟩ := h.high_reached
    unfold raisedHigh
    split
    · exact ⟨tick, by simp, rfl⟩
    · exact ⟨t, List.mem_append_left _ ht, hbid⟩
  · obtain ⟨hhigh, hbid⟩ := f.le_raisedHigh tick.bid
    rcases List.mem_append.mp ht with ht | ht
    · exact le_trans (h.le_high t ht) hhigh
    · rw [List.mem_singleton.mp ht]
      exact hbid
  · obtain ⟨t, ht, hbid⟩ := h.low_reached
    unfold loweredLow
    split
    · exact ⟨tick, by simp, rfl⟩
    · exact ⟨t, List.mem_append_left _ ht, hbid⟩
  · obtain ⟨hlow, hbid⟩ := f.loweredLow_le tick.bid
    rcases List.mem_append.mp ht with ht | ht
    · exact le_trans hlow (h.low_le t ht)
    · rw [List.mem_singleton.mp ht]
      exact hbid

end FormingCandle

/-- The candle sums up the ticks and ends with its bucket. -/
structure ConfirmedCandle.Sums (tf : TimeFrame) (ticks : List Tick) (c : ConfirmedCandle) :
    Prop where
  prices : Summarises ticks c.openPrice c.high c.low c.close c.openTime
  closeTime : c.closeTime = tf.periodStart c.openTime + tf.durationMs
  timeFrame : c.timeFrame = tf

/-! ## Watching an accumulator -/

/-- A confirmed candle, and the tick that confirmed it. -/
structure Confirmation where
  candle : ConfirmedCandle
  tick : Tick

namespace CandleAccumulator

/-- Feed a tick, and read `lastConfirmed` where it was confirmed. -/
def watch (seen : List Confirmation × CandleAccumulator) (tick : Tick) :
    Except CandleError (List Confirmation × CandleAccumulator) := do
  let (event, acc) ← seen.2.accumulate tick
  match event with
  | .updated => return (seen.1, acc)
  | .confirmed => return (seen.1 ++ (acc.lastConfirmed.map (⟨·, tick⟩)).toList, acc)

def watchAll (acc : CandleAccumulator) (ticks : List Tick) :
    Except CandleError (List Confirmation × CandleAccumulator) :=
  ticks.foldlM watch ([], acc)

/-- What a tick does to the candle that is forming. -/
inductive Watched (acc : CandleAccumulator) (done : List Confirmation) (tick : Tick) :
    List Confirmation × CandleAccumulator → Prop
  | first : acc.forming = none → Watched acc done tick (done, acc.reopen tick acc.lastConfirmed)
  | same {acc' : CandleAccumulator} {f f' : FormingCandle} : acc.forming = some f →
      acc.timeFrame.bucket tick.timestamp = acc.timeFrame.bucket f.openTime →
      acc'.timeFrame = acc.timeFrame → acc'.forming = some f' →
      f.update tick = .ok (.updated, f') → Watched acc done tick (done, acc')
  | next {f : FormingCandle} {c : ConfirmedCandle} : acc.forming = some f →
      acc.timeFrame.bucket tick.timestamp ≠ acc.timeFrame.bucket f.openTime →
      c.toConfirmedCandleParams = ⟨f.openPrice, f.high, f.low, f.close, f.openTime,
        acc.timeFrame.periodStart f.openTime + acc.timeFrame.durationMs, acc.timeFrame⟩ →
      Watched acc done tick (done ++ [⟨c, tick⟩], acc.reopen tick (some c))

/-- No tick makes `accumulate` throw. -/
theorem watch_ok (done : List Confirmation) (acc : CandleAccumulator) (tick : Tick) :
    ∃ seen, watch (done, acc) tick = .ok seen ∧ Watched acc done tick seen := by
  unfold watch accumulate
  split
  · rename_i hf
    exact ⟨_, rfl, .first hf⟩
  · rename_i f hf
    obtain ⟨htf, hopen⟩ := acc.sound f (Option.mem_def.mpr hf)
    dsimp only
    split
    · rename_i hsame
      have hbucket := (TimeFrame.periodStart_eq_iff ..).mp hsame
      unfold extend
      split
      · rename_i e he
        simp [FormingCandle.update, hopen] at he
      · rename_i event f' hf'
        have hevent : event = .updated := by
          simp only [FormingCandle.update, hopen, Bool.false_eq_true, ↓reduceIte, Except.ok.injEq,
            Prod.mk.injEq] at hf'
          exact hf'.1.symm
        subst hevent
        exact ⟨_, rfl, .same hf hbucket rfl rfl hf'⟩
    · rename_i hne
      have hbucket := mt (TimeFrame.periodStart_eq_iff ..).mpr hne
      let c : ConfirmedCandle :=
        { openPrice := f.openPrice, high := f.high, low := f.low, close := f.close
          openTime := f.openTime
          closeTime := acc.timeFrame.periodStart f.openTime + acc.timeFrame.durationMs
          timeFrame := f.timeFrame
          low_le_open := f.low_le_open, open_le_high := f.open_le_high
          low_le_close := f.low_le_close, close_le_high := f.close_le_high
          -- the end of the bucket is after every tick in it
          opens_before := acc.timeFrame.lt_periodStart_add f.openTime }
      have hc : f.confirm.toConfirmed
          (acc.timeFrame.periodStart f.openTime + acc.timeFrame.durationMs) = .ok c := c.of_params
      rw [hc]
      exact ⟨_, rfl, .next hf hbucket (by simp only [c, htf])⟩

end CandleAccumulator

/-! ## Ticks in order -/

/-- What is left of `ticks`: a candle for each bucket with ticks but the last, confirmed by
the first tick after it, and the candle of the last bucket. -/
structure Aggregated (tf : TimeFrame) (ticks : List Tick) (done : List Confirmation)
    (acc : CandleAccumulator) : Prop where
  ascending : (done.map (fun c => tf.bucket c.candle.openTime)).Pairwise (· < ·)
  confirmed_iff : ∀ b, (∃ c ∈ done, tf.bucket c.candle.openTime = b) ↔
    (∃ t ∈ ticks, tf.bucket t.timestamp = b) ∧ ∃ t ∈ ticks, b < tf.bucket t.timestamp
  sums : ∀ c ∈ done, c.candle.Sums tf
    (ticks.filter (fun t => tf.bucket t.timestamp = tf.bucket c.candle.openTime))
  first_after : ∀ c ∈ done,
    (ticks.filter (fun t => tf.bucket c.candle.openTime < tf.bucket t.timestamp)).head? =
      some c.tick
  forming : ∀ last ∈ ticks.getLast?, ∃ f ∈ acc.forming,
    f.Sums (ticks.filter (fun t => tf.bucket t.timestamp = tf.bucket last.timestamp))
  fresh : ticks = [] → acc.forming = none

/-- Candles of ticks begin in the bucket of the ticks. -/
theorem Summarises.bucket_eq {tf : TimeFrame} {ticks : List Tick} {b openTime : Int}
    {openPrice high low close : Price}
    (h : Summarises (ticks.filter (fun t => tf.bucket t.timestamp = b)) openPrice high low close
      openTime) : tf.bucket openTime = b := by
  obtain ⟨first, hfirst, -, rfl⟩ := h.opens
  have hmem := List.mem_of_mem_head? hfirst
  exact of_decide_eq_true (List.mem_filter.mp hmem).2

/-- Ticks of one bucket, where one is fed from elsewhere. -/
theorem filter_bucket_snoc {tf : TimeFrame} (ticks : List Tick) {tick : Tick} {b : Int}
    (h : tf.bucket tick.timestamp ≠ b) :
    (ticks ++ [tick]).filter (fun t => tf.bucket t.timestamp = b) =
      ticks.filter (fun t => tf.bucket t.timestamp = b) := by
  simp [List.filter_append, h]

/-- Another tick of the last bucket puts no bucket in the past. -/
theorem bucket_past_snoc_same {tf : TimeFrame} {ticks : List Tick} {tick last : Tick}
    (hmem : last ∈ ticks) (hbucket : tf.bucket tick.timestamp = tf.bucket last.timestamp)
    (b : Int) :
    ((∃ t ∈ ticks ++ [tick], tf.bucket t.timestamp = b) ∧
      ∃ t ∈ ticks ++ [tick], b < tf.bucket t.timestamp) ↔
      (∃ t ∈ ticks, tf.bucket t.timestamp = b) ∧ ∃ t ∈ ticks, b < tf.bucket t.timestamp := by
  -- the new tick stands for the last one
  have hold : ∀ t ∈ ticks ++ [tick], ∃ t' ∈ ticks,
      tf.bucket t'.timestamp = tf.bucket t.timestamp := by
    intro t ht
    rcases List.mem_append.mp ht with ht | ht
    · exact ⟨t, ht, rfl⟩
    · rw [List.mem_singleton.mp ht]
      exact ⟨last, hmem, hbucket.symm⟩
  constructor
  · rintro ⟨⟨t, ht, hb⟩, t', ht', hlt⟩
    obtain ⟨s, hs, hst⟩ := hold t ht
    obtain ⟨s', hs', hst'⟩ := hold t' ht'
    exact ⟨⟨s, hs, hst.trans hb⟩, s', hs', by rw [hst']; exact hlt⟩
  · rintro ⟨⟨t, ht, hb⟩, t', ht', hlt⟩
    exact ⟨⟨t, List.mem_append_left _ ht, hb⟩, t', List.mem_append_left _ ht', hlt⟩

/-- A tick after the last bucket puts that bucket in the past, and no other. -/
theorem bucket_past_snoc_next {tf : TimeFrame} {ticks : List Tick} {tick last : Tick}
    (hmem : last ∈ ticks) (hmax : ∀ t ∈ ticks, tf.bucket t.timestamp ≤ tf.bucket last.timestamp)
    (hlt : tf.bucket last.timestamp < tf.bucket tick.timestamp) (b : Int) :
    ((∃ t ∈ ticks ++ [tick], tf.bucket t.timestamp = b) ∧
      ∃ t ∈ ticks ++ [tick], b < tf.bucket t.timestamp) ↔
      ((∃ t ∈ ticks, tf.bucket t.timestamp = b) ∧ ∃ t ∈ ticks, b < tf.bucket t.timestamp) ∨
        tf.bucket last.timestamp = b := by
  constructor
  · rintro ⟨⟨t, ht, hb⟩, t', ht', hlt'⟩
    have hle : tf.bucket t'.timestamp ≤ tf.bucket tick.timestamp := by
      rcases List.mem_append.mp ht' with ht' | ht'
      · exact le_of_lt (lt_of_le_of_lt (hmax t' ht') hlt)
      · rw [List.mem_singleton.mp ht']
    -- a tick of a bucket that has a later one is not the new tick
    have htold : t ∈ ticks := by
      rcases List.mem_append.mp ht with ht | ht
      · exact ht
      · rw [List.mem_singleton.mp ht] at hb
        omega
    rcases lt_or_eq_of_le (hb ▸ hmax t htold) with hb' | hb'
    · exact .inl ⟨⟨t, htold, hb⟩, last, hmem, hb'⟩
    · exact .inr hb'.symm
  · rintro (⟨⟨t, ht, hb⟩, t', ht', hlt'⟩ | rfl)
    · exact ⟨⟨t, List.mem_append_left _ ht, hb⟩, t', List.mem_append_left _ ht', hlt'⟩
    · exact ⟨⟨last, List.mem_append_left _ hmem, rfl⟩, tick, by simp, hlt⟩

namespace Aggregated

variable {tf : TimeFrame} {ticks : List Tick} {done : List Confirmation} {acc : CandleAccumulator}
  {tick last : Tick}

theorem nil (htf : acc.forming = none) : Aggregated tf [] [] acc where
  ascending := .nil
  confirmed_iff b := by simp
  sums c hc := by cases hc
  first_after c hc := by cases hc
  forming last hlast := by cases hlast
  fresh _ := htf

/-- Each confirmed bucket is before the last one. -/
theorem confirmed_lt (h : Aggregated tf ticks done acc)
    (hmax : ∀ t ∈ ticks, tf.bucket t.timestamp ≤ tf.bucket last.timestamp) {c : Confirmation}
    (hc : c ∈ done) : tf.bucket c.candle.openTime < tf.bucket last.timestamp := by
  obtain ⟨-, t, ht, hlt⟩ := (h.confirmed_iff _).mp ⟨c, hc, rfl⟩
  exact lt_of_lt_of_le hlt (hmax t ht)

/-- The tick that confirmed a candle is the first after it, whatever follows. -/
theorem first_after_snoc (h : Aggregated tf ticks done acc) {c : Confirmation} (hc : c ∈ done) :
    ((ticks ++ [tick]).filter
      (fun t => tf.bucket c.candle.openTime < tf.bucket t.timestamp)).head? = some c.tick := by
  rw [List.filter_append, List.head?_append, h.first_after c hc, Option.some_or]

/-- The forming candle is that of the last tick. -/
theorem forming_last (h : Aggregated tf ticks done acc) {f : FormingCandle}
    (hf : acc.forming = some f) : ∃ last ∈ ticks.getLast?,
      f.Sums (ticks.filter (fun t => tf.bucket t.timestamp = tf.bucket last.timestamp)) ∧
      tf.bucket f.openTime = tf.bucket last.timestamp := by
  cases hlast : ticks.getLast? with
  | none =>
    rw [h.fresh (List.getLast?_eq_none_iff.mp hlast)] at hf
    cases hf
  | some last =>
    obtain ⟨f', hf', hsums⟩ := h.forming last hlast
    obtain rfl : f = f' := Option.some.inj (hf.symm.trans hf')
    exact ⟨last, rfl, hsums, hsums.bucket_eq⟩

/-- A tick in the bucket of the last one. -/
theorem same (h : Aggregated tf ticks done acc) {acc' : CandleAccumulator}
    (hmax : ∀ t ∈ ticks, tf.bucket t.timestamp ≤ tf.bucket tick.timestamp)
    (hlast : last ∈ ticks.getLast?) (hbucket : tf.bucket tick.timestamp = tf.bucket last.timestamp)
    {f' : FormingCandle} (hf' : acc'.forming = some f')
    (hsums : f'.Sums ((ticks ++ [tick]).filter
      (fun t => tf.bucket t.timestamp = tf.bucket last.timestamp))) :
    Aggregated tf (ticks ++ [tick]) done acc' where
  ascending := h.ascending
  confirmed_iff b := by
    rw [bucket_past_snoc_same (List.mem_of_getLast? hlast) hbucket]
    exact h.confirmed_iff b
  sums c hc := by
    rw [filter_bucket_snoc ticks (ne_of_gt (h.confirmed_lt hmax hc))]
    exact h.sums c hc
  first_after c hc := h.first_after_snoc hc
  forming t ht := by
    obtain rfl : tick = t := by simpa using ht
    exact ⟨f', hf', by rw [hbucket]; exact hsums⟩
  fresh hnil := by simp at hnil

/-- A tick after the bucket of the last one. -/
theorem next (h : Aggregated tf ticks done acc)
    (hmax : ∀ t ∈ ticks, tf.bucket t.timestamp ≤ tf.bucket last.timestamp)
    (hlast : last ∈ ticks.getLast?) (hlt : tf.bucket last.timestamp < tf.bucket tick.timestamp)
    {c : ConfirmedCandle} (hsums : c.Sums tf
      (ticks.filter (fun t => tf.bucket t.timestamp = tf.bucket last.timestamp)))
    (htf : acc.timeFrame = tf) :
    Aggregated tf (ticks ++ [tick]) (done ++ [⟨c, tick⟩]) (acc.reopen tick (some c)) := by
  have hmem : last ∈ ticks := List.mem_of_getLast? hlast
  have hbucket : tf.bucket c.openTime = tf.bucket last.timestamp := hsums.prices.bucket_eq
  have hall : ∀ t ∈ ticks, tf.bucket t.timestamp < tf.bucket tick.timestamp :=
    fun t ht => lt_of_le_of_lt (hmax t ht) hlt
  have hconfirmed : ∀ d ∈ done ++ [⟨c, tick⟩],
      tf.bucket d.candle.openTime < tf.bucket tick.timestamp := by
    intro d hd
    rcases List.mem_append.mp hd with hd | hd
    · exact lt_trans (h.confirmed_lt hmax hd) hlt
    · rw [List.mem_singleton.mp hd]
      exact hbucket ▸ hlt
  refine ⟨?_, fun b => ?_, fun d hd => ?_, fun d hd => ?_, fun t ht => ?_, fun hnil => ?_⟩
  · rw [List.map_append, List.pairwise_append]
    refine ⟨h.ascending, List.pairwise_singleton _ _, fun b hb b' hb' => ?_⟩
    obtain ⟨d, hd, rfl⟩ := List.mem_map.mp hb
    rw [List.mem_singleton.mp hb']
    calc tf.bucket d.candle.openTime < tf.bucket last.timestamp := h.confirmed_lt hmax hd
      _ = tf.bucket c.openTime := hbucket.symm
  · rw [bucket_past_snoc_next hmem hmax hlt, ← h.confirmed_iff b, ← hbucket]
    simp [or_and_right, exists_or]
  · rw [filter_bucket_snoc ticks (ne_of_gt (hconfirmed d hd))]
    rcases List.mem_append.mp hd with hd | hd
    · exact h.sums d hd
    · rw [List.mem_singleton.mp hd, hbucket]
      exact hsums
  · rcases List.mem_append.mp hd with hd | hd
    · exact h.first_after_snoc hd
    · rw [List.mem_singleton.mp hd, List.filter_append, hbucket]
      have hnone : ticks.filter
          (fun t => tf.bucket last.timestamp < tf.bucket t.timestamp) = [] := by
        rw [List.filter_eq_nil_iff]
        intro t ht
        simpa using hmax t ht
      rw [hnone]
      simp [hlt]
  · obtain rfl : tick = t := by simpa using ht
    refine ⟨_, rfl, ?_⟩
    have hnone : ticks.filter
        (fun t => tf.bucket t.timestamp = tf.bucket tick.timestamp) = [] := by
      rw [List.filter_eq_nil_iff]
      intro t ht
      simpa using ne_of_lt (hall t ht)
    rw [List.filter_append, hnone]
    simpa [htf] using FormingCandle.sums_openWith tick acc.timeFrame
  · simp at hnil

/-- What one tick makes of the candles so far. -/
theorem watched (h : Aggregated tf ticks done acc) (htf : acc.timeFrame = tf)
    (hmax : ∀ t ∈ ticks, tf.bucket t.timestamp ≤ tf.bucket tick.timestamp)
    (hlast : ∀ last ∈ ticks.getLast?, ∀ t ∈ ticks,
      tf.bucket t.timestamp ≤ tf.bucket last.timestamp)
    {seen : List Confirmation × CandleAccumulator}
    (hseen : CandleAccumulator.Watched acc done tick seen) :
    Aggregated tf (ticks ++ [tick]) seen.1 seen.2 := by
  subst htf
  cases hseen with
  | first hf =>
    obtain rfl : ticks = [] := by
      cases hlast : ticks.getLast? with
      | none => exact List.getLast?_eq_none_iff.mp hlast
      | some last =>
        obtain ⟨f, hf', -⟩ := h.forming last hlast
        rw [hf] at hf'
        cases hf'
    obtain rfl : done = [] := by
      refine List.eq_nil_iff_forall_not_mem.mpr fun c hc => ?_
      obtain ⟨⟨t, ht, -⟩, -⟩ := (h.confirmed_iff _).mp ⟨c, hc, rfl⟩
      cases ht
    refine ⟨.nil, fun b => ?_, by simp, by simp, fun t ht => ⟨_, rfl, ?_⟩, by simp⟩
    · simp only [List.not_mem_nil, false_and, exists_false, List.nil_append, List.mem_singleton,
        exists_eq_left, false_iff, not_and]
      omega
    · obtain rfl : tick = t := by simpa using ht
      simpa using FormingCandle.sums_openWith tick acc.timeFrame
  | same hf hbucket _ hf' hupdate =>
    obtain ⟨last, hlast', hsums, hopen⟩ := h.forming_last hf
    refine h.same hmax hlast' (hbucket.trans hopen) hf' ?_
    have hadd := hsums.update hupdate
    rw [List.filter_append]
    simpa [hbucket.trans hopen] using hadd
  | next hf hbucket hc =>
    obtain ⟨last, hlast', hsums, hopen⟩ := h.forming_last hf
    have hlt : acc.timeFrame.bucket last.timestamp < acc.timeFrame.bucket tick.timestamp :=
      lt_of_le_of_ne (hmax last (List.mem_of_getLast? hlast')) (by rw [← hopen]; exact hbucket.symm)
    refine h.next (hlast last hlast') hlast' hlt ⟨?_, ?_, ?_⟩ rfl
    · rw [hc]
      exact hsums
    · rw [hc]
    · rw [hc]

end Aggregated

/-- No tick lies in an earlier bucket than a tick before it. -/
def InBuckets (tf : TimeFrame) (ticks : List Tick) : Prop :=
  ticks.Pairwise (fun a b => tf.bucket a.timestamp ≤ tf.bucket b.timestamp)

namespace InBuckets

variable {tf : TimeFrame} {ticks : List Tick} {tick last : Tick}

theorem of_timestamps (h : ticks.Pairwise (fun a b => a.timestamp ≤ b.timestamp)) :
    InBuckets tf ticks :=
  h.imp tf.bucket_mono

theorem le_last (h : InBuckets tf ticks) (hlast : last ∈ ticks.getLast?) :
    ∀ t ∈ ticks, tf.bucket t.timestamp ≤ tf.bucket last.timestamp := by
  obtain ⟨init, rfl⟩ := List.getLast?_eq_some_iff.mp hlast
  intro t ht
  rcases List.mem_append.mp ht with ht | ht
  · exact (List.pairwise_append.mp h).2.2 t ht last (by simp)
  · rw [List.mem_singleton.mp ht]

theorem snoc_iff : InBuckets tf (ticks ++ [tick]) ↔
    InBuckets tf ticks ∧ ∀ t ∈ ticks, tf.bucket t.timestamp ≤ tf.bucket tick.timestamp := by
  simp [InBuckets, List.pairwise_append]

theorem of_prefix {done rest : List Tick} (h : InBuckets tf (done ++ rest)) : InBuckets tf done :=
  (List.pairwise_append.mp h).1

end InBuckets

namespace CandleAccumulator

/-- A run of `watchAll` never throws, and keeps what each tick keeps. -/
theorem watchAll_ok (Inv : List Tick → List Confirmation × CandleAccumulator → Prop)
    {acc : CandleAccumulator} {ticks : List Tick} (h : Inv [] ([], acc))
    (hstep : ∀ fed tick rest, ticks = fed ++ tick :: rest → ∀ done acc seen, Inv fed (done, acc) →
      Watched acc done tick seen → Inv (fed ++ [tick]) seen) :
    ∃ done acc', acc.watchAll ticks = .ok (done, acc') ∧ Inv ticks (done, acc') := by
  have hends : Ends (Inv ticks) (fun _ => False) (acc.watchAll ticks) := by
    refine Ends.foldlM Inv (fun fed tick rest hticks seen hseen => ?_) h
    obtain ⟨seen', hok, hwatched⟩ := watch_ok seen.1 seen.2 tick
    rw [hok]
    exact hstep fed tick rest hticks seen.1 seen.2 seen' hseen hwatched
  cases hrun : acc.watchAll ticks with
  | error e => exact (hends.of_error hrun).elim
  | ok seen => exact ⟨seen.1, seen.2, rfl, hends.of_ok hrun⟩

theorem Watched.timeFrame_eq {acc : CandleAccumulator} {done : List Confirmation} {tick : Tick}
    {seen : List Confirmation × CandleAccumulator} (h : Watched acc done tick seen) :
    seen.2.timeFrame = acc.timeFrame := by
  cases h with
  | first _ => rfl
  | same _ _ htf _ _ => exact htf
  | next _ _ _ => rfl

theorem aggregated_of_inBuckets (acc : CandleAccumulator) (hfresh : acc.forming = none)
    {ticks : List Tick} (h : InBuckets acc.timeFrame ticks) :
    ∃ done acc', acc.watchAll ticks = .ok (done, acc') ∧
      Aggregated acc.timeFrame ticks done acc' := by
  let Inv (fed : List Tick) (seen : List Confirmation × CandleAccumulator) : Prop :=
    seen.2.timeFrame = acc.timeFrame ∧ Aggregated acc.timeFrame fed seen.1 seen.2
  have hstep : ∀ fed tick rest, ticks = fed ++ tick :: rest → ∀ done acc' seen,
      Inv fed (done, acc') → Watched acc' done tick seen → Inv (fed ++ [tick]) seen := by
    rintro fed tick rest rfl done acc' seen ⟨htf, hagg⟩ hwatched
    have hfed : InBuckets acc.timeFrame (fed ++ [tick]) := by
      rw [List.append_cons] at h
      exact h.of_prefix
    obtain ⟨hin, hmax⟩ := InBuckets.snoc_iff.mp hfed
    exact ⟨hwatched.timeFrame_eq.trans htf,
      hagg.watched htf hmax (fun last hlast => hin.le_last hlast) hwatched⟩
  obtain ⟨done, acc', hrun, -, hagg⟩ := watchAll_ok Inv ⟨rfl, .nil hfresh⟩ hstep
  exact ⟨done, acc', hrun, hagg⟩

/-- Ticks whose times do not decrease become one candle for each bucket that has ticks. -/
theorem aggregates (acc : CandleAccumulator) (hfresh : acc.forming = none) (ticks : List Tick)
    (h : ticks.Pairwise (fun a b => a.timestamp ≤ b.timestamp)) :
    ∃ done acc', acc.watchAll ticks = .ok (done, acc') ∧
      Aggregated acc.timeFrame ticks done acc' :=
  acc.aggregated_of_inBuckets hfresh (.of_timestamps h)

/-- Two minutes with ticks, one without, and a tick on the boundary. -/
theorem aggregates_quiet :
    (new .oneMinute).forming = none ∧
    [quietTick 59900, quietTick 60000, quietTick 60200, quietTick 180000].Pairwise
      (fun a b => a.timestamp ≤ b.timestamp) ∧
    ∃ done acc', (new .oneMinute).watchAll
        [quietTick 59900, quietTick 60000, quietTick 60200, quietTick 180000] = .ok (done, acc') ∧
      Aggregated .oneMinute
        [quietTick 59900, quietTick 60000, quietTick 60200, quietTick 180000] done acc' := by
  have hasc : [quietTick 59900, quietTick 60000, quietTick 60200, quietTick 180000].Pairwise
      (fun a b => a.timestamp ≤ b.timestamp) := by decide +kernel
  exact ⟨rfl, hasc, aggregates (new .oneMinute) rfl _ hasc⟩

/-! ## Ticks in any order -/

/-- The candles follow each other: a bucket is confirmed after the ones before it, and by a
tick of a later bucket, and the candle that is forming is of none that was confirmed. -/
structure BarsInOrder (tf : TimeFrame) (done : List Confirmation) (acc : CandleAccumulator) :
    Prop where
  ascending : (done.map (fun c => tf.bucket c.candle.openTime)).Pairwise (· < ·)
  not_early : ∀ c ∈ done, tf.bucket c.candle.openTime < tf.bucket c.tick.timestamp
  not_past : ∀ c ∈ done, ∀ f ∈ acc.forming,
    tf.bucket c.candle.openTime < tf.bucket f.openTime

/-- Candles of ticks in order are in order. -/
theorem barsInOrder_of_aggregated {tf : TimeFrame} {ticks : List Tick} {done : List Confirmation}
    {acc : CandleAccumulator} (h : Aggregated tf ticks done acc) (hin : InBuckets tf ticks) :
    BarsInOrder tf done acc where
  ascending := h.ascending
  not_early c hc := by
    have hmem := List.mem_of_mem_head? (Option.mem_def.mpr (h.first_after c hc))
    exact of_decide_eq_true (List.mem_filter.mp hmem).2
  not_past c hc f hf := by
    obtain ⟨last, hlast, -, hbucket⟩ := h.forming_last (Option.mem_def.mp hf)
    rw [hbucket]
    exact h.confirmed_lt (hin.le_last hlast) hc

/-- Fed with `ticks`, the accumulator is in the bucket of the last one, and where no candle
was confirmed early, no tick came late. -/
structure Followed (tf : TimeFrame) (ticks : List Tick)
    (seen : List Confirmation × CandleAccumulator) : Prop where
  timeFrame : seen.2.timeFrame = tf
  forming : seen.2.forming.map (fun f => tf.bucket f.openTime) =
    ticks.getLast?.map (fun t => tf.bucket t.timestamp)
  inBuckets : (∀ c ∈ seen.1, tf.bucket c.candle.openTime < tf.bucket c.tick.timestamp) →
    InBuckets tf ticks

theorem Followed.last {tf : TimeFrame} {ticks : List Tick} {done : List Confirmation}
    {acc : CandleAccumulator} (h : Followed tf ticks (done, acc)) {f : FormingCandle}
    (hf : acc.forming = some f) :
    ∃ last ∈ ticks.getLast?, tf.bucket last.timestamp = tf.bucket f.openTime := by
  have hforming : ticks.getLast?.map (fun t => tf.bucket t.timestamp) =
      some (tf.bucket f.openTime) := by
    rw [← h.forming, hf, Option.map_some]
  exact Option.map_eq_some_iff.mp hforming

theorem Followed.watched {tf : TimeFrame} {ticks : List Tick} {done : List Confirmation}
    {acc : CandleAccumulator} {tick : Tick} {seen : List Confirmation × CandleAccumulator}
    (h : Followed tf ticks (done, acc)) (hseen : Watched acc done tick seen) :
    Followed tf (ticks ++ [tick]) seen := by
  obtain rfl : acc.timeFrame = tf := h.timeFrame
  cases hseen with
  | first hf =>
    have hnil : ticks = [] := by
      have hforming := h.forming
      rw [hf, Option.map_none] at hforming
      exact List.getLast?_eq_none_iff.mp (Option.map_eq_none_iff.mp hforming.symm)
    subst hnil
    exact ⟨rfl, rfl, fun _ => List.pairwise_singleton _ _⟩
  | same hf hbucket htf hf' hupdate =>
    obtain ⟨last, hlast, hopen⟩ := h.last hf
    refine ⟨htf, ?_, fun hearly => InBuckets.snoc_iff.mpr ⟨h.inBuckets hearly, fun t ht => ?_⟩⟩
    · simp [hf', FormingCandle.update_openTime hupdate, hbucket]
    · rw [hbucket, ← hopen]
      exact (h.inBuckets hearly).le_last hlast t ht
  | @next f c hf hbucket hc =>
    obtain ⟨last, hlast, hopen⟩ := h.last hf
    refine ⟨rfl, by simp [reopen, FormingCandle.openWith], fun hearly => ?_⟩
    have hin := h.inBuckets fun d hd => hearly d (List.mem_append_left _ hd)
    -- the candle this tick confirms is that of the last tick
    have hlt : acc.timeFrame.bucket c.openTime < acc.timeFrame.bucket tick.timestamp :=
      hearly ⟨c, tick⟩ (by simp)
    have hcopen : c.openTime = f.openTime := by rw [hc]
    refine InBuckets.snoc_iff.mpr ⟨hin, fun t ht => ?_⟩
    calc acc.timeFrame.bucket t.timestamp ≤ acc.timeFrame.bucket last.timestamp :=
          hin.le_last hlast t ht
      _ = acc.timeFrame.bucket c.openTime := by rw [hopen, hcopen]
      _ ≤ acc.timeFrame.bucket tick.timestamp := le_of_lt hlt

/-- The candles follow each other exactly where no tick lies in an earlier bucket than a tick
before it. -/
theorem barsInOrder_iff (acc : CandleAccumulator) (hfresh : acc.forming = none)
    (ticks : List Tick) :
    ∃ done acc', acc.watchAll ticks = .ok (done, acc') ∧
      (BarsInOrder acc.timeFrame done acc' ↔
        ticks.Pairwise (fun a b =>
          acc.timeFrame.bucket a.timestamp ≤ acc.timeFrame.bucket b.timestamp)) := by
  have h0 : Followed acc.timeFrame [] ([], acc) := ⟨rfl, by simp [hfresh], fun _ => .nil⟩
  have hstep : ∀ fed tick rest, ticks = fed ++ tick :: rest → ∀ done acc' seen,
      Followed acc.timeFrame fed (done, acc') → Watched acc' done tick seen →
      Followed acc.timeFrame (fed ++ [tick]) seen :=
    fun _ _ _ _ _ _ _ h hwatched => h.watched hwatched
  obtain ⟨done, acc', hrun, hfollowed⟩ := watchAll_ok (Followed acc.timeFrame) h0 hstep
  refine ⟨done, acc', hrun, fun h => hfollowed.inBuckets h.not_early, fun hin => ?_⟩
  obtain ⟨done', acc'', hrun', hagg⟩ := acc.aggregated_of_inBuckets hfresh hin
  rw [hrun] at hrun'
  cases hrun'
  exact barsInOrder_of_aggregated hagg hin

theorem barsInOrder_iff_quiet :
    (new .oneMinute).forming = none ∧
    ∃ done acc', (new .oneMinute).watchAll [quietTick 59900, quietTick 60100] = .ok (done, acc') ∧
      (BarsInOrder .oneMinute done acc' ↔ [quietTick 59900, quietTick 60100].Pairwise
        (fun a b => TimeFrame.bucket .oneMinute a.timestamp ≤
          TimeFrame.bucket .oneMinute b.timestamp)) :=
  ⟨rfl, barsInOrder_iff (new .oneMinute) rfl _⟩

/-- Two ticks around a minute boundary that come in the wrong order: both minutes are
confirmed twice. -/
theorem exists_bucket_confirmed_twice :
    ∃ done acc', (new .oneMinute).watchAll
        [quietTick 59900, quietTick 60100, quietTick 59950, quietTick 60200, quietTick 120000] =
          .ok (done, acc') ∧
      done.map (fun c => TimeFrame.bucket .oneMinute c.candle.openTime) = [0, 1, 0, 1] ∧
      ¬ BarsInOrder .oneMinute done acc' := by
  obtain ⟨seen, hrun, hbuckets⟩ : ∃ seen, (new .oneMinute).watchAll
      [quietTick 59900, quietTick 60100, quietTick 59950, quietTick 60200, quietTick 120000] =
        .ok seen ∧ decide (seen.1.map (fun c => TimeFrame.bucket .oneMinute c.candle.openTime) =
          [0, 1, 0, 1]) = true := exists_ok (by decide +kernel)
  have hmap := of_decide_eq_true hbuckets
  refine ⟨seen.1, seen.2, hrun, hmap, fun hinorder => ?_⟩
  have hasc := hinorder.ascending
  rw [hmap] at hasc
  exact absurd hasc (by decide)

end CandleAccumulator

end Luchida
