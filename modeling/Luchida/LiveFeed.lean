import Luchida.BookReadiness
import Luchida.BoundaryScheduler
import Luchida.ReconcileReport

/- BarReconciler.ts under the wall-clock watchdog, and MarketDataStream.ts: the two ways in
   which the market reaches the book. While a fetch is under way ticks come and go and other
   time frames are corrected; the book is not touched before the fetch has settled, and then
   in one piece. So whatever the interleaving, the book takes one event after the other
   (`LiveFeed.exec_bars`).

   What is proved of it is that the past wears off. Two sessions, one of them restarted or
   cut off for hours, take the same events from some moment on. From the first tick that opens
   a bar in both they form the same candles; with one official list after it, or with as many
   bars as the long window holds and one more, they are shown the same of the time frame on
   every tick (`LiveFeed.sessions_agree`). -/
namespace Luchida

open Runs

/-! ## The reconciler -/

/-- What a call of `fetchRecent` comes to. -/
inductive FetchAnswer where
  | resolved (official : List ConfirmedCandle)
  | rejected

section
variable {σ : Type} [SmaCalculator σ]

/-- `BarReconciler.reconcile` from the moment `fetchRecent` has settled: what it resolves or
rejects with, which is the event that is logged, and the book. -/
def BarReconciler.resume (book : TimeFrameBook σ) (timeFrame : TimeFrame) (now : Int) :
    FetchAnswer → Except BookError (Option BarReconciled) × TimeFrameBook σ
  -- a failed fetch is logged, and the next boundary tries again
  | .rejected => (.ok none, book)
  | .resolved official => book.reconcile timeFrame official now

/-- The session's market side: the watchdog, and the book with its record. -/
structure LiveFeed (σ : Type) where
  scheduler : BoundaryScheduler
  bars : BarState σ

inductive FeedLabel where
  /-- A tick comes in. -/
  | onTick (tick : Tick) (now : Int)
  /-- The fetch of a callback settles, and the callback runs to its end. -/
  | settle (timeFrame : TimeFrame) (index : Nat) (answer : FetchAnswer) (now : Int)
  | start (now : Int)
  | stop (now : Int)
  /-- A timer fires, and its callback begins to fetch. -/
  | fire (timeFrame : TimeFrame) (handle : Nat) (now : Int)

/-- What a label is to the book. -/
def FeedLabel.event : FeedLabel → Option BarLabel
  | .onTick tick now => some (.onTick tick now)
  | .settle tf _ (.resolved official) now => some (.reconcile tf official now)
  | .settle _ _ .rejected _ | .start _ | .stop _ | .fire .. => none

namespace LiveFeed

/-- What a label is to the watchdog. -/
def watchdogLabel (s : LiveFeed σ) : FeedLabel → BoundaryLabel
  | .onTick _ now => .tick now
  | .settle tf i answer now =>
    .settle tf i (BarReconciler.resume s.bars.book tf now answer).1.isOk now
  | .start now => .start now
  | .stop now => .stop now
  | .fire tf handle now => .fire tf handle now

/-- The book takes the event of a label, if there is one. -/
def nextBars (s : LiveFeed σ) (a : FeedLabel) : Option (BarState σ) :=
  match a.event with
  | some event => s.bars.step event
  | none => some s.bars

def step (s : LiveFeed σ) (a : FeedLabel) : Option (LiveFeed σ) :=
  match s.scheduler.step (s.watchdogLabel a), s.nextBars a with
  | some scheduler, some bars => some ⟨scheduler, bars⟩
  | _, _ => none

end LiveFeed

/-! ## One event after the other -/

namespace BarState

/-- The state after an event. -/
def after (s : BarState σ) (a : BarLabel) : BarState σ := (s.step a).getD s

theorem step_eq_after (s : BarState σ) (a : BarLabel) : s.step a = some (s.after a) := by
  cases a <;> rfl

def run (s : BarState σ) (events : List BarLabel) : BarState σ := events.foldl after s

theorem run_append (s : BarState σ) (events later : List BarLabel) :
    s.run (events ++ later) = (s.run events).run later := List.foldl_append

end BarState

namespace LiveFeed

theorem step_bars {s s' : LiveFeed σ} {a : FeedLabel} (h : s.step a = some s') :
    s'.bars = s.bars.run a.event.toList := by
  unfold step at h
  split at h
  · rename_i scheduler bars _ hbars
    cases h
    unfold nextBars at hbars
    cases ha : a.event with
    | none =>
      rw [ha] at hbars
      cases hbars
      rfl
    | some event =>
      rw [ha] at hbars
      cases (s.bars.step_eq_after event).symm.trans hbars
      rfl
  · cases h

/-- Whatever is under way at the same time, the book takes one event after the other. -/
theorem exec_bars {s s' : LiveFeed σ} {labels : List FeedLabel}
    (h : exec step (fun _ _ => True) s labels = some s') :
    s'.bars = s.bars.run (labels.filterMap FeedLabel.event) := by
  induction labels generalizing s with
  | nil =>
    cases h
    rfl
  | cons a labels ih =>
    simp only [exec, if_true] at h
    obtain ⟨mid, hmid, hrest⟩ := Option.bind_eq_some_iff.mp h
    rw [ih hrest, step_bars hmid, ← BarState.run_append]
    cases ha : a.event with
    | none => rw [List.filterMap_cons_none ha, Option.toList_none, List.nil_append]
    | some event => rw [List.filterMap_cons_some ha, Option.toList_some, List.singleton_append]

end LiveFeed

/-! ## A tick at a ready time frame -/

/-- What a processed tick adds to the history: the candle it confirmed, and the close of the
forming one. -/
def History.ticked (h : History) (acc : CandleAccumulator) : CandleEvent → History
  | .confirmed =>
    ⟨h.closes ++ (acc.lastConfirmed.map (·.close.value)).toList,
      acc.forming.map (·.close.value)⟩
  | .updated => { h with latest := acc.forming.map (·.close.value) }

section
variable {average : List ℚ → ℚ} {config : IndicatorConfig} {tf : TimeFrame}
  {hist hist' : History} (hσ : AveragesBy average σ)
include hσ

theorem advanceLedger_ok {ledger : IndicatorLedger σ} (h : Stable average config hist ledger)
    {acc : CandleAccumulator} {event : CandleEvent} {f : FormingCandle} {c : ConfirmedCandle}
    (hf : acc.forming = some f) (hc : acc.lastConfirmed = some c) :
    ∃ ledger', TimeFrameBook.advanceLedger acc ledger event = (.ok (), ledger') ∧
      Stable average config (hist.ticked acc event) ledger' := by
  cases event with
  | updated =>
    refine ⟨ledger.onCandleUpdated f, by simp only [TimeFrameBook.advanceLedger, hf], ?_⟩
    have hupdated := h.onUpdated hσ f
    simpa only [History.ticked, History.after, hf, Option.map_some] using hupdated
  | confirmed =>
    have hconfirmed := h.onConfirmed hσ c
    obtain ⟨log, hlog⟩ := hconfirmed.tracks.snapshotOrNull_ok config.short_pos config.long_pos
      hσ hconfirmed.positive
    refine ⟨(ledger.onCandleConfirmed c).onCandleUpdated f, ?_, ?_⟩
    · simp only [TimeFrameBook.advanceLedger, hf, hc, hlog]
    · have hupdated := hconfirmed.onUpdated hσ f
      simpa only [History.ticked, History.after, hf, hc, Option.map_some, Option.toList_some]
        using hupdated

/-- A tick takes a ready entry to one that is ready with the history of the tick, and shows
the snapshot of that entry. -/
theorem processEntry_ticked {entry : TimeFrameEntry σ} (h : Ready average config tf hist entry)
    {tick : Tick} {event : CandleEvent} {acc : CandleAccumulator}
    (hacc : entry.accumulator.accumulate tick = .ok (event, acc)) :
    ∃ ledger, TimeFrameBook.processEntry tf entry tick =
        (TimeFrameBook.snapshotEntry tf acc ledger, ⟨acc, ledger⟩) ∧
      Ready average config tf (hist.ticked acc event) ⟨acc, ledger⟩ := by
  obtain ⟨event', acc', hist₁, shot, hacc', -, hnext, hready, -⟩ := processEntry_ready hσ h tick
  obtain ⟨rfl, rfl⟩ : event = event' ∧ acc = acc' := by
    rw [hacc, Except.ok.injEq, Prod.mk.injEq] at hacc'
    exact hacc'
  obtain ⟨c, hc, hctf⟩ := hready.confirmed
  have htimeFrame := hready.timeFrame
  rw [hnext] at hc htimeFrame
  obtain ⟨f, hf⟩ : ∃ f, acc.forming = some f := by
    obtain ⟨event', acc', hacc', hcases⟩ := entry.accumulator.accumulate_cases tick
    rw [hacc, Except.ok.injEq, Prod.mk.injEq] at hacc'
    obtain ⟨rfl, rfl⟩ := hacc'
    cases hcases with
    | first _ => exact ⟨_, rfl⟩
    | same _ _ _ _ hf _ => exact ⟨_, hf⟩
    | next _ _ _ _ _ => exact ⟨_, rfl⟩
  obtain ⟨ledger, hledger, hstable⟩ :
      ∃ ledger, TimeFrameBook.advanceLedger acc entry.ledger event = (.ok (), ledger) ∧
        Stable average config (hist.ticked acc event) ledger := advanceLedger_ok hσ h.ledger hf hc
  refine ⟨ledger, ?_, hstable, htimeFrame, c, hc, hctf⟩
  simp only [TimeFrameBook.processEntry, hacc, hledger]

omit hσ in
/-- The values shown depend on the forming close and on the closes of the long window and of
one bar before it. -/
theorem Stateless.congr {v v' : IndicatorValues}
    (hv : Stateless average config.shortSmaPeriod config.longSmaPeriod hist v)
    (hv' : Stateless average config.shortSmaPeriod config.longSmaPeriod hist' v')
    (hfull : config.longSmaPeriod ≤ hist.closes.length)
    (hfull' : config.longSmaPeriod ≤ hist'.closes.length)
    (hcloses : hist.closes.rtake (config.longSmaPeriod + 1) =
      hist'.closes.rtake (config.longSmaPeriod + 1))
    (hlatest : hist.latest = hist'.latest) : v = v' := by
  have hcurrent : ∀ n, n ≤ config.longSmaPeriod →
      hist.current average n = hist'.current average n := by
    intro n hn
    have := Window.rtake_congr (Nat.le_succ_of_le hn) hcloses
    simp only [History.current, Window.movingAverage, this]
  have hprevious : ∀ n, n ≤ config.longSmaPeriod →
      hist.previous average n = hist'.previous average n := by
    intro n hn
    have hmean := Window.rtake_dropLast_congr (Nat.lt_succ_of_le hn) hcloses
    have hlength : n ≤ hist.closes.dropLast.length ↔ n ≤ hist'.closes.dropLast.length := by
      have h := Window.le_length_congr (Nat.succ_le_succ hn) hcloses
      have h' := Window.le_length_congr (Nat.succ_le_succ hn) hcloses.symm
      rw [List.length_dropLast, List.length_dropLast]
      omega
    simp only [History.previous, Window.movingAverage, hmean, hlength, hcurrent n hn]
  have hforming : ∀ n, n ≤ config.longSmaPeriod →
      hist.forming average n = hist'.forming average n := by
    intro n hn
    have := Window.rtake_congr (show n - 1 ≤ config.longSmaPeriod + 1 by omega) hcloses
    simp only [History.forming, hlatest, this, hcurrent n hn]
  have hshort := Nat.le_of_lt config.short_lt_long
  have h1 := hv.shortSma.trans ((hcurrent _ hshort).trans hv'.shortSma.symm)
  have h2 := hv.longSma.trans ((hcurrent _ le_rfl).trans hv'.longSma.symm)
  have h3 := hv.previousShortSma.trans ((hprevious _ hshort).trans hv'.previousShortSma.symm)
  have h4 := hv.previousLongSma.trans ((hprevious _ le_rfl).trans hv'.previousLongSma.symm)
  have h5 := hv.formingShortSma.trans ((hforming _ hshort).trans hv'.formingShortSma.symm)
  have h6 := hv.formingLongSma.trans ((hforming _ le_rfl).trans hv'.formingLongSma.symm)
  have h7 := hv.formingPreviousShort
  have h8 := hv.formingPreviousLong
  have h7' := hv'.formingPreviousShort
  have h8' := hv'.formingPreviousLong
  obtain ⟨⟨a, b, c, d⟩, ⟨e, f, g, i⟩⟩ := v
  obtain ⟨⟨a', b', c', d'⟩, ⟨e', f', g', i'⟩⟩ := v'
  obtain rfl : a = a' := SmaValue.ext h1
  obtain rfl : b = b' := SmaValue.ext h2
  obtain rfl : c = c' := SmaValue.ext h3
  obtain rfl : d = d' := SmaValue.ext h4
  obtain rfl : e = e' := SmaValue.ext h5
  obtain rfl : f = f' := SmaValue.ext h6
  obtain rfl : g = g' := h7.trans h7'.symm
  obtain rfl : i = i' := h8.trans h8'.symm
  rfl

end

/-! ## Two entries of one time frame -/

/-- The invariant: the same candle is forming, the last `n` closes are the same, and so is
the confirmed candle, if `n` is not zero. -/
structure Alike (average : List ℚ → ℚ) (config : IndicatorConfig) (tf : TimeFrame) (n : Nat)
    (hist hist' : History) (entry entry' : TimeFrameEntry σ) : Prop where
  ready : Ready average config tf hist entry
  ready' : Ready average config tf hist' entry'
  formed : entry.accumulator.forming ≠ none
  forming : entry.accumulator.forming = entry'.accumulator.forming
  latest : hist.latest = hist'.latest
  closes : hist.closes.rtake n = hist'.closes.rtake n
  confirmed : 0 < n → entry.accumulator.lastConfirmed = entry'.accumulator.lastConfirmed

namespace Alike

variable {average : List ℚ → ℚ} {config : IndicatorConfig} {tf : TimeFrame} {n : Nat}
  {hist hist' : History} {entry entry' : TimeFrameEntry σ}

theorem mono {m : Nat} (h : Alike average config tf n hist hist' entry entry') (hm : m ≤ n) :
    Alike average config tf m hist hist' entry entry' :=
  { h with
    closes := Window.rtake_congr hm h.closes
    confirmed := fun hpos => h.confirmed (Nat.lt_of_lt_of_le hpos hm) }

variable (hσ : AveragesBy average σ)
include hσ

/-- With the long window and one bar before it in common the two show the same. -/
theorem snapshotEntry_eq (h : Alike average config tf n hist hist' entry entry')
    (hn : config.longSmaPeriod < n) :
    TimeFrameBook.snapshotEntry tf entry.accumulator entry.ledger =
      TimeFrameBook.snapshotEntry tf entry'.accumulator entry'.ledger := by
  obtain ⟨v, hv, hstateless⟩ := h.ready.ledger.currentValues_ok hσ
  obtain ⟨v', hv', hstateless'⟩ := h.ready'.ledger.currentValues_ok hσ
  have hvalues : v = v' := hstateless.congr hstateless' h.ready.ledger.full h.ready'.ledger.full
    (Window.rtake_congr hn h.closes) h.latest
  unfold TimeFrameBook.snapshotEntry
  rw [h.forming, h.confirmed (Nat.zero_lt_of_lt hn), hv, hv', hvalues]

/-- A tick keeps what is in common, and one bar more when it opens one. -/
theorem ticked (h : Alike average config tf n hist hist' entry entry') (tick : Tick) :
    ∃ m hist₁ hist₁', n ≤ m ∧
      ((∀ f ∈ entry.accumulator.forming, tf.bucket tick.timestamp ≠ tf.bucket f.openTime) →
        n < m) ∧
      Alike average config tf m hist₁ hist₁' (TimeFrameBook.processEntry tf entry tick).2
        (TimeFrameBook.processEntry tf entry' tick).2 ∧
      (config.longSmaPeriod < m → (TimeFrameBook.processEntry tf entry tick).1 =
        (TimeFrameBook.processEntry tf entry' tick).1) := by
  obtain ⟨event, acc, hacc, hcases⟩ := entry.accumulator.accumulate_cases tick
  have htf : entry.accumulator.timeFrame = entry'.accumulator.timeFrame :=
    h.ready.timeFrame.trans h.ready'.timeFrame.symm
  obtain ⟨acc', hacc', hforming, hconfirmed⟩ :=
    CandleAccumulator.accumulate_congr htf h.forming tick hacc
  obtain ⟨ledger, hprocess, hready⟩ := processEntry_ticked hσ h.ready hacc
  obtain ⟨ledger', hprocess', hready'⟩ := processEntry_ticked hσ h.ready' hacc'
  -- it is enough to know the closes and the confirmed candle
  have hgoal : ∀ m, n ≤ m →
      ((∀ f ∈ entry.accumulator.forming, tf.bucket tick.timestamp ≠ tf.bucket f.openTime) →
        n < m) →
      acc.forming ≠ none → (hist.ticked acc event).latest = (hist'.ticked acc' event).latest →
      (hist.ticked acc event).closes.rtake m = (hist'.ticked acc' event).closes.rtake m →
      (0 < m → acc.lastConfirmed = acc'.lastConfirmed) →
      ∃ m hist₁ hist₁', n ≤ m ∧
        ((∀ f ∈ entry.accumulator.forming, tf.bucket tick.timestamp ≠ tf.bucket f.openTime) →
          n < m) ∧
        Alike average config tf m hist₁ hist₁' (TimeFrameBook.processEntry tf entry tick).2
          (TimeFrameBook.processEntry tf entry' tick).2 ∧
        (config.longSmaPeriod < m → (TimeFrameBook.processEntry tf entry tick).1 =
          (TimeFrameBook.processEntry tf entry' tick).1) := by
    intro m hle hopens hformed hlatest hcloses hlast
    rw [hprocess, hprocess']
    have hagree : Alike average config tf m (hist.ticked acc event) (hist'.ticked acc' event)
        ⟨acc, ledger⟩ ⟨acc', ledger'⟩ :=
      ⟨hready, hready', hformed, hforming, hlatest, hcloses, hlast⟩
    exact ⟨m, _, _, hle, hopens, hagree, hagree.snapshotEntry_eq hσ⟩
  cases hcases with
  | first hf => exact absurd hf h.formed
  | @same acc f f' hf hbucket _ hlast hf' _ =>
    refine hgoal n le_rfl (fun hopens => ?_) (by simp [hf']) ?_ h.closes (fun hpos => ?_)
    · rw [h.ready.timeFrame] at hbucket
      exact absurd hbucket (hopens f hf)
    · simp only [History.ticked, hforming]
    · -- neither entry has taken another confirmed candle
      have hlast' : acc'.lastConfirmed = entry'.accumulator.lastConfirmed := by
        obtain ⟨event', acc'', hacc'', hcases'⟩ := entry'.accumulator.accumulate_cases tick
        rw [hacc', Except.ok.injEq, Prod.mk.injEq] at hacc''
        obtain ⟨rfl, rfl⟩ := hacc''
        cases hcases' with
        | first _ => rfl
        | same _ _ _ hlast' _ _ => exact hlast'
      rw [hlast, hlast', h.confirmed hpos]
  | @next f c hf hbucket _ _ _ =>
    have hlast : some c = acc'.lastConfirmed := hconfirmed rfl
    refine hgoal (n + 1) (Nat.le_succ n) (fun _ => Nat.lt_succ_self n)
      (by simp [CandleAccumulator.reopen]) ?_ ?_ fun _ => hlast
    · simp only [History.ticked, hforming]
    · simp only [History.ticked, ← hlast, CandleAccumulator.reopen, Option.map_some,
        Option.toList_some, List.rtake_concat_succ, h.closes]

end Alike

/-! ## Two sessions -/

namespace BarState

variable {average : List ℚ → ℚ} {config : IndicatorConfig} {s s' : BarState σ}
  {tf : TimeFrame} {n : Nat} {hist hist' : History}

/-- The tick opens a bar of the time frame, the first one or the next. -/
def Opens (s : BarState σ) (tf : TimeFrame) (tick : Tick) : Prop :=
  ∀ f ∈ (s.book.entries tf).accumulator.forming, tf.bucket tick.timestamp ≠ tf.bucket f.openTime

instance (s : BarState σ) (tf : TimeFrame) (tick : Tick) : Decidable (s.Opens tf tick) :=
  inferInstanceAs (Decidable (∀ f ∈ _, _))

/-- The book takes an official list for the time frame. -/
def Takes (s : BarState σ) (tf : TimeFrame) (official : List ConfirmedCandle) : Prop :=
  ∃ acc, s.book.acceptOfficial tf official = .ok (some acc)

/-- The same tick or official list, whenever either session handles it. -/
inductive SameEvent : BarLabel → BarLabel → Prop
  | onTick (tick : Tick) (now now' : Int) : SameEvent (.onTick tick now) (.onTick tick now')
  | reconcile (tf : TimeFrame) (official : List ConfirmedCandle) (now now' : Int) :
      SameEvent (.reconcile tf official now) (.reconcile tf official now')

/-- What two sessions have in common of a time frame after their events, which are the same
since some tick opened a bar in both: the candle since that tick, and `n` bars before it, or as
many as one likes from the first official list on. -/
inductive Shares (s s' : BarState σ) (tf : TimeFrame) :
    Nat → List BarLabel → List BarLabel → Prop
  | opened {events events' : List BarLabel} {tick : Tick} {now now' : Int} :
      (s.run events).Opens tf tick → (s'.run events').Opens tf tick →
      Shares s s' tf 0 (events ++ [.onTick tick now]) (events' ++ [.onTick tick now'])
  | event {n : Nat} {events events' : List BarLabel} {a a' : BarLabel} :
      Shares s s' tf n events events' → SameEvent a a' →
      Shares s s' tf n (events ++ [a]) (events' ++ [a'])
  | bar {n : Nat} {events events' : List BarLabel} {tick : Tick} {now now' : Int} :
      Shares s s' tf n events events' → (s.run events).Opens tf tick →
      Shares s s' tf (n + 1) (events ++ [.onTick tick now]) (events' ++ [.onTick tick now'])
  | official {n : Nat} {events events' : List BarLabel} {official : List ConfirmedCandle}
      {now now' : Int} (m : Nat) :
      Shares s s' tf n events events' → (s.run events).Takes tf official →
      Shares s s' tf m (events ++ [.reconcile tf official now])
        (events' ++ [.reconcile tf official now'])

variable (hσ : AveragesBy average σ)

section
include hσ

theorem AllReady.after (h : s.AllReady average config) (a : BarLabel) :
    (s.after a).AllReady average config :=
  h.step hσ (s.step_eq_after a)

theorem AllReady.run (h : s.AllReady average config) (events : List BarLabel) :
    (s.run events).AllReady average config := by
  induction events generalizing s with
  | nil => exact h
  | cons a events ih => exact ih (h.after hσ a)

/-- A tick reaches every time frame of a ready book. -/
theorem after_onTick (h : s.AllReady average config) (tick : Tick) (now : Int) (tf : TimeFrame) :
    (s.after (.onTick tick now)).book.entries tf =
      (TimeFrameBook.processEntry tf (s.book.entries tf) tick).2 := by
  obtain ⟨-, -, hentries⟩ := h.onTick hσ tick now
  exact hentries tf

end

omit [SmaCalculator σ] in
/-- Of a book `acceptOfficial` looks at the forming candle and at the bars that it asks
for. -/
theorem Takes.congr (hrequired : (s.book.entries tf).ledger.requiredBarsForStable =
      (s'.book.entries tf).ledger.requiredBarsForStable)
    (hforming : (s.book.entries tf).accumulator.forming =
      (s'.book.entries tf).accumulator.forming)
    {official : List ConfirmedCandle} (h : s.Takes tf official) : s'.Takes tf official := by
  obtain ⟨acc, hacc⟩ := h
  obtain ⟨-, -, last, -, haccepts⟩ := TimeFrameBook.acceptOfficial_ok hacc
  have haccepts' : s'.book.Accepts tf official last :=
    { haccepts with
      enough := hrequired ▸ haccepts.enough
      before_forming := fun f hf => haccepts.before_forming f (hforming ▸ hf) }
  exact TimeFrameBook.acceptOfficial_of_accepts haccepts'
    (checkCandles_timeFrame (TimeFrameBook.checkCandles_of_acceptOfficial hacc))

/-- A list that is not taken, or is one of another time frame, changes nothing. -/
theorem after_reconcile_of_not (s : BarState σ) {tf' : TimeFrame}
    {official : List ConfirmedCandle} (h : ¬ (tf' = tf ∧ s.Takes tf official)) (now : Int) :
    (s.after (.reconcile tf' official now)).book.entries tf = s.book.entries tf := by
  show (s.book.reconcile tf' official now).2.entries tf = _
  rcases s.book.reconcile_entries tf' official now tf with heq | ⟨rfl, acc, hacc, -⟩
  · exact heq
  · exact absurd ⟨rfl, acc, hacc⟩ h

section
include hσ

/-- An official list that both take gives them everything in common but what came before the
forming candle opened. -/
theorem agree_of_takes (h : s.AllReady average config) (h' : s'.AllReady average config)
    (hagree : Alike average config tf n hist hist' (s.book.entries tf) (s'.book.entries tf))
    {official : List ConfirmedCandle} (htakes : s.Takes tf official) (now now' : Int) (m : Nat) :
    Alike average config tf m (.ofWarmUp official) (.ofWarmUp official)
      ((s.after (.reconcile tf official now)).book.entries tf)
      ((s'.after (.reconcile tf official now')).book.entries tf) := by
  obtain ⟨acc', hacc'⟩ := htakes.congr ((h.required tf).trans (h'.required tf).symm)
    hagree.forming
  obtain ⟨acc, hacc⟩ := htakes
  obtain ⟨-, hforming, last, hlast, haccepts⟩ := TimeFrameBook.acceptOfficial_ok hacc
  obtain ⟨-, hforming', last', hlast', haccepts'⟩ := TimeFrameBook.acceptOfficial_ok hacc'
  have hlasts : some last = some last' := haccepts.last_eq.symm.trans haccepts'.last_eq
  show Alike average config tf m _ _ ((s.book.reconcile tf official now).2.entries tf)
    ((s'.book.reconcile tf official now').2.entries tf)
  rw [TimeFrameBook.reconcile_accepted now hacc, TimeFrameBook.reconcile_accepted now' hacc',
    Function.update_self, Function.update_self]
  exact {
    ready := hagree.ready.reconciled hσ hacc (h.required tf)
    ready' := hagree.ready'.reconciled hσ hacc' (h'.required tf)
    formed := hforming ▸ hagree.formed
    forming := hforming.trans (hagree.forming.trans hforming'.symm)
    latest := rfl
    closes := rfl
    confirmed := fun _ => hlast.trans (hlasts.trans hlast'.symm) }

/-- What one event keeps in common. -/
theorem agree_after (h : s.AllReady average config) (h' : s'.AllReady average config)
    (hagree : Alike average config tf n hist hist' (s.book.entries tf) (s'.book.entries tf))
    {a a' : BarLabel} (hsame : SameEvent a a') :
    ∃ m hist₁ hist₁', n ≤ m ∧
      (∀ tick now, a = .onTick tick now → s.Opens tf tick → n < m) ∧
      Alike average config tf m hist₁ hist₁' ((s.after a).book.entries tf)
        ((s'.after a').book.entries tf) := by
  cases hsame with
  | onTick tick now now' =>
    obtain ⟨m, hist₁, hist₁', hle, hopens, hticked, -⟩ := hagree.ticked hσ tick
    rw [after_onTick hσ h, after_onTick hσ h']
    refine ⟨m, hist₁, hist₁', hle, fun tick' now₁ heq hopen => ?_, hticked⟩
    cases heq
    exact hopens hopen
  | reconcile tf' official now now' =>
    by_cases htakes : tf' = tf ∧ s.Takes tf official
    · obtain ⟨rfl, htakes⟩ := htakes
      exact ⟨n, _, _, le_rfl, nofun, agree_of_takes hσ h h' hagree htakes now now' n⟩
    · have htakes' : ¬ (tf' = tf ∧ s'.Takes tf official) := fun ⟨htf, ht⟩ =>
        htakes ⟨htf, ht.congr ((h'.required tf).trans (h.required tf).symm) hagree.forming.symm⟩
      rw [after_reconcile_of_not s htakes now, after_reconcile_of_not s' htakes' now']
      exact ⟨n, hist, hist', le_rfl, nofun, hagree⟩

/-- A tick that opens a bar in both leaves nothing of the candles before it. -/
theorem agree_of_opens (h : s.AllReady average config) (h' : s'.AllReady average config)
    {tick : Tick} (hopens : s.Opens tf tick) (hopens' : s'.Opens tf tick) (now now' : Int) :
    ∃ hist hist', Alike average config tf 0 hist hist'
      ((s.after (.onTick tick now)).book.entries tf)
      ((s'.after (.onTick tick now')).book.entries tf) := by
  -- what the tick makes of either entry
  have hnew : ∀ {s : BarState σ}, s.AllReady average config → s.Opens tf tick → ∀ now, ∃ hist,
      Ready average config tf hist ((s.after (.onTick tick now)).book.entries tf) ∧
      ((s.after (.onTick tick now)).book.entries tf).accumulator.forming =
        some (.openWith tick tf) ∧
      hist.latest = some (FormingCandle.openWith tick tf).close.value := by
    intro s h hopens now
    obtain ⟨hist, hready⟩ := h.ready tf
    obtain ⟨event, acc, hacc, hcases⟩ := (s.book.entries tf).accumulator.accumulate_cases tick
    obtain ⟨ledger, hprocess, hnext⟩ := processEntry_ticked hσ hready hacc
    have hsound := s.book.sound tf
    have hforming : acc.forming = some (.openWith tick tf) := by
      cases hcases with
      | first _ => simp [CandleAccumulator.reopen, hsound]
      | same hf hbucket _ _ _ _ =>
        rw [hsound] at hbucket
        exact absurd hbucket (hopens _ hf)
      | next _ _ _ _ _ => simp [CandleAccumulator.reopen, hsound]
    rw [after_onTick hσ h, hprocess]
    refine ⟨_, hnext, hforming, ?_⟩
    cases event <;> simp only [History.ticked, hforming, Option.map_some]
  obtain ⟨hist, hready, hforming, hlatest⟩ := hnew h hopens now
  obtain ⟨hist', hready', hforming', hlatest'⟩ := hnew h' hopens' now'
  exact ⟨hist, hist', {
    ready := hready
    ready' := hready'
    formed := by simp [hforming]
    forming := hforming.trans hforming'.symm
    latest := hlatest.trans hlatest'.symm
    closes := by simp [List.rtake]
    confirmed := fun hpos => absurd hpos (Nat.lt_irrefl 0) }⟩

/-- Sessions that share bars agree on them. -/
theorem Shares.agree (h : s.AllReady average config) (h' : s'.AllReady average config)
    {events events' : List BarLabel} (hshares : Shares s s' tf n events events') :
    ∃ hist hist', Alike average config tf n hist hist' ((s.run events).book.entries tf)
      ((s'.run events').book.entries tf) := by
  induction hshares with
  | @opened events events' tick now now' hopens hopens' =>
    rw [run_append, run_append]
    exact agree_of_opens hσ (h.run hσ events) (h'.run hσ events') hopens hopens' now now'
  | @event n events events' a a' _ hsame ih =>
    obtain ⟨hist, hist', hagree⟩ := ih
    obtain ⟨m, hist₁, hist₁', hle, -, hafter⟩ :=
      agree_after hσ (h.run hσ events) (h'.run hσ events') hagree hsame
    rw [run_append, run_append]
    exact ⟨hist₁, hist₁', hafter.mono hle⟩
  | @bar n events events' tick now now' _ hopens ih =>
    obtain ⟨hist, hist', hagree⟩ := ih
    obtain ⟨m, hist₁, hist₁', -, hlt, hafter⟩ :=
      agree_after hσ (h.run hσ events) (h'.run hσ events') hagree (.onTick tick now now')
    rw [run_append, run_append]
    exact ⟨hist₁, hist₁', hafter.mono (hlt tick now rfl hopens)⟩
  | @official n events events' official now now' m _ htakes ih =>
    obtain ⟨hist, hist', hagree⟩ := ih
    rw [run_append, run_append]
    exact ⟨_, _, agree_of_takes hσ (h.run hσ events) (h'.run hσ events') hagree htakes now now' m⟩

/-- With the long window and one bar before it in common, every tick shows both the same. -/
theorem Shares.shown (h : s.AllReady average config) (h' : s'.AllReady average config)
    {events events' : List BarLabel} (hshares : Shares s s' tf n events events')
    (hn : config.longSmaPeriod < n) (tick : Tick) (now now' : Int) :
    ∃ shown shown', ((s.run events).book.onTick tick now).1 = .ok shown ∧
      ((s'.run events').book.onTick tick now').1 = .ok shown' ∧
      shown.snapshotOf tf = shown'.snapshotOf tf := by
  obtain ⟨hist, hist', hagree⟩ := hshares.agree hσ h h'
  obtain ⟨m, -, -, hle, -, -, hsame⟩ := hagree.ticked hσ tick
  have hshown : ∀ {s : BarState σ}, s.AllReady average config → ∀ now, ∃ shown,
      (s.book.onTick tick now).1 = .ok shown ∧
      (TimeFrameBook.processEntry tf (s.book.entries tf) tick).1 = .ok (shown.snapshotOf tf) := by
    intro s h now
    have hok : ∀ tf, ∃ shot,
        (TimeFrameBook.processEntry tf (s.book.entries tf) tick).1 = .ok shot := by
      intro tf
      obtain ⟨hist, hready⟩ := h.ready tf
      obtain ⟨-, -, -, shot, -, hshot, -⟩ := processEntry_ready hσ hready tick
      exact ⟨shot, hshot⟩
    obtain ⟨shown, hshown, hall⟩ := TimeFrameBook.exists_onTick now hok
    exact ⟨shown, hshown, (hall tf).1⟩
  obtain ⟨shown, hshown₁, hentry⟩ := hshown (h.run hσ events) now
  obtain ⟨shown', hshown₁', hentry'⟩ := hshown (h'.run hσ events') now'
  have heq := hsame (Nat.lt_of_lt_of_le hn hle)
  rw [hentry, hentry', Except.ok.injEq] at heq
  exact ⟨shown, shown', hshown₁, hshown₁', heq⟩

end

end BarState

/-! ## The live feed -/

namespace LiveFeed

variable {average : List ℚ → ℚ} {config : IndicatorConfig}

/-- A session that began with lists that fill the long window, after whatever has come to it
since. -/
def Session (pair : CurrencyPair) (config : IndicatorConfig) (s : LiveFeed σ) : Prop :=
  ∃ (history : TimeFrame → List ConfirmedCandle) (s₀ : LiveFeed σ),
    BarState.warmedUp pair config history = .ok s₀.bars ∧
    (∀ tf, config.longSmaPeriod ≤ (history tf).length) ∧
    Reaches step (fun _ _ => True) s₀ s

theorem Session.ready (hσ : AveragesBy average σ) {pair : CurrencyPair} {s : LiveFeed σ}
    (h : Session pair config s) : s.bars.AllReady average config := by
  obtain ⟨history, s₀, h₀, hlong, hreaches⟩ := h
  have hkeep : ∀ (s : LiveFeed σ) (a : FeedLabel) (s' : LiveFeed σ),
      s.bars.AllReady average config →
      True → s.step a = some s' → s'.bars.AllReady average config := by
    intro s a s' hinv _ hstep
    rw [step_bars hstep]
    exact hinv.run hσ _
  let AllReady : LiveFeed σ → Prop := fun s => s.bars.AllReady average config
  have hstart : AllReady s₀ := BarState.allReady_warmedUp hσ h₀ hlong
  have hend : AllReady s := hreaches.invariant hstart hkeep
  exact hend

/-- Two sessions with different pasts that have taken the same ticks and official lists since a
tick opened a bar in both, each at its own time, are shown the same of a time frame, whatever
tick comes, once they share the long window and a bar before it. -/
theorem sessions_agree (hσ : AveragesBy average σ) (pair : CurrencyPair) (s s' t t' : LiveFeed σ)
    (h : Session pair config s) (h' : Session pair config s') (labels labels' : List FeedLabel)
    (hrun : exec step (fun _ _ => True) s labels = some t)
    (hrun' : exec step (fun _ _ => True) s' labels' = some t')
    (tf : TimeFrame) (n : Nat) (hn : config.longSmaPeriod < n)
    (hshares : BarState.Shares s.bars s'.bars tf n (labels.filterMap FeedLabel.event)
      (labels'.filterMap FeedLabel.event))
    (tick : Tick) (now now' : Int) :
    ∃ shown shown', (t.bars.book.onTick tick now).1 = .ok shown ∧
      (t'.bars.book.onTick tick now').1 = .ok shown' ∧
      shown.snapshotOf tf = shown'.snapshotOf tf := by
  rw [exec_bars hrun, exec_bars hrun']
  exact hshares.shown hσ (h.ready hσ) (h'.ready hσ) hn tick now now'

end LiveFeed

end

/-! ## A restart -/

/-- The watchdog of one time frame, and the book right after its warm-up. -/
def startedFeed : LiveFeed RecordedSma :=
  ⟨.create [.fifteenMinute] 15000 864000000, quietStart⟩

/-- The session that was not restarted has a bar under way since 864005000. -/
def olderFeed : LiveFeed RecordedSma :=
  ⟨.create [.fifteenMinute] 15000 864005000,
    quietStart.after (.onTick (quietTick 864005000) 864005000)⟩

/-- The correction at the boundary between the two ticks. -/
def quietOfficial : List ConfirmedCandle :=
  [flatCandle .fifteenMinute 864000000 quietPrice, flatCandle .fifteenMinute 864900000 quietPrice]

/-- Two ticks a bar apart and the correction, each handled so many milliseconds late. -/
def quietLabels (late : Int) : List FeedLabel :=
  [.start 864905000, .onTick (quietTick 864910000) (864910000 + late),
    .onTick (quietTick 865801000) (865801000 + late), .fire .fifteenMinute 0 865815000,
    .settle .fifteenMinute 0 (.resolved quietOfficial) (865816000 + late)]

/-- From the correction on the two sessions, one of them half a second behind, are shown the same
quarter hours. -/
theorem sessions_agree_restarted : ∃ t t',
    exec LiveFeed.step (fun _ _ => True) startedFeed (quietLabels 0) = some t ∧
    exec LiveFeed.step (fun _ _ => True) olderFeed (quietLabels 500) = some t' ∧
    ∀ tick now now', ∃ shown shown', (t.bars.book.onTick tick now).1 = .ok shown ∧
      (t'.bars.book.onTick tick now').1 = .ok shown' ∧
      shown.snapshotOf .fifteenMinute = shown'.snapshotOf .fifteenMinute := by
  obtain ⟨t, ht⟩ := Option.isSome_iff_exists.mp (show (exec LiveFeed.step (fun _ _ => True)
    startedFeed (quietLabels 0)).isSome = true by decide +kernel)
  obtain ⟨t', ht'⟩ := Option.isSome_iff_exists.mp (show (exec LiveFeed.step (fun _ _ => True)
    olderFeed (quietLabels 500)).isSome = true by decide +kernel)
  have hsession : LiveFeed.Session .usdJpy quietConfig startedFeed :=
    ⟨quietHistory, startedFeed, quietStart_eq, quietHistory_lists.long, .start⟩
  have holder : LiveFeed.Session .usdJpy quietConfig olderFeed :=
    ⟨quietHistory, startedFeed, quietStart_eq, quietHistory_lists.long,
      Reaches.start.snoc (.onTick (quietTick 864005000) 864005000) trivial rfl⟩
  have haccepts : (startedFeed.bars.run [.onTick (quietTick 864910000) 864910000,
      .onTick (quietTick 865801000) 865801000]).book.Accepts .fifteenMinute quietOfficial
      (flatCandle .fifteenMinute 864900000 quietPrice) :=
    ⟨by decide +kernel, rfl, by decide +kernel, by decide +kernel⟩
  have htakes := TimeFrameBook.acceptOfficial_of_accepts haccepts
    (by simp [quietOfficial, flatCandle])
  have hopened : BarState.Shares startedFeed.bars olderFeed.bars .fifteenMinute 0
      ([] ++ [.onTick (quietTick 864910000) 864910000])
      ([] ++ [.onTick (quietTick 864910000) 864910500]) :=
    .opened (by decide +kernel) (by decide +kernel)
  have hticked : BarState.Shares startedFeed.bars olderFeed.bars .fifteenMinute 0
      ([] ++ [.onTick (quietTick 864910000) 864910000] ++
        [.onTick (quietTick 865801000) 865801000])
      ([] ++ [.onTick (quietTick 864910000) 864910500] ++
        [.onTick (quietTick 865801000) 865801500]) := hopened.event (.onTick ..)
  have hshares : BarState.Shares startedFeed.bars olderFeed.bars .fifteenMinute 3
      ((quietLabels 0).filterMap FeedLabel.event)
      ((quietLabels 500).filterMap FeedLabel.event) := hticked.official 3 htakes
  exact ⟨t, t', ht, ht', LiveFeed.sessions_agree RecordedSma.exactSma.averagesBy .usdJpy startedFeed
    olderFeed t t' hsession holder (quietLabels 0) (quietLabels 500) ht ht' .fifteenMinute 3
    (by decide) hshares⟩

end Luchida
