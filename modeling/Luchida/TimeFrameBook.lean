import Luchida.Domain
import Luchida.IndicatorLedger

/- TimeFrameBook.ts: one accumulator and one ledger for each live time frame, fed
   by ticks (`onTick`) and corrected by official candles (`reconcile`).

   A method that throws part-way leaves behind what it had already changed, so the
   methods return what they return or throw together with the book afterwards.
   `onTick_entries` says what one tick does to each time frame and `reconcile_cases`
   what one official list does; every invariant of the book is derived from these. -/
namespace Luchida

/-- `IndicatorConfig`. The factory throws unless both periods are positive and the
short one is below the long one. -/
structure IndicatorConfig where
  shortSmaPeriod : Nat
  longSmaPeriod : Nat
  short_pos : 0 < shortSmaPeriod
  short_lt_long : shortSmaPeriod < longSmaPeriod

theorem IndicatorConfig.long_pos (config : IndicatorConfig) : 0 < config.longSmaPeriod :=
  Nat.lt_trans config.short_pos config.short_lt_long

/-- The longer of the two windows is the long one. -/
theorem IndicatorConfig.max_periods (config : IndicatorConfig) :
    max config.shortSmaPeriod config.longSmaPeriod = config.longSmaPeriod :=
  Nat.max_eq_right (Nat.le_of_lt config.short_lt_long)

inductive BookOperation where
  | warmUp
  | reconcile
  deriving DecidableEq, Repr

/-- What the book throws. -/
inductive BookError where
  /-- `TimeFrameBook: … に空の配列が渡されました` -/
  | emptyCandles (operation : BookOperation) (timeFrame : TimeFrame)
  /-- `TimeFrameBook: … に別時間足の足が混入しています` -/
  | otherTimeFrame (operation : BookOperation) (timeFrame : TimeFrame)
  /-- `TimeFrameBook: … の確定足が openTime 昇順になっていません` -/
  | notAscending (operation : BookOperation) (timeFrame : TimeFrame)
  /-- `TimeFrameBook: … の足がまだ揃っていません` -/
  | notReady (timeFrame : TimeFrame)
  /-- `confirmed の timeFrame が一致しません` -/
  | confirmedTimeFrame
  /-- `forming の timeFrame が一致しません` -/
  | formingTimeFrame
  /-- `MarketSnapshot: 必須の TimeFrame が不足しています` -/
  | missingTimeFrame (timeFrame : TimeFrame)
  /-- The non-null assertion on a candle that is not there. -/
  | nullCandle
  | candle (error : CandleError)
  | ledger (error : LedgerError)

/-! ## Snapshots -/

/-- `TimeFrameSnapshot`. -/
structure TimeFrameSnapshot where
  timeFrame : TimeFrame
  confirmed : ConfirmedCandle
  forming : FormingCandle
  indicators : IndicatorValues
  confirmed_timeFrame : confirmed.timeFrame = timeFrame
  forming_timeFrame : forming.timeFrame = timeFrame

def TimeFrameSnapshot.of (timeFrame : TimeFrame) (confirmed : ConfirmedCandle)
    (forming : FormingCandle) (indicators : IndicatorValues) :
    Except BookError TimeFrameSnapshot :=
  if hc : confirmed.timeFrame = timeFrame then
    if hf : forming.timeFrame = timeFrame then
      .ok ⟨timeFrame, confirmed, forming, indicators, hc, hf⟩
    else .error .formingTimeFrame
  else .error .confirmedTimeFrame

/-- `MarketSnapshot`: it has a snapshot of every live time frame. -/
structure MarketSnapshot where
  snapshotOf : TimeFrame → TimeFrameSnapshot
  tick : Tick
  pair : CurrencyPair
  capturedAt : Int

/-- The first live time frame the map has nothing for is the one the factory
throws at. -/
def MarketSnapshot.of (timeFrames : TimeFrame → Option TimeFrameSnapshot) (tick : Tick)
    (pair : CurrencyPair) (capturedAt : Int) : Except BookError MarketSnapshot :=
  match h : TimeFrame.liveTimeframes.find? (fun tf => (timeFrames tf).isNone) with
  | some tf => .error (.missingTimeFrame tf)
  | none => .ok {
      snapshotOf := fun tf => (timeFrames tf).get (by
        have := List.find?_eq_none.mp h tf (TimeFrame.mem_liveTimeframes tf)
        simpa [Option.isSome_iff_ne_none] using this)
      tick := tick
      pair := pair
      capturedAt := capturedAt }

theorem MarketSnapshot.of_ok {timeFrames : TimeFrame → Option TimeFrameSnapshot} {tick : Tick}
    {pair : CurrencyPair} {capturedAt : Int} {s : MarketSnapshot}
    (h : MarketSnapshot.of timeFrames tick pair capturedAt = .ok s) :
    (∀ tf, timeFrames tf = some (s.snapshotOf tf)) ∧ s.tick = tick := by
  unfold MarketSnapshot.of at h
  split at h
  · cases h
  · cases h
    exact ⟨fun tf => by simp, rfl⟩

/-- With a snapshot of every time frame the factory does not throw. -/
theorem MarketSnapshot.exists_of {timeFrames : TimeFrame → Option TimeFrameSnapshot}
    (h : ∀ tf, (timeFrames tf).isSome = true) (tick : Tick) (pair : CurrencyPair)
    (capturedAt : Int) : ∃ s, MarketSnapshot.of timeFrames tick pair capturedAt = .ok s := by
  unfold MarketSnapshot.of
  split
  · rename_i tf hfind
    have hnone := List.find?_some hfind
    have hsome := h tf
    simp only [Option.isNone_iff_eq_none] at hnone
    rw [hnone] at hsome
    simp at hsome
  · exact ⟨_, rfl⟩

/-! ## The book -/

structure TimeFrameEntry (σ : Type) where
  accumulator : CandleAccumulator
  ledger : IndicatorLedger σ

/-- `TimeFrameBook`. Each entry works on the time frame it is kept under. -/
structure TimeFrameBook (σ : Type) where
  pair : CurrencyPair
  config : IndicatorConfig
  entries : TimeFrame → TimeFrameEntry σ
  sound : ∀ tf, (entries tf).accumulator.timeFrame = tf

/-- `BarReconciled`: an official list changed the confirmed SMA. -/
structure BarReconciled where
  timeFrame : TimeFrame
  reconciledAt : Int
  before : Option SmaSnapshot
  after : SmaSnapshot

/-- `assertAscendingByOpenTime`: every open time is above the one before it. -/
def ascendingByOpenTime : List ConfirmedCandle → Bool
  | prev :: curr :: rest => prev.openTime < curr.openTime && ascendingByOpenTime (curr :: rest)
  | _ => true

theorem ascendingByOpenTime_iff {candles : List ConfirmedCandle} :
    ascendingByOpenTime candles = true ↔
      candles.Pairwise (fun a b => a.openTime < b.openTime) := by
  rw [← List.isChain_iff_pairwise]
  induction candles with
  | nil => simp [ascendingByOpenTime]
  | cons a rest ih =>
    cases rest with
    | nil => simp [ascendingByOpenTime]
    | cons b rest => simp [ascendingByOpenTime, ih]

/-- The checks that `warmUp` and `reconcile` make of their list first. -/
def checkCandles (operation : BookOperation) (timeFrame : TimeFrame)
    (candles : List ConfirmedCandle) : Except BookError Unit :=
  if candles.length = 0 then .error (.emptyCandles operation timeFrame)
  else if candles.any (fun c => c.timeFrame ≠ timeFrame) then
    .error (.otherTimeFrame operation timeFrame)
  else if !ascendingByOpenTime candles then .error (.notAscending operation timeFrame)
  else .ok ()

theorem checkCandles_ok {operation : BookOperation} {tf : TimeFrame}
    {candles : List ConfirmedCandle} (h : checkCandles operation tf candles = .ok ()) :
    candles ≠ [] ∧ candles.Pairwise (fun a b => a.openTime < b.openTime) := by
  unfold checkCandles at h
  split at h
  · cases h
  · rename_i hne
    split at h
    · cases h
    · split at h
      · cases h
      · rename_i hasc
        exact ⟨by simpa using hne, ascendingByOpenTime_iff.mp (by simpa using hasc)⟩

theorem checkCandles_timeFrame {operation : BookOperation} {tf : TimeFrame}
    {candles : List ConfirmedCandle} (h : checkCandles operation tf candles = .ok ()) :
    ∀ c ∈ candles, c.timeFrame = tf := by
  unfold checkCandles at h
  split at h
  · cases h
  · split at h
    · cases h
    · rename_i hany
      simpa using hany

namespace TimeFrameBook

variable {σ : Type} [SmaCalculator σ]

def new (pair : CurrencyPair) (config : IndicatorConfig) : TimeFrameBook σ where
  pair := pair
  config := config
  entries tf := ⟨.new tf, .new config.shortSmaPeriod config.longSmaPeriod⟩
  sound _ := rfl

/-- The book with another entry under `tf`. -/
def set (book : TimeFrameBook σ) (tf : TimeFrame) (entry : TimeFrameEntry σ)
    (h : entry.accumulator.timeFrame = tf) : TimeFrameBook σ :=
  { book with
    entries := Function.update book.entries tf entry
    sound := by
      intro tf'
      by_cases heq : tf' = tf
      · subst heq
        simpa using h
      · simpa [Function.update_of_ne heq] using book.sound tf' }

/-- What a processed tick does to the ledger of its time frame. On a confirmation
the confirmed SMA is also read, for the log. -/
def advanceLedger (acc : CandleAccumulator) (ledger : IndicatorLedger σ) :
    CandleEvent → Except BookError Unit × IndicatorLedger σ
  | .confirmed =>
    match acc.lastConfirmed, acc.forming with
    | some confirmed, some forming =>
      let ledger := ledger.onCandleConfirmed confirmed
      match ledger.snapshotOrNull with
      | .error e => (.error (.ledger e), ledger)
      | .ok _ => (.ok (), ledger.onCandleUpdated forming)
    | _, _ => (.error .nullCandle, ledger)
  | .updated =>
    match acc.forming with
    | some forming => (.ok (), ledger.onCandleUpdated forming)
    | none => (.error .nullCandle, ledger)

/-- The snapshot of a time frame, once there are candles and stable values. -/
def snapshotEntry (tf : TimeFrame) (acc : CandleAccumulator) (ledger : IndicatorLedger σ) :
    Except BookError TimeFrameSnapshot :=
  match acc.lastConfirmed, acc.forming with
  | some confirmed, some forming =>
    match ledger.currentValues with
    | .error e => .error (.ledger e)
    | .ok indicators => TimeFrameSnapshot.of tf confirmed forming indicators
  | _, _ => .error (.notReady tf)

/-- `processEntry`. -/
def processEntry (tf : TimeFrame) (entry : TimeFrameEntry σ) (tick : Tick) :
    Except BookError TimeFrameSnapshot × TimeFrameEntry σ :=
  match entry.accumulator.accumulate tick with
  | .error e => (.error (.candle e), entry)
  | .ok (event, acc) =>
    match advanceLedger acc entry.ledger event with
    | (.error e, ledger) => (.error e, ⟨acc, ledger⟩)
    | (.ok (), ledger) => (snapshotEntry tf acc ledger, ⟨acc, ledger⟩)

/-! ### What a tick does to one time frame -/

/-- The ledger after a processed tick: a confirmed candle is fed to the confirmed
SMA, and an update touches the forming one only. -/
theorem advanceLedger_fed {acc : CandleAccumulator} {ledger : IndicatorLedger σ}
    (event : CandleEvent) {f : FormingCandle} (hf : acc.forming = some f)
    {bars : List ConfirmedCandle} (hfed : ledger.FedWith bars) :
    (advanceLedger acc ledger event).2.FedWith
      (match event with
        | .confirmed => bars ++ acc.lastConfirmed.toList
        | .updated => bars) := by
  cases event with
  | confirmed =>
    cases hc : acc.lastConfirmed with
    | none => simpa [advanceLedger, hc] using hfed
    | some c =>
      simp only [advanceLedger, hc, hf]
      split
      · exact hfed.onCandleConfirmed c
      · exact (hfed.onCandleConfirmed c).onCandleUpdated f
  | updated =>
    simp only [advanceLedger, hf]
    exact hfed.onCandleUpdated f

theorem processEntry_eq {tf : TimeFrame} {entry : TimeFrameEntry σ} {tick : Tick}
    {event : CandleEvent} {acc : CandleAccumulator}
    (h : entry.accumulator.accumulate tick = .ok (event, acc)) :
    (processEntry tf entry tick).2 = ⟨acc, (advanceLedger acc entry.ledger event).2⟩ := by
  simp only [processEntry, h]
  split <;> rename_i heq <;> rw [heq]

/-- Whatever the ledger throws, the accumulator has taken the tick. -/
theorem processEntry_accumulated (tf : TimeFrame) (entry : TimeFrameEntry σ) (tick : Tick) :
    ∃ event, CandleAccumulator.Accumulated entry.accumulator tick event
      (processEntry tf entry tick).2.accumulator := by
  obtain ⟨event, acc, hacc, hcases⟩ := entry.accumulator.accumulate_cases tick
  rw [processEntry_eq hacc]
  exact ⟨event, hcases⟩

/-- A tick reaches the ledger through its two methods only: what both keep, it keeps. -/
theorem processEntry_ledger {P : IndicatorLedger σ → Prop}
    (hconfirmed : ∀ ledger c, P ledger → P (ledger.onCandleConfirmed c))
    (hupdated : ∀ ledger f, P ledger → P (ledger.onCandleUpdated f))
    (tf : TimeFrame) {entry : TimeFrameEntry σ} (tick : Tick) (h : P entry.ledger) :
    P (processEntry tf entry tick).2.ledger := by
  obtain ⟨event, acc, hacc, -⟩ := entry.accumulator.accumulate_cases tick
  rw [processEntry_eq hacc]
  show P (advanceLedger acc entry.ledger event).2
  cases event with
  | confirmed =>
    simp only [advanceLedger]
    split
    · rename_i c f _ _
      split
      · exact hconfirmed _ c h
      · exact hupdated _ f (hconfirmed _ c h)
    · exact h
  | updated =>
    simp only [advanceLedger]
    split
    · rename_i f _
      exact hupdated _ f h
    · exact h

theorem processEntry_timeFrame (tf : TimeFrame) (entry : TimeFrameEntry σ) (tick : Tick) :
    (processEntry tf entry tick).2.accumulator.timeFrame = entry.accumulator.timeFrame := by
  obtain ⟨_, h⟩ := processEntry_accumulated tf entry tick
  exact h.timeFrame_eq

/-- A snapshot shows the confirmed candle that the entry is left with. -/
theorem processEntry_confirmed {tf : TimeFrame} {entry : TimeFrameEntry σ} {tick : Tick}
    {s : TimeFrameSnapshot} (h : (processEntry tf entry tick).1 = .ok s) :
    (processEntry tf entry tick).2.accumulator.lastConfirmed = some s.confirmed := by
  obtain ⟨event, acc, hacc, -⟩ := entry.accumulator.accumulate_cases tick
  rw [processEntry_eq hacc]
  simp only [processEntry, hacc] at h
  split at h
  · cases h
  · unfold snapshotEntry at h
    split at h
    · rename_i hlast _
      split at h
      · cases h
      · unfold TimeFrameSnapshot.of at h
        split at h
        · split at h
          · cases h
            exact hlast
          · cases h
        · cases h
    · cases h

/-! ### Ticks -/

/-- The book with the entry of `tf` processed. -/
def processed (book : TimeFrameBook σ) (tf : TimeFrame) (tick : Tick) : TimeFrameBook σ :=
  book.set tf (processEntry tf (book.entries tf) tick).2
    ((processEntry_timeFrame ..).trans (book.sound tf))

@[simp] theorem processed_self (book : TimeFrameBook σ) (tf : TimeFrame) (tick : Tick) :
    (book.processed tf tick).entries tf = (processEntry tf (book.entries tf) tick).2 := by
  simp [processed, set]

theorem processed_of_ne (book : TimeFrameBook σ) {tf tf' : TimeFrame} (h : tf' ≠ tf)
    (tick : Tick) : (book.processed tf tick).entries tf' = book.entries tf' := by
  simp [processed, set, h]

/-- The loop of `onTick` over the time frames that are left. -/
def onTickFrom (tick : Tick) : List TimeFrame → (TimeFrame → Option TimeFrameSnapshot) →
    TimeFrameBook σ → Except BookError (TimeFrame → Option TimeFrameSnapshot) × TimeFrameBook σ
  | [], timeFrames, book => (.ok timeFrames, book)
  | tf :: rest, timeFrames, book =>
    match (processEntry tf (book.entries tf) tick).1 with
    -- the time frames after it do not see the tick
    | .error e => (.error e, book.processed tf tick)
    | .ok snapshot =>
      onTickFrom tick rest (Function.update timeFrames tf (some snapshot)) (book.processed tf tick)

/-- `onTick`, at wall-clock time `now`. -/
def onTick (book : TimeFrameBook σ) (tick : Tick) (now : Int) :
    Except BookError MarketSnapshot × TimeFrameBook σ :=
  match onTickFrom tick TimeFrame.liveTimeframes (fun _ => none) book with
  | (.error e, book') => (.error e, book')
  | (.ok timeFrames, book') => (MarketSnapshot.of timeFrames tick book.pair now, book')

/-- A time frame that the loop does not reach keeps its entry, and one that it
reaches is processed once. -/
theorem onTickFrom_entries (tick : Tick) {tfs : List TimeFrame} (hnodup : tfs.Nodup)
    (timeFrames : TimeFrame → Option TimeFrameSnapshot) (book : TimeFrameBook σ) (tf : TimeFrame) :
    (onTickFrom tick tfs timeFrames book).2.entries tf = book.entries tf ∨
      tf ∈ tfs ∧ (onTickFrom tick tfs timeFrames book).2.entries tf =
        (processEntry tf (book.entries tf) tick).2 := by
  induction tfs generalizing timeFrames book with
  | nil => exact .inl rfl
  | cons tf' rest ih =>
    obtain ⟨hnot, hrest⟩ := List.nodup_cons.mp hnodup
    simp only [onTickFrom]
    by_cases heq : tf = tf'
    · subst heq
      refine .inr ⟨by simp, ?_⟩
      split
      · exact book.processed_self tf tick
      · rcases ih hrest _ (book.processed tf tick) with h | ⟨hmem, -⟩
        · rw [h, processed_self]
        · exact absurd hmem hnot
    · have hkeep := book.processed_of_ne heq tick
      split
      · exact .inl hkeep
      · rcases ih hrest _ (book.processed tf' tick) with h | ⟨hmem, h⟩
        · exact .inl (h.trans hkeep)
        · exact .inr ⟨List.mem_cons_of_mem _ hmem, by rw [h, hkeep]⟩

/-- When the loop ends without a throw, every time frame it went through was
processed and has the snapshot of its entry. -/
theorem onTickFrom_ok {tick : Tick} {tfs : List TimeFrame} (hnodup : tfs.Nodup)
    {timeFrames timeFrames' : TimeFrame → Option TimeFrameSnapshot} {book : TimeFrameBook σ}
    (h : (onTickFrom tick tfs timeFrames book).1 = .ok timeFrames') (tf : TimeFrame) :
    (tf ∉ tfs → timeFrames' tf = timeFrames tf) ∧
      (tf ∈ tfs → ∃ s, timeFrames' tf = some s ∧
        ((onTickFrom tick tfs timeFrames book).2.entries tf).accumulator.lastConfirmed =
          some s.confirmed) := by
  induction tfs generalizing timeFrames book with
  | nil =>
    cases h
    simp
  | cons tf' rest ih =>
    obtain ⟨hnot, hrest⟩ := List.nodup_cons.mp hnodup
    simp only [onTickFrom] at h ⊢
    split at h
    · cases h
    · rename_i s hs
      obtain ⟨hout, hin⟩ := ih hrest h
      constructor
      · intro hmem
        have hne : tf ≠ tf' := fun heq => hmem (by simp [heq])
        rw [hout fun hm => hmem (by simp [hm])]
        simp [hne]
      · intro hmem
        rcases List.mem_cons.mp hmem with rfl | hmem
        · refine ⟨s, by simp [hout hnot], ?_⟩
          -- the rest of the loop does not come back to `tf`
          rcases onTickFrom_entries tick hrest (Function.update timeFrames tf (some s))
            (book.processed tf tick) tf with heq | ⟨hm, -⟩
          · rw [heq, processed_self]
            exact processEntry_confirmed hs
          · exact absurd hm hnot
        · exact hin hmem

theorem processEntry_of_onTickFrom_ok {tick : Tick} {tfs : List TimeFrame} (hnodup : tfs.Nodup)
    {timeFrames timeFrames' : TimeFrame → Option TimeFrameSnapshot} {book : TimeFrameBook σ}
    (h : (onTickFrom tick tfs timeFrames book).1 = .ok timeFrames') :
    ∀ tf ∈ tfs, ∃ s, (processEntry tf (book.entries tf) tick).1 = .ok s := by
  induction tfs generalizing timeFrames book with
  | nil => simp
  | cons tf' rest ih =>
    obtain ⟨hnot, hrest⟩ := List.nodup_cons.mp hnodup
    simp only [onTickFrom] at h
    split at h
    · cases h
    · rename_i s hs
      intro tf hmem
      rcases List.mem_cons.mp hmem with rfl | hmem
      · exact ⟨s, hs⟩
      · have hne : tf ≠ tf' := fun heq => hnot (heq ▸ hmem)
        have hok := ih hrest h tf hmem
        rwa [book.processed_of_ne hne] at hok

/-- Where no time frame throws the loop goes through them all. -/
theorem exists_onTickFrom {tick : Tick} {tfs : List TimeFrame} (hnodup : tfs.Nodup)
    (timeFrames : TimeFrame → Option TimeFrameSnapshot) {book : TimeFrameBook σ}
    (h : ∀ tf ∈ tfs, ∃ s, (processEntry tf (book.entries tf) tick).1 = .ok s) :
    ∃ timeFrames', (onTickFrom tick tfs timeFrames book).1 = .ok timeFrames' ∧
      ∀ tf, (tf ∉ tfs → timeFrames' tf = timeFrames tf ∧
          (onTickFrom tick tfs timeFrames book).2.entries tf = book.entries tf) ∧
        (tf ∈ tfs → (processEntry tf (book.entries tf) tick).1.toOption = timeFrames' tf ∧
          (onTickFrom tick tfs timeFrames book).2.entries tf =
            (processEntry tf (book.entries tf) tick).2) := by
  induction tfs generalizing timeFrames book with
  | nil => exact ⟨timeFrames, rfl, fun tf => ⟨fun _ => ⟨rfl, rfl⟩, by simp⟩⟩
  | cons tf' rest ih =>
    obtain ⟨hnot, hrest⟩ := List.nodup_cons.mp hnodup
    obtain ⟨s, hs⟩ := h tf' (by simp)
    have hkeep : ∀ tf ∈ rest, (book.processed tf' tick).entries tf = book.entries tf := by
      intro tf hmem
      have hne : tf ≠ tf' := fun heq => hnot (heq ▸ hmem)
      exact book.processed_of_ne hne tick
    have hok : ∀ tf ∈ rest, ∃ s,
        (processEntry tf ((book.processed tf' tick).entries tf) tick).1 = .ok s := by
      intro tf hmem
      rw [hkeep tf hmem]
      exact h tf (List.mem_cons_of_mem _ hmem)
    obtain ⟨timeFrames', hok, hall⟩ := ih hrest (Function.update timeFrames tf' (some s)) hok
    simp only [onTickFrom, hs]
    refine ⟨timeFrames', hok, fun tf => ⟨fun hmem => ?_, fun hmem => ?_⟩⟩
    · have hne : tf ≠ tf' := fun heq => hmem (by simp [heq])
      obtain ⟨hshot, hentry⟩ := (hall tf).1 fun hm => hmem (by simp [hm])
      rw [hshot, hentry, Function.update_of_ne hne, book.processed_of_ne hne]
      exact ⟨rfl, rfl⟩
    · rcases List.mem_cons.mp hmem with rfl | hmem
      · obtain ⟨hshot, hentry⟩ := (hall tf).1 hnot
        rw [hshot, hentry, Function.update_self, processed_self, hs]
        exact ⟨rfl, rfl⟩
      · have := (hall tf).2 hmem
        rwa [hkeep tf hmem] at this

theorem onTick_book (book : TimeFrameBook σ) (tick : Tick) (now : Int) :
    (book.onTick tick now).2 =
      (onTickFrom tick TimeFrame.liveTimeframes (fun _ => none) book).2 := by
  unfold onTick
  split <;> rename_i heq <;> rw [heq]

/-- What a tick does to a time frame: nothing, when an earlier one threw, or what
`processEntry` does. -/
theorem onTick_entries (book : TimeFrameBook σ) (tick : Tick) (now : Int) (tf : TimeFrame) :
    (book.onTick tick now).2.entries tf = book.entries tf ∨
      (book.onTick tick now).2.entries tf = (processEntry tf (book.entries tf) tick).2 := by
  rw [onTick_book]
  exact (onTickFrom_entries tick TimeFrame.liveTimeframes_nodup _ book tf).imp_right And.right

/-- A market snapshot shows the confirmed candles the book is left with. -/
theorem onTick_confirmed {book : TimeFrameBook σ} {tick : Tick} {now : Int} {s : MarketSnapshot}
    (h : (book.onTick tick now).1 = .ok s) (tf : TimeFrame) :
    ((book.onTick tick now).2.entries tf).accumulator.lastConfirmed =
      some (s.snapshotOf tf).confirmed := by
  rw [onTick_book]
  unfold onTick at h
  split at h
  · cases h
  · rename_i timeFrames book' heq
    obtain ⟨-, hin⟩ := onTickFrom_ok TimeFrame.liveTimeframes_nodup
      (congrArg Prod.fst heq) tf
    obtain ⟨shot, hshot, hlast⟩ := hin (TimeFrame.mem_liveTimeframes tf)
    have hof := (MarketSnapshot.of_ok h).1 tf
    obtain rfl : shot = s.snapshotOf tf := by simpa [hshot] using hof
    exact hlast

/-- One time frame that throws makes `onTick` throw. -/
theorem processEntry_of_onTick_ok {book : TimeFrameBook σ} {tick : Tick} {now : Int}
    {s : MarketSnapshot} (h : (book.onTick tick now).1 = .ok s) (tf : TimeFrame) :
    ∃ shot, (processEntry tf (book.entries tf) tick).1 = .ok shot := by
  unfold onTick at h
  split at h
  · cases h
  · rename_i timeFrames book' heq
    exact processEntry_of_onTickFrom_ok TimeFrame.liveTimeframes_nodup (congrArg Prod.fst heq) tf
      (TimeFrame.mem_liveTimeframes tf)

/-- Where no time frame throws, neither does `onTick`, and its snapshot is made of theirs. -/
theorem exists_onTick {book : TimeFrameBook σ} {tick : Tick} (now : Int)
    (h : ∀ tf, ∃ s, (processEntry tf (book.entries tf) tick).1 = .ok s) :
    ∃ s, (book.onTick tick now).1 = .ok s ∧
      ∀ tf, (processEntry tf (book.entries tf) tick).1 = .ok (s.snapshotOf tf) ∧
        (book.onTick tick now).2.entries tf = (processEntry tf (book.entries tf) tick).2 := by
  obtain ⟨timeFrames, hok, hall⟩ := exists_onTickFrom TimeFrame.liveTimeframes_nodup
    (fun _ => none) fun tf _ => h tf
  have hshot : ∀ tf s, (processEntry tf (book.entries tf) tick).1 = .ok s →
      timeFrames tf = some s := by
    intro tf s hs
    rw [← ((hall tf).2 (TimeFrame.mem_liveTimeframes tf)).1, hs]
    rfl
  have hsome : ∀ tf, (timeFrames tf).isSome = true := by
    intro tf
    obtain ⟨shot, hs⟩ := h tf
    simp [hshot tf shot hs]
  obtain ⟨s, hs⟩ := MarketSnapshot.exists_of hsome tick book.pair now
  refine ⟨s, ?_, fun tf => ⟨?_, ?_⟩⟩
  · unfold onTick
    rw [← hs]
    split <;> rename_i heq <;> simp [heq] at hok
    rw [hok]
  · obtain ⟨shot, hshot'⟩ := h tf
    have hof := (MarketSnapshot.of_ok hs).1 tf
    rw [hshot tf shot hshot'] at hof
    rw [hshot', Option.some.inj hof]
  · rw [onTick_book]
    exact ((hall tf).2 (TimeFrame.mem_liveTimeframes tf)).2

/-! ### Official candles -/

/-- `warmUp`: feed a first list to the ledger and seed the accumulator with its
last candle. -/
def warmUp (book : TimeFrameBook σ) (timeFrame : TimeFrame)
    (confirmedCandles : List ConfirmedCandle) : Except BookError (TimeFrameBook σ) :=
  match checkCandles .warmUp timeFrame confirmedCandles with
  | .error e => .error e
  | .ok () =>
    let entry := book.entries timeFrame
    match h : entry.accumulator.seedHistory confirmedCandles with
    | .error e => .error (.candle e)
    | .ok acc => .ok (book.set timeFrame ⟨acc, entry.ledger.warmUp confirmedCandles⟩
        ((CandleAccumulator.seedHistory_ok h).1.trans (book.sound timeFrame)))

/-- The first half of `reconcile`: the checks of the list, and the accumulator that
has taken its last candle. A list too short to rebuild the SMA gives `none`, and
neither the candle nor the SMA is touched. -/
def acceptOfficial (book : TimeFrameBook σ) (timeFrame : TimeFrame)
    (official : List ConfirmedCandle) : Except BookError (Option CandleAccumulator) :=
  match checkCandles .reconcile timeFrame official, official.getLast? with
  | .error e, _ => .error e
  | .ok (), none => .error (.emptyCandles .reconcile timeFrame)
  | .ok (), some last =>
    let entry := book.entries timeFrame
    -- too few bars to rebuild: the book is left alone, without an error
    if official.length < entry.ledger.requiredBarsForStable then .ok none
    else match entry.accumulator.reconcileLastConfirmed last with
      | .error e => .error (.candle e)
      | .ok acc => .ok (some acc)

/-- The list passes every check of `reconcile`, so the entry of `tf` is corrected. -/
structure Accepts (book : TimeFrameBook σ) (tf : TimeFrame) (official : List ConfirmedCandle)
    (last : ConfirmedCandle) : Prop where
  ascending : official.Pairwise (fun a b => a.openTime < b.openTime)
  last_eq : official.getLast? = some last
  enough : (book.entries tf).ledger.requiredBarsForStable ≤ official.length
  before_forming : ∀ f ∈ (book.entries tf).accumulator.forming, last.openTime < f.openTime

omit [SmaCalculator σ] in
theorem checkCandles_of_acceptOfficial {book : TimeFrameBook σ} {tf : TimeFrame}
    {official : List ConfirmedCandle} {acc : CandleAccumulator}
    (h : book.acceptOfficial tf official = .ok (some acc)) :
    checkCandles .reconcile tf official = .ok () := by
  unfold acceptOfficial at h
  split at h
  · cases h
  · cases h
  · rename_i hcheck _
    exact hcheck

omit [SmaCalculator σ] in
theorem acceptOfficial_ok {book : TimeFrameBook σ} {tf : TimeFrame}
    {official : List ConfirmedCandle} {acc : CandleAccumulator}
    (h : book.acceptOfficial tf official = .ok (some acc)) :
    acc.timeFrame = tf ∧ acc.forming = (book.entries tf).accumulator.forming ∧
      ∃ last, acc.lastConfirmed = some last ∧ book.Accepts tf official last := by
  unfold acceptOfficial at h
  split at h
  · cases h
  · cases h
  · rename_i last hcheck hlast
    dsimp only at h
    split at h
    · cases h
    · rename_i henough
      split at h
      · cases h
      · rename_i acc' hacc
        cases h
        obtain ⟨-, htf, hforming, hconfirmed, hbefore⟩ :=
          CandleAccumulator.reconcileLastConfirmed_ok hacc
        exact ⟨htf.trans (book.sound tf), hforming, last, hconfirmed,
          (checkCandles_ok hcheck).2, hlast, not_lt.mp henough, hbefore⟩

/-- `reconcile`, at wall-clock time `now`: `none` is returned both when nothing was
corrected and when the list is too short. -/
def reconcile (book : TimeFrameBook σ) (timeFrame : TimeFrame) (official : List ConfirmedCandle)
    (now : Int) : Except BookError (Option BarReconciled) × TimeFrameBook σ :=
  match h : book.acceptOfficial timeFrame official with
  | .error e => (.error e, book)
  | .ok none => (.ok none, book)
  | .ok (some acc) =>
    -- the candle is corrected first, so it stays right even if the SMA throws
    let result := (book.entries timeFrame).ledger.reconcileWith official
    let book' := book.set timeFrame ⟨acc, result.2⟩ (acceptOfficial_ok h).1
    match result.1 with
    | .error e => (.error (.ledger e), book')
    | .ok ⟨before, some after, true⟩ => (.ok (some ⟨timeFrame, now, before, after⟩), book')
    | .ok _ => (.ok none, book')

theorem reconcile_rejected {book : TimeFrameBook σ} {tf : TimeFrame}
    {official : List ConfirmedCandle} (now : Int)
    (h : ∀ acc, book.acceptOfficial tf official ≠ .ok (some acc)) :
    (book.reconcile tf official now).2 = book := by
  unfold reconcile
  split
  · rfl
  · rfl
  · rename_i acc hacc
    exact absurd hacc (h acc)

theorem reconcile_accepted {book : TimeFrameBook σ} {tf : TimeFrame}
    {official : List ConfirmedCandle} (now : Int) {acc : CandleAccumulator}
    (h : book.acceptOfficial tf official = .ok (some acc)) :
    (book.reconcile tf official now).2.entries = Function.update book.entries tf
      ⟨acc, ((book.entries tf).ledger.reconcileWith official).2⟩ := by
  unfold reconcile
  split
  · rename_i h'
    simp [h] at h'
  · rename_i h'
    simp [h] at h'
  · rename_i acc' h'
    obtain rfl : acc = acc' := by simpa [h] using h'
    dsimp only
    split <;> rfl

/-- What an official list does to a time frame: nothing, or it is accepted there. -/
theorem reconcile_entries (book : TimeFrameBook σ) (tf : TimeFrame)
    (official : List ConfirmedCandle) (now : Int) (tf' : TimeFrame) :
    (book.reconcile tf official now).2.entries tf' = book.entries tf' ∨
      tf' = tf ∧ ∃ acc, book.acceptOfficial tf official = .ok (some acc) ∧
        (book.reconcile tf official now).2.entries tf' =
          ⟨acc, ((book.entries tf).ledger.reconcileWith official).2⟩ := by
  by_cases hacc : ∃ acc, book.acceptOfficial tf official = .ok (some acc)
  · obtain ⟨acc, hacc⟩ := hacc
    rw [reconcile_accepted now hacc]
    by_cases heq : tf' = tf
    · subst heq
      exact .inr ⟨rfl, acc, hacc, Function.update_self ..⟩
    · exact .inl (Function.update_of_ne heq ..)
  · simp only [not_exists] at hacc
    rw [reconcile_rejected now hacc]
    exact .inl rfl

theorem warmUp_ok {book book' : TimeFrameBook σ} {tf : TimeFrame} {candles : List ConfirmedCandle}
    (h : book.warmUp tf candles = .ok book') :
    candles.Pairwise (fun a b => a.openTime < b.openTime) ∧
      book'.entries = Function.update book.entries tf
        ⟨{ (book.entries tf).accumulator with lastConfirmed := candles.getLast? },
          (book.entries tf).ledger.warmUp candles⟩ := by
  unfold warmUp at h
  split at h
  · cases h
  · rename_i hcheck
    dsimp only at h
    split at h
    · cases h
    · rename_i acc hacc
      cases h
      obtain ⟨-, hacc⟩ := CandleAccumulator.seedHistory_ok hacc
      exact ⟨(checkCandles_ok hcheck).2, by simp [set, hacc]⟩

end TimeFrameBook

end Luchida
