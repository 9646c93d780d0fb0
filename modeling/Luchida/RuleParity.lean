import Luchida.BacktestRunner
import Luchida.MarketKernel

/- main.ts wires the rules of the live system by hand, and RuleFactory.ts makes those of a
   backtest out of a parameter set. With the values of main.ts in the set, do both come to
   the same decisions?

   The live book stamps a snapshot with the wall clock, the adapter of a backtest with the time
   of the tick, and the forming candles of the two differ (`Agree`). The entry rules read of
   the clock no more than its hour and its day, so at a tick that is handled in the hour of its
   timestamp they come to the same signal, or both throw for want of a lot. The exit rules give
   the same command for the same position and leave the same rules behind, as long as both
   clocks have it held for the same side of the limit of 48 hours (`RulesAgree`). -/
namespace Luchida

open Throws

/-! ## Alike snapshots -/

/-- The rules of a time frame are shown the same market, at clocks of the same hour. -/
structure SameMarket (tf : TimeFrame) (live shot : MarketSnapshot) : Prop where
  pair : shot.pair = live.pair
  tick : shot.tick = live.tick
  confirmed : (shot.snapshotOf tf).indicators.confirmed =
    (live.snapshotOf tf).indicators.confirmed
  hour : shot.capturedAt / 3600000 = live.capturedAt / 3600000

section
variable {a b : Int} (h : a / 3600000 = b / 3600000)

include h

theorem utcHours_of_hour : utcHours a = utcHours b := by
  unfold utcHours
  rw [h]

theorem days_of_hour : a / 86400000 = b / 86400000 := by omega

theorem utcDay_of_hour : utcDay a = utcDay b := by
  unfold utcDay
  rw [days_of_hour h]

theorem utcDate_of_hour : utcDate a = utcDate b := by
  unfold utcDate
  rw [days_of_hour h]

theorem midMonthWindow_of_hour (isBojMeetingDate : Int → Bool) :
    midMonthJstLunchNonBojWindow isBojMeetingDate a =
      midMonthJstLunchNonBojWindow isBojMeetingDate b := by
  have hjst : (a + 9 * 60 * 60 * 1000) / 3600000 = (b + 9 * 60 * 60 * 1000) / 3600000 := by omega
  unfold midMonthJstLunchNonBojWindow
  dsimp only
  rw [utcDate_of_hour hjst, utcHours_of_hour h, days_of_hour hjst]

end

/-! ## Entry rules -/

/-- What `handleSignals` takes over of a command. It sets the lot and the margin itself. -/
structure EntrySignal where
  pair : CurrencyPair
  buySell : BuySell
  reason : EntryReason
  convictionScore : ConvictionScore
  strategyName : StrategyName
  entrySnapshot : EntrySnapshot
  deriving DecidableEq

def EntryCommand.signal (command : EntryCommand) : EntrySignal where
  pair := command.pair
  buySell := command.buySell
  reason := command.reason
  convictionScore := command.convictionScore
  strategyName := command.strategyName
  entrySnapshot := command.entrySnapshot

/-- Two answers of entry rules are the same but for the lot. -/
inductive RuleResult.Alike : RuleResult → RuleResult → Prop
  | threw : Alike .threw .threw
  | doNothing : Alike .doNothing .doNothing
  | entry {c c' : EntryCommand} (h : c.signal = c'.signal) : Alike (.entry c) (.entry c')

section
variable {tf : TimeFrame} {live shot : MarketSnapshot} {inner inner' : EntryRule}
  {getSizing getSizing' : Option SizingResult}

/-- A filter that looks at the snapshot alone. -/
theorem blockBefore_alike {blocks : MarketSnapshot → Bool} (hblocks : blocks shot = blocks live)
    (h : RuleResult.Alike (inner getSizing live) (inner' getSizing' shot)) :
    RuleResult.Alike (blockBefore blocks inner getSizing live)
      (blockBefore blocks inner' getSizing' shot) := by
  unfold blockBefore
  rw [hblocks]
  by_cases hblocked : blocks live = true
  · rw [if_pos hblocked, if_pos hblocked]
    exact .doNothing
  · rw [if_neg hblocked, if_neg hblocked]
    exact h

/-- A filter that looks at the side of the command as well. -/
theorem blockAfter_alike {blocks : MarketSnapshot → EntryCommand → Bool}
    (hblocks : ∀ c c' : EntryCommand, c.buySell = c'.buySell → blocks shot c' = blocks live c)
    (h : RuleResult.Alike (inner getSizing live) (inner' getSizing' shot)) :
    RuleResult.Alike (blockAfter blocks inner getSizing live)
      (blockAfter blocks inner' getSizing' shot) := by
  unfold blockAfter
  generalize inner getSizing live = r at h
  generalize inner' getSizing' shot = r' at h
  cases h with
  | threw => exact .threw
  | doNothing => exact .doNothing
  | @entry c c' hsignal =>
    dsimp only
    rw [hblocks c c' (congrArg EntrySignal.buySell hsignal)]
    by_cases hblocked : blocks live c = true
    · rw [if_pos hblocked, if_pos hblocked]
      exact .doNothing
    · rw [if_neg hblocked, if_neg hblocked]
      exact .entry hsignal

namespace SameMarket

variable (h : SameMarket tf live shot)

include h

theorem buildSnapshot_eq (conviction : ℚ) :
    SmaCrossEntryRule.buildSnapshot shot conviction =
      SmaCrossEntryRule.buildSnapshot live conviction := by
  unfold SmaCrossEntryRule.buildSnapshot
  rw [h.pair, h.tick, utcHours_of_hour h.hour, utcDay_of_hour h.hour]

/-- The commands of a cross differ in nothing but their size. -/
theorem signal_eq (buySell : BuySell) (cross : String) (sizing : SizingResult)
    (sizing' : BacktestSizingResult) :
    (SmaCrossEntryRule.command tf live buySell cross sizing).signal =
      (SmaCrossEntryRule.backtestCommand tf shot buySell cross sizing').signal := by
  unfold SmaCrossEntryRule.command SmaCrossEntryRule.backtestCommand EntryCommand.signal
  rw [h.buildSnapshot_eq, h.pair]

theorem shouldEntry_alike (sizing : Option SizingResult) (sizing' : Option BacktestSizingResult)
    (hsome : sizing.isSome = sizing'.isSome) (outer : Option SizingResult) :
    RuleResult.Alike (SmaCrossEntryRule.shouldEntry tf sizing live)
      (SmaCrossEntryRule.shouldEntryWith tf sizing' outer shot) := by
  unfold SmaCrossEntryRule.shouldEntry SmaCrossEntryRule.shouldEntryWith
  rw [h.confirmed]
  cases detectCross (live.snapshotOf tf).indicators.confirmed with
  | none => exact .doNothing
  | goldenCross =>
    cases sizing with
    | none => cases sizing' with
      | none => exact .threw
      | some _ => cases hsome
    | some sizing => cases sizing' with
      | none => cases hsome
      | some sizing' => exact .entry (h.signal_eq ..)
  | deadCross =>
    cases sizing with
    | none => cases sizing' with
      | none => exact .threw
      | some _ => cases hsome
    | some sizing => cases sizing' with
      | none => cases hsome
      | some sizing' => exact .entry (h.signal_eq ..)

end SameMarket

end

/-! ## Exit rules -/

/-- The exit rules that main.ts registers for the strategy, with the trail where it stands. -/
def liveExitRulesWith (trailing : TrailingTakeProfitExitRule ℚ) : List ExitRule :=
  [.fixedStopLoss 40, .trailingTakeProfit trailing, .timed (192 * tradeTimeFrame.durationMs),
    .smaCross tradeTimeFrame]

/-- As they are registered. -/
def liveExitRules : List ExitRule := liveExitRulesWith (.new 150 70)

/-- Both clocks have the position held for the same side of the limit of a timed rule. -/
def HeldAlike (live shot : MarketSnapshot) (position : Position) (maxHoldMs : ℚ) : Prop :=
  maxHoldMs ≤ ((shot.capturedAt - position.openedAt : Int) : ℚ) ↔
    maxHoldMs ≤ ((live.capturedAt - position.openedAt : Int) : ℚ)

/-- A rule of the time frame, or of none, whose clocks agree if it reads them. -/
def ExitRule.ReadsAlike (tf : TimeFrame) (live shot : MarketSnapshot) (position : Position) :
    ExitRule → Prop
  | .timed maxHoldMs => HeldAlike live shot position maxHoldMs
  | .smaCross timeFrame => timeFrame = tf
  | _ => True

/-- The rules of main.ts read the clock in their timed rule alone. -/
theorem liveExitRulesWith_readsAlike {live shot : MarketSnapshot} {position : Position}
    (hheld : HeldAlike live shot position (192 * tradeTimeFrame.durationMs))
    (trailing : TrailingTakeProfitExitRule ℚ) :
    ∀ rule ∈ liveExitRulesWith trailing, rule.ReadsAlike tradeTimeFrame live shot position := by
  intro rule hrule
  simp only [liveExitRulesWith, List.mem_cons, List.not_mem_nil, or_false] at hrule
  rcases hrule with rfl | rfl | rfl | rfl
  · trivial
  · trivial
  · exact hheld
  · rfl

/-- What a rule may be once it was asked: a trail moves, and no other rule has a state. -/
inductive ExitRule.Moves : ExitRule → ExitRule → Prop
  | same (rule : ExitRule) : Moves rule rule
  | trail (trailing trailing' : TrailingTakeProfitExitRule ℚ) :
      Moves (.trailingTakeProfit trailing) (.trailingTakeProfit trailing')

theorem ExitRule.shouldExit_moves (n : RuleNumbers) (rule : ExitRule) (snapshot : MarketSnapshot)
    (position : Position) : rule.Moves (rule.shouldExit n snapshot position).2 := by
  cases rule with
  | trailingTakeProfit trailing => exact .trail trailing _
  | _ => exact .same _

theorem ask_moves (n : RuleNumbers) (snapshot : MarketSnapshot) (position : Position)
    (rules : List ExitRule) : List.Forall₂ ExitRule.Moves rules
      (CompositeExitRule.ask n snapshot position rules).2 := by
  induction rules with
  | nil => exact .nil
  | cons rule rest ih =>
    have hmoves := rule.shouldExit_moves n snapshot position
    unfold CompositeExitRule.ask
    split
    · rename_i command rule' hasked
      rw [hasked] at hmoves
      exact .cons hmoves (List.forall₂_same.mpr fun rule _ => .same rule)
    · rename_i rule' hasked
      rw [hasked] at hmoves
      exact .cons hmoves ih

/-- Asking the rules of main.ts moves nothing but the trail. -/
theorem ask_liveExitRulesWith (n : RuleNumbers) (snapshot : MarketSnapshot) (position : Position)
    (trailing : TrailingTakeProfitExitRule ℚ) : ∃ trailing',
      (CompositeExitRule.ask n snapshot position (liveExitRulesWith trailing)).2 =
        liveExitRulesWith trailing' := by
  have hmoves := ask_moves n snapshot position (liveExitRulesWith trailing)
  generalize (CompositeExitRule.ask n snapshot position (liveExitRulesWith trailing)).2 = rules
    at hmoves
  unfold liveExitRulesWith at hmoves
  cases hmoves with
  | cons hstop hmoves => cases hmoves with
    | cons htrail hmoves => cases hmoves with
      | cons htimed hmoves => cases hmoves with
        | cons hcross hmoves =>
          cases hmoves
          cases hstop
          cases htimed
          cases hcross
          cases htrail with
          | same => exact ⟨trailing, rfl⟩
          | trail _ trailing' => exact ⟨trailing', rfl⟩

section
variable {tf : TimeFrame} {live shot : MarketSnapshot} (h : SameMarket tf live shot)
  (n : RuleNumbers) {position : Position}

namespace SameMarket

include h

theorem closingPrice_eq (position : Position) :
    closingPrice shot position = closingPrice live position := by
  unfold closingPrice
  rw [h.tick]

theorem thresholdExit_eq (move pips : ℚ) (type : ExitType) (reason : ExitReason)
    (position : Position) :
    thresholdExit move pips type reason shot position =
      thresholdExit move pips type reason live position := by
  unfold thresholdExit
  rw [h.pair]

theorem trailing_eq (rule : TrailingTakeProfitExitRule ℚ) (position : Position) :
    rule.shouldExit n.toNumbers shot position = rule.shouldExit n.toNumbers live position := by
  have hpips : TrailingTakeProfitExitRule.currentPips n.toNumbers shot position =
      TrailingTakeProfitExitRule.currentPips n.toNumbers live position := by
    unfold TrailingTakeProfitExitRule.currentPips
    rw [h.tick, h.pair]
  simp only [TrailingTakeProfitExitRule.shouldExit, hpips]

/-- One exit rule: the same command, and the same rule afterwards. -/
theorem shouldExit_eq (rule : ExitRule) (hreads : rule.ReadsAlike tf live shot position) :
    rule.shouldExit n shot position = rule.shouldExit n live position := by
  cases rule with
  | fixedStopLoss pips =>
    have hmove : adverseMove shot position = adverseMove live position := by
      unfold adverseMove
      rw [h.closingPrice_eq]
    show (FixedStopLossExitRule.shouldExit n pips shot position, _) = _
    unfold FixedStopLossExitRule.shouldExit
    rw [hmove, h.thresholdExit_eq]
    rfl
  | trailingTakeProfit rule =>
    unfold ExitRule.shouldExit
    dsimp only
    rw [h.trailing_eq]
  | fixedTakeProfit pips =>
    have hmove : favorableMove shot position = favorableMove live position := by
      unfold favorableMove
      rw [h.closingPrice_eq]
    show (FixedTakeProfitExitRule.shouldExit n pips shot position, _) = _
    unfold FixedTakeProfitExitRule.shouldExit
    rw [hmove, h.thresholdExit_eq]
    rfl
  | timed maxHoldMs =>
    show (TimedExitRule.shouldExit n maxHoldMs shot position, _) =
      (TimedExitRule.shouldExit n maxHoldMs live position, _)
    have hheld : HeldAlike live shot position maxHoldMs := hreads
    unfold TimedExitRule.shouldExit
    simp only [if_congr hheld rfl rfl]
  | smaCross timeFrame =>
    obtain rfl : timeFrame = tf := hreads
    have hcommand : SmaCrossExitRule.buildExitCommand shot position =
        SmaCrossExitRule.buildExitCommand live position := by
      unfold SmaCrossExitRule.buildExitCommand
      rw [h.tick]
    show (SmaCrossExitRule.shouldExit timeFrame shot position, _) =
      (SmaCrossExitRule.shouldExit timeFrame live position, _)
    unfold SmaCrossExitRule.shouldExit
    rw [h.confirmed, hcommand]

/-- The rules of a composite, asked one after the other. -/
theorem ask_eq (rules : List ExitRule)
    (hreads : ∀ rule ∈ rules, rule.ReadsAlike tf live shot position) :
    CompositeExitRule.ask n shot position rules = CompositeExitRule.ask n live position rules := by
  induction rules with
  | nil => rfl
  | cons rule rest ih =>
    unfold CompositeExitRule.ask
    rw [h.shouldExit_eq n rule (hreads rule (List.mem_cons_self ..)),
      ih fun r hr => hreads r (List.mem_cons_of_mem _ hr)]

end SameMarket

end

/-! ## The rules of both -/

/-- A parameter set with the values of main.ts. -/
structure SmaCrossParameters.Live (config : IndicatorConfig) (ps : SmaCrossParameters) :
    Prop where
  timeframe : ps.timeframe = tradeTimeFrame
  shortPeriod : ps.shortPeriod = config.shortSmaPeriod
  longPeriod : ps.longPeriod = config.longSmaPeriod
  stopLoss : ps.stopLossPips = 40
  trailActivate : ps.trailActivatePips = some 150
  trailWidth : ps.trailWidthPips = some 70
  excludeHours : ps.excludeHoursUtc = [0, 7, 18]
  maxHold : ps.maxHoldBars = 192
  minCrossStrength : ps.minCrossStrengthPips = some (1 / 10)
  excludeWindow : ps.excludeMidMonthJstLunchNonBoj = true
  maxDivergence : ps.maxDirectionalDivergencePct = some (1 / 10)
  priceBand : ps.priceBandFilter = some ⟨some 85, none⟩

namespace SmaCrossParameters.Live

variable {config : IndicatorConfig} {ps : SmaCrossParameters} (hps : ps.Live config)

include hps

/-- No filter of the set is left out, and there are no others. -/
theorem filters_eq (isBojMeetingDate : Int → Bool) (rule : EntryRule) :
    ps.filters isBojMeetingDate rule =
      (timeFiltered [0, 7, 18] <|
        timeWindowBlock [midMonthJstLunchNonBojWindow isBojMeetingDate] <|
        Luchida.priceBandFilter (some 85) none <|
        smaDivergenceFilter tradeTimeFrame (1 / 10) <|
        crossStrengthFilter tradeTimeFrame (1 / 10) rule) := by
  unfold SmaCrossParameters.filters hourBlock windowBlock priceBands filterAbove
  rw [hps.excludeHours, hps.excludeWindow, hps.priceBand, hps.maxDivergence, hps.minCrossStrength,
    hps.timeframe]
  simp

/-- The exit rules of the set are those of main.ts, in the same order. -/
theorem exitRules_eq : ps.exitRules = liveExitRules := by
  unfold SmaCrossParameters.exitRules liveExitRules
  rw [hps.stopLoss, hps.trailActivate, hps.trailWidth, hps.maxHold, hps.timeframe]
  rfl

/-- The entry rule of the set comes to the signal of the live one. -/
theorem entryRule_alike {live shot : MarketSnapshot} (h : SameMarket tradeTimeFrame live shot)
    (isBojMeetingDate : Int → Bool) (sizing : Option SizingResult) (lot : Option Lot)
    (hsome : sizing.isSome = lot.isSome) :
    RuleResult.Alike (liveEntryRule isBojMeetingDate sizing live)
      (ps.entryRule isBojMeetingDate lot shot) := by
  unfold SmaCrossParameters.entryRule liveEntryRule
  dsimp only
  rw [hps.filters_eq, hps.timeframe]
  unfold timeFiltered timeWindowBlock Luchida.priceBandFilter smaDivergenceFilter
    crossStrengthFilter
  -- from the outermost filter to the cross, each on what it reads
  apply blockBefore_alike
  · rw [utcHours_of_hour h.hour]
  apply blockBefore_alike
  · rw [List.any_cons, List.any_cons, midMonthWindow_of_hour h.hour]
    rfl
  apply blockAfter_alike
  · intro c c' hside
    dsimp only
    rw [h.tick, hside]
  apply blockAfter_alike
  · intro c c' hside
    dsimp only
    rw [h.tick, h.confirmed, hside]
  apply blockBefore_alike
  · dsimp only
    rw [h.confirmed, h.pair]
  exact h.shouldEntry_alike sizing _ (by rw [Option.isSome_map, hsome]) none

end SmaCrossParameters.Live

/-! ## Over the ticks -/

/-- The two sides decide alike at a tick, whatever the sizes and the state of the trail, as long
as their clocks agree on the limit of the timed rule; and what they keep is a trail again. -/
structure RulesAgree (isBojMeetingDate : Int → Bool) (ps : SmaCrossParameters)
    (live shot : MarketSnapshot) : Prop where
  entry : ∀ (sizing : Option SizingResult) (lot : Option Lot), sizing.isSome = lot.isSome →
    RuleResult.Alike (liveEntryRule isBojMeetingDate sizing live)
      (ps.entryRule isBojMeetingDate lot shot)
  exit : ∀ (n : RuleNumbers) (trailing : TrailingTakeProfitExitRule ℚ) (position : Position),
    HeldAlike live shot position (192 * tradeTimeFrame.durationMs) →
    CompositeExitRule.ask n shot position (liveExitRulesWith trailing) =
      CompositeExitRule.ask n live position (liveExitRulesWith trailing)
  trail : ∀ (n : RuleNumbers) (trailing : TrailingTakeProfitExitRule ℚ) (position : Position),
    ∃ trailing', (CompositeExitRule.ask n live position (liveExitRulesWith trailing)).2 =
      liveExitRulesWith trailing'

theorem MarketSnapshot.of_labels {timeFrames : TimeFrame → Option TimeFrameSnapshot} {tick : Tick}
    {pair : CurrencyPair} {capturedAt : Int} {s : MarketSnapshot}
    (h : MarketSnapshot.of timeFrames tick pair capturedAt = .ok s) :
    s.pair = pair ∧ s.tick = tick ∧ s.capturedAt = capturedAt := by
  unfold MarketSnapshot.of at h
  split at h
  · cases h
  · cases h
    exact ⟨rfl, rfl, rfl⟩

section
variable {σ : Type} [SmaCalculator σ] {average : List ℚ → ℚ}

/-- The book stamps a snapshot with the wall clock. -/
theorem TimeFrameBook.onTick_labels {book : TimeFrameBook σ} {tick : Tick} {now : Int}
    {shown : MarketSnapshot} (h : (book.onTick tick now).1 = .ok shown) :
    shown.pair = book.pair ∧ shown.tick = tick ∧ shown.capturedAt = now := by
  unfold TimeFrameBook.onTick at h
  split at h
  · cases h
  · exact MarketSnapshot.of_labels h

/-- The adapter stamps it with the time of the tick, and keeps its pair. -/
theorem BacktestSnapshotAdapter.addCandleAndBuild_labels {a a' : BacktestSnapshotAdapter σ}
    {candle : ConfirmedCandle} {tick : Tick} {nextOpen : Price} {shot : MarketSnapshot}
    (h : a.addCandleAndBuild candle tick nextOpen = .ok (shot, a')) :
    a'.pair = a.pair ∧ shot.pair = a.pair ∧ shot.tick = tick ∧
      shot.capturedAt = tick.timestamp := by
  unfold addCandleAndBuild at h
  split at h
  · cases h
  · obtain ⟨forming, -, h⟩ := bind_eq_ok.mp h
    obtain ⟨a₁, hstates, h⟩ := bind_eq_ok.mp h
    obtain ⟨shots, -, h⟩ := bind_eq_ok.mp h
    obtain ⟨s, hs, h⟩ := bind_eq_ok.mp h
    cases h
    obtain ⟨hpair, -⟩ := mapStatesM_ok hstates
    obtain ⟨hshot, htick, hcaptured⟩ := MarketSnapshot.of_labels (mapError_eq_ok.mp hs)
    exact ⟨hpair, hshot.trans hpair, htick, hcaptured⟩

theorem BacktestSnapshotAdapter.new_pair {pair : CurrencyPair} {signalTimeFrame : TimeFrame}
    {specs : List TimeFrameIndicatorSpec} {a : BacktestSnapshotAdapter σ}
    (h : new pair signalTimeFrame specs = .ok a) : a.pair = pair := by
  unfold new at h
  split at h
  · split at h
    · cases h
    · cases h
      rfl
  · cases h

variable {config : IndicatorConfig} {history : TimeFrame → List ConfirmedCandle}

/-! No operation changes the pair. -/

theorem TimeFrameBook.onTickFrom_pair (tick : Tick) (tfs : List TimeFrame)
    (timeFrames : TimeFrame → Option TimeFrameSnapshot) (book : TimeFrameBook σ) :
    (onTickFrom tick tfs timeFrames book).2.pair = book.pair := by
  induction tfs generalizing timeFrames book with
  | nil => rfl
  | cons tf rest ih =>
    unfold onTickFrom
    split
    · rfl
    · exact ih _ (book.processed tf tick)

theorem TimeFrameBook.onTick_pair (book : TimeFrameBook σ) (tick : Tick) (now : Int) :
    (book.onTick tick now).2.pair = book.pair := by
  have hpair := onTickFrom_pair tick TimeFrame.liveTimeframes (fun _ => none) book
  unfold onTick
  split <;> rename_i heq <;> rw [heq] at hpair <;> exact hpair

theorem TimeFrameBook.onTicks_pair (book : TimeFrameBook σ) (ticks : List (Tick × Int)) :
    (book.onTicks ticks).pair = book.pair := by
  induction ticks generalizing book with
  | nil => rfl
  | cons t ticks ih => exact (ih (book.onTick t.1 t.2).2).trans (book.onTick_pair t.1 t.2)

theorem BarState.warmUpFrom_pair {tfs : List TimeFrame} {book book' : TimeFrameBook σ}
    (h : warmUpFrom history tfs book = .ok book') : book'.pair = book.pair := by
  induction tfs generalizing book with
  | nil =>
    cases h
    rfl
  | cons tf rest ih =>
    unfold warmUpFrom at h
    split at h
    · cases h
    · rename_i warmed hwarmed
      refine (ih h).trans ?_
      unfold TimeFrameBook.warmUp at hwarmed
      split at hwarmed
      · cases hwarmed
      · dsimp only at hwarmed
        split at hwarmed
        · cases hwarmed
        · cases hwarmed
          rfl

/-- A tick leaves the pair of the adapter, and a snapshot that it makes bears its labels. -/
theorem Kernel.feed_labels {k k' : Kernel (BacktestSnapshotAdapter σ)} {tick : Tick}
    {shot : Option MarketSnapshot} (h : k.feed tick = .ok (shot, k')) :
    k'.adapter.pair = k.adapter.pair ∧ ∀ s ∈ shot, s.pair = k.adapter.pair ∧ s.tick = tick ∧
      s.capturedAt = tick.timestamp := by
  unfold feed at h
  obtain ⟨⟨event, acc⟩, -, h⟩ := bind_eq_ok.mp h
  dsimp only at h
  split at h
  · obtain ⟨⟨snapshot, adapter⟩, hbuild, h⟩ := bind_eq_ok.mp h
    cases h
    obtain ⟨hpair, hlabels⟩ :=
      BacktestSnapshotAdapter.addCandleAndBuild_labels (mapError_eq_ok.mp hbuild)
    refine ⟨hpair, fun s hs => ?_⟩
    obtain rfl := Option.some.inj hs
    exact hlabels
  · cases h
    exact ⟨rfl, by simp⟩

theorem Kernel.feedAll_pair {k k' : Kernel (BacktestSnapshotAdapter σ)} {ticks : List Tick}
    (h : k.feedAll ticks = .ok k') : k'.adapter.pair = k.adapter.pair := by
  induction ticks generalizing k with
  | nil =>
    cases h
    rfl
  | cons tick ticks ih =>
    unfold feedAll at h
    rw [List.foldlM_cons] at h
    obtain ⟨k₁, hfed, h⟩ := bind_eq_ok.mp h
    obtain ⟨⟨shot, k₂⟩, hfeed, hk₁⟩ := bind_eq_ok.mp hfed
    cases hk₁
    exact (ih h).trans (feed_labels hfeed).1

end

/-- The values of main.ts on the periods of the quiet book. -/
def quietLiveSet : SmaCrossParameters where
  pair := .usdJpy
  timeframe := tradeTimeFrame
  dateFrom := 864000000
  dateTo := 865800000
  shortPeriod := 1
  longPeriod := 2
  stopLossPips := 40
  takeProfitPips := none
  trailActivatePips := some 150
  trailWidthPips := some 70
  excludeHoursUtc := [0, 7, 18]
  maxHoldBars := 192
  riskPct := 2 / 100
  targetMaintenanceRatio := none
  marginRate := none
  minCrossStrengthPips := some (1 / 10)
  excludeMidMonthJstLunchNonBoj := true
  maxDirectionalDivergencePct := some (1 / 10)
  priceBandFilter := some ⟨some 85, none⟩
  short_pos := Nat.one_pos
  long_pos := Nat.two_pos

theorem quietLiveSet_live : quietLiveSet.Live quietConfig :=
  ⟨rfl, rfl, rfl, rfl, rfl, rfl, rfl, rfl, rfl, rfl, rfl, rfl⟩

end Luchida
