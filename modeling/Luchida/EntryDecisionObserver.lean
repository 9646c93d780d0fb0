import Luchida.SmaCrossRule

/- SocketEntryDecisionObserver.ts: the decision on an entry as the screen shows it. The
   observer does not ask the rules that trade. It detects the cross itself and makes the
   five checks of the filters again, in the order of main.ts from the outside in.

   What the screen shows as entered is what the chain enters, on the same side
   (`observe_agrees`): the two make the same comparisons, each with its boundary on the
   same side. How numbers and dates are written is a parameter. -/
namespace Luchida

/-- `TimeWindow`. -/
structure TimeWindow where
  label : String
  matchesAt : Int → Bool

/-- `ObserverConfig`. -/
structure ObserverConfig where
  timeFrame : TimeFrame
  minCrossStrengthPips : ℚ
  maxDirectionalDivergencePct : ℚ
  minSellPrice : Option ℚ
  excludeHoursUtc : List Int
  blockedWindows : List TimeWindow

/-- The chain of main.ts over the thresholds that the observer is given too. -/
def ObserverConfig.entryChain (config : ObserverConfig) : EntryRule :=
  timeFiltered config.excludeHoursUtc <|
  timeWindowBlock (config.blockedWindows.map (·.matchesAt)) <|
  priceBandFilter config.minSellPrice none <|
  smaDivergenceFilter config.timeFrame config.maxDirectionalDivergencePct <|
  crossStrengthFilter config.timeFrame config.minCrossStrengthPips <|
  SmaCrossEntryRule.shouldEntry config.timeFrame

/-- What main.ts gives to both. -/
def liveObserverConfig (isBojMeetingDate : Int → Bool) : ObserverConfig where
  timeFrame := tradeTimeFrame
  minCrossStrengthPips := 1 / 10
  maxDirectionalDivergencePct := 1 / 10
  minSellPrice := some 85
  excludeHoursUtc := [0, 7, 18]
  blockedWindows := [⟨"月中16-21日 JST昼（非BOJ日）", midMonthJstLunchNonBojWindow isBojMeetingDate⟩]

theorem entryChain_live (isBojMeetingDate : Int → Bool) :
    (liveObserverConfig isBojMeetingDate).entryChain = liveEntryRule isBojMeetingDate := rfl

namespace SocketEntryDecisionObserver

/-- `toFixed`, the text of a number, and `toISOString`. -/
structure Texts where
  toFixed : ℚ → Nat → String
  number : ℚ → String
  toISOString : Int → String

structure FilterStep where
  name : String
  passed : Bool
  detail : String

/-- The payload of `entry:decision`. -/
structure EntryDecision where
  time : String
  cross : CrossType
  buySell : BuySell
  sma20 : String
  sma100 : String
  diff : String
  bid : String
  entered : Bool
  rejectedBy : Option String
  steps : List FilterStep

section Steps

variable (config : ObserverConfig) (texts : Texts) (snapshot : MarketSnapshot)

/-- The confirmed SMAs that the cross is read from. -/
def sma : SmaSnapshot := (snapshot.snapshotOf config.timeFrame).indicators.confirmed

/-- An hour of the day that is not excluded. -/
def timeStep : FilterStep :=
  let hour := utcHours snapshot.capturedAt
  let timeOk := decide (hour ∉ config.excludeHoursUtc)
  ⟨"時間帯フィルタ", timeOk,
    "UTC " ++ toString hour ++ "時" ++ (if timeOk then "" else "（除外時間帯）")⟩

/-- No window that blocks. -/
def windowStep : FilterStep :=
  match config.blockedWindows.find? (fun w => w.matchesAt snapshot.capturedAt) with
  | some w => ⟨"時間窓ブロック", false, "ブロック窓: " ++ w.label⟩
  | none => ⟨"時間窓ブロック", true, "該当窓なし"⟩

/-- No sell below the price band. -/
def priceBandStep (buySell : BuySell) : FilterStep :=
  let mid := (snapshot.tick.bid.value + snapshot.tick.ask.value) / 2
  match buySell, config.minSellPrice with
  | .sell, some minSellPrice =>
    ⟨"価格帯フィルタ", decide (minSellPrice ≤ mid),
      "mid=" ++ texts.toFixed mid 3 ++ " 閾値=" ++ texts.number minSellPrice⟩
  | _, _ => ⟨"価格帯フィルタ", true, "対象外（BUY）"⟩

/-- The bid has not run too far past the short SMA. -/
def divergenceStep (buySell : BuySell) : FilterStep :=
  let short := (sma config snapshot).shortSma.value
  let fwdDiff := match buySell with
    | .buy => snapshot.tick.bid.value - short
    | .sell => short - snapshot.tick.bid.value
  let divergencePct := fwdDiff / short * 100
  ⟨"SMA順方向乖離フィルタ", decide (divergencePct ≤ config.maxDirectionalDivergencePct),
    "乖離=" ++ texts.toFixed divergencePct 4 ++ "% 閾値="
      ++ texts.number config.maxDirectionalDivergencePct ++ "%"⟩

/-- The two SMAs moved apart by enough in one bar. -/
def strengthStep : FilterStep :=
  let s := sma config snapshot
  let strength := |s.shortSma.value - s.longSma.value -
    (s.previousShortSma.value - s.previousLongSma.value)| / snapshot.pair.pipUnit
  ⟨"クロス強度フィルタ", decide (config.minCrossStrengthPips ≤ strength),
    "強度=" ++ texts.toFixed strength 4 ++ "pips 閾値="
      ++ texts.number config.minCrossStrengthPips ++ "pips"⟩

/-- `steps`, in the order of the filters from the outside in. -/
def filterSteps (buySell : BuySell) : List FilterStep :=
  [timeStep config snapshot, windowStep config snapshot,
    priceBandStep config texts snapshot buySell, divergenceStep config texts snapshot buySell,
    strengthStep config texts snapshot]

/-- `observe`: the event it emits, if any. -/
def observe : Option EntryDecision :=
  let s := sma config snapshot
  let cross := detectCross s
  if cross = .none then none
  else
    let buySell : BuySell := if cross = .goldenCross then .buy else .sell
    let steps := filterSteps config texts snapshot buySell
    let rejectedAt := steps.find? (fun step => !step.passed)
    some {
      time := texts.toISOString snapshot.capturedAt
      cross := cross
      buySell := buySell
      sma20 := texts.toFixed s.shortSma.value 4
      sma100 := texts.toFixed s.longSma.value 4
      diff := texts.toFixed (s.shortSma.value - s.longSma.value) 4
      bid := texts.toFixed snapshot.tick.bid.value 3
      entered := rejectedAt.isNone
      rejectedBy := rejectedAt.map (·.name)
      steps := steps }

end Steps

/-! ## The filters of the chain -/

theorem blockBefore_eq_entry {blocks : MarketSnapshot → Bool} {inner : EntryRule}
    {getSizing : Option SizingResult} {snapshot : MarketSnapshot} {c : EntryCommand} :
    blockBefore blocks inner getSizing snapshot = .entry c ↔
      blocks snapshot = false ∧ inner getSizing snapshot = .entry c := by
  unfold blockBefore
  cases blocks snapshot <;> simp

theorem blockAfter_eq_entry {blocks : MarketSnapshot → EntryCommand → Bool} {inner : EntryRule}
    {getSizing : Option SizingResult} {snapshot : MarketSnapshot} {c : EntryCommand} :
    blockAfter blocks inner getSizing snapshot = .entry c ↔
      blocks snapshot c = false ∧ inner getSizing snapshot = .entry c := by
  unfold blockAfter
  cases inner getSizing snapshot with
  | threw => simp
  | doNothing => simp
  | entry d =>
    simp only [RuleResult.entry.injEq]
    constructor
    · intro h
      split at h
      · cases h
      · rename_i hpass
        cases h
        exact ⟨by simpa using hpass, rfl⟩
    · intro h
      obtain ⟨hpass, rfl⟩ := h
      rw [if_neg (by simp [hpass])]

section Filters

variable {config : ObserverConfig} (texts : Texts) {inner : EntryRule}
  {getSizing : Option SizingResult} {snapshot : MarketSnapshot} {c : EntryCommand}

theorem timeFiltered_eq_entry :
    timeFiltered config.excludeHoursUtc inner getSizing snapshot = .entry c ↔
      (timeStep config snapshot).passed = true ∧ inner getSizing snapshot = .entry c := by
  unfold timeFiltered
  rw [blockBefore_eq_entry]
  simp [timeStep]

theorem timeWindowBlock_eq_entry :
    timeWindowBlock (config.blockedWindows.map (·.matchesAt)) inner getSizing snapshot = .entry c ↔
      (windowStep config snapshot).passed = true ∧ inner getSizing snapshot = .entry c := by
  unfold timeWindowBlock
  rw [blockBefore_eq_entry, List.any_map]
  have hstep : config.blockedWindows.any (fun w => w.matchesAt snapshot.capturedAt) = false ↔
      (windowStep config snapshot).passed = true := by
    unfold windowStep
    split
    · rename_i w hfind
      have hmem := List.mem_of_find?_eq_some hfind
      have hmatch := List.find?_some hfind
      have hany : config.blockedWindows.any (fun w => w.matchesAt snapshot.capturedAt) = true :=
        List.any_eq_true.mpr ⟨w, hmem, hmatch⟩
      simp [hany]
    · rename_i hfind
      rw [List.find?_eq_none] at hfind
      simpa using hfind
  exact and_congr_left' hstep

theorem priceBandFilter_eq_entry :
    priceBandFilter config.minSellPrice none inner getSizing snapshot = .entry c ↔
      (priceBandStep config texts snapshot c.buySell).passed = true ∧
        inner getSizing snapshot = .entry c := by
  unfold priceBandFilter
  rw [blockAfter_eq_entry]
  unfold priceBandStep
  cases c.buySell with
  | buy => simp
  | sell => cases config.minSellPrice <;> simp

theorem smaDivergenceFilter_eq_entry :
    smaDivergenceFilter config.timeFrame config.maxDirectionalDivergencePct inner getSizing snapshot
        = .entry c ↔
      (divergenceStep config texts snapshot c.buySell).passed = true ∧
        inner getSizing snapshot = .entry c := by
  unfold smaDivergenceFilter
  rw [blockAfter_eq_entry]
  refine and_congr_left' ?_
  rw [decide_eq_false_iff_not, not_lt]
  unfold divergenceStep
  exact decide_eq_true_iff.symm

theorem crossStrengthFilter_eq_entry :
    crossStrengthFilter config.timeFrame config.minCrossStrengthPips inner getSizing snapshot
        = .entry c ↔
      (strengthStep config texts snapshot).passed = true ∧ inner getSizing snapshot = .entry c := by
  unfold crossStrengthFilter
  rw [blockBefore_eq_entry]
  refine and_congr_left' ?_
  rw [decide_eq_false_iff_not, not_lt]
  unfold strengthStep
  exact decide_eq_true_iff.symm

/-- Each filter of the chain lets through what the step of the same name passes. -/
theorem entryChain_eq_entry :
    config.entryChain getSizing snapshot = .entry c ↔
      (∀ step ∈ filterSteps config texts snapshot c.buySell, step.passed = true) ∧
        SmaCrossEntryRule.shouldEntry config.timeFrame getSizing snapshot = .entry c := by
  unfold ObserverConfig.entryChain
  rw [timeFiltered_eq_entry, timeWindowBlock_eq_entry, priceBandFilter_eq_entry texts,
    smaDivergenceFilter_eq_entry texts, crossStrengthFilter_eq_entry texts]
  simp [filterSteps, and_assoc]

end Filters

/-! ## The event -/

section Event

variable {config : ObserverConfig} {texts : Texts} {snapshot : MarketSnapshot}

/-- With a lot at hand the rule of the cross answers on the side of the cross. -/
theorem shouldEntry_some (timeFrame : TimeFrame) (sizing : SizingResult) (side : BuySell) :
    (∃ c, SmaCrossEntryRule.shouldEntry timeFrame (some sizing) snapshot = .entry c ∧
        c.buySell = side) ↔
      detectCross (snapshot.snapshotOf timeFrame).indicators.confirmed =
        (match side with
          | .buy => .goldenCross
          | .sell => .deadCross) := by
  unfold SmaCrossEntryRule.shouldEntry
  cases detectCross (snapshot.snapshotOf timeFrame).indicators.confirmed <;>
    cases side <;> simp [SmaCrossEntryRule.command]

theorem observe_isSome :
    (observe config texts snapshot).isSome ↔ detectCross (sma config snapshot) ≠ .none := by
  unfold observe
  simp only
  split
  · rename_i hnone
    simp [hnone]
  · rename_i hcross
    simp [hcross]

/-- The event shows an entry where the cross is on that side and every step passes. -/
theorem observe_entered (side : BuySell) :
    (∃ event, observe config texts snapshot = some event ∧ event.entered = true ∧
        event.buySell = side) ↔
      detectCross (sma config snapshot) =
          (match side with
            | .buy => .goldenCross
            | .sell => .deadCross) ∧
        ∀ step ∈ filterSteps config texts snapshot side, step.passed = true := by
  unfold observe
  cases hcross : detectCross (sma config snapshot) with
  | none => cases side <;> simp [hcross]
  | goldenCross =>
    cases side <;> simp [hcross, List.find?_eq_none]
  | deadCross =>
    cases side <;> simp [hcross, List.find?_eq_none]

/-- An event is emitted exactly for a cross, and it shows an entry on a side exactly where
the chain of rules enters on that side. -/
theorem observe_agrees (config : ObserverConfig) (texts : Texts) (snapshot : MarketSnapshot)
    (sizing : SizingResult) :
    ((observe config texts snapshot).isSome ↔
      detectCross (snapshot.snapshotOf config.timeFrame).indicators.confirmed ≠ .none) ∧
    ∀ side, (∃ event, observe config texts snapshot = some event ∧ event.entered = true ∧
        event.buySell = side) ↔
      ∃ command, config.entryChain (some sizing) snapshot = .entry command ∧
        command.buySell = side := by
  refine ⟨observe_isSome, ?_⟩
  intro side
  rw [observe_entered]
  constructor
  · intro h
    obtain ⟨hcross, hsteps⟩ := h
    obtain ⟨c, hc, hside⟩ := (shouldEntry_some config.timeFrame sizing side).mpr hcross
    refine ⟨c, (entryChain_eq_entry texts).mpr ⟨?_, hc⟩, hside⟩
    rw [hside]
    exact hsteps
  · intro h
    obtain ⟨c, hc, hside⟩ := h
    obtain ⟨hsteps, hrule⟩ := (entryChain_eq_entry texts).mp hc
    rw [hside] at hsteps
    exact ⟨(shouldEntry_some config.timeFrame sizing side).mp ⟨c, hrule, hside⟩, hsteps⟩

/-- A decision that is not an entry names the outermost filter that blocks. -/
theorem observe_rejectedBy {event : EntryDecision}
    (h : observe config texts snapshot = some event) :
    event.entered = event.rejectedBy.isNone ∧
      event.rejectedBy = (event.steps.find? (fun step => !step.passed)).map (·.name) := by
  unfold observe at h
  simp only at h
  split at h
  · cases h
  · cases h
    simp

end Event

end SocketEntryDecisionObserver

end Luchida
