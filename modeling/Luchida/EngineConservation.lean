import Luchida.TradeConservation

/- Both engines keep their books through every round and settle them at the end. The OHLC
   engine opens and closes at the open of the next bar, and closes what is left at the last
   close. The tick engine also has orders that wait: an entry waits only while nothing is
   held, and an exit only for the position held (`Orders`), so an exit that is settled at
   the end of the stream is not closed a second time by the forced close after it. -/
namespace Luchida

open OrderedMap Throws EngineState

variable {α ω : Type} [SnapshotAdapter α]

/-! ## Bars -/

namespace OhlcEngine

variable {params : EngineRunParams ω} {now : Int} {held : Option Position}
  {s : EngineState α ω} {currentCandle nextCandle : ConfirmedCandle}

omit [SnapshotAdapter α] in
theorem evaluateExits_kept (hk : Kept params now held s) (snapshot : MarketSnapshot)
    (hle : now ≤ nextCandle.openTime) :
    Ends (fun s' => ∃ held', Kept params nextCandle.openTime held' s') (fun _ => True)
      (s.positions.foldlM (evaluateExit params snapshot currentCandle nextCandle) s) := by
  cases held with
  | none =>
    rw [hk.holds.foldlM_none]
    exact ⟨none, hk.mono hle⟩
  | some p =>
    rw [hk.holds.foldlM_some]
    unfold evaluateExit
    refine Ends.bind _ ((thrown_ends _).imp_error fun _ _ => trivial) ?_
    rintro ⟨exitResult, world⟩ - -
    cases exitResult with
    | none => exact ⟨some p, (hk.mono hle).congr rfl rfl rfl rfl rfl rfl⟩
    | some command =>
      refine Ends.bind _ ((closePosition_ends params command p.id (hk.holds.opened p rfl) _ _ _
        { s with world := world }).imp_error fun _ _ => trivial) ?_
      rintro s' - ⟨record, hcloses⟩
      have hk' : Kept params now (some p) { s with world := world } :=
        hk.congr rfl rfl rfl rfl rfl rfl
      exact ⟨none, hk'.forget hcloses hle⟩

omit [SnapshotAdapter α] in
theorem evaluateEntry_kept (hk : Kept params now held s) (snapshot : MarketSnapshot)
    (hle : now ≤ nextCandle.openTime) :
    Ends (fun s' => ∃ held', Kept params nextCandle.openTime held' s') (fun _ => True)
      (evaluateEntry params snapshot nextCandle s) := by
  unfold evaluateEntry
  split
  · rename_i hnone
    obtain rfl := hk.holds.length_eq_zero.mp hnone
    refine Ends.bind _ ((thrown_ends _).imp_error fun _ _ => trivial) ?_
    rintro ⟨entryResult, world⟩ - -
    have hk' : Kept params now none { s with world := world } := hk.congr rfl rfl rfl rfl rfl rfl
    cases entryResult with
    | none => exact ⟨none, hk'.mono hle⟩
    | some command =>
      refine ((openPosition_ends params command _ _ _).imp ?_).imp_error fun _ _ => trivial
      rintro s' ⟨p, hopens⟩
      exact ⟨some p, hk'.opens hopens hle⟩
  · exact ⟨held, hk.mono hle⟩

/-- One round of the loop keeps the books. -/
theorem onBar_kept (hk : Kept params now held s) (hle : now ≤ nextCandle.openTime) :
    Ends (fun s' => ∃ held', Kept params nextCandle.openTime held' s') (fun _ => True)
      (onBar params currentCandle nextCandle s) := by
  unfold onBar
  refine Ends.bind (fun _ => True) (ends_iff_ok.mpr fun _ _ => trivial) ?_
  rintro latestTick - -
  refine Ends.bind (fun _ => True) (ends_iff_ok.mpr fun _ _ => trivial) ?_
  rintro ⟨snapshot, adapter⟩ - -
  have hk' : Kept params now held (updateOhlc currentCandle
      ({ s with adapter := adapter }.setRate currentCandle.close.value)) :=
    hk.congr rfl rfl rfl rfl rfl rfl
  refine Ends.bind _ (evaluateExits_kept hk' snapshot hle) ?_
  rintro s' - ⟨held', hk''⟩
  exact evaluateEntry_kept hk'' snapshot le_rfl

/-- The loop keeps them, and dates nothing after the bars it has seen. -/
theorem loop_kept {last : Int} {candles : List ConfirmedCandle} (hk : Kept params now held s)
    (hnow : ∀ c ∈ candles, now ≤ c.openTime)
    (hasc : candles.Pairwise (fun a b => a.openTime < b.openTime))
    (hle : now ≤ last) (hlast : ∀ c ∈ candles, c.openTime ≤ last) :
    Ends (fun s' => ∃ held', Kept params last held' s') (fun _ => True)
      (loop params candles s) := by
  induction candles generalizing now held s with
  | nil => exact ⟨held, hk.mono hle⟩
  | cons current rest ih =>
    cases rest with
    | nil => exact ⟨held, hk.mono hle⟩
    | cons next rest =>
      have hrest := hasc.of_cons
      unfold loop
      refine Ends.bind _ (onBar_kept hk (hnow next (by simp))) ?_
      rintro s' - ⟨held', hk'⟩
      refine ih hk' ?_ hrest (hlast next (by simp)) fun c hc => hlast c (List.mem_cons_of_mem _ hc)
      intro c hc
      rcases List.mem_cons.mp hc with rfl | hc
      · exact le_rfl
      · exact Int.le_of_lt ((List.pairwise_cons.mp hrest).1 c hc)

omit [SnapshotAdapter α] in
/-- The forced close settles what is left. -/
theorem forceCloseAll_kept {finalCandle : ConfirmedCandle} (hk : Kept params now held s)
    (hle : now ≤ finalCandle.closeTime) :
    Ends (Kept params finalCandle.closeTime none) (fun _ => True)
      (forceCloseAll params finalCandle s) := by
  unfold forceCloseAll
  cases held with
  | none =>
    rw [hk.holds.foldlM_none]
    exact (hk.mono hle).congr hk.holds.positions.symm rfl rfl rfl rfl rfl
  | some p =>
    rw [hk.holds.foldlM_some]
    unfold forceClose
    rw [bind_assoc]
    refine Ends.bind _ ((closePosition_ends params _ p.id (hk.holds.opened p rfl) _ _ _
      _).imp_error fun _ _ => trivial) ?_
    rintro s' - ⟨record, hcloses⟩
    have hk' : Kept params now (some p) { s with
        extremeTracker :=
          s.extremeTracker.updateOhlc p.id finalCandle.high finalCandle.low } :=
      hk.congr rfl rfl rfl rfl rfl rfl
    exact hk'.closes hcloses hle rfl rfl rfl rfl rfl

/-- A run over bars in order settles its books. -/
theorem run_kept (params : EngineRunParams ω) (hexact : params.numbers = .exact) (adapter : α)
    (world : ω) (marketState : Option (Option ℚ))
    (hasc : ∀ candles, params.dataProvider.fetchCandles params.config.pair params.config.timeframe
      params.config.dateRange params.config.warmupCount = .ok candles →
        candles.Pairwise (fun a b => a.openTime < b.openTime)) :
    Ends (fun s => ∃ now, Kept params now none s) (fun _ => True)
      (run params adapter world ⟨some params.initialCapital, marketState⟩) := by
  unfold run
  refine Ends.bind (fun fetched => fetched.1.Pairwise (fun a b => a.openTime < b.openTime)) ?_ ?_
  · unfold fetch
    refine Ends.bind _ (ends_iff_ok.mpr fun candles h => hasc candles (mapError_eq_ok.mp h)) ?_
    rintro candles - hcandles
    refine Ends.bind (fun _ => True) (ends_iff_ok.mpr fun _ _ => trivial) ?_
    rintro bundles - -
    split
    · trivial
    · split
      · trivial
      · exact hcandles
  rintro ⟨candles, bundles⟩ - hcandles
  dsimp only at hcandles ⊢
  refine Ends.bind (fun s => ∀ now, Kept params now none s) ?_ ?_
  · unfold begin
    refine Ends.bind (fun _ => True) (ends_iff_ok.mpr fun _ _ => trivial) ?_
    rintro adapter - -
    exact fun now => Kept.start hexact now adapter world marketState
  rintro s - hk
  cases hfinal : candles.getLast? with
  | none =>
    obtain rfl := List.getLast?_eq_none_iff.mp hfinal
    rw [List.drop_nil]
    exact ⟨0, hk 0⟩
  | some finalCandle =>
    have hle : ∀ c ∈ candles.drop params.config.warmupCount, c.openTime ≤ finalCandle.openTime :=
      fun c hc => openTime_le_last hcandles hfinal (List.mem_of_mem_drop hc)
    have hbefore : ∃ now, now ≤ finalCandle.openTime ∧
        ∀ c ∈ candles.drop params.config.warmupCount, now ≤ c.openTime := by
      cases hdrop : candles.drop params.config.warmupCount with
      | nil => exact ⟨finalCandle.openTime, le_rfl, by simp⟩
      | cons first rest =>
        have hdropAsc := hcandles.sublist (List.drop_sublist params.config.warmupCount candles)
        rw [hdrop] at hdropAsc hle
        refine ⟨first.openTime, hle first (by simp), fun c hc => ?_⟩
        rcases List.mem_cons.mp hc with rfl | hc
        · exact le_rfl
        · exact Int.le_of_lt ((List.pairwise_cons.mp hdropAsc).1 c hc)
    obtain ⟨now, hnow, hfirst⟩ := hbefore
    refine Ends.bind _ (loop_kept (hk now) hfirst
      (hcandles.sublist (List.drop_sublist _ _)) hnow hle) ?_
    rintro s' - ⟨held, hk'⟩
    exact (forceCloseAll_kept hk' (Int.le_of_lt finalCandle.opens_before)).imp
      fun s'' h => ⟨_, h⟩

end OhlcEngine

/-! ## Ticks -/

namespace TickEngine

variable {params : EngineRunParams ω} {now : Int} {held : Option Position} {s : TickState α ω}
  {tick : Tick}

/-- The books and the orders of a tick run. -/
structure Tended (params : EngineRunParams ω) (now : Int) (held : Option Position)
    (s : TickState α ω) : Prop where
  kept : Kept params now held s.toEngineState
  orders : Orders held s.pendingOrders

theorem accumulate_tended (h : Tended params now held s) :
    Ends (fun s' => Tended params now held s' ∧ s'.lastTick = s.lastTick) (fun _ => True)
      (accumulate params tick s) := by
  refine ((accumulate_ends params tick h.kept.holds).imp ?_).imp_error fun _ _ => trivial
  rintro s' ⟨hbooks, hlast, -, horders⟩
  refine ⟨⟨?_, h.orders.asked horders⟩, hlast⟩
  rw [hbooks]
  exact h.kept.congr rfl rfl rfl rfl rfl rfl

omit [SnapshotAdapter α] in
theorem fillExit_tended (h : Tended params now held s) (hle : now ≤ tick.timestamp) :
    Ends (fun s' => (∃ held', Tended params tick.timestamp held' s') ∧ s'.lastTick = s.lastTick)
      (fun _ => True) (fillExit params tick s) := by
  refine ((fillExit_ends params tick h.kept.holds h.orders.exit).imp ?_).imp_error
    fun _ _ => trivial
  rintro s' (⟨rfl, -⟩ | ⟨o, closed, record, horder, -, hcloses, rfl⟩)
  · exact ⟨⟨held, h.kept.mono hle, h.orders⟩, rfl⟩
  · obtain rfl := h.orders.exit o horder
    exact ⟨⟨none, h.kept.forget hcloses hle, h.orders.exitFilled (by simp [horder])⟩, rfl⟩

omit [SnapshotAdapter α] in
theorem fillEntry_tended (h : Tended params tick.timestamp held s) :
    Ends (fun s' => (∃ held', Tended params tick.timestamp held' s') ∧ s'.lastTick = s.lastTick)
      (fun _ => True) (fillEntry params tick s) := by
  refine ((fillEntry_ends params tick s).imp ?_).imp_error fun _ _ => trivial
  rintro s' (⟨rfl, -⟩ | ⟨o, p, books, horder, -, hopens, rfl⟩)
  · exact ⟨⟨held, h⟩, rfl⟩
  · have hsome : s.pendingOrders.pendingEntry.isSome = true := by simp [horder]
    obtain ⟨rfl, -⟩ := h.orders.entry hsome
    exact ⟨⟨some p, h.kept.opens hopens le_rfl, h.orders.entryFilled hsome p⟩, rfl⟩

/-- One round of the loop keeps the books and the orders. -/
theorem onTick_tended (h : Tended params now held s) (hle : now ≤ tick.timestamp) :
    Ends (fun s' => (∃ held', Tended params tick.timestamp held' s') ∧ s'.lastTick = some tick)
      (fun _ => True) (onTick params s tick) := by
  unfold onTick
  have hreceived : Tended params now held (receive tick s) :=
    ⟨h.kept.congr rfl rfl rfl rfl rfl rfl, h.orders⟩
  refine Ends.bind _ (accumulate_tended hreceived) ?_
  rintro s₁ - ⟨h₁, hlast₁⟩
  refine Ends.bind _ (fillExit_tended h₁ hle) ?_
  rintro s₂ - ⟨⟨held₂, h₂⟩, hlast₂⟩
  refine Ends.bind _ (fillEntry_tended h₂) ?_
  rintro s₃ - ⟨⟨held₃, h₃⟩, hlast₃⟩
  refine ⟨⟨held₃, h₃.kept.congr rfl rfl rfl rfl rfl rfl, h₃.orders⟩, ?_⟩
  exact hlast₃.trans (hlast₂.trans hlast₁)

/-- What a loop over ticks in order leaves: books dated up to its last tick, or still in
the state before the first. -/
theorem onTicks_tended {ticks : List Tick} (h : Tended params now held s)
    (hmono : ticks.Pairwise (fun a b => a.timestamp ≤ b.timestamp))
    (hnow : ∀ t ∈ ticks, now ≤ t.timestamp) (hlast : ∀ t ∈ s.lastTick, now ≤ t.timestamp) :
    Ends (fun s' => ∃ now' held', Tended params now' held' s' ∧
        (∀ t ∈ s'.lastTick, now' ≤ t.timestamp) ∧ (s'.lastTick = none → s' = s))
      (fun _ => True) (ticks.foldlM (onTick params) s) := by
  induction ticks generalizing now held s with
  | nil => exact ⟨now, held, h, hlast, fun _ => rfl⟩
  | cons tick rest ih =>
    obtain ⟨hfirst, hrest⟩ := List.pairwise_cons.mp hmono
    rw [List.foldlM_cons]
    refine Ends.bind _ (onTick_tended h (hnow tick (by simp))) ?_
    rintro s₁ - ⟨⟨held₁, h₁⟩, hlast₁⟩
    refine (ih h₁ hrest hfirst (by simp [hlast₁])).imp ?_
    rintro s' ⟨now', held', h', hlast', hnone⟩
    refine ⟨now', held', h', hlast', fun hs' => ?_⟩
    rw [hnone hs', hlast₁] at hs'
    cases hs'

omit [SnapshotAdapter α] in
/-- The forced close settles what is left. -/
theorem forceCloseAll_kept {lastTick : Tick} {books : EngineState α ω}
    (hk : Kept params lastTick.timestamp held books) :
    Ends (Kept params lastTick.timestamp none) (fun _ => True)
      (forceCloseAll params lastTick books) := by
  unfold forceCloseAll
  cases held with
  | none =>
    rw [hk.holds.foldlM_none]
    exact hk.congr hk.holds.positions.symm rfl rfl rfl rfl rfl
  | some p =>
    rw [hk.holds.foldlM_some]
    unfold forceClose
    rw [bind_assoc]
    refine Ends.bind _ ((closePosition_ends params _ p.id (hk.holds.opened p rfl) _ _ _
      _).imp_error fun _ _ => trivial) ?_
    rintro s' - ⟨record, hcloses⟩
    exact hk.closes hcloses le_rfl rfl rfl rfl rfl rfl

omit [SnapshotAdapter α] in
/-- The end of the stream settles what is left, each position once. -/
theorem finish_kept (h : Tended params now held s) (hlast : ∀ t ∈ s.lastTick, now ≤ t.timestamp)
    (hnone : s.lastTick = none → s.positions = []) :
    Ends (fun s' => ∃ now', Kept params now' none s'.toEngineState) (fun _ => True)
      (finish params s) := by
  unfold finish
  cases hl : s.lastTick with
  | none =>
    obtain rfl := h.kept.holds.length_eq_zero.mp (by simp [hnone hl])
    exact ⟨now, h.kept.congr (hnone hl).symm rfl rfl rfl rfl rfl⟩
  | some lastTick =>
    have hle := hlast lastTick hl
    refine Ends.bind (fun books => ∃ held', Kept params lastTick.timestamp held' books) ?_ ?_
    · dsimp only [PendingOrderManager.settleAtStreamEnd, settleWaiting]
      cases horder : s.pendingOrders.pendingExit with
      | none => exact ⟨held, h.kept.mono hle⟩
      | some o =>
        obtain rfl := h.orders.exit o horder
        refine ((settleExit_ends params lastTick o _ (h.kept.holds.opened _ rfl)).imp
          ?_).imp_error fun _ _ => trivial
        rintro books ⟨closed, record, hcloses, rfl⟩
        exact ⟨none, h.kept.forget hcloses hle⟩
    · rintro books - ⟨held', hk⟩
      refine Ends.bind _ (forceCloseAll_kept hk) ?_
      exact fun _ _ hk' => ⟨_, hk'⟩

theorem begin_tended (params : EngineRunParams ω) (hexact : params.numbers = .exact)
    (delayMs : Int) (adapter : α) (world : ω) (marketState : Option (Option ℚ)) :
    Ends (fun s => ∀ now, Tended params now none s ∧ s.lastTick = none ∧ s.positions = [])
      (fun _ => True)
      (begin params delayMs adapter world ⟨some params.initialCapital, marketState⟩) := by
  unfold begin
  refine Ends.bind (fun _ => True) (ends_iff_ok.mpr fun _ _ => trivial) ?_
  rintro warmupCandles - -
  refine Ends.bind (fun _ => True) (ends_iff_ok.mpr fun _ _ => trivial) ?_
  rintro adapter - -
  exact fun now => ⟨⟨Kept.start hexact now adapter world marketState, Orders.new delayMs⟩, rfl, rfl⟩

/-- A run over ticks in order settles its books. -/
theorem run_kept (params : EngineRunParams ω) (hexact : params.numbers = .exact) (delayMs : Int)
    (adapter : α) (world : ω) (marketState : Option (Option ℚ))
    (hmono : (params.dataProvider.fetchTicks params.config.pair params.config.dateRange).Pairwise
      (fun a b => a.timestamp ≤ b.timestamp)) :
    Ends (fun s => ∃ now, Kept params now none s.toEngineState) (fun _ => True)
      (run params delayMs adapter world ⟨some params.initialCapital, marketState⟩) := by
  unfold run runOver
  rw [bind_assoc]
  refine Ends.bind _ (begin_tended params hexact delayMs adapter world marketState) ?_
  rintro s - hs
  generalize params.dataProvider.fetchTicks params.config.pair params.config.dateRange = ticks
    at hmono ⊢
  have hbefore : ∃ now, ∀ t ∈ ticks, now ≤ t.timestamp := by
    cases ticks with
    | nil => exact ⟨0, by simp⟩
    | cons first rest =>
      refine ⟨first.timestamp, fun t ht => ?_⟩
      rcases List.mem_cons.mp ht with rfl | ht
      · exact le_rfl
      · exact (List.pairwise_cons.mp hmono).1 t ht
  obtain ⟨now, hnow⟩ := hbefore
  obtain ⟨htended, hlast, hpositions⟩ := hs now
  refine Ends.bind _ (onTicks_tended htended hmono hnow (by simp [hlast])) ?_
  rintro s' - ⟨now', held', h', hlast', hnone⟩
  exact finish_kept h' hlast' fun hl => by rw [hnone hl, hpositions]

end TickEngine

/-! ## Both engines -/

/-- Every run that finishes, over bars or ticks in order and with exact numbers, conserves its
trades and its equity; its records are in order of time where the simulator reports the time
it is given. -/
theorem trades_conserved (params : EngineRunParams ω) (hexact : params.numbers = .exact)
    (adapter : α) (world : ω) (marketState : Option (Option ℚ)) :
    ((∀ candles, params.dataProvider.fetchCandles params.config.pair params.config.timeframe
        params.config.dateRange params.config.warmupCount = .ok candles →
          candles.Pairwise (fun a b => a.openTime < b.openTime)) →
      ∀ s, OhlcEngine.run params adapter world ⟨some params.initialCapital, marketState⟩ = .ok s →
        Conserved params.initialCapital s ∧
          (params.executionSimulator.Punctual → Timely s.trades)) ∧
      ((params.dataProvider.fetchTicks params.config.pair params.config.dateRange).Pairwise
          (fun a b => a.timestamp ≤ b.timestamp) →
        ∀ delayMs s, TickEngine.run params delayMs adapter world
            ⟨some params.initialCapital, marketState⟩ = .ok s →
          Conserved params.initialCapital s.toEngineState ∧
            (params.executionSimulator.Punctual → Timely s.trades)) := by
  refine ⟨fun hasc s hs => ?_, fun hmono delayMs s hs => ?_⟩
  · obtain ⟨now, hk⟩ := (OhlcEngine.run_kept params hexact adapter world marketState hasc).of_ok hs
    exact hk.conserved
  · obtain ⟨now, hk⟩ :=
      (TickEngine.run_kept params hexact delayMs adapter world marketState hmono).of_ok hs
    exact hk.conserved

/-- Three trades over bars, and three over ticks with a delay; the last is forced closed. -/
theorem trades_conserved_quiet :
    (∃ s, OhlcEngine.run (quietParams (idealExecutionSimulator countedIds) (quietBars 6) [])
        quietAdapter 0 ⟨some 100000, none⟩ = .ok s ∧ s.trades.length = 3 ∧
      Conserved 100000 s ∧ Timely s.trades) ∧
    ∃ s, TickEngine.run (quietParams (idealExecutionSimulator countedIds) (quietBars 2)
        (quietTicks 120000 6)) 100 quietAdapter 0 ⟨some 100000, none⟩ = .ok s ∧
      s.trades.length = 3 ∧ Conserved 100000 s.toEngineState ∧ Timely s.trades := by
  constructor
  · let params := quietParams (idealExecutionSimulator countedIds) (quietBars 6) []
    have hrun : ∃ s, OhlcEngine.run params quietAdapter 0 ⟨some 100000, none⟩ = .ok s ∧
        decide (s.trades.length = 3) = true := exists_ok (by decide +kernel)
    obtain ⟨s, hs, hlength⟩ := hrun
    have hasc : (quietBars 6).Pairwise (fun a b => a.openTime < b.openTime) := by decide +kernel
    have h := (trades_conserved params rfl quietAdapter 0 none).1
      (fun candles hc => by cases hc; exact hasc) s hs
    exact ⟨s, hs, of_decide_eq_true hlength, h.1, h.2 (idealExecutionSimulator_punctual countedIds)⟩
  · let params := quietParams (idealExecutionSimulator countedIds) (quietBars 2)
      (quietTicks 120000 6)
    have hrun : ∃ s, TickEngine.run params 100 quietAdapter 0 ⟨some 100000, none⟩ = .ok s ∧
        decide (s.trades.length = 3) = true := exists_ok (by decide +kernel)
    obtain ⟨s, hs, hlength⟩ := hrun
    have h := (trades_conserved params rfl quietAdapter 0 none).2 (by decide +kernel) 100 s hs
    exact ⟨s, hs, of_decide_eq_true hlength, h.1, h.2 (idealExecutionSimulator_punctual countedIds)⟩

/-- A simulator that numbers its positions, and dates every exit at the epoch. -/
def lateSimulator : ExecutionSimulator Nat where
  simulateEntry := (idealExecutionSimulator countedIds).simulateEntry
  simulateExit command price pair entryPrice buySell _ :=
    (idealExecutionSimulator countedIds).simulateExit command price pair entryPrice buySell 0

/-- Its ids are fresh, and its exits come before its entries. -/
theorem exists_exit_before_entry :
    (∀ command price pair executedAt n,
      lateSimulator.simulateEntry command price pair executedAt n =
        .ok (⟨.ofNat n, price, executedAt⟩, n + 1)) ∧
    (quietBars 6).Pairwise (fun a b => a.openTime < b.openTime) ∧
    ∃ s, OhlcEngine.run (quietParams lateSimulator (quietBars 6) []) quietAdapter 0
        ⟨some 100000, none⟩ = .ok s ∧ (s.trades.map (·.id)).Nodup ∧ ¬ Timely s.trades := by
  have hrun : ∃ s, OhlcEngine.run (quietParams lateSimulator (quietBars 6) []) quietAdapter 0
      ⟨some 100000, none⟩ = .ok s ∧ decide ((s.trades.map (·.id)).Nodup ∧
        ∃ t ∈ s.trades, t.exitTime < t.entryTime) = true := exists_ok (by decide +kernel)
  obtain ⟨s, hs, hids⟩ := hrun
  obtain ⟨hnodup, t, ht, hlt⟩ := of_decide_eq_true hids
  exact ⟨fun _ _ _ _ _ => rfl, by decide +kernel, s, hs, hnodup, fun htimely =>
    absurd (htimely.lasts t ht) (not_le.mpr hlt)⟩

end Luchida
