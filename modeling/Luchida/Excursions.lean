import Luchida.DecimalRounding
import Luchida.EngineRounds
import Luchida.ExecutionSimulators

/- The result of a trade against the excursions recorded for it. A position is closed at
   the price it is filled at; its best and worst excursion are those of the extremes
   tracked by then. A fill at a price the tracker has not seen can lie outside of them. -/
namespace Luchida

open OrderedMap Throws EngineState DecimalRounding

/-! ## One close -/

/-- The result lies between the worst and the best excursion. -/
def TradeRecord.Bounded (t : TradeRecord) : Prop :=
  -t.maePips ≤ t.pnlPips ∧ t.pnlPips ≤ t.mfePips

/-- The fill price as the pip of the position counts it. It is another price only where the
position is of a pair whose pip is not that of the run. -/
def countedPrice (pair : CurrencyPair) (p : Position) (price : Price) : ℚ :=
  p.entryPrice.value + (price.value - p.entryPrice.value) / pair.pipUnit * p.pair.pipUnit

/-- To four decimals, the two are the same number of pips away from the entry. -/
def SamePips (p : Position) (x y : ℚ) : Prop :=
  halfUp 4 ((x - p.entryPrice.value) / p.pair.pipUnit) =
    halfUp 4 ((y - p.entryPrice.value) / p.pair.pipUnit)

/-- The fill price lies between the extremes, up to the rounding. -/
structure Within (pair : CurrencyPair) (p : Position) (e : ExtremesSnapshot) (price : Price) :
    Prop where
  low : e.lowest.value ≤ countedPrice pair p price ∨
    SamePips p e.lowest.value (countedPrice pair p price)
  high : countedPrice pair p price ≤ e.highest.value ∨
    SamePips p (countedPrice pair p price) e.highest.value

theorem countedPrice_eq {pair : CurrencyPair} {p : Position}
    (h : p.pair.pipUnit = pair.pipUnit) (price : Price) :
    countedPrice pair p price = price.value := by
  have hunit := pair.pipUnit_pos
  unfold countedPrice
  rw [h]
  field_simp
  ring

theorem Within.of_mem {pair : CurrencyPair} {p : Position} {e : ExtremesSnapshot} {price : Price}
    (hunit : p.pair.pipUnit = pair.pipUnit) (hlow : e.lowest.value ≤ price.value)
    (hhigh : price.value ≤ e.highest.value) : Within pair p e price := by
  have hcounted := countedPrice_eq hunit price
  exact ⟨.inl (hcounted ▸ hlow), .inl (hcounted ▸ hhigh)⟩

theorem toFixed4_eq (x : ℚ) : Position.toFixed4 x = halfUp 4 x := by
  unfold Position.toFixed4 halfUp
  norm_num

/-- The signed distance of a price from the entry, in pips of the position. -/
def pipsFrom (p : Position) (x : ℚ) : ℚ := halfUp 4 ((x - p.entryPrice.value) / p.pair.pipUnit)

theorem pipsFrom_le_iff (p : Position) (x y : ℚ) :
    pipsFrom p x ≤ pipsFrom p y ↔ x ≤ y ∨ SamePips p x y := by
  have hunit := p.pair.pipUnit_pos
  unfold pipsFrom
  rw [halfUp_le_halfUp_iff, div_le_div_iff_of_pos_right hunit, sub_le_sub_iff_right]
  rfl

theorem within_iff (pair : CurrencyPair) (p : Position) (e : ExtremesSnapshot) (price : Price) :
    Within pair p e price ↔ pipsFrom p e.lowest.value ≤ pipsFrom p (countedPrice pair p price) ∧
      pipsFrom p (countedPrice pair p price) ≤ pipsFrom p e.highest.value := by
  rw [pipsFrom_le_iff, pipsFrom_le_iff]
  exact ⟨fun h => ⟨h.low, h.high⟩, fun h => ⟨h.1, h.2⟩⟩

/-- The pips that a close at the price is worth, by the position's own distances. -/
theorem calculatePips_eq (pair : CurrencyPair) (p : Position) (price : Price) :
    (calculatePips .exact price p.entryPrice p.buySell pair).value =
      match p.buySell with
      | .buy => pipsFrom p (countedPrice pair p price)
      | .sell => -pipsFrom p (countedPrice pair p price) := by
  have hunit := p.pair.pipUnit_pos
  have hpips : (countedPrice pair p price - p.entryPrice.value) / p.pair.pipUnit =
      (price.value - p.entryPrice.value) / pair.pipUnit := by
    unfold countedPrice
    field_simp
    ring
  unfold calculatePips pipsFrom
  rw [hpips]
  cases p.buySell with
  | buy => rfl
  | sell =>
    show halfUp 4 ((p.entryPrice.value - price.value) / pair.pipUnit) = _
    rw [← halfUp_neg, ← neg_div, neg_sub]

/-- The excursions of a position, by the distances of its extremes. -/
theorem applyExtremes_pips {p : Position} (hopen : p.status = .opened) (e : ExtremesSnapshot) :
    (p.applyExtremes e.highest e.lowest).mfePips.map (·.value) = some (match p.buySell with
      | .buy => pipsFrom p e.highest.value
      | .sell => -pipsFrom p e.lowest.value) ∧
    (p.applyExtremes e.highest e.lowest).maePips.map (·.value) = some (match p.buySell with
      | .buy => -pipsFrom p e.lowest.value
      | .sell => pipsFrom p e.highest.value) := by
  have hdown : halfUp 4 ((p.entryPrice.value - e.lowest.value) / p.pair.pipUnit) =
      -pipsFrom p e.lowest.value := by
    unfold pipsFrom
    rw [← halfUp_neg, ← neg_div, neg_sub]
  unfold Position.applyExtremes
  simp only [hopen, reduceCtorEq, if_false, toFixed4_eq, hdown]
  cases p.buySell <;> exact ⟨rfl, rfl⟩

/-- A simulator without slippage: an exit is filled exactly at the price passed to it. -/
structure ExecutionSimulator.Exact {ω : Type} (simulator : ExecutionSimulator ω) : Prop where
  entry : ∀ command price pair executedAt world result world',
    simulator.simulateEntry command price pair executedAt world = .ok (result, world') →
      result.entryPrice = price
  exit : ∀ command price pair entryPrice buySell executedAt world result world',
    simulator.simulateExit command price pair entryPrice buySell executedAt world =
      .ok (result, world') →
    result.exitPrice = price ∧
      result.profitLoss = calculatePips .exact price entryPrice buySell pair

theorem idealExecutionSimulator_exact {ω : Type} (generate : ω → PositionId × ω) :
    (idealExecutionSimulator generate).Exact where
  entry command price pair executedAt world result world' h := by
    cases h
    rfl
  exit command price pair entryPrice buySell executedAt world result world' h := by
    cases h
    exact ⟨rfl, rfl⟩

variable {α ω : Type} {params : EngineRunParams ω}

theorem nonNull_eq_ok {β : Type} {o : Option β} {b : β} (h : nonNull o = .ok b) : o = some b := by
  cases o with
  | none => cases h
  | some c =>
    cases h
    rfl

/-- The pips of a record are those of its position. -/
theorem buildTradeRecord_pips {numbers : NumberArithmetic} {input : TradeRecordInput}
    {record : TradeRecord} (h : buildTradeRecord numbers input = .ok record) :
    input.position.profitLoss = some ⟨record.pnlPips⟩ ∧
      record.mfePips = (input.position.mfePips.map (·.value)).getD 0 ∧
      record.maePips = (input.position.maePips.map (·.value)).getD 0 := by
  obtain ⟨exitTime, -, h⟩ := bind_eq_ok.mp h
  obtain ⟨profitLoss, hprofit, h⟩ := bind_eq_ok.mp h
  obtain ⟨exitPrice, -, h⟩ := bind_eq_ok.mp h
  obtain ⟨exitType, -, h⟩ := bind_eq_ok.mp h
  cases h
  exact ⟨nonNull_eq_ok hprofit, rfl, rfl⟩

theorem Position.close_pips {p closed : Position} {command : ExitCommand} {result : ExitResult}
    (h : p.close command result = some closed) : closed.profitLoss = some result.profitLoss ∧
      closed.mfePips = p.mfePips ∧ closed.maePips = p.maePips := by
  unfold Position.close at h
  split at h
  · cases h
  · cases h
    exact ⟨rfl, rfl, rfl⟩

/-- The record that closing a position adds: the result at the price, and the excursions at
the extremes. -/
theorem closePosition_record (hexact : params.executionSimulator.Exact)
    {command : ExitCommand} {posId : PositionId} {p : Position} {price : Price}
    {executedAt extremesAt : Int} {s s' : EngineState α ω} {e : ExtremesSnapshot}
    (hget : get s.extremeTracker posId = some e)
    (h : s.closePosition params command posId p price executedAt extremesAt = .ok s') :
    ∃ record, s'.trades = s.trades ++ [record] ∧
      record.pnlPips =
        (calculatePips .exact price p.entryPrice p.buySell params.config.pair).value ∧
      record.mfePips = ((p.applyExtremes e.highest e.lowest).mfePips.map (·.value)).getD 0 ∧
      record.maePips = ((p.applyExtremes e.highest e.lowest).maePips.map (·.value)).getD 0 := by
  obtain ⟨mfe, mae, hextremes⟩ := p.applyExtremes_eq e.highest e.lowest
  unfold closePosition at h
  rw [hget] at h
  dsimp only at h
  obtain ⟨⟨simResult, world⟩, hsim, h⟩ := bind_eq_ok.mp h
  have hpips := (hexact.exit _ _ _ _ _ _ _ _ _ (mapError_eq_ok.mp hsim)).2
  split at h
  · rename_i closed hclosed
    obtain ⟨position, hposition, h⟩ := bind_eq_ok.mp h
    cases hposition
    obtain ⟨profitLoss, -, h⟩ := bind_eq_ok.mp h
    obtain ⟨record, hrecord, h⟩ := bind_eq_ok.mp h
    cases h
    obtain ⟨hprofit, hmfe, hmae⟩ := buildTradeRecord_pips hrecord
    obtain ⟨hresult, hmfe', hmae'⟩ := Position.close_pips hclosed
    refine ⟨record, rfl, ?_, by rw [hmfe, hmfe'], by rw [hmae, hmae']⟩
    -- the extremes leave the entry and the side alone
    rw [hextremes] at hpips
    rw [← hpips]
    exact congrArg Pips.value (Option.some.inj (hprofit.symm.trans hresult))
  · obtain ⟨position, hposition, -⟩ := bind_eq_ok.mp h
    cases hposition

/-- Of a closed position, the record is bounded where the price is within the extremes. -/
theorem closePosition_bounded_iff (hexact : params.executionSimulator.Exact)
    {command : ExitCommand} {posId : PositionId} {p : Position} (hopen : p.status = .opened)
    {price : Price} {executedAt extremesAt : Int} {s s' : EngineState α ω} {e : ExtremesSnapshot}
    (hget : get s.extremeTracker posId = some e)
    (h : s.closePosition params command posId p price executedAt extremesAt = .ok s') :
    (∀ t ∈ s'.trades, t.Bounded) ↔
      (∀ t ∈ s.trades, t.Bounded) ∧ Within params.config.pair p e price := by
  obtain ⟨record, htrades, hpnl, hmfe, hmae⟩ := closePosition_record hexact hget h
  obtain ⟨hbest, hworst⟩ := applyExtremes_pips hopen e
  rw [hbest, Option.getD_some] at hmfe
  rw [hworst, Option.getD_some] at hmae
  rw [calculatePips_eq] at hpnl
  have hrecord : record.Bounded ↔ Within params.config.pair p e price := by
    rw [within_iff, TradeRecord.Bounded, hpnl, hmfe, hmae]
    cases p.buySell with
    | buy => simp
    | sell => simp [and_comm]
  rw [htrades, List.forall_mem_append, List.forall_mem_singleton, hrecord]

/-- Opening a position adds no record. -/
theorem openPosition_trades {command : EntryCommand} {price : Price} {executedAt : Int}
    {s s' : EngineState α ω} (h : s.openPosition params command price executedAt = .ok s') :
    s'.trades = s.trades := by
  obtain ⟨p, hopens⟩ := (openPosition_ends params command price executedAt s).of_ok h
  rw [hopens.state]

/-- The range of a bar is within the extremes that it is tracked into. -/
theorem ExtremeTracker.updateOhlc_bounds (tracker : ExtremeTracker) (id : PositionId)
    (high low : Price) :
    ∃ e, get (tracker.updateOhlc id high low) id = some e ∧ e.lowest.value ≤ low.value ∧
      high.value ≤ e.highest.value := by
  unfold updateOhlc
  cases get tracker id with
  | none => exact ⟨_, get_set_self .., le_rfl, le_rfl⟩
  | some existing =>
    refine ⟨_, get_set_self .., ?_, ?_⟩
    · dsimp only
      split
      · exact le_rfl
      · rename_i hlow
        rw [Price.isHigherThan_iff, not_lt] at hlow
        exact hlow
    · dsimp only
      split
      · exact le_rfl
      · rename_i hhigh
        rw [Price.isHigherThan_iff, not_lt] at hhigh
        exact hhigh

/-! ## Bars -/

variable [SnapshotAdapter α]

namespace OhlcEngine

variable {s s' asked exited : EngineState α ω} {held : Option Position} {snapshot : MarketSnapshot}
  {currentCandle nextCandle : ConfirmedCandle}

/-- If the exit rule gives up the position held at this bar, the open of the next bar is
within the extremes tracked up to this one. -/
def ExitsWithin (params : EngineRunParams ω) (currentCandle nextCandle : ConfirmedCandle)
    (s : EngineState α ω) : Prop :=
  ∀ snapshot asked, Asks params currentCandle nextCandle s snapshot asked →
    ∀ entry ∈ asked.positions, ∀ command world,
      params.exitRule asked.shared snapshot entry.2 asked.world = .ok (some command, world) →
      ∀ e, get asked.extremeTracker entry.1 = some e →
        Within params.config.pair entry.2 e nextCandle.openPrice

/-- A position of a pair with another pip that is closed at the end is so within its
extremes. -/
def ForcedWithin (params : EngineRunParams ω) (finalCandle : ConfirmedCandle)
    (s : EngineState α ω) : Prop :=
  ∀ entry ∈ s.positions, entry.2.pair.pipUnit ≠ params.config.pair.pipUnit →
    ∀ e, get (s.extremeTracker.updateOhlc entry.1 finalCandle.high finalCandle.low) entry.1 =
      some e → Within params.config.pair entry.2 e finalCandle.close

omit [SnapshotAdapter α] in
theorem Enters.trades (h : Enters params snapshot nextCandle s s') : s'.trades = s.trades := by
  cases h with
  | busy => rfl
  | waits => rfl
  | enters _ _ hopened =>
    have htrades := openPosition_trades hopened
    exact htrades

/-- The range of the bar is tracked before the rules are asked. -/
theorem Asks.tracked {p : Position} (hs : s.Holds (some p))
    (h : Asks params currentCandle nextCandle s snapshot asked) :
    ∃ e, get asked.extremeTracker p.id = some e := by
  obtain ⟨latestTick, adapter, -, -, rfl⟩ := h
  obtain ⟨e, he, -⟩ := ExtremeTracker.updateOhlc_bounds s.extremeTracker p.id currentCandle.high
    currentCandle.low
  refine ⟨e, ?_⟩
  simpa [updateOhlc, EngineState.setRate, hs.positions] using he

/-- The records after a round are bounded where those before are, and the exit of the round
is within the extremes. -/
theorem onBar_bounded_iff (hexact : params.executionSimulator.Exact) (hs : s.Holds held)
    (h : onBar params currentCandle nextCandle s = .ok s') :
    (∀ t ∈ s'.trades, t.Bounded) ↔
      (∀ t ∈ s.trades, t.Bounded) ∧ ExitsWithin params currentCandle nextCandle s := by
  obtain ⟨snapshot, asked, exited, hasks, hasked, hexits, henters⟩ := onBar_ok hs h
  rw [henters.trades]
  have htrades : asked.trades = s.trades := by
    obtain ⟨_, _, -, -, rfl⟩ := id hasks
    rfl
  have hwithin : ExitsWithin params currentCandle nextCandle s ↔
      ∀ p ∈ held, ∀ command world,
        params.exitRule asked.shared snapshot p asked.world = .ok (some command, world) →
        ∀ e, get asked.extremeTracker p.id = some e →
          Within params.config.pair p e nextCandle.openPrice := by
    constructor
    · intro hall p hp
      exact hall snapshot asked hasks (p.id, p) (by
        rw [hasked.positions]
        exact List.mem_map_of_mem (Option.mem_toList.mpr hp))
    · intro hall snapshot' asked' hasks' entry hentry
      obtain ⟨rfl, rfl⟩ := hasks.unique hasks'
      rw [hasked.positions] at hentry
      obtain ⟨p, hp, rfl⟩ := List.mem_map.mp hentry
      exact hall p (Option.mem_toList.mp hp)
  rw [hwithin]
  cases hexits with
  | flat => simp [htrades]
  | @stays p world hrule =>
    simp only [htrades, Option.mem_def, Option.some.injEq, forall_eq', hrule, Except.ok.injEq,
      Prod.mk.injEq, reduceCtorEq, false_and, false_implies, implies_true, and_true]
  | @leaves p command world closed hrule hclosed =>
    obtain ⟨e, he⟩ := hasks.tracked hs
    have he' : get ({ asked with world := world } : EngineState α ω).extremeTracker p.id =
      some e := he
    show (∀ t ∈ closed.trades, t.Bounded) ↔ _
    rw [closePosition_bounded_iff hexact (hasked.opened p rfl) he' hclosed]
    refine and_congr (by rw [← htrades]) ?_
    constructor
    · intro hprice q hq _ _ _ e' he'
      obtain rfl := Option.some.inj hq
      obtain rfl := Option.some.inj (he.symm.trans he')
      exact hprice
    · intro hall
      exact hall p rfl command world hrule e he

theorem loop_bounded_iff (hexact : params.executionSimulator.Exact) (hs : ∃ held, s.Holds held)
    {bars : List ConfirmedCandle} (h : loop params bars s = .ok s') :
    (∀ t ∈ s'.trades, t.Bounded) ↔ (∀ t ∈ s.trades, t.Bounded) ∧
      ∀ currentCandle nextCandle s₁, Reaches params bars s currentCandle nextCandle s₁ →
        ExitsWithin params currentCandle nextCandle s₁ := by
  induction bars generalizing s with
  | nil =>
    cases h
    simp [reaches_short]
  | cons first rest ih =>
    cases rest with
    | nil =>
      cases h
      simp [reaches_short]
    | cons second rest =>
      obtain ⟨s₁, hround, h⟩ := bind_eq_ok.mp h
      obtain ⟨held, hheld⟩ := hs
      rw [ih (onBar_holds ⟨held, hheld⟩ hround) h, onBar_bounded_iff hexact hheld hround, and_assoc]
      refine and_congr_right fun _ => ?_
      simp only [reaches_cons]
      constructor
      · intro hall currentCandle nextCandle s₂ hreaches
        obtain ⟨rfl, rfl, rfl⟩ | ⟨s₁', hround', hreaches⟩ := hreaches
        · exact hall.1
        · obtain rfl := Except.ok.inj (hround.symm.trans hround')
          exact hall.2 _ _ _ hreaches
      · intro hall
        exact ⟨hall _ _ _ (.inl ⟨rfl, rfl, rfl⟩),
          fun _ _ _ hreaches => hall _ _ _ (.inr ⟨s₁, hround, hreaches⟩)⟩

omit [SnapshotAdapter α] in
/-- A forced close is at a price of the bar that is tracked for it. -/
theorem forceCloseAll_bounded_iff (hexact : params.executionSimulator.Exact) (hs : s.Holds held)
    {finalCandle : ConfirmedCandle} (h : forceCloseAll params finalCandle s = .ok s') :
    (∀ t ∈ s'.trades, t.Bounded) ↔
      (∀ t ∈ s.trades, t.Bounded) ∧ ForcedWithin params finalCandle s := by
  obtain ⟨closed, hclosed, h⟩ := bind_eq_ok.mp h
  cases h
  show (∀ t ∈ closed.trades, t.Bounded) ↔ _
  unfold ForcedWithin
  cases held with
  | none =>
    rw [hs.foldlM_none] at hclosed
    cases hclosed
    simp [hs.positions]
  | some p =>
    rw [hs.foldlM_some] at hclosed
    rw [hs.positions]
    obtain ⟨books, hbooks, hclosed⟩ := bind_eq_ok.mp hclosed
    cases hclosed
    obtain ⟨e, he, hlow, hhigh⟩ := ExtremeTracker.updateOhlc_bounds s.extremeTracker p.id
      finalCandle.high finalCandle.low
    show (∀ t ∈ books.trades, t.Bounded) ↔ _
    rw [closePosition_bounded_iff hexact (hs.opened p rfl) (e := e) he hbooks]
    refine and_congr_right fun _ => ?_
    simp only [Option.toList_some, List.map_cons, List.map_nil, List.mem_singleton, forall_eq, he,
      Option.some.injEq, forall_eq']
    constructor
    · exact fun hwithin _ => hwithin
    · intro hother
      by_cases hunit : p.pair.pipUnit = params.config.pair.pipUnit
      · exact .of_mem hunit (hlow.trans finalCandle.low_le_close)
          (finalCandle.close_le_high.trans hhigh)
      · exact hother hunit

/-- The run is through its loop in this state, and the last of its bars is `finalCandle`. -/
def Finishes (params : EngineRunParams ω) (adapter : α) (world : ω) (shared : SharedState)
    (finalCandle : ConfirmedCandle) (s : EngineState α ω) : Prop :=
  ∃ candles additionalBundles start, fetch params = .ok (candles, additionalBundles) ∧
    begin params candles additionalBundles adapter world shared = .ok start ∧
    candles.getLast? = some finalCandle ∧
    loop params (candles.drop params.config.warmupCount) start = .ok s

/-- Every record of a run over bars is bounded exactly when every exit that the rule orders
is filled within the extremes, and so is a position of another pip at the end. -/
theorem run_bounded_iff (hexact : params.executionSimulator.Exact) {adapter : α} {world : ω}
    {shared : SharedState} (h : run params adapter world shared = .ok s') :
    (∀ t ∈ s'.trades, t.Bounded) ↔
      (∀ currentCandle nextCandle s,
        Visits params adapter world shared currentCandle nextCandle s →
          ExitsWithin params currentCandle nextCandle s) ∧
      ∀ finalCandle s, Finishes params adapter world shared finalCandle s →
        ForcedWithin params finalCandle s := by
  obtain ⟨⟨candles, bundles⟩, hfetch, h⟩ := bind_eq_ok.mp h
  obtain ⟨start, hbegin, h⟩ := bind_eq_ok.mp h
  obtain ⟨looped, hloop, hend⟩ := bind_eq_ok.mp h
  have hbegins : Begins params adapter world shared (candles.drop params.config.warmupCount)
      start := ⟨candles, bundles, hfetch, hbegin, rfl⟩
  obtain ⟨held, hlooped⟩ := loop_holds hbegins.holds hloop
  have hbounded := loop_bounded_iff hexact hbegins.holds hloop
  have hempty : ∀ t ∈ start.trades, t.Bounded := by
    obtain ⟨adapter', rfl⟩ := hbegins.state
    simp [EngineState.start]
  simp only [hbegins.visits_iff]
  rw [iff_true_intro hempty, true_and] at hbounded
  rw [← hbounded]
  cases hfinal : candles.getLast? with
  | none =>
    rw [hfinal] at hend
    cases hend
    refine (and_iff_left ?_).symm
    rintro finalCandle s ⟨candles', bundles', start', hfetch', -, hfinal', -⟩
    obtain ⟨rfl, rfl⟩ := Prod.mk.inj (Except.ok.inj (hfetch.symm.trans hfetch'))
    cases hfinal.symm.trans hfinal'
  | some finalCandle =>
    rw [hfinal] at hend
    rw [forceCloseAll_bounded_iff hexact hlooped hend]
    refine and_congr_right fun _ => ?_
    constructor
    · intro hforced finalCandle' s hfinishes
      obtain ⟨candles', bundles', start', hfetch', hbegin', hfinal', hloop'⟩ := hfinishes
      obtain ⟨rfl, rfl⟩ := Prod.mk.inj (Except.ok.inj (hfetch.symm.trans hfetch'))
      obtain rfl := Except.ok.inj (hbegin.symm.trans hbegin')
      obtain rfl := Except.ok.inj (hloop.symm.trans hloop')
      obtain rfl := Option.some.inj (hfinal.symm.trans hfinal')
      exact hforced
    · exact fun hall => hall finalCandle looped
        ⟨candles, bundles, _, hfetch, hbegin, hfinal, hloop⟩

end OhlcEngine

/-! ## Ticks -/

namespace TickEngine

variable {s s' heard left entered : TickState α ω} {held : Option Position} {tick : Tick}

/-- An exit that is due at this tick is filled within the extremes tracked before it. -/
def FillsWithin (params : EngineRunParams ω) (tick : Tick) (s : TickState α ω) : Prop :=
  ∀ heard, accumulate params tick (receive tick s) = .ok heard →
    ∀ o ∈ heard.pendingOrders.pendingExit, o.fillableAt ≤ tick.timestamp →
      ∀ e, get heard.extremeTracker o.position.id = some e →
        Within params.config.pair o.position e (selectPrice tick o.position.buySell.opposite)

/-- A position of a pair with another pip that is closed at the last tick is so within its
extremes. -/
def LastWithin (params : EngineRunParams ω) (lastTick : Tick) (s : TickState α ω) : Prop :=
  ∀ entry ∈ s.positions, entry.2.pair.pipUnit ≠ params.config.pair.pipUnit →
    ∀ e, get s.extremeTracker entry.1 = some e →
      Within params.config.pair entry.2 e (selectPrice lastTick entry.2.buySell.opposite)

/-- Between two rounds the position held is tracked, the last tick included. -/
structure Watched (held : Option Position) (s : TickState α ω) : Prop where
  holds : s.Holds held
  orders : Orders held s.pendingOrders
  tracked : ∀ p ∈ held, ∃ e, get s.extremeTracker p.id = some e ∧ ∀ t ∈ s.lastTick,
    e.lowest.value ≤ (selectPrice t p.buySell.opposite).value ∧
      (selectPrice t p.buySell.opposite).value ≤ e.highest.value

omit [SnapshotAdapter α] in
/-- The last stage of a round tracks the tick. -/
theorem updateExtremes_watched (hs : s.Holds held) (horders : Orders held s.pendingOrders)
    (hlast : s.lastTick = some tick) : Watched held (updateExtremes tick s) := by
  refine ⟨hs.of_positions rfl, horders, ?_⟩
  intro p hp
  obtain rfl := Option.mem_def.mp hp
  obtain ⟨e, he, hlow, hhigh⟩ := ExtremeTracker.update_bounds s.extremeTracker p.id tick.bid
    tick.ask p.buySell
  refine ⟨e, ?_, ?_⟩
  · unfold updateExtremes
    rw [hs.positions]
    exact he
  · intro t ht
    obtain rfl : tick = t := Option.some.inj (hlast.symm.trans ht)
    -- a long position is closed at the bid, a short one at the ask
    cases hside : p.buySell <;> rw [hside] at hlow hhigh <;> exact ⟨hlow, hhigh⟩

omit [SnapshotAdapter α] in
theorem FillsExit.orders (hs : heard.Holds held) (horders : Orders held heard.pendingOrders)
    (h : FillsExit params tick heard left) : ∃ held', left.Holds held' ∧
      Orders held' left.pendingOrders ∧ left.lastTick = heard.lastTick := by
  cases h with
  | nothing => exact ⟨held, hs, horders, rfl⟩
  | @fills o closed horder _ hclosed =>
    obtain rfl := horders.exit o horder
    obtain ⟨record, hcloses⟩ := (closePosition_ends params o.command _ (hs.opened _ rfl) _ _ _
      _).of_ok hclosed
    exact ⟨none, ⟨hcloses.forget_positions hs, by simp⟩,
      horders.exitFilled (by simp [horder]), rfl⟩

omit [SnapshotAdapter α] in
theorem FillsEntry.orders (hs : left.Holds held) (horders : Orders held left.pendingOrders)
    (h : FillsEntry params tick left entered) : ∃ held', entered.Holds held' ∧
      Orders held' entered.pendingOrders ∧ entered.lastTick = left.lastTick := by
  cases h with
  | nothing => exact ⟨held, hs, horders, rfl⟩
  | @fills o opened horder _ hopened =>
    have hsome : left.pendingOrders.pendingEntry.isSome = true := by simp [horder]
    obtain ⟨rfl, -⟩ := horders.entry hsome
    obtain ⟨p, hopens⟩ := (openPosition_ends params o.command _ _ _).of_ok hopened
    exact ⟨some p, hopens.holds hs, horders.entryFilled hsome p, rfl⟩

/-- Asking the rules leaves the books as they are. -/
theorem accumulate_books (hs : Watched held s)
    (h : accumulate params tick (receive tick s) = .ok heard) : heard.Holds held ∧
      Orders held heard.pendingOrders ∧ heard.lastTick = some tick ∧ heard.trades = s.trades ∧
      heard.extremeTracker = s.extremeTracker := by
  have hreceived : (receive tick s).Holds held := hs.holds.of_positions rfl
  obtain ⟨hbooks, hlast, -, horders⟩ := (accumulate_ends params tick hreceived).of_ok h
  refine ⟨hreceived.of_positions ?_, hs.orders.asked horders, hlast, ?_, ?_⟩
  · rw [hbooks]
  · rw [hbooks]
    rfl
  · rw [hbooks]
    rfl

theorem onTick_watched (hs : ∃ held, Watched held s) (h : onTick params s tick = .ok s') :
    ∃ held, Watched held s' := by
  obtain ⟨held, hs⟩ := hs
  obtain ⟨heard, left, entered, -, hleft, hentered, rfl, hheard⟩ := onTick_ok hs.holds h
  obtain ⟨hholds, horders, hlast, -⟩ := accumulate_books hs hheard
  obtain ⟨held₁, hholds₁, horders₁, hlast₁⟩ := hleft.orders hholds horders
  obtain ⟨held₂, hholds₂, horders₂, hlast₂⟩ := hentered.orders hholds₁ horders₁
  exact ⟨held₂, updateExtremes_watched hholds₂ horders₂ (hlast₂.trans (hlast₁.trans hlast))⟩

/-- The records after a round are bounded where those before are, and the exit filled in the
round is within the extremes. -/
theorem onTick_bounded_iff (hexact : params.executionSimulator.Exact) (hs : Watched held s)
    (h : onTick params s tick = .ok s') :
    (∀ t ∈ s'.trades, t.Bounded) ↔ (∀ t ∈ s.trades, t.Bounded) ∧ FillsWithin params tick s := by
  obtain ⟨heard, left, entered, -, hleft, hentered, rfl, hheard⟩ := onTick_ok hs.holds h
  obtain ⟨hholds, horders, -, htrades, htracker⟩ := accumulate_books hs hheard
  have hentry : entered.trades = left.trades := by
    cases hentered with
    | nothing => rfl
    | fills _ _ hopened =>
      have htrades := openPosition_trades hopened
      exact htrades
  have hwithin : FillsWithin params tick s ↔
      ∀ o ∈ heard.pendingOrders.pendingExit, o.fillableAt ≤ tick.timestamp →
        ∀ e, get heard.extremeTracker o.position.id = some e →
          Within params.config.pair o.position e
            (selectPrice tick o.position.buySell.opposite) := by
    constructor
    · exact fun hall => hall heard hheard
    · intro hall heard' hheard'
      obtain rfl := Except.ok.inj (hheard.symm.trans hheard')
      exact hall
  show (∀ t ∈ entered.trades, t.Bounded) ↔ _
  rw [hwithin, hentry]
  cases hleft with
  | nothing hwaits =>
    rw [htrades]
    refine (and_iff_left ?_).symm
    intro o ho hdue
    exact absurd (hwaits o ho) (not_lt.mpr hdue)
  | @fills o closed horder hdue hclosed =>
    obtain rfl := horders.exit o horder
    obtain ⟨e, he, -⟩ := hs.tracked _ rfl
    rw [← htracker] at he
    show (∀ t ∈ closed.trades, t.Bounded) ↔ _
    rw [closePosition_bounded_iff hexact (hholds.opened _ rfl) he hclosed, htrades]
    refine and_congr_right fun _ => ?_
    constructor
    · intro hprice o' ho' _ e' he'
      obtain rfl := Option.some.inj (horder.symm.trans ho')
      obtain rfl := Option.some.inj (he.symm.trans he')
      exact hprice
    · intro hall
      exact hall o horder hdue e he

theorem onTicks_bounded_iff (hexact : params.executionSimulator.Exact)
    (hs : ∃ held, Watched held s) {ticks : List Tick}
    (h : ticks.foldlM (onTick params) s = .ok s') :
    (∀ t ∈ s'.trades, t.Bounded) ↔ (∀ t ∈ s.trades, t.Bounded) ∧
      ∀ tick s₁, Reaches params ticks s tick s₁ → FillsWithin params tick s₁ := by
  induction ticks generalizing s with
  | nil =>
    cases h
    simp [reaches_nil]
  | cons first rest ih =>
    rw [List.foldlM_cons] at h
    obtain ⟨s₁, hround, h⟩ := bind_eq_ok.mp h
    obtain ⟨held, hwatched⟩ := hs
    rw [ih (onTick_watched ⟨held, hwatched⟩ hround) h, onTick_bounded_iff hexact hwatched hround,
      and_assoc]
    refine and_congr_right fun _ => ?_
    simp only [reaches_cons]
    constructor
    · intro hall tick s₂ hreaches
      obtain ⟨rfl, rfl⟩ | ⟨s₁', hround', hreaches⟩ := hreaches
      · exact hall.1
      · obtain rfl := Except.ok.inj (hround.symm.trans hround')
        exact hall.2 _ _ hreaches
    · intro hall
      exact ⟨hall _ _ (.inl ⟨rfl, rfl⟩),
        fun _ _ hreaches => hall _ _ (.inr ⟨s₁, hround, hreaches⟩)⟩

omit [SnapshotAdapter α] in
/-- The position held at the end of the stream is closed once, by the exit that waits for it
or by force. -/
theorem settles_bounded_iff (hexact : params.executionSimulator.Exact) (hs : Watched held s)
    {lastTick : Tick} {settled closed : EngineState α ω}
    (hsettled : settleWaiting params lastTick s.pendingOrders.pendingExit s.toEngineState =
      .ok settled)
    (hclosed : settled.positions.foldlM (forceClose params lastTick) settled = .ok closed) :
    (∀ t ∈ closed.trades, t.Bounded) ↔ (∀ t ∈ s.trades, t.Bounded) ∧
      ∀ p ∈ held, ∀ e, get s.extremeTracker p.id = some e →
        Within params.config.pair p e (selectPrice lastTick p.buySell.opposite) := by
  cases horder : s.pendingOrders.pendingExit with
  | none =>
    rw [horder] at hsettled
    cases hsettled
    cases held with
    | none =>
      rw [hs.holds.foldlM_none] at hclosed
      cases hclosed
      simp
    | some p =>
      rw [hs.holds.foldlM_some] at hclosed
      obtain ⟨forced, hforced, hclosed⟩ := bind_eq_ok.mp hclosed
      cases hclosed
      obtain ⟨e, he, -⟩ := hs.tracked p rfl
      show (∀ t ∈ forced.trades, t.Bounded) ↔ _
      rw [closePosition_bounded_iff hexact (hs.holds.opened p rfl) he hforced]
      simp [he]
  | some o =>
    rw [horder] at hsettled
    obtain rfl := hs.orders.exit o horder
    obtain ⟨left, hleft, hsettled⟩ := bind_eq_ok.mp hsettled
    cases hsettled
    -- nothing is left to be closed by force
    obtain ⟨record, hcloses⟩ := (closePosition_ends params o.command _
      (hs.holds.opened _ rfl) _ _ _ _).of_ok hleft
    rw [hcloses.forget_positions hs.holds] at hclosed
    cases hclosed
    obtain ⟨e, he, -⟩ := hs.tracked _ rfl
    show (∀ t ∈ left.trades, t.Bounded) ↔ _
    rw [closePosition_bounded_iff hexact (hs.holds.opened _ rfl) he hleft]
    simp [he]

omit [SnapshotAdapter α] in
/-- At the end of the stream the position held is closed at the last tick, which is tracked,
whether an exit waits for it or not. -/
theorem finish_bounded_iff (hexact : params.executionSimulator.Exact) (hs : Watched held s)
    (h : finish params s = .ok s') :
    (∀ t ∈ s'.trades, t.Bounded) ↔
      (∀ t ∈ s.trades, t.Bounded) ∧ ∀ lastTick ∈ s.lastTick, LastWithin params lastTick s := by
  unfold finish at h
  cases hlast : s.lastTick with
  | none =>
    rw [hlast] at h
    cases h
    simp
  | some lastTick =>
    rw [hlast] at h
    obtain ⟨settled, hsettled, h⟩ := bind_eq_ok.mp h
    obtain ⟨books, hbooks, h⟩ := bind_eq_ok.mp h
    cases h
    obtain ⟨closed, hclosed, hbooks⟩ := bind_eq_ok.mp hbooks
    cases hbooks
    show (∀ t ∈ closed.trades, t.Bounded) ↔ _
    rw [settles_bounded_iff hexact hs hsettled hclosed]
    refine and_congr_right fun _ => ?_
    unfold LastWithin
    rw [hs.holds.positions]
    constructor
    · intro hall t ht entry hentry _ e he
      obtain rfl : lastTick = t := Option.some.inj ht
      obtain ⟨p, hp, rfl⟩ := List.mem_map.mp hentry
      exact hall p (Option.mem_toList.mp hp) e he
    · intro hother p hp e he
      by_cases hunit : p.pair.pipUnit = params.config.pair.pipUnit
      · obtain ⟨e', he', hbounds⟩ := hs.tracked p hp
        obtain rfl := Option.some.inj (he.symm.trans he')
        obtain ⟨hlow, hhigh⟩ := hbounds lastTick hlast
        exact .of_mem hunit hlow hhigh
      · exact hother lastTick rfl (p.id, p) (List.mem_map_of_mem (Option.mem_toList.mpr hp)) hunit
          e he

/-- Every record of a run over ticks is bounded exactly when every exit is filled within the
extremes tracked before its tick, and so is a position of another pip at the end. -/
theorem run_bounded_iff (hexact : params.executionSimulator.Exact) {delayMs : Int} {adapter : α}
    {world : ω} {shared : SharedState} (h : run params delayMs adapter world shared = .ok s') :
    (∀ t ∈ s'.trades, t.Bounded) ↔
      (∀ tick s, Visits params delayMs adapter world shared tick s →
        FillsWithin params tick s) ∧
      ∀ s, runOver params delayMs adapter world shared
          (params.dataProvider.fetchTicks params.config.pair params.config.dateRange) = .ok s →
        ∀ lastTick ∈ s.lastTick, LastWithin params lastTick s := by
  obtain ⟨looped, hrun, hfinish⟩ := bind_eq_ok.mp h
  obtain ⟨start, hbegin, hloop⟩ := bind_eq_ok.mp hrun
  obtain ⟨adapter', hstate⟩ := begin_state hbegin
  have hstart : ∃ held, Watched held start := by
    rw [hstate]
    exact ⟨none, ⟨rfl, by simp⟩, Orders.new delayMs, by simp⟩
  obtain ⟨held, hlooped⟩ := onTicks_induction (P := fun s => ∃ held, Watched held s)
    (fun _ _ _ hs hround => onTick_watched hs hround) hstart hloop
  have hempty : ∀ t ∈ start.trades, t.Bounded := by
    rw [hstate]
    simp [EngineState.start]
  rw [finish_bounded_iff hexact hlooped hfinish, onTicks_bounded_iff hexact hstart hloop]
  simp only [visits_iff hbegin, hrun, Except.ok.injEq, forall_eq']
  exact and_congr_left fun _ => and_iff_right hempty

end TickEngine

/-! ## Both engines -/

/-- In every run that returns, over bars or over ticks, each result is between its excursions
exactly when each exit is filled at a price within the extremes tracked by then. -/
theorem engines_bounded_iff (params : EngineRunParams ω)
    (hexact : params.executionSimulator.Exact) (adapter : α) (world : ω) (shared : SharedState) :
    (∀ s', OhlcEngine.run params adapter world shared = .ok s' →
      ((∀ t ∈ s'.trades, t.Bounded) ↔
        (∀ currentCandle nextCandle s,
          OhlcEngine.Visits params adapter world shared currentCandle nextCandle s →
            OhlcEngine.ExitsWithin params currentCandle nextCandle s) ∧
        ∀ finalCandle s, OhlcEngine.Finishes params adapter world shared finalCandle s →
          OhlcEngine.ForcedWithin params finalCandle s)) ∧
      ∀ delayMs s', TickEngine.run params delayMs adapter world shared = .ok s' →
        ((∀ t ∈ s'.trades, t.Bounded) ↔
          (∀ tick s, TickEngine.Visits params delayMs adapter world shared tick s →
            TickEngine.FillsWithin params tick s) ∧
          ∀ s, TickEngine.runOver params delayMs adapter world shared
              (params.dataProvider.fetchTicks params.config.pair params.config.dateRange) =
                .ok s →
            ∀ lastTick ∈ s.lastTick, TickEngine.LastWithin params lastTick s) := by
  constructor
  · intro s' h
    exact OhlcEngine.run_bounded_iff hexact h
  · intro delayMs s' h
    exact TickEngine.run_bounded_iff hexact h

instance : DecidablePred TradeRecord.Bounded :=
  fun t => inferInstanceAs (Decidable (-t.maePips ≤ t.pnlPips ∧ t.pnlPips ≤ t.mfePips))

/-- In a market that does not move, each of the exits is within the extremes. -/
theorem engines_bounded_quiet :
    (∀ currentCandle nextCandle s,
      OhlcEngine.Visits (quietParams (idealExecutionSimulator countedIds) (quietBars 6) [])
        quietAdapter 0 ⟨some 100000, none⟩ currentCandle nextCandle s →
      OhlcEngine.ExitsWithin (quietParams (idealExecutionSimulator countedIds) (quietBars 6) [])
        currentCandle nextCandle s) ∧
    ∀ tick s,
      TickEngine.Visits (quietParams (idealExecutionSimulator countedIds) (quietBars 2)
        (quietTicks 120000 6)) 100 quietAdapter 0 ⟨some 100000, none⟩ tick s →
      TickEngine.FillsWithin (quietParams (idealExecutionSimulator countedIds) (quietBars 2)
        (quietTicks 120000 6)) tick s := by
  constructor
  · let params := quietParams (idealExecutionSimulator countedIds) (quietBars 6) []
    have hrun : ∃ s, OhlcEngine.run params quietAdapter 0 ⟨some 100000, none⟩ = .ok s ∧
        decide (∀ t ∈ s.trades, t.Bounded) = true := exists_ok (by decide +kernel)
    obtain ⟨s, hs, hbounded⟩ := hrun
    have hiff := (engines_bounded_iff params (idealExecutionSimulator_exact countedIds)
      quietAdapter 0 ⟨some 100000, none⟩).1 s hs
    exact (hiff.mp (of_decide_eq_true hbounded)).1
  · let params := quietParams (idealExecutionSimulator countedIds) (quietBars 2)
      (quietTicks 120000 6)
    have hrun : ∃ s, TickEngine.run params 100 quietAdapter 0 ⟨some 100000, none⟩ = .ok s ∧
        decide (∀ t ∈ s.trades, t.Bounded) = true := exists_ok (by decide +kernel)
    obtain ⟨s, hs, hbounded⟩ := hrun
    have hiff := (engines_bounded_iff params (idealExecutionSimulator_exact countedIds)
      quietAdapter 0 ⟨some 100000, none⟩).2 100 s hs
    exact (hiff.mp (of_decide_eq_true hbounded)).1

def jumpPrice : Price := ⟨165, by decide +kernel⟩

/-- A market that jumps at four minutes, while a position is open. -/
def jumpParams : EngineRunParams Nat :=
  quietParams (idealExecutionSimulator countedIds)
    (quietBars 4 ++ [flatCandle .oneMinute 240000 jumpPrice])
    (quietTicks 120000 2 ++ [⟨⟨166, by decide +kernel⟩, jumpPrice, 240000, by decide +kernel⟩])

/-- The exit is filled at the jump, which neither engine has tracked for the position. -/
theorem exists_result_beyond_excursions :
    jumpParams.executionSimulator.Exact ∧
    (∃ s, OhlcEngine.run jumpParams quietAdapter 0 ⟨some 100000, none⟩ = .ok s ∧
      ∃ t ∈ s.trades, t.mfePips < t.pnlPips) ∧
    ∃ s, TickEngine.run jumpParams 0 quietAdapter 0 ⟨some 100000, none⟩ = .ok s ∧
      ∃ t ∈ s.trades, t.mfePips < t.pnlPips := by
  refine ⟨idealExecutionSimulator_exact countedIds, ?_, ?_⟩
  · have hrun : ∃ s, OhlcEngine.run jumpParams quietAdapter 0 ⟨some 100000, none⟩ = .ok s ∧
        decide (∃ t ∈ s.trades, t.mfePips < t.pnlPips) = true := exists_ok (by decide +kernel)
    obtain ⟨s, hs, hbeyond⟩ := hrun
    exact ⟨s, hs, of_decide_eq_true hbeyond⟩
  · have hrun : ∃ s, TickEngine.run jumpParams 0 quietAdapter 0 ⟨some 100000, none⟩ = .ok s ∧
        decide (∃ t ∈ s.trades, t.mfePips < t.pnlPips) = true := exists_ok (by decide +kernel)
    obtain ⟨s, hs, hbeyond⟩ := hrun
    exact ⟨s, hs, of_decide_eq_true hbeyond⟩

end Luchida
