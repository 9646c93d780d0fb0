import Luchida.OhlcEngine
import Luchida.TickEngine

/- One round of each engine, case by case, for rounds that throw nothing. In the OHLC
   engine a position that the exit rule gives up is closed before the entry rule is asked
   (`OhlcEngine.Exits`, `OhlcEngine.Enters`). In the tick engine the rules only place
   orders (`TickEngine.Exits`, `TickEngine.Enters`), and the fills come after them
   (`TickEngine.FillsExit`, `TickEngine.FillsEntry`).

   `Visits` are the states in which the rounds of a run begin. What every round keeps holds
   in all of them (`loop_induction`, `onTicks_induction`). -/
namespace Luchida

open OrderedMap Throws EngineState

variable {α ω : Type} [SnapshotAdapter α]

/-! ## Bars -/

namespace OhlcEngine

variable {params : EngineRunParams ω} {s s' exited : EngineState α ω} {held : Option Position}
  {snapshot : MarketSnapshot} {currentCandle nextCandle : ConfirmedCandle}

/-- The state in which the rules are asked at a bar, and the snapshot they are shown. -/
def Asks (params : EngineRunParams ω) (currentCandle nextCandle : ConfirmedCandle)
    (s : EngineState α ω) (snapshot : MarketSnapshot) (asked : EngineState α ω) : Prop :=
  ∃ latestTick adapter, makeTick params.numbers currentCandle.close params.config.pair
      currentCandle = .ok latestTick ∧
    SnapshotAdapter.addCandleAndBuild s.adapter currentCandle latestTick nextCandle.openPrice =
      .ok (snapshot, adapter) ∧
    asked = updateOhlc currentCandle
      ({ s with adapter := adapter }.setRate currentCandle.close.value)

/-- What asking the exit rule about the position held does. -/
inductive Exits (params : EngineRunParams ω) (snapshot : MarketSnapshot)
    (currentCandle nextCandle : ConfirmedCandle) (s : EngineState α ω) :
    Option Position → EngineState α ω → Prop
  | flat : Exits params snapshot currentCandle nextCandle s none s
  | stays {p : Position} {world : ω} :
    params.exitRule s.shared snapshot p s.world = .ok (none, world) →
    Exits params snapshot currentCandle nextCandle s (some p) { s with world := world }
  | leaves {p : Position} {command : ExitCommand} {world : ω} {closed : EngineState α ω} :
    params.exitRule s.shared snapshot p s.world = .ok (some command, world) →
    ({ s with world := world } : EngineState α ω).closePosition params command p.id p
      nextCandle.openPrice nextCandle.openTime currentCandle.closeTime = .ok closed →
    Exits params snapshot currentCandle nextCandle s (some p) (closed.forget p.id)

/-- What the entry rule, asked where nothing is open, does. -/
inductive Enters (params : EngineRunParams ω) (snapshot : MarketSnapshot)
    (nextCandle : ConfirmedCandle) (s : EngineState α ω) : EngineState α ω → Prop
  | busy : s.positions ≠ [] → Enters params snapshot nextCandle s s
  | waits {world : ω} : s.positions = [] →
    params.entryRule s.shared snapshot s.world = .ok (none, world) →
    Enters params snapshot nextCandle s { s with world := world }
  | enters {command : EntryCommand} {world : ω} {s' : EngineState α ω} : s.positions = [] →
    params.entryRule s.shared snapshot s.world = .ok (some command, world) →
    ({ s with world := world } : EngineState α ω).openPosition params command
      nextCandle.openPrice nextCandle.openTime = .ok s' →
    Enters params snapshot nextCandle s s'

omit [SnapshotAdapter α] in
theorem evaluateExits_ok (hs : s.Holds held)
    (h : s.positions.foldlM (evaluateExit params snapshot currentCandle nextCandle) s =
      .ok exited) : Exits params snapshot currentCandle nextCandle s held exited := by
  cases held with
  | none =>
    rw [hs.foldlM_none] at h
    cases h
    exact .flat
  | some p =>
    rw [hs.foldlM_some] at h
    obtain ⟨⟨exitResult, world⟩, hrule, h⟩ := bind_eq_ok.mp h
    have hrule := mapError_eq_ok.mp hrule
    cases exitResult with
    | none =>
      cases h
      exact .stays hrule
    | some command =>
      obtain ⟨closed, hclosed, h⟩ := bind_eq_ok.mp h
      cases h
      exact .leaves hrule hclosed

omit [SnapshotAdapter α] in
theorem evaluateEntry_ok (h : evaluateEntry params snapshot nextCandle s = .ok s') :
    Enters params snapshot nextCandle s s' := by
  unfold evaluateEntry at h
  split at h
  · rename_i hnone
    have hnone := List.length_eq_zero_iff.mp hnone
    obtain ⟨⟨entryResult, world⟩, hrule, h⟩ := bind_eq_ok.mp h
    have hrule := mapError_eq_ok.mp hrule
    cases entryResult with
    | none =>
      cases h
      exact .waits hnone hrule
    | some command => exact .enters hnone hrule h
  · rename_i hsome
    cases h
    exact .busy fun hnil => hsome (by rw [hnil]; rfl)

/-- A round asks its rules in one state. -/
theorem Asks.unique {snapshot' : MarketSnapshot} {asked asked' : EngineState α ω}
    (h : Asks params currentCandle nextCandle s snapshot asked)
    (h' : Asks params currentCandle nextCandle s snapshot' asked') :
    snapshot = snapshot' ∧ asked = asked' := by
  obtain ⟨latestTick, adapter, htick, hbuild, rfl⟩ := h
  obtain ⟨latestTick', adapter', htick', hbuild', rfl⟩ := h'
  obtain rfl := Except.ok.inj (htick.symm.trans htick')
  obtain ⟨rfl, rfl⟩ := Prod.mk.inj (Except.ok.inj (hbuild.symm.trans hbuild'))
  exact ⟨rfl, rfl⟩

theorem onBar_ok (hs : s.Holds held) (h : onBar params currentCandle nextCandle s = .ok s') :
    ∃ snapshot asked exited, Asks params currentCandle nextCandle s snapshot asked ∧
      asked.Holds held ∧ Exits params snapshot currentCandle nextCandle asked held exited ∧
      Enters params snapshot nextCandle exited s' := by
  obtain ⟨latestTick, htick, h⟩ := bind_eq_ok.mp h
  obtain ⟨⟨snapshot, adapter⟩, hbuild, h⟩ := bind_eq_ok.mp h
  obtain ⟨exited, hexits, hentry⟩ := bind_eq_ok.mp h
  have hasked : (updateOhlc currentCandle
      ({ s with adapter := adapter }.setRate currentCandle.close.value)).Holds held :=
    hs.of_positions rfl
  exact ⟨snapshot, _, exited, ⟨latestTick, adapter, mapError_eq_ok.mp htick,
    mapError_eq_ok.mp hbuild, rfl⟩, hasked, evaluateExits_ok hasked hexits,
    evaluateEntry_ok hentry⟩

omit [SnapshotAdapter α] in
/-- At most one position is open after the exits, … -/
theorem Exits.holds (hs : s.Holds held)
    (h : Exits params snapshot currentCandle nextCandle s held exited) :
    ∃ held', exited.Holds held' := by
  cases h with
  | flat => exact ⟨_, hs⟩
  | stays hrule => exact ⟨_, hs.of_positions rfl⟩
  | @leaves p command world closed hrule hclosed =>
    have hs' : ({ s with world := world } : EngineState α ω).Holds (some p) := hs.of_positions rfl
    obtain ⟨record, hcloses⟩ := (closePosition_ends params command p.id (hs.opened p rfl) _ _ _
      _).of_ok hclosed
    exact ⟨none, hcloses.forget_positions hs', by simp⟩

omit [SnapshotAdapter α] in
/-- … and after the entry. -/
theorem Enters.holds (hs : s.Holds held) (h : Enters params snapshot nextCandle s s') :
    ∃ held', s'.Holds held' := by
  cases h with
  | busy hopen => exact ⟨held, hs⟩
  | waits hnone hrule => exact ⟨held, hs.of_positions rfl⟩
  | @enters command world _ hnone hrule hopened =>
    obtain ⟨p, hopens⟩ := (openPosition_ends params command _ _ _).of_ok hopened
    have hs' : ({ s with world := world } : EngineState α ω).Holds none := ⟨hnone, by simp⟩
    exact ⟨some p, hopens.holds hs'⟩

omit [SnapshotAdapter α] in
/-- A round shows the market once: the exits leave the adapter and the rate alone, … -/
theorem Exits.market (hs : s.Holds held)
    (h : Exits params snapshot currentCandle nextCandle s held exited) :
    exited.adapter = s.adapter ∧ exited.shared.marketState = s.shared.marketState := by
  cases h with
  | flat => exact ⟨rfl, rfl⟩
  | stays hrule => exact ⟨rfl, rfl⟩
  | leaves hrule hclosed =>
    obtain ⟨record, hcloses⟩ := (closePosition_ends params _ _ (hs.opened _ rfl) _ _ _
      _).of_ok hclosed
    rw [hcloses.state]
    exact ⟨rfl, rfl⟩

omit [SnapshotAdapter α] in
/-- … and so does the entry. -/
theorem Enters.market (h : Enters params snapshot nextCandle s s') :
    s'.adapter = s.adapter ∧ s'.shared.marketState = s.shared.marketState := by
  cases h with
  | busy hopen => exact ⟨rfl, rfl⟩
  | waits hnone hrule => exact ⟨rfl, rfl⟩
  | enters hnone hrule hopened =>
    obtain ⟨p, hopens⟩ := (openPosition_ends params _ _ _ _).of_ok hopened
    rw [hopens.state]
    exact ⟨rfl, rfl⟩

theorem onBar_holds (hs : ∃ held, s.Holds held)
    (h : onBar params currentCandle nextCandle s = .ok s') : ∃ held, s'.Holds held := by
  obtain ⟨held, hs⟩ := hs
  obtain ⟨snapshot, asked, exited, -, hasked, hexits, henters⟩ := onBar_ok hs h
  obtain ⟨held', hexited⟩ := hexits.holds hasked
  exact henters.holds hexited

/-- The run begins its loop over these bars in this state. -/
def Begins (params : EngineRunParams ω) (adapter : α) (world : ω) (shared : SharedState)
    (bars : List ConfirmedCandle) (s : EngineState α ω) : Prop :=
  ∃ candles additionalBundles, fetch params = .ok (candles, additionalBundles) ∧
    begin params candles additionalBundles adapter world shared = .ok s ∧
    bars = candles.drop params.config.warmupCount

/-- The loop over these bars, from `start`, reaches the round of a bar in this state. -/
def Reaches (params : EngineRunParams ω) (bars : List ConfirmedCandle) (start : EngineState α ω)
    (currentCandle nextCandle : ConfirmedCandle) (s : EngineState α ω) : Prop :=
  ∃ before after, bars = before ++ currentCandle :: nextCandle :: after ∧
    loop params (before ++ [currentCandle]) start = .ok s

/-- The run reaches the round of a bar in this state. -/
def Visits (params : EngineRunParams ω) (adapter : α) (world : ω) (shared : SharedState)
    (currentCandle nextCandle : ConfirmedCandle) (s : EngineState α ω) : Prop :=
  ∃ bars start, Begins params adapter world shared bars start ∧
    Reaches params bars start currentCandle nextCandle s

theorem reaches_short {bars : List ConfirmedCandle} {start : EngineState α ω}
    (h : bars.length < 2) : ¬ Reaches params bars start currentCandle nextCandle s := by
  rintro ⟨before, after, rfl, -⟩
  simp only [List.length_append, List.length_cons] at h
  omega

/-- A part that goes up to `c` begins as the whole does. -/
theorem head_eq {second c : ConfirmedCandle} {rest before after : List ConfirmedCandle}
    (h : second :: rest = before ++ c :: after) : ∃ tail, before ++ [c] = second :: tail := by
  cases before with
  | nil =>
    obtain ⟨rfl, -⟩ := List.cons.inj h
    exact ⟨[], rfl⟩
  | cons b before =>
    obtain ⟨rfl, -⟩ := List.cons.inj h
    exact ⟨before ++ [c], rfl⟩

/-- The rounds of a loop: the first, and those of the rest. -/
theorem reaches_cons {first second : ConfirmedCandle} {rest : List ConfirmedCandle}
    {start : EngineState α ω} :
    Reaches params (first :: second :: rest) start currentCandle nextCandle s ↔
      (currentCandle = first ∧ nextCandle = second ∧ s = start) ∨
        ∃ s₁, onBar params first second start = .ok s₁ ∧
          Reaches params (second :: rest) s₁ currentCandle nextCandle s := by
  constructor
  · rintro ⟨before, after, hbars, hloop⟩
    cases before with
    | nil =>
      cases hbars
      cases hloop
      exact .inl ⟨rfl, rfl, rfl⟩
    | cons b before =>
      rw [List.cons_append] at hbars hloop
      obtain ⟨rfl, htail⟩ := List.cons.inj hbars
      obtain ⟨tail, hhead⟩ := head_eq htail
      rw [hhead] at hloop
      obtain ⟨s₁, hround, hloop⟩ := bind_eq_ok.mp hloop
      exact .inr ⟨s₁, hround, before, after, htail, hhead ▸ hloop⟩
  · rintro (⟨rfl, rfl, rfl⟩ | ⟨s₁, hround, before, after, htail, hloop⟩)
    · exact ⟨[], rest, rfl, rfl⟩
    · refine ⟨first :: before, after, by rw [List.cons_append, htail], ?_⟩
      obtain ⟨tail, hhead⟩ := head_eq htail
      rw [List.cons_append, hhead]
      rw [hhead] at hloop
      exact bind_eq_ok.mpr ⟨s₁, hround, hloop⟩

/-- A round is of a bar and the one after it. -/
theorem Reaches.mem_zip {bars : List ConfirmedCandle} {start : EngineState α ω}
    (h : Reaches params bars start currentCandle nextCandle s) :
    (currentCandle, nextCandle) ∈ bars.zip bars.tail := by
  obtain ⟨before, after, rfl, -⟩ := h
  induction before with
  | nil => simp
  | cons b before ih =>
    cases before with
    | nil => simp
    | cons c before => exact List.mem_cons_of_mem _ ih

/-- A loop that ends has reached a round at each bar but the last. -/
theorem exists_reaches {bars : List ConfirmedCandle} {start : EngineState α ω}
    (h : loop params bars start = .ok s')
    (hbars : (currentCandle, nextCandle) ∈ bars.zip bars.tail) :
    ∃ s, Reaches params bars start currentCandle nextCandle s := by
  induction bars generalizing start with
  | nil => simp at hbars
  | cons first rest ih =>
    cases rest with
    | nil => simp at hbars
    | cons second rest =>
      obtain ⟨s₁, hround, h⟩ := bind_eq_ok.mp h
      simp only [reaches_cons]
      rcases List.mem_cons.mp hbars with hfirst | hrest
      · obtain ⟨rfl, rfl⟩ := Prod.mk.inj hfirst
        exact ⟨start, .inl ⟨rfl, rfl, rfl⟩⟩
      · obtain ⟨s, hreaches⟩ := ih h hrest
        exact ⟨s, .inr ⟨s₁, hround, hreaches⟩⟩

/-- What the rounds of a loop keep is kept by the loop. -/
theorem loop_induction {P : EngineState α ω → Prop} {bars : List ConfirmedCandle}
    (hround : ∀ currentCandle ∈ bars, ∀ nextCandle s s', P s →
      onBar params currentCandle nextCandle s = .ok s' → P s')
    (hs : P s) (h : loop params bars s = .ok s') : P s' := by
  induction bars generalizing s with
  | nil =>
    cases h
    exact hs
  | cons current rest ih =>
    cases rest with
    | nil =>
      cases h
      exact hs
    | cons next rest =>
      obtain ⟨s₁, hround₁, h⟩ := bind_eq_ok.mp h
      exact ih (fun c hc => hround c (List.mem_cons_of_mem _ hc))
        (hround current (by simp) next s s₁ hs hround₁) h

section
variable {adapter : α} {world : ω} {shared : SharedState} {bars : List ConfirmedCandle}
  {start : EngineState α ω}

theorem Begins.state (h : Begins params adapter world shared bars start) :
    ∃ adapter', start = .start adapter' world shared := by
  obtain ⟨candles, bundles, -, hbegin, -⟩ := h
  obtain ⟨adapter', -, hbegin⟩ := bind_eq_ok.mp hbegin
  cases hbegin
  exact ⟨adapter', rfl⟩

theorem Begins.holds (h : Begins params adapter world shared bars start) :
    ∃ held, start.Holds held := by
  obtain ⟨adapter', rfl⟩ := h.state
  exact ⟨none, rfl, by simp⟩

/-- A run begins in one way, … -/
theorem Begins.unique {bars' : List ConfirmedCandle} {start' : EngineState α ω}
    (h : Begins params adapter world shared bars start)
    (h' : Begins params adapter world shared bars' start') : bars = bars' ∧ start = start' := by
  obtain ⟨candles, bundles, hfetch, hbegin, rfl⟩ := h
  obtain ⟨candles', bundles', hfetch', hbegin', rfl⟩ := h'
  obtain ⟨rfl, rfl⟩ := Prod.mk.inj (Except.ok.inj (hfetch.symm.trans hfetch'))
  exact ⟨rfl, Except.ok.inj (hbegin.symm.trans hbegin')⟩

/-- … so the rounds that it visits are those that its loop reaches. -/
theorem Begins.visits_iff (h : Begins params adapter world shared bars start) :
    Visits params adapter world shared currentCandle nextCandle s ↔
      Reaches params bars start currentCandle nextCandle s := by
  constructor
  · intro hvisits
    obtain ⟨bars', start', hbegins, hreaches⟩ := hvisits
    obtain ⟨rfl, rfl⟩ := h.unique hbegins
    exact hreaches
  · intro hreaches
    exact ⟨bars, start, h, hreaches⟩

/-- A run that ends has begun and gone through its loop. -/
theorem exists_loop (h : run params adapter world shared = .ok s') :
    ∃ bars start looped, Begins params adapter world shared bars start ∧
      loop params bars start = .ok looped := by
  obtain ⟨⟨candles, bundles⟩, hfetch, h⟩ := bind_eq_ok.mp h
  obtain ⟨start, hbegin, h⟩ := bind_eq_ok.mp h
  obtain ⟨looped, hloop, -⟩ := bind_eq_ok.mp h
  exact ⟨_, start, looped, ⟨candles, bundles, hfetch, hbegin, rfl⟩, hloop⟩

theorem loop_holds (hs : ∃ held, s.Holds held) (h : loop params bars s = .ok s') :
    ∃ held, s'.Holds held :=
  loop_induction (P := fun s => ∃ held, s.Holds held)
    (fun _ _ _ _ _ hs hround => onBar_holds hs hround) hs h

theorem Visits.holds (h : Visits params adapter world shared currentCandle nextCandle s) :
    ∃ held, s.Holds held := by
  obtain ⟨bars, start, hbegins, before, after, -, hloop⟩ := h
  exact loop_holds hbegins.holds hloop

/-- A run that ends has visited a round at each bar of its loop but the last. -/
theorem exists_visits (h : run params adapter world shared = .ok s')
    (hbegins : Begins params adapter world shared bars start)
    (hbars : (currentCandle, nextCandle) ∈ bars.zip bars.tail) :
    ∃ s, Visits params adapter world shared currentCandle nextCandle s := by
  obtain ⟨bars', start', looped, hbegins', hloop⟩ := exists_loop h
  obtain ⟨rfl, rfl⟩ := hbegins.unique hbegins'
  obtain ⟨s, hreaches⟩ := exists_reaches hloop hbars
  exact ⟨s, hbegins.visits_iff.mpr hreaches⟩

end

end OhlcEngine

/-! ## Ticks -/

namespace TickEngine

variable {params : EngineRunParams ω} {s s' exited : TickState α ω} {held : Option Position}
  {snapshot : MarketSnapshot} {tick : Tick}

/-- The state in which the rules are asked at a tick that confirms a bar, and the snapshot
they are shown. -/
def Asks (tick : Tick) (s : TickState α ω) (snapshot : MarketSnapshot)
    (asked : TickState α ω) : Prop :=
  ∃ accumulator confirmed adapter,
    s.accumulator.accumulate tick = .ok (.confirmed, accumulator) ∧
    accumulator.lastConfirmed = some confirmed ∧
    SnapshotAdapter.addCandleAndBuild s.adapter confirmed tick tick.bid =
      .ok (snapshot, adapter) ∧
    asked = { receive tick s with accumulator := accumulator, adapter := adapter }

/-- What asking the exit rule about the position held does. -/
inductive Exits (params : EngineRunParams ω) (snapshot : MarketSnapshot) (tick : Tick)
    (s : TickState α ω) : Option Position → TickState α ω → Prop
  | flat : Exits params snapshot tick s none s
  | stays {p : Position} {world : ω} :
    params.exitRule s.shared snapshot p s.world = .ok (none, world) →
    Exits params snapshot tick s (some p) { s with world := world }
  | leaves {p : Position} {command : ExitCommand} {world : ω} :
    params.exitRule s.shared snapshot p s.world = .ok (some command, world) →
    s.pendingOrders.pendingExit = none →
    Exits params snapshot tick s (some p) { s with
      world := world
      pendingOrders := { s.pendingOrders with
        pendingExit := some ⟨command, p, tick.timestamp + s.pendingOrders.delayMs⟩ }
      decisions := s.decisions ++ [.exit (s.tickCount - 1) tick.timestamp command] }

/-- What the entry rule, asked where nothing is open and nothing waits, does. -/
inductive Enters (params : EngineRunParams ω) (snapshot : MarketSnapshot) (tick : Tick)
    (s : TickState α ω) : TickState α ω → Prop
  | busy : s.positions ≠ [] ∨ s.pendingOrders.hasAnyPending = true →
    Enters params snapshot tick s s
  | waits {world : ω} : s.positions = [] →
    params.entryRule s.shared snapshot s.world = .ok (none, world) →
    Enters params snapshot tick s { s with world := world }
  | enters {command : EntryCommand} {world : ω} : s.positions = [] →
    s.pendingOrders.hasAnyPending = false →
    params.entryRule s.shared snapshot s.world = .ok (some command, world) →
    Enters params snapshot tick s { s with
      world := world
      pendingOrders := { s.pendingOrders with
        pendingEntry := some ⟨command, tick.timestamp + s.pendingOrders.delayMs⟩ }
      decisions := s.decisions ++ [.entry (s.tickCount - 1) tick.timestamp command] }

/-- What filling the exit that is due does. -/
inductive FillsExit (params : EngineRunParams ω) (tick : Tick) (s : TickState α ω) :
    TickState α ω → Prop
  | nothing : (∀ o ∈ s.pendingOrders.pendingExit, tick.timestamp < o.fillableAt) →
    FillsExit params tick s s
  | fills {o : PendingExit} {closed : EngineState α ω} : s.pendingOrders.pendingExit = some o →
    o.fillableAt ≤ tick.timestamp →
    s.toEngineState.closePosition params o.command o.position.id o.position
      (selectPrice tick o.position.buySell.opposite) tick.timestamp tick.timestamp = .ok closed →
    FillsExit params tick s { s with
      toEngineState := closed.forget o.position.id
      pendingOrders := { s.pendingOrders with pendingExit := none } }

/-- What filling the entry that is due does. -/
inductive FillsEntry (params : EngineRunParams ω) (tick : Tick) (s : TickState α ω) :
    TickState α ω → Prop
  | nothing : (∀ o ∈ s.pendingOrders.pendingEntry, tick.timestamp < o.fillableAt) →
    FillsEntry params tick s s
  | fills {o : PendingEntry} {opened : EngineState α ω} : s.pendingOrders.pendingEntry = some o →
    o.fillableAt ≤ tick.timestamp →
    s.toEngineState.openPosition params o.command (selectPrice tick o.command.buySell)
      tick.timestamp = .ok opened →
    FillsEntry params tick s { s with
      toEngineState := opened
      pendingOrders := { s.pendingOrders with pendingEntry := none } }

/-- What feeding the tick to the accumulator does: nothing more, or the rules are asked. -/
inductive Hears (params : EngineRunParams ω) (tick : Tick) (s : TickState α ω)
    (held : Option Position) : TickState α ω → Prop
  | quiet (accumulator : CandleAccumulator) : (∀ snapshot asked, ¬ Asks tick s snapshot asked) →
    Hears params tick s held { receive tick s with accumulator := accumulator }
  | asks {snapshot : MarketSnapshot} {asked exited s' : TickState α ω} :
    Asks tick s snapshot asked → Exits params snapshot tick asked held exited →
    Enters params snapshot tick exited s' → Hears params tick s held s'

omit [SnapshotAdapter α] in
theorem evaluateExits_ok (hs : s.Holds held)
    (h : s.positions.foldlM (evaluateExit params snapshot tick) s = .ok exited) :
    Exits params snapshot tick s held exited := by
  cases held with
  | none =>
    rw [hs.foldlM_none] at h
    cases h
    exact .flat
  | some p =>
    rw [hs.foldlM_some] at h
    obtain ⟨⟨exitResult, world⟩, hrule, h⟩ := bind_eq_ok.mp h
    have hrule := mapError_eq_ok.mp hrule
    cases exitResult with
    | none =>
      cases h
      exact .stays hrule
    | some command =>
      obtain ⟨pendingOrders, haccept, h⟩ := bind_eq_ok.mp h
      cases h
      unfold PendingOrderManager.acceptExitOrder at haccept
      split at haccept
      · cases haccept
      · rename_i hnone
        cases haccept
        exact .leaves hrule (by simpa using hnone)

omit [SnapshotAdapter α] in
theorem evaluateEntry_ok (h : evaluateEntry params snapshot tick s = .ok s') :
    Enters params snapshot tick s s' := by
  unfold evaluateEntry at h
  split at h
  · rename_i hfree
    obtain ⟨hnone, hpending⟩ := hfree
    have hnone := List.length_eq_zero_iff.mp hnone
    obtain ⟨⟨entryResult, world⟩, hrule, h⟩ := bind_eq_ok.mp h
    have hrule := mapError_eq_ok.mp hrule
    cases entryResult with
    | none =>
      cases h
      exact .waits hnone hrule
    | some command =>
      obtain ⟨pendingOrders, haccept, h⟩ := bind_eq_ok.mp h
      cases h
      unfold PendingOrderManager.acceptEntryOrder at haccept
      split at haccept
      · cases haccept
      · cases haccept
        exact .enters hnone hpending hrule
  · rename_i hbusy
    cases h
    rw [not_and_or, Bool.not_eq_false, List.length_eq_zero_iff] at hbusy
    exact .busy hbusy

omit [SnapshotAdapter α] in
theorem fillExit_ok (h : fillExit params tick s = .ok s') : FillsExit params tick s s' := by
  unfold fillExit PendingOrderManager.checkExitFill at h
  cases horder : s.pendingOrders.pendingExit with
  | none =>
    rw [horder] at h
    cases h
    exact .nothing (by simp [horder])
  | some o =>
    rw [horder] at h
    dsimp only at h
    by_cases hlt : tick.timestamp < o.fillableAt
    · rw [if_pos hlt] at h
      cases h
      exact .nothing (by simpa [horder] using hlt)
    · rw [if_neg hlt] at h
      obtain ⟨books, hsettle, h⟩ := bind_eq_ok.mp h
      obtain ⟨closed, hclosed, hsettle⟩ := bind_eq_ok.mp hsettle
      cases hsettle
      cases h
      exact .fills horder (not_lt.mp hlt) hclosed

omit [SnapshotAdapter α] in
theorem fillEntry_ok (h : fillEntry params tick s = .ok s') : FillsEntry params tick s s' := by
  unfold fillEntry PendingOrderManager.checkEntryFill at h
  cases horder : s.pendingOrders.pendingEntry with
  | none =>
    rw [horder] at h
    cases h
    exact .nothing (by simp [horder])
  | some o =>
    rw [horder] at h
    dsimp only at h
    by_cases hlt : tick.timestamp < o.fillableAt
    · rw [if_pos hlt] at h
      cases h
      exact .nothing (by simpa [horder] using hlt)
    · rw [if_neg hlt] at h
      obtain ⟨opened, hopened, h⟩ := bind_eq_ok.mp h
      cases h
      exact .fills horder (not_lt.mp hlt) hopened

theorem accumulate_ok (hs : s.Holds held)
    (h : accumulate params tick (receive tick s) = .ok s') : Hears params tick s held s' := by
  obtain ⟨⟨event, accumulator⟩, haccumulate, h⟩ := bind_eq_ok.mp h
  have hacc : s.accumulator.accumulate tick = .ok (event, accumulator) :=
    mapError_eq_ok.mp haccumulate
  clear haccumulate
  dsimp only at h
  split at h
  · rename_i confirmed hlast
    obtain ⟨⟨snapshot, adapter⟩, hbuild, h⟩ := bind_eq_ok.mp h
    obtain ⟨exited, hexits, hentry⟩ := bind_eq_ok.mp h
    exact .asks ⟨accumulator, confirmed, adapter, hacc, hlast, mapError_eq_ok.mp hbuild, rfl⟩
      (evaluateExits_ok (hs.of_positions rfl) hexits) (evaluateEntry_ok hentry)
  · rename_i hquiet
    cases h
    refine .quiet accumulator fun snapshot asked hasks => ?_
    obtain ⟨accumulator', confirmed, -, hacc', hlast, -⟩ := hasks
    rw [hacc] at hacc'
    cases hacc'
    exact hquiet confirmed rfl hlast

/-- A round: the rules, the exit, the entry, and the extremes. -/
theorem onTick_ok (hs : s.Holds held) (h : onTick params s tick = .ok s') :
    ∃ heard left entered, Hears params tick s held heard ∧ FillsExit params tick heard left ∧
      FillsEntry params tick left entered ∧ s' = updateExtremes tick entered ∧
      accumulate params tick (receive tick s) = .ok heard := by
  obtain ⟨heard, hheard, h⟩ := bind_eq_ok.mp h
  obtain ⟨left, hleft, h⟩ := bind_eq_ok.mp h
  obtain ⟨entered, hentered, h⟩ := bind_eq_ok.mp h
  cases h
  exact ⟨heard, left, entered, accumulate_ok hs hheard, fillExit_ok hleft, fillEntry_ok hentered,
    rfl, hheard⟩

/-- The loop over these ticks, from `start`, reaches the round of a tick in this state. -/
def Reaches (params : EngineRunParams ω) (ticks : List Tick) (start : TickState α ω)
    (tick : Tick) (s : TickState α ω) : Prop :=
  ∃ past rest, ticks = past ++ tick :: rest ∧ past.foldlM (onTick params) start = .ok s

/-- The run reaches the round of a tick in this state. -/
def Visits (params : EngineRunParams ω) (delayMs : Int) (adapter : α) (world : ω)
    (shared : SharedState) (tick : Tick) (s : TickState α ω) : Prop :=
  ∃ start, begin params delayMs adapter world shared = .ok start ∧
    Reaches params (params.dataProvider.fetchTicks params.config.pair params.config.dateRange)
      start tick s

theorem reaches_nil {start : TickState α ω} : ¬ Reaches params [] start tick s := by
  rintro ⟨past, rest, hticks, -⟩
  simp at hticks

/-- The rounds of a loop: the first, and those of the rest. -/
theorem reaches_cons {first : Tick} {ticks : List Tick} {start : TickState α ω} :
    Reaches params (first :: ticks) start tick s ↔ (tick = first ∧ s = start) ∨
      ∃ s₁, onTick params start first = .ok s₁ ∧ Reaches params ticks s₁ tick s := by
  constructor
  · rintro ⟨past, rest, hticks, hpast⟩
    cases past with
    | nil =>
      cases hticks
      cases hpast
      exact .inl ⟨rfl, rfl⟩
    | cons t past =>
      obtain ⟨rfl, hrest⟩ := List.cons.inj hticks
      rw [List.foldlM_cons] at hpast
      obtain ⟨s₁, hround, hpast⟩ := bind_eq_ok.mp hpast
      exact .inr ⟨s₁, hround, past, rest, hrest, hpast⟩
  · rintro (⟨rfl, rfl⟩ | ⟨s₁, hround, past, rest, hticks, hpast⟩)
    · exact ⟨[], ticks, rfl, rfl⟩
    · refine ⟨first :: past, rest, by rw [hticks]; rfl, ?_⟩
      rw [List.foldlM_cons]
      exact bind_eq_ok.mpr ⟨s₁, hround, hpast⟩

theorem begin_state {delayMs : Int} {adapter : α} {world : ω} {shared : SharedState}
    (h : begin params delayMs adapter world shared = .ok s) :
    ∃ adapter', s = {
      toEngineState := .start adapter' world shared
      accumulator := .new params.config.timeframe
      pendingOrders := .new delayMs
      lastTick := none
      tickCount := 0
      decisions := [] } := by
  obtain ⟨warmupCandles, -, h⟩ := bind_eq_ok.mp h
  obtain ⟨adapter', -, h⟩ := bind_eq_ok.mp h
  cases h
  exact ⟨adapter', rfl⟩

/-- Once a run over ticks has begun, the rounds that it visits are those that its loop
reaches. -/
theorem visits_iff {delayMs : Int} {adapter : α} {world : ω} {shared : SharedState}
    {start : TickState α ω} (hbegin : begin params delayMs adapter world shared = .ok start) :
    Visits params delayMs adapter world shared tick s ↔
      Reaches params (params.dataProvider.fetchTicks params.config.pair params.config.dateRange)
        start tick s := by
  constructor
  · intro hvisits
    obtain ⟨start', hbegin', hreaches⟩ := hvisits
    obtain rfl := Except.ok.inj (hbegin.symm.trans hbegin')
    exact hreaches
  · intro hreaches
    exact ⟨start, hbegin, hreaches⟩

/-- What the rounds of a loop keep holds after it. -/
theorem onTicks_induction {P : TickState α ω → Prop}
    (hround : ∀ tick s s', P s → onTick params s tick = .ok s' → P s') {ticks : List Tick}
    (hs : P s) (h : ticks.foldlM (onTick params) s = .ok s') : P s' := by
  induction ticks generalizing s with
  | nil =>
    cases h
    exact hs
  | cons tick rest ih =>
    rw [List.foldlM_cons] at h
    obtain ⟨s₁, hround₁, h⟩ := bind_eq_ok.mp h
    exact ih (hround tick s s₁ hs hround₁) h

end TickEngine

end Luchida
