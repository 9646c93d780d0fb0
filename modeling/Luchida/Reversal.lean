import Luchida.EngineRounds
import Luchida.ExecutionSimulators

/- Reversals on one bar. Both engines ask the exit rule before the entry rule, so that a bar
   on which both fire turns the position round. The OHLC engine has closed the position by
   the time it looks whether one is open. The tick engine has only ordered the exit: the
   position is still in the map, the exit still waits, and each of the two keeps the entry
   rule from being asked. The exit is filled at the same tick, too late for the bar.

   So with no delay the two agree exactly on the runs in which the rules never fire on the
   same bar (`engines_followRules_iff`). -/
namespace Luchida

open OrderedMap Throws EngineState

variable {α ω : Type} [SnapshotAdapter α]

/-! ## What the rules say at a bar -/

/-- The exit rule gives up the position held. -/
def ExitFires (params : EngineRunParams ω) (snapshot : MarketSnapshot)
    (s : EngineState α ω) : Prop :=
  ∃ entry ∈ s.positions, ∃ command world,
    params.exitRule s.shared snapshot entry.2 s.world = .ok (some command, world)

def EntryFires (params : EngineRunParams ω) (snapshot : MarketSnapshot)
    (s : EngineState α ω) : Prop :=
  ∃ command world, params.entryRule s.shared snapshot s.world = .ok (some command, world)

/-- After a bar a position is open exactly when the one held did not exit, or the entry rule
fires on the state that the exits leave. -/
def FollowsRules (params : EngineRunParams ω) (snapshot : MarketSnapshot)
    (asked exited after : EngineState α ω) : Prop :=
  after.positions ≠ [] ↔
    (asked.positions ≠ [] ∧ ¬ ExitFires params snapshot asked) ∨
      EntryFires params snapshot exited

section
omit [SnapshotAdapter α]

variable {params : EngineRunParams ω} {snapshot : MarketSnapshot} {s : EngineState α ω}
  {p : Position} {world : ω}

theorem exitFires_none (hs : s.Holds none) : ¬ ExitFires params snapshot s := by
  rintro ⟨entry, hentry, -⟩
  simp [hs.positions] at hentry

theorem exitFires_some (hs : s.Holds (some p)) {command : ExitCommand}
    (h : params.exitRule s.shared snapshot p s.world = .ok (some command, world)) :
    ExitFires params snapshot s :=
  ⟨(p.id, p), by simp [hs.positions], command, world, h⟩

theorem not_exitFires (hs : s.Holds (some p))
    (h : params.exitRule s.shared snapshot p s.world = .ok (none, world)) :
    ¬ ExitFires params snapshot s := by
  rintro ⟨entry, hentry, command, world', hfires⟩
  obtain rfl : entry = (p.id, p) := by simpa [hs.positions] using hentry
  rw [h] at hfires
  cases hfires

theorem not_entryFires (h : params.entryRule s.shared snapshot s.world = .ok (none, world)) :
    ¬ EntryFires params snapshot s := by
  rintro ⟨command, world', hfires⟩
  rw [h] at hfires
  cases hfires

theorem EngineState.Holds.ne_nil (hs : s.Holds (some p)) : s.positions ≠ [] := by
  simp [hs.positions]

end

/-! ## Bars -/

namespace OhlcEngine

variable {params : EngineRunParams ω} {s s' asked exited : EngineState α ω}
  {held : Option Position} {snapshot : MarketSnapshot} {currentCandle nextCandle : ConfirmedCandle}

/-- The states a round goes through: the rules are asked, the exits are done, the round is
over. -/
structure Processes (params : EngineRunParams ω) (currentCandle nextCandle : ConfirmedCandle)
    (s : EngineState α ω) (snapshot : MarketSnapshot) (asked exited s' : EngineState α ω) :
    Prop where
  asks : Asks params currentCandle nextCandle s snapshot asked
  exits : asked.positions.foldlM (evaluateExit params snapshot currentCandle nextCandle) asked =
    .ok exited
  round : onBar params currentCandle nextCandle s = .ok s'

theorem Processes.entry (h : Processes params currentCandle nextCandle s snapshot asked exited s') :
    evaluateEntry params snapshot nextCandle exited = .ok s' := by
  obtain ⟨⟨latestTick, adapter, htick, hbuild, rfl⟩, hexits, hround⟩ := h
  unfold onBar at hround
  rw [htick, mapError_ok, ok_bind, hbuild, mapError_ok, ok_bind] at hround
  dsimp only at hround
  rw [hexits, ok_bind] at hround
  exact hround

omit [SnapshotAdapter α] in
/-- With nothing open a position is opened where the rule fires. -/
theorem Enters.ne_nil_iff (hs : s.Holds none) (h : Enters params snapshot nextCandle s s') :
    s'.positions ≠ [] ↔ EntryFires params snapshot s := by
  cases h with
  | busy hopen => exact absurd hs.positions hopen
  | waits hnone hrule => exact iff_of_false (by simp [hnone]) (not_entryFires hrule)
  | @enters command world _ hnone hrule hopened =>
    have hs' : ({ s with world := world } : EngineState α ω).Holds none := ⟨hnone, by simp⟩
    obtain ⟨p, hopens⟩ := (openPosition_ends params command _ _ _).of_ok hopened
    exact iff_of_true (hopens.holds hs').ne_nil ⟨command, world, hrule⟩

/-- The OHLC engine follows the rules. -/
theorem Processes.followsRules (hs : s.Holds held)
    (h : Processes params currentCandle nextCandle s snapshot asked exited s') :
    FollowsRules params snapshot asked exited s' := by
  have hasked : asked.Holds held := by
    obtain ⟨latestTick, adapter, -, -, rfl⟩ := h.asks
    exact hs.of_positions rfl
  have henters := evaluateEntry_ok h.entry
  cases evaluateExits_ok hasked h.exits with
  | flat =>
    rw [FollowsRules, henters.ne_nil_iff hasked]
    simp [hasked.positions]
  | @stays p world hrule =>
    have hstays := not_exitFires hasked hrule
    have hopen : s'.positions ≠ [] := by
      cases henters with
      | busy hopen => exact hopen
      | waits hnone => exact absurd hnone hasked.ne_nil
      | enters hnone => exact absurd hnone hasked.ne_nil
    exact iff_of_true hopen (.inl ⟨hasked.ne_nil, hstays⟩)
  | @leaves p command world closed hrule hclosed =>
    have hasked' : ({ asked with world := world } : EngineState α ω).Holds (some p) :=
      hasked.of_positions rfl
    obtain ⟨record, hcloses⟩ := (closePosition_ends params command p.id (hasked.opened p rfl) _ _
      _ _).of_ok hclosed
    -- the entry rule finds nothing open
    have hexited : (closed.forget p.id).Holds none :=
      ⟨hcloses.forget_positions hasked', by simp⟩
    rw [FollowsRules, henters.ne_nil_iff hexited]
    simp [exitFires_some hasked hrule]

end OhlcEngine

/-! ## Ticks -/

namespace TickEngine

variable {params : EngineRunParams ω} {s s' asked exited heard left entered : TickState α ω}
  {held : Option Position} {snapshot : MarketSnapshot} {tick : Tick}

/-- The states a round that confirms a bar goes through. -/
structure Processes (params : EngineRunParams ω) (tick : Tick) (s : TickState α ω)
    (snapshot : MarketSnapshot) (asked exited s' : TickState α ω) : Prop where
  asks : Asks tick s snapshot asked
  exits : asked.positions.foldlM (evaluateExit params snapshot tick) asked = .ok exited
  round : onTick params s tick = .ok s'

/-- Between the rounds of a run without a delay nothing waits. -/
structure Idle (held : Option Position) (s : TickState α ω) : Prop where
  holds : s.Holds held
  orders : s.pendingOrders = .new 0

section
omit [SnapshotAdapter α]

/-- With no orders nothing is filled. -/
theorem fills_nothing (hexit : FillsExit params tick heard left)
    (hentry : FillsEntry params tick left entered) (h : Idle held heard) : Idle held entered := by
  cases hexit with
  | fills horder => simp [h.orders, PendingOrderManager.new] at horder
  | nothing =>
    cases hentry with
    | fills horder => simp [h.orders, PendingOrderManager.new] at horder
    | nothing => exact h

/-- An exit without a delay is filled at its tick. -/
theorem fills_exit (hexit : FillsExit params tick heard left)
    (hentry : FillsEntry params tick left entered) {p : Position} {command : ExitCommand}
    (hs : heard.Holds (some p))
    (horders : heard.pendingOrders = ⟨0, none, some ⟨command, p, tick.timestamp + 0⟩⟩) :
    Idle none entered := by
  cases hexit with
  | nothing hwaits =>
    have hlt := hwaits ⟨command, p, tick.timestamp + 0⟩ (by rw [horders]; rfl)
    simp at hlt
  | @fills o closed horder hdue hclosed =>
    rw [horders] at horder
    obtain rfl := Option.some.inj horder
    obtain ⟨record, hcloses⟩ := (closePosition_ends params command p.id (hs.opened p rfl) _ _ _
      _).of_ok hclosed
    refine fills_nothing (.nothing (by simp)) hentry ⟨⟨hcloses.forget_positions hs, by simp⟩, ?_⟩
    rw [horders]
    rfl

/-- So is an entry. -/
theorem fills_entry (hexit : FillsExit params tick heard left)
    (hentry : FillsEntry params tick left entered) {command : EntryCommand}
    (hs : heard.Holds none)
    (horders : heard.pendingOrders = ⟨0, some ⟨command, tick.timestamp + 0⟩, none⟩) :
    ∃ p, Idle (some p) entered := by
  cases hexit with
  | fills horder => simp [horders] at horder
  | nothing =>
    cases hentry with
    | nothing hwaits =>
      have hlt := hwaits ⟨command, tick.timestamp + 0⟩ (by rw [horders]; rfl)
      simp at hlt
    | @fills o opened horder hdue hopened =>
      rw [horders] at horder
      obtain rfl := Option.some.inj horder
      obtain ⟨p, hopens⟩ := (openPosition_ends params command _ _ _).of_ok hopened
      refine ⟨p, hopens.holds hs, ?_⟩
      rw [horders]
      rfl

end

/-- What a round without a delay makes of the position held: it stays, it is closed and the
entry rule is not asked, or nothing is held and the entry rule decides. -/
inductive Turns (params : EngineRunParams ω) (snapshot : MarketSnapshot)
    (asked exited s' : TickState α ω) : Option Position → Prop
  | stays {p : Position} : ¬ ExitFires params snapshot asked.toEngineState → Idle (some p) s' →
    Turns params snapshot asked exited s' (some p)
  | closes {p : Position} : ExitFires params snapshot asked.toEngineState → Idle none s' →
    Turns params snapshot asked exited s' (some p)
  | waits : ¬ EntryFires params snapshot exited.toEngineState → Idle none s' →
    Turns params snapshot asked exited s' none
  | opens {p : Position} : EntryFires params snapshot exited.toEngineState → Idle (some p) s' →
    Turns params snapshot asked exited s' none

omit [SnapshotAdapter α] in
theorem turns (hasked : Idle held asked) (hexits : Exits params snapshot tick asked held exited)
    (henters : Enters params snapshot tick exited heard)
    (hexit : FillsExit params tick heard left) (hentry : FillsEntry params tick left entered) :
    Turns params snapshot asked exited (updateExtremes tick entered) held := by
  cases hexits with
  | flat =>
    cases henters with
    | busy hbusy => simp [hasked.holds.positions, hasked.orders, PendingOrderManager.hasAnyPending,
        PendingOrderManager.new] at hbusy
    | waits hnone hrule =>
      have hidle := fills_nothing hexit hentry
        ⟨hasked.holds.of_positions rfl, hasked.orders⟩
      exact .waits (not_entryFires hrule) ⟨hidle.holds.of_positions rfl, hidle.orders⟩
    | @enters command world hnone hpending hrule =>
      obtain ⟨p, hidle⟩ := fills_entry hexit hentry (hasked.holds.of_positions rfl)
        (by rw [hasked.orders]; rfl)
      exact .opens ⟨command, world, hrule⟩ ⟨hidle.holds.of_positions rfl, hidle.orders⟩
  | @stays p world hrule =>
    cases henters with
    | busy =>
      have hidle := fills_nothing hexit hentry
        ⟨hasked.holds.of_positions rfl, hasked.orders⟩
      exact .stays (not_exitFires hasked.holds hrule) ⟨hidle.holds.of_positions rfl, hidle.orders⟩
    | waits hnone => exact absurd hnone hasked.holds.ne_nil
    | enters hnone => exact absurd hnone hasked.holds.ne_nil
  | @leaves p command world hrule hexitNone =>
    cases henters with
    | busy =>
      -- the exit is filled after the entry rule was passed over
      have hidle := fills_exit hexit hentry (hasked.holds.of_positions rfl)
        (by rw [hasked.orders]; rfl)
      exact .closes (exitFires_some hasked.holds hrule)
        ⟨hidle.holds.of_positions rfl, hidle.orders⟩
    | waits hnone => exact absurd hnone hasked.holds.ne_nil
    | enters hnone => exact absurd hnone hasked.holds.ne_nil

theorem Asks.idle (hs : Idle held s) (h : Asks tick s snapshot asked) : Idle held asked := by
  obtain ⟨accumulator, confirmed, adapter, -, -, -, rfl⟩ := h
  exact ⟨hs.holds.of_positions rfl, hs.orders⟩

/-- A tick that confirms a bar shows it to the rules. -/
theorem accumulate_confirmed {accumulator : CandleAccumulator} {confirmed : ConfirmedCandle}
    (hacc : s.accumulator.accumulate tick = .ok (.confirmed, accumulator))
    (hlast : accumulator.lastConfirmed = some confirmed) :
    accumulate params tick (receive tick s) =
      onConfirmed params confirmed tick { receive tick s with accumulator := accumulator } := by
  unfold accumulate
  rw [show (receive tick s).accumulator = s.accumulator from rfl, hacc, mapError_ok, ok_bind]
  dsimp only
  rw [hlast]

theorem Processes.turns (hs : Idle held s)
    (h : Processes params tick s snapshot asked exited s') :
    Turns params snapshot asked exited s' held := by
  have hasked := h.asks.idle hs
  obtain ⟨⟨accumulator, confirmed, adapter, hacc, hlast, hbuild, rfl⟩, hexits, hround⟩ := h
  obtain ⟨heard, hheard, hround⟩ := bind_eq_ok.mp hround
  obtain ⟨left, hleft, hround⟩ := bind_eq_ok.mp hround
  obtain ⟨entered, hentered, hround⟩ := bind_eq_ok.mp hround
  cases hround
  rw [accumulate_confirmed hacc hlast] at hheard
  have hentry : evaluateEntry params snapshot tick exited = .ok heard := by
    unfold onConfirmed at hheard
    rw [show (receive tick s).adapter = s.adapter from rfl, hbuild, mapError_ok,
      ok_bind] at hheard
    dsimp only at hheard hexits
    rw [hexits, ok_bind] at hheard
    exact hheard
  exact TickEngine.turns hasked (evaluateExits_ok hasked.holds hexits) (evaluateEntry_ok hentry)
    (fillExit_ok hleft) (fillEntry_ok hentered)

/-- A round that confirms a bar goes through such states. -/
theorem exists_processes (h : onTick params s tick = .ok s') {accumulator : CandleAccumulator}
    {confirmed : ConfirmedCandle}
    (hacc : s.accumulator.accumulate tick = .ok (.confirmed, accumulator))
    (hlast : accumulator.lastConfirmed = some confirmed) :
    ∃ snapshot asked exited, Processes params tick s snapshot asked exited s' := by
  obtain ⟨heard, hheard, -⟩ := bind_eq_ok.mp h
  rw [accumulate_confirmed hacc hlast] at hheard
  obtain ⟨⟨snapshot, adapter⟩, hbuild, hheard⟩ := bind_eq_ok.mp hheard
  obtain ⟨exited, hexits, -⟩ := bind_eq_ok.mp hheard
  exact ⟨snapshot, _, exited,
    ⟨accumulator, confirmed, adapter, hacc, hlast, mapError_eq_ok.mp hbuild, rfl⟩, hexits, h⟩

/-- The tick engine follows the rules where they do not both fire, and only there. -/
theorem Processes.followsRules_iff (hs : Idle held s)
    (h : Processes params tick s snapshot asked exited s') :
    FollowsRules params snapshot asked.toEngineState exited.toEngineState s'.toEngineState ↔
      ¬ (ExitFires params snapshot asked.toEngineState ∧
        EntryFires params snapshot exited.toEngineState) := by
  have hasked := (h.asks.idle hs).holds
  unfold FollowsRules
  cases h.turns hs with
  | stays hstays hidle => simp [hstays, hasked.ne_nil, hidle.holds.ne_nil]
  | closes hcloses hidle => simp [hcloses, hidle.holds.positions]
  | waits hwaits hidle => simp [hwaits, hidle.holds.positions, hasked.positions]
  | opens hopens hidle => simp [hopens, hidle.holds.ne_nil, exitFires_none hasked]

theorem onTick_idle (hs : ∃ held, Idle held s) (h : onTick params s tick = .ok s') :
    ∃ held, Idle held s' := by
  obtain ⟨held, hs⟩ := hs
  obtain ⟨heard, left, entered, hhears, hexit, hentry, rfl, -⟩ := onTick_ok hs.holds h
  cases hhears with
  | quiet accumulator hquiet =>
    have hidle := fills_nothing hexit hentry ⟨hs.holds.of_positions rfl, hs.orders⟩
    exact ⟨held, hidle.holds.of_positions rfl, hidle.orders⟩
  | asks hasks hexits henters =>
    cases TickEngine.turns (hasks.idle hs) hexits henters hexit hentry with
    | stays _ hidle | closes _ hidle | waits _ hidle | opens _ hidle => exact ⟨_, hidle⟩

theorem Visits.idle {adapter : α} {world : ω} {shared : SharedState}
    (h : Visits params 0 adapter world shared tick s) : ∃ held, Idle held s := by
  obtain ⟨start, hbegin, past, rest, -, hpast⟩ := h
  obtain ⟨adapter', rfl⟩ := begin_state hbegin
  exact onTicks_induction (P := fun s => ∃ held, Idle held s)
    (fun _ _ _ hs hround => onTick_idle hs hround) ⟨none, ⟨rfl, by simp⟩, rfl⟩ hpast

end TickEngine

/-! ## Both engines -/

/-- Without a delay both engines follow the rules at every bar of their runs exactly when,
in the run over ticks, the rules never fire at the same bar. -/
theorem engines_followRules_iff (params : EngineRunParams ω) (adapter : α) (world : ω)
    (shared : SharedState) :
    ((∀ currentCandle nextCandle s,
        OhlcEngine.Visits params adapter world shared currentCandle nextCandle s →
        ∀ snapshot asked exited s',
          OhlcEngine.Processes params currentCandle nextCandle s snapshot asked exited s' →
            FollowsRules params snapshot asked exited s') ∧
      ∀ tick s, TickEngine.Visits params 0 adapter world shared tick s →
        ∀ snapshot asked exited s',
          TickEngine.Processes params tick s snapshot asked exited s' →
            FollowsRules params snapshot asked.toEngineState exited.toEngineState
              s'.toEngineState) ↔
      ∀ tick s, TickEngine.Visits params 0 adapter world shared tick s →
        ∀ snapshot asked exited s',
          TickEngine.Processes params tick s snapshot asked exited s' →
            ¬ (ExitFires params snapshot asked.toEngineState ∧
              EntryFires params snapshot exited.toEngineState) := by
  constructor
  · rintro ⟨-, hticks⟩ tick s hvisits snapshot asked exited s' hprocesses
    obtain ⟨held, hidle⟩ := hvisits.idle
    exact (hprocesses.followsRules_iff hidle).mp (hticks tick s hvisits _ _ _ _ hprocesses)
  · intro hnever
    constructor
    · intro currentCandle nextCandle s hvisits snapshot asked exited s' hprocesses
      obtain ⟨held, hs⟩ := hvisits.holds
      exact hprocesses.followsRules hs
    · intro tick s hvisits snapshot asked exited s' hprocesses
      obtain ⟨held, hidle⟩ := hvisits.idle
      exact (hprocesses.followsRules_iff hidle).mpr (hnever tick s hvisits _ _ _ _ hprocesses)

/-- Rules that fire whenever they are asked, over two ticks a minute. -/
def reversingParams : EngineRunParams Nat :=
  quietParams (idealExecutionSimulator countedIds) (quietBars 2) (quietTicks 120000 3)

/-- The bar confirmed at four minutes finds a position open. It is closed, the entry rule
would have opened the next one, and nothing is open after the tick. -/
theorem exists_reversal_missed :
    ∃ s snapshot asked exited s',
      TickEngine.Visits reversingParams 0 quietAdapter 0 ⟨some 100000, none⟩
        (quietTick 240000) s ∧
      TickEngine.Processes reversingParams (quietTick 240000) s snapshot asked exited s' ∧
      ExitFires reversingParams snapshot asked.toEngineState ∧
      EntryFires reversingParams snapshot exited.toEngineState ∧ s'.positions = [] ∧
      ¬ FollowsRules reversingParams snapshot asked.toEngineState exited.toEngineState
        s'.toEngineState := by
  have hrun : ∃ s, TickEngine.runOver reversingParams 0 quietAdapter 0 ⟨some 100000, none⟩
      (quietTicks 120000 2) = .ok s ∧
        ((TickEngine.onTick reversingParams s (quietTick 240000)).toOption.any
            (fun s' => s'.positions.length = 0) &&
          s.positions.length = 1 &&
          (s.accumulator.accumulate (quietTick 240000)).toOption.any
            (fun r => r.1 = .confirmed && r.2.lastConfirmed.isSome)) = true :=
    exists_ok (by decide +kernel)
  obtain ⟨s, hs, hfacts⟩ := hrun
  simp only [Bool.and_eq_true, decide_eq_true_eq] at hfacts
  obtain ⟨⟨hround, hlength⟩, hconfirms⟩ := hfacts
  obtain ⟨s', hround, hclosed⟩ := exists_ok hround
  obtain ⟨⟨event, accumulator⟩, hacc, hconfirms⟩ := exists_ok hconfirms
  simp only [Bool.and_eq_true, decide_eq_true_eq] at hclosed hconfirms
  obtain ⟨rfl, hlast⟩ := hconfirms
  obtain ⟨confirmed, hlast⟩ := Option.isSome_iff_exists.mp hlast
  obtain ⟨snapshot, asked, exited, hprocesses⟩ := TickEngine.exists_processes hround hacc hlast
  have hvisits : TickEngine.Visits reversingParams 0 quietAdapter 0 ⟨some 100000, none⟩
      (quietTick 240000) s := by
    obtain ⟨start, hbegin, hpast⟩ := bind_eq_ok.mp hs
    exact ⟨start, hbegin, quietTicks 120000 2, [quietTick 270000], rfl, hpast⟩
  have hasked : asked.positions = s.positions := by
    obtain ⟨_, _, _, -, -, -, rfl⟩ := hprocesses.asks
    rfl
  obtain ⟨entry, hentry⟩ := List.exists_mem_of_length_pos (hasked ▸ hlength ▸ Nat.one_pos :
    0 < asked.positions.length)
  have hexit : ExitFires reversingParams snapshot asked.toEngineState :=
    ⟨entry, hentry, leaveCommand entry.2, asked.world, rfl⟩
  have henter : EntryFires reversingParams snapshot exited.toEngineState :=
    ⟨filledEntry, exited.world, rfl⟩
  have hnone : s'.positions = [] := List.length_eq_zero_iff.mp hclosed
  refine ⟨s, snapshot, asked, exited, s', hvisits, hprocesses, hexit, henter, hnone, ?_⟩
  intro hfollows
  exact hfollows.mpr (.inr henter) hnone

end Luchida
