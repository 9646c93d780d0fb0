import Luchida.EngineRounds

/- When does a run over bars return? With an exit rule and a simulator that always answer,
   a round can only stop at its data or at the entry rule. So a run returns exactly when it
   begins and, in every round it reaches, the market is shown and the entry rule answers
   where it is asked (`run_returns_iff`). -/
namespace Luchida

open OrderedMap Throws EngineState

variable {α ω : Type} [SnapshotAdapter α]

namespace OhlcEngine

variable {params : EngineRunParams ω} {s s' asked exited : EngineState α ω}
  {held : Option Position} {snapshot : MarketSnapshot} {currentCandle nextCandle : ConfirmedCandle}

/-- The exit rule and the simulator never throw. -/
structure Answers (params : EngineRunParams ω) : Prop where
  exitRule : ∀ shared snapshot position world,
    ∃ r, params.exitRule shared snapshot position world = .ok r
  simulateEntry : ∀ command price pair executedAt world,
    ∃ r, params.executionSimulator.simulateEntry command price pair executedAt world = .ok r
  simulateExit : ∀ command price pair entryPrice buySell executedAt world,
    ∃ r, params.executionSimulator.simulateExit command price pair entryPrice buySell executedAt
      world = .ok r

omit [SnapshotAdapter α] in
theorem Answers.exists_closePosition (h : Answers params) (command : ExitCommand)
    (posId : PositionId) {position : Position} (hopen : position.status = .opened) (price : Price)
    (executedAt extremesAt : Int) (s : EngineState α ω) :
    ∃ s' record, s.closePosition params command posId position price executedAt extremesAt =
      .ok s' ∧ Closes params posId position executedAt s s' record := by
  obtain ⟨r, hr⟩ := h.simulateExit command price params.config.pair position.entryPrice
    position.buySell executedAt s.world
  have hsim : Ends (fun _ => True) (fun _ => False) ((params.executionSimulator.simulateExit
      command price params.config.pair position.entryPrice position.buySell executedAt
        s.world).mapError EngineError.thrown) := by
    rw [hr]
    trivial
  obtain ⟨s', hs', record, hcloses⟩ := (closePosition_ends_of posId hopen extremesAt hsim).returns
  exact ⟨s', record, hs', hcloses⟩

omit [SnapshotAdapter α] in
theorem Answers.exists_openPosition (h : Answers params) (command : EntryCommand) (price : Price)
    (executedAt : Int) (s : EngineState α ω) :
    ∃ s', s.openPosition params command price executedAt = .ok s' := by
  obtain ⟨r, hr⟩ := h.simulateEntry command price params.config.pair executedAt s.world
  exact ⟨_, bind_eq_ok.mpr ⟨r, mapError_eq_ok.mpr hr, rfl⟩⟩

/-! ## A round -/

omit [SnapshotAdapter α] in
theorem Answers.exists_evaluateExits (h : Answers params) (hs : s.Holds held)
    (snapshot : MarketSnapshot) (currentCandle nextCandle : ConfirmedCandle) :
    ∃ exited, s.positions.foldlM (evaluateExit params snapshot currentCandle nextCandle) s =
      .ok exited := by
  cases held with
  | none => exact ⟨s, hs.foldlM_none ..⟩
  | some p =>
    rw [hs.foldlM_some]
    obtain ⟨⟨exitResult, world⟩, hrule⟩ := h.exitRule s.shared snapshot p s.world
    cases exitResult with
    | none => exact ⟨_, bind_eq_ok.mpr ⟨_, mapError_eq_ok.mpr hrule, rfl⟩⟩
    | some command =>
      obtain ⟨closed, record, hclosed, -⟩ := h.exists_closePosition command p.id (hs.opened p rfl)
        nextCandle.openPrice nextCandle.openTime currentCandle.closeTime
        ({ s with world := world } : EngineState α ω)
      exact ⟨_, bind_eq_ok.mpr ⟨_, mapError_eq_ok.mpr hrule,
        bind_eq_ok.mpr ⟨closed, hclosed, rfl⟩⟩⟩

omit [SnapshotAdapter α] in
/-- Where it is asked, the entry rule decides whether the rest of the round returns. -/
theorem Answers.evaluateEntry_returns_iff (h : Answers params) :
    (∃ s', evaluateEntry params snapshot nextCandle s = .ok s') ↔
      (s.positions = [] → ∃ r, params.entryRule s.shared snapshot s.world = .ok r) := by
  unfold evaluateEntry
  by_cases hnone : s.positions = []
  · rw [if_pos (List.length_eq_zero_iff.mpr hnone)]
    constructor
    · intro hentry _
      obtain ⟨s', hentry⟩ := hentry
      obtain ⟨r, hr, -⟩ := bind_eq_ok.mp hentry
      exact ⟨r, mapError_eq_ok.mp hr⟩
    · intro hrule
      obtain ⟨⟨entryResult, world⟩, hr⟩ := hrule hnone
      cases entryResult with
      | none => exact ⟨_, bind_eq_ok.mpr ⟨_, mapError_eq_ok.mpr hr, rfl⟩⟩
      | some command =>
        obtain ⟨s', hs'⟩ := h.exists_openPosition command nextCandle.openPrice
          nextCandle.openTime ({ s with world := world } : EngineState α ω)
        exact ⟨s', bind_eq_ok.mpr ⟨_, mapError_eq_ok.mpr hr, hs'⟩⟩
  · rw [if_neg fun hlength => hnone (List.length_eq_zero_iff.mp hlength)]
    exact ⟨fun _ hnil => absurd hnil hnone, fun _ => ⟨s, rfl⟩⟩

/-- At this bar the entry rule is asked in this state, with this snapshot. -/
def AsksEntry (params : EngineRunParams ω) (currentCandle nextCandle : ConfirmedCandle)
    (s : EngineState α ω) (snapshot : MarketSnapshot) (exited : EngineState α ω) : Prop :=
  ∃ asked, Asks params currentCandle nextCandle s snapshot asked ∧
    asked.positions.foldlM (evaluateExit params snapshot currentCandle nextCandle) asked =
      .ok exited ∧
    exited.positions = []

/-- The market is shown at this bar, and the entry rule answers where it is asked. -/
structure Proceeds (params : EngineRunParams ω) (currentCandle nextCandle : ConfirmedCandle)
    (s : EngineState α ω) : Prop where
  shown : ∃ snapshot asked, Asks params currentCandle nextCandle s snapshot asked
  answers : ∀ snapshot exited, AsksEntry params currentCandle nextCandle s snapshot exited →
    ∃ r, params.entryRule exited.shared snapshot exited.world = .ok r

theorem Answers.onBar_returns_iff (h : Answers params) (hs : s.Holds held) :
    (∃ s', onBar params currentCandle nextCandle s = .ok s') ↔
      Proceeds params currentCandle nextCandle s := by
  constructor
  · intro hround
    obtain ⟨s', hround⟩ := hround
    obtain ⟨latestTick, htick, hround⟩ := bind_eq_ok.mp hround
    obtain ⟨⟨snapshot, adapter⟩, hbuild, hround⟩ := bind_eq_ok.mp hround
    obtain ⟨exited, hexits, hentry⟩ := bind_eq_ok.mp hround
    have hasks : Asks params currentCandle nextCandle s snapshot _ :=
      ⟨latestTick, adapter, mapError_eq_ok.mp htick, mapError_eq_ok.mp hbuild, rfl⟩
    refine ⟨⟨snapshot, _, hasks⟩, ?_⟩
    intro snapshot' exited' hentry'
    obtain ⟨asked', hasks', hexits', hnone⟩ := hentry'
    obtain ⟨rfl, rfl⟩ := hasks.unique hasks'
    obtain rfl := Except.ok.inj (hexits.symm.trans hexits')
    exact h.evaluateEntry_returns_iff.mp ⟨s', hentry⟩ hnone
  · intro hproceeds
    obtain ⟨snapshot, asked, hasks⟩ := hproceeds.shown
    obtain ⟨latestTick, adapter, htick, hbuild, hasked⟩ := id hasks
    have hheld : asked.Holds held := by
      rw [hasked]
      exact hs.of_positions rfl
    obtain ⟨exited, hexits⟩ := h.exists_evaluateExits hheld snapshot currentCandle nextCandle
    obtain ⟨s', hentry⟩ := h.evaluateEntry_returns_iff.mpr fun hnone =>
      hproceeds.answers snapshot exited ⟨asked, hasks, hexits, hnone⟩
    subst hasked
    exact ⟨s', bind_eq_ok.mpr ⟨_, mapError_eq_ok.mpr htick,
      bind_eq_ok.mpr ⟨_, mapError_eq_ok.mpr hbuild, bind_eq_ok.mpr ⟨_, hexits, hentry⟩⟩⟩⟩

/-! ## A run -/

theorem Answers.loop_returns_iff (h : Answers params) (hs : ∃ held, s.Holds held)
    {bars : List ConfirmedCandle} :
    (∃ s', loop params bars s = .ok s') ↔
      ∀ currentCandle nextCandle s₁, Reaches params bars s currentCandle nextCandle s₁ →
        Proceeds params currentCandle nextCandle s₁ := by
  induction bars generalizing s with
  | nil => exact ⟨fun _ _ _ _ hreaches => absurd hreaches (reaches_short (by simp)),
      fun _ => ⟨s, rfl⟩⟩
  | cons first rest ih =>
    cases rest with
    | nil => exact ⟨fun _ _ _ _ hreaches => absurd hreaches (reaches_short (by simp)),
        fun _ => ⟨s, rfl⟩⟩
    | cons second rest =>
      obtain ⟨held, hheld⟩ := hs
      simp only [reaches_cons]
      constructor
      · intro hloop currentCandle nextCandle s₁ hreaches
        obtain ⟨s', hloop⟩ := hloop
        obtain ⟨s₂, hround, hloop⟩ := bind_eq_ok.mp hloop
        obtain ⟨rfl, rfl, rfl⟩ | ⟨s₂', hround', hreaches⟩ := hreaches
        · exact (h.onBar_returns_iff hheld).mp ⟨s₂, hround⟩
        · obtain rfl := Except.ok.inj (hround.symm.trans hround')
          exact (ih (onBar_holds ⟨held, hheld⟩ hround)).mp ⟨s', hloop⟩ _ _ _ hreaches
      · intro hall
        obtain ⟨s₁, hround⟩ :=
          (h.onBar_returns_iff hheld).mpr (hall _ _ _ (.inl ⟨rfl, rfl, rfl⟩))
        obtain ⟨s', hloop⟩ := (ih (onBar_holds ⟨held, hheld⟩ hround)).mpr
          fun _ _ _ hreaches => hall _ _ _ (.inr ⟨s₁, hround, hreaches⟩)
        exact ⟨s', bind_eq_ok.mpr ⟨s₁, hround, hloop⟩⟩

omit [SnapshotAdapter α] in
theorem Answers.exists_forceCloseAll (h : Answers params) (hs : s.Holds held)
    (finalCandle : ConfirmedCandle) : ∃ s', forceCloseAll params finalCandle s = .ok s' := by
  have hclosed : ∃ closed, s.positions.foldlM (forceClose params finalCandle) s = .ok closed := by
    cases held with
    | none => exact ⟨s, hs.foldlM_none ..⟩
    | some p =>
      rw [hs.foldlM_some]
      obtain ⟨books, record, hbooks, -⟩ := h.exists_closePosition (forceCloseCommand p.id) p.id
        (hs.opened p rfl) finalCandle.close finalCandle.closeTime finalCandle.closeTime
        { s with
          extremeTracker := s.extremeTracker.updateOhlc p.id finalCandle.high finalCandle.low }
      exact ⟨_, bind_eq_ok.mpr ⟨books, hbooks, rfl⟩⟩
  obtain ⟨closed, hclosed⟩ := hclosed
  exact ⟨_, bind_eq_ok.mpr ⟨closed, hclosed, rfl⟩⟩

/-- A run returns exactly when it begins and every round that it reaches proceeds. -/
theorem Answers.run_returns_iff (h : Answers params) {adapter : α} {world : ω}
    {shared : SharedState} :
    (∃ s', run params adapter world shared = .ok s') ↔
      (∃ bars start, Begins params adapter world shared bars start) ∧
      ∀ currentCandle nextCandle s,
        Visits params adapter world shared currentCandle nextCandle s →
          Proceeds params currentCandle nextCandle s := by
  constructor
  · intro hrun
    obtain ⟨s', hrun⟩ := hrun
    obtain ⟨bars, start, looped, hbegins, hloop⟩ := exists_loop hrun
    refine ⟨⟨bars, start, hbegins⟩, ?_⟩
    intro currentCandle nextCandle s hvisits
    exact (h.loop_returns_iff hbegins.holds).mp ⟨looped, hloop⟩ _ _ _
      (hbegins.visits_iff.mp hvisits)
  · intro hall
    obtain ⟨⟨bars, start, hbegins⟩, hall⟩ := hall
    obtain ⟨looped, hloop⟩ := (h.loop_returns_iff hbegins.holds).mpr
      fun _ _ _ hreaches => hall _ _ _ (hbegins.visits_iff.mpr hreaches)
    obtain ⟨held, hlooped⟩ := loop_holds hbegins.holds hloop
    obtain ⟨candles, bundles, hfetch, hbegin, rfl⟩ := hbegins
    cases hlast : candles.getLast? with
    | none =>
      refine ⟨looped, bind_eq_ok.mpr ⟨_, hfetch, bind_eq_ok.mpr ⟨start, hbegin,
        bind_eq_ok.mpr ⟨looped, hloop, ?_⟩⟩⟩⟩
      simp only [hlast]
      rfl
    | some finalCandle =>
      obtain ⟨s', hend⟩ := h.exists_forceCloseAll hlooped finalCandle
      refine ⟨s', bind_eq_ok.mpr ⟨_, hfetch, bind_eq_ok.mpr ⟨start, hbegin,
        bind_eq_ok.mpr ⟨looped, hloop, ?_⟩⟩⟩⟩
      simp only [hlast]
      exact hend

end OhlcEngine

end Luchida
