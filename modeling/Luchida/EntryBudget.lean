import Luchida.EntryOnce
import Luchida.LotShares
import Luchida.PositionSizing

/- What the entries of the live system can cost, over every run: `PositionManager` sizes with
   PositionSizingService.ts, whose rate is the last tick's, shares the lot out, and hands one
   command for each strategy to the queue, one check in the database after another, while
   ticks arrive, orders fill and rows are written.

   A round is what was put on the queue after one sizing. `entries_within_budget` says that a
   round is never more than the lot it was sized for, at a rate that was fresh then, so that
   its margin is what the balance carries at the target ratio, and that every row that a run
   writes is a command of a round, each at most once. -/
namespace Luchida

open Runs

/-! ## The system with its sizing -/

/-- The entry side beside the adapter that its sizing has the rate from. -/
structure SizedEntries where
  entries : EntrySystem
  ratePort : MarketDataRateAdapter

inductive SizedLabel where
  | entry (a : EntryLabel)
  | rate (a : RateLabel)
  /-- `freshNow` settles for `executeWithFresh`, which goes on at `now`. -/
  | executeWithFresh (balance : Except BalancePortError Balance) (now : Int)

/-- A step with the state it was taken in. -/
abbrev SizedEntries.Moment := SizedEntries × SizedLabel

/-- What was put on the queue after one sizing, and the run before it. -/
structure EntryRound where
  before : List SizedEntries.Moment
  balance : Balance
  now : Int
  sizing : SizingResult
  entries : List TicketedEntry

namespace EntryRound

def units (round : EntryRound) : Nat := (round.entries.map (·.entry.command.lot.units)).sum

def margin (round : EntryRound) : ℚ :=
  (round.entries.map (·.entry.command.requiredMargin.value)).sum

def add (round : EntryRound) (e : TicketedEntry) : EntryRound :=
  { round with entries := round.entries ++ [e] }

/-- One more entry of the last round. -/
def extend (e : TicketedEntry) : List EntryRound → List EntryRound
  | [] => []
  | round :: rest => round.add e :: rest

/-- What the rounds put on the queue, in order. The last round comes first. -/
def enqueued : List EntryRound → List TicketedEntry
  | [] => []
  | round :: rest => enqueued rest ++ round.entries

theorem enqueued_extend (e : TicketedEntry) (round : EntryRound) (rest : List EntryRound) :
    enqueued (extend e (round :: rest)) = enqueued (round :: rest) ++ [e] := by
  simp [extend, enqueued, add]

end EntryRound

theorem EntryRound.sum_margin_enqueued (rounds : List EntryRound) :
    ((enqueued rounds).map (·.entry.command.requiredMargin.value)).sum =
      (rounds.map (·.margin)).sum := by
  induction rounds with
  | nil => rfl
  | cons round rest ih =>
    simp only [enqueued, List.map_append, List.sum_append, List.map_cons, List.sum_cons, ih]
    exact add_comm ..

/-- The entry that a step puts on the queue. -/
def EntrySystem.enqueues (config : EntryConfig) (s : EntrySystem) :
    EntryLabel → Option TicketedEntry
  | .resume now => match s.session.phase with
    | some (.prechecked turn .absent) =>
      if s.queueStopped = true then none
      else some ⟨⟨turn.command config.pair, now⟩, turn.work.snapshot.tradeBar⟩
    | _ => none
  | _ => none

/-- `reservedMargin`. -/
def EntrySystem.reservedMargin (s : EntrySystem) : Money :=
  ⟨(s.queue.map (·.entry.command.requiredMargin.value)).sum, .jpy⟩

namespace SizedEntries

/-- `fetchSizing` catches what `executeWithFresh` throws. -/
def step (config : EntryConfig) (service : PositionSizingService) (s : SizedEntries) :
    SizedLabel → Option SizedEntries
  | .entry (.sizing _) => none
  | .entry a => (s.entries.step config a).map fun entries => { s with entries := entries }
  | .rate a => some { s with ratePort := s.ratePort.step a }
  | .executeWithFresh balance now =>
    (s.entries.step config (.sizing
        (service.executeWithFresh s.ratePort config.pair balance now).toOption)).map
      fun entries => { s with entries := entries }

/-- The rounds of a run, the last one first. -/
def rounds (config : EntryConfig) (service : PositionSizingService) :
    List Moment → List EntryRound
  | [] => []
  | (s, .executeWithFresh (.ok balance) now) :: past =>
    match service.executeWithFresh s.ratePort config.pair (.ok balance) now with
    | .ok sizing => ⟨past, balance, now, sizing, []⟩ :: rounds config service past
    | .error _ => rounds config service past
  | (s, .entry a) :: past =>
    match s.entries.enqueues config a with
    | some e => EntryRound.extend e (rounds config service past)
    | none => rounds config service past
  | _ :: past => rounds config service past

/-- Nothing is processed, queued or sent. -/
structure Idle (s : SizedEntries) : Prop where
  session : s.entries.session.phase = none
  queue : s.entries.queue = []
  drain : s.entries.drain = .idle

/-- After these labels, does the adapter listen to the ticks? -/
def listens (s₀ : SizedEntries) : List Moment → Bool
  | [] => s₀.ratePort.subscribed
  | (_, .rate .start) :: _ => true
  | (_, .rate .stop) :: _ => false
  | _ :: past => listens s₀ past

/-- The bid of the last tick that came while the adapter listened, or the rate it had at
first. -/
def lastRate (s₀ : SizedEntries) : List Moment → Option Rate
  | [] => s₀.ratePort.latest
  | (_, .rate (.tick tick)) :: past =>
    if listens s₀ past = true then some (MarketDataRateAdapter.rateOf s₀.ratePort.pair tick)
    else lastRate s₀ past
  | _ :: past => lastRate s₀ past

end SizedEntries

/-! ## What a round keeps to -/

/-- A round is one sizing, shared out. -/
structure EntryRound.Within (config : EntryConfig) (service : PositionSizingService)
    (s₀ : SizedEntries) (round : EntryRound) : Prop where
  decides : service.Decides config.pair round.balance round.sizing
  quoted : SizedEntries.lastRate s₀ round.before = some round.sizing.rate
  fresh : round.now - round.sizing.rate.capturedAt ≤ s₀.ratePort.maxAgeMillis
  /-- One command for each strategy. -/
  distinct : (round.entries.map (·.entry.command.strategyName)).Nodup
  lots : round.units ≤ round.sizing.lot.units
  priced : ∀ e ∈ round.entries, e.entry.command.pair = config.pair ∧
    e.entry.command.requiredMargin = round.sizing.requiredMarginFor e.entry.command.lot

/-- The balance of a round carries its lots at the target ratio, and the margins that its
commands say they need but for half a yen for each of the four strategies. -/
def EntryRound.Covered (target : MaintenanceRatio) (round : EntryRound) : Prop :=
  target.value * (round.units * (round.sizing.rate.value * round.sizing.marginRate.value)) ≤
    round.balance.money.value ∧
  target.value * round.margin ≤ round.balance.money.value + 2 * target.value

namespace EntryRound

variable {config : EntryConfig} {service : PositionSizingService} {s₀ : SizedEntries}
  {round : EntryRound}

theorem length_le_of_nodup {l : List StrategyName} (h : l.Nodup) : l.length ≤ 4 := by
  have hsub : l ⊆ [.smaCross, .rsiReversal, .smaDistance, .wickReversal] := by
    intro s _
    cases s <;> simp
  exact (h.subperm hsub).length_le

/-- Each margin is rounded to whole yen on its own. -/
theorem margin_le (sizing : SizingResult) (entries : List TicketedEntry)
    (h : ∀ e ∈ entries, e.entry.command.requiredMargin =
      sizing.requiredMarginFor e.entry.command.lot) :
    (entries.map (·.entry.command.requiredMargin.value)).sum ≤
      (entries.map (·.entry.command.lot.units)).sum *
        (sizing.rate.value * sizing.marginRate.value) + entries.length / 2 := by
  induction entries with
  | nil => simp
  | cons e rest ih =>
    have hrest := ih fun e' he' => h e' (List.mem_cons_of_mem _ he')
    have hhead := sizing.requiredMarginFor_le e.entry.command.lot
    rw [← h e (List.mem_cons_self ..)] at hhead
    simp only [List.map_cons, List.sum_cons, List.length_cons, Nat.cast_add, Nat.cast_one]
    linarith

theorem Within.covered (h : round.Within config service s₀)
    (hpolicy : service.lotPolicy = MaintenanceRatioBasedLotPolicy.decide)
    {input : LotDecisionInput}
    (hinput : LotDecisionInput.of config.pair round.balance round.sizing.rate service.target
      service.marginRate = some input)
    (hexact : MaintenanceRatioBasedLotPolicy.Exact input) (habove : 100 < round.sizing.lot.units) :
    round.Covered service.target := by
  obtain ⟨input', hinput', hdecided⟩ := h.decides.decided
  obtain rfl : input' = input := Option.some.inj (hinput'.symm.trans hinput)
  rw [hpolicy] at hdecided
  obtain ⟨-, hbalance, hrate, htarget, hmarginRate⟩ := LotDecisionInput.of_eq_some hinput
  have hcarries := MaintenanceRatioBasedLotPolicy.carries_of_decide hdecided hexact habove
  have hone := service.target.one_lt
  have hdemand : 0 ≤ round.sizing.rate.value * round.sizing.marginRate.value :=
    (mul_pos round.sizing.rate.pos round.sizing.marginRate.pos).le
  have hunits : (round.units : ℚ) ≤ round.sizing.lot.units := by exact_mod_cast h.lots
  have hfirst : service.target.value *
      (round.units * (round.sizing.rate.value * round.sizing.marginRate.value)) ≤
        round.balance.money.value := by
    calc service.target.value *
          (round.units * (round.sizing.rate.value * round.sizing.marginRate.value))
        ≤ service.target.value * (round.sizing.lot.units *
            (round.sizing.rate.value * round.sizing.marginRate.value)) := by
          gcongr
      _ = round.sizing.lot.units * MaintenanceRatioBasedLotPolicy.demand input' := by
          unfold MaintenanceRatioBasedLotPolicy.demand
          rw [htarget, hrate, hmarginRate, h.decides.marginRate]
          ring
      _ ≤ input'.capital := hcarries
      _ = round.balance.money.value := by rw [LotDecisionInput.capital, hbalance]
  refine ⟨hfirst, ?_⟩
  have hcount : ((round.entries.length : ℕ) : ℚ) ≤ 4 := by
    have hle := length_le_of_nodup h.distinct
    rw [List.length_map] at hle
    exact_mod_cast hle
  have hmargin := margin_le round.sizing round.entries fun e he => (h.priced e he).2
  calc service.target.value * round.margin
      ≤ service.target.value * (round.units *
          (round.sizing.rate.value * round.sizing.marginRate.value) + 2) := by
        have hle : round.margin ≤ round.units *
            (round.sizing.rate.value * round.sizing.marginRate.value) + 2 := by
          calc round.margin ≤ round.units *
                (round.sizing.rate.value * round.sizing.marginRate.value) +
                  round.entries.length / 2 := hmargin
            _ ≤ _ := by linarith
        exact mul_le_mul_of_nonneg_left hle (by linarith)
    _ ≤ round.balance.money.value + 2 * service.target.value := by linarith

end EntryRound

/-! ## What one step does to a round -/

/-- The turn that waits for the check before `enqueue`, or has its answer. -/
def turnIn : Option EntryPhase → Option EnqueueTurn
  | some (.awaitingPrecheck turn) | some (.prechecked turn _) => some turn
  | _ => none

/-- The allocation that waits for its lot. -/
def allocationIn : Option EntryPhase → Option LotAllocation
  | some (.awaitingSizing _ _ _ allocation) => some allocation
  | _ => none

/-- The entry that is drained and has no row. -/
def DrainPhase.unfiled : DrainPhase → List TicketedEntry
  | .placing entry _ | .insertingPosition entry _ => [entry]
  | .idle | .insertingSnapshot .. => []

/-- What a step may leave of a phase: the same turn or none, and an allocation that
`LotAllocation.of` accepts. -/
structure PhaseGoes (before after : Option EntryPhase) : Prop where
  turn : ∀ turn, turnIn after = some turn → turnIn before = some turn
  allocation : ∀ a, allocationIn after = some a →
    allocationIn before = some a ∨ LotAllocation.of a.ratios = .ok a

theorem PhaseGoes.refl (phase : Option EntryPhase) : PhaseGoes phase phase :=
  ⟨fun _ h => h, fun _ h => .inl h⟩

theorem PhaseGoes.of_none {before after : Option EntryPhase} (hturn : turnIn after = none)
    (hallocation : allocationIn after = none) : PhaseGoes before after := by
  refine ⟨fun turn h => ?_, fun a h => ?_⟩
  · rw [hturn] at h
    cases h
  · rw [hallocation] at h
    cases h

namespace EntrySystem

variable {config : EntryConfig} {s s' : EntrySystem}

/-- The entries that have no row yet, in order. -/
def unfiled (s : EntrySystem) : List TicketedEntry := s.drain.unfiled ++ s.queue

/-- The rows as they were registered. -/
def registered (s : EntrySystem) : List Position := s.db.positions.map (·.asOpened)

theorem phaseGoes_settle (before : Option EntryPhase) (session : TradingSession EntryPhase) :
    PhaseGoes before (session.settle .exiting).phase := by
  rcases session.settle_phase .exiting with h | ⟨next, h⟩
  · rw [h]
    exact .of_none rfl rfl
  · rw [h]
    exact .of_none rfl rfl

theorem proceed_eq (s : EntrySystem) (phase : Option EntryPhase) :
    ∃ session, s.proceed phase = { s with session := session } ∧
      (phase = none → ∀ before, PhaseGoes before session.phase) ∧
      (∀ next, phase = some next → session.phase = some next) := by
  cases phase with
  | none =>
    refine ⟨_, rfl, fun _ before => phaseGoes_settle before _, fun next h => ?_⟩
    cases h
  | some next =>
    refine ⟨_, rfl, fun h => ?_, fun next' h => ?_⟩
    · cases h
    · cases h
      rfl

/-- On to a phase that may be gone to. -/
theorem proceed_goes {phase : Option EntryPhase} (h : PhaseGoes s.session.phase phase) :
    ∃ session, s.proceed phase = { s with session := session } ∧
      PhaseGoes s.session.phase session.phase := by
  obtain ⟨session, heq, hnone, hsome⟩ := s.proceed_eq phase
  refine ⟨session, heq, ?_⟩
  cases phase with
  | none => exact hnone rfl _
  | some next =>
    rw [hsome next rfl]
    exact h

/-- What a step does that neither sizes nor goes on with the loop of step 6: entries leave the
queue from its head, one of them becomes a row, and no row changes in what was registered. -/
structure Quiet (s s' : EntrySystem) : Prop where
  phase : PhaseGoes s.session.phase s'.session.phase
  filed : s'.registered = s.registered ∧ s'.unfiled.Sublist s.unfiled ∨
    ∃ entry result, s.unfiled = entry :: s'.unfiled ∧
      s'.registered = s.registered ++ [Position.openWith entry.entry.command result]

theorem Quiet.session {session : TradingSession EntryPhase}
    (h : PhaseGoes s.session.phase session.phase) : Quiet s { s with session := session } :=
  ⟨h, .inl ⟨rfl, .refl _⟩⟩

theorem Quiet.of_proceed {phase : Option EntryPhase} (h : PhaseGoes s.session.phase phase) :
    Quiet s (s.proceed phase) := by
  obtain ⟨session, heq, hgoes⟩ := proceed_goes h
  rw [heq]
  exact .session hgoes

/-- A step that leaves the session alone and takes entries away. -/
theorem Quiet.dropping (hphase : s'.session = s.session)
    (hrows : s'.db.positions = s.db.positions) (hsub : s'.unfiled.Sublist s.unfiled) :
    Quiet s s' := by
  refine ⟨?_, .inl ⟨?_, hsub⟩⟩
  · rw [hphase]
    exact .refl _
  · unfold registered
    rw [hrows]

/-! ### handleSignals -/

theorem decideAllocation_goes (pair : CurrencyPair) (snapshot : MarketSnapshot)
    (detection : Detection) (balance : Money) (currentPositions : List Position)
    (before : Option EntryPhase) :
    PhaseGoes before
      (decideAllocation pair snapshot detection balance currentPositions) := by
  unfold decideAllocation
  split
  · exact .of_none rfl rfl
  · split
    · exact .of_none rfl rfl
    · rename_i allocation hdecide
      split
      · exact .of_none rfl rfl
      · refine ⟨fun turn h => ?_, fun a h => .inr ?_⟩
        · cases h
        · cases h
          exact EqualWeightAllocationPolicy.decide_accepted hdecide

theorem quiet_exitsDone (snapshot : MarketSnapshot) (outcome : ExitsOutcome) :
    Quiet s (s.exitsDone snapshot outcome) := by
  have hdone : Quiet s (s.proceed none) := .of_proceed (.of_none rfl rfl)
  cases outcome with
  | threw => exact hdone
  | blocked => exact hdone
  | killed => exact .session (phaseGoes_settle _ _)
  | ruled results =>
    unfold exitsDone
    dsimp only
    split
    · exact hdone
    · exact hdone
    · exact .of_proceed (.of_none rfl rfl)

theorem quiet_stepSession {a : EntryLabel} {phase : EntryPhase}
    (hs : s.session.phase = some phase) (hsizing : ∀ reply, a ≠ .sizing reply)
    (hresume : ∀ now, a ≠ .resume now) (h : s.stepSession config phase a = some s') :
    Quiet s s' := by
  cases a with
  | exitsDone outcome =>
    cases phase <;> cases h
    exact quiet_exitsDone _ outcome
  | balance reply =>
    cases phase <;> cases h
    refine .of_proceed ?_
    cases reply with
    | none => exact .of_none rfl rfl
    | some balance => exact .of_none rfl rfl
  | openPositions served =>
    cases phase <;> cases h
    refine .of_proceed ?_
    split
    · exact decideAllocation_goes ..
    · exact .of_none rfl rfl
  | sizing reply => exact absurd rfl (hsizing reply)
  | precheck served =>
    cases phase <;> cases h
    refine .of_proceed ⟨fun turn h => ?_, fun a h => ?_⟩
    · rw [hs]
      exact h
    · cases h
  | resume now => exact absurd rfl (hresume now)
  | _ => cases h

/-! ### EntryQueue -/

theorem quiet_drainAt {now : Int} (h : s.drainAt config now = some s') : Quiet s s' := by
  unfold drainAt at h
  split at h
  · rename_i head rest hdrain hqueue _
    split at h <;> cases h
    · refine .dropping rfl rfl ?_
      simp only [unfiled, hdrain, hqueue, DrainPhase.unfiled, List.nil_append]
      exact List.sublist_cons_self ..
    · refine .dropping rfl rfl ?_
      simp only [unfiled, hdrain, hqueue, DrainPhase.unfiled]
      exact .refl _
  · cases h

theorem quiet_insertPosition {entry : TicketedEntry} {result : EntryResult} {reply : DbReply}
    (hdrain : s.drain = .insertingPosition entry result)
    (h : s.stepDrain (.insertingPosition entry result) (.insertPosition reply) = some s') :
    Quiet s s' := by
  have hhead : s.unfiled = entry :: s.queue := by
    simp only [unfiled, hdrain, DrainPhase.unfiled]
    rfl
  simp only [stepDrain] at h
  split at h <;> rename_i db hwrite <;> cases h
  · refine ⟨.refl _, ?_⟩
    rcases write_insertPosition hwrite with hrows | ⟨hfalse, -⟩
    · refine .inr ⟨entry, result, hhead, ?_⟩
      unfold registered
      rw [hrows, List.map_append]
      rfl
    · cases hfalse
  · refine ⟨.refl _, ?_⟩
    rcases write_insertPosition hwrite with hrows | ⟨-, rfl, -⟩
    · -- the reply was lost: the row is there all the same
      refine .inr ⟨entry, result, hhead, ?_⟩
      unfold registered
      rw [hrows, List.map_append]
      rfl
    · refine .inl ⟨rfl, ?_⟩
      rw [hhead]
      exact List.sublist_cons_self ..

theorem quiet_stepDrain {a : EntryLabel} {phase : DrainPhase} (hdrain : s.drain = phase)
    (h : s.stepDrain phase a = some s') : Quiet s s' := by
  have hsame : ∀ drain : DrainPhase, drain.unfiled = s.drain.unfiled →
      ({ s with drain := drain } : EntrySystem).unfiled.Sublist s.unfiled := by
    intro drain hunfiled
    unfold unfiled
    rw [hunfiled]
  unfold stepDrain at h
  split at h
  · split at h <;> cases h
    exact .dropping rfl rfl (hsame _ (by rw [hdrain]; rfl))
  · cases h
    exact .dropping rfl rfl (hsame _ (by rw [hdrain]; rfl))
  · cases h
    refine .dropping rfl rfl ?_
    simp only [unfiled, hdrain, DrainPhase.unfiled]
    exact List.sublist_cons_self ..
  · exact quiet_insertPosition hdrain h
  · cases h
    exact .dropping rfl (write_insertSnapshot_positions ..) (hsame _ (by rw [hdrain]; rfl))
  · cases h

/-! ### The rest -/

theorem registered_updateRows (f : Position → Position) (hid : ∀ p, (f p).id = p.id)
    (hf : ∀ p, (f p).asOpened = p.asOpened) :
    ({ s with db := s.db.updateRows f hid } : EntrySystem).registered = s.registered := by
  show (s.db.positions.map f).map (·.asOpened) = s.db.positions.map (·.asOpened)
  rw [List.map_map]
  exact List.map_congr_left fun p _ => hf p

theorem quiet_of_step {a : EntryLabel} (hsizing : ∀ reply, a ≠ .sizing reply)
    (hresume : ∀ now, a ≠ .resume now) (h : s.step config a = some s') : Quiet s s' := by
  have hsession : ∀ a, (∀ reply, a ≠ .sizing reply) → (∀ now, a ≠ .resume now) →
      s.session.phase.bind (fun phase => s.stepSession config phase a) = some s' →
      Quiet s s' := by
    intro a hsizing hresume h
    obtain ⟨phase, hphase, hstep⟩ := Option.bind_eq_some_iff.mp h
    exact quiet_stepSession hphase hsizing hresume hstep
  cases a with
  | onMarketData snapshot =>
    cases h
    refine .session ?_
    rcases s.session.onMarketData_phase config.pair .exiting snapshot with h | ⟨-, h⟩
    · rw [h]
      exact .refl _
    · rw [h]
      exact .of_none rfl rfl
  | drain now => exact quiet_drainAt h
  | brokerCloses id =>
    simp only [step] at h
    split at h <;> cases h
    exact .dropping rfl rfl (.refl _)
  | exitRecorded closed =>
    simp only [step] at h
    split at h <;> cases h
    exact ⟨.refl _, .inl ⟨registered_updateRows _ _ (Database.asOpened_updateRow closed),
      .refl _⟩⟩
  | markClosed id now =>
    simp only [step] at h
    split at h <;> cases h
    exact ⟨.refl _, .inl ⟨registered_updateRows _ _ (Database.asOpened_closeRow id now),
      .refl _⟩⟩
  | stop =>
    cases h
    exact .session (.refl _)
  | stopQueue =>
    simp only [step] at h
    split at h <;> cases h
    exact .dropping rfl rfl (.refl _)
  | dropQueued =>
    simp only [step] at h
    split at h
    · rename_i hdrain hqueue _
      cases h
      refine .dropping rfl rfl ?_
      simp only [unfiled, hdrain, hqueue, DrainPhase.unfiled, List.nil_append]
      exact List.sublist_cons_self ..
    · cases h
  | sizing reply => exact absurd rfl (hsizing reply)
  | resume now => exact absurd rfl (hresume now)
  | brokerOpens id => exact quiet_stepDrain rfl h
  | placeEntryResolves entryPrice executedAt => exact quiet_stepDrain rfl h
  | placeEntryRejects => exact quiet_stepDrain rfl h
  | insertPosition reply => exact quiet_stepDrain rfl h
  | insertSnapshot reply => exact quiet_stepDrain rfl h
  | exitsDone outcome => exact hsession _ hsizing hresume h
  | balance reply => exact hsession _ hsizing hresume h
  | openPositions served => exact hsession _ hsizing hresume h
  | precheck served => exact hsession _ hsizing hresume h

end EntrySystem

/-! ## Runs -/

/-- What is left of the loop fits into what is left of the lot. -/
structure EntryRound.Fits (round : EntryRound) (turn : EnqueueTurn) : Prop where
  sizing : turn.work.sizing = round.sizing
  distinct : (round.entries.map (·.entry.command.strategyName) ++
    turn.strategy :: turn.rest.map (·.1)).Nodup
  lots : round.units + (turn.lot.units + (turn.rest.map (·.2.units)).sum) ≤
    round.sizing.lot.units

namespace EntryRound

variable {pair : CurrencyPair} {round : EntryRound} {turn : EnqueueTurn}

@[simp] theorem units_add (round : EntryRound) (e : TicketedEntry) :
    (round.add e).units = round.units + e.entry.command.lot.units := by
  simp [units, add]

/-- A strategy that is skipped leaves its lot unused. -/
theorem fits_of_nextTurn {work : EnqueueWork} {lots : List (StrategyName × Lot)}
    (hsizing : work.sizing = round.sizing)
    (hdistinct : (round.entries.map (·.entry.command.strategyName) ++ lots.map (·.1)).Nodup)
    (hlots : round.units + (lots.map (·.2.units)).sum ≤ round.sizing.lot.units)
    (h : work.nextTurn pair lots = some turn) : round.Fits turn := by
  induction lots with
  | nil => cases h
  | cons head rest ih =>
    obtain ⟨strategy, lot⟩ := head
    have hskip : work.nextTurn pair rest = some turn → round.Fits turn := by
      apply ih
      · refine hdistinct.sublist ?_
        exact List.Sublist.append (.refl _) (List.sublist_cons_self ..)
      · simp only [List.map_cons, List.sum_cons] at hlots
        omega
    simp only [EnqueueWork.nextTurn] at h
    split at h
    · exact hskip h
    · split at h
      · exact hskip h
      · cases h
        exact ⟨hsizing, hdistinct, hlots⟩

/-- The next turn, when the lot of this one was not used. -/
theorem Fits.skip (h : round.Fits turn) {next : EnqueueTurn}
    (hnext : turn.work.nextTurn pair turn.rest = some next) : round.Fits next := by
  refine fits_of_nextTurn h.sizing (h.distinct.sublist ?_) ?_ hnext
  · exact List.Sublist.append (.refl _) (List.sublist_cons_self ..)
  · have hlots := h.lots
    omega

/-- The next turn, when the command of this one is on the queue. -/
theorem Fits.enqueue (h : round.Fits turn) {e : TicketedEntry}
    (hstrategy : e.entry.command.strategyName = turn.strategy)
    (hlot : e.entry.command.lot = turn.lot) {next : EnqueueTurn}
    (hnext : turn.work.nextTurn pair turn.rest = some next) : (round.add e).Fits next := by
  refine fits_of_nextTurn h.sizing ?_ ?_ hnext
  · have hdistinct := h.distinct
    simp only [add, List.map_append, List.map_cons, List.map_nil, List.append_assoc, hstrategy]
    exact hdistinct
  · have hlots := h.lots
    show (round.add e).units + _ ≤ round.sizing.lot.units
    rw [units_add, hlot]
    omega

theorem Within.enqueue {config : EntryConfig} {service : PositionSizingService}
    {s₀ : SizedEntries} (h : round.Within config service s₀) (hfits : round.Fits turn)
    (now bar : Int) :
    (round.add ⟨⟨turn.command config.pair, now⟩, bar⟩).Within config service s₀ := by
  refine ⟨h.decides, h.quoted, h.fresh, ?_, ?_, ?_⟩
  · have hdistinct := hfits.distinct
    simp only [add, List.map_append, List.map_cons, List.map_nil]
    refine hdistinct.sublist ?_
    exact List.Sublist.append (.refl _) (List.Sublist.cons_cons _ (List.nil_sublist _))
  · have hlots := hfits.lots
    show EntryRound.units _ ≤ round.sizing.lot.units
    rw [units_add]
    show round.units + turn.lot.units ≤ _
    omega
  · intro e he
    rcases List.mem_append.mp he with he | he
    · exact h.priced e he
    · rw [List.mem_singleton.mp he]
      refine ⟨rfl, ?_⟩
      show turn.work.sizing.requiredMarginFor turn.lot = _
      rw [hfits.sizing]
      rfl

end EntryRound

namespace SizedEntries

variable {config : EntryConfig} {service : PositionSizingService} {s₀ s s' : SizedEntries}
  {past : List Moment}

/-- The rows of a run and what waits for one were put on the queue by its rounds, each once. -/
def Filed (s₀ s : SizedEntries) (enqueued : List TicketedEntry) : Prop :=
  ∃ filled : List (TicketedEntry × EntryResult),
    s.entries.registered = s₀.entries.registered ++
      filled.map (fun f => Position.openWith f.1.entry.command f.2) ∧
    (filled.map (·.1) ++ s.entries.unfiled).Sublist enqueued

theorem listens_quiet (s₀ : SizedEntries) {a : SizedLabel} (h : ∀ b, a ≠ .rate b) :
    listens s₀ ((s, a) :: past) = listens s₀ past := by
  cases a with
  | rate b => exact absurd rfl (h b)
  | _ => rfl

theorem lastRate_quiet (s₀ : SizedEntries) {a : SizedLabel} (h : ∀ b, a ≠ .rate b) :
    lastRate s₀ ((s, a) :: past) = lastRate s₀ past := by
  cases a with
  | rate b => exact absurd rfl (h b)
  | _ => rfl

/-- What every step keeps. -/
structure Kept (config : EntryConfig) (service : PositionSizingService) (s₀ : SizedEntries)
    (past : List Moment) (s : SizedEntries) : Prop where
  pair : s.ratePort.pair = s₀.ratePort.pair
  maxAgeMillis : s.ratePort.maxAgeMillis = s₀.ratePort.maxAgeMillis
  subscribed : s.ratePort.subscribed = listens s₀ past
  latest : s.ratePort.latest = lastRate s₀ past
  accepted : ∀ a, allocationIn s.entries.session.phase = some a →
    LotAllocation.of a.ratios = .ok a
  turn : ∀ turn, turnIn s.entries.session.phase = some turn →
    ∃ round rest, rounds config service past = round :: rest ∧ round.Fits turn
  within : ∀ round ∈ rounds config service past, round.Within config service s₀
  filed : Filed s₀ s (EntryRound.enqueued (rounds config service past))

theorem Kept.start (hidle : s₀.Idle) : Kept config service s₀ [] s₀ := by
  refine ⟨rfl, rfl, rfl, rfl, fun a h => ?_, fun turn h => ?_, ?_, [], ?_, ?_⟩
  · rw [hidle.session] at h
    cases h
  · rw [hidle.session] at h
    cases h
  · intro round hround
    cases hround
  · exact (List.append_nil _).symm
  · simp only [EntrySystem.unfiled, hidle.drain, hidle.queue]
    exact .refl _

theorem Filed.quiet {enqueued : List TicketedEntry} (h : Filed s₀ s enqueued)
    {entries : EntrySystem} (hquiet : s.entries.Quiet entries) :
    Filed s₀ { s with entries := entries } enqueued := by
  obtain ⟨filled, hrows, hsub⟩ := h
  rcases hquiet.filed with ⟨hsame, hfewer⟩ | ⟨entry, result, hunfiled, hrow⟩
  · exact ⟨filled, hsame.trans hrows, (List.Sublist.append (.refl _) hfewer).trans hsub⟩
  · refine ⟨filled ++ [(entry, result)], ?_, ?_⟩
    · show entries.registered = _
      rw [hrow, hrows, List.map_append, List.append_assoc]
      rfl
    · rw [hunfiled] at hsub
      simpa using hsub

theorem Filed.enqueue {enqueued : List TicketedEntry} (h : Filed s₀ s enqueued)
    {entries : EntrySystem} {e : TicketedEntry} (hrows : entries.registered = s.entries.registered)
    (hunfiled : entries.unfiled = s.entries.unfiled ++ [e]) :
    Filed s₀ { s with entries := entries } (enqueued ++ [e]) := by
  obtain ⟨filled, hfilled, hsub⟩ := h
  refine ⟨filled, hrows.trans hfilled, ?_⟩
  show (filled.map (·.1) ++ entries.unfiled).Sublist _
  rw [hunfiled, ← List.append_assoc]
  exact List.Sublist.append hsub (.refl _)

/-- A step that adds to no round. -/
theorem Kept.quiet (h : Kept config service s₀ past s) {a : SizedLabel} {entries : EntrySystem}
    (hrate : ∀ b, a ≠ .rate b)
    (hrounds : rounds config service ((s, a) :: past) = rounds config service past)
    (hquiet : s.entries.Quiet entries) :
    Kept config service s₀ ((s, a) :: past) { s with entries := entries } := by
  refine ⟨h.pair, h.maxAgeMillis, h.subscribed.trans (listens_quiet s₀ hrate).symm,
    h.latest.trans (lastRate_quiet s₀ hrate).symm, fun a' ha' => ?_, fun turn hturn => ?_,
    fun round hround => ?_, ?_⟩
  · exact (hquiet.phase.allocation a' ha').elim (h.accepted a') id
  · rw [hrounds]
    exact h.turn turn (hquiet.phase.turn turn hturn)
  · rw [hrounds] at hround
    exact h.within round hround
  · rw [hrounds]
    exact h.filed.quiet hquiet

theorem Kept.rate (h : Kept config service s₀ past s) (a : RateLabel) :
    Kept config service s₀ ((s, .rate a) :: past)
      { s with ratePort := s.ratePort.step a } := by
  have hrounds : rounds config service ((s, .rate a) :: past) = rounds config service past := rfl
  refine ⟨?_, ?_, ?_, ?_, h.accepted, ?_, fun round hround => ?_, ?_⟩
  · exact (s.ratePort.step_pair a).trans h.pair
  · exact (s.ratePort.step_maxAgeMillis a).trans h.maxAgeMillis
  · cases a with
    | start => rfl
    | stop => rfl
    | tick tick => exact (s.ratePort.step_tick_subscribed tick).trans h.subscribed
  · cases a with
    | start => exact h.latest
    | stop => exact h.latest
    | tick tick => rw [MarketDataRateAdapter.step_tick_latest, h.subscribed, h.latest, h.pair,
        lastRate]
  · rw [hrounds]
    exact h.turn
  · rw [hrounds] at hround
    exact h.within round hround
  · rw [hrounds]
    exact h.filed

/-- The loop of step 6 goes on to the next turn, or it is done. -/
theorem proceed_turn (s : EntrySystem) (next : Option EnqueueTurn) :
    ∃ session, s.proceed (next.map .awaitingPrecheck) = { s with session := session } ∧
      allocationIn session.phase = none ∧
      ∀ turn, turnIn session.phase = some turn → next = some turn := by
  cases next with
  | none =>
    refine ⟨_, rfl, ?_⟩
    rcases s.session.settle_phase .exiting with h | ⟨snapshot, h⟩
    · rw [h]
      exact ⟨rfl, fun turn hturn => by cases hturn⟩
    · rw [h]
      exact ⟨rfl, fun turn hturn => by cases hturn⟩
  | some turn => exact ⟨_, rfl, rfl, fun turn' h => h⟩

/-- A step that leaves the loop at `next`, with `round` as the round it adds to. -/
theorem Kept.goesOn (h : Kept config service s₀ past s) {a : SizedLabel} {entries : EntrySystem}
    {round : EntryRound} {rest : List EntryRound} {next : Option EnqueueTurn}
    (hrate : ∀ b, a ≠ .rate b) (hrounds : rounds config service ((s, a) :: past) = round :: rest)
    (hwithin : round.Within config service s₀)
    (hrest : ∀ r ∈ rest, r ∈ rounds config service past)
    (hfits : ∀ turn, next = some turn → round.Fits turn)
    (hfiled : Filed s₀ { s with entries := entries } (EntryRound.enqueued (round :: rest))) :
    Kept config service s₀ ((s, a) :: past)
      { s with entries := entries.proceed (next.map .awaitingPrecheck) } := by
  obtain ⟨session, heq, hallocation, hturn⟩ := proceed_turn entries next
  rw [heq]
  refine ⟨h.pair, h.maxAgeMillis, h.subscribed.trans (listens_quiet s₀ hrate).symm,
    h.latest.trans (lastRate_quiet s₀ hrate).symm, fun a ha => ?_, fun turn h => ?_,
    fun r hr => ?_, ?_⟩
  · rw [hallocation] at ha
    cases ha
  · exact ⟨round, rest, hrounds, hfits turn (hturn turn h)⟩
  · rw [hrounds] at hr
    rcases List.mem_cons.mp hr with rfl | hr
    · exact hwithin
    · exact h.within r (hrest r hr)
  · rw [hrounds]
    exact hfiled

/-- The command of a turn is put on the queue, or it is not. -/
theorem Kept.resume (h : Kept config service s₀ past s) {turn : EnqueueTurn}
    {reply : PrecheckReply} (now : Int)
    (hs : s.entries.session.phase = some (.prechecked turn reply)) :
    Kept config service s₀ ((s, .entry (.resume now)) :: past)
      { s with entries := s.entries.resume config.pair turn now reply } := by
  obtain ⟨round, rest, hpast, hfits⟩ := h.turn turn (by rw [hs]; rfl)
  have hwithin : round.Within config service s₀ :=
    h.within round (hpast ▸ List.mem_cons_self ..)
  have hrest : ∀ r ∈ rest, r ∈ rounds config service past := by
    intro r hr
    rw [hpast]
    exact List.mem_cons_of_mem _ hr
  have hfiled := h.filed
  rw [hpast] at hfiled
  -- nothing is put on the queue
  have hskip : s.entries.enqueues config (.resume now) = none →
      Kept config service s₀ ((s, .entry (.resume now)) :: past)
        { s with
          entries := s.entries.proceed
            ((turn.work.nextTurn config.pair turn.rest).map .awaitingPrecheck) } := by
    intro hnone
    refine h.goesOn nofun ?_ hwithin hrest (fun next hnext => hfits.skip hnext) hfiled
    rw [rounds, hnone]
    exact hpast
  cases reply with
  | failed => exact hskip (by unfold EntrySystem.enqueues; rw [hs])
  | found existing => exact hskip (by unfold EntrySystem.enqueues; rw [hs])
  | absent =>
    let e : TicketedEntry := ⟨⟨turn.command config.pair, now⟩, turn.work.snapshot.tradeBar⟩
    unfold EntrySystem.resume EntrySystem.enqueue
    dsimp only
    cases hstopped : s.entries.queueStopped with
    | true =>
      rw [if_pos rfl]
      apply hskip
      unfold EntrySystem.enqueues
      rw [hs]
      exact if_pos hstopped
    | false =>
      rw [if_neg Bool.false_ne_true]
      have henqueues : s.entries.enqueues config (.resume now) = some e := by
        unfold EntrySystem.enqueues
        rw [hs]
        exact if_neg (by rw [hstopped]; exact Bool.false_ne_true)
      refine h.goesOn nofun ?_ (hwithin.enqueue hfits now turn.work.snapshot.tradeBar) hrest ?_ ?_
      · rw [rounds, henqueues, hpast]
        rfl
      · intro next hnext
        exact hfits.enqueue rfl rfl hnext
      · have hextended := EntryRound.enqueued_extend e round rest
        show Filed s₀ _ (EntryRound.enqueued (EntryRound.extend e (round :: rest)))
        rw [hextended]
        exact hfiled.enqueue rfl (List.append_assoc ..).symm

/-- A new round begins. -/
theorem Kept.sized (h : Kept config service s₀ past s) {snapshot : MarketSnapshot}
    {detection : Detection} {currentPositions : List Position} {allocation : LotAllocation}
    (hs : s.entries.session.phase =
      some (.awaitingSizing snapshot detection currentPositions allocation))
    {balance : Balance} {now : Int} {sizing : SizingResult}
    (hsizing : service.executeWithFresh s.ratePort config.pair (.ok balance) now = .ok sizing) :
    Kept config service s₀ ((s, .executeWithFresh (.ok balance) now) :: past)
      { s with
        entries := s.entries.proceed
          ((applyLots config.pair snapshot detection currentPositions allocation sizing).map
            .awaitingPrecheck) } := by
  obtain ⟨balance', hbalance, hdecides, hlatest, hfresh⟩ :=
    PositionSizingService.executeWithFresh_ok hsizing
  cases hbalance
  have hwithin : EntryRound.Within config service s₀ ⟨past, balance, now, sizing, []⟩ := by
    refine ⟨hdecides, h.latest.symm.trans hlatest, ?_, List.nodup_nil, Nat.zero_le _,
      fun e he => ?_⟩
    · rw [← h.maxAgeMillis]
      exact hfresh
    · cases he
  have hrounds : rounds config service ((s, .executeWithFresh (.ok balance) now) :: past) =
      ⟨past, balance, now, sizing, []⟩ :: rounds config service past := by
    rw [rounds, hsizing]
  refine h.goesOn nofun hrounds hwithin (fun r hr => hr) ?_ ?_
  · intro turn hturn
    unfold applyLots at hturn
    split at hturn
    · cases hturn
    · rename_i lots hlots
      split at hturn
      · cases hturn
      · refine EntryRound.fits_of_nextTurn rfl ?_ ?_ hturn
        · show (lots.map (·.1)).Nodup
          rw [LotAllocation.apply_keys hlots]
          exact allocation.keyed.sublist (List.filter_sublist.map _)
        · show 0 + (lots.map (·.2.units)).sum ≤ sizing.lot.units
          rw [Nat.zero_add]
          exact LotAllocation.total_le (h.accepted _ (by rw [hs]; rfl)) hlots
  · show Filed s₀ s (EntryRound.enqueued (rounds config service past) ++ [])
    rw [List.append_nil]
    exact h.filed

theorem Kept.executeWithFresh (h : Kept config service s₀ past s)
    {balance : Except BalancePortError Balance} {now : Int} {entries : EntrySystem}
    (hstep : s.entries.step config (.sizing
      (service.executeWithFresh s.ratePort config.pair balance now).toOption) = some entries) :
    Kept config service s₀ ((s, .executeWithFresh balance now) :: past)
      { s with entries := entries } := by
  obtain ⟨phase, hphase, hstep⟩ := Option.bind_eq_some_iff.mp hstep
  cases phase with
  | awaitingSizing snapshot detection currentPositions allocation =>
    cases hstep
    cases hsizing : service.executeWithFresh s.ratePort config.pair balance now with
    | error e =>
      refine h.quiet nofun ?_ (.of_proceed (.of_none rfl rfl))
      cases balance with
      | error e' => rfl
      | ok balance => rw [rounds, hsizing]
    | ok sizing =>
      cases balance with
      | error e' => cases hsizing
      | ok balance => exact h.sized hphase hsizing
  | _ => cases hstep

theorem Kept.step (h : Kept config service s₀ past s) {a : SizedLabel}
    (hstep : s.step config service a = some s') :
    Kept config service s₀ ((s, a) :: past) s' := by
  have hentry : ∀ a, (∀ reply, a ≠ .sizing reply) → (∀ now, a ≠ .resume now) →
      (s.entries.step config a).map (fun entries => { s with entries := entries }) = some s' →
      Kept config service s₀ ((s, .entry a) :: past) s' := by
    intro a hsizing hresume hstep
    obtain ⟨entries, hentries, rfl⟩ := Option.map_eq_some_iff.mp hstep
    refine h.quiet nofun ?_ (EntrySystem.quiet_of_step hsizing hresume hentries)
    have hnone : s.entries.enqueues config a = none := by
      cases a with
      | resume now => exact absurd rfl (hresume now)
      | _ => rfl
    rw [rounds, hnone]
  cases a with
  | rate a =>
    cases hstep
    exact h.rate a
  | executeWithFresh balance now =>
    obtain ⟨entries, hentries, rfl⟩ := Option.map_eq_some_iff.mp hstep
    exact h.executeWithFresh hentries
  | entry a =>
    cases a with
    | sizing reply => cases hstep
    | resume now =>
      obtain ⟨entries, hentries, rfl⟩ := Option.map_eq_some_iff.mp hstep
      obtain ⟨phase, hphase, hresumed⟩ := Option.bind_eq_some_iff.mp hentries
      cases phase with
      | prechecked turn reply =>
        cases hresumed
        exact h.resume now hphase
      | _ => cases hresumed
    | _ => exact hentry _ (fun _ => nofun) (fun _ => nofun) hstep

theorem kept_of_passes (hidle : s₀.Idle)
    (h : Passes (step config service) (fun _ _ => True) s₀ past s) :
    Kept config service s₀ past s :=
  h.invariant (Kept.start hidle) fun _ _ _ _ hkept _ hstep => hkept.step hstep

/-- What waits in the queue is a part of the rounds. -/
theorem Filed.reservedMargin_le {rounds : List EntryRound}
    (h : Filed s₀ s (EntryRound.enqueued rounds)) :
    s.entries.reservedMargin.value ≤ (rounds.map (·.margin)).sum := by
  obtain ⟨filled, -, hsub⟩ := h
  have hqueue : s.entries.queue.Sublist (EntryRound.enqueued rounds) := by
    have hsuffix : s.entries.queue.Sublist (filled.map (·.1) ++ s.entries.unfiled) := by
      unfold EntrySystem.unfiled
      rw [← List.append_assoc]
      exact List.sublist_append_right ..
    exact hsuffix.trans hsub
  rw [← EntryRound.sum_margin_enqueued]
  refine (hqueue.map _).sum_le_sum fun margin hmargin => ?_
  obtain ⟨e, -, rfl⟩ := List.mem_map.mp hmargin
  exact e.entry.command.margin_nonneg

/-- From an idle system, after any run: every round is one sizing at a rate that was fresh,
shared out to one command for each strategy and never more than its lot; when the numbers have
few decimals and the lot is above the least one, the balance carries the round at the target
ratio; the rows that the run wrote, and what still waits for a row, are commands of the rounds
in their order, each at most once; and `reservedMargin` is never more than the rounds ask. -/
theorem entries_within_budget (hpolicy : service.lotPolicy = MaintenanceRatioBasedLotPolicy.decide)
    (hidle : s₀.Idle) (h : Passes (step config service) (fun _ _ => True) s₀ past s) :
    (∀ round ∈ rounds config service past, round.Within config service s₀ ∧
      ∀ input, LotDecisionInput.of config.pair round.balance round.sizing.rate service.target
          service.marginRate = some input →
        MaintenanceRatioBasedLotPolicy.Exact input → 100 < round.sizing.lot.units →
        round.Covered service.target) ∧
    Filed s₀ s (EntryRound.enqueued (rounds config service past)) ∧
    s.entries.reservedMargin.value ≤ ((rounds config service past).map (·.margin)).sum := by
  have hkept := kept_of_passes hidle h
  refine ⟨fun round hround => ?_, hkept.filed, hkept.filed.reservedMargin_le⟩
  have hwithin := hkept.within round hround
  exact ⟨hwithin, fun input hinput hexact habove =>
    hwithin.covered hpolicy hinput hexact habove⟩

/-- A system without a history that listens to the ticks. -/
def listening : SizedEntries := ⟨.fresh, ⟨.usdJpy, 5000, none, true⟩⟩

end SizedEntries

/-- A million yen. -/
def million : Balance := ⟨⟨1000000, .jpy⟩, by decide +kernel⟩

/-- A tick, and the snapshot of it up to the row of its command. -/
def sizedLabels : List SizedLabel :=
  [.rate (.tick (crossTick 867605000)), .entry (.onMarketData crossSnapshot),
    .entry (.exitsDone (.ruled [liveEntryRule (fun _ => false) (some crossSizing) crossSnapshot])),
    .entry (.balance (some ⟨1000000, .jpy⟩)), .entry (.openPositions true),
    .executeWithFresh (.ok million) 867605100, .entry (.precheck true),
    .entry (.resume 867605200)] ++
  (fillLabels (.ofNat 1) 867605300).map .entry

/-- A million yen carry 118200 dollars at 151 yen: all of it is one position, and the balance
is 1.4 times what it asks for. -/
theorem entries_within_budget_million : ∃ past s,
    Passes (SizedEntries.step usdJpyConfig (sizingService million)) (fun _ _ => True)
      .listening past s ∧
    s.entries.db.positions.map (·.lot.units) = [118200] ∧
    (SizedEntries.rounds usdJpyConfig (sizingService million) past).length = 1 ∧
    ∀ round ∈ SizedEntries.rounds usdJpyConfig (sizingService million) past,
      round.units ≤ round.sizing.lot.units ∧
      round.Covered (sizingService million).target := by
  have hrun : ∃ past s,
      Passes (SizedEntries.step usdJpyConfig (sizingService million)) (fun _ _ => True)
        .listening past s ∧
      s.entries.db.positions.map (·.lot.units) = [118200] ∧
      (SizedEntries.rounds usdJpyConfig (sizingService million) past).map
        (fun r => (r.balance.money.value, r.sizing.rate.value, r.sizing.lot.units)) =
          [(1000000, 151, 118200)] :=
    Runs.exists_passes sizedLabels (by decide +kernel)
  obtain ⟨past, s, hpasses, hrows, hrounds⟩ := hrun
  obtain ⟨hwithin, -, -⟩ := SizedEntries.entries_within_budget rfl ⟨rfl, rfl, rfl⟩ hpasses
  refine ⟨past, s, hpasses, hrows, ?_, fun round hround => ?_⟩
  · simpa using congrArg List.length hrounds
  · obtain ⟨hround', hcovered⟩ := hwithin round hround
    have hvalues := List.mem_map_of_mem (f := fun r : EntryRound =>
      (r.balance.money.value, r.sizing.rate.value, r.sizing.lot.units)) hround
    rw [hrounds, List.mem_singleton, Prod.mk.injEq, Prod.mk.injEq] at hvalues
    obtain ⟨hbalance, hrate, hlot⟩ := hvalues
    obtain ⟨input, hinput, -⟩ := hround'.decides.decided
    refine ⟨hround'.lots, hcovered input hinput ?_ (by rw [hlot]; omega)⟩
    apply exact_of_sizingService hinput
    · exact ⟨1000000 * 10 ^ 12, by rw [hbalance]; norm_num⟩
    · exact ⟨151 * 10 ^ 9, by rw [hrate]; norm_num⟩
    · rw [hrate]
      norm_num

end Luchida
