import Luchida.EntrySystem

/- The count of entries, abstractly. A signal is cleared by the check before `enqueue`,
   waits in the queue and with the broker, flies once the broker has opened its position,
   and ends as a row. `EntryView.Moves` is what one step can do to these, and
   `moves_of_step` says that a step of the system does no more. -/
namespace Luchida

/-! ## Views and their moves -/

def Ticket.isFor (pair : CurrencyPair) (strategy : StrategyName) (t : Ticket) : Bool :=
  t.pair = pair ∧ t.strategyName = strategy

/-- The row counts for `findOpenByPairAndStrategy`. -/
def Position.isOpenFor (pair : CurrencyPair) (strategy : StrategyName) (p : Position) : Bool :=
  p.pair = pair ∧ p.strategyName = strategy ∧ p.status = .opened

structure EntryView where
  /-- The check found no OPEN row and its caller has not resumed. -/
  cleared : Option Ticket
  waiting : List Ticket
  /-- The broker has opened the position and its row is not written. -/
  flying : Option (PositionId × Ticket)
  opened : List BrokerEntry
  rows : List Position

inductive EntryEvent where
  | quiet
  | clear (t : Ticket)
  | forget
  | enqueue
  | drop
  | fill
  | record
  | unrecord
  | brokerCloses
  | rowsClose

namespace EntryView

/-- One move of a view. -/
inductive Moves : EntryEvent → EntryView → EntryView → Prop
  | quiet (v : EntryView) : Moves .quiet v v
  | clear {v : EntryView} {t : Ticket} :
      (∀ row ∈ v.rows, row.isOpenFor t.pair t.strategyName = false) →
      Moves (.clear t) v { v with cleared := some t }
  | forget (v : EntryView) : Moves .forget v { v with cleared := none }
  | enqueue {v : EntryView} {t : Ticket} : v.cleared = some t →
      Moves .enqueue v { v with cleared := none, waiting := v.waiting ++ [t] }
  | drop {v : EntryView} {t : Ticket} {rest : List Ticket} : v.waiting = t :: rest →
      Moves .drop v { v with waiting := rest }
  | fill {v : EntryView} {t : Ticket} {rest : List Ticket} {id : PositionId} :
      v.waiting = t :: rest → v.flying = none → (∀ e ∈ v.opened, e.id ≠ id) →
      Moves .fill v { v with
        waiting := rest, flying := some (id, t), opened := ⟨id, t, true⟩ :: v.opened }
  | record {v : EntryView} {id : PositionId} {t : Ticket} {row : Position} :
      v.flying = some (id, t) → row.id = id → row.isOpenFor t.pair t.strategyName = true →
      Moves .record v { v with flying := none, rows := v.rows ++ [row] }
  | unrecord (v : EntryView) : Moves .unrecord v { v with flying := none }
  | brokerCloses (v : EntryView) (id : PositionId) :
      Moves .brokerCloses v { v with opened := v.opened.map (·.close id) }
  | rowsClose {v : EntryView} {f : Position → Position} :
      (∀ p, (f p).id = p.id ∧ (f p).pair = p.pair ∧ (f p).strategyName = p.strategyName) →
      (∀ p, (f p).status = p.status ∨
        (f p).status = .closed ∧ ∀ e ∈ v.opened, e.id = p.id → e.live = false) →
      Moves .rowsClose v { v with rows := v.rows.map f }

end EntryView

/-! ## The view of the system -/

/-- The signal that is cleared in a phase. -/
def clearedIn (pair : CurrencyPair) : Option EntryPhase → Option Ticket
  | some (.prechecked turn .absent) => some (turn.ticket pair)
  | _ => none

/-- The signal that `placeEntry` was sent for and the broker has not filled. -/
def DrainPhase.unfilled : DrainPhase → List Ticket
  | .placing entry none => [entry.ticket]
  | _ => []

/-- The position that is opened and has no row yet. -/
def DrainPhase.flying : DrainPhase → Option (PositionId × Ticket)
  | .placing entry (some id) => some (id, entry.ticket)
  | .insertingPosition entry result => some (result.positionId, entry.ticket)
  | _ => none

namespace EntrySystem

variable {config : EntryConfig}

def view (config : EntryConfig) (s : EntrySystem) : EntryView where
  cleared := clearedIn config.pair s.session.phase
  waiting := s.drain.unfilled ++ s.queue.map (·.ticket)
  flying := s.drain.flying
  opened := s.opened
  rows := s.db.positions

/-- What the system does where a view clears a signal or loses one in flight. -/
def Labelled (config : EntryConfig) (s : EntrySystem) (a : EntryLabel) : EntryEvent → Prop
  | .clear t => a = .precheck true ∧ ∃ turn, s.session.phase = some (.awaitingPrecheck turn) ∧
      t = turn.ticket config.pair ∧ s.db.openFor config.pair turn.strategy = []
  | .unrecord => (a = .placeEntryRejects ∧ ∃ entry id, s.drain = .placing entry (some id)) ∨
      ∃ reply entry result, a = .insertPosition reply ∧ s.drain = .insertingPosition entry result ∧
        (reply = .failed ∨ s.db.hasRow result.positionId = true)
  | _ => True

theorem isOpenFor_iff {pair : CurrencyPair} {strategy : StrategyName} {p : Position} :
    p.isOpenFor pair strategy = true ↔
      p.pair = pair ∧ p.strategyName = strategy ∧ p.status = .opened := by
  simp [Position.isOpenFor]

theorem openFor_eq_filter (db : Database) (pair : CurrencyPair) (strategy : StrategyName) :
    db.openFor pair strategy = db.positions.filter (·.isOpenFor pair strategy) := rfl

theorem not_holds_iff {s : EntrySystem} {id : PositionId} :
    ¬ s.Holds id ↔ ∀ e ∈ s.opened, e.id = id → e.live = false := by
  simp [Holds]

/-- On the way through `handleSignals` only the cleared signal changes. -/
theorem view_proceed (s : EntrySystem) (phase : Option EntryPhase) :
    (s.proceed phase).view config =
      { s.view config with cleared := clearedIn config.pair phase } := by
  cases phase with
  | some phase => rfl
  | none =>
    have hnone : clearedIn config.pair (s.session.settle .exiting).phase = none := by
      rcases s.session.settle_phase .exiting with h | ⟨next, h⟩ <;> rw [h] <;> rfl
    simp only [proceed, view, hnone]
    rfl

/-- A step from a phase that clears nothing to another such phase. -/
theorem moves_proceed {s : EntrySystem} (hs : clearedIn config.pair s.session.phase = none)
    {phase : Option EntryPhase} (hphase : clearedIn config.pair phase = none) :
    EntryView.Moves .quiet (s.view config) ((s.proceed phase).view config) := by
  have heq : (s.proceed phase).view config = s.view config := by
    rw [view_proceed, hphase]
    simp only [view, hs]
  rw [heq]
  exact .quiet _

/-! ### handleSignals -/

theorem clearedIn_decideAllocation (pair : CurrencyPair) (snapshot : MarketSnapshot)
    (detection : Detection) (balance : Money) (currentPositions : List Position) :
    clearedIn config.pair
      (decideAllocation pair snapshot detection balance currentPositions) = none := by
  unfold decideAllocation
  split
  · rfl
  · split
    · rfl
    · split <;> rfl

theorem clearedIn_awaitingPrecheck (turn : Option EnqueueTurn) :
    clearedIn config.pair (turn.map .awaitingPrecheck) = none := by
  cases turn <;> rfl

theorem moves_exitsDone {s : EntrySystem} {snapshot : MarketSnapshot}
    (hs : s.session.phase = some (.exiting snapshot)) (outcome : ExitsOutcome) :
    EntryView.Moves .quiet (s.view config) ((s.exitsDone snapshot outcome).view config) := by
  have hnone : clearedIn config.pair s.session.phase = none := by rw [hs]; rfl
  cases outcome with
  | threw => exact moves_proceed hnone rfl
  | blocked => exact moves_proceed hnone rfl
  | killed =>
    have hsettled : clearedIn config.pair (s.session.stop.settle .exiting).phase = none := by
      rcases s.session.stop.settle_phase .exiting with h | ⟨next, h⟩ <;> rw [h] <;> rfl
    have heq : (s.exitsDone snapshot .killed).view config = s.view config := by
      simp only [exitsDone, view, hsettled, hnone]
    rw [heq]
    exact .quiet _
  | ruled results =>
    unfold exitsDone
    dsimp only
    split
    · exact moves_proceed hnone rfl
    · exact moves_proceed hnone rfl
    · exact moves_proceed hnone rfl

theorem view_enqueue (s : EntrySystem) (entry : TicketedEntry) :
    (s.enqueue entry).view config = s.view config ∨
      (s.enqueue entry).view config =
        { s.view config with waiting := (s.view config).waiting ++ [entry.ticket] } := by
  unfold enqueue
  split
  · exact .inl rfl
  · exact .inr (by simp [view])

/-- A caller that resumes gives up its cleared signal or puts it in the queue. -/
theorem moves_resume {s : EntrySystem} {turn : EnqueueTurn} {reply : PrecheckReply}
    (hs : s.session.phase = some (.prechecked turn reply)) (now : Int) :
    ∃ e, EntryView.Moves e (s.view config) ((s.resume config.pair turn now reply).view config) ∧
      ∀ a, Labelled config s a e := by
  cases reply with
  | failed => exact ⟨.quiet, moves_proceed (by rw [hs]; rfl) (clearedIn_awaitingPrecheck _),
      fun _ => trivial⟩
  | found existing => exact ⟨.quiet, moves_proceed (by rw [hs]; rfl) (clearedIn_awaitingPrecheck _),
      fun _ => trivial⟩
  | absent =>
    have hcleared : (s.view config).cleared = some (turn.ticket config.pair) := by
      simp only [view, hs]
      rfl
    simp only [resume]
    rw [view_proceed, clearedIn_awaitingPrecheck]
    rcases s.view_enqueue ⟨⟨turn.command config.pair, now⟩, turn.work.snapshot.tradeBar⟩ with h | h
    · rw [h]
      exact ⟨.forget, .forget _, fun _ => trivial⟩
    · rw [h]
      exact ⟨.enqueue, .enqueue hcleared, fun _ => trivial⟩

theorem precheckReply_absent {s : EntrySystem} {pair : CurrencyPair} {strategy : StrategyName}
    {served : Bool} (h : s.precheckReply pair strategy served = .absent) :
    served = true ∧ s.db.openFor pair strategy = [] := by
  unfold precheckReply at h
  split at h
  · cases h
  · split at h
    · cases h
    · rename_i hnone
      exact ⟨rfl, (s.db.findOpenByPairAndStrategy_none_iff pair strategy).mp hnone⟩
    · cases h

theorem moves_precheck {s : EntrySystem} {turn : EnqueueTurn}
    (hs : s.session.phase = some (.awaitingPrecheck turn)) (served : Bool) :
    ∃ e, EntryView.Moves e (s.view config) ((s.proceed (some (.prechecked turn
        (s.precheckReply config.pair turn.strategy served)))).view config) ∧
      Labelled config s (.precheck served) e := by
  have hnone : clearedIn config.pair s.session.phase = none := by rw [hs]; rfl
  cases hreply : s.precheckReply config.pair turn.strategy served with
  | failed => exact ⟨.quiet, moves_proceed hnone rfl, trivial⟩
  | found existing => exact ⟨.quiet, moves_proceed hnone rfl, trivial⟩
  | absent =>
    obtain ⟨rfl, hopen⟩ := precheckReply_absent hreply
    refine ⟨.clear (turn.ticket config.pair), ?_, rfl, turn, hs, rfl, hopen⟩
    rw [view_proceed]
    refine .clear fun row hrow => ?_
    rw [openFor_eq_filter, List.filter_eq_nil_iff] at hopen
    exact Bool.eq_false_iff.mpr (hopen row hrow)

/-! ### EntryQueue -/

theorem moves_drainAt {s s' : EntrySystem} {now : Int} (h : s.drainAt config now = some s') :
    ∃ e, EntryView.Moves e (s.view config) (s'.view config) ∧ ∀ a, Labelled config s a e := by
  unfold drainAt at h
  split at h
  · rename_i head rest hdrain hqueue _
    have hwaiting : (s.view config).waiting = head.ticket :: rest.map (·.ticket) := by
      simp [view, hdrain, hqueue, DrainPhase.unfilled]
    split at h <;> cases h
    · refine ⟨.drop, ?_, fun _ => trivial⟩
      have := EntryView.Moves.drop hwaiting
      simpa [view, hdrain, DrainPhase.unfilled] using this
    · refine ⟨.quiet, ?_, fun _ => trivial⟩
      have heq : ({ s with queue := rest, drain := .placing head none } : EntrySystem).view config =
          s.view config := by
        simp [view, hdrain, hqueue, DrainPhase.unfilled, DrainPhase.flying]
      rw [heq]
      exact .quiet _
  · cases h

/-- The row of a filled command, and whether the insert that writes it took effect. -/
theorem write_insertPosition {db db' : Database} {p : Position} {reply : DbReply} {ok : Bool}
    (h : db.write (db.insertPosition p) reply = (ok, db')) :
    (db'.positions = db.positions ++ [p]) ∨
      (ok = false ∧ db' = db ∧ (reply = .failed ∨ db.hasRow p.id = true)) := by
  cases hrow : db.hasRow p.id with
  | true =>
    have hnone : db.insertPosition p = none := by simp [Database.insertPosition, hrow]
    rw [hnone] at h
    cases reply <;> cases h <;> exact .inr ⟨rfl, rfl, .inr rfl⟩
  | false =>
    obtain ⟨mid, hmid⟩ := Database.insertPosition_isSome hrow
    have hpositions : mid.positions = db.positions ++ [p] := by
      simp only [Database.insertPosition, hrow, Bool.false_eq_true, dite_false,
        Option.some.injEq] at hmid
      rw [← hmid]
    rw [hmid] at h
    cases reply <;> cases h
    · exact .inl hpositions
    · exact .inr ⟨rfl, rfl, .inl rfl⟩
    · exact .inl hpositions

theorem write_insertSnapshot_positions (db : Database) (id : PositionId) (snapshot : EntrySnapshot)
    (reply : DbReply) :
    (db.write (db.insertSnapshot id snapshot) reply).2.positions = db.positions := by
  cases h : db.insertSnapshot id snapshot with
  | none => cases reply <;> rfl
  | some db' =>
    have := (Database.insertSnapshot_hasSnapshot h).2
    cases reply <;> simp [Database.write, this]

theorem moves_insertPosition {s s' : EntrySystem} {entry : TicketedEntry} {result : EntryResult}
    {reply : DbReply} (hdrain : s.drain = .insertingPosition entry result)
    (h : s.stepDrain (.insertingPosition entry result) (.insertPosition reply) = some s') :
    ∃ e, EntryView.Moves e (s.view config) (s'.view config) ∧
      Labelled config s (.insertPosition reply) e := by
  have hflying : (s.view config).flying = some (result.positionId, entry.ticket) := by
    simp only [view, hdrain]
    rfl
  have hsame : ({ s with drain := .idle } : EntrySystem).view config =
      { s.view config with flying := none } := by
    simp [view, hdrain, DrainPhase.unfilled, DrainPhase.flying]
  -- the row is there as soon as the insert took effect, whatever its reply says
  let row : Position := { Position.openWith entry.entry.command result with status := .opened }
  have hid : row.id = result.positionId := rfl
  have hopen : row.isOpenFor entry.ticket.pair entry.ticket.strategyName = true := by
    rw [isOpenFor_iff]
    exact ⟨rfl, rfl, rfl⟩
  simp only [stepDrain] at h
  split at h <;> rename_i db hwrite <;> cases h
  · rcases write_insertPosition hwrite with hrows | ⟨hfalse, -⟩
    · refine ⟨.record, ?_, trivial⟩
      have hmove := EntryView.Moves.record hflying hid hopen
      simpa [view, hdrain, hrows, DrainPhase.unfilled, DrainPhase.flying] using hmove
    · cases hfalse
  · rcases write_insertPosition hwrite with hrows | ⟨-, rfl, hfailed⟩
    · refine ⟨.record, ?_, trivial⟩
      have hmove := EntryView.Moves.record hflying hid hopen
      simpa [view, hdrain, hrows, DrainPhase.unfilled, DrainPhase.flying] using hmove
    · refine ⟨.unrecord, ?_, .inr ⟨reply, entry, result, rfl, hdrain, hfailed⟩⟩
      rw [hsame]
      exact .unrecord _

theorem moves_stepDrain {s s' : EntrySystem} {a : EntryLabel} {phase : DrainPhase}
    (hdrain : s.drain = phase) (h : s.stepDrain phase a = some s') :
    ∃ e, EntryView.Moves e (s.view config) (s'.view config) ∧ Labelled config s a e := by
  unfold stepDrain at h
  split at h
  · rename_i entry id
    split at h <;> cases h
    rename_i hfresh
    refine ⟨.fill, ?_, trivial⟩
    have hwaiting : (s.view config).waiting = entry.ticket :: s.queue.map (·.ticket) := by
      simp [view, hdrain, DrainPhase.unfilled]
    have hflying : (s.view config).flying = none := by simp [view, hdrain, DrainPhase.flying]
    have hmove := EntryView.Moves.fill hwaiting hflying hfresh
    simpa [view, hdrain, DrainPhase.unfilled, DrainPhase.flying] using hmove
  · cases h
    refine ⟨.quiet, ?_, trivial⟩
    have heq := EntryView.Moves.quiet (s.view config)
    simpa [view, hdrain, DrainPhase.unfilled, DrainPhase.flying] using heq
  · rename_i entry opened
    cases h
    cases opened with
    | none =>
      refine ⟨.drop, ?_, trivial⟩
      have hwaiting : (s.view config).waiting = entry.ticket :: s.queue.map (·.ticket) := by
        simp [view, hdrain, DrainPhase.unfilled]
      have hmove := EntryView.Moves.drop hwaiting
      simpa [view, hdrain, DrainPhase.unfilled, DrainPhase.flying] using hmove
    | some id =>
      refine ⟨.unrecord, ?_, .inl ⟨rfl, entry, id, hdrain⟩⟩
      have hmove := EntryView.Moves.unrecord (s.view config)
      simpa [view, hdrain, DrainPhase.unfilled, DrainPhase.flying] using hmove
  · exact moves_insertPosition hdrain h
  · cases h
    refine ⟨.quiet, ?_, trivial⟩
    have heq := EntryView.Moves.quiet (s.view config)
    simpa [view, hdrain, write_insertSnapshot_positions, DrainPhase.unfilled, DrainPhase.flying]
      using heq
  · cases h

/-! ### The rows -/

theorem moves_exitRecorded {s : EntrySystem} {closed : Position} (hclosed : closed.status = .closed)
    (hgone : ¬ s.Holds closed.id) :
    EntryView.Moves .rowsClose (s.view config)
      (({ s with db := s.db.update closed } : EntrySystem).view config) := by
  refine EntryView.Moves.rowsClose (v := s.view config) (f := Database.updateRow closed) ?_ ?_
  · intro p
    unfold Database.updateRow
    split <;> exact ⟨rfl, rfl, rfl⟩
  · intro p
    unfold Database.updateRow
    split
    · rename_i heq
      exact .inr ⟨hclosed, fun e he heid => not_holds_iff.mp hgone e he (heid.trans heq)⟩
    · exact .inl rfl

theorem moves_markClosed {s : EntrySystem} {id : PositionId} (hgone : ¬ s.Holds id) (now : Int) :
    EntryView.Moves .rowsClose (s.view config)
      (({ s with db := s.db.markClosed id now } : EntrySystem).view config) := by
  refine EntryView.Moves.rowsClose (v := s.view config) (f := Database.closeRow id now) ?_ ?_
  · intro p
    unfold Database.closeRow
    split <;> exact ⟨rfl, rfl, rfl⟩
  · intro p
    unfold Database.closeRow
    split
    · rename_i heq
      exact .inr ⟨rfl, fun e he heid => not_holds_iff.mp hgone e he (heid.trans heq.1)⟩
    · exact .inl rfl

theorem moves_stepSession {s s' : EntrySystem} {a : EntryLabel} {phase : EntryPhase}
    (hs : s.session.phase = some phase) (h : s.stepSession config phase a = some s') :
    ∃ e, EntryView.Moves e (s.view config) (s'.view config) ∧ Labelled config s a e := by
  cases a with
  | exitsDone outcome =>
    cases phase <;> cases h
    exact ⟨.quiet, moves_exitsDone hs outcome, trivial⟩
  | balance reply =>
    cases phase <;> cases h
    refine ⟨.quiet, moves_proceed (by rw [hs]; rfl) ?_, trivial⟩
    cases reply <;> rfl
  | openPositions served =>
    cases phase <;> cases h
    refine ⟨.quiet, moves_proceed (by rw [hs]; rfl) ?_, trivial⟩
    split
    · exact clearedIn_decideAllocation ..
    · rfl
  | sizing reply =>
    cases phase <;> cases h
    exact ⟨.quiet, moves_proceed (by rw [hs]; rfl) (clearedIn_awaitingPrecheck _), trivial⟩
  | precheck served =>
    cases phase <;> cases h
    exact moves_precheck hs served
  | resume now =>
    cases phase <;> cases h
    obtain ⟨e, hmove, hlabel⟩ := @moves_resume config _ _ _ hs now
    exact ⟨e, hmove, hlabel _⟩
  | _ => cases h

theorem moves_onMarketData (s : EntrySystem) (snapshot : MarketSnapshot) :
    EntryView.Moves .quiet (s.view config) (({ s with
      session := s.session.onMarketData config.pair .exiting snapshot } : EntrySystem).view
        config) := by
  have heq : clearedIn config.pair (s.session.onMarketData config.pair .exiting snapshot).phase =
      clearedIn config.pair s.session.phase := by
    rcases s.session.onMarketData_phase config.pair .exiting snapshot with h | ⟨hnone, h⟩
    · rw [h]
    · rw [h, hnone]
      rfl
  have hmove := EntryView.Moves.quiet (s.view config)
  simpa [view, heq] using hmove

theorem moves_dropQueued {s s' : EntrySystem} (h : s.step config .dropQueued = some s') :
    EntryView.Moves .drop (s.view config) (s'.view config) := by
  simp only [step] at h
  split at h
  · rename_i head rest hdrain hqueue _
    cases h
    have hwaiting : (s.view config).waiting = head.ticket :: rest.map (·.ticket) := by
      simp [view, hdrain, hqueue, DrainPhase.unfilled]
    have hmove := EntryView.Moves.drop hwaiting
    simpa [view, hdrain, DrainPhase.unfilled] using hmove
  · cases h

/-- Every step of the system is a move of its view. -/
theorem moves_of_step {s s' : EntrySystem} {a : EntryLabel} (h : s.step config a = some s') :
    ∃ e, EntryView.Moves e (s.view config) (s'.view config) ∧ Labelled config s a e := by
  have hphase : ∀ {a'},
      (s.session.phase.bind fun phase => s.stepSession config phase a') = some s' →
      ∃ e, EntryView.Moves e (s.view config) (s'.view config) ∧ Labelled config s a' e := by
    intro a' h
    obtain ⟨phase, hs, hstep⟩ := Option.bind_eq_some_iff.mp h
    exact moves_stepSession hs hstep
  cases a with
  | onMarketData snapshot =>
    cases h
    exact ⟨.quiet, moves_onMarketData s snapshot, trivial⟩
  | exitsDone outcome => exact hphase h
  | balance reply => exact hphase h
  | openPositions served => exact hphase h
  | sizing reply => exact hphase h
  | precheck served => exact hphase h
  | resume now => exact hphase h
  | drain now =>
    obtain ⟨e, hmove, hlabel⟩ := moves_drainAt h
    exact ⟨e, hmove, hlabel _⟩
  | brokerOpens id => exact moves_stepDrain rfl h
  | placeEntryResolves entryPrice executedAt => exact moves_stepDrain rfl h
  | placeEntryRejects => exact moves_stepDrain rfl h
  | insertPosition reply => exact moves_stepDrain rfl h
  | insertSnapshot reply => exact moves_stepDrain rfl h
  | brokerCloses id =>
    simp only [step] at h
    split at h <;> cases h
    exact ⟨.brokerCloses, .brokerCloses _ id, trivial⟩
  | exitRecorded closed =>
    simp only [step] at h
    split at h <;> cases h
    rename_i hclosed
    exact ⟨.rowsClose, moves_exitRecorded hclosed.1 hclosed.2, trivial⟩
  | markClosed id now =>
    simp only [step] at h
    split at h <;> cases h
    rename_i hgone
    exact ⟨.rowsClose, moves_markClosed hgone now, trivial⟩
  | stop =>
    cases h
    exact ⟨.quiet, .quiet _, trivial⟩
  | stopQueue =>
    simp only [step] at h
    split at h <;> cases h
    exact ⟨.quiet, .quiet _, trivial⟩
  | dropQueued => exact ⟨.drop, moves_dropQueued h, trivial⟩

end EntrySystem

end Luchida
