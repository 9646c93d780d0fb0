import Luchida.ExitRecords

/- What the rows of positions say once they are closed, over every run of the exit side.

   PositionExtremesUpdater.ts shows each snapshot that is processed to the OPEN positions of
   the pair, and `ExitDispatcher` hands what was tracked to `ExitExecution`, which writes it
   with the exit. Between the two lie the order, its fill and the update, which may be left to
   the compensation queue, while the emergency path and the sync write the same rows.

   `exits_recorded` follows a row back to the steps that made it: it was closed by one exit as
   a whole, never by parts of two, and its best and worst excursion are those of the prices
   that were shown of the position before the order was sent. -/
namespace Luchida

namespace ExitSystem

variable {pair : CurrencyPair} {s₀ s s' : ExitSystem} {past : List Moment} {p : Position}

/-! ## The session -/

/-- How far the loop of `dispatch` may have come with these positions. -/
inductive Visited (snapshot : MarketSnapshot) (positions : List Position)
    (tracker : ExtremeTracker) : ExitPhase → Prop
  | entering : Visited snapshot positions tracker .entering
  | anew (next : MarketSnapshot) : Visited snapshot positions tracker (.updatingExtremes next)
  | turned {p : Position} {rest : List Position} {result : ExitDispatchResult}
      {command : ExitCommand} {extremes : ExtremesSnapshot} :
      p ∈ positions → (∀ q ∈ rest, q ∈ positions) → command.positionId = p.id →
      OrderedMap.get tracker p.id = some extremes →
      Visited snapshot positions tracker
        (.finding ⟨⟨snapshot, rest, result⟩, p, command, extremes⟩ none)

theorem Visited.of_cons {snapshot : MarketSnapshot} {positions : List Position}
    {tracker : ExtremeTracker} {phase : ExitPhase} (h : Visited snapshot positions tracker phase)
    (p : Position) : Visited snapshot (p :: positions) tracker phase := by
  cases h with
  | entering => exact .entering
  | anew next => exact .anew next
  | turned hp hrest hown htracked =>
    exact .turned (List.mem_cons_of_mem _ hp) (fun q hq => List.mem_cons_of_mem _ (hrest q hq))
      hown htracked

theorem visit_visited (rules : Position → ExitAnswer) (snapshot : MarketSnapshot)
    (positions : List Position) (result : ExitDispatchResult) (s : ExitSystem) :
    ∃ session breaker, visit rules snapshot positions result s =
        { s with session := session, breaker := breaker } ∧
      ∀ phase, session.phase = some phase → Visited snapshot positions s.tracker phase := by
  induction positions generalizing result s with
  | nil =>
    simp only [visit, dispatched]
    split
    · refine ⟨_, s.breaker, rfl, fun phase hphase => ?_⟩
      rcases s.session.stop.settle_phase .updatingExtremes with h | ⟨next, h⟩
      · rw [h] at hphase
        cases hphase
      · rw [h] at hphase
        cases hphase
        exact .anew next
    · refine ⟨_, s.breaker, rfl, fun phase hphase => ?_⟩
      cases hphase
      exact .entering
  | cons p rest ih =>
    simp only [visit]
    have hnext : ∀ result breaker, ∃ session breaker',
        visit rules snapshot rest result { s with breaker := breaker } =
          { s with session := session, breaker := breaker' } ∧
        ∀ phase, session.phase = some phase →
          Visited snapshot (p :: rest) s.tracker phase := by
      intro result breaker
      obtain ⟨session, breaker', heq, hvisited⟩ := ih result { s with breaker := breaker }
      exact ⟨session, breaker', heq, fun phase hphase => (hvisited phase hphase).of_cons p⟩
    split
    · exact hnext _ s.breaker
    split
    · exact hnext _ s.breaker
    split
    · exact hnext _ s.breaker
    · exact hnext _ _
    · exact hnext _ s.breaker
    · rename_i command _
      split
      · exact hnext _ _
      · rename_i hid
        split
        · exact hnext _ s.breaker
        · rename_i extremes htracked
          refine ⟨_, s.breaker, rfl, fun phase hphase => ?_⟩
          cases hphase
          exact .turned (List.mem_cons_self ..) (fun q hq => List.mem_cons_of_mem _ hq)
            (not_not.mp hid) htracked

/-- Where the positions are priced, the dispatch has what the next turn needs. -/
theorem Visited.kept {snapshot : MarketSnapshot} {positions : List Position} {phase : ExitPhase}
    (h : Visited snapshot positions s.tracker phase)
    (hpriced : ∀ p ∈ positions, Priced pair past s snapshot p) : PhaseKept pair past s phase := by
  cases h with
  | entering => trivial
  | anew next => trivial
  | @turned p rest result command extremes hp hrest hown htracked =>
    have hp := hpriced p hp
    have hprice := hp.price (by simp [htracked])
    exact ⟨⟨hown, hp.registered, htracked, hprice, fun q hq => hpriced q (hrest q hq)⟩, by simp⟩

/-- A position that is about to be written is so by the session, or by one of the others. -/
theorem Settles.session (h : s'.Settles p) (hcompensation : s'.compensation = s.compensation)
    (hdrain : s'.drain = s.drain) (hemergency : s'.emergency = s.emergency) :
    s.Settles p ∨ ∃ turn closed reply,
      s'.session.phase = some (.updating turn closed reply) ∧ closed.position = p := by
  cases h with
  | updating hphase => exact .inr ⟨_, _, _, hphase, rfl⟩
  | queued hmem => exact .inl (.queued (hcompensation ▸ hmem))
  | retrying hphase hmem => exact .inl (.retrying (hdrain ▸ hphase) hmem)
  | emergency hmem => exact .inl (.emergency (hemergency ▸ hmem))

theorem Waits.session (h : s'.Waits p) (hemergency : s'.emergency = s.emergency) :
    s.Waits p ∨ ∃ turn,
      s'.session.phase = some (.finding turn (some (some p))) ∧ p.status = .opened := by
  cases h with
  | found hphase hopen => exact .inr ⟨_, hphase, hopen⟩
  | listed hphase hmem => exact .inl (.listed (hemergency ▸ hphase) hmem)
  | placing hmem => exact .inl (.placing (hemergency ▸ hmem))

/-- A quiet step of the session that writes nothing, into phases that hold no row. -/
theorem Kept.session (h : Kept pair s₀ past s) {a : ExitLabel} (ha : ExitLabel.isQuiet a = true)
    {session : TradingSession ExitPhase} (breaker : ExitFailureCircuitBreaker)
    (log : List BrokerEvent)
    (hphase : ∀ phase, session.phase = some phase →
      s.session.phase = some phase ∨ (handIn (some phase)).isFree = true ∧
        (∀ turn row, phase ≠ .finding turn (some (some row))) ∧
        PhaseKept pair ((s, a) :: past)
          { s with session := session, breaker := breaker, log := log } phase) :
    Kept pair s₀ ((s, a) :: past)
      { s with session := session, breaker := breaker, log := log } := by
  refine h.frame ha rfl (h.unchanged (s, a)) (fun p hp => .inl ?_) (fun p hp => .inl ?_)
    fun phase hmem => (hphase phase hmem).imp_right (·.2.2)
  · rcases hp.session (s := s) rfl rfl rfl with hp | ⟨turn, closed, reply, hmem, rfl⟩
    · exact hp
    · rcases hphase _ hmem with hmem | ⟨hfree, -⟩
      · exact .updating hmem
      · cases hfree
  · rcases hp.session (s := s) rfl with hp | ⟨turn, hmem, hopen⟩
    · exact hp
    · rcases hphase _ hmem with hmem | ⟨-, hnone, -⟩
      · exact .found hmem hopen
      · exact absurd rfl (hnone turn p)

theorem Kept.visit (h : Kept pair s₀ past s) {a : ExitLabel} (ha : ExitLabel.isQuiet a = true)
    {snapshot : MarketSnapshot} {positions : List Position}
    (hpriced : ∀ p ∈ positions, Priced pair past s snapshot p) (rules : Position → ExitAnswer)
    (result : ExitDispatchResult) (breaker : ExitFailureCircuitBreaker) :
    Kept pair s₀ ((s, a) :: past)
      (visit rules snapshot positions result { s with breaker := breaker }) := by
  obtain ⟨session, breaker', heq, hvisited⟩ :=
    visit_visited rules snapshot positions result { s with breaker := breaker }
  rw [heq]
  refine h.session ha breaker' s.log fun phase hphase => .inr ⟨?_, ?_, ?_⟩
  · cases hvisited phase hphase <;> rfl
  · intro turn row heq
    cases hvisited phase hphase <;> cases heq
  · refine Visited.kept (s := { s with session := session, breaker := breaker' })
      (hvisited phase hphase) fun p hp => ?_
    exact (hpriced p hp).grow (.refl s.db) rfl fun id => seen_quiet ha pair id s past

theorem Kept.settle (h : Kept pair s₀ past s) {a : ExitLabel} (ha : ExitLabel.isQuiet a = true) :
    Kept pair s₀ ((s, a) :: past) s.settle := by
  refine h.session ha s.breaker s.log fun phase hphase => .inr ?_
  rcases s.session.settle_phase .updatingExtremes with hidle | ⟨next, hnext⟩
  · rw [hidle] at hphase
    cases hphase
  · rw [hnext] at hphase
    cases hphase
    exact ⟨rfl, fun turn row => nofun, trivial⟩

/-- The positions that are shown the snapshot are those that the dispatch may read. -/
theorem Kept.extremesRead (h : Kept pair s₀ past s) {snapshot : MarketSnapshot}
    (hs : s.session.phase = some (.updatingExtremes snapshot)) :
    Kept pair s₀ ((s, .extremesRead true) :: past)
      (({ s with
        tracker := ExtremeTracker.updateAll snapshot.tick.bid snapshot.tick.ask
          (forPair pair s.db.openPositions) s.tracker } : ExitSystem).goto
        (.reading snapshot)) := by
  have hseen : ∀ id, seen pair id ((s, .extremesRead true) :: past) =
      ((forPair pair s.db.openPositions).filter fun p => p.id = id).map (fun p =>
        shownPrice snapshot.tick.bid snapshot.tick.ask p.buySell) ++ seen pair id past := by
    intro id
    have hforgets : s.forgets id (.extremesRead true) = false := rfl
    have hshowing : s.showing pair id (.extremesRead true) =
        ((forPair pair s.db.openPositions).filter fun p => p.id = id).map fun p =>
          shownPrice snapshot.tick.bid snapshot.tick.ask p.buySell := by
      unfold showing
      rw [hs]
    rw [seen, hforgets, hshowing]
    rfl
  have hshown : ∀ id, Shown (seen pair id ((s, .extremesRead true) :: past))
      (OrderedMap.get (ExtremeTracker.updateAll snapshot.tick.bid snapshot.tick.ask
        (forPair pair s.db.openPositions) s.tracker) id) := by
    intro id
    rw [hseen]
    exact ExtremeTracker.shown_updateAll _ _ _ (h.shown id)
  refine ⟨hshown, fun id htracked => ?_, fun row hrow => (h.rows row hrow).later,
    fun p hp => ?_, fun p hp => ?_, fun phase hphase => ?_⟩
  · -- a new entry is that of a row, an old one was known
    by_contra hnone
    have hold : OrderedMap.get s.tracker id = none := by
      by_contra hold
      exact hnone (h.known id hold)
    have hempty : seen pair id ((s, .extremesRead true) :: past) = [] := by
      have hunseen : seen pair id past = [] := by
        have hid := h.shown id
        rw [hold] at hid
        exact hid
      rw [hseen, hunseen, List.append_nil, List.map_eq_nil_iff, List.filter_eq_nil_iff]
      intro row hrow heq
      have hmem := (List.mem_filter.mp (List.mem_filter.mp hrow).1).1
      exact hnone ⟨row, hmem, by simpa using heq⟩
    have htold := hshown id
    rw [hempty] at htold
    cases hget : OrderedMap.get (ExtremeTracker.updateAll snapshot.tick.bid snapshot.tick.ask
        (forPair pair s.db.openPositions) s.tracker) id with
    | none => exact htracked hget
    | some e =>
      rw [hget] at htold
      exact List.not_mem_nil htold.1
  · rcases hp.session (s := s) rfl rfl rfl with hp | ⟨turn, closed, reply, hmem, rfl⟩
    · obtain ⟨hsettled, hregistered⟩ := h.settling p hp
      exact ⟨hsettled.later, hregistered⟩
    · cases hmem
  · rcases hp.session (s := s) rfl with hp | ⟨turn, hmem, -⟩
    · exact h.waiting p hp
    · cases hmem
  · cases hphase
    intro row hrow hpair
    refine ⟨Database.registered_of_mem (List.mem_filter.mp hrow).1, fun _ => ?_⟩
    rw [hseen]
    refine List.mem_append_left _ (List.mem_map.mpr ⟨row, ?_, rfl⟩)
    simp only [forPair, List.mem_filter, decide_eq_true_eq]
    exact ⟨⟨hrow, hpair⟩, trivial⟩

theorem Kept.dispatchRead (h : Kept pair s₀ past s) {snapshot : MarketSnapshot}
    (hs : s.session.phase = some (.reading snapshot)) :
    Kept pair s₀ ((s, .dispatchRead true) :: past)
      (s.goto (.listed snapshot s.db.openPositions)) := by
  refine h.session rfl s.breaker s.log fun phase hphase => .inr ?_
  cases hphase
  refine ⟨rfl, fun turn row => nofun, fun row hrow hpair => ?_⟩
  exact (h.phase _ hs row hrow hpair).grow (.refl s.db) rfl fun id => seen_quiet rfl pair id s past

theorem Kept.dispatchResume (h : Kept pair s₀ past s) {snapshot : MarketSnapshot}
    {rows : List Position} (hs : s.session.phase = some (.listed snapshot rows))
    (rules : Position → ExitAnswer) (breaker : ExitFailureCircuitBreaker) :
    Kept pair s₀ ((s, .dispatchResume rules) :: past)
      (ExitSystem.visit rules snapshot (sortedByOpenedAtAsc (forPair pair rows)) ⟨[], [], []⟩
        { s with breaker := breaker }) := by
  refine h.visit rfl (fun p hp => ?_) rules _ breaker
  obtain ⟨hmem, hpair⟩ := mem_ordered.mp hp
  exact h.phase _ hs p hmem hpair

theorem Kept.findById (h : Kept pair s₀ past s) {turn : ExitTurn}
    (hs : s.session.phase = some (.finding turn none)) (served : Bool) :
    Kept pair s₀ ((s, .findById served) :: past) (s.goto (.finding turn
      (some (if served then s.db.findById turn.command.positionId else none)))) := by
  obtain ⟨hturned, -⟩ : Turned pair past s turn ∧ _ := h.phase _ hs
  have hfound : ∀ row, (if served then s.db.findById turn.command.positionId else none) = some row →
      row ∈ s.db.positions ∧ row.id = turn.command.positionId := by
    intro row hrow
    cases served with
    | false => cases hrow
    | true => exact ⟨List.mem_of_find?_eq_some hrow, findById_some hrow⟩
  refine h.frame rfl rfl (h.unchanged _) (fun p hp => .inl ?_) (fun p hp => ?_)
    fun phase hphase => .inr ?_
  · rcases hp.session (s := s) rfl rfl rfl with hp | ⟨turn', closed, reply, hmem, -⟩
    · exact hp
    · cases hmem
  · rcases hp.session (s := s) rfl with hp | ⟨turn', hmem, hopen⟩
    · exact .inl hp
    · have hrow := Option.some.inj (ExitPhase.finding.inj (Option.some.inj hmem)).2
      obtain ⟨hmem, -⟩ := hfound p hrow
      exact .inr ⟨(h.rows p hmem).asOpened hopen, Database.registered_of_mem hmem⟩
  · cases hphase
    refine ⟨⟨hturned.own, hturned.registered, hturned.tracked, ?_, fun p hp => ?_⟩,
      fun row hrow => ?_⟩
    · rw [seen_quiet rfl]
      exact hturned.decided
    · exact (hturned.rest p hp).grow (.refl s.db) rfl fun id => seen_quiet rfl pair id s past
    · obtain ⟨hmem, hid⟩ := hfound row (Option.some.inj hrow)
      exact ⟨hid.trans hturned.own, Database.registered_of_mem hmem⟩

/-- The exit is sent: what was shown before it is what its record will say. -/
theorem Kept.place (h : Kept pair s₀ past s) {turn : ExitTurn} {row : Position}
    (hs : s.session.phase = some (.finding turn (some (some row))))
    (rules : Position → ExitAnswer) :
    Kept pair s₀ ((s, .findResume rules) :: past) (s.place turn row) := by
  obtain ⟨hturned, hfound⟩ : Turned pair past s turn ∧ _ := h.phase _ hs
  obtain ⟨hid, hregistered⟩ := hfound row rfl
  refine h.session rfl s.breaker (.sent row.id :: s.log) fun phase hphase => .inr ?_
  cases hphase
  refine ⟨rfl, fun turn row => nofun, fun p hp => ?_, ?_, fun hopen => ?_⟩
  · exact (hturned.rest p hp).grow (.refl s.db) rfl fun id => seen_quiet rfl pair id s past
  · obtain ⟨row', hrow', heq⟩ := hregistered
    exact ⟨row', hrow', heq.trans (row.asOpened_applyExtremes ..).symm⟩
  · rw [Position.applyExtremes_status] at hopen
    have hrow : row.asOpened = row := (h.waiting row (.found hs hopen)).1
    have hside : row.buySell = turn.position.buySell := by
      obtain ⟨row', hrow', heq⟩ := hregistered
      have hids : row'.id = turn.position.id := (congrArg (·.id) heq).trans hid
      have hsame := Database.asOpened_eq hturned.registered hrow' hids
      exact congrArg (·.buySell) (heq.symm.trans hsame)
    refine ⟨[], (s, .findResume rules), past, rfl, ?_, ?_, ?_⟩
    · rw [Position.asOpened_applyExtremes, hrow]
      exact ⟨hs, rules, rfl⟩
    · rw [Position.asOpened_applyExtremes, hrow]
      refine ⟨hturned.own.trans hid.symm, ?_, ?_⟩
      · rw [hid, ← hturned.tracked]
        exact h.shown turn.position.id
      · rw [hid, hside]
        exact hturned.decided
    · rw [Position.asOpened_applyExtremes, hrow]

theorem Kept.failTurn (h : Kept pair s₀ past s) {a : ExitLabel} (ha : ExitLabel.isQuiet a = true)
    {turn : ExitTurn} (hrest : ∀ p ∈ turn.run.rest, Priced pair past s turn.run.snapshot p)
    (rules : Position → ExitAnswer) :
    Kept pair s₀ ((s, a) :: past) (s.failTurn turn rules) := h.visit ha hrest rules _ _

theorem Settles.enqueue {entry : CompensationEntry} {phase : ExitPhase} {log : List BrokerEvent}
    (h : ((({ s with log := log } : ExitSystem).enqueue entry).goto phase).Settles p)
    (hphase : (handIn (some phase)).isFree = true) : s.Settles p ∨
      ∃ closed, entry = .update closed ∧ closed.position = p := by
  have hkept : ∀ e, e ∈ (({ s with log := log } : ExitSystem).enqueue entry).compensation →
      e ∈ s.compensation ∨ e = entry := by
    intro e he
    unfold ExitSystem.enqueue at he
    split at he
    · exact .inl he
    · rcases List.mem_append.mp he with he | he
      · exact .inl he
      · exact .inr (List.mem_singleton.mp he)
  have hothers : (({ s with log := log } : ExitSystem).enqueue entry).drain = s.drain ∧
      (({ s with log := log } : ExitSystem).enqueue entry).emergency = s.emergency := by
    unfold ExitSystem.enqueue
    split <;> exact ⟨rfl, rfl⟩
  cases h with
  | updating hmem =>
    cases hmem
    cases hphase
  | queued hmem =>
    rcases hkept _ hmem with hmem | heq
    · exact .inl (.queued hmem)
    · exact .inr ⟨_, heq.symm, rfl⟩
  | retrying hdrain hmem => exact .inl (.retrying (hothers.1 ▸ hdrain) hmem)
  | emergency hmem => exact .inl (.emergency (hothers.2 ▸ hmem))

theorem Waits.enqueue {entry : CompensationEntry} {phase : ExitPhase} {log : List BrokerEvent}
    (h : ((({ s with log := log } : ExitSystem).enqueue entry).goto phase).Waits p)
    (hphase : ∀ turn row, phase ≠ .finding turn (some (some row))) : s.Waits p := by
  have hemergency : (({ s with log := log } : ExitSystem).enqueue entry).emergency =
      s.emergency := by
    unfold ExitSystem.enqueue
    split <;> rfl
  rcases h.session (s := s) hemergency with h | ⟨turn, hmem, -⟩
  · exact h
  · exact absurd (Option.some.inj hmem) (hphase turn p)

/-- An entry is queued, and the exit is notified. -/
theorem Kept.enqueue (h : Kept pair s₀ past s) {a : ExitLabel} (ha : ExitLabel.isQuiet a = true)
    {turn : ExitTurn} (hrest : ∀ p ∈ turn.run.rest, Priced pair past s turn.run.snapshot p)
    {entry : CompensationEntry} (log : List BrokerEvent)
    (hentry : ∀ closed, entry = .update closed → s.Settles closed.position) :
    Kept pair s₀ ((s, a) :: past)
      ((({ s with log := log } : ExitSystem).enqueue entry).goto (.notifying turn)) := by
  have hkept : (({ s with log := log } : ExitSystem).enqueue entry).tracker = s.tracker ∧
      (({ s with log := log } : ExitSystem).enqueue entry).db = s.db := by
    unfold ExitSystem.enqueue
    split <;> exact ⟨rfl, rfl⟩
  have hdb : Rewrites pair s₀ ((s, a) :: past) s.db
      ((({ s with log := log } : ExitSystem).enqueue entry).goto (.notifying turn)).db := by
    rw [goto, hkept.2]
    exact h.unchanged _
  refine h.frame ha hkept.1 hdb (fun p hp => .inl ?_) (fun p hp => .inl ?_)
    fun phase hphase => .inr ?_
  · rcases hp.enqueue rfl with hp | ⟨closed, rfl, rfl⟩
    · exact hp
    · exact hentry closed rfl
  · exact hp.enqueue fun turn row => nofun
  · cases hphase
    intro p hp
    exact (hrest p hp).grow hdb.grows hkept.1 fun id => seen_quiet ha pair id s past

/-- The exit is filled: the position is settled by the order that was sent for it. -/
theorem Kept.resolve (h : Kept pair s₀ past s) {turn : ExitTurn} {position : Position}
    (hs : s.session.phase = some (.placing turn position)) (result : ExitResult) :
    Kept pair s₀ ((s, .placeExitResolves result) :: past) (s.resolve turn position result) := by
  obtain ⟨hrest, hregistered, hsent⟩ : (∀ p ∈ turn.run.rest, _) ∧ _ := h.phase _ hs
  unfold ExitSystem.resolve
  dsimp only
  split
  · rename_i closed hclosed
    have hclose : position.close turn.command result = some closed.position := by
      unfold ClosedPosition.of? at hclosed
      split at hclosed
      · cases hclosed
      · rename_i p' hp'
        cases hclosed
        exact hp'
    have hentry : closed.position.asOpened = position.asOpened := Position.asOpened_close hclose
    have hopen : position.status = .opened :=
      (Position.close_isSome_iff ..).mp (Option.isSome_of_eq_some hclose)
    obtain ⟨after, send, before, hpast, hsends, hordered, hposition⟩ := hsent hopen
    have hsettled : Settled pair ((s, .placeExitResolves result) :: past) closed.position := by
      have hmoments : (s, .placeExitResolves result) :: past =
          [] ++ (s, .placeExitResolves result) :: after ++ send :: before := by rw [hpast]; rfl
      refine .dispatched hmoments ?_ ⟨⟨position, hs⟩, rfl⟩ ?_ ?_
      · rw [hentry]
        exact hsends
      · rw [hentry]
        exact hordered
      · rw [hentry, ← hposition]
        exact hclose
    refine h.frame rfl rfl (h.unchanged _) (fun p hp => ?_) (fun p hp => .inl ?_)
      fun phase hphase => .inr ?_
    · rcases hp.session (s := s) rfl rfl rfl with hp | ⟨turn', closed', reply, hmem, rfl⟩
      · exact .inl hp
      · cases hmem
        obtain ⟨row, hrow, heq⟩ := hregistered
        exact .inr ⟨hsettled, row, hrow, heq.trans hentry.symm⟩
    · rcases hp.session (s := s) rfl with hp | ⟨turn', hmem, -⟩
      · exact hp
      · cases hmem
    · cases hphase
      intro p hp
      exact (hrest p hp).grow (.refl s.db) rfl fun id => seen_quiet rfl pair id s past
  · exact h.enqueue rfl hrest _ fun closed => nofun

theorem Kept.writeUpdate (h : Kept pair s₀ past s) {turn : ExitTurn} {closed : ClosedPosition}
    (hs : s.session.phase = some (.updating turn closed none)) (reply : DbReply) (ok : Bool) :
    Kept pair s₀ ((s, .update reply) :: past)
      (({ s with db := (s.db.write (some (s.db.update closed.position)) reply).2 } :
        ExitSystem).goto (.updating turn closed (some ok))) := by
  have hrest : ∀ p ∈ turn.run.rest, Priced pair past s turn.run.snapshot p := h.phase _ hs
  obtain ⟨hsettled, hregistered⟩ := h.settling _ (.updating hs)
  have hdb : Rewrites pair s₀ ((s, .update reply) :: past) s.db
      (s.db.write (some (s.db.update closed.position)) reply).2 :=
    .write h fun _ => h.update hsettled.later hregistered
  refine h.frame rfl rfl hdb (fun p hp => .inl ?_) (fun p hp => .inl ?_)
    fun phase hphase => .inr ?_
  · rcases hp.session (s := s) rfl rfl rfl with hp | ⟨turn', closed', reply, hmem, rfl⟩
    · exact hp
    · cases hmem
      exact .updating hs
  · rcases hp.session (s := s) rfl with hp | ⟨turn', hmem, -⟩
    · exact hp
    · cases hmem
  · cases hphase
    intro p hp
    exact (hrest p hp).grow hdb.grows rfl fun id => seen_quiet rfl pair id s past

/-- The exit is done: the tracker forgets the position. -/
theorem Kept.notified (h : Kept pair s₀ past s) {turn : ExitTurn}
    (hs : s.session.phase = some (.notifying turn)) (rules : Position → ExitAnswer) :
    Kept pair s₀ ((s, .notified rules) :: past) (s.succeedTurn turn rules) := by
  have hrest : ∀ p ∈ turn.run.rest, Priced pair past s turn.run.snapshot p := h.phase _ hs
  have hseen : ∀ id, seen pair id ((s, .notified rules) :: past) =
      if turn.position.id = id then [] else seen pair id past := by
    intro id
    have hforgets : s.forgets id (.notified rules) = decide (turn.position.id = id) := by
      unfold forgets
      rw [hs]
    rw [seen, hforgets]
    simp [showing]
  have hget : ∀ id, OrderedMap.get (OrderedMap.delete s.tracker turn.position.id) id =
      if turn.position.id = id then none else OrderedMap.get s.tracker id := by
    intro id
    split
    · rename_i heq
      rw [← heq]
      exact OrderedMap.get_delete_self ..
    · rename_i hne
      exact OrderedMap.get_delete_of_ne _ (Ne.symm hne)
  unfold ExitSystem.succeedTurn
  obtain ⟨session, breaker, heq, hvisited⟩ := visit_visited rules turn.run.snapshot turn.run.rest
    { turn.run.result with closed := turn.run.result.closed ++ [turn.position.id] }
    { s with
      breaker := s.breaker.recordSuccess turn.position.id
      tracker := OrderedMap.delete s.tracker turn.position.id }
  dsimp only at heq ⊢
  rw [heq]
  refine ⟨fun id => ?_, fun id htracked => ?_, fun row hrow => (h.rows row hrow).later,
    fun p hp => ?_, fun p hp => ?_, fun phase hphase => ?_⟩
  · dsimp only
    rw [hseen, hget]
    split
    · rfl
    · exact h.shown id
  · dsimp only at htracked
    rw [hget] at htracked
    split at htracked
    · exact absurd rfl htracked
    · exact h.known id htracked
  · rcases hp.session (s := s) rfl rfl rfl with hp | ⟨turn', closed, reply, hmem, -⟩
    · obtain ⟨hsettled, hregistered⟩ := h.settling p hp
      exact ⟨hsettled.later, hregistered⟩
    · cases hvisited _ hmem
  · rcases hp.session (s := s) rfl with hp | ⟨turn', hmem, -⟩
    · exact h.waiting p hp
    · cases hvisited _ hmem
  · refine Visited.kept (s := { s with
        session := session
        breaker := breaker
        tracker := OrderedMap.delete s.tracker turn.position.id }) (hvisited phase hphase)
      fun p hp => ⟨(hrest p hp).registered, fun htracked => ?_⟩
    dsimp only at htracked
    rw [hget] at htracked
    rw [hseen]
    split
    · rename_i heq
      rw [if_pos heq] at htracked
      exact absurd rfl htracked
    · rename_i hne
      rw [if_neg hne] at htracked
      exact (hrest p hp).price htracked

theorem Kept.stepSession (h : Kept pair s₀ past s) {a : ExitLabel} {phase : ExitPhase}
    (hs : s.session.phase = some phase) (hstep : s.stepSession pair phase a = some s') :
    Kept pair s₀ ((s, a) :: past) s' := by
  unfold ExitSystem.stepSession at hstep
  split at hstep
  · rename_i snapshot served
    cases served with
    | true =>
      cases hstep
      exact h.extremesRead hs
    | false =>
      cases hstep
      exact h.settle rfl
  · rename_i snapshot served
    cases served with
    | true =>
      cases hstep
      exact h.dispatchRead hs
    | false =>
      cases hstep
      exact h.settle rfl
  · cases hstep
    exact h.dispatchResume hs _ _
  · cases hstep
    exact h.findById hs _
  · cases hstep
    exact h.failTurn rfl (h.phase _ hs).1.rest _
  · cases hstep
    exact h.place hs _
  · cases hstep
    exact h.resolve hs _
  · cases hstep
    exact h.failTurn rfl (h.phase _ hs).1 _
  · rename_i turn closed reply
    obtain rfl := Option.some.inj hstep
    exact h.writeUpdate hs reply _
  · rename_i turn closed
    cases hstep
    refine h.session rfl s.breaker s.log fun phase hphase => .inr ?_
    cases hphase
    refine ⟨rfl, fun turn row => nofun, fun p hp => ?_⟩
    exact (h.phase _ hs p hp).grow (.refl s.db) rfl fun id => seen_quiet rfl pair id s past
  · rename_i turn closed
    cases hstep
    refine h.enqueue rfl (h.phase _ hs) s.log fun closed' heq => ?_
    cases heq
    exact .updating hs
  · cases hstep
    exact h.notified hs _
  · cases hstep
    exact h.settle rfl
  · cases hstep

/-! ## The compensation queue -/

/-- A position that is about to be written after a step of the queue was so before. -/
theorem Settles.compensation {compensation : List CompensationEntry} {drain : CompensationPhase}
    {db : Database}
    (h : ({ s with compensation := compensation, drain := drain, db := db } : ExitSystem).Settles p)
    (hqueued : ∀ entry ∈ compensation, entry ∈ s.compensation)
    (hretrying : ∀ current reply rest closed, drain = .retrying current reply rest →
      .update closed ∈ current :: rest → s.Settles closed.position) : s.Settles p := by
  cases h with
  | updating hphase => exact .updating hphase
  | queued hmem => exact .queued (hqueued _ hmem)
  | retrying hdrain hmem => exact hretrying _ _ _ _ hdrain hmem
  | emergency hmem => exact .emergency hmem

theorem Waits.compensation {compensation : List CompensationEntry} {drain : CompensationPhase}
    {db : Database}
    (h : ({ s with compensation := compensation, drain := drain, db := db } : ExitSystem).Waits p) :
    s.Waits p := by
  cases h with
  | found hphase hopen => exact .found hphase hopen
  | listed hphase hmem => exact .listed hphase hmem
  | placing hmem => exact .placing hmem

theorem retryNext_entries {entries rest : List CompensationEntry} {current : CompensationEntry}
    {reply : Option Bool} (h : retryNext entries = .retrying current reply rest) :
    current :: rest = entries := by
  cases entries with
  | nil => cases h
  | cons entry entries =>
    cases h
    rfl

theorem Kept.retry (h : Kept pair s₀ past s) {current : CompensationEntry}
    {rest : List CompensationEntry} (hs : s.drain = .retrying current none rest) (reply : DbReply)
    (now : Int) (ok : Bool) :
    Kept pair s₀ ((s, .retry reply now) :: past) { s with
      db := (s.db.write (some (current.apply s.db now)) reply).2
      drain := .retrying current (some ok) rest } := by
  have hdb : reply ≠ .failed →
      Rewrites pair s₀ ((s, .retry reply now) :: past) s.db (current.apply s.db now) := by
    intro hserved
    cases current with
    | update closed =>
      obtain ⟨hsettled, hregistered⟩ := h.settling _ (.retrying hs (List.mem_cons_self ..))
      exact h.update hsettled.later hregistered
    | markClosed id => exact h.markClosed (.retried hs hserved)
  refine h.frame rfl rfl (.write h hdb) (fun p hp => .inl (hp.compensation ?_ ?_))
    (fun p hp => .inl hp.compensation) fun phase hphase => .inl hphase
  · exact fun entry hentry => hentry
  · intro current' reply' rest' closed heq hmem
    cases heq
    exact .retrying hs hmem

theorem Kept.stepCompensation (h : Kept pair s₀ past s) {a : ExitLabel}
    (hstep : s.stepCompensation s.drain a = some s') : Kept pair s₀ ((s, a) :: past) s' := by
  unfold ExitSystem.stepCompensation at hstep
  split at hstep
  · split at hstep
    · cases hstep
    · cases hstep
      refine h.frame rfl rfl (h.unchanged _)
        (fun p hp => .inl (hp.compensation (fun entry hentry => hentry) ?_))
        (fun p hp => .inl hp.compensation) fun phase hphase => .inl hphase
      intro current reply rest closed heq hmem
      rw [retryNext_entries heq] at hmem
      exact .queued hmem
  · rename_i current rest reply now hdrain
    obtain rfl := Option.some.inj hstep
    exact h.retry hdrain reply now _
  · rename_i current rest hdrain
    cases hstep
    refine h.frame rfl rfl (h.unchanged _)
      (fun p hp => .inl (hp.compensation (fun entry hentry => List.mem_of_mem_filter hentry) ?_))
      (fun p hp => .inl hp.compensation) fun phase hphase => .inl hphase
    intro current' reply rest' closed heq hmem
    rw [retryNext_entries heq] at hmem
    exact .retrying hdrain (List.mem_cons_of_mem _ hmem)
  · rename_i current rest hdrain
    cases hstep
    refine h.frame rfl rfl (h.unchanged _)
      (fun p hp => .inl (hp.compensation (fun entry hentry => hentry) ?_))
      (fun p hp => .inl hp.compensation) fun phase hphase => .inl hphase
    intro current' reply rest' closed heq hmem
    rw [retryNext_entries heq] at hmem
    exact .retrying hdrain (List.mem_cons_of_mem _ hmem)
  · cases hstep

/-! ## The emergency path -/

theorem Settles.byEmergency {emergency : EmergencyPhase} {db : Database} {log : List BrokerEvent}
    (h : ({ s with emergency := emergency, db := db, log := log } : ExitSystem).Settles p) :
    s.Settles p ∨ ∃ closed, .updating closed ∈ emergency.tasks ∧ closed.position = p := by
  cases h with
  | updating hphase => exact .inl (.updating hphase)
  | queued hmem => exact .inl (.queued hmem)
  | retrying hdrain hmem => exact .inl (.retrying hdrain hmem)
  | emergency hmem => exact .inr ⟨_, hmem, rfl⟩

theorem Waits.byEmergency {emergency : EmergencyPhase} {db : Database} {log : List BrokerEvent}
    (h : ({ s with emergency := emergency, db := db, log := log } : ExitSystem).Waits p) :
    s.Waits p ∨ (∃ rows position, emergency = .listed rows ∧ position ∈ rows ∧
      position.position = p) ∨ ∃ position, .placing position ∈ emergency.tasks ∧
        position.position = p := by
  cases h with
  | found hphase hopen => exact .inl (.found hphase hopen)
  | listed hphase hmem => exact .inr (.inl ⟨_, _, hphase, hmem, rfl⟩)
  | placing hmem => exact .inr (.inr ⟨_, hmem, rfl⟩)

/-- A step of the emergency path: what it writes, and what it has in hand after it. -/
theorem Kept.byEmergency (h : Kept pair s₀ past s) {a : ExitLabel}
    (ha : ExitLabel.isQuiet a = true) {emergency : EmergencyPhase} {db : Database}
    (log : List BrokerEvent) (hdb : Rewrites pair s₀ ((s, a) :: past) s.db db)
    (hlisted : ∀ rows position, emergency = .listed rows → position ∈ rows →
      s.Waits position.position ∨ position.position.asOpened = position.position ∧
        s.db.Registered position.position)
    (hplacing : ∀ position, .placing position ∈ emergency.tasks → s.Waits position.position)
    (hupdating : ∀ closed, .updating closed ∈ emergency.tasks → s.Settles closed.position ∨
      Settled pair ((s, a) :: past) closed.position ∧ s.db.Registered closed.position) :
    Kept pair s₀ ((s, a) :: past) { s with emergency := emergency, db := db, log := log } := by
  refine h.frame ha rfl hdb (fun p hp => ?_) (fun p hp => ?_) fun phase hphase => .inl hphase
  · rcases hp.byEmergency with hp | ⟨closed, hmem, rfl⟩
    · exact .inl hp
    · exact hupdating closed hmem
  · rcases hp.byEmergency with hp | ⟨rows, position, hlist, hmem, rfl⟩ | ⟨position, hmem, rfl⟩
    · exact .inl hp
    · exact hlisted rows position hlist hmem
    · exact .inl (hplacing position hmem)

theorem mem_of_takeFirst {α β : Type} {pick : α → Option β} {xs rest : List α} {y : β}
    (h : takeFirst pick xs = some (y, rest)) :
    (∃ x ∈ xs, pick x = some y) ∧ ∀ z ∈ rest, z ∈ xs := by
  obtain ⟨x, front, back, hpick, rfl, rfl⟩ := takeFirst_split h
  refine ⟨⟨x, by simp, hpick⟩, fun z hz => ?_⟩
  rcases List.mem_append.mp hz with hz | hz
  · exact List.mem_append_left _ hz
  · exact List.mem_append_right _ (List.mem_cons_of_mem _ hz)

theorem mem_of_takePlacing {id : PositionId} {tasks rest : List EmergencyTask}
    {position : OpenPosition} (h : takeFirst (pickPlacing id) tasks = some (position, rest)) :
    .placing position ∈ tasks ∧ position.position.id = id ∧ ∀ task ∈ rest, task ∈ tasks := by
  obtain ⟨⟨task, hmem, hpick⟩, hrest⟩ := mem_of_takeFirst h
  cases task with
  | updating closed => cases hpick
  | placing position' =>
    obtain ⟨hid, heq⟩ := Option.ite_none_right_eq_some.mp hpick
    cases heq
    exact ⟨hmem, hid, hrest⟩

theorem mem_of_takeUpdating {id : PositionId} {tasks rest : List EmergencyTask}
    {closed : ClosedPosition} (h : takeFirst (pickUpdating id) tasks = some (closed, rest)) :
    .updating closed ∈ tasks ∧ ∀ task ∈ rest, task ∈ tasks := by
  obtain ⟨⟨task, hmem, hpick⟩, hrest⟩ := mem_of_takeFirst h
  cases task with
  | placing position => cases hpick
  | updating closed' =>
    obtain ⟨-, heq⟩ := Option.ite_none_right_eq_some.mp hpick
    cases heq
    exact ⟨hmem, hrest⟩

theorem mem_openRows {db : Database} {position : OpenPosition} (h : position ∈ db.openRows) :
    position.position ∈ db.positions := by
  obtain ⟨p, -, rfl⟩ := List.mem_map.mp h
  exact (List.mem_filter.mp p.2).1

theorem Kept.emergencyResolves (h : Kept pair s₀ past s) {tasks rest : List EmergencyTask}
    {position : OpenPosition} {id : PositionId} (hs : s.emergency = .closing tasks)
    (htake : takeFirst (pickPlacing id) tasks = some (position, rest)) (result : ExitResult) :
    Kept pair s₀ ((s, .emergencyResolves id result) :: past) { s with
      emergency := .closing (.updating (position.close (forceClose id) result) :: rest)
      log := .resolved id :: s.log } := by
  obtain ⟨hmem, rfl, hrest⟩ := mem_of_takePlacing htake
  have htasks : ∀ task ∈ rest, task ∈ s.emergency.tasks := fun task htask => by
    rw [hs]
    exact hrest task htask
  have hwaits : s.Waits position.position := .placing (by rw [hs]; exact hmem)
  obtain ⟨hopened, hregistered⟩ := h.waiting _ hwaits
  refine h.byEmergency rfl _ (h.unchanged _) (fun rows _ => nofun) (fun position' hp => ?_)
    fun closed hclosed => ?_
  · rcases List.mem_cons.mp hp with hp | hp
    · cases hp
    · exact .placing (htasks _ hp)
  · rcases List.mem_cons.mp hclosed with hclosed | hclosed
    · cases hclosed
      have hclose : position.position.close (forceClose position.position.id) result =
          some (position.close (forceClose position.position.id) result).position :=
        (Option.some_get _).symm
      have hentry := Position.asOpened_close hclose
      have hid := position.close_id (forceClose position.position.id) result
      have hmoment : (s, .emergencyResolves
          (position.close (forceClose position.position.id) result).position.id result) ∈
          (s, .emergencyResolves position.position.id result) :: past := by
        rw [hid]
        exact List.mem_cons_self ..
      refine .inr ⟨.forced hmoment ?_, ?_⟩
      · rw [hentry, hopened, hid]
        exact hclose
      · obtain ⟨row, hrow, heq⟩ := hregistered
        exact ⟨row, hrow, heq.trans hentry.symm⟩
    · exact .inl (.emergency (htasks _ hclosed))

theorem tasks_mem_closing {tasks rest : List EmergencyTask} (hs : s.emergency = .closing tasks)
    (hrest : ∀ task ∈ rest, task ∈ tasks) :
    ∀ task ∈ (closingWith rest).tasks, task ∈ s.emergency.tasks := by
  intro task htask
  rw [tasks_closingWith] at htask
  rw [hs]
  exact hrest task htask

theorem closingWith_ne_listed (tasks : List EmergencyTask) (rows : List OpenPosition) :
    closingWith tasks ≠ .listed rows := by
  cases tasks <;> nofun

theorem Kept.stepEmergency (h : Kept pair s₀ past s) {a : ExitLabel}
    (hstep : s.stepEmergency s.emergency a = some s') : Kept pair s₀ ((s, a) :: past) s' := by
  unfold ExitSystem.stepEmergency at hstep
  split at hstep
  · cases hstep
    exact h.byEmergency rfl s.log (h.unchanged _) (fun rows _ => nofun) (fun position => nofun)
      fun closed => nofun
  · rename_i served hreading
    split at hstep
    · cases hstep
      refine h.byEmergency rfl s.log (h.unchanged _) (fun rows position heq hmem => ?_)
        (fun position => nofun) fun closed => nofun
      cases heq
      have hrow := mem_openRows hmem
      exact .inr ⟨(h.rows _ hrow).asOpened position.opened, Database.registered_of_mem hrow⟩
    · cases hstep
      exact h.byEmergency rfl s.log (h.unchanged _) (fun rows _ => nofun) (fun position => nofun)
        fun closed => nofun
  · rename_i rows hlisted
    cases hstep
    refine h.byEmergency rfl _ (h.unchanged _)
      (fun rows' position heq => absurd heq (closingWith_ne_listed _ rows'))
      (fun position hmem => ?_) fun closed hmem => ?_
    · rw [tasks_closingWith] at hmem
      obtain ⟨position', hposition', heq⟩ := List.mem_map.mp hmem
      cases heq
      exact .listed hlisted hposition'
    · rw [tasks_closingWith] at hmem
      obtain ⟨position', -, heq⟩ := List.mem_map.mp hmem
      cases heq
  · rename_i tasks id result hclosing
    obtain ⟨⟨position, rest⟩, htake, rfl⟩ := Option.map_eq_some_iff.mp hstep
    exact h.emergencyResolves hclosing htake result
  · rename_i tasks id hclosing
    obtain ⟨⟨position, rest⟩, htake, rfl⟩ := Option.map_eq_some_iff.mp hstep
    obtain ⟨-, -, hrest⟩ := mem_of_takePlacing htake
    have htasks := tasks_mem_closing hclosing hrest
    exact h.byEmergency rfl s.log (h.unchanged _)
      (fun rows position heq => absurd heq (closingWith_ne_listed _ rows))
      (fun position hmem => .placing (htasks _ hmem))
      fun closed hmem => .inl (.emergency (htasks _ hmem))
  · rename_i tasks id reply hclosing
    obtain ⟨⟨closed, rest⟩, htake, rfl⟩ := Option.map_eq_some_iff.mp hstep
    obtain ⟨hmem, hrest⟩ := mem_of_takeUpdating htake
    have htasks := tasks_mem_closing hclosing hrest
    have hsettles : s.Settles closed.position := .emergency (by rw [hclosing]; exact hmem)
    obtain ⟨hsettled, hregistered⟩ := h.settling _ hsettles
    exact h.byEmergency rfl s.log (.write h fun _ => h.update hsettled.later hregistered)
      (fun rows position heq => absurd heq (closingWith_ne_listed _ rows))
      (fun position hmem => .placing (htasks _ hmem))
      fun closed hmem => .inl (.emergency (htasks _ hmem))
  · cases hstep

/-! ## Runs -/

/-- A position that is registered is as `Position.open` makes it. -/
def EntersNew : ExitLabel → Prop
  | .registered position => position.asOpened = position
  | _ => True

theorem Kept.step (h : Kept pair s₀ past s) {a : ExitLabel} (ha : EntersNew a)
    (hstep : s.step pair a = some s') : Kept pair s₀ ((s, a) :: past) s' := by
  have hsession : ∀ {a}, s.session.phase.bind (fun phase => s.stepSession pair phase a) = some s' →
      Kept pair s₀ ((s, a) :: past) s' := by
    intro a hstep
    obtain ⟨phase, hphase, hstep⟩ := Option.bind_eq_some_iff.mp hstep
    exact h.stepSession hphase hstep
  cases a with
  | onMarketData snapshot =>
    cases hstep
    refine h.session rfl s.breaker s.log fun phase hphase => ?_
    rcases s.session.onMarketData_phase pair .updatingExtremes snapshot with heq | ⟨-, hnew⟩
    · exact .inl (heq ▸ hphase)
    · rw [hnew] at hphase
      cases hphase
      exact .inr ⟨rfl, fun turn row => nofun, trivial⟩
  | stop =>
    cases hstep
    exact h.session rfl s.breaker s.log fun phase hphase => .inl hphase
  | markClosed id now =>
    cases hstep
    refine h.frame rfl rfl (h.markClosed (.synced s)) (fun p hp => .inl ?_) (fun p hp => .inl ?_)
      fun phase hphase => .inl hphase
    · exact hp.compensation (fun entry hentry => hentry) fun current reply rest closed => .retrying
    · exact hp.compensation
  | registered position =>
    simp only [ExitSystem.step] at hstep
    split at hstep
    · obtain ⟨db, hinsert, rfl⟩ := Option.map_eq_some_iff.mp hstep
      refine h.frame rfl rfl (h.insert ha hinsert)
        (fun p hp => .inl ?_) (fun p hp => .inl ?_) fun phase hphase => .inl hphase
      · exact hp.compensation (fun entry hentry => hentry)
          fun current reply rest closed => .retrying
      · exact hp.compensation
    · cases hstep
  | drain | retry | retryResume => exact h.stepCompensation hstep
  | emergencyExecute | emergencyRead | emergencyResume | emergencyResolves | emergencyRejects
  | emergencyUpdate => exact h.stepEmergency hstep
  | extremesRead | dispatchRead | dispatchResume | findById | findResume | placeExitResolves
  | placeExitRejects | update | updateResume | notified | entryDone => exact hsession hstep

theorem Started.kept (h : s.Started) (htracker : s.tracker = [])
    (hrows : ∀ row ∈ s.db.positions, row.status = .opened → row.asOpened = row) :
    Kept pair s [] s := by
  refine ⟨fun id => ?_, fun id htracked => ?_, fun row hrow => ?_, fun p hp => ?_, fun p hp => ?_,
    fun phase hphase => ?_⟩
  · rw [htracker]
    rfl
  · rw [htracker] at htracked
    exact absurd rfl htracked
  · cases hstatus : row.status with
    | opened => exact .opened (hrows row hrow hstatus)
    | closed => exact .earlier hrow hstatus
  · cases hp with
    | updating hphase =>
      rw [h.phase] at hphase
      cases hphase
    | queued hmem =>
      rw [h.compensation] at hmem
      cases hmem
    | retrying hdrain hmem =>
      rw [h.drain] at hdrain
      cases hdrain
    | emergency hmem =>
      rw [h.emergency] at hmem
      cases hmem
  · cases hp with
    | found hphase =>
      rw [h.phase] at hphase
      cases hphase
    | listed hphase =>
      rw [h.emergency] at hphase
      cases hphase
    | placing hmem =>
      rw [h.emergency] at hmem
      cases hmem
  · rw [h.phase] at hphase
    cases hphase

instance : DecidablePred EntersNew := fun a =>
  match a with
  | .registered position => inferInstanceAs (Decidable (position.asOpened = position))
  | .onMarketData _ | .extremesRead _ | .dispatchRead _ | .dispatchResume _ | .findById _
  | .findResume _ | .placeExitResolves _ | .placeExitRejects _ | .update _ | .updateResume
  | .notified _ | .entryDone | .stop | .drain | .retry .. | .retryResume | .markClosed ..
  | .emergencyExecute | .emergencyRead _ | .emergencyResume | .emergencyResolves ..
  | .emergencyRejects _ | .emergencyUpdate .. => .isTrue trivial

end ExitSystem

/-- A snapshot in which the bid is 152.5. -/
def risenSnapshot : MarketSnapshot :=
  { crossSnapshot with
    tick := ⟨⟨15252 / 100, by decide +kernel⟩, ⟨1525 / 10, by decide +kernel⟩, 867605000,
      by decide +kernel⟩ }

end Luchida
