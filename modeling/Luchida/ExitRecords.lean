import Luchida.ExitOnce

/- Where the rows of closed positions come from: what `PositionExtremesUpdater` has shown of a
   position, the steps of a run that a row can be followed back to (`Recorded`), and the
   invariant that carries this through the parties that have a position in hand (`Kept`).

   `Kept.frame` is what a step has to keep, and the lemmas before it what each statement does
   to the rows. -/
namespace Luchida

/-! ## Extremes of the prices shown -/

/-- The price that a position is shown: that of the side it is closed at. -/
def shownPrice (bid ask : Price) : BuySell → Price
  | .buy => bid
  | .sell => ask

/-- What is tracked of a position of which these prices were shown. -/
def Shown (prices : List Price) : Option ExtremesSnapshot → Prop
  | none => prices = []
  | some e => e.highest ∈ prices ∧ e.lowest ∈ prices ∧
      ∀ price ∈ prices, e.lowest.value ≤ price.value ∧ price.value ≤ e.highest.value

/-- The order in which they were shown does not matter, nor how often. -/
theorem Shown.congr {prices prices' : List Price} (hmem : ∀ p, p ∈ prices ↔ p ∈ prices')
    {tracked : Option ExtremesSnapshot} (h : Shown prices tracked) : Shown prices' tracked := by
  cases tracked with
  | none =>
    refine List.eq_nil_iff_forall_not_mem.mpr fun p hp => ?_
    have hnone : prices = [] := h
    rw [← hmem, hnone] at hp
    exact List.not_mem_nil hp
  | some e =>
    obtain ⟨hhigh, hlow, hbounds⟩ := h
    exact ⟨(hmem _).mp hhigh, (hmem _).mp hlow, fun p hp => hbounds p ((hmem p).mpr hp)⟩

namespace ExtremeTracker

variable {tracker : ExtremeTracker} {prices : List Price} {id : PositionId}

/-- What `update` makes of what was tracked. -/
def widen (price : Price) : Option ExtremesSnapshot → ExtremesSnapshot
  | none => ⟨price, price⟩
  | some e => {
      highest := if price.isHigherThan e.highest then price else e.highest
      lowest := if e.lowest.isHigherThan price then price else e.lowest }

theorem update_eq (tracker : ExtremeTracker) (id : PositionId) (bid ask : Price)
    (buySell : BuySell) :
    tracker.update id bid ask buySell =
      OrderedMap.set tracker id
        (widen (shownPrice bid ask buySell) (OrderedMap.get tracker id)) := by
  unfold update
  cases buySell <;> cases OrderedMap.get tracker id <;> rfl

theorem shown_widen {tracked : Option ExtremesSnapshot} (h : Shown prices tracked)
    (price : Price) : Shown (price :: prices) (some (widen price tracked)) := by
  cases tracked with
  | none =>
    have hnone : prices = [] := h
    subst hnone
    exact ⟨List.mem_cons_self .., List.mem_cons_self .., by simp [widen]⟩
  | some e =>
    obtain ⟨hhigh, hlow, hbounds⟩ := h
    have hmem : ∀ (p : Price) (c : Bool), p ∈ prices →
        (if c = true then price else p) ∈ price :: prices := by
      intro p c hp
      split
      · exact List.mem_cons_self ..
      · exact List.mem_cons_of_mem _ hp
    refine ⟨hmem e.highest _ hhigh, hmem e.lowest _ hlow, fun p hp => ?_⟩
    -- the new price is within by the comparisons, an old one by what was tracked
    have hhighest : max price.value e.highest.value ≤ (widen price (some e)).highest.value := by
      simp only [widen, Price.isHigherThan_iff]
      split
      · rename_i habove
        exact max_le le_rfl (le_of_lt habove)
      · rename_i habove
        exact max_le (not_lt.mp habove) le_rfl
    have hlowest : (widen price (some e)).lowest.value ≤ min price.value e.lowest.value := by
      simp only [widen, Price.isHigherThan_iff]
      split
      · rename_i hbelow
        exact le_min le_rfl (le_of_lt hbelow)
      · rename_i hbelow
        exact le_min (not_lt.mp hbelow) le_rfl
    rcases List.mem_cons.mp hp with rfl | hp
    · exact ⟨hlowest.trans (min_le_left ..), (le_max_left ..).trans hhighest⟩
    · exact ⟨hlowest.trans ((min_le_right ..).trans (hbounds p hp).1),
        ((hbounds p hp).2.trans (le_max_right ..)).trans hhighest⟩

theorem shown_update (h : Shown prices (OrderedMap.get tracker id)) (bid ask : Price)
    (buySell : BuySell) :
    Shown (shownPrice bid ask buySell :: prices)
      (OrderedMap.get (tracker.update id bid ask buySell) id) := by
  rw [update_eq, OrderedMap.get_set_self]
  exact shown_widen h _

theorem get_update_of_ne (tracker : ExtremeTracker) {id id' : PositionId} (hne : id' ≠ id)
    (bid ask : Price) (buySell : BuySell) :
    OrderedMap.get (tracker.update id bid ask buySell) id' = OrderedMap.get tracker id' := by
  rw [update_eq]
  exact OrderedMap.get_set_of_ne tracker _ hne

/-- Of each of its rows a position is shown the price of its side. -/
theorem shown_updateAll (bid ask : Price) (positions : List Position)
    (h : Shown prices (OrderedMap.get tracker id)) :
    Shown ((positions.filter fun p => p.id = id).map (fun p => shownPrice bid ask p.buySell) ++
      prices) (OrderedMap.get (updateAll bid ask positions tracker) id) := by
  induction positions generalizing tracker prices with
  | nil => exact h
  | cons p rest ih =>
    unfold updateAll
    by_cases hid : p.id = id
    · subst hid
      refine (ih (shown_update h bid ask p.buySell)).congr fun price => ?_
      rw [List.filter_cons_of_pos (by simp)]
      simp only [List.mem_append, List.mem_cons, List.map_cons]
      tauto
    · rw [List.filter_cons_of_neg (by simpa using hid)]
      refine ih ?_
      rw [get_update_of_ne tracker (Ne.symm hid)]
      exact h

end ExtremeTracker

/-! ## What is written over a row -/

namespace Position

@[simp] theorem asOpened_applyExtremes (p : Position) (highest lowest : Price) :
    (p.applyExtremes highest lowest).asOpened = p.asOpened := by
  unfold applyExtremes
  split
  · rfl
  · dsimp only
    split <;> rfl

theorem asOpened_close {p p' : Position} {command : ExitCommand} {result : ExitResult}
    (h : p.close command result = some p') : p'.asOpened = p.asOpened := by
  unfold close at h
  split at h
  · cases h
  · cases h
    rfl

end Position

namespace Database

/-- `update` writes every column that can differ. -/
theorem updateRow_of_asOpened {position row : Position} (h : row.asOpened = position.asOpened) :
    updateRow position row = position := by
  have hid : row.id = position.id := congrArg (·.id) h
  unfold updateRow
  rw [if_pos hid]
  calc { row with
        status := position.status
        exitPrice := position.exitPrice
        profitLoss := position.profitLoss
        closedAt := position.closedAt
        exitType := position.exitType
        exitReason := position.exitReason
        mfePips := position.mfePips
        maePips := position.maePips }
      = { row.asOpened with
        status := position.status
        exitPrice := position.exitPrice
        profitLoss := position.profitLoss
        closedAt := position.closedAt
        exitType := position.exitType
        exitReason := position.exitReason
        mfePips := position.mfePips
        maePips := position.maePips } := rfl
    _ = position := by rw [h]; rfl

/-- The position was registered in the table. -/
def Registered (db : Database) (p : Position) : Prop :=
  ∃ row ∈ db.positions, row.asOpened = p.asOpened

theorem registered_of_mem {db : Database} {p : Position} (h : p ∈ db.positions) :
    db.Registered p := ⟨p, h, rfl⟩

/-- Rows of one id are one row. -/
theorem asOpened_eq {db : Database} {p row : Position} (h : db.Registered p)
    (hrow : row ∈ db.positions) (hid : row.id = p.id) : row.asOpened = p.asOpened := by
  obtain ⟨row', hrow', heq⟩ := h
  have hids : row'.id = row.id := (congrArg (·.id) heq).trans hid.symm
  rw [← heq, List.inj_on_of_nodup_map db.positions_key hrow hrow' hids.symm]

end Database

namespace ExitSystem

/-- A step of a run, with the state it was taken in. -/
abbrev Moment := ExitSystem × ExitLabel

/-! ## What a position was shown -/

/-- The prices of the position that `PositionExtremesUpdater` sees in a step. -/
def showing (pair : CurrencyPair) (id : PositionId) (s : ExitSystem) : ExitLabel → List Price
  | .extremesRead true =>
    match s.session.phase with
    | some (.updatingExtremes snapshot) =>
      ((forPair pair s.db.openPositions).filter fun p => p.id = id).map fun p =>
        shownPrice snapshot.tick.bid snapshot.tick.ask p.buySell
    | _ => []
  | _ => []

/-- The step in which the tracker forgets the position: its exit is done. -/
def forgets (id : PositionId) (s : ExitSystem) : ExitLabel → Bool
  | .notified _ =>
    match s.session.phase with
    | some (.notifying turn) => decide (turn.position.id = id)
    | _ => false
  | _ => false

/-- The prices that were shown of the position since it was last forgotten. -/
def seen (pair : CurrencyPair) (id : PositionId) : List Moment → List Price
  | [] => []
  | (s, a) :: older =>
    if s.forgets id a = true then [] else s.showing pair id a ++ seen pair id older

/-- A step that the tracker has no part in. -/
def ExitLabel.isQuiet : ExitLabel → Bool
  | .extremesRead served => !served
  | .notified _ => false
  | _ => true

theorem seen_quiet {a : ExitLabel} (ha : ExitLabel.isQuiet a = true) (pair : CurrencyPair)
    (id : PositionId) (s : ExitSystem) (past : List Moment) :
    seen pair id ((s, a) :: past) = seen pair id past := by
  have hforgets : s.forgets id a = false := by
    cases a with
    | notified rules => cases ha
    | _ => rfl
  have hshowing : s.showing pair id a = [] := by
    cases a with
    | extremesRead served =>
      cases served with
      | false => rfl
      | true => cases ha
    | _ => rfl
  rw [seen, hforgets, hshowing]
  rfl

/-! ## Where a row comes from -/

/-- The exit of a turn is sent: the row was read again, and goes to the broker. -/
structure Sends (turn : ExitTurn) (row : Position) (send : Moment) : Prop where
  phase : send.1.session.phase = some (.finding turn (some (some row)))
  label : ∃ rules, send.2 = .findResume rules

/-- The exit of a turn resolves. -/
structure Fills (turn : ExitTurn) (result : ExitResult) (fill : Moment) : Prop where
  phase : ∃ position, fill.1.session.phase = some (.placing turn position)
  label : fill.2 = .placeExitResolves result

/-- The exit of an OPEN position was sent, with the extremes of the prices shown before it, among
them that of the snapshot its rule was asked about. -/
structure Ordered (pair : CurrencyPair) (turn : ExitTurn) (opened : Position)
    (before : List Moment) : Prop where
  own : turn.command.positionId = opened.id
  shown : Shown (seen pair opened.id before) (some turn.extremes)
  decided : shownPrice turn.run.snapshot.tick.bid turn.run.snapshot.tick.ask opened.buySell ∈
    seen pair opened.id before

/-- What a closed position says of its exit, and the steps that it says it from. -/
inductive Settled (pair : CurrencyPair) (past : List Moment) (p : Position) : Prop
  /-- A dispatch has sent the exit, and it was filled. -/
  | dispatched {turn : ExitTurn} {result : ExitResult} {after between before : List Moment}
      {fill send : Moment} : past = after ++ fill :: between ++ send :: before →
      Sends turn p.asOpened send → Fills turn result fill →
      Ordered pair turn p.asOpened before →
      (p.asOpened.applyExtremes turn.extremes.highest turn.extremes.lowest).close
        turn.command result = some p → Settled pair past p
  /-- The emergency path has. It knows of no extremes. -/
  | forced {result : ExitResult} {s : ExitSystem} :
      (s, .emergencyResolves p.id result) ∈ past →
      p.asOpened.close (forceClose p.id) result = some p → Settled pair past p

/-- A `markClosed` of the id is served: of the sync, or the entry that the compensation queue
retries. -/
inductive Marks (id : PositionId) (now : Int) : Moment → Prop
  | synced (s : ExitSystem) : Marks id now (s, .markClosed id now)
  | retried {s : ExitSystem} {rest : List CompensationEntry} {reply : DbReply} :
      s.drain = .retrying (.markClosed id) none rest → reply ≠ .failed →
      Marks id now (s, .retry reply now)

/-- What a row says, and where that comes from. -/
inductive Recorded (pair : CurrencyPair) (s₀ : ExitSystem) (past : List Moment)
    (row : Position) : Prop
  /-- It was closed before the run. -/
  | earlier : row ∈ s₀.db.positions → row.status = .closed → Recorded pair s₀ past row
  | opened : row.asOpened = row → Recorded pair s₀ past row
  /-- A `markClosed` has closed it. -/
  | marked (now : Int) : (∃ moment ∈ past, Marks row.id now moment) →
      { row.asOpened with status := .closed, closedAt := some now } = row →
      Recorded pair s₀ past row
  | settled : Settled pair past row → Recorded pair s₀ past row

variable {pair : CurrencyPair} {s₀ s s' : ExitSystem} {past : List Moment} {moment : Moment}
  {p row : Position}

theorem Settled.later (h : Settled pair past p) : Settled pair (moment :: past) p := by
  cases h with
  | @dispatched turn result after between before fill send hpast hsends hfills hordered hclose =>
    have hlater : moment :: past = (moment :: after) ++ fill :: between ++ send :: before := by
      rw [hpast]
      rfl
    exact .dispatched hlater hsends hfills hordered hclose
  | forced hmem hclose => exact .forced (List.mem_cons_of_mem _ hmem) hclose

theorem Settled.closed (h : Settled pair past p) : p.status = .closed := by
  cases h with
  | dispatched _ _ _ _ hclose => exact (Position.close_eq_some hclose).2
  | forced _ hclose => exact (Position.close_eq_some hclose).2

theorem Recorded.later (h : Recorded pair s₀ past row) :
    Recorded pair s₀ (moment :: past) row := by
  cases h with
  | earlier hmem hclosed => exact .earlier hmem hclosed
  | opened heq => exact .opened heq
  | marked now hmarks heq =>
    obtain ⟨m, hm, hmark⟩ := hmarks
    exact .marked now ⟨m, List.mem_cons_of_mem _ hm, hmark⟩ heq
  | settled hsettled => exact .settled hsettled.later

/-- An OPEN row has nothing but what it was opened with. -/
theorem Recorded.asOpened (h : Recorded pair s₀ past row) (hopen : row.status = .opened) :
    row.asOpened = row := by
  cases h with
  | earlier _ hclosed =>
    rw [hopen] at hclosed
    cases hclosed
  | opened heq => exact heq
  | marked now _ heq =>
    rw [← heq] at hopen
    cases hopen
  | settled hsettled =>
    rw [hsettled.closed] at hopen
    cases hopen

/-! ## What is under way -/

/-- A closed position that some party is about to write. -/
inductive Settles (s : ExitSystem) : Position → Prop
  | updating {turn : ExitTurn} {closed : ClosedPosition} {reply : Option Bool} :
      s.session.phase = some (.updating turn closed reply) → Settles s closed.position
  | queued {closed : ClosedPosition} : .update closed ∈ s.compensation → Settles s closed.position
  | retrying {current : CompensationEntry} {reply : Option Bool} {rest : List CompensationEntry}
      {closed : ClosedPosition} : s.drain = .retrying current reply rest →
      .update closed ∈ current :: rest → Settles s closed.position
  | emergency {closed : ClosedPosition} : .updating closed ∈ s.emergency.tasks →
      Settles s closed.position

/-- An OPEN position as some party has read it, whose exit has not resolved. -/
inductive Waits (s : ExitSystem) : Position → Prop
  | found {turn : ExitTurn} {row : Position} :
      s.session.phase = some (.finding turn (some (some row))) → row.status = .opened → Waits s row
  | listed {rows : List OpenPosition} {position : OpenPosition} : s.emergency = .listed rows →
      position ∈ rows → Waits s position.position
  | placing {position : OpenPosition} : .placing position ∈ s.emergency.tasks →
      Waits s position.position

/-- The position was shown the price of the snapshot, if it is tracked at all. -/
structure Priced (pair : CurrencyPair) (past : List Moment) (s : ExitSystem)
    (snapshot : MarketSnapshot) (p : Position) : Prop where
  registered : s.db.Registered p
  price : OrderedMap.get s.tracker p.id ≠ none →
    shownPrice snapshot.tick.bid snapshot.tick.ask p.buySell ∈ seen pair p.id past

/-- The turn has the extremes of the prices shown, and the positions after it are priced. -/
structure Turned (pair : CurrencyPair) (past : List Moment) (s : ExitSystem) (turn : ExitTurn) :
    Prop where
  own : turn.command.positionId = turn.position.id
  registered : s.db.Registered turn.position
  tracked : OrderedMap.get s.tracker turn.position.id = some turn.extremes
  decided : shownPrice turn.run.snapshot.tick.bid turn.run.snapshot.tick.ask
    turn.position.buySell ∈ seen pair turn.position.id past
  rest : ∀ p ∈ turn.run.rest, Priced pair past s turn.run.snapshot p

/-- What is known of the dispatch in each phase. -/
def PhaseKept (pair : CurrencyPair) (past : List Moment) (s : ExitSystem) : ExitPhase → Prop
  | .reading snapshot => ∀ row ∈ s.db.openPositions, row.pair = pair →
      Priced pair past s snapshot row
  | .listed snapshot rows => ∀ row ∈ rows, row.pair = pair → Priced pair past s snapshot row
  | .finding turn reply => Turned pair past s turn ∧
      ∀ row, reply = some (some row) → row.id = turn.position.id ∧ s.db.Registered row
  | .placing turn position => (∀ p ∈ turn.run.rest, Priced pair past s turn.run.snapshot p) ∧
      s.db.Registered position ∧ (position.status = .opened →
        ∃ after send before, past = after ++ send :: before ∧
          Sends turn position.asOpened send ∧ Ordered pair turn position.asOpened before ∧
          position = position.asOpened.applyExtremes turn.extremes.highest turn.extremes.lowest)
  | .updating turn _ _ | .notifying turn =>
    ∀ p ∈ turn.run.rest, Priced pair past s turn.run.snapshot p
  | _ => True

/-- The invariant of a run. -/
structure Kept (pair : CurrencyPair) (s₀ : ExitSystem) (past : List Moment) (s : ExitSystem) :
    Prop where
  shown : ∀ id, Shown (seen pair id past) (OrderedMap.get s.tracker id)
  known : ∀ id, OrderedMap.get s.tracker id ≠ none → ∃ row ∈ s.db.positions, row.id = id
  rows : ∀ row ∈ s.db.positions, Recorded pair s₀ past row
  settling : ∀ p, s.Settles p → Settled pair past p ∧ s.db.Registered p
  waiting : ∀ p, s.Waits p → p.asOpened = p ∧ s.db.Registered p
  phase : ∀ phase, s.session.phase = some phase → PhaseKept pair past s phase

/-! ## What the statements do to the rows -/

/-- Every position stays registered, and an OPEN row was there before or is of a new id. -/
structure Grows (db db' : Database) : Prop where
  registered : ∀ p, db.Registered p → db'.Registered p
  opened : ∀ row ∈ db'.positions, row.status = .opened →
    row ∈ db.positions ∨ ∀ row' ∈ db.positions, row'.id ≠ row.id

/-- The table has grown, and each of its rows is recorded. -/
structure Rewrites (pair : CurrencyPair) (s₀ : ExitSystem) (past : List Moment)
    (db db' : Database) : Prop where
  grows : Grows db db'
  rows : ∀ row ∈ db'.positions, Recorded pair s₀ past row

theorem Grows.refl (db : Database) : Grows db db := ⟨fun _ h => h, fun _ h _ => .inl h⟩

theorem grows_updateRows (db : Database) {f : Position → Position} (hid : ∀ p, (f p).id = p.id)
    (hentry : ∀ p, (f p).asOpened = p.asOpened) (hopen : ∀ p, (f p).status = .opened → f p = p) :
    Grows db (db.updateRows f hid) := by
  constructor
  · intro p hp
    obtain ⟨row, hrow, heq⟩ := hp
    exact ⟨f row, List.mem_map_of_mem hrow, (hentry row).trans heq⟩
  · intro row hrow hopened
    obtain ⟨row', hrow', rfl⟩ := List.mem_map.mp hrow
    rw [hopen row' hopened]
    exact .inl hrow'

theorem Kept.unchanged (h : Kept pair s₀ past s) (moment : Moment) :
    Rewrites pair s₀ (moment :: past) s.db s.db :=
  ⟨.refl s.db, fun row hrow => (h.rows row hrow).later⟩

/-- The row of a settled position becomes that position. -/
theorem Kept.update (h : Kept pair s₀ past s) {closed : ClosedPosition}
    (hsettled : Settled pair (moment :: past) closed.position)
    (hregistered : s.db.Registered closed.position) :
    Rewrites pair s₀ (moment :: past) s.db (s.db.update closed.position) := by
  refine ⟨grows_updateRows s.db _ (Database.asOpened_updateRow _) fun p hopen => ?_,
    fun row hrow => ?_⟩
  · unfold Database.updateRow at hopen ⊢
    split
    · rename_i hid
      rw [if_pos hid, closed.closed] at hopen
      cases hopen
    · rfl
  · obtain ⟨row', hrow', rfl⟩ := List.mem_map.mp hrow
    by_cases hid : row'.id = closed.position.id
    · rw [Database.updateRow_of_asOpened (Database.asOpened_eq hregistered hrow' hid)]
      exact .settled hsettled
    · unfold Database.updateRow
      rw [if_neg hid]
      exact (h.rows row' hrow').later

theorem Kept.markClosed (h : Kept pair s₀ past s) {id : PositionId} {now : Int}
    (hmarks : Marks id now moment) :
    Rewrites pair s₀ (moment :: past) s.db (s.db.markClosed id now) := by
  refine ⟨grows_updateRows s.db _ (Database.asOpened_closeRow id now) fun p hopen => ?_,
    fun row hrow => ?_⟩
  · unfold Database.closeRow at hopen ⊢
    split
    · rename_i hrow
      rw [if_pos hrow] at hopen
      cases hopen
    · rfl
  · obtain ⟨row', hrow', rfl⟩ := List.mem_map.mp hrow
    unfold Database.closeRow
    split
    · rename_i hopen
      obtain ⟨hid, hstatus⟩ := hopen
      have heq := (h.rows row' hrow').asOpened hstatus
      refine .marked now ⟨moment, List.mem_cons_self .., hid ▸ hmarks⟩ ?_
      conv_rhs => rw [← heq]
      rfl
    · exact (h.rows row' hrow').later

theorem Kept.insert (h : Kept pair s₀ past s) {p : Position} {db : Database}
    (hnew : p.asOpened = p) (hinsert : s.db.insertPosition { p with status := .opened } = some db) :
    Rewrites pair s₀ (moment :: past) s.db db := by
  have hopened : ({ p with status := .opened } : Position) = p := by
    rw [← hnew]
    rfl
  rw [hopened] at hinsert
  unfold Database.insertPosition at hinsert
  split at hinsert
  · cases hinsert
  · rename_i hfresh
    cases hinsert
    rw [Database.hasRow_iff] at hfresh
    refine ⟨⟨fun q hq => ?_, fun row hrow _ => ?_⟩, fun row hrow => ?_⟩
    · obtain ⟨row, hrow, heq⟩ := hq
      exact ⟨row, List.mem_append_left _ hrow, heq⟩
    · rcases List.mem_append.mp hrow with hrow | hrow
      · exact .inl hrow
      · rw [List.mem_singleton.mp hrow]
        exact .inr fun row' hrow' heq => hfresh (List.mem_map.mpr ⟨row', hrow', heq⟩)
    · rcases List.mem_append.mp hrow with hrow | hrow
      · exact (h.rows row hrow).later
      · rw [List.mem_singleton.mp hrow]
        exact .opened hnew

/-- Whatever becomes of a statement, the rows are as they were or as it makes them. -/
theorem Rewrites.write (h : Kept pair s₀ past s) {db : Database}
    {reply : DbReply} (hdb : reply ≠ .failed → Rewrites pair s₀ (moment :: past) s.db db) :
    Rewrites pair s₀ (moment :: past) s.db (s.db.write (some db) reply).2 := by
  cases reply with
  | failed => exact h.unchanged moment
  | ok => exact hdb (by simp)
  | lost => exact hdb (by simp)

/-! ## Steps -/

theorem Priced.grow {snapshot : MarketSnapshot} {past' : List Moment}
    (h : Priced pair past s snapshot p) (hgrows : Grows s.db s'.db)
    (htracker : s'.tracker = s.tracker) (hseen : ∀ id, seen pair id past' = seen pair id past) :
    Priced pair past' s' snapshot p :=
  ⟨hgrows.registered p h.registered, fun htracked => by
    rw [hseen]
    exact h.price (htracker ▸ htracked)⟩

/-- The dispatch loses nothing by the steps of the others. -/
theorem PhaseKept.frame (h : Kept pair s₀ past s) {phase : ExitPhase}
    (hphase : PhaseKept pair past s phase) {a : ExitLabel} (ha : ExitLabel.isQuiet a = true)
    (htracker : s'.tracker = s.tracker) (hgrows : Grows s.db s'.db) :
    PhaseKept pair ((s, a) :: past) s' phase := by
  have hseen : ∀ id, seen pair id ((s, a) :: past) = seen pair id past := fun id =>
    seen_quiet ha pair id s past
  have hrest : ∀ {snapshot : MarketSnapshot} {rest : List Position},
      (∀ p ∈ rest, Priced pair past s snapshot p) →
      ∀ p ∈ rest, Priced pair ((s, a) :: past) s' snapshot p := fun h p hp =>
    (h p hp).grow hgrows htracker hseen
  cases phase with
  | updatingExtremes snapshot => trivial
  | reading snapshot =>
    intro row hrow hpair
    obtain ⟨hmem, hopen⟩ := List.mem_filter.mp hrow
    rcases hgrows.opened row hmem (by simpa using hopen) with hold | hnew
    · exact (hphase row (List.mem_filter.mpr ⟨hold, hopen⟩) hpair).grow hgrows htracker hseen
    · -- nobody has seen a new id
      refine ⟨Database.registered_of_mem hmem, fun htracked => ?_⟩
      obtain ⟨row', hrow', hid⟩ := h.known row.id (htracker ▸ htracked)
      exact absurd hid (hnew row' hrow')
  | listed snapshot rows =>
    intro row hrow hpair
    exact (hphase row hrow hpair).grow hgrows htracker hseen
  | finding turn reply =>
    obtain ⟨⟨hown, hregistered, htracked, hdecided, hturns⟩, hreply⟩ := hphase
    refine ⟨⟨hown, hgrows.registered _ hregistered, htracker ▸ htracked, ?_, hrest hturns⟩,
      fun row hrow => ?_⟩
    · rw [hseen]
      exact hdecided
    · obtain ⟨hid, hrow⟩ := hreply row hrow
      exact ⟨hid, hgrows.registered _ hrow⟩
  | placing turn position =>
    obtain ⟨hturns, hregistered, hsent⟩ := hphase
    refine ⟨hrest hturns, hgrows.registered _ hregistered, fun hopen => ?_⟩
    obtain ⟨after, send, before, rfl, hordered⟩ := hsent hopen
    exact ⟨(s, a) :: after, send, before, rfl, hordered⟩
  | updating turn closed reply => exact hrest hphase
  | notifying turn => exact hrest hphase
  | entering => trivial

/-- What a step has to keep. -/
theorem Kept.frame (h : Kept pair s₀ past s) {a : ExitLabel} (ha : ExitLabel.isQuiet a = true)
    (htracker : s'.tracker = s.tracker)
    (hdb : Rewrites pair s₀ ((s, a) :: past) s.db s'.db)
    (hsettles : ∀ p, s'.Settles p →
      s.Settles p ∨ Settled pair ((s, a) :: past) p ∧ s.db.Registered p)
    (hwaits : ∀ p, s'.Waits p → s.Waits p ∨ p.asOpened = p ∧ s.db.Registered p)
    (hphase : ∀ phase, s'.session.phase = some phase →
      s.session.phase = some phase ∨ PhaseKept pair ((s, a) :: past) s' phase) :
    Kept pair s₀ ((s, a) :: past) s' := by
  refine ⟨fun id => ?_, fun id hid => ?_, hdb.rows, fun p hp => ?_, fun p hp => ?_,
    fun phase hmem => ?_⟩
  · rw [seen_quiet ha, htracker]
    exact h.shown id
  · rw [htracker] at hid
    obtain ⟨row, hrow, rfl⟩ := h.known id hid
    obtain ⟨row', hrow', heq⟩ := hdb.grows.registered row (Database.registered_of_mem hrow)
    exact ⟨row', hrow', congrArg (·.id) heq⟩
  · rcases hsettles p hp with hp | ⟨hsettled, hregistered⟩
    · obtain ⟨hsettled, hregistered⟩ := h.settling p hp
      exact ⟨hsettled.later, hdb.grows.registered p hregistered⟩
    · exact ⟨hsettled, hdb.grows.registered p hregistered⟩
  · rcases hwaits p hp with hp | ⟨hopened, hregistered⟩
    · obtain ⟨hopened, hregistered⟩ := h.waiting p hp
      exact ⟨hopened, hdb.grows.registered p hregistered⟩
    · exact ⟨hopened, hdb.grows.registered p hregistered⟩
  · rcases hphase phase hmem with hmem | hkept
    · exact (h.phase phase hmem).frame h ha htracker hdb.grows
    · exact hkept

end ExitSystem

end Luchida
