import Luchida.ExitSystem
import Luchida.SyncPositions

/- The sync beside the entries and the exits: one broker, one table, and any number of
   `SyncPositionsUseCase.execute` runs. Entries register their row after the broker has
   opened the position, exits write theirs after the broker has closed it, and positions
   are also closed by hand at the broker.

   A label is one step of one party; a query or a statement is served by one label and its
   caller resumes by another. The sync reads the rows before it asks the broker, so a row
   that the answer does not name is a position that has been closed, and `markClosed`
   touches OPEN rows only (`sync_safe`). An answer may be any list of ids; that it names every
   position open during the whole call is asked of the runs (`AnswersOpen`). -/
namespace Luchida

/-- How far an `execute` has come. -/
inductive SyncPhase where
  /-- The rows are read. -/
  | read (dbPositions : List Position)
  /-- `fetchOpenPositionIds` is under way. The second list is not in the source: the
  positions of the pair that were open at the broker when it began. -/
  | fetching (dbPositions : List Position) (openAtStart : List PositionId)
  /-- `markClosed` of this id was issued. -/
  | marking (id : PositionId) (rest : List Position)
  | settled

/-- The broker, the table, and what is under way between them. -/
structure SyncSystem where
  /-- The positions that are open at the broker. -/
  broker : List Position
  /-- Every id the broker has given out. -/
  opened : List PositionId
  registering : List Position
  db : Database
  /-- The positions whose `placeExit` has resolved, as `update` writes them. -/
  exits : List ClosedPosition
  syncs : List SyncPhase
  /-- The ids that `markClosed` was issued for. -/
  marks : List PositionId
  /-- The updates that found their row. -/
  updated : List ClosedPosition

inductive SyncLabel where
  /-- An entry is filled. -/
  | brokerOpens (command : EntryCommand) (result : EntryResult)
  /-- The `i`-th of the entries that are filled inserts its row. -/
  | register (i : Nat) (reply : DbReply)
  /-- `placeExit` resolves for a position that was read from the table. -/
  | exitResolves (position : Position) (command : ExitCommand) (result : ExitResult)
  /-- `update` of the `i`-th exit is served, for the first time or again. -/
  | update (i : Nat) (reply : DbReply)
  /-- A position is closed by hand. -/
  | brokerCloses (id : PositionId)
  /-- An `execute` begins and its query is served. -/
  | syncReads
  | syncFetchBegins (k : Nat)
  /-- The ids that the broker answers, or `none` when the fetch throws. -/
  | syncFetchEnds (k : Nat) (brokerIds : Option (List PositionId))
  | syncMarkSettles (k : Nat) (now : Int) (reply : DbReply)

namespace SyncSystem

def fresh : SyncSystem := ⟨[], [], [], .empty, [], [], [], []⟩

/-- The position is open at the broker. -/
def IsLive (s : SyncSystem) (id : PositionId) : Prop := ∃ p ∈ s.broker, p.id = id

instance (s : SyncSystem) (id : PositionId) : Decidable (s.IsLive id) :=
  inferInstanceAs (Decidable (∃ p ∈ s.broker, p.id = id))

def close (s : SyncSystem) (id : PositionId) : SyncSystem :=
  { s with broker := s.broker.filter (fun p => p.id ≠ id) }

/-- `placeExit` of `p` has resolved; the update is to come. -/
def exitResolves (s : SyncSystem) (p : Position) (closed : ClosedPosition) : SyncSystem :=
  { s.close p.id with exits := s.exits ++ [closed] }

/-- The tables and the log after an `update` that takes effect. -/
def updateRow (s : SyncSystem) (closed : ClosedPosition) : SyncSystem :=
  { s with
    db := s.db.update closed.position
    updated := if s.db.hasRow closed.position.id = true then s.updated ++ [closed] else s.updated }

/-- The loop over the positions that are externally closed, up to its next `await`. -/
def markNext (s : SyncSystem) (k : Nat) : List Position → SyncSystem
  | [] => { s with syncs := s.syncs.set k .settled }
  | p :: rest =>
    { s with
      syncs := s.syncs.set k (.marking p.id rest)
      marks := s.marks ++ [p.id] }

/-- The statement of `markClosed`. A failure ends the loop. -/
def markSettles (s : SyncSystem) (k : Nat) (id : PositionId) (rest : List Position) (now : Int) :
    DbReply → SyncSystem
  | .ok => { s with db := s.db.markClosed id now }.markNext k rest
  | .failed => { s with syncs := s.syncs.set k .settled }
  | .lost => { s with db := s.db.markClosed id now, syncs := s.syncs.set k .settled }

def step (pair : CurrencyPair) (s : SyncSystem) : SyncLabel → Option SyncSystem
  | .brokerOpens command result =>
    if result.positionId ∈ s.opened then none
    else
      let p := Position.openWith command result
      some { s with
        broker := s.broker ++ [p]
        opened := s.opened ++ [p.id]
        registering := s.registering ++ [p] }
  | .register i reply =>
    match s.registering[i]? with
    | some p => some { s with
        registering := s.registering.eraseIdx i
        db := (s.db.write (s.db.insertPosition p) reply).2 }
    | none => none
  | .exitResolves p command result =>
    if s.IsLive p.id ∧ s.db.hasRow p.id = true then
      (ClosedPosition.of? p command result).map (s.exitResolves p)
    else none
  | .update i reply =>
    match s.exits[i]? with
    | some closed => some (match reply with
      | .failed => s
      | .ok | .lost => s.updateRow closed)
    | none => none
  | .brokerCloses id => if s.IsLive id then some (s.close id) else none
  | .syncReads =>
    some { s with syncs := s.syncs ++ [.read (s.db.openPositions.filter (fun p => p.pair = pair))] }
  | .syncFetchBegins k =>
    match s.syncs[k]? with
    | some (.read dbPositions) =>
      let openAtStart := (s.broker.filter (fun p => p.pair = pair)).map (·.id)
      some { s with syncs := s.syncs.set k (.fetching dbPositions openAtStart) }
    | _ => none
  | .syncFetchEnds k brokerIds =>
    match s.syncs[k]?, brokerIds with
    | some (.fetching _ _), none => some { s with syncs := s.syncs.set k .settled }
    | some (.fetching dbPositions _), some ids =>
      some (s.markNext k (missingFrom dbPositions ids))
    | _, _ => none
  | .syncMarkSettles k now reply =>
    match s.syncs[k]? with
    | some (.marking id rest) => some (s.markSettles k id rest now reply)
    | _ => none

/-- An answer names every position of the pair that was open at the broker during the whole
call. -/
def AnswersOpen (s : SyncSystem) : SyncLabel → Prop
  | .syncFetchEnds k (some ids) =>
    match s.syncs[k]? with
    -- an id is not given out twice: what was open at the start and is open now was open
    -- in between
    | some (.fetching _ openAtStart) => ∀ id ∈ openAtStart, s.IsLive id → id ∈ ids
    | _ => True
  | _ => True

instance (s : SyncSystem) (a : SyncLabel) : Decidable (s.AnswersOpen a) := by
  unfold AnswersOpen
  split
  · split <;> infer_instance
  · infer_instance

/-! ## What every step keeps -/

/-- The position has been opened, and the broker has closed it. -/
def Gone (s : SyncSystem) (id : PositionId) : Prop := id ∈ s.opened ∧ ¬ s.IsLive id

/-- What a sync relies on in each phase. -/
def PhaseSound (pair : CurrencyPair) (s : SyncSystem) : SyncPhase → Prop
  | .read dbPositions => ∀ p ∈ dbPositions, p.id ∈ s.opened ∧ p.pair = pair ∧
      ∀ b ∈ s.broker, b.id = p.id → b.pair = p.pair
  | .fetching dbPositions openAtStart =>
    ∀ p ∈ dbPositions, p.id ∈ s.opened ∧ (s.IsLive p.id → p.id ∈ openAtStart)
  | .marking id rest => s.Gone id ∧ ∀ p ∈ rest, s.Gone p.id
  | .settled => True

/-- The row carries what the update of the exit sets. -/
structure Shows (row exit : Position) : Prop where
  status : row.status = exit.status
  exitPrice : row.exitPrice = exit.exitPrice
  profitLoss : row.profitLoss = exit.profitLoss
  closedAt : row.closedAt = exit.closedAt
  exitType : row.exitType = exit.exitType
  exitReason : row.exitReason = exit.exitReason
  mfePips : row.mfePips = exit.mfePips
  maePips : row.maePips = exit.maePips

structure Kept (pair : CurrencyPair) (s : SyncSystem) : Prop where
  live_opened : ∀ p ∈ s.broker, p.id ∈ s.opened
  rows_opened : ∀ row ∈ s.db.positions, row.id ∈ s.opened
  registering_opened : ∀ r ∈ s.registering, r.id ∈ s.opened ∧ r.status = .opened
  rows_pair : ∀ row ∈ s.db.positions, ∀ p ∈ s.broker, p.id = row.id → p.pair = row.pair
  registering_pair : ∀ r ∈ s.registering, ∀ p ∈ s.broker, p.id = r.id → p.pair = r.pair
  closed_gone : ∀ row ∈ s.db.positions, row.status = .closed → ¬ s.IsLive row.id
  exits_gone : ∀ c ∈ s.exits, s.Gone c.position.id
  exits_unique : ∀ c ∈ s.exits, ∀ c' ∈ s.exits, c.position.id = c'.position.id → c = c'
  updated_exits : ∀ c ∈ s.updated, c ∈ s.exits
  updated_row : ∀ c ∈ s.updated, ∃ row ∈ s.db.positions,
    row.id = c.position.id ∧ Shows row c.position
  marks_gone : ∀ id ∈ s.marks, s.Gone id
  syncs_sound : ∀ phase ∈ s.syncs, PhaseSound pair s phase

variable {pair : CurrencyPair} {s s' : SyncSystem}

/-- Time has gone on: no id is forgotten, and no position that was closed is open again. -/
structure Later (s s' : SyncSystem) : Prop where
  opened : ∀ id ∈ s.opened, id ∈ s'.opened
  broker : ∀ b ∈ s'.broker, b.id ∈ s.opened → b ∈ s.broker

theorem Gone.later {id : PositionId} (h : s.Gone id) (hl : Later s s') : s'.Gone id := by
  refine ⟨hl.opened id h.1, ?_⟩
  rintro ⟨b, hb, rfl⟩
  exact h.2 ⟨b, hl.broker b hb h.1, rfl⟩

theorem PhaseSound.later {phase : SyncPhase} (h : PhaseSound pair s phase) (hl : Later s s') :
    PhaseSound pair s' phase := by
  cases phase with
  | read dbPositions =>
    intro p hp
    obtain ⟨hopened, hpair, hsame⟩ := h p hp
    refine ⟨hl.opened _ hopened, hpair, fun b hb hid => ?_⟩
    exact hsame b (hl.broker b hb (hid ▸ hopened)) hid
  | fetching dbPositions openAtStart =>
    intro p hp
    obtain ⟨hopened, hlive⟩ := h p hp
    refine ⟨hl.opened _ hopened, ?_⟩
    rintro ⟨b, hb, hid⟩
    exact hlive ⟨b, hl.broker b hb (hid ▸ hopened), hid⟩
  | marking id rest => exact ⟨h.1.later hl, fun p hp => (h.2 p hp).later hl⟩
  | settled => trivial

/-- A step that leaves the table and the logs alone. -/
theorem Kept.later (h : s.Kept pair) (hl : Later s s')
    (hlive : ∀ p ∈ s'.broker, p.id ∈ s'.opened) (hdb : s'.db = s.db)
    (hregistering : ∀ r ∈ s'.registering, r ∈ s.registering ∨ r.id ∈ s'.opened ∧
      r.status = .opened ∧ ∀ p ∈ s'.broker, p.id = r.id → p.pair = r.pair)
    (hexits : s'.exits = s.exits) (hupdated : s'.updated = s.updated) (hmarks : s'.marks = s.marks)
    (hsyncs : ∀ phase ∈ s'.syncs, PhaseSound pair s' phase) : s'.Kept pair where
  live_opened := hlive
  rows_opened row hrow := hl.opened _ (h.rows_opened row (hdb ▸ hrow))
  registering_opened r hr := by
    rcases hregistering r hr with hr | ⟨hopened, hstatus, -⟩
    · obtain ⟨hopened, hstatus⟩ := h.registering_opened r hr
      exact ⟨hl.opened _ hopened, hstatus⟩
    · exact ⟨hopened, hstatus⟩
  rows_pair row hrow p hp hid := by
    rw [hdb] at hrow
    exact h.rows_pair row hrow p (hl.broker p hp (hid ▸ h.rows_opened row hrow)) hid
  registering_pair r hr p hp hid := by
    rcases hregistering r hr with hr | ⟨-, -, hpair⟩
    · exact h.registering_pair r hr p (hl.broker p hp (hid ▸ (h.registering_opened r hr).1)) hid
    · exact hpair p hp hid
  closed_gone row hrow hclosed := by
    rw [hdb] at hrow
    rintro ⟨p, hp, hid⟩
    exact h.closed_gone row hrow hclosed ⟨p, hl.broker p hp (hid ▸ h.rows_opened row hrow), hid⟩
  exits_gone c hc := (h.exits_gone c (hexits ▸ hc)).later hl
  exits_unique := by rw [hexits]; exact h.exits_unique
  updated_exits := by rw [hupdated, hexits]; exact h.updated_exits
  updated_row := by rw [hupdated, hdb]; exact h.updated_row
  marks_gone id hid := (h.marks_gone id (hmarks ▸ hid)).later hl
  syncs_sound := hsyncs

/-! ### The broker -/

theorem later_close (s : SyncSystem) (id : PositionId) : Later s (s.close id) where
  opened _ h := h
  broker _ hb _ := (List.mem_filter.mp hb).1

theorem not_isLive_close (s : SyncSystem) (id : PositionId) : ¬ (s.close id).IsLive id := by
  rintro ⟨p, hp, hid⟩
  simpa [hid] using (List.mem_filter.mp hp).2

theorem Kept.brokerOpens (h : s.Kept pair) {p : Position} (hfresh : p.id ∉ s.opened)
    (hstatus : p.status = .opened) :
    Kept pair { s with
      broker := s.broker ++ [p]
      opened := s.opened ++ [p.id]
      registering := s.registering ++ [p] } := by
  have hl : Later s { s with
      broker := s.broker ++ [p]
      opened := s.opened ++ [p.id]
      registering := s.registering ++ [p] } := by
    refine ⟨fun id hid => List.mem_append_left _ hid, fun b hb hid => ?_⟩
    rcases List.mem_append.mp hb with hb | hb
    · exact hb
    · obtain rfl : b = p := by simpa using hb
      exact absurd hid hfresh
  refine h.later hl ?_ rfl ?_ rfl rfl rfl fun phase hphase => (h.syncs_sound phase hphase).later hl
  · intro b hb
    rcases List.mem_append.mp hb with hb | hb
    · exact List.mem_append_left _ (h.live_opened b hb)
    · obtain rfl : b = p := by simpa using hb
      simp
  · intro r hr
    rcases List.mem_append.mp hr with hr | hr
    · exact .inl hr
    · obtain rfl : r = p := by simpa using hr
      refine .inr ⟨by simp, hstatus, fun b hb hid => ?_⟩
      rcases List.mem_append.mp hb with hb | hb
      · exact absurd (hid ▸ h.live_opened b hb) hfresh
      · obtain rfl : b = r := by simpa using hb
        rfl

theorem Kept.close (h : s.Kept pair) (id : PositionId) : (s.close id).Kept pair := by
  have hl := s.later_close id
  exact h.later hl (fun p hp => h.live_opened p (hl.broker p hp (h.live_opened p
    (List.mem_filter.mp hp).1))) rfl (fun r hr => .inl hr) rfl rfl rfl
    fun phase hphase => (h.syncs_sound phase hphase).later hl

/-! ### The table -/

theorem Kept.insert (h : s.Kept pair) {r : Position} (hr : r ∈ s.registering) (i : Nat)
    (reply : DbReply) :
    Kept pair { s with
      registering := s.registering.eraseIdx i
      db := (s.db.write (s.db.insertPosition r) reply).2 } := by
  -- the table is as it was, or it has the row as well
  have hrows : ∀ row ∈ ((s.db.write (s.db.insertPosition r) reply).2).positions,
      row ∈ s.db.positions ∨ row = r := by
    intro row hrow
    cases reply with
    | failed => exact .inl hrow
    | ok =>
      by_cases hkey : s.db.hasRow r.id = true
      · exact .inl (by simpa [Database.write, Database.insertPosition, hkey] using hrow)
      · simpa [Database.write, Database.insertPosition, hkey] using hrow
    | lost =>
      by_cases hkey : s.db.hasRow r.id = true
      · exact .inl (by simpa [Database.write, Database.insertPosition, hkey] using hrow)
      · simpa [Database.write, Database.insertPosition, hkey] using hrow
  have hkeeps : ∀ row ∈ s.db.positions,
      row ∈ ((s.db.write (s.db.insertPosition r) reply).2).positions := by
    intro row hrow
    cases reply with
    | failed => exact hrow
    | ok => by_cases hkey : s.db.hasRow r.id = true <;>
        simp [Database.write, Database.insertPosition, hkey, hrow]
    | lost => by_cases hkey : s.db.hasRow r.id = true <;>
        simp [Database.write, Database.insertPosition, hkey, hrow]
  obtain ⟨hopened, hstatus⟩ := h.registering_opened r hr
  exact { h with
    rows_opened := by
      intro row hrow
      rcases hrows row hrow with hrow | rfl
      · exact h.rows_opened row hrow
      · exact hopened
    registering_opened := fun q hq => h.registering_opened q (List.mem_of_mem_eraseIdx hq)
    rows_pair := by
      intro row hrow
      rcases hrows row hrow with hrow | rfl
      · exact h.rows_pair row hrow
      · exact h.registering_pair row hr
    registering_pair := fun q hq => h.registering_pair q (List.mem_of_mem_eraseIdx hq)
    closed_gone := by
      intro row hrow hclosed
      rcases hrows row hrow with hrow | rfl
      · exact h.closed_gone row hrow hclosed
      · simp [hstatus] at hclosed
    updated_row := by
      intro c hc
      obtain ⟨row, hrow, hshows⟩ := h.updated_row c hc
      exact ⟨row, hkeeps row hrow, hshows⟩ }

/-- A statement that closes rows of positions that are gone, and changes no row that shows
its exit. -/
theorem Kept.updateRows (h : s.Kept pair) (f : Position → Position) (hid : ∀ p, (f p).id = p.id)
    (hpair : ∀ p, (f p).pair = p.pair)
    (hclosed : ∀ row ∈ s.db.positions, (f row).status = .closed →
      row.status = .closed ∨ s.Gone row.id)
    (hshows : ∀ c ∈ s.updated, ∀ row, row.id = c.position.id → Shows row c.position →
      Shows (f row) c.position) :
    Kept pair { s with db := s.db.updateRows f hid } := by
  have hrows : ∀ row ∈ (s.db.updateRows f hid).positions, ∃ old ∈ s.db.positions, f old = row :=
    fun row hrow => List.mem_map.mp hrow
  exact { h with
    rows_opened := by
      intro row hrow
      obtain ⟨old, hold, rfl⟩ := hrows row hrow
      rw [hid]
      exact h.rows_opened old hold
    rows_pair := by
      intro row hrow
      obtain ⟨old, hold, rfl⟩ := hrows row hrow
      rw [hid, hpair]
      exact h.rows_pair old hold
    closed_gone := by
      intro row hrow hstatus
      obtain ⟨old, hold, rfl⟩ := hrows row hrow
      rw [hid]
      rcases hclosed old hold hstatus with hold' | hgone
      · exact h.closed_gone old hold hold'
      · exact hgone.2
    updated_row := by
      intro c hc
      obtain ⟨row, hrow, hrowid, hrowshows⟩ := h.updated_row c hc
      exact ⟨f row, List.mem_map_of_mem hrow, (hid row).trans hrowid,
        hshows c hc row hrowid hrowshows⟩ }

theorem Kept.markClosed (h : s.Kept pair) {id : PositionId} (hgone : s.Gone id) (now : Int) :
    Kept pair { s with db := s.db.markClosed id now } := by
  refine h.updateRows _ _ ?_ ?_ ?_
  · intro p
    unfold Database.closeRow
    split <;> rfl
  · intro row hrow hstatus
    unfold Database.closeRow at hstatus
    split at hstatus
    · rename_i hrow'
      exact .inr (hrow'.1 ▸ hgone)
    · exact .inl hstatus
  · intro c hc row hrow hshows
    -- the row of an exit is no longer OPEN
    have hclosed : row.status = .closed := hshows.status.trans c.closed
    have : Database.closeRow id now row = row := by simp [Database.closeRow, hclosed]
    rwa [this]

theorem shows_updateRow {row exit : Position} (hid : row.id = exit.id) :
    Shows (Database.updateRow exit row) exit := by
  unfold Database.updateRow
  rw [if_pos hid]
  exact ⟨rfl, rfl, rfl, rfl, rfl, rfl, rfl, rfl⟩

theorem Kept.updateRow (h : s.Kept pair) {closed : ClosedPosition} (hexit : closed ∈ s.exits) :
    (s.updateRow closed).Kept pair := by
  have hupdate : Kept pair { s with db := s.db.update closed.position } := by
    refine h.updateRows _ _ ?_ ?_ ?_
    · intro p
      unfold Database.updateRow
      split <;> rfl
    · intro row hrow hstatus
      unfold Database.updateRow at hstatus
      split at hstatus
      · rename_i hid
        exact .inr (hid ▸ h.exits_gone closed hexit)
      · exact .inl hstatus
    · intro c hc row hrow hshows
      by_cases hid : row.id = closed.position.id
      · -- a position is closed at the broker once, so this is its exit
        obtain rfl := h.exits_unique c (h.updated_exits c hc) closed hexit (hrow ▸ hid)
        exact shows_updateRow hid
      · have : Database.updateRow closed.position row = row := by simp [Database.updateRow, hid]
        rwa [this]
  unfold SyncSystem.updateRow
  split
  · rename_i hrow
    obtain ⟨row, hmem, hid⟩ := List.mem_map.mp ((s.db.hasRow_iff _).mp hrow)
    exact { hupdate with
      updated_exits := by
        intro c hc
        rcases List.mem_append.mp hc with hc | hc
        · exact h.updated_exits c hc
        · obtain rfl : c = closed := by simpa using hc
          exact hexit
      updated_row := by
        intro c hc
        rcases List.mem_append.mp hc with hc | hc
        · exact hupdate.updated_row c hc
        · obtain rfl : c = closed := by simpa using hc
          exact ⟨_, List.mem_map_of_mem hmem, (Database.updateRow_id ..).trans hid,
            shows_updateRow hid⟩ }
  · exact hupdate

theorem Kept.exitResolves (h : s.Kept pair) {p : Position} {closed : ClosedPosition}
    (hlive : s.IsLive p.id) (hid : closed.position.id = p.id) :
    (s.exitResolves p closed).Kept pair := by
  have hclose := h.close p.id
  have hl := s.later_close p.id
  have hgone : (s.close p.id).Gone closed.position.id := by
    obtain ⟨b, hb, hbid⟩ := hlive
    rw [hid]
    exact ⟨hbid ▸ h.live_opened b hb, s.not_isLive_close p.id⟩
  have hnew : ∀ c ∈ s.exits, c.position.id ≠ closed.position.id := by
    intro c hc heq
    exact (h.exits_gone c hc).2 (heq ▸ hid ▸ hlive)
  exact { hclose with
    exits_gone := by
      intro c hc
      rcases List.mem_append.mp hc with hc | hc
      · have hstill : (s.close p.id).Gone c.position.id := (h.exits_gone c hc).later hl
        exact hstill
      · obtain rfl : c = closed := by simpa using hc
        exact hgone
    exits_unique := by
      intro c hc c' hc' heq
      rcases List.mem_append.mp hc with hc | hc
      · rcases List.mem_append.mp hc' with hc' | hc'
        · exact h.exits_unique c hc c' hc' heq
        · rw [List.mem_singleton.mp hc'] at heq
          exact absurd heq (hnew c hc)
      · rw [List.mem_singleton.mp hc] at heq ⊢
        rcases List.mem_append.mp hc' with hc' | hc'
        · exact absurd heq.symm (hnew c' hc')
        · exact (List.mem_singleton.mp hc').symm
    updated_exits := fun c hc => List.mem_append_left _ (h.updated_exits c hc) }

/-! ### The sync -/

/-- A sync goes to another phase. -/
theorem Kept.goto (h : s.Kept pair) (k : Nat) {phase : SyncPhase}
    (hphase : PhaseSound pair s phase) : Kept pair { s with syncs := s.syncs.set k phase } :=
  { h with
    syncs_sound := by
      intro q hq
      rcases List.mem_or_eq_of_mem_set hq with hq | rfl
      · exact h.syncs_sound q hq
      · exact hphase }

theorem Kept.markNext (h : s.Kept pair) (k : Nat) {positions : List Position}
    (hgone : ∀ p ∈ positions, s.Gone p.id) : (s.markNext k positions).Kept pair := by
  unfold SyncSystem.markNext
  split
  · exact h.goto k trivial
  · rename_i p rest
    have hp := hgone p (by simp)
    have hphase : PhaseSound pair s (.marking p.id rest) :=
      ⟨hp, fun q hq => hgone q (List.mem_cons_of_mem _ hq)⟩
    have hgoto := h.goto k hphase
    exact { hgoto with
      marks_gone := by
        intro id hid
        rcases List.mem_append.mp hid with hid | hid
        · exact h.marks_gone id hid
        · obtain rfl : id = p.id := by simpa using hid
          exact hp }

theorem Kept.markSettles (h : s.Kept pair) {k : Nat} {id : PositionId} {rest : List Position}
    (hphase : PhaseSound pair s (.marking id rest)) (now : Int) (reply : DbReply) :
    (s.markSettles k id rest now reply).Kept pair := by
  obtain ⟨hgone, hrest⟩ := hphase
  cases reply with
  | failed => exact h.goto k trivial
  | ok => exact (h.markClosed hgone now).markNext k hrest
  | lost => exact (h.markClosed hgone now).goto k trivial

theorem Kept.syncReads (h : s.Kept pair) :
    Kept pair { s with
      syncs := s.syncs ++ [.read (s.db.openPositions.filter (fun p => p.pair = pair))] } :=
  { h with
    syncs_sound := by
      intro phase hphase
      rcases List.mem_append.mp hphase with hphase | hphase
      · exact h.syncs_sound phase hphase
      · obtain rfl := List.mem_singleton.mp hphase
        intro p hp
        obtain ⟨hmem, hpair⟩ := List.mem_filter.mp hp
        have hrow := (List.mem_filter.mp hmem).1
        exact ⟨h.rows_opened p hrow, by simpa using hpair, h.rows_pair p hrow⟩ }

/-- What was a row before the fetch and is open at the broker was open when the fetch
began. -/
theorem Kept.syncFetchBegins (h : s.Kept pair) {k : Nat} {dbPositions : List Position}
    (hphase : PhaseSound pair s (.read dbPositions)) :
    Kept pair { s with
      syncs := s.syncs.set k (.fetching dbPositions
        ((s.broker.filter (fun p => p.pair = pair)).map (·.id))) } := by
  refine h.goto k fun p hp => ?_
  obtain ⟨hopened, hpair, hsame⟩ := hphase p hp
  refine ⟨hopened, ?_⟩
  rintro ⟨b, hb, hid⟩
  refine List.mem_map.mpr ⟨b, List.mem_filter.mpr ⟨hb, ?_⟩, hid⟩
  simpa using (hsame b hb hid).trans hpair

/-- A row that the answer does not name belongs to a position that is gone. -/
theorem Kept.syncFetchEnds (h : s.Kept pair) {k : Nat} {dbPositions : List Position}
    {openAtStart ids : List PositionId}
    (hphase : PhaseSound pair s (.fetching dbPositions openAtStart))
    (hids : ∀ id ∈ openAtStart, s.IsLive id → id ∈ ids) :
    (s.markNext k (missingFrom dbPositions ids)).Kept pair := by
  refine h.markNext k fun p hp => ?_
  obtain ⟨hmem, hmissing⟩ := List.mem_filter.mp hp
  obtain ⟨hopened, hstart⟩ := hphase p hmem
  refine ⟨hopened, fun hlive => ?_⟩
  have := hids p.id (hstart hlive) hlive
  simp only [Bool.not_eq_true', List.any_eq_false, beq_iff_eq] at hmissing
  exact hmissing p.id this rfl

theorem Kept.step {a : SyncLabel} (h : s.Kept pair) (hanswer : s.AnswersOpen a)
    (hstep : s.step pair a = some s') : s'.Kept pair := by
  cases a with
  | brokerOpens command result =>
    simp only [SyncSystem.step] at hstep
    split at hstep
    · cases hstep
    · rename_i hfresh
      cases hstep
      exact h.brokerOpens hfresh rfl
  | register i reply =>
    simp only [SyncSystem.step] at hstep
    split at hstep
    · rename_i r hr
      cases hstep
      exact h.insert (List.mem_of_getElem? hr) i reply
    · cases hstep
  | exitResolves p command result =>
    simp only [SyncSystem.step] at hstep
    split at hstep
    · rename_i hlive
      obtain ⟨closed, hclosed, rfl⟩ := Option.map_eq_some_iff.mp hstep
      exact h.exitResolves hlive.1 (ClosedPosition.of?_id hclosed)
    · cases hstep
  | update i reply =>
    simp only [SyncSystem.step] at hstep
    split at hstep
    · rename_i closed hclosed
      cases hstep
      have hmem := List.mem_of_getElem? hclosed
      cases reply with
      | failed => exact h
      | ok => exact h.updateRow hmem
      | lost => exact h.updateRow hmem
    · cases hstep
  | brokerCloses id =>
    simp only [SyncSystem.step] at hstep
    split at hstep
    · cases hstep
      exact h.close id
    · cases hstep
  | syncReads =>
    cases hstep
    exact h.syncReads
  | syncFetchBegins k =>
    simp only [SyncSystem.step] at hstep
    split at hstep
    · rename_i dbPositions hk
      cases hstep
      exact h.syncFetchBegins (h.syncs_sound _ (List.mem_of_getElem? hk))
    · cases hstep
  | syncFetchEnds k brokerIds =>
    simp only [SyncSystem.step] at hstep
    split at hstep
    · cases hstep
      exact h.goto k trivial
    · rename_i dbPositions openAtStart ids hk
      cases hstep
      have hids : ∀ id ∈ openAtStart, s.IsLive id → id ∈ ids := by
        simpa only [AnswersOpen, hk] using hanswer
      exact h.syncFetchEnds (h.syncs_sound _ (List.mem_of_getElem? hk)) hids
    · cases hstep
  | syncMarkSettles k now reply =>
    simp only [SyncSystem.step] at hstep
    split at hstep
    · rename_i id rest hk
      cases hstep
      exact h.markSettles (h.syncs_sound _ (List.mem_of_getElem? hk)) now reply
    · cases hstep

theorem fresh_kept (pair : CurrencyPair) : fresh.Kept pair where
  live_opened := by simp [fresh]
  rows_opened := by simp [fresh, Database.empty]
  registering_opened := by simp [fresh]
  rows_pair := by simp [fresh]
  registering_pair := by simp [fresh]
  closed_gone := by simp [fresh, Database.empty]
  exits_gone := by simp [fresh]
  exits_unique := by simp [fresh]
  updated_exits := by simp [fresh]
  updated_row := by simp [fresh]
  marks_gone := by simp [fresh]
  syncs_sound := by simp [fresh]

/-- In every state that any interleaving reaches whose fetches answer all that is open,
`markClosed` was issued only for positions that the broker has closed, no position that is open
at the broker has a CLOSED row, and the row of every update that took effect is CLOSED and shows
the exit, whatever `markClosed` did to it before or since. -/
theorem sync_safe (h : Runs.Reaches (step pair) AnswersOpen fresh s) :
    (∀ id ∈ s.marks, id ∈ s.opened ∧ ¬ s.IsLive id) ∧
      (∀ row ∈ s.db.positions, row.status = .closed → ¬ s.IsLive row.id) ∧
      (∀ closed ∈ s.updated, ∃ row, s.db.findById closed.position.id = some row ∧
        row.status = .closed ∧ Shows row closed.position) := by
  have hkept : s.Kept pair :=
    h.invariant (fresh_kept pair) fun _ _ _ hs hanswer hstep => hs.step hanswer hstep
  refine ⟨hkept.marks_gone, hkept.closed_gone, fun closed hclosed => ?_⟩
  obtain ⟨row, hrow, hid, hshows⟩ := hkept.updated_row closed hclosed
  refine ⟨row, ?_, hshows.status.trans closed.closed, hshows⟩
  -- ids are the key of the table
  obtain ⟨found, hfound⟩ : ∃ found, s.db.findById closed.position.id = some found := by
    refine Option.isSome_iff_exists.mp ?_
    rw [Database.findById, List.find?_isSome]
    exact ⟨row, hrow, by simpa using hid⟩
  have hfid : found.id = closed.position.id := by simpa using List.find?_some hfound
  have : found = row := List.inj_on_of_nodup_map s.db.positions_key
    (List.mem_of_find?_eq_some hfound) hrow (hfid.trans hid.symm)
  rw [hfound, this]

end SyncSystem

/-- The position is read by a sync, its exit resolves, the sync marks the row, and only then
comes the update. -/
def markedThenUpdated : List SyncLabel :=
  [.brokerOpens filledEntry ⟨.ofNat 1, quietPrice, 0⟩, .register 0 .ok, .syncReads,
    .exitResolves (.openWith filledEntry ⟨.ofNat 1, quietPrice, 0⟩)
      ⟨.ofNat 1, .takeProfit, ⟨"TP", by decide⟩⟩ ⟨crossPrice, 5000, ⟨100⟩⟩,
    .syncFetchBegins 0, .syncFetchEnds 0 (some []), .syncMarkSettles 0 6000 .ok, .update 0 .ok]

theorem sync_safe_marked :
    ∃ s, Runs.Reaches (SyncSystem.step .usdJpy) SyncSystem.AnswersOpen .fresh s ∧
      s.marks = [.ofNat 1] ∧ s.updated.length = 1 ∧
      ∀ closed ∈ s.updated, ∃ row, s.db.findById closed.position.id = some row ∧
        row.status = .closed ∧ SyncSystem.Shows row closed.position := by
  have hrun : ∃ s, Runs.Reaches (SyncSystem.step .usdJpy) SyncSystem.AnswersOpen .fresh s ∧
      s.marks = [.ofNat 1] ∧ s.updated.length = 1 :=
    Runs.exists_reaches markedThenUpdated (by decide +kernel)
  obtain ⟨s, hreach, hmarks, hupdated⟩ := hrun
  exact ⟨s, hreach, hmarks, hupdated, (SyncSystem.sync_safe hreach).2.2⟩

end Luchida
