import Luchida.Domain

/- PostgresPositionRepository.ts over its two tables: `positions`, keyed by id, and
   `position_entry_snapshots`, keyed by a position id that refers to the first. A row of
   `positions` is a `Position`. A statement can fail before it takes effect, and its
   answer can be lost after it did (`DbReply`).

   Beside each operation stand the lemmas that say what it does to the OPEN rows. -/
namespace Luchida

/-- How a statement ends: it took effect and says so, it did not, or it did and its
answer was lost. The last two reject. -/
inductive DbReply where
  | ok
  | failed
  | lost
  deriving DecidableEq, Repr

/-- The two tables with their keys. -/
structure Database where
  positions : List Position
  entrySnapshots : List (PositionId × EntrySnapshot)
  positions_key : (positions.map (·.id)).Nodup
  snapshots_key : (entrySnapshots.map (·.1)).Nodup
  snapshots_refer : ∀ s ∈ entrySnapshots, s.1 ∈ positions.map (·.id)

/-- `findOpenByPairAndStrategy` found more than one row. -/
structure DuplicateOpen where
  pair : CurrencyPair
  strategy : StrategyName
  deriving DecidableEq, Repr

namespace Database

/-- Tables without rows. -/
def empty : Database where
  positions := []
  entrySnapshots := []
  positions_key := by simp
  snapshots_key := by simp
  snapshots_refer := by simp

def hasRow (db : Database) (id : PositionId) : Bool := db.positions.any (fun p => p.id == id)

def hasSnapshot (db : Database) (id : PositionId) : Bool :=
  db.entrySnapshots.any (fun s => s.1 == id)

theorem hasRow_iff (db : Database) (id : PositionId) :
    db.hasRow id = true ↔ id ∈ db.positions.map (·.id) := by
  simp [hasRow]

theorem hasSnapshot_iff (db : Database) (id : PositionId) :
    db.hasSnapshot id = true ↔ id ∈ db.entrySnapshots.map (·.1) := by
  simp [hasSnapshot]

/-! ## Statements -/

/-- `INSERT` into `positions`, refused where the id is taken. -/
def insertPosition (db : Database) (p : Position) : Option Database :=
  if h : db.hasRow p.id = true then none
  else some { db with
    positions := db.positions ++ [p]
    positions_key := by
      rw [hasRow_iff] at h
      rw [List.map_append, List.nodup_append]
      refine ⟨db.positions_key, by simp, ?_⟩
      rintro a ha b hb rfl
      obtain rfl : a = p.id := by simpa using hb
      exact h ha
    snapshots_refer := by
      intro s hs
      rw [List.map_append]
      exact List.mem_append_left _ (db.snapshots_refer s hs) }

/-- `INSERT` into `position_entry_snapshots`, refused where the id is taken or names no
position. -/
def insertSnapshot (db : Database) (id : PositionId) (snapshot : EntrySnapshot) :
    Option Database :=
  if h : db.hasRow id = true ∧ ¬ db.hasSnapshot id = true then
    some { db with
      entrySnapshots := db.entrySnapshots ++ [(id, snapshot)]
      snapshots_key := by
        have hs := h.2
        rw [hasSnapshot_iff] at hs
        rw [List.map_append, List.nodup_append]
        refine ⟨db.snapshots_key, by simp, ?_⟩
        rintro a ha b hb rfl
        obtain rfl : a = id := by simpa using hb
        exact hs ha
      snapshots_refer := by
        intro s hs
        rcases List.mem_append.mp hs with hs | hs
        · exact db.snapshots_refer s hs
        · obtain rfl : s = (id, snapshot) := by simpa using hs
          exact (db.hasRow_iff id).mp h.1 }
  else none

/-- `UPDATE` of every row by a function that keeps the key. -/
def updateRows (db : Database) (f : Position → Position) (hf : ∀ p, (f p).id = p.id) :
    Database :=
  have hmap : (db.positions.map f).map (·.id) = db.positions.map (·.id) := by simp [hf]
  { db with
    positions := db.positions.map f
    positions_key := hmap ▸ db.positions_key
    snapshots_refer := fun s hs => hmap ▸ db.snapshots_refer s hs }

/-- The columns that `update` sets. -/
def updateRow (position row : Position) : Position :=
  if row.id = position.id then
    { row with
      status := position.status
      exitPrice := position.exitPrice
      profitLoss := position.profitLoss
      closedAt := position.closedAt
      exitType := position.exitType
      exitReason := position.exitReason
      mfePips := position.mfePips
      maePips := position.maePips }
  else row

@[simp] theorem updateRow_id (position row : Position) : (updateRow position row).id = row.id := by
  unfold updateRow
  split <;> rfl

/-- `update`. -/
def update (db : Database) (position : Position) : Database :=
  db.updateRows (updateRow position) (updateRow_id position)

/-- The columns that `markClosed` sets, on an OPEN row of that id. -/
def closeRow (id : PositionId) (now : Int) (row : Position) : Position :=
  if row.id = id ∧ row.status = .opened then
    { row with status := .closed, closedAt := some now }
  else row

@[simp] theorem closeRow_id (id : PositionId) (now : Int) (row : Position) :
    (closeRow id now row).id = row.id := by
  unfold closeRow
  split <;> rfl

/-- `markClosed`. -/
def markClosed (db : Database) (id : PositionId) (now : Int) : Database :=
  db.updateRows (closeRow id now) (closeRow_id id now)

/-- A statement meets its reply: whether the caller sees success, and the tables
afterwards. A statement that the tables refuse is not carried out whatever the reply. -/
def write (db : Database) (attempt : Option Database) : DbReply → Bool × Database
  | .failed => (false, db)
  | .ok => match attempt with
    | none => (false, db)
    | some db' => (true, db')
  -- the tables have changed, the caller sees an error
  | .lost => match attempt with
    | none => (false, db)
    | some db' => (false, db')

/-! ## Queries -/

/-- `openPositions`. -/
def openPositions (db : Database) : List Position :=
  db.positions.filter (fun p => p.status = .opened)

/-- `findById`. -/
def findById (db : Database) (id : PositionId) : Option Position :=
  db.positions.find? (fun p => p.id == id)

/-- The rows `findOpenByPairAndStrategy` selects, before its limit of two. -/
def openFor (db : Database) (pair : CurrencyPair) (strategy : StrategyName) : List Position :=
  db.positions.filter (fun p =>
    p.pair = pair ∧ p.strategyName = strategy ∧ p.status = .opened)

/-- `findOpenByPairAndStrategy`. -/
def findOpenByPairAndStrategy (db : Database) (pair : CurrencyPair) (strategy : StrategyName) :
    Except DuplicateOpen (Option Position) :=
  match (db.openFor pair strategy).take 2 with
  | [] => .ok none
  | [row] => .ok (some row)
  | _ => .error ⟨pair, strategy⟩

/-- The id has an OPEN row. -/
def IsOpen (db : Database) (id : PositionId) : Prop :=
  ∃ p ∈ db.positions, p.id = id ∧ p.status = .opened

instance (db : Database) (id : PositionId) : Decidable (db.IsOpen id) :=
  inferInstanceAs (Decidable (∃ p ∈ db.positions, _))

/-- The query reaches its branch for a broken invariant exactly when more than one
OPEN row matches. -/
theorem findOpenByPairAndStrategy_error_iff (db : Database) (pair : CurrencyPair)
    (strategy : StrategyName) :
    (∃ e, db.findOpenByPairAndStrategy pair strategy = .error e) ↔
      1 < (db.openFor pair strategy).length := by
  unfold findOpenByPairAndStrategy
  rcases db.openFor pair strategy with - | ⟨a, - | ⟨b, rest⟩⟩ <;> simp

theorem findOpenByPairAndStrategy_none_iff (db : Database) (pair : CurrencyPair)
    (strategy : StrategyName) :
    db.findOpenByPairAndStrategy pair strategy = .ok none ↔ db.openFor pair strategy = [] := by
  unfold findOpenByPairAndStrategy
  rcases db.openFor pair strategy with - | ⟨a, - | ⟨b, rest⟩⟩ <;> simp

end Database

/-! ## Rows as they were opened -/

/-- The position as it was registered. -/
def Position.asOpened (p : Position) : Position :=
  { p with
    status := .opened
    exitPrice := none
    closedAt := none
    exitType := none
    exitReason := none
    profitLoss := none
    mfePips := none
    maePips := none }

namespace Database

@[simp] theorem asOpened_updateRow (position row : Position) :
    (updateRow position row).asOpened = row.asOpened := by
  unfold updateRow
  split <;> rfl

@[simp] theorem asOpened_closeRow (id : PositionId) (now : Int) (row : Position) :
    (closeRow id now row).asOpened = row.asOpened := by
  unfold closeRow
  split <;> rfl

end Database

end Luchida
