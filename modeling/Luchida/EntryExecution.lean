import Luchida.GmoRest
import Luchida.PositionRepository

/- EntryExecution.ts and the drain of EntryQueue.ts for one queued signal: the order, the
   two inserts of `register`, and the notice that the signal has expired.

   The four effects are on two systems and nothing undoes the first when a later one
   fails, so an entry is all or nothing only when nothing fails after the broker has
   opened the position (`entry_atomic_iff`). -/
namespace Luchida

/-- An entry of the queue. -/
structure QueuedEntry where
  command : EntryCommand
  submittedAt : Int

/-- How `placeEntry` ends. An order can be filled and rejected all the same. -/
inductive PlaceEntryOutcome where
  | filled (result : EntryResult)
  | misreported (positionId : PositionId) (error : BrokerError)
  | rejected (error : BrokerError)

/-- The position the broker has opened. -/
def PlaceEntryOutcome.openedId : PlaceEntryOutcome → Option PositionId
  | .filled result => some result.positionId
  | .misreported positionId _ => some positionId
  | .rejected _ => none

/-- What the steps of one entry meet. -/
structure EntryReplies where
  placeEntry : PlaceEntryOutcome
  insertPosition : DbReply
  insertSnapshot : DbReply

/-- `register`: the position row, then its snapshot row. -/
def Database.register (db : Database) (position : Position) (entrySnapshot : EntrySnapshot)
    (insertPosition insertSnapshot : DbReply) : Bool × Database :=
  match db.write (db.insertPosition { position with status := .opened }) insertPosition with
  | (false, db') => (false, db')
  | (true, db') => db'.write (db'.insertSnapshot position.id entrySnapshot) insertSnapshot

/-- `openPosition`: whether it resolves, and the tables afterwards. -/
def openPosition (db : Database) (command : EntryCommand) (replies : EntryReplies) :
    Bool × Database :=
  match replies.placeEntry with
  | .filled result => db.register (.openWith command result) command.entrySnapshot
      replies.insertPosition replies.insertSnapshot
  | .misreported .. | .rejected _ => (false, db)

/-- Where the drain of one entry leaves the two systems, and whether it called
`notifyEntryExpired`. -/
structure SettledEntry where
  db : Database
  openedId : Option PositionId
  notifiedExpired : Bool

/-- `drainOne` at time `now`. A notice that fails is logged and changes nothing. -/
def drainOne (db : Database) (ttlMs now : Int) (head : QueuedEntry) (replies : EntryReplies) :
    SettledEntry :=
  if now - head.submittedAt > ttlMs then ⟨db, none, true⟩
  else
    let result := openPosition db head.command replies
    ⟨result.2, replies.placeEntry.openedId, !result.1⟩

/-- Nothing happened, or the broker's position is in both tables and was not given
out as expired. -/
def SettledEntry.Atomic (settled : SettledEntry) (before : Database) : Prop :=
  (settled.openedId = none ∧ settled.db = before) ∨
    ∃ id, settled.openedId = some id ∧ settled.db.IsOpen id ∧
      settled.db.hasSnapshot id = true ∧ settled.notifiedExpired = false

/-- No step after the fill goes wrong. -/
def EntryReplies.Smooth (replies : EntryReplies) (db : Database) : Prop :=
  ∃ result, replies.placeEntry = .filled result ∧ db.hasRow result.positionId = false ∧
    replies.insertPosition = .ok ∧ replies.insertSnapshot = .ok

theorem Database.insertPosition_isOpen {db db' : Database} {p : Position}
    (h : db.insertPosition p = some db') (hp : p.status = .opened) :
    db'.IsOpen p.id ∧ db'.hasRow p.id = true ∧ db'.entrySnapshots = db.entrySnapshots := by
  unfold insertPosition at h
  split at h
  · cases h
  · cases h
    exact ⟨⟨p, by simp, rfl, hp⟩, by simp [hasRow], rfl⟩

theorem Database.insertPosition_isSome {db : Database} {p : Position}
    (h : db.hasRow p.id = false) : ∃ db', db.insertPosition p = some db' := by
  unfold insertPosition
  split
  · rename_i hrow
    simp [h] at hrow
  · exact ⟨_, rfl⟩

theorem Database.insertSnapshot_isSome {db : Database} {id : PositionId} (snapshot : EntrySnapshot)
    (hrow : db.hasRow id = true) (hsnap : db.hasSnapshot id = false) :
    ∃ db', db.insertSnapshot id snapshot = some db' := by
  unfold insertSnapshot
  split
  · exact ⟨_, rfl⟩
  · rename_i h
    exact absurd ⟨hrow, by simp [hsnap]⟩ h

theorem Database.insertSnapshot_hasSnapshot {db db' : Database} {id : PositionId}
    {snapshot : EntrySnapshot} (h : db.insertSnapshot id snapshot = some db') :
    db'.hasSnapshot id = true ∧ db'.positions = db.positions := by
  unfold insertSnapshot at h
  split at h
  · cases h
    exact ⟨by simp [hasSnapshot], rfl⟩
  · cases h

/-- A table with no position of that id has no snapshot of it either. -/
theorem Database.hasSnapshot_eq_false {db : Database} {id : PositionId}
    (h : db.hasRow id = false) : db.hasSnapshot id = false := by
  by_contra hs
  rw [Bool.not_eq_false, hasSnapshot_iff] at hs
  obtain ⟨s, hmem, rfl⟩ := List.mem_map.mp hs
  rw [← Bool.not_eq_true, hasRow_iff] at h
  exact h (db.snapshots_refer s hmem)

theorem Database.write_true {db db' : Database} {attempt : Option Database} {reply : DbReply}
    (h : db.write attempt reply = (true, db')) : reply = .ok ∧ attempt = some db' := by
  unfold write at h
  cases reply <;> cases attempt <;> simp_all

/-- `register` resolves exactly when both inserts take effect and say so. -/
theorem Database.register_true_iff (db : Database) (position : Position)
    (entrySnapshot : EntrySnapshot) (r1 r2 : DbReply) :
    (db.register position entrySnapshot r1 r2).1 = true ↔
      db.hasRow position.id = false ∧ r1 = .ok ∧ r2 = .ok := by
  unfold register
  constructor
  · intro h
    split at h
    · cases h
    · rename_i db' hdb'
      obtain ⟨rfl, hinsert⟩ := write_true hdb'
      obtain ⟨rfl, -⟩ := write_true (Prod.ext h rfl)
      refine ⟨?_, rfl, rfl⟩
      unfold insertPosition at hinsert
      split at hinsert
      · cases hinsert
      · rename_i hrow
        simpa using hrow
  · rintro ⟨hrow, rfl, rfl⟩
    obtain ⟨mid, hmid⟩ := insertPosition_isSome
      (show db.hasRow { position with status := .opened : Position }.id = false from hrow)
    obtain ⟨-, hhas, hsame⟩ := insertPosition_isOpen hmid rfl
    have hsnap : mid.hasSnapshot position.id = false := by
      rw [hasSnapshot, hsame]
      exact hasSnapshot_eq_false hrow
    obtain ⟨db', hdb'⟩ := insertSnapshot_isSome entrySnapshot hhas hsnap
    simp only [write, hmid, hdb']

/-- When `register` resolves, the position is in both tables. -/
theorem Database.register_ok {db db' : Database} {position : Position}
    {entrySnapshot : EntrySnapshot} {r1 r2 : DbReply}
    (h : db.register position entrySnapshot r1 r2 = (true, db')) :
    db'.IsOpen position.id ∧ db'.hasSnapshot position.id = true := by
  unfold register at h
  split at h
  · cases h
  · rename_i mid hmid
    obtain ⟨-, hinsert⟩ := write_true hmid
    obtain ⟨-, hsnapshot⟩ := write_true h
    obtain ⟨⟨p, hp, hid, hopen⟩, -, -⟩ := insertPosition_isOpen hinsert rfl
    obtain ⟨hhas, hpositions⟩ := insertSnapshot_hasSnapshot hsnapshot
    exact ⟨⟨p, hpositions ▸ hp, hid, hopen⟩, hhas⟩

theorem openPosition_true_iff (db : Database) (command : EntryCommand) (replies : EntryReplies) :
    (openPosition db command replies).1 = true ↔ replies.Smooth db := by
  unfold openPosition EntryReplies.Smooth
  cases replies.placeEntry with
  | filled result =>
    simp only [Database.register_true_iff, PlaceEntryOutcome.filled.injEq, exists_eq_left']
    exact Iff.rfl
  | misreported positionId error => simp
  | rejected error => simp

/-- The drain of a signal is all or nothing if and only if the signal had expired, or
the broker opened no position, or no step after the fill goes wrong. -/
theorem entry_atomic_iff (db : Database) (ttlMs now : Int) (head : QueuedEntry)
    (replies : EntryReplies) :
    (drainOne db ttlMs now head replies).Atomic db ↔
      now - head.submittedAt > ttlMs ∨ replies.placeEntry.openedId = none ∨ replies.Smooth db := by
  unfold drainOne SettledEntry.Atomic
  by_cases hexpired : now - head.submittedAt > ttlMs
  · simp [hexpired]
  · simp only [hexpired, if_false, false_or]
    constructor
    · rintro (⟨hnone, -⟩ | ⟨id, -, -, -, hnotified⟩)
      · exact .inl hnone
      · exact .inr ((openPosition_true_iff ..).mp (by simpa using hnotified))
    -- a misreported fill has an id, so `hnone` leaves only the rejected order
    · rintro (hnone | hsmooth)
      · refine .inl ⟨hnone, ?_⟩
        unfold openPosition
        cases hplace : replies.placeEntry with
        | filled result => simp [hplace, PlaceEntryOutcome.openedId] at hnone
        | misreported positionId error => rfl
        | rejected error => rfl
      · have htrue := (openPosition_true_iff db head.command replies).mpr hsmooth
        obtain ⟨result, hplace, -⟩ := hsmooth
        refine .inr ⟨result.positionId, by rw [hplace]; rfl, ?_⟩
        unfold openPosition at htrue ⊢
        rw [hplace] at htrue ⊢
        obtain ⟨hopen, hhas⟩ := Database.register_ok (Prod.ext htrue rfl)
        exact ⟨hopen, hhas, by simpa using htrue⟩

/-! ## A database that is away -/

/-- A filled order whose first insert fails. -/
def unrecordedReplies : EntryReplies where
  placeEntry := .filled ⟨.ofNat 7, quietPrice, 0⟩
  insertPosition := .failed
  insertSnapshot := .ok

def queuedEntry : QueuedEntry where
  command := filledEntry
  submittedAt := 0

/-- The broker holds a position that no row describes, and the signal is given out as
expired. -/
theorem unrecorded_entry_not_atomic :
    ¬ (drainOne .empty 3000 100 queuedEntry unrecordedReplies).Atomic .empty ∧
      (drainOne .empty 3000 100 queuedEntry unrecordedReplies).openedId = some (.ofNat 7) ∧
      (drainOne .empty 3000 100 queuedEntry unrecordedReplies).db.openPositions = [] ∧
      (drainOne .empty 3000 100 queuedEntry unrecordedReplies).notifiedExpired = true := by
  refine ⟨?_, rfl, rfl, rfl⟩
  rintro (⟨h, -⟩ | ⟨id, -, ⟨p, hp, -⟩, -⟩)
  · cases h
  · cases hp

end Luchida
