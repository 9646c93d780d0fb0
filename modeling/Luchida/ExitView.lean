import Luchida.ExitSystem

/- The exits, abstractly: which exit orders were sent and resolved, which rows are OPEN,
   which positions the compensation queue shields, and which one the dispatch and the
   emergency path have in hand. `ExitView.Moves` is what one step can do to these, and
   `moves_of_step` says that a step of the system does no more. -/
namespace Luchida

/-! ## Views and their moves -/

/-- The position that the dispatch is closing. -/
inductive Hand where
  | empty
  /-- Its row is being read again. -/
  | finding (id : PositionId)
  /-- Its row was read, and its exit has not resolved. -/
  | holding (id : PositionId)
  /-- Its exit has resolved; `done` once its row is written. -/
  | updating (id : PositionId) (done : Bool)
  deriving DecidableEq

/-- The dispatch may turn to another position. -/
def Hand.isFree : Hand → Bool
  | .updating .. => false
  | _ => true

structure ExitView where
  log : List BrokerEvent
  isOpen : PositionId → Prop
  shielded : PositionId → Prop
  hand : Hand
  /-- The entries of the compensation queue that a drain is on. -/
  retrying : List PositionId
  /-- The one whose statement has resolved. -/
  retried : Option PositionId
  /-- The positions whose emergency exit is sent, and those where it has resolved. -/
  placing : List PositionId
  writing : List PositionId

inductive ExitEvent where
  | quiet
  | recheck (id : PositionId)
  | send (id : PositionId)
  | emergencySend (ids : List PositionId)
  | emergencyLost (id : PositionId)

namespace ExitView

/-- One move of a view. The rows that are OPEN only become fewer, but for new ones. -/
inductive Moves : ExitEvent → ExitView → ExitView → Prop
  | quiet (v : ExitView) : Moves .quiet v v
  | close {v : ExitView} {P : PositionId → Prop} : (∀ id, P id → v.isOpen id) →
      Moves .quiet v { v with isOpen := P }
  | register {v : ExitView} {P : PositionId → Prop} {id : PositionId} :
      .resolved id ∉ v.log → (∀ id', P id' → v.isOpen id' ∨ id' = id) →
      Moves .quiet v { v with isOpen := P }
  | turn {v : ExitView} {hand : Hand} : v.hand.isFree = true →
      (hand = .empty ∨ ∃ id, hand = .finding id ∧ ¬ v.shielded id) →
      Moves .quiet v { v with hand := hand }
  | recheck {v : ExitView} {id : PositionId} : v.hand = .finding id →
      Moves (.recheck id) v { v with hand := .holding id }
  | send {v : ExitView} {id : PositionId} : v.hand = .holding id →
      Moves (.send id) v { v with log := .sent id :: v.log }
  | resolve {v : ExitView} {id : PositionId} : v.hand = .holding id →
      Moves .quiet v { v with log := .resolved id :: v.log, hand := .updating id false }
  | resolveShield {v : ExitView} {id : PositionId} {S : PositionId → Prop} :
      v.hand = .holding id → (∀ id', S id' ↔ v.shielded id' ∨ id' = id) →
      Moves .quiet v { v with log := .resolved id :: v.log, hand := .empty, shielded := S }
  | write {v : ExitView} {id : PositionId} {P : PositionId → Prop} {done : Bool} :
      v.hand = .updating id false → (∀ id', P id' → v.isOpen id') → (done = true → ¬ P id) →
      Moves .quiet v { v with hand := .updating id done, isOpen := P }
  | shield {v : ExitView} {id : PositionId} {S : PositionId → Prop} :
      v.hand = .updating id false → (∀ id', S id' ↔ v.shielded id' ∨ id' = id) →
      Moves .quiet v { v with hand := .empty, shielded := S }
  | finish {v : ExitView} {id : PositionId} : v.hand = .updating id true →
      Moves .quiet v { v with hand := .empty }
  | retry {v : ExitView} {retrying : List PositionId} {retried : Option PositionId}
      {P : PositionId → Prop} :
      (∀ id ∈ retrying, v.shielded id ∨ id ∈ v.retrying) →
      (∀ id ∈ retried, id ∈ retrying ∧ ¬ P id) → (∀ id, P id → v.isOpen id) →
      Moves .quiet v { v with retrying := retrying, retried := retried, isOpen := P }
  | unshield {v : ExitView} {id : PositionId} {retrying : List PositionId}
      {S : PositionId → Prop} :
      v.retried = some id → (∀ id' ∈ retrying, id' ∈ v.retrying) →
      (∀ id', S id' ↔ id' ≠ id ∧ v.shielded id') →
      Moves .quiet v { v with retrying := retrying, retried := none, shielded := S }
  | emergencySend {v : ExitView} (ids : List PositionId) : v.placing = [] → v.writing = [] →
      Moves (.emergencySend ids) v { v with
        log := (ids.map .sent).reverse ++ v.log, placing := ids }
  | emergencyResolve {v : ExitView} {id : PositionId} {placing : List PositionId} :
      v.placing.Perm (id :: placing) →
      Moves .quiet v { v with
        log := .resolved id :: v.log, placing := placing, writing := id :: v.writing }
  | emergencyReject {v : ExitView} {id : PositionId} {placing : List PositionId} :
      v.placing.Perm (id :: placing) → Moves .quiet v { v with placing := placing }
  | emergencyWrite {v : ExitView} {id : PositionId} {writing : List PositionId}
      {P : PositionId → Prop} : v.writing.Perm (id :: writing) → ¬ P id →
      (∀ id', P id' → v.isOpen id') → Moves .quiet v { v with writing := writing, isOpen := P }
  | emergencyLost {v : ExitView} {id : PositionId} {writing : List PositionId} :
      v.writing.Perm (id :: writing) → Moves (.emergencyLost id) v { v with writing := writing }

end ExitView

/-! ## The view of the system -/

/-- What the dispatch has in hand in a phase. -/
def handIn : Option ExitPhase → Hand
  | some (.finding turn none) => .finding turn.command.positionId
  | some (.finding _ (some (some row))) => .holding row.id
  | some (.placing _ position) => .holding position.id
  | some (.updating _ closed reply) => .updating closed.position.id (reply = some true)
  | _ => .empty

def CompensationPhase.ids : CompensationPhase → List PositionId
  | .idle => []
  | .retrying current _ rest => (current :: rest).map (·.key)

def CompensationPhase.resolved : CompensationPhase → Option PositionId
  | .retrying current (some true) _ => some current.key
  | _ => none

def EmergencyPhase.tasks : EmergencyPhase → List EmergencyTask
  | .closing tasks => tasks
  | _ => []

/-- The position whose exit a task has sent. -/
def EmergencyTask.placingId : EmergencyTask → Option PositionId
  | .placing position => some position.position.id
  | .updating _ => none

/-- The position that a task writes. -/
def EmergencyTask.writingId : EmergencyTask → Option PositionId
  | .placing _ => none
  | .updating closed => some closed.position.id

def placingIds (tasks : List EmergencyTask) : List PositionId :=
  tasks.filterMap EmergencyTask.placingId

def writingIds (tasks : List EmergencyTask) : List PositionId :=
  tasks.filterMap EmergencyTask.writingId

@[simp] theorem placingIds_placing (position : OpenPosition) (tasks : List EmergencyTask) :
    placingIds (.placing position :: tasks) = position.position.id :: placingIds tasks := rfl

@[simp] theorem placingIds_updating (closed : ClosedPosition) (tasks : List EmergencyTask) :
    placingIds (.updating closed :: tasks) = placingIds tasks := rfl

@[simp] theorem writingIds_placing (position : OpenPosition) (tasks : List EmergencyTask) :
    writingIds (.placing position :: tasks) = writingIds tasks := rfl

@[simp] theorem writingIds_updating (closed : ClosedPosition) (tasks : List EmergencyTask) :
    writingIds (.updating closed :: tasks) = closed.position.id :: writingIds tasks := rfl

@[simp] theorem placingIds_append (front back : List EmergencyTask) :
    placingIds (front ++ back) = placingIds front ++ placingIds back := List.filterMap_append

@[simp] theorem writingIds_append (front back : List EmergencyTask) :
    writingIds (front ++ back) = writingIds front ++ writingIds back := List.filterMap_append

theorem placingIds_rows (rows : List OpenPosition) :
    placingIds (rows.map .placing) = rows.map (·.position.id) := by
  induction rows with
  | nil => rfl
  | cons row rows ih => simp [ih]

theorem writingIds_rows (rows : List OpenPosition) : writingIds (rows.map .placing) = [] := by
  induction rows with
  | nil => rfl
  | cons row rows ih => simp [ih]

namespace ExitSystem

variable {pair : CurrencyPair}

def view (s : ExitSystem) : ExitView where
  log := s.log
  isOpen := s.db.IsOpen
  shielded id := s.shields id = true
  hand := handIn s.session.phase
  retrying := s.drain.ids
  retried := s.drain.resolved
  placing := placingIds s.emergency.tasks
  writing := writingIds s.emergency.tasks

/-- What the system does where a view reads a row again, sends for an emergency or loses
a write. -/
def Labelled (s : ExitSystem) (a : ExitLabel) : ExitEvent → Prop
  | .quiet => True
  | .recheck id => a = .findById true ∧ s.view.hand = .finding id ∧
      ∃ row, s.db.findById id = some row
  | .send id => (∃ rules, a = .findResume rules) ∧
      ∃ turn row, s.session.phase = some (.finding turn (some (some row))) ∧ row.id = id
  | .emergencySend ids => a = .emergencyResume ∧
      ∃ rows, s.emergency = .listed rows ∧ ids = rows.map (·.position.id)
  | .emergencyLost id => a = .emergencyUpdate id .failed

/-! ### Rows -/

theorem isOpen_updateRows {db : Database} {f : Position → Position}
    {hf : ∀ p, (f p).id = p.id} (hopen : ∀ p, (f p).status = .opened → p.status = .opened)
    {id : PositionId} (h : (db.updateRows f hf).IsOpen id) : db.IsOpen id := by
  obtain ⟨p, hp, hid, hstatus⟩ := h
  obtain ⟨p', hp', rfl⟩ := List.mem_map.mp hp
  exact ⟨p', hp', (hf p').symm.trans hid, hopen p' hstatus⟩

theorem isOpen_update {db : Database} (closed : ClosedPosition) {id : PositionId}
    (h : (db.update closed.position).IsOpen id) : db.IsOpen id := by
  refine isOpen_updateRows (fun p hp => ?_) h
  unfold Database.updateRow at hp
  split at hp
  · rw [closed.closed] at hp
    cases hp
  · exact hp

theorem not_isOpen_update (db : Database) (closed : ClosedPosition) :
    ¬ (db.update closed.position).IsOpen closed.position.id := by
  rintro ⟨p, hp, hid, hstatus⟩
  obtain ⟨p', hp', rfl⟩ := List.mem_map.mp hp
  rw [Database.updateRow_id] at hid
  simp [Database.updateRow, hid, closed.closed] at hstatus

theorem isOpen_markClosed {db : Database} {id id' : PositionId} {now : Int}
    (h : (db.markClosed id now).IsOpen id') : db.IsOpen id' := by
  refine isOpen_updateRows (fun p hp => ?_) h
  unfold Database.closeRow at hp
  split at hp
  · cases hp
  · exact hp

theorem not_isOpen_markClosed (db : Database) (id : PositionId) (now : Int) :
    ¬ (db.markClosed id now).IsOpen id := by
  rintro ⟨p, hp, hid, hstatus⟩
  obtain ⟨p', hp', rfl⟩ := List.mem_map.mp hp
  rw [Database.closeRow_id] at hid
  unfold Database.closeRow at hstatus
  split at hstatus
  · cases hstatus
  · rename_i hnot
    exact hnot ⟨hid, hstatus⟩

/-- A statement that takes effect or fails leaves one of two tables. -/
theorem write_cases {db db' after : Database} {reply : DbReply} {ok : Bool}
    (h : db.write (some after) reply = (ok, db')) :
    (db' = db ∨ db' = after) ∧ (ok = true → db' = after) ∧ (reply ≠ .failed → db' = after) := by
  cases reply <;> cases h <;> simp

/-! ### dispatch -/

/-- The loop of `dispatch` ends with an empty hand or turns to a position that is not
shielded, and touches nothing but the session and the breaker. -/
theorem visit_cases (rules : Position → ExitAnswer) (snapshot : MarketSnapshot)
    (positions : List Position) (result : ExitDispatchResult) (s : ExitSystem) :
    ∃ session breaker, visit rules snapshot positions result s =
        { s with session := session, breaker := breaker } ∧
      (handIn session.phase = .empty ∨
        ∃ id, handIn session.phase = .finding id ∧ s.shields id = false) := by
  induction positions generalizing result s with
  | nil =>
    simp only [visit, dispatched]
    split
    · refine ⟨_, s.breaker, rfl, .inl ?_⟩
      rcases s.session.stop.settle_phase .updatingExtremes with h | ⟨next, h⟩ <;> rw [h] <;> rfl
    · exact ⟨_, s.breaker, rfl, .inl rfl⟩
  | cons p rest ih =>
    simp only [visit]
    have hfail : ∀ result, ∃ session breaker,
        visit rules snapshot rest result { s with breaker := s.breaker.recordFailure p.id } =
          { s with session := session, breaker := breaker } ∧
        (handIn session.phase = .empty ∨
          ∃ id, handIn session.phase = .finding id ∧ s.shields id = false) := fun result =>
      ih result { s with breaker := s.breaker.recordFailure p.id }
    split
    · exact ih _ s
    · rename_i hshield
      split
      · exact ih _ s
      · split
        · exact ih _ s
        · exact hfail _
        · exact ih _ s
        · rename_i command _
          split
          · exact hfail _
          · rename_i hid
            split
            · exact ih _ s
            · refine ⟨_, s.breaker, rfl, .inr ⟨p.id, ?_, by simpa using hshield⟩⟩
              simp only [TradingSession.goto, handIn]
              rw [not_not.mp hid]

/-- Running the loop is a turn of the hand. -/
theorem moves_visit {s s₀ : ExitSystem} (hfree : s.view.hand.isFree = true)
    (hsame : s₀.view = s.view) (rules : Position → ExitAnswer) (snapshot : MarketSnapshot)
    (positions : List Position) (result : ExitDispatchResult) :
    ExitView.Moves .quiet s.view (visit rules snapshot positions result s₀).view := by
  obtain ⟨session, breaker, heq, hhand⟩ := visit_cases rules snapshot positions result s₀
  have hview : (visit rules snapshot positions result s₀).view =
      { s.view with hand := handIn session.phase } := by
    rw [heq, ← hsame]
    rfl
  rw [hview]
  -- nothing but the hand differs between the two views
  refine .turn hfree (hhand.imp id fun ⟨id, hfinding, hshield⟩ => ⟨id, hfinding, ?_⟩)
  have hshielded : s.view.shielded id = s₀.view.shielded id := by rw [hsame]
  rw [hshielded]
  simp only [view, hshield, Bool.false_eq_true, not_false_eq_true]

theorem view_settle (s : ExitSystem) : s.settle.view = { s.view with hand := .empty } := by
  have hhand : handIn (s.session.settle .updatingExtremes).phase = .empty := by
    rcases s.session.settle_phase .updatingExtremes with h | ⟨next, h⟩ <;> rw [h] <;> rfl
  simp only [settle, view, hhand]
  rfl

theorem view_goto (s : ExitSystem) (phase : ExitPhase) :
    (s.goto phase).view = { s.view with hand := handIn (some phase) } := rfl

theorem shields_iff (s : ExitSystem) (id : PositionId) :
    s.shields id = true ↔ id ∈ s.compensation.map (·.key) := by
  simp [shields]

/-- After `enqueue` the position is shielded. -/
theorem view_enqueue (s : ExitSystem) (entry : CompensationEntry) :
    ∃ S, (s.enqueue entry).view = { s.view with shielded := S } ∧
      ∀ id, S id ↔ s.view.shielded id ∨ id = entry.key := by
  unfold enqueue
  split
  · rename_i h
    refine ⟨s.view.shielded, rfl, fun id => ⟨.inl, ?_⟩⟩
    rintro (h' | rfl)
    · exact h'
    · exact h
  · refine ⟨_, rfl, fun id => ?_⟩
    simp only [view, shields_iff, List.map_append, List.mem_append, List.map_cons, List.map_nil,
      List.mem_singleton]

theorem findById_some {db : Database} {id : PositionId} {row : Position}
    (h : db.findById id = some row) : row.id = id := by
  simpa using List.find?_some h

theorem moves_findById {s : ExitSystem} {turn : ExitTurn}
    (hs : s.session.phase = some (.finding turn none)) (served : Bool) :
    ∃ e, ExitView.Moves e s.view (s.goto (.finding turn
        (some (if served then s.db.findById turn.command.positionId else none)))).view ∧
      s.Labelled (.findById served) e := by
  have hhand : s.view.hand = .finding turn.command.positionId := by
    simp only [view, hs]
    rfl
  rw [view_goto]
  cases hreply : (if served = true then s.db.findById turn.command.positionId else none) with
  | none => exact ⟨.quiet, .turn (by rw [hhand]; rfl) (.inl rfl), trivial⟩
  | some row =>
    cases served with
    | false => cases hreply
    | true =>
      have hid := findById_some hreply
      simp only [handIn, hid]
      exact ⟨.recheck _, .recheck hhand, rfl, hhand, row, hreply⟩

theorem moves_place {s : ExitSystem} {turn : ExitTurn} {row : Position}
    (hs : s.session.phase = some (.finding turn (some (some row)))) :
    ExitView.Moves (.send row.id) s.view (s.place turn row).view := by
  have hhand : s.view.hand = .holding row.id := by
    simp only [view, hs]
    rfl
  have hview : (s.place turn row).view = { s.view with log := .sent row.id :: s.view.log } := by
    simp only [place, view_goto, handIn, Position.applyExtremes_id, ← hhand]
    rfl
  rw [hview]
  exact .send hhand

theorem moves_resolve {s : ExitSystem} {turn : ExitTurn} {position : Position}
    (hs : s.session.phase = some (.placing turn position)) (result : ExitResult) :
    ExitView.Moves .quiet s.view (s.resolve turn position result).view := by
  have hhand : s.view.hand = .holding position.id := by
    simp only [view, hs]
    rfl
  unfold resolve
  dsimp only
  split
  · rename_i closed hclosed
    have hid := ClosedPosition.of?_id hclosed
    rw [view_goto]
    simp only [handIn, hid]
    exact .resolve hhand
  · obtain ⟨S, hview, hS⟩ := view_enqueue { s with log := .resolved position.id :: s.log }
      (.markClosed position.id)
    rw [view_goto, hview]
    exact .resolveShield hhand hS

theorem moves_update {s : ExitSystem} {turn : ExitTurn} {closed : ClosedPosition}
    (hs : s.session.phase = some (.updating turn closed none)) {reply : DbReply} {ok : Bool}
    {db : Database} (hwrite : s.db.write (some (s.db.update closed.position)) reply = (ok, db)) :
    ExitView.Moves .quiet s.view
      (({ s with db := db } : ExitSystem).goto (.updating turn closed (some ok))).view := by
  have hhand : s.view.hand = .updating closed.position.id false := by
    simp only [view, hs]
    rfl
  obtain ⟨hdb, hok, -⟩ := write_cases hwrite
  rw [view_goto]
  simp only [handIn]
  refine .write hhand (fun id hid => ?_) fun hdone => ?_
  · rcases hdb with rfl | rfl
    · exact hid
    · exact isOpen_update closed hid
  · have hdone : ok = true := by simpa using hdone
    rw [hok hdone]
    exact not_isOpen_update s.db closed

/-- A step of the session. -/
theorem moves_stepSession {s s' : ExitSystem} {a : ExitLabel} {phase : ExitPhase}
    (hs : s.session.phase = some phase) (h : s.stepSession pair phase a = some s') :
    ∃ e, ExitView.Moves e s.view s'.view ∧ s.Labelled a e := by
  have hhand : s.view.hand = handIn (some phase) := by simp only [view, hs]
  have hempty : ∀ {t : ExitSystem}, (handIn (some phase)).isFree = true →
      t.view = { s.view with hand := .empty } → ExitView.Moves .quiet s.view t.view := by
    intro t hfree ht
    rw [ht]
    exact .turn (hhand ▸ hfree) (.inl rfl)
  unfold stepSession at h
  split at h
  · split at h <;> cases h
    · exact ⟨.quiet, hempty rfl rfl, trivial⟩
    · exact ⟨.quiet, hempty rfl s.view_settle, trivial⟩
  · split at h <;> cases h
    · exact ⟨.quiet, hempty rfl rfl, trivial⟩
    · exact ⟨.quiet, hempty rfl s.view_settle, trivial⟩
  · cases h
    exact ⟨.quiet, moves_visit (by rw [hhand]; rfl) (by rfl) .., trivial⟩
  · rename_i turn served
    cases h
    exact moves_findById hs served
  · cases h
    exact ⟨.quiet, moves_visit (by rw [hhand]; rfl) (by rfl) .., trivial⟩
  · cases h
    exact ⟨_, moves_place hs, ⟨_, rfl⟩, _, _, hs, rfl⟩
  · rename_i turn position result
    cases h
    exact ⟨.quiet, moves_resolve hs result, trivial⟩
  · cases h
    exact ⟨.quiet, moves_visit (by rw [hhand]; rfl) (by rfl) .., trivial⟩
  · rename_i turn closed reply
    obtain rfl := Option.some.inj h
    exact ⟨.quiet, moves_update hs (Prod.mk.eta).symm, trivial⟩
  · cases h
    rw [view_goto]
    exact ⟨.quiet, .finish hhand, trivial⟩
  · rename_i turn closed
    cases h
    obtain ⟨S, hview, hS⟩ := s.view_enqueue (.update closed)
    rw [view_goto, hview]
    exact ⟨.quiet, .shield hhand hS, trivial⟩
  · cases h
    exact ⟨.quiet, moves_visit (by rw [hhand]; rfl) (by rfl) .., trivial⟩
  · cases h
    exact ⟨.quiet, hempty rfl s.view_settle, trivial⟩
  · cases h

/-! ### The compensation queue -/

theorem isOpen_apply {entry : CompensationEntry} {db : Database} {now : Int} {id : PositionId}
    (h : (entry.apply db now).IsOpen id) : db.IsOpen id := by
  cases entry with
  | update closed => exact isOpen_update closed h
  | markClosed positionId => exact isOpen_markClosed h

theorem not_isOpen_apply (entry : CompensationEntry) (db : Database) (now : Int) :
    ¬ (entry.apply db now).IsOpen entry.key := by
  cases entry with
  | update closed => exact not_isOpen_update db closed
  | markClosed positionId => exact not_isOpen_markClosed db positionId now

theorem ids_retryNext (entries : List CompensationEntry) :
    (retryNext entries).ids = entries.map (·.key) := by
  cases entries <;> rfl

theorem resolved_retryNext (entries : List CompensationEntry) :
    (retryNext entries).resolved = none := by
  cases entries <;> rfl

/-- On to the entries that are left, with the queue as it is. -/
theorem moves_retryNext {s : ExitSystem} {entries : List CompensationEntry}
    (h : ∀ id ∈ entries.map (·.key), s.shields id = true ∨ id ∈ s.drain.ids) :
    ExitView.Moves .quiet s.view ({ s with drain := retryNext entries } : ExitSystem).view := by
  have hview : ({ s with drain := retryNext entries } : ExitSystem).view =
      { s.view with retrying := entries.map (·.key), retried := none } := by
    simp only [view, ids_retryNext, resolved_retryNext]
    rfl
  rw [hview]
  exact .retry h (by simp) fun _ => id

theorem moves_retry {s : ExitSystem} {current : CompensationEntry}
    {rest : List CompensationEntry} (hs : s.drain = .retrying current none rest)
    {reply : DbReply} {now : Int} {ok : Bool} {db : Database}
    (hwrite : s.db.write (some (current.apply s.db now)) reply = (ok, db)) :
    ExitView.Moves .quiet s.view
      ({ s with db := db, drain := .retrying current (some ok) rest } : ExitSystem).view := by
  obtain ⟨hdb, hok, -⟩ := write_cases hwrite
  have hids : s.view.retrying = (current :: rest).map (·.key) := by simp only [view, hs]; rfl
  refine .retry (fun id hid => .inr (hids ▸ hid)) (fun id hid => ?_) fun id hid => ?_
  · cases ok with
    | false => cases hid
    | true =>
      obtain rfl : current.key = id := by simpa [CompensationPhase.resolved] using hid
      rw [hok rfl]
      exact ⟨by simp [CompensationPhase.ids], not_isOpen_apply current s.db now⟩
  · rcases hdb with rfl | rfl
    · exact hid
    · exact isOpen_apply hid

/-- A step of the queue. -/
theorem moves_stepCompensation {s s' : ExitSystem} {a : ExitLabel}
    (h : s.stepCompensation s.drain a = some s') : ExitView.Moves .quiet s.view s'.view := by
  unfold stepCompensation at h
  split at h
  · split at h
    · cases h
    · cases h
      exact moves_retryNext fun id hid => .inl ((s.shields_iff id).mpr hid)
  · rename_i current rest reply now hdrain
    obtain rfl := Option.some.inj h
    exact moves_retry hdrain (Prod.mk.eta).symm
  · rename_i current rest hdrain
    cases h
    have hview : ({ s with
          compensation := s.compensation.filter (fun e => e.key ≠ current.key)
          drain := retryNext rest } : ExitSystem).view =
        { s.view with
          retrying := rest.map (·.key)
          retried := none
          shielded := fun id => (s.compensation.filter (fun e => e.key ≠ current.key)).any
            (fun e => e.key = id) = true } := by
      simp only [view, ids_retryNext, resolved_retryNext]
      rfl
    have hretried : s.view.retried = some current.key := by simp only [view, hdrain]; rfl
    rw [hview]
    refine .unshield hretried (fun id hid => ?_) fun id => ?_
    · simp only [view, hdrain, CompensationPhase.ids, List.map_cons]
      exact List.mem_cons_of_mem _ hid
    · simp only [view, shields, List.any_filter, List.any_eq_true, Bool.and_eq_true,
        decide_eq_true_eq]
      constructor
      · rintro ⟨e, he, hne, rfl⟩
        exact ⟨hne, e, he, rfl⟩
      · rintro ⟨hne, e, he, rfl⟩
        exact ⟨e, he, hne, rfl⟩
  · rename_i current rest hdrain
    cases h
    refine moves_retryNext fun id hid => .inr ?_
    simp only [hdrain, CompensationPhase.ids, List.map_cons]
    exact List.mem_cons_of_mem _ hid
  · cases h

/-! ### The emergency path -/

theorem takeFirst_split {α β : Type} {pick : α → Option β} {xs rest : List α} {y : β}
    (h : takeFirst pick xs = some (y, rest)) :
    ∃ x front back, pick x = some y ∧ xs = front ++ x :: back ∧ rest = front ++ back := by
  induction xs generalizing rest with
  | nil => cases h
  | cons x xs ih =>
    unfold takeFirst at h
    split at h
    · rename_i hpick
      cases h
      exact ⟨x, [], xs, hpick, rfl, rfl⟩
    · obtain ⟨⟨y', rest'⟩, htake, heq⟩ := Option.map_eq_some_iff.mp h
      cases heq
      obtain ⟨x', front, back, hpick, rfl, rfl⟩ := ih htake
      exact ⟨x', x :: front, back, hpick, rfl, rfl⟩

/-- Taking a task that places moves nothing that is written. -/
theorem takePlacing_spec {id : PositionId} {tasks rest : List EmergencyTask}
    {position : OpenPosition} (h : takeFirst (pickPlacing id) tasks = some (position, rest)) :
    position.position.id = id ∧ (placingIds tasks).Perm (id :: placingIds rest) ∧
      writingIds tasks = writingIds rest := by
  obtain ⟨task, front, back, hpick, rfl, rfl⟩ := takeFirst_split h
  cases task with
  | updating closed => cases hpick
  | placing position' =>
    obtain ⟨rfl, heq⟩ := Option.ite_none_right_eq_some.mp hpick
    cases heq
    simp

/-- Taking a task that writes moves nothing that is placed. -/
theorem takeUpdating_spec {id : PositionId} {tasks rest : List EmergencyTask}
    {closed : ClosedPosition} (h : takeFirst (pickUpdating id) tasks = some (closed, rest)) :
    closed.position.id = id ∧ (writingIds tasks).Perm (id :: writingIds rest) ∧
      placingIds tasks = placingIds rest := by
  obtain ⟨task, front, back, hpick, rfl, rfl⟩ := takeFirst_split h
  cases task with
  | placing position => cases hpick
  | updating closed' =>
    obtain ⟨rfl, heq⟩ := Option.ite_none_right_eq_some.mp hpick
    cases heq
    simp

theorem tasks_closingWith (tasks : List EmergencyTask) : (closingWith tasks).tasks = tasks := by
  cases tasks <;> rfl

theorem view_emergency (s : ExitSystem) (phase : EmergencyPhase) (log : List BrokerEvent)
    (db : Database) :
    ({ s with emergency := phase, log := log, db := db } : ExitSystem).view =
      { s.view with
        log := log
        isOpen := db.IsOpen
        placing := placingIds phase.tasks
        writing := writingIds phase.tasks } := rfl

theorem moves_emergencyQuiet {s : ExitSystem} {phase : EmergencyPhase}
    (hs : s.emergency.tasks = []) (hphase : phase.tasks = []) :
    ExitView.Moves .quiet s.view ({ s with emergency := phase } : ExitSystem).view := by
  have hview : ({ s with emergency := phase } : ExitSystem).view = s.view := by
    rw [view_emergency s phase s.log s.db, hphase, ← hs]
    rfl
  rw [hview]
  exact .quiet _

theorem moves_emergencyResume {s : ExitSystem} {rows : List OpenPosition}
    (hs : s.emergency = .listed rows) :
    ExitView.Moves (.emergencySend (rows.map (·.position.id))) s.view ({ s with
      emergency := closingWith (rows.map .placing)
      log := (rows.map (fun p => .sent p.position.id)).reverse ++ s.log } : ExitSystem).view := by
  have hnone : s.emergency.tasks = [] := by rw [hs]; rfl
  have hlog : rows.map (fun p => BrokerEvent.sent p.position.id) =
      (rows.map (·.position.id)).map .sent := by rw [List.map_map]; rfl
  have hwriting : s.view.writing = [] := by simp only [view, hnone]; rfl
  rw [hlog, view_emergency s (closingWith (rows.map .placing)) _ s.db, tasks_closingWith,
    placingIds_rows, writingIds_rows, ← hwriting]
  exact .emergencySend _ (by simp only [view, hnone]; rfl) hwriting

theorem moves_emergencyResolves {s : ExitSystem} {tasks rest : List EmergencyTask}
    {position : OpenPosition} {id : PositionId} {closed : ClosedPosition}
    (hs : s.emergency = .closing tasks)
    (htake : takeFirst (pickPlacing id) tasks = some (position, rest))
    (hclosed : closed.position.id = position.position.id) :
    ExitView.Moves .quiet s.view ({ s with
      emergency := .closing (.updating closed :: rest)
      log := .resolved id :: s.log } : ExitSystem).view := by
  obtain ⟨hid, hplacing, hwriting⟩ := takePlacing_spec htake
  have hwriting' : writingIds (EmergencyTask.updating closed :: rest) = id :: s.view.writing := by
    rw [writingIds_updating, hclosed, hid, ← hwriting]
    simp only [view, hs, EmergencyPhase.tasks]
  rw [view_emergency s (.closing (.updating closed :: rest)) (.resolved id :: s.log) s.db]
  simp only [EmergencyPhase.tasks, hwriting', placingIds_updating]
  exact .emergencyResolve (by simpa only [view, hs, EmergencyPhase.tasks] using hplacing)

theorem moves_emergencyRejects {s : ExitSystem} {tasks rest : List EmergencyTask}
    {position : OpenPosition} {id : PositionId} (hs : s.emergency = .closing tasks)
    (htake : takeFirst (pickPlacing id) tasks = some (position, rest)) :
    ExitView.Moves .quiet s.view ({ s with emergency := closingWith rest } : ExitSystem).view := by
  obtain ⟨-, hplacing, hwriting⟩ := takePlacing_spec htake
  have hwriting' : writingIds rest = s.view.writing := by
    rw [← hwriting]
    simp only [view, hs, EmergencyPhase.tasks]
  rw [view_emergency s (closingWith rest) s.log s.db, tasks_closingWith, hwriting']
  exact .emergencyReject (by simpa only [view, hs, EmergencyPhase.tasks] using hplacing)

theorem moves_emergencyUpdate {s : ExitSystem} {tasks rest : List EmergencyTask}
    {closed : ClosedPosition} {id : PositionId} {reply : DbReply} {ok : Bool} {db : Database}
    (hs : s.emergency = .closing tasks)
    (htake : takeFirst (pickUpdating id) tasks = some (closed, rest))
    (hwrite : s.db.write (some (s.db.update closed.position)) reply = (ok, db)) :
    ∃ e, ExitView.Moves e s.view
        ({ s with db := db, emergency := closingWith rest } : ExitSystem).view ∧
      s.Labelled (.emergencyUpdate id reply) e := by
  obtain ⟨hid, hwriting, hplacing⟩ := takeUpdating_spec htake
  have hplacing' : placingIds rest = s.view.placing := by
    rw [← hplacing]
    simp only [view, hs, EmergencyPhase.tasks]
  obtain ⟨-, -, hdb⟩ := write_cases hwrite
  have hperm : s.view.writing.Perm (id :: writingIds rest) := by
    simpa only [view, hs, EmergencyPhase.tasks] using hwriting
  rw [view_emergency s (closingWith rest) s.log db, tasks_closingWith, hplacing']
  -- where the update took effect the row is closed, even if its reply was lost
  by_cases hreply : reply = .failed
  · subst hreply
    cases hwrite
    exact ⟨.emergencyLost id, .emergencyLost hperm, rfl⟩
  · rw [hdb hreply]
    refine ⟨.quiet, .emergencyWrite hperm ?_ fun _ => isOpen_update closed, trivial⟩
    rw [← hid]
    exact not_isOpen_update s.db closed

/-- A step of the emergency path. -/
theorem moves_stepEmergency {s s' : ExitSystem} {a : ExitLabel}
    (h : s.stepEmergency s.emergency a = some s') :
    ∃ e, ExitView.Moves e s.view s'.view ∧ s.Labelled a e := by
  unfold stepEmergency at h
  split at h
  · rename_i hidle
    cases h
    exact ⟨.quiet, moves_emergencyQuiet (by rw [hidle]; rfl) rfl, trivial⟩
  · rename_i served hreading
    have hnone : s.emergency.tasks = [] := by rw [hreading]; rfl
    split at h <;> cases h
    · exact ⟨.quiet, moves_emergencyQuiet hnone rfl, trivial⟩
    · exact ⟨.quiet, moves_emergencyQuiet hnone rfl, trivial⟩
  · rename_i rows hlisted
    cases h
    exact ⟨_, moves_emergencyResume hlisted, rfl, rows, hlisted, rfl⟩
  · rename_i tasks id result hclosing
    obtain ⟨⟨position, rest⟩, htake, rfl⟩ := Option.map_eq_some_iff.mp h
    exact ⟨.quiet, moves_emergencyResolves hclosing htake (position.close_id ..), trivial⟩
  · rename_i tasks id hclosing
    obtain ⟨⟨position, rest⟩, htake, rfl⟩ := Option.map_eq_some_iff.mp h
    exact ⟨.quiet, moves_emergencyRejects hclosing htake, trivial⟩
  · rename_i tasks id reply hclosing
    obtain ⟨⟨closed, rest⟩, htake, rfl⟩ := Option.map_eq_some_iff.mp h
    exact moves_emergencyUpdate hclosing htake (Prod.mk.eta).symm
  · cases h

/-! ### Every step is a move -/

theorem isOpen_insertPosition {db db' : Database} {position : Position}
    (h : db.insertPosition position = some db') {id : PositionId} (hid : db'.IsOpen id) :
    db.IsOpen id ∨ id = position.id := by
  unfold Database.insertPosition at h
  split at h
  · cases h
  · cases h
    obtain ⟨p, hp, rfl, hstatus⟩ := hid
    rcases List.mem_append.mp hp with hp | hp
    · exact .inl ⟨p, hp, rfl, hstatus⟩
    · exact .inr (by rw [List.mem_singleton.mp hp])

theorem moves_onMarketData (pair : CurrencyPair) (s : ExitSystem) (snapshot : MarketSnapshot) :
    ExitView.Moves .quiet s.view ({ s with
      session := s.session.onMarketData pair .updatingExtremes snapshot } : ExitSystem).view := by
  have hhand : handIn (s.session.onMarketData pair .updatingExtremes snapshot).phase =
      s.view.hand := by
    rcases s.session.onMarketData_phase pair .updatingExtremes snapshot with h | ⟨h, h'⟩
    · rw [h]
      rfl
    · rw [h']
      simp only [view, h]
      rfl
  have hview : ({ s with
      session := s.session.onMarketData pair .updatingExtremes snapshot } : ExitSystem).view =
      s.view := by
    simp only [view, hhand]
    rfl
  rw [hview]
  exact .quiet _

/-- A step of the system is a move of the view. -/
theorem moves_of_step {s s' : ExitSystem} {a : ExitLabel} (h : s.step pair a = some s') :
    ∃ e, ExitView.Moves e s.view s'.view ∧ s.Labelled a e := by
  have hsession : ∀ {a}, s.session.phase.bind (fun phase => s.stepSession pair phase a) = some s' →
      ∃ e, ExitView.Moves e s.view s'.view ∧ s.Labelled a e := by
    intro a h
    obtain ⟨phase, hphase, h⟩ := Option.bind_eq_some_iff.mp h
    exact moves_stepSession hphase h
  cases a with
  | onMarketData snapshot =>
    cases h
    exact ⟨.quiet, moves_onMarketData pair s snapshot, trivial⟩
  | stop =>
    cases h
    exact ⟨.quiet, .quiet _, trivial⟩
  | markClosed id now =>
    cases h
    exact ⟨.quiet, .close fun _ => isOpen_markClosed, trivial⟩
  | registered position =>
    simp only [step] at h
    split at h
    · rename_i hunseen
      obtain ⟨db, hdb, rfl⟩ := Option.map_eq_some_iff.mp h
      exact ⟨.quiet, .register hunseen.2 fun _ => isOpen_insertPosition hdb, trivial⟩
    · cases h
  | drain | retry | retryResume => exact ⟨.quiet, moves_stepCompensation h, trivial⟩
  | emergencyExecute | emergencyRead | emergencyResume | emergencyResolves | emergencyRejects
  | emergencyUpdate => exact moves_stepEmergency h
  | extremesRead | dispatchRead | dispatchResume | findById | findResume | placeExitResolves
  | placeExitRejects | update | updateResume | notified | entryDone => exact hsession h

end ExitSystem

end Luchida
