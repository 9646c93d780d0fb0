import Luchida.ExitView
import Luchida.SmaCrossRule

/- No exit after a resolved one, over every run of the dispatch, the compensation queue
   and the sync.

   What keeps a position that was closed at the broker out of the next dispatch is its
   row, once it is written, and before that the shield. Both are looked at before
   `ExitExecution` reads the row again, and it does not look at the status of what it
   read: a row that a drain has closed since the dispatch was listed is sent once more
   (`exists_exit_resent`). While the rows that are read again are OPEN, no exit is sent
   after one that resolved. -/
namespace Luchida

/-- No exit is sent that has resolved before. -/
def NoResend : List BrokerEvent → Prop
  | [] => True
  | .sent id :: older => .resolved id ∉ older ∧ NoResend older
  | .resolved _ :: older => NoResend older

def decNoResend : (log : List BrokerEvent) → Decidable (NoResend log)
  | [] => .isTrue trivial
  | .sent _ :: older =>
    have := decNoResend older
    inferInstanceAs (Decidable (_ ∧ _))
  | .resolved _ :: older => decNoResend older

instance : DecidablePred NoResend := decNoResend

namespace ExitView

/-! ## Resolved exits are accounted for -/

/-- A position that is closed at the broker and OPEN in its row is shielded, or its row is
about to be written. -/
structure Accounted (v : ExitView) : Prop where
  settled : ∀ id, .resolved id ∈ v.log → v.isOpen id →
    v.shielded id ∨ v.hand = .updating id false ∨ id ∈ v.writing
  unshielded : ∀ id, v.hand = .finding id ∨ v.hand = .holding id → ¬ v.shielded id
  done : ∀ id, v.hand = .updating id true → ¬ v.isOpen id
  retried : ∀ id ∈ v.retried, id ∈ v.retrying ∧ ¬ v.isOpen id
  known : ∀ id, v.shielded id ∨ id ∈ v.retrying ∨ (∃ done, v.hand = .updating id done) →
    .resolved id ∈ v.log

variable {v v' : ExitView} {e : ExitEvent}

/-- A position that is closed at the broker gets no OPEN row again. -/
theorem isOpen_anti (hmove : Moves e v v') {id : PositionId} (hlog : .resolved id ∈ v.log)
    (h : v'.isOpen id) : v.isOpen id := by
  cases hmove with
  | close hclose => exact hclose id h
  | register hfresh hopen =>
    rcases hopen id h with h | rfl
    · exact h
    · exact absurd hlog hfresh
  | write _ hopen => exact hopen id h
  | retry _ _ hopen => exact hopen id h
  | emergencyWrite _ _ hopen => exact hopen id h
  | _ => exact h

theorem not_updating_of_isFree {id : PositionId} {done : Bool} (h : v.hand.isFree = true) :
    v.hand ≠ .updating id done := by
  intro heq
  rw [heq] at h
  cases h

theorem known_step (hv : v.Accounted) (hmove : Moves e v v') :
    ∀ id, v'.shielded id ∨ id ∈ v'.retrying ∨ (∃ done, v'.hand = .updating id done) →
      .resolved id ∈ v'.log := by
  intro id h
  cases hmove with
  | turn hfree hhand =>
    rcases h with h | h | ⟨done, h⟩
    · exact hv.known id (.inl h)
    · exact hv.known id (.inr (.inl h))
    · rcases hhand with rfl | ⟨id', rfl, -⟩ <;> cases h
  | recheck =>
    rcases h with h | h | ⟨done, h⟩
    · exact hv.known id (.inl h)
    · exact hv.known id (.inr (.inl h))
    · cases h
  | send => exact List.mem_cons_of_mem _ (hv.known id h)
  | resolve =>
    rcases h with h | h | ⟨done, h⟩
    · exact List.mem_cons_of_mem _ (hv.known id (.inl h))
    · exact List.mem_cons_of_mem _ (hv.known id (.inr (.inl h)))
    · cases h
      exact List.mem_cons_self
  | resolveShield hhand hS =>
    rcases h with h | h | ⟨done, h⟩
    · rcases (hS id).mp h with h | rfl
      · exact List.mem_cons_of_mem _ (hv.known id (.inl h))
      · exact List.mem_cons_self
    · exact List.mem_cons_of_mem _ (hv.known id (.inr (.inl h)))
    · cases h
  | write hhand =>
    rcases h with h | h | ⟨done, h⟩
    · exact hv.known id (.inl h)
    · exact hv.known id (.inr (.inl h))
    · cases h
      exact hv.known id (.inr (.inr ⟨false, hhand⟩))
  | shield hhand hS =>
    rcases h with h | h | ⟨done, h⟩
    · rcases (hS id).mp h with h | rfl
      · exact hv.known id (.inl h)
      · exact hv.known id (.inr (.inr ⟨false, hhand⟩))
    · exact hv.known id (.inr (.inl h))
    · cases h
  | finish =>
    rcases h with h | h | ⟨done, h⟩
    · exact hv.known id (.inl h)
    · exact hv.known id (.inr (.inl h))
    · cases h
  | retry hids =>
    rcases h with h | h | h
    · exact hv.known id (.inl h)
    · exact hv.known id ((hids id h).imp_right .inl)
    · exact hv.known id (.inr (.inr h))
  | unshield _ hids hS =>
    rcases h with h | h | h
    · exact hv.known id (.inl ((hS id).mp h).2)
    · exact hv.known id (.inr (.inl (hids id h)))
    · exact hv.known id (.inr (.inr h))
  | emergencySend => exact List.mem_append_right _ (hv.known id h)
  | emergencyResolve => exact List.mem_cons_of_mem _ (hv.known id h)
  | _ => exact hv.known id h

theorem unshielded_step (hv : v.Accounted) (hmove : Moves e v v') :
    ∀ id, v'.hand = .finding id ∨ v'.hand = .holding id → ¬ v'.shielded id := by
  intro id h
  cases hmove with
  | turn _ hhand =>
    rcases hhand with rfl | ⟨id', rfl, hshield⟩
    · rcases h with h | h <;> cases h
    · rcases h with h | h
      · cases h
        exact hshield
      · cases h
  | recheck hhand =>
    rcases h with h | h
    · cases h
    · cases h
      exact hv.unshielded id (.inl hhand)
  | resolve | resolveShield | write | shield | finish => rcases h with h | h <;> cases h
  | unshield _ _ hS => exact fun hshield => hv.unshielded id h ((hS id).mp hshield).2
  | _ => exact hv.unshielded id h

theorem done_step (hv : v.Accounted) (hmove : Moves e v v') :
    ∀ id, v'.hand = .updating id true → ¬ v'.isOpen id := by
  intro id h hopen
  have hkept : v.hand = .updating id true → False := fun hhand =>
    hv.done id hhand (isOpen_anti hmove (hv.known id (.inr (.inr ⟨true, hhand⟩))) hopen)
  cases hmove with
  | turn _ hhand => rcases hhand with rfl | ⟨id', rfl, -⟩ <;> cases h
  | recheck | resolve | resolveShield | shield | finish => cases h
  | write _ _ hdone =>
    cases h
    exact hdone rfl hopen
  | _ => exact hkept h

theorem retried_step (hv : v.Accounted) (hmove : Moves e v v') :
    ∀ id ∈ v'.retried, id ∈ v'.retrying ∧ ¬ v'.isOpen id := by
  intro id h
  have hkept : id ∈ v.retried → id ∈ v.retrying ∧ ¬ v'.isOpen id := fun hmem =>
    have ⟨hretrying, hclosed⟩ := hv.retried id hmem
    ⟨hretrying, fun hopen =>
      hclosed (isOpen_anti hmove (hv.known id (.inr (.inl hretrying))) hopen)⟩
  cases hmove with
  | retry _ hretried => exact hretried id h
  | unshield => cases h
  | _ => exact hkept h

/-- Where the drain has no unwritten row in hand, the shield or the emergency path has it. -/
theorem Accounted.of_hand_ne (hv : v.Accounted) {id : PositionId} (hlog : .resolved id ∈ v.log)
    (hopen : v.isOpen id) (hhand : v.hand ≠ .updating id false) :
    v.shielded id ∨ id ∈ v.writing := by
  rcases hv.settled id hlog hopen with h | h | h
  · exact .inl h
  · exact absurd h hhand
  · exact .inr h

/-- An unwritten row of the emergency path is still one after another row has left it. -/
theorem mem_rest_of_perm {id id' : PositionId} {rest : List PositionId}
    (hperm : v.writing.Perm (id' :: rest)) (hne : id ≠ id') (h : id ∈ v.writing) : id ∈ rest := by
  rcases List.mem_cons.mp (hperm.mem_iff.mp h) with heq | h
  · exact absurd heq hne
  · exact h

theorem settled_step (hv : v.Accounted) (hmove : Moves e v v')
    (hlost : ∀ id, e = .emergencyLost id → ¬ v.isOpen id) :
    ∀ id, .resolved id ∈ v'.log → v'.isOpen id →
      v'.shielded id ∨ v'.hand = .updating id false ∨ id ∈ v'.writing := by
  intro id hlog hopen
  -- unless this move resolves the exit, the position was accounted for before it
  have hanti : .resolved id ∈ v.log → v.isOpen id := fun h => isOpen_anti hmove h hopen
  have hbefore : .resolved id ∈ v.log →
      v.shielded id ∨ v.hand = .updating id false ∨ id ∈ v.writing := fun h =>
    hv.settled id h (hanti h)
  cases hmove with
  | turn hfree =>
    have hcare := hv.of_hand_ne hlog (hanti hlog) (not_updating_of_isFree hfree)
    exact hcare.imp_right .inr
  | recheck hhand =>
    have hcare := hv.of_hand_ne hlog (hanti hlog) (by simp [hhand])
    exact hcare.imp_right .inr
  | send => exact hbefore (by simpa using hlog)
  | resolve hhand =>
    rcases List.mem_cons.mp hlog with heq | hlog
    · cases heq
      exact .inr (.inl rfl)
    · have hcare := hv.of_hand_ne hlog (hanti hlog) (by simp [hhand])
      exact hcare.imp_right .inr
  | resolveShield hhand hS =>
    rcases List.mem_cons.mp hlog with heq | hlog
    · cases heq
      exact .inl ((hS id).mpr (.inr rfl))
    · have hcare := hv.of_hand_ne hlog (hanti hlog) (by simp [hhand])
      exact hcare.imp (fun h => (hS id).mpr (.inl h)) .inr
  | @write _ id' _ done hhand _ hdone =>
    rcases hbefore hlog with h | h | h
    · exact .inl h
    · rw [hhand] at h
      cases h
      cases done with
      | true => exact absurd hopen (hdone rfl)
      | false => exact .inr (.inl rfl)
    · exact .inr (.inr h)
  | shield hhand hS =>
    rcases hbefore hlog with h | h | h
    · exact .inl ((hS id).mpr (.inl h))
    · rw [hhand] at h
      cases h
      exact .inl ((hS id).mpr (.inr rfl))
    · exact .inr (.inr h)
  | finish hhand =>
    have hcare := hv.of_hand_ne hlog (hanti hlog) (by simp [hhand])
    exact hcare.imp_right .inr
  | @unshield _ id' _ _ hretried _ hS =>
    rcases hbefore hlog with h | h
    -- the entry that goes is the one whose statement closed the row
    · refine .inl ((hS id).mpr ⟨?_, h⟩)
      rintro rfl
      exact (hv.retried id (by rw [hretried]; rfl)).2 hopen
    · exact .inr h
  | emergencySend => exact hbefore (by simpa using hlog)
  | emergencyResolve =>
    rcases List.mem_cons.mp hlog with heq | hlog
    · cases heq
      exact .inr (.inr List.mem_cons_self)
    · exact (hbefore hlog).imp_right (.imp_right (List.mem_cons_of_mem _))
  | emergencyWrite hperm hwritten =>
    refine (hbefore hlog).imp_right (.imp_right (mem_rest_of_perm hperm ?_))
    rintro rfl
    exact hwritten hopen
  | emergencyLost hperm =>
    refine (hbefore hlog).imp_right (.imp_right (mem_rest_of_perm hperm ?_))
    rintro rfl
    exact hlost id rfl hopen
  | _ => exact hbefore hlog

/-- Every move keeps it, but for a lost write of the emergency path on an OPEN row. -/
theorem Accounted.step (hv : v.Accounted) (hmove : Moves e v v')
    (hlost : ∀ id, e = .emergencyLost id → ¬ v.isOpen id) : v'.Accounted :=
  ⟨settled_step hv hmove hlost, unshielded_step hv hmove, done_step hv hmove,
    retried_step hv hmove, known_step hv hmove⟩

/-- No emergency exit is on its way. -/
structure Calm (v : ExitView) : Prop where
  placing : v.placing = []
  writing : v.writing = []

theorem Calm.step (hv : v.Calm) (hmove : Moves e v v') (he : ∀ ids, e ≠ .emergencySend ids) :
    v'.Calm := by
  cases hmove with
  | emergencySend ids => exact absurd rfl (he ids)
  | emergencyResolve hperm | emergencyReject hperm =>
    rw [hv.placing] at hperm
    cases hperm.nil_eq
  | emergencyWrite hperm | emergencyLost hperm =>
    rw [hv.writing] at hperm
    cases hperm.nil_eq
  | _ => exact ⟨hv.placing, hv.writing⟩

/-! ## The dispatch alone -/

/-- The invariant of a run without emergency exits. -/
structure ClosedOnce (v : ExitView) : Prop where
  accounted : v.Accounted
  calm : v.Calm
  held : ∀ id, v.hand = .holding id → .resolved id ∉ v.log
  noResend : NoResend v.log

/-- The row that is read again is OPEN, and no emergency exit is sent. -/
def RereadOpen (v : ExitView) : ExitEvent → Prop
  | .recheck id => v.isOpen id
  | .emergencySend _ => False
  | _ => True

theorem held_step (hv : v.ClosedOnce) (hmove : Moves e v v') (he : v.RereadOpen e) :
    ∀ id, v'.hand = .holding id → .resolved id ∉ v'.log := by
  intro id h
  cases hmove with
  | turn _ hhand => rcases hhand with rfl | ⟨id', rfl, -⟩ <;> cases h
  | recheck hhand =>
    cases h
    intro hlog
    -- had its exit resolved, something would account for the OPEN row
    rcases hv.accounted.settled id hlog he with hshield | hupdating | hwriting
    · exact hv.accounted.unshielded id (.inl hhand) hshield
    · rw [hhand] at hupdating
      cases hupdating
    · rw [hv.calm.writing] at hwriting
      cases hwriting
  | send => simpa using hv.held id h
  | resolve | resolveShield | write | shield | finish => cases h
  | emergencySend => exact he.elim
  | emergencyResolve hperm =>
    rw [hv.calm.placing] at hperm
    cases hperm.nil_eq
  | _ => exact hv.held id h

theorem noResend_step (hv : v.ClosedOnce) (hmove : Moves e v v') (he : v.RereadOpen e) :
    NoResend v'.log := by
  cases hmove with
  | send hhand => exact ⟨hv.held _ hhand, hv.noResend⟩
  | emergencySend => exact he.elim
  | _ => exact hv.noResend

theorem ClosedOnce.step (hv : v.ClosedOnce) (hmove : Moves e v v') (he : v.RereadOpen e) :
    v'.ClosedOnce := by
  have hsend : ∀ ids, e ≠ .emergencySend ids := by
    rintro ids rfl
    exact he
  refine ⟨hv.accounted.step hmove ?_, hv.calm.step hmove hsend, held_step hv hmove he,
    noResend_step hv hmove he⟩
  rintro id rfl
  cases hmove with
  | emergencyLost hperm =>
    rw [hv.calm.writing] at hperm
    cases hperm.nil_eq

end ExitView

/-! ## Runs of the system -/

namespace ExitSystem

variable {pair : CurrencyPair}

/-- Nothing was closed yet, and nothing is under way. -/
structure Started (s : ExitSystem) : Prop where
  phase : s.session.phase = none
  compensation : s.compensation = []
  drain : s.drain = .idle
  emergency : s.emergency = .idle
  log : s.log = []

/-- The row that `ExitExecution` is about to read again. -/
def rereading (s : ExitSystem) : Option Position :=
  match s.session.phase with
  | some (.finding turn none) => s.db.findById turn.command.positionId
  | _ => none

/-- What `ExitExecution` reads again is OPEN. -/
def RereadsOpen (s : ExitSystem) : ExitLabel → Prop
  | .findById true => ∀ row ∈ s.rereading, row.status = .opened
  | _ => True

theorem rereading_of_hand {s : ExitSystem} {id : PositionId} (h : s.view.hand = .finding id) :
    s.rereading = s.db.findById id := by
  simp only [view, handIn] at h
  unfold rereading
  split at h <;> cases h
  rename_i heq
  rw [heq]

theorem rereadOpen_of_labelled {s : ExitSystem} {a : ExitLabel} {e : ExitEvent}
    (hlabel : s.Labelled a e) (halone : a.isEmergency = false) (hok : s.RereadsOpen a) :
    s.view.RereadOpen e := by
  cases e with
  | recheck id =>
    obtain ⟨rfl, hhand, row, hrow⟩ := hlabel
    have hopen : row.status = .opened := hok row (by rw [rereading_of_hand hhand, hrow]; rfl)
    exact ⟨row, List.mem_of_find?_eq_some hrow, findById_some hrow, hopen⟩
  | emergencySend ids =>
    obtain ⟨rfl, -⟩ := hlabel
    cases halone
  | _ => trivial

theorem Started.accounted {s : ExitSystem} (h : s.Started) : s.view.Accounted := by
  have hlog : ∀ id, .resolved id ∉ s.view.log := fun id => by simp [view, h.log]
  refine ⟨fun id hmem => absurd hmem (hlog id), fun id hhand => ?_, fun id hhand => ?_,
    fun id hmem => ?_, ?_⟩
  · simp [view, h.phase, handIn] at hhand
  · simp [view, h.phase, handIn] at hhand
  · simp [view, h.drain, CompensationPhase.resolved] at hmem
  · rintro id (hshield | hretrying | ⟨done, hhand⟩)
    · simp [view, shields, h.compensation] at hshield
    · simp [view, h.drain, CompensationPhase.ids] at hretrying
    · simp [view, h.phase, handIn] at hhand

/-- The invariant of a run. -/
def ClosedOnce (s : ExitSystem) : Prop := s.view.ClosedOnce

theorem Started.closedOnce {s : ExitSystem} (h : s.Started) : s.ClosedOnce := by
  refine ⟨h.accounted, ⟨?_, ?_⟩, fun id hhand => ?_, ?_⟩
  · simp only [view, h.emergency]
    rfl
  · simp only [view, h.emergency]
    rfl
  · simp [view, h.phase, handIn] at hhand
  · simp only [view, h.log]
    trivial

theorem ClosedOnce.step {s s' : ExitSystem} {a : ExitLabel} (hs : s.ClosedOnce)
    (halone : a.isEmergency = false) (hok : s.RereadsOpen a) (h : s.step pair a = some s') :
    s'.ClosedOnce := by
  obtain ⟨e, hmove, hlabel⟩ := moves_of_step h
  exact ExitView.ClosedOnce.step hs hmove (rereadOpen_of_labelled hlabel halone hok)

/-- From a state in which nothing was closed yet, no run without emergency exits whose
rows are OPEN when they are read again sends an exit after one that resolved. -/
theorem noResend_of_rereadsOpen {s₀ s : ExitSystem} (h₀ : s₀.Started)
    (h : Runs.Reaches (step pair) (fun s a => a.isEmergency = false ∧ s.RereadsOpen a) s₀ s) :
    NoResend s.log := by
  have hinv : s.ClosedOnce := h.invariant h₀.closedOnce
    fun _ _ _ hs hok hstep => hs.step hok.1 hok.2 hstep
  exact hinv.noResend

/-! ## A drain in the middle of a dispatch -/

instance (s : ExitSystem) (a : ExitLabel) : Decidable (s.RereadsOpen a) :=
  match a with
  | .findById true => inferInstanceAs (Decidable (∀ row ∈ s.rereading, _))
  | .findById false => .isTrue trivial
  | .onMarketData _ | .extremesRead _ | .dispatchRead _ | .dispatchResume _ | .findResume _
  | .placeExitResolves _ | .placeExitRejects _ | .update _ | .updateResume | .notified _
  | .entryDone | .stop | .drain | .retry .. | .retryResume | .markClosed .. | .registered _
  | .emergencyExecute | .emergencyRead _ | .emergencyResume | .emergencyResolves ..
  | .emergencyRejects _ | .emergencyUpdate .. => .isTrue trivial

/-- A system without a history. -/
def fresh : ExitSystem where
  session := .started
  tracker := []
  breaker := ⟨5, 30, by decide, 0, []⟩
  compensation := []
  drain := .idle
  emergency := .idle
  db := .empty
  log := []

theorem fresh_started : fresh.Started := ⟨rfl, rfl, rfl, rfl, rfl⟩

end ExitSystem

/-- A long position. -/
def heldPosition (id : PositionId) (strategyName : StrategyName) (openedAt : Int) : Position where
  id := id
  pair := .usdJpy
  buySell := .buy
  lot := thousandLot
  entryPrice := crossPrice
  openedAt := openedAt
  strategyName := strategyName
  status := .opened
  exitPrice := none
  closedAt := none
  exitType := none
  exitReason := none
  profitLoss := none
  mfePips := none
  maePips := none

/-- The rules want the positions of these ids closed. -/
def takeProfits (ids : List PositionId) (p : Position) : ExitAnswer :=
  if p.id ∈ ids then .exit ⟨p.id, .takeProfit, ⟨"利確", by decide⟩⟩ else .doNothing

def crossExit : ExitResult := ⟨crossPrice, 867607000, ⟨0⟩⟩

/-- A snapshot up to the first position that the rules want closed. -/
def dispatchLabels (snapshot : MarketSnapshot) (rules : Position → ExitAnswer) : List ExitLabel :=
  [.onMarketData snapshot, .extremesRead true, .dispatchRead true, .dispatchResume rules]

/-- A turn whose exit is filled. -/
def closeLabels (rules : Position → ExitAnswer) (reply : DbReply) : List ExitLabel :=
  [.findById true, .findResume rules, .placeExitResolves crossExit, .update reply, .updateResume,
    .notified rules]

/-- The exit of `2` resolves and its `update` fails. The next dispatch has both positions
on its list; while it closes `1`, a drain writes the row of `2` and takes the shield away. -/
theorem exists_exit_resent :
    ExitSystem.fresh.Started ∧
      ∃ s, Runs.Reaches (ExitSystem.step .usdJpy) (fun _ a => a.isEmergency = false) .fresh s ∧
        s.log.head? = some (.sent (.ofNat 2)) ∧ ¬ NoResend s.log :=
  ⟨ExitSystem.fresh_started, Runs.exists_reaches (
    [.registered (heldPosition (.ofNat 1) .rsiReversal 1000),
      .registered (heldPosition (.ofNat 2) .smaCross 2000)] ++
    dispatchLabels crossSnapshot (takeProfits [.ofNat 2]) ++
    closeLabels (takeProfits [.ofNat 2]) .failed ++ [.entryDone] ++
    dispatchLabels nextCrossSnapshot (takeProfits [.ofNat 1, .ofNat 2]) ++
    [.drain, .retry .ok 867608000, .retryResume] ++
    closeLabels (takeProfits [.ofNat 1, .ofNat 2]) .ok ++
    [.findById true, .findResume (takeProfits [])]) (by decide +kernel)⟩

/-- Both are closed by one dispatch, and the second `update` is left to a drain. -/
theorem noResend_of_rereadsOpen_pair :
    ∃ s : ExitSystem, s.log = [.resolved (.ofNat 2), .sent (.ofNat 2), .resolved (.ofNat 1),
      .sent (.ofNat 1)] ∧ NoResend s.log := by
  have hrun : ∃ s, Runs.Reaches (ExitSystem.step .usdJpy)
      (fun s a => a.isEmergency = false ∧ s.RereadsOpen a) .fresh s ∧
      s.log = [.resolved (.ofNat 2), .sent (.ofNat 2), .resolved (.ofNat 1),
        .sent (.ofNat 1)] := Runs.exists_reaches (
    [.registered (heldPosition (.ofNat 1) .rsiReversal 1000),
      .registered (heldPosition (.ofNat 2) .smaCross 2000)] ++
    dispatchLabels crossSnapshot (takeProfits [.ofNat 1, .ofNat 2]) ++
    closeLabels (takeProfits [.ofNat 1, .ofNat 2]) .ok ++
    closeLabels (takeProfits [.ofNat 1, .ofNat 2]) .failed ++
    [.entryDone, .drain, .retry .ok 867608000, .retryResume]) (by decide +kernel)
  obtain ⟨s, hreach, hlog⟩ := hrun
  exact ⟨s, hlog, ExitSystem.noResend_of_rereadsOpen ExitSystem.fresh_started hreach⟩

end Luchida
