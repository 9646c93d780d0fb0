import Luchida.ExitOnce

/- The emergency path beside the dispatch: one broker and one table for both.

   Neither path knows of the exits of the other before the row is written, and the
   emergency path does not ask the compensation queue for help where that fails: while it
   writes the row of a position that it has closed, the dispatch reads that row as OPEN and
   sends a second exit (`exists_emergency_exit_resent`). No exit is sent after one that
   resolved as long as the paths keep apart: whatever one of them sends is still OPEN in its
   row, and the other is not between its exit and its row. -/
namespace Luchida

theorem noResend_append {ids : List PositionId} {log : List BrokerEvent}
    (hids : ∀ id ∈ ids, .resolved id ∉ log) (hlog : NoResend log) :
    NoResend ((ids.map .sent).reverse ++ log) := by
  induction ids generalizing log with
  | nil => exact hlog
  | cons id ids ih =>
    rw [List.map_cons, List.reverse_cons, List.append_assoc]
    refine ih (fun id' hid' => ?_) ⟨hids id List.mem_cons_self, hlog⟩
    simpa using hids id' (List.mem_cons_of_mem _ hid')

namespace ExitView

variable {v v' : ExitView} {e : ExitEvent}

/-- The invariant of a run with both paths. -/
structure ClosedByOne (v : ExitView) : Prop where
  accounted : v.Accounted
  noResend : NoResend v.log

/-- What is sent is OPEN in its row, and the other path has not closed it. -/
def Apart (v : ExitView) : ExitEvent → Prop
  | .send id => v.isOpen id ∧ id ∉ v.writing
  | .emergencySend ids =>
    ∀ id ∈ ids, v.isOpen id ∧ ¬ v.shielded id ∧ v.hand ≠ .updating id false
  | .emergencyLost id => ¬ v.isOpen id
  | _ => True

/-- The exit of a position that nothing accounts for has not resolved. -/
theorem Accounted.not_resolved (hv : v.Accounted) {id : PositionId} (hopen : v.isOpen id)
    (hshield : ¬ v.shielded id) (hhand : v.hand ≠ .updating id false) (hwriting : id ∉ v.writing) :
    .resolved id ∉ v.log := by
  intro hlog
  rcases hv.settled id hlog hopen with h | h | h
  · exact hshield h
  · exact hhand h
  · exact hwriting h

theorem ClosedByOne.step (hv : v.ClosedByOne) (hmove : Moves e v v') (he : v.Apart e) :
    v'.ClosedByOne := by
  refine ⟨hv.accounted.step hmove ?_, ?_⟩
  · rintro id rfl
    exact he
  cases hmove with
  | @send _ id hhand =>
    refine ⟨hv.accounted.not_resolved he.1 (hv.accounted.unshielded id (.inr hhand)) ?_ he.2,
      hv.noResend⟩
    rw [hhand]
    exact Hand.noConfusion
  | emergencySend ids _ hwriting =>
    -- one pass is over before the next begins, so no other emergency exit awaits its row
    refine noResend_append (fun id hid => ?_) hv.noResend
    obtain ⟨hopen, hshield, hhand⟩ := he id hid
    refine hv.accounted.not_resolved hopen hshield hhand ?_
    rw [hwriting]
    exact List.not_mem_nil
  | _ => exact hv.noResend

end ExitView

namespace ExitSystem

variable {pair : CurrencyPair}

/-! ## Runs of the system -/

/-- The row that `placeExit` is about to get. -/
def exiting (s : ExitSystem) : Option Position :=
  match s.session.phase with
  | some (.finding _ (some (some row))) => some row
  | _ => none

/-- The rows whose exits the emergency path is about to send. -/
def emergencyRows (s : ExitSystem) : List OpenPosition :=
  match s.emergency with
  | .listed rows => rows
  | _ => []

/-- The dispatch and the emergency path keep apart: what either sends is OPEN in its row,
and the other has not closed it without writing the row. Nor does the emergency path lose a
write. -/
def PathsApart (s : ExitSystem) : ExitLabel → Prop
  | .findResume _ => ∀ row ∈ s.exiting,
      s.db.IsOpen row.id ∧ row.id ∉ writingIds s.emergency.tasks
  | .emergencyResume => ∀ p ∈ s.emergencyRows, s.db.IsOpen p.position.id ∧
      s.shields p.position.id = false ∧ handIn s.session.phase ≠ .updating p.position.id false
  | .emergencyUpdate id reply => reply = .failed → ¬ s.db.IsOpen id
  | _ => True

theorem apart_of_labelled {s : ExitSystem} {a : ExitLabel} {e : ExitEvent}
    (hlabel : s.Labelled a e) (hok : s.PathsApart a) : s.view.Apart e := by
  cases e with
  | send id =>
    obtain ⟨⟨rules, rfl⟩, turn, row, hphase, rfl⟩ := hlabel
    exact hok row (by simp [exiting, hphase])
  | emergencySend ids =>
    obtain ⟨rfl, rows, hlisted, rfl⟩ := hlabel
    intro id hid
    obtain ⟨p, hp, rfl⟩ := List.mem_map.mp hid
    obtain ⟨hopen, hshield, hhand⟩ := hok p (by simpa [emergencyRows, hlisted] using hp)
    exact ⟨hopen, by simp [view, hshield], hhand⟩
  | emergencyLost id =>
    subst hlabel
    exact hok rfl
  | _ => trivial

/-- The invariant of a run. -/
def ClosedByOne (s : ExitSystem) : Prop := s.view.ClosedByOne

theorem Started.closedByOne {s : ExitSystem} (h : s.Started) : s.ClosedByOne := by
  refine ⟨h.accounted, ?_⟩
  simp only [view, h.log]
  trivial

theorem ClosedByOne.step {s s' : ExitSystem} {a : ExitLabel} (hs : s.ClosedByOne)
    (hok : s.PathsApart a) (h : s.step pair a = some s') : s'.ClosedByOne := by
  obtain ⟨e, hmove, hlabel⟩ := moves_of_step h
  exact ExitView.ClosedByOne.step hs hmove (apart_of_labelled hlabel hok)

/-- From a state in which nothing was closed yet, no run in which the paths keep apart
sends an exit, on either path, after one that resolved on either path. -/
theorem noResend_of_pathsApart {s₀ s : ExitSystem} (h₀ : s₀.Started)
    (h : Runs.Reaches (step pair) PathsApart s₀ s) : NoResend s.log := by
  have hinv : s.ClosedByOne := h.invariant h₀.closedByOne
    fun _ _ _ hs hok hstep => hs.step hok hstep
  exact hinv.noResend

/-! ## A dispatch in the middle of an emergency -/

instance (s : ExitSystem) (a : ExitLabel) : Decidable (s.PathsApart a) :=
  match a with
  | .findResume _ => inferInstanceAs (Decidable (∀ row ∈ s.exiting, _ ∧ _))
  | .emergencyResume => inferInstanceAs (Decidable (∀ p ∈ s.emergencyRows, _ ∧ _ ∧ _))
  | .emergencyUpdate .. => inferInstanceAs (Decidable (_ → _))
  | .onMarketData _ | .extremesRead _ | .dispatchRead _ | .dispatchResume _ | .findById _
  | .placeExitResolves _ | .placeExitRejects _ | .update _ | .updateResume | .notified _
  | .entryDone | .stop | .drain | .retry .. | .retryResume | .markClosed .. | .registered _
  | .emergencyExecute | .emergencyRead _ | .emergencyResolves .. | .emergencyRejects _ =>
    .isTrue trivial

end ExitSystem

/-- The emergency path closes `1` and has not written its row when the dispatch reads it. -/
theorem exists_emergency_exit_resent :
    ExitSystem.fresh.Started ∧
      ∃ s, Runs.Reaches (ExitSystem.step .usdJpy) (fun _ _ => True) .fresh s ∧
        s.log = [.sent (.ofNat 1), .resolved (.ofNat 1), .sent (.ofNat 1)] ∧ ¬ NoResend s.log :=
  ⟨ExitSystem.fresh_started, Runs.exists_reaches (
    [.registered (heldPosition (.ofNat 1) .smaCross 1000), .emergencyExecute,
      .emergencyRead true, .emergencyResume, .emergencyResolves (.ofNat 1) crossExit] ++
    dispatchLabels crossSnapshot (takeProfits [.ofNat 1]) ++
    [.findById true, .findResume (takeProfits [.ofNat 1])]) (by decide +kernel)⟩

/-- The dispatch closes `1`; the emergency path then finds `2` alone and closes it. -/
theorem noResend_of_pathsApart_pair :
    ∃ s : ExitSystem, s.log = [.resolved (.ofNat 2), .sent (.ofNat 2), .resolved (.ofNat 1),
      .sent (.ofNat 1)] ∧ s.db.openPositions = [] ∧ NoResend s.log := by
  have hrun : ∃ s, Runs.Reaches (ExitSystem.step .usdJpy) ExitSystem.PathsApart .fresh s ∧
      s.log = [.resolved (.ofNat 2), .sent (.ofNat 2), .resolved (.ofNat 1),
        .sent (.ofNat 1)] ∧ s.db.openPositions = [] := Runs.exists_reaches (
    [.registered (heldPosition (.ofNat 1) .rsiReversal 1000),
      .registered (heldPosition (.ofNat 2) .smaCross 2000)] ++
    dispatchLabels crossSnapshot (takeProfits [.ofNat 1]) ++
    closeLabels (takeProfits [.ofNat 1]) .ok ++
    [.emergencyExecute, .emergencyRead true, .emergencyResume,
      .emergencyResolves (.ofNat 2) crossExit, .emergencyUpdate (.ofNat 2) .ok])
    (by decide +kernel)
  obtain ⟨s, hreach, hlog, hclosed⟩ := hrun
  exact ⟨s, hlog, hclosed, ExitSystem.noResend_of_pathsApart ExitSystem.fresh_started hreach⟩

end Luchida
