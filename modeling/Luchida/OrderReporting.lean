import Luchida.GmoBrokerAdapter

/- Is a rejected order an order that was not carried out? The callers of the adapter take
   it so: an exit that rejects is sent again later, an entry that rejects is dropped.
   After GMO has accepted the order with an id, the adapter still asks for the execution
   (up to twenty times) and, for an entry, for the open position, and every failure on
   the way is a rejection.

   `Confirmed` says which answers let the adapter see the execution it waits for, and
   `order_reported_iff` that exactly these make its report true of an order that GMO
   carried out. -/
namespace Luchida

namespace GmoBrokerAdapter

/-! ## The polls -/

section
variable (tape : Nat → HttpOutcome (Option (List GmoExecution)))

/-- Where on the tape poll `k` starts, the first one starting at `pos`. -/
def pollStart (pos : Nat) : Nat → Nat
  | 0 => pos
  | k + 1 => pollStart (send tape pos).2 k

/-- What poll `k` finds. -/
def pollAnswer (pos k : Nat) : PollResult := pollOnce (send tape (pollStart tape pos k)).1

@[simp] theorem pollAnswer_zero (pos : Nat) :
    pollAnswer tape pos 0 = pollOnce (send tape pos).1 := rfl

@[simp] theorem pollAnswer_succ (pos k : Nat) :
    pollAnswer tape pos (k + 1) = pollAnswer tape (send tape pos).2 k := rfl

/-- Within `n` polls the first that does not have to be tried again finds this. -/
def FoundWithin (n pos : Nat) (execution : GmoExecution) : Prop :=
  ∃ k < n, pollAnswer tape pos k = .found execution ∧ ∀ j < k, pollAnswer tape pos j = .retry

theorem foundWithin_zero (pos : Nat) (execution : GmoExecution) :
    ¬ FoundWithin tape 0 pos execution := by
  rintro ⟨k, hk, -⟩
  omega

theorem foundWithin_succ (n pos : Nat) (execution : GmoExecution) :
    FoundWithin tape (n + 1) pos execution ↔
      pollAnswer tape pos 0 = .found execution ∨
        pollAnswer tape pos 0 = .retry ∧ FoundWithin tape n (send tape pos).2 execution := by
  constructor
  · rintro ⟨k, hk, hfound, hretry⟩
    cases k with
    | zero => exact .inl hfound
    | succ k =>
      refine .inr ⟨hretry 0 (by omega), k, by omega, hfound, ?_⟩
      intro j hj
      exact hretry (j + 1) (by omega)
  · rintro (hfound | ⟨hretry, k, hk, hfound, hearlier⟩)
    · exact ⟨0, by omega, hfound, by omega⟩
    · refine ⟨k + 1, by omega, hfound, ?_⟩
      intro j hj
      cases j with
      | zero => exact hretry
      | succ j => exact hearlier j (by omega)

/-- The wait succeeds exactly when a poll within its attempts finds the execution
before any poll is aborted. -/
theorem waitForExecution_ok_iff (orderId : String) (n pos : Nat) (execution : GmoExecution) :
    waitForExecution tape orderId n pos = .ok execution ↔ FoundWithin tape n pos execution := by
  induction n generalizing pos with
  | zero => simp [waitForExecution, foundWithin_zero]
  | succ n ih =>
    rw [foundWithin_succ, pollAnswer_zero]
    unfold waitForExecution
    cases hpoll : pollOnce (send tape pos).1 with
    | found execution' => simp
    | aborted e => simp
    | retry => simp [ih]

end

/-! ## What the adapter has to be told -/

/-- GMO answers the lookup of open positions with at least one. -/
def PositionListed (tapes : OrderTapes) : Prop :=
  ∃ response first rest, (send tapes.openPositions 0).1 = .ok response ∧
    response.data = some (first :: rest)

/-- The polls find an execution whose price and time can be read, and the open
positions are listed. -/
def EntryConfirmed (tapes : OrderTapes) : Prop :=
  ∃ execution, FoundWithin tapes.executions executionPollMaxAttempts 0 execution ∧
    (readExecution execution).isSome = true ∧ PositionListed tapes

/-- The polls find an execution whose price, time and gain can be read. -/
def ExitConfirmed (tapes : OrderTapes) : Prop :=
  ∃ execution, FoundWithin tapes.executions executionPollMaxAttempts 0 execution ∧
    (readExecution execution).isSome = true ∧ (readLossGain execution).isSome = true

theorem findOpenPosition_ok_iff (tapes : OrderTapes) (side size : String) :
    (∃ pos, findOpenPosition tapes.openPositions side size = .ok pos) ↔ PositionListed tapes := by
  unfold findOpenPosition PositionListed
  cases hsend : (send tapes.openPositions 0).1 with
  | error e => simp
  | ok response =>
    cases hdata : response.data with
    | none => simp [hdata]
    | some list =>
      cases list with
      | nil => simp [hdata]
      | cons first rest =>
        simp only [Except.ok.injEq, hdata, Option.some.injEq, List.cons.injEq,
          exists_and_left, exists_eq_left', exists_eq', and_true, iff_true]
        split <;> exact ⟨_, rfl⟩

theorem confirmEntry_ok_iff (tapes : OrderTapes) (orderId : Nat) :
    (∃ result, confirmEntry tapes orderId = .ok result) ↔ EntryConfirmed tapes := by
  unfold confirmEntry EntryConfirmed
  simp only [← waitForExecution_ok_iff tapes.executions orderId.repr]
  cases hwait : waitForExecution tapes.executions orderId.repr executionPollMaxAttempts 0 with
  | error e => simp
  | ok execution =>
    simp only [Except.ok.injEq, exists_eq_left']
    -- whether the lookup answers does not depend on what it looks for
    rw [← findOpenPosition_ok_iff tapes execution.side execution.size]
    cases findOpenPosition tapes.openPositions execution.side execution.size with
    | error e => simp
    | ok openPosition =>
      cases readExecution execution with
      | none => simp
      | some read => simp

theorem confirmExit_ok_iff (tapes : OrderTapes) (orderId : Nat) :
    (∃ result, confirmExit tapes orderId = .ok result) ↔ ExitConfirmed tapes := by
  unfold confirmExit ExitConfirmed
  simp only [← waitForExecution_ok_iff tapes.executions orderId.repr]
  cases hwait : waitForExecution tapes.executions orderId.repr executionPollMaxAttempts 0 with
  | error e => simp
  | ok execution =>
    simp only [Except.ok.injEq, exists_eq_left']
    cases readExecution execution with
    | none => simp
    | some read =>
      cases readLossGain execution with
      | none => simp
      | some gain => simp

/-! ## Rejections -/

/-- What the callers read off a settled order: one that rejects was not carried out,
so that the entry opened no position and the exit left its position open. -/
def ReportedTruly {α : Type} (executed : Bool) (result : Except BrokerError α) : Prop :=
  (∃ e, result = .error e) → executed = false

theorem reportedTruly_translate {α : Type} (executed : Bool)
    (translateError : AdapterError → BrokerError) (x : Except AdapterError α) :
    ReportedTruly executed (translate translateError x) ↔
      (executed = true → ∃ a, x = .ok a) := by
  unfold ReportedTruly translate
  cases x with
  | error e => simp
  | ok a => simp

/-- Once GMO has accepted an order, the report on it is true if and only if the answers
that follow confirm the order in case GMO carries it out. -/
theorem order_reported_iff (command : EntryCommand) (position : Position) (tapes : OrderTapes)
    (orderId : Nat) (executed : Bool) (haccepted : postOrder tapes.order = .ok orderId) :
    (ReportedTruly executed (placeEntry command tapes) ↔
        (executed = true → EntryConfirmed tapes)) ∧
      (ReportedTruly executed (placeExit position tapes) ↔
        (executed = true → ExitConfirmed tapes)) := by
  constructor
  · rw [placeEntry, haccepted, reportedTruly_translate, ← confirmEntry_ok_iff tapes orderId]
  · rw [placeExit, haccepted, reportedTruly_translate, ← confirmExit_ok_iff tapes orderId]

/-! ## A gateway error while waiting -/

/-- An answer with business status 0. -/
def answered {α : Type} (data : α) : HttpOutcome α :=
  .response ⟨200, "{}", some ⟨0, data, none⟩⟩

def filledExecution : GmoExecution := ⟨"BUY", "1000", some 150, none, some 0⟩

/-- GMO accepts the order and fills it. The first poll meets an HTTP 502; the fill
would be in every answer after that. -/
def gatewayTapes : OrderTapes where
  order _ := answered [⟨1, "EXECUTED"⟩]
  executions
    | 0 => .response ⟨502, "Bad Gateway", none⟩
    | _ => answered (some [filledExecution])
  openPositions _ := answered (some [⟨7, "BUY", "1000", some 0⟩])

def filledPosition : Position :=
  .openWith filledEntry ⟨.ofNat 7, quietPrice, 0⟩

/-- Both orders are carried out and both are reported as rejected. -/
theorem gateway_order_misreported :
    postOrder gatewayTapes.order = .ok 1 ∧
      ¬ ReportedTruly true (placeEntry filledEntry gatewayTapes) ∧
      ¬ ReportedTruly true (placeExit filledPosition gatewayTapes) := by
  refine ⟨rfl, ?_, ?_⟩
  · exact fun h => absurd (h ⟨_, rfl⟩) (by decide)
  · exact fun h => absurd (h ⟨_, rfl⟩) (by decide)

/-- A lost connection on the first poll, in place of the gateway error, is tried
again, and the reports are true. -/
theorem order_reported_iff_lost_connection :
    let tapes : OrderTapes := { gatewayTapes with
      executions := fun
        | 0 => .failed
        | _ => answered (some [filledExecution]) }
    ReportedTruly true (placeEntry filledEntry tapes) ∧
      ReportedTruly true (placeExit filledPosition tapes) := by
  intro tapes
  obtain ⟨hentry, hexit⟩ := order_reported_iff filledEntry filledPosition tapes 1 true rfl
  have hfound : FoundWithin tapes.executions executionPollMaxAttempts 0 filledExecution := by
    refine ⟨1, by decide, rfl, ?_⟩
    intro j hj
    obtain rfl : j = 0 := by omega
    rfl
  exact ⟨hentry.mpr fun _ => ⟨_, hfound, by decide +kernel, _, _, _, rfl, rfl⟩,
    hexit.mpr fun _ => ⟨_, hfound, by decide +kernel, by decide +kernel⟩⟩

end GmoBrokerAdapter

end Luchida
