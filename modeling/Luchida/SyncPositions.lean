import Luchida.OrderReporting

/- SyncPositionsUseCase.ts and AuthFailureCircuitBreaker.ts: each sync asks GMO for the open
   positions and tells the breaker whether it could log in; the breaker blocks new
   entries after `threshold` failures in a row.

   The breaker counts right (`count_reports`). What reaches it is wrong:
   `fetchOpenPositionIds` turns an authentication failure into another error, so no
   sync ever reports one (`sync_never_reports_failure`) and the count stays at zero. -/
namespace Luchida

/-! ## The breaker -/

/-- `AuthAttemptOutcome`. -/
inductive AuthAttemptOutcome where
  | succeeded
  | failed
  deriving DecidableEq, Repr

/-- `EntryAdmission`, with the reason of a block. -/
inductive EntryAdmission where
  | permitted
  | blocked (reason : String)
  deriving DecidableEq, Repr

def EntryAdmission.isBlocked : EntryAdmission → Bool
  | .permitted => false
  | .blocked _ => true

/-- `AuthFailureCircuitBreaker`. The threshold is at least one. -/
structure AuthFailureCircuitBreaker where
  threshold : Nat
  count : Nat
  threshold_pos : 1 ≤ threshold

namespace AuthFailureCircuitBreaker

def new (threshold : Nat) (h : 1 ≤ threshold) : AuthFailureCircuitBreaker := ⟨threshold, 0, h⟩

def report (b : AuthFailureCircuitBreaker) : AuthAttemptOutcome → AuthFailureCircuitBreaker
  | .failed => { b with count := b.count + 1 }
  | .succeeded => { b with count := 0 }

/-- `isOpen`: the count has reached the threshold. -/
def isOpen (b : AuthFailureCircuitBreaker) : Bool := b.threshold ≤ b.count

def admitEntry (b : AuthFailureCircuitBreaker) : EntryAdmission :=
  if b.isOpen then .blocked "連続認証失敗" else .permitted

theorem admitEntry_isBlocked (b : AuthFailureCircuitBreaker) :
    b.admitEntry.isBlocked = true ↔ b.threshold ≤ b.count := by
  by_cases h : b.threshold ≤ b.count <;> simp [admitEntry, isOpen, EntryAdmission.isBlocked, h]

@[simp] theorem report_threshold (b : AuthFailureCircuitBreaker) (outcome : AuthAttemptOutcome) :
    (b.report outcome).threshold = b.threshold := by
  cases outcome <;> rfl

/-- Failures since the last success. -/
def failuresInARow : List AuthAttemptOutcome → Nat
  | [] => 0
  | .failed :: earlier => failuresInARow earlier + 1
  | .succeeded :: _ => 0

/-- The breaker counts the failures since the last success, newest report first. -/
theorem count_reports (threshold : Nat) (h : 1 ≤ threshold) (reports : List AuthAttemptOutcome) :
    (reports.foldr (fun outcome b => b.report outcome) (new threshold h)).count =
      failuresInARow reports := by
  induction reports with
  | nil => rfl
  | cons outcome earlier ih =>
    cases outcome with
    | failed => exact congrArg (· + 1) ih
    | succeeded => rfl

end AuthFailureCircuitBreaker

/-! ## The sync -/

/-- What one sync meets: the OPEN rows of the pair or a failed read, the answers of
GMO, and which `markClosed` calls go through. -/
structure SyncRun where
  dbPositions : Option (List Position)
  tape : Nat → HttpOutcome (Option (List GmoOpenPosition))
  markClosed : PositionId → Bool

/-- `SyncPositionsResult`. -/
structure SyncPositionsResult where
  dbOpen : Nat
  brokerOpen : Nat
  synced : Nat
  deriving DecidableEq

/-- How a sync rejects. -/
inductive SyncError where
  | database
  | broker (error : BrokerError)
  deriving DecidableEq

/-- `OpenPositions.missingFrom`. -/
def missingFrom (positions : List Position) (ids : List PositionId) : List Position :=
  positions.filter fun p => !ids.any fun id => id == p.id

/-- The `markClosed` calls of a sync, up to the first that fails. -/
def markAll (markClosed : PositionId → Bool) : List Position → Except SyncError Nat
  | [] => .ok 0
  | p :: rest =>
    if markClosed p.id then
      match markAll markClosed rest with
      | .error e => .error e
      | .ok synced => .ok (synced + 1)
    else .error .database

/-- `execute`: its result, and the breaker after its report. -/
def SyncRun.execute (run : SyncRun) (breaker : AuthFailureCircuitBreaker) :
    Except SyncError SyncPositionsResult × AuthFailureCircuitBreaker :=
  match run.dbPositions with
  | none => (.error .database, breaker)
  | some dbPositions =>
    match GmoBrokerAdapter.fetchOpenPositionIds run.tape with
    | .error e =>
      if e.isAuthenticationFailure then (.error (.broker e), breaker.report .failed)
      else (.error (.broker e), breaker)
    | .ok brokerIds =>
      -- reported before `markClosed`, whose failures have nothing to do with the key
      let breaker := breaker.report .succeeded
      match markAll run.markClosed (missingFrom dbPositions brokerIds) with
      | .error e => (.error e, breaker)
      | .ok synced => (.ok ⟨dbPositions.length, brokerIds.length, synced⟩, breaker)

/-- The breaker after these syncs, the newest first. -/
def breakerAfter (threshold : Nat) (h : 1 ≤ threshold) (runs : List SyncRun) :
    AuthFailureCircuitBreaker :=
  runs.foldr (fun run b => (run.execute b).2) (.new threshold h)

/-! ## What the syncs met -/

/-- How the requests of a sync ended. -/
inductive FetchEnd where
  | succeeded
  | authenticationFailed
  | otherError
  | notSent
  deriving DecidableEq, Repr

/-- The end of the requests, read off GMO's answers before the adapter translates
its errors. -/
def SyncRun.fetchEnd (run : SyncRun) : FetchEnd :=
  match run.dbPositions with
  | none => .notSent
  | some _ =>
    match GmoBrokerAdapter.fetchAllPages run.tape with
    | .ok _ => .succeeded
    | .error (.request (.api e)) =>
      if e.isAuthenticationFailed then .authenticationFailed else .otherError
    | .error _ => .otherError

/-- The authentication failures after the last fetch that succeeded, the newest sync
first. Other ends neither count nor reset. -/
def failuresSinceSuccess : List SyncRun → Nat
  | [] => 0
  | run :: earlier =>
    match run.fetchEnd with
    | .succeeded => 0
    | .authenticationFailed => failuresSinceSuccess earlier + 1
    | .otherError | .notSent => failuresSinceSuccess earlier

/-- A sync tells the breaker of a success or of nothing, never of a failure. -/
theorem sync_never_reports_failure (run : SyncRun) (breaker : AuthFailureCircuitBreaker) :
    (run.execute breaker).2 = breaker ∨ (run.execute breaker).2 = breaker.report .succeeded := by
  unfold SyncRun.execute
  split
  · exact .inl rfl
  · split
    · rename_i e he
      rw [GmoBrokerAdapter.fetchOpenPositionIds_not_auth he]
      exact .inl rfl
    · dsimp only
      split <;> exact .inr rfl

theorem breakerAfter_count (threshold : Nat) (h : 1 ≤ threshold) (runs : List SyncRun) :
    (breakerAfter threshold h runs).count = 0 ∧
      (breakerAfter threshold h runs).threshold = threshold := by
  induction runs with
  | nil => exact ⟨rfl, rfl⟩
  | cons run earlier ih =>
    simp only [breakerAfter, List.foldr_cons] at ih ⊢
    -- a sync leaves the count or sets it to zero, and it starts at zero
    rcases sync_never_reports_failure run (earlier.foldr _ (.new threshold h)) with heq | heq
    · rw [heq]
      exact ih
    · rw [heq]
      exact ⟨rfl, (AuthFailureCircuitBreaker.report_threshold ..).trans ih.2⟩

/-- The breaker is blocked as it should be, after any syncs, if and only if fewer than
`threshold` of them since the last success ended in an authentication failure. -/
theorem blocked_iff_failures (threshold : Nat) (h : 1 ≤ threshold) (runs : List SyncRun) :
    ((breakerAfter threshold h runs).admitEntry.isBlocked = true ↔
        threshold ≤ failuresSinceSuccess runs) ↔ failuresSinceSuccess runs < threshold := by
  obtain ⟨hcount, hthreshold⟩ := breakerAfter_count threshold h runs
  rw [AuthFailureCircuitBreaker.admitEntry_isBlocked, hcount, hthreshold]
  omega

/-! ## A revoked key -/

/-- A sync with a key that GMO no longer accepts. -/
def revokedKeySync : SyncRun where
  dbPositions := some []
  tape _ := .response ⟨200, "", some ⟨5, none, some [⟨"ERR-5012", "Unauthorized"⟩]⟩⟩
  markClosed _ := true

/-- Three failed logins in a row do not block entries at the threshold of three. -/
theorem revoked_key_not_blocked :
    failuresSinceSuccess [revokedKeySync, revokedKeySync, revokedKeySync] = 3 ∧
      (breakerAfter 3 (by decide)
        [revokedKeySync, revokedKeySync, revokedKeySync]).admitEntry.isBlocked = false := by
  decide

/-- Two of them are below the threshold, where the breaker is right to let entries
through. -/
theorem blocked_iff_failures_two :
    (breakerAfter 3 (by decide) [revokedKeySync, revokedKeySync]).admitEntry.isBlocked = true ↔
      3 ≤ failuresSinceSuccess [revokedKeySync, revokedKeySync] :=
  (blocked_iff_failures 3 (by decide) [revokedKeySync, revokedKeySync]).mpr (by decide)

end Luchida
