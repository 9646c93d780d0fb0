import Luchida.ExitOnce

/- EmergencyCloseAllUseCase.ts on its own: any number of calls of `execute`, one after the
   other or refused, with the broker and the database answering in any order or not at all
   and the timeout firing at any moment. `ExitSystem` follows what this does to the broker
   and the table; here each execution keeps its lists and what it returned.

   A label says what is answered, and to which position of which execution. The answers that
   a run gave to one position (`answersIn`) say where its `closeOne` stands (`closeOne`), and
   the lists of an execution hold just that (`mem_entries_iff`). What an execution returns
   accounts for each of its positions once, as it stood then, and the guard is held by the
   one execution that is not over (`AccountsForAll`). -/
namespace Luchida

open Runs
open scoped List

/-! ## What comes in and what goes out -/

/-- `OpenPositions`. The factory throws on two positions of one id. -/
structure OpenPositions where
  positions : List Position
  nodup : (positions.map (·.id)).Nodup

def OpenPositions.ids (openPositions : OpenPositions) : List PositionId :=
  openPositions.positions.map (·.id)

structure ClosedPositionSummary where
  positionId : PositionId
  exitPrice : Price
  profitLoss : Pips

/-- Where `closeOne` failed. -/
inductive CloseStage where
  | placeExit
  /-- `Position.close` or `update`, after the exit. -/
  | applied
  /-- Anything that the inner handlers do not catch. -/
  | unexpected
  deriving DecidableEq, Repr

/-- An entry of `errors`, with the text of what was caught. -/
structure CloseFailure where
  positionId : PositionId
  stage : CloseStage
  error : String

/-- The text that is pushed. -/
def CloseFailure.message (failure : CloseFailure) : String :=
  failure.positionId.value ++ ": " ++
    match failure.stage with
    | .placeExit => "発注失敗 - " ++ failure.error
    | .applied => "決済成立済み・状態遷移/DB 更新失敗（次回 sync で収束） - " ++ failure.error
    | .unexpected => failure.error

structure EmergencyCloseAllResult where
  total : Nat
  closed : List ClosedPositionSummary
  errors : List CloseFailure
  unresolved : List PositionId

/-- `緊急全決済は既に実行中です（前回の決済注文が完了していません）` -/
structure EmergencyCloseInProgressError where

/-! ## The close of one position -/

/-- One `closeOne` that has not settled. -/
inductive CloseOne where
  | placing (position : Position)
  | updating (closed : ClosedPosition) (exitResult : ExitResult)

def CloseOne.positionId : CloseOne → PositionId
  | .placing position => position.id
  | .updating closed _ => closed.position.id

/-- What a `closeOne` is answered. -/
inductive CloseAnswer where
  | placeExitResolves (exitResult : ExitResult)
  | placeExitRejects (error : String)
  /-- `placeExit` has resolved and the command throws. -/
  | commandThrows (error : String)
  | updateResolves
  | updateRejects (error : String)
  /-- `update` has resolved and the summary throws. -/
  | summaryThrows (error : String)

/-- Where a `closeOne` waits, or what it has pushed. -/
inductive CloseState where
  | waits (task : CloseOne)
  | closed (summary : ClosedPositionSummary)
  | failed (failure : CloseFailure)

def CloseState.positionId : CloseState → PositionId
  | .waits task => task.positionId
  | .closed summary => summary.positionId
  | .failed failure => failure.positionId

/-- `String(err)` of the error of `Position.close`. -/
def alreadyClosedError : String := "Error: 既にクローズ済みのポジションです"

/-- `closeOne` from one of its `await`s to the next, or to its end. -/
def CloseOne.next : CloseOne → CloseAnswer → Option CloseState
  | .placing position, .placeExitResolves exitResult =>
    match ClosedPosition.of? position (ExitSystem.forceClose position.id) exitResult with
    | some closed => some (.waits (.updating closed exitResult))
    | none => some (.failed ⟨position.id, .applied, alreadyClosedError⟩)
  | .placing position, .placeExitRejects error =>
    some (.failed ⟨position.id, .placeExit, error⟩)
  | .placing position, .commandThrows error => some (.failed ⟨position.id, .unexpected, error⟩)
  | .updating closed exitResult, .updateResolves =>
    some (.closed ⟨closed.position.id, exitResult.exitPrice, exitResult.profitLoss⟩)
  | .updating closed _, .updateRejects error =>
    some (.failed ⟨closed.position.id, .applied, error⟩)
  | .updating closed _, .summaryThrows error =>
    some (.failed ⟨closed.position.id, .unexpected, error⟩)
  | _, _ => none

theorem CloseOne.next_id {task : CloseOne} {answer : CloseAnswer} {state : CloseState}
    (h : task.next answer = some state) : state.positionId = task.positionId := by
  unfold next at h
  split at h
  · split at h
    · rename_i closed hclosed
      cases h
      exact ClosedPosition.of?_id hclosed
    · cases h
      rfl
  all_goals cases h
  all_goals rfl

/-- What all the answers to one position come to. -/
def closeOne (position : Position) : List CloseAnswer → Option CloseState
  | [] => some (.waits (.placing position))
  | [.placeExitResolves exitResult] =>
    match ClosedPosition.of? position (ExitSystem.forceClose position.id) exitResult with
    | some closed => some (.waits (.updating closed exitResult))
    | none => some (.failed ⟨position.id, .applied, alreadyClosedError⟩)
  | [.placeExitRejects error] => some (.failed ⟨position.id, .placeExit, error⟩)
  | [.commandThrows error] => some (.failed ⟨position.id, .unexpected, error⟩)
  | [.placeExitResolves exitResult, .updateResolves] =>
    some (.closed ⟨position.id, exitResult.exitPrice, exitResult.profitLoss⟩)
  | [.placeExitResolves _, .updateRejects error] =>
    some (.failed ⟨position.id, .applied, error⟩)
  | [.placeExitResolves _, .summaryThrows error] =>
    some (.failed ⟨position.id, .unexpected, error⟩)
  | _ => none

theorem closeOne_id {position : Position} {answers : List CloseAnswer} {state : CloseState}
    (h : closeOne position answers = some state) : state.positionId = position.id := by
  unfold closeOne at h
  split at h
  · cases h
    rfl
  · split at h
    · rename_i closed hclosed
      cases h
      exact ClosedPosition.of?_id hclosed
    · cases h
      rfl
  all_goals cases h
  all_goals rfl

/-- A `closeOne` waits for its first answer, or for the one to its `update`. -/
theorem closeOne_waits {position : Position} {answers : List CloseAnswer} {task : CloseOne}
    (h : closeOne position answers = some (.waits task)) :
    answers = [] ∧ task = .placing position ∨
      ∃ exitResult closed, answers = [.placeExitResolves exitResult] ∧
        ClosedPosition.of? position (ExitSystem.forceClose position.id) exitResult = some closed ∧
        task = .updating closed exitResult := by
  unfold closeOne at h
  split at h
  · cases h
    exact .inl ⟨rfl, rfl⟩
  · split at h
    · rename_i exitResult closed hclosed
      cases h
      exact .inr ⟨_, _, rfl, hclosed, rfl⟩
    · cases h
  all_goals cases h

/-- One answer more takes it to where the code goes. -/
theorem closeOne_snoc {position : Position} {answers : List CloseAnswer} {task : CloseOne}
    {answer : CloseAnswer} {state : CloseState}
    (h : closeOne position answers = some (.waits task)) (hnext : task.next answer = some state) :
    closeOne position (answers ++ [answer]) = some state := by
  obtain ⟨rfl, rfl⟩ | ⟨exitResult, closed, rfl, hclosed, rfl⟩ := closeOne_waits h
  · cases answer with
    | placeExitResolves | placeExitRejects | commandThrows => exact hnext
    | updateResolves | updateRejects | summaryThrows => cases hnext
  · have hid := ClosedPosition.of?_id hclosed
    cases answer with
    | placeExitResolves | placeExitRejects | commandThrows => cases hnext
    | updateResolves | updateRejects | summaryThrows =>
      simp only [CloseOne.next, hid] at hnext
      exact hnext

/-! ## One execution -/

/-- An execution that has found positions. -/
structure CloseAllRun where
  openPositions : OpenPositions
  tasks : List CloseOne
  closed : List ClosedPositionSummary
  errors : List CloseFailure
  settledIds : List PositionId
  /-- What `execute` has returned. -/
  returned : Option EmergencyCloseAllResult
  /-- The `finally` of `allSettled` has run. -/
  released : Bool

namespace CloseAllRun

/-- `forEach` sends the exit of every position. -/
def start (openPositions : OpenPositions) : CloseAllRun where
  openPositions := openPositions
  tasks := openPositions.positions.map .placing
  closed := []
  errors := []
  settledIds := []
  returned := none
  released := false

/-- The `finally` of `closeOne`. -/
def settle (run : CloseAllRun) (k : Nat) (id : PositionId) : CloseAllRun :=
  { run with
    tasks := run.tasks.eraseIdx k
    settledIds := run.settledIds ++ [id] }

/-- What `closeOne` does to the lists it shares with the others. -/
def put (run : CloseAllRun) (k : Nat) : CloseState → CloseAllRun
  | .waits task => { run with tasks := run.tasks.set k task }
  | .closed summary =>
    { run.settle k summary.positionId with closed := run.closed ++ [summary] }
  | .failed failure =>
    { run.settle k failure.positionId with errors := run.errors ++ [failure] }

/-- The `closeOne` of a position goes on with an answer. -/
def answer (run : CloseAllRun) (id : PositionId) (answer : CloseAnswer) : Option CloseAllRun :=
  match run.tasks.findIdx? (fun task => task.positionId = id) with
  | none => none
  | some k =>
    match run.tasks[k]? with
    | none => none
    | some task => (task.next answer).map (run.put k)

/-- What is returned once the race is over. -/
def result (run : CloseAllRun) : EmergencyCloseAllResult where
  total := run.openPositions.positions.length
  closed := run.closed
  errors := run.errors
  unresolved := run.openPositions.ids.filter (fun id => id ∉ run.settledIds)

/-- The race is over, by `allSettled` or by the timeout. -/
def finishes (run : CloseAllRun) (timeout : Bool) : Option CloseAllRun :=
  if run.returned.isNone ∧ (timeout ∨ run.tasks = []) then
    some { run with returned := some run.result }
  else none

end CloseAllRun

/-! ## The use case -/

inductive CloseAllExecution where
  /-- `openPositions` has not answered. -/
  | reading
  /-- It rejected, and so did `execute`. -/
  | rejected
  /-- It found none. -/
  | empty
  | closing (run : CloseAllRun)

def CloseAllExecution.returned : CloseAllExecution → Option EmergencyCloseAllResult
  | .reading | .rejected => none
  | .empty => some ⟨0, [], [], []⟩
  | .closing run => run.returned

structure EmergencyCloseAllUseCase where
  inFlight : Bool
  executions : List CloseAllExecution

inductive CloseAllLabel where
  | execute
  /-- `none` where the read rejects. -/
  | openPositions (n : Nat) (reply : Option OpenPositions)
  | closeOne (n : Nat) (id : PositionId) (answer : CloseAnswer)
  /-- The `finally` of `allSettled`. It is queued with the last close that settles, before
  anything that comes from outside. -/
  | allSettled (n : Nat)
  | finishes (n : Nat) (timeout : Bool)

namespace EmergencyCloseAllUseCase

def new : EmergencyCloseAllUseCase := ⟨false, []⟩

/-- `execute`, up to its first `await`. -/
def execute (u : EmergencyCloseAllUseCase) :
    Except EmergencyCloseInProgressError EmergencyCloseAllUseCase :=
  if u.inFlight = true then .error ⟨⟩ else .ok ⟨true, u.executions ++ [.reading]⟩

/-- `openPositions` has answered. -/
def positionsRead (u : EmergencyCloseAllUseCase) (n : Nat) (reply : Option OpenPositions) :
    Option EmergencyCloseAllUseCase :=
  match u.executions[n]?, reply with
  | some .reading, none => some ⟨false, u.executions.set n .rejected⟩
  | some .reading, some openPositions =>
    if openPositions.positions = [] then some ⟨false, u.executions.set n .empty⟩
    else some { u with executions := u.executions.set n (.closing (.start openPositions)) }
  | _, _ => none

/-- A step of one execution. -/
def onRun (u : EmergencyCloseAllUseCase) (n : Nat) (f : CloseAllRun → Option CloseAllRun) :
    Option EmergencyCloseAllUseCase :=
  match u.executions[n]? with
  | some (.closing run) =>
    (f run).map fun run' => { u with executions := u.executions.set n (.closing run') }
  | _ => none

/-- The callback that resets `inFlight`. -/
def release (u : EmergencyCloseAllUseCase) (n : Nat) : Option EmergencyCloseAllUseCase :=
  match u.executions[n]? with
  | some (.closing run) =>
    if run.tasks = [] ∧ run.released = false then
      some ⟨false, u.executions.set n (.closing { run with released := true })⟩
    else none
  | _ => none

def step (u : EmergencyCloseAllUseCase) : CloseAllLabel → Option EmergencyCloseAllUseCase
  | .execute =>
    match u.execute with
    | .ok u' => some u'
    | .error _ => some u
  | .openPositions n reply => u.positionsRead n reply
  | .closeOne n id answer => u.onRun n (·.answer id answer)
  | .allSettled n => u.release n
  | .finishes n timeout => u.onRun n (·.finishes timeout)

end EmergencyCloseAllUseCase

/-! ## What the labels of a run say -/

section Labels

variable (past : List (EmergencyCloseAllUseCase × CloseAllLabel)) (n : Nat)

/-- What the read of the `n`th execution answered. -/
def CloseAllLabel.read : CloseAllLabel → Option (Option OpenPositions)
  | .openPositions m reply => if m = n then some reply else none
  | _ => none

/-- What a position of the `n`th execution was answered. -/
def CloseAllLabel.answer (id : PositionId) : CloseAllLabel → Option CloseAnswer
  | .closeOne m id' answer => if m = n ∧ id' = id then some answer else none
  | _ => none

def CloseAllLabel.finishesAt : CloseAllLabel → Bool
  | .finishes m _ => m = n
  | _ => false

def readIn : Option (Option OpenPositions) := past.findSome? (·.2.read n)

/-- The answers to one position, in their order. -/
def answersIn (id : PositionId) : List CloseAnswer := past.reverse.filterMap (·.2.answer n id)

/-- What had happened when the race of the `n`th execution was over. -/
def finishedAt : List (EmergencyCloseAllUseCase × CloseAllLabel) →
    Option (List (EmergencyCloseAllUseCase × CloseAllLabel))
  | [] => none
  | e :: before => if e.2.finishesAt n = true then some before else finishedAt before

/-- The `closeOne` of the position has not settled. -/
def WaitsIn (id : PositionId) : Prop :=
  ∃ openPositions, readIn past n = some (some openPositions) ∧
    ∃ position ∈ openPositions.positions, position.id = id ∧
      ∃ task, closeOne position (answersIn past n id) = some (.waits task)

/-- The `placeExit` of the position has been sent and has not been answered. -/
def InFlightIn (id : PositionId) : Prop :=
  ∃ openPositions, readIn past n = some (some openPositions) ∧ id ∈ openPositions.ids ∧
    answersIn past n id = []

/-- The read has been answered and every `closeOne` has settled. -/
def OverIn : Prop := (readIn past n).isSome = true ∧ ∀ id, ¬ WaitsIn past n id

end Labels

/-- The lists of a result are how every position stood. -/
structure EmergencyCloseAllResult.Reports (r : EmergencyCloseAllResult)
    (past : List (EmergencyCloseAllUseCase × CloseAllLabel)) (n : Nat)
    (openPositions : OpenPositions) : Prop where
  closed : ∀ summary, summary ∈ r.closed ↔ ∃ position ∈ openPositions.positions,
    closeOne position (answersIn past n position.id) = some (.closed summary)
  errors : ∀ failure, failure ∈ r.errors ↔ ∃ position ∈ openPositions.positions,
    closeOne position (answersIn past n position.id) = some (.failed failure)
  unresolved : ∀ id, id ∈ r.unresolved ↔ ∃ position ∈ openPositions.positions,
    position.id = id ∧ ∃ task,
      closeOne position (answersIn past n position.id) = some (.waits task)

/-- Each position is in exactly one of the three lists. -/
structure EmergencyCloseAllResult.AccountsFor (r : EmergencyCloseAllResult)
    (openPositions : OpenPositions) : Prop where
  total : r.total = openPositions.positions.length
  sum : r.total = r.closed.length + r.errors.length + r.unresolved.length
  once : r.closed.map (·.positionId) ++ r.errors.map (·.positionId) ++ r.unresolved ~
    openPositions.ids

/-! ## One execution -/

/-- What an execution keeps whatever is answered: a position has settled or has a task, and
one that has settled is closed or failed. -/
structure CloseAllRun.Sound (run : CloseAllRun) : Prop where
  tasked : run.tasks.map (·.positionId) ++ run.settledIds ~ run.openPositions.ids
  settled : run.closed.map (·.positionId) ++ run.errors.map (·.positionId) ~ run.settledIds
  released : run.released = true → run.tasks = []

namespace CloseAllRun

variable {run run' : CloseAllRun} {k : Nat} {task : CloseOne} {state e : CloseState}

/-- Where the positions of an execution stand. -/
def entries (run : CloseAllRun) : List CloseState :=
  run.tasks.map .waits ++ run.closed.map .closed ++ run.errors.map .failed

@[simp] theorem waits_mem_entries : .waits task ∈ run.entries ↔ task ∈ run.tasks := by
  simp [entries]

@[simp] theorem closed_mem_entries {summary : ClosedPositionSummary} :
    .closed summary ∈ run.entries ↔ summary ∈ run.closed := by
  simp [entries]

@[simp] theorem failed_mem_entries {failure : CloseFailure} :
    .failed failure ∈ run.entries ↔ failure ∈ run.errors := by
  simp [entries]

/-- An answer finds the task of its position, and takes it on. -/
theorem answer_eq_some {id : PositionId} {a : CloseAnswer} (h : run.answer id a = some run') :
    ∃ k task state, run.tasks[k]? = some task ∧ task.positionId = id ∧
      task.next a = some state ∧ run' = run.put k state := by
  unfold answer at h
  split at h
  · cases h
  · rename_i k hk
    split at h
    · cases h
    · rename_i task htask
      obtain ⟨state, hstate, rfl⟩ := Option.map_eq_some_iff.mp h
      obtain ⟨hlt, hid, -⟩ := List.findIdx?_eq_some_iff_getElem.mp hk
      rw [List.getElem?_eq_getElem hlt] at htask
      cases htask
      exact ⟨k, _, state, List.getElem?_eq_getElem hlt, of_decide_eq_true hid, hstate, rfl⟩

theorem finishes_eq_some {timeout : Bool} (h : run.finishes timeout = some run') :
    run.returned = none ∧ run' = { run with returned := some run.result } := by
  unfold finishes at h
  split at h
  · rename_i hopen
    cases h
    exact ⟨Option.isNone_iff_eq_none.mp hopen.1, rfl⟩
  · cases h

@[simp] theorem put_openPositions : (run.put k state).openPositions = run.openPositions := by
  cases state <;> rfl

@[simp] theorem put_returned : (run.put k state).returned = run.returned := by
  cases state <;> rfl

@[simp] theorem put_released : (run.put k state).released = run.released := by
  cases state <;> rfl

theorem sound_start (openPositions : OpenPositions) : (start openPositions).Sound where
  tasked := by
    simp only [start, List.map_map, List.append_nil]
    exact .refl _
  settled := .refl _
  released := by simp [start]

/-- A task that settles takes its position over to the settled ones. -/
theorem tasked_settle (h : run.Sound) (htask : run.tasks[k]? = some task) :
    (run.tasks.eraseIdx k).map (·.positionId) ++ (run.settledIds ++ [task.positionId]) ~
      run.openPositions.ids := by
  obtain ⟨hk, rfl⟩ := List.getElem?_eq_some_iff.mp htask
  have herase : (run.tasks[k] :: run.tasks.eraseIdx k).map (·.positionId) ~
      run.tasks.map (·.positionId) := (List.getElem_cons_eraseIdx_perm hk).map _
  calc (run.tasks.eraseIdx k).map (·.positionId) ++ (run.settledIds ++ [run.tasks[k].positionId])
      ~ run.tasks[k].positionId ::
        ((run.tasks.eraseIdx k).map (·.positionId) ++ run.settledIds) := by
        rw [← List.append_assoc]
        exact List.perm_append_singleton ..
    _ ~ run.tasks.map (·.positionId) ++ run.settledIds := herase.append_right _
    _ ~ run.openPositions.ids := h.tasked

theorem Sound.put (h : run.Sound) (htask : run.tasks[k]? = some task)
    (hid : state.positionId = task.positionId) : (run.put k state).Sound := by
  obtain ⟨hk, hget⟩ := List.getElem?_eq_some_iff.mp htask
  have hreleased : ∀ tasks : List CloseOne, run.released = true → tasks = [] := by
    intro tasks hreleased
    rw [h.released hreleased] at htask
    cases htask
  cases state with
  | waits task' =>
    have hsame : (run.tasks.set k task').map (·.positionId) = run.tasks.map (·.positionId) := by
      have hid' : task'.positionId = run.tasks[k].positionId := by
        rw [hget]
        exact hid
      rw [List.map_set, hid', ← List.getElem_map CloseOne.positionId, List.set_getElem_self]
      rwa [List.length_map]
    refine ⟨?_, h.settled, hreleased _⟩
    show (run.tasks.set k task').map _ ++ _ ~ _
    rw [hsame]
    exact h.tasked
  | closed summary =>
    refine ⟨?_, ?_, hreleased _⟩
    · have htasked := tasked_settle h htask
      rw [← hid] at htasked
      exact htasked
    · refine List.Perm.trans ?_ (h.settled.append_right [summary.positionId])
      simp only [CloseAllRun.put, List.map_append, List.map_cons, List.map_nil, List.append_assoc]
      exact List.perm_append_comm.append_left _
  | failed failure =>
    refine ⟨?_, ?_, hreleased _⟩
    · have htasked := tasked_settle h htask
      rw [← hid] at htasked
      exact htasked
    · refine List.Perm.trans ?_ (h.settled.append_right [failure.positionId])
      simp [CloseAllRun.put, settle, CloseAllRun.settle]

/-- The position that was answered is where the answer took it. -/
theorem mem_put (htask : run.tasks[k]? = some task) : state ∈ (run.put k state).entries := by
  obtain ⟨hk, -⟩ := List.getElem?_eq_some_iff.mp htask
  cases state with
  | waits task' => exact waits_mem_entries.mpr (List.mem_set hk task')
  | closed summary => exact closed_mem_entries.mpr (List.mem_append_right _ (by simp))
  | failed failure => exact failed_mem_entries.mpr (List.mem_append_right _ (by simp))

/-- The others are where they were. -/
theorem mem_put_of_ne (htask : run.tasks[k]? = some task) (he : e ∈ run.entries)
    (hne : e.positionId ≠ task.positionId) : e ∈ (run.put k state).entries := by
  cases e with
  | waits other =>
    obtain ⟨i, hi⟩ := List.getElem?_of_mem (waits_mem_entries.mp he)
    have hik : i ≠ k := by
      rintro rfl
      cases hi.symm.trans htask
      exact hne rfl
    refine waits_mem_entries.mpr ?_
    cases state with
    | waits task' =>
      exact List.mem_of_getElem? ((List.getElem?_set_ne hik.symm).trans hi)
    | closed | failed => exact List.mem_eraseIdx_iff_getElem?.mpr ⟨i, hik, hi⟩
  | closed summary =>
    refine closed_mem_entries.mpr ?_
    have hmem := closed_mem_entries.mp he
    cases state with
    | closed => exact List.mem_append_left _ hmem
    | waits | failed => exact hmem
  | failed failure =>
    refine failed_mem_entries.mpr ?_
    have hmem := failed_mem_entries.mp he
    cases state with
    | failed => exact List.mem_append_left _ hmem
    | waits | closed => exact hmem

/-- Every position stands somewhere, once. -/
theorem Sound.entries_perm (h : run.Sound) :
    run.entries.map (·.positionId) ~ run.openPositions.ids := by
  have hsplit : run.entries.map (·.positionId) = run.tasks.map (·.positionId) ++
      (run.closed.map (·.positionId) ++ run.errors.map (·.positionId)) := by
    simp [entries, CloseState.positionId, Function.comp_def]
  rw [hsplit]
  exact (h.settled.append_left _).trans h.tasked

theorem Sound.eq_of_id (h : run.Sound) {e' : CloseState} (he : e ∈ run.entries)
    (he' : e' ∈ run.entries) (hid : e.positionId = e'.positionId) : e = e' :=
  List.inj_on_of_nodup_map (h.entries_perm.nodup_iff.mpr run.openPositions.nodup) he he' hid

/-- No position settles twice, so what has not settled is the rest. -/
theorem Sound.result (h : run.Sound) : run.result.AccountsFor run.openPositions := by
  have hnodup : (run.tasks.map (·.positionId) ++ run.settledIds).Nodup :=
    h.tasked.nodup_iff.mpr run.openPositions.nodup
  have hsettled : run.settledIds ~
      run.openPositions.ids.filter (fun id => id ∈ run.settledIds) := by
    refine (List.perm_ext_iff_of_nodup (List.nodup_append'.mp hnodup).2.1
      (run.openPositions.nodup.filter _)).mpr fun id => ?_
    rw [List.mem_filter, decide_eq_true_eq]
    exact ⟨fun hid => ⟨h.tasked.subset (List.mem_append_right _ hid), hid⟩, And.right⟩
  have honce : run.closed.map (·.positionId) ++ run.errors.map (·.positionId) ++
      run.openPositions.ids.filter (fun id => id ∉ run.settledIds) ~ run.openPositions.ids := by
    refine ((h.settled.trans hsettled).append_right _).trans ?_
    simpa using List.filter_append_perm (fun id => decide (id ∈ run.settledIds))
      run.openPositions.ids
  refine ⟨rfl, ?_, honce⟩
  have hlength := honce.length_eq
  simp only [List.length_append, List.length_map, OpenPositions.ids] at hlength
  simp only [CloseAllRun.result, OpenPositions.ids]
  omega

/-- A position that has not settled has a task. -/
theorem Sound.mem_unresolved_iff (h : run.Sound) {id : PositionId} :
    id ∈ run.result.unresolved ↔ ∃ task ∈ run.tasks, task.positionId = id := by
  have hnodup : (run.tasks.map (·.positionId) ++ run.settledIds).Nodup :=
    h.tasked.nodup_iff.mpr run.openPositions.nodup
  have hapart := (List.nodup_append'.mp hnodup).2.2
  simp only [CloseAllRun.result, List.mem_filter, decide_eq_true_eq]
  constructor
  · rintro ⟨hid, hout⟩
    rcases List.mem_append.mp (h.tasked.mem_iff.mpr hid) with htask | hsettled
    · exact List.mem_map.mp htask
    · exact absurd hsettled hout
  · rintro ⟨task, htask, rfl⟩
    have hmem : task.positionId ∈ run.tasks.map (·.positionId) := List.mem_map_of_mem htask
    exact ⟨h.tasked.subset (List.mem_append_left _ hmem), fun hout => hapart hmem hout⟩

end CloseAllRun

/-! ## An execution and its labels -/

section Told

variable {past : List (EmergencyCloseAllUseCase × CloseAllLabel)} {n : Nat}
  {u : EmergencyCloseAllUseCase} {a : CloseAllLabel} {run : CloseAllRun}

theorem readIn_cons : readIn ((u, a) :: past) n = (a.read n).or (readIn past n) := by
  unfold readIn
  rw [List.findSome?_cons]
  cases a.read n <;> rfl

theorem answersIn_cons (id : PositionId) :
    answersIn ((u, a) :: past) n id = answersIn past n id ++ (a.answer n id).toList := by
  unfold answersIn
  rw [List.reverse_cons, List.filterMap_append]
  cases h : a.answer n id <;> simp [h]

theorem readIn_openPositions {reply : Option OpenPositions} :
    readIn ((u, .openPositions n reply) :: past) n = some reply := by
  simp [readIn_cons, CloseAllLabel.read]

/-- Every position stands where its answers took it. -/
def Reported (past : List (EmergencyCloseAllUseCase × CloseAllLabel)) (n : Nat)
    (run : CloseAllRun) : Prop :=
  ∀ position ∈ run.openPositions.positions, ∃ state ∈ run.entries,
    closeOne position (answersIn past n position.id) = some state

theorem reported_start {openPositions : OpenPositions}
    (h : ∀ id, answersIn past n id = []) : Reported past n (.start openPositions) := by
  intro position hposition
  refine ⟨.waits (.placing position), ?_, by rw [h]; rfl⟩
  exact CloseAllRun.waits_mem_entries.mpr (List.mem_map_of_mem hposition)

/-- The answers say where each position stands, and nothing stands elsewhere. -/
theorem Reported.mem_entries_iff (h : Reported past n run) (hsound : run.Sound)
    {state : CloseState} : state ∈ run.entries ↔ ∃ position ∈ run.openPositions.positions,
      closeOne position (answersIn past n position.id) = some state := by
  constructor
  · intro hstate
    have hid : state.positionId ∈ run.openPositions.ids :=
      hsound.entries_perm.subset (List.mem_map_of_mem hstate)
    obtain ⟨position, hposition, hpositionId⟩ := List.mem_map.mp hid
    obtain ⟨state', hstate', hcloseOne⟩ := h position hposition
    have hsame : state' = state := hsound.eq_of_id hstate' hstate
      ((closeOne_id hcloseOne).trans hpositionId)
    exact ⟨position, hposition, hsame ▸ hcloseOne⟩
  · rintro ⟨position, hposition, hcloseOne⟩
    obtain ⟨state', hstate', hcloseOne'⟩ := h position hposition
    cases hcloseOne'.symm.trans hcloseOne
    exact hstate'

/-- What is returned at the end of the race is how every position stands then. -/
theorem Reported.reports (h : Reported past n run) (hsound : run.Sound) :
    run.result.Reports past n run.openPositions where
  closed summary := by
    rw [← h.mem_entries_iff hsound]
    exact CloseAllRun.closed_mem_entries.symm
  errors failure := by
    rw [← h.mem_entries_iff hsound]
    exact CloseAllRun.failed_mem_entries.symm
  unresolved id := by
    rw [hsound.mem_unresolved_iff]
    constructor
    · rintro ⟨task, htask, rfl⟩
      obtain ⟨position, hposition, hcloseOne⟩ :=
        (h.mem_entries_iff hsound).mp (CloseAllRun.waits_mem_entries.mpr htask)
      exact ⟨position, hposition, (closeOne_id hcloseOne).symm, task, hcloseOne⟩
    · rintro ⟨position, hposition, rfl, task, hcloseOne⟩
      exact ⟨task, CloseAllRun.waits_mem_entries.mp
        ((h.mem_entries_iff hsound).mpr ⟨position, hposition, hcloseOne⟩), closeOne_id hcloseOne⟩

/-- An answer takes one position on, and leaves the others. -/
theorem Reported.answer (h : Reported past n run) (hsound : run.Sound) {id : PositionId}
    {answer : CloseAnswer} {run' : CloseAllRun} (hanswer : run.answer id answer = some run') :
    run'.Sound ∧ Reported ((u, .closeOne n id answer) :: past) n run' := by
  obtain ⟨k, task, state, htask, rfl, hnext, rfl⟩ := CloseAllRun.answer_eq_some hanswer
  refine ⟨hsound.put htask (CloseOne.next_id hnext), ?_⟩
  intro position hposition
  rw [CloseAllRun.put_openPositions] at hposition
  obtain ⟨state', hstate', hcloseOne⟩ := h position hposition
  rw [answersIn_cons]
  by_cases hid : task.positionId = position.id
  · have hsame : .waits task = state' :=
      hsound.eq_of_id (CloseAllRun.waits_mem_entries.mpr (List.mem_of_getElem? htask)) hstate'
        (hid.trans (closeOne_id hcloseOne).symm)
    have hlabel : (CloseAllLabel.closeOne n task.positionId answer).answer n position.id =
        some answer := if_pos ⟨rfl, hid⟩
    rw [← hsame] at hcloseOne
    rw [hlabel]
    exact ⟨state, CloseAllRun.mem_put htask, closeOne_snoc hcloseOne hnext⟩
  · have hlabel : (CloseAllLabel.closeOne n task.positionId answer).answer n position.id = none :=
      if_neg fun hboth => hid hboth.2
    rw [hlabel, Option.toList_none, List.append_nil]
    refine ⟨state', CloseAllRun.mem_put_of_ne htask hstate' ?_, hcloseOne⟩
    rw [closeOne_id hcloseOne]
    exact fun heq => hid heq.symm

/-- What an execution has returned is what it had at the end of its race. -/
inductive Returned (past : List (EmergencyCloseAllUseCase × CloseAllLabel)) (n : Nat)
    (run : CloseAllRun) : Prop
  | races : finishedAt n past = none → run.returned = none → Returned past n run
  | finished {before : List (EmergencyCloseAllUseCase × CloseAllLabel)}
      {r : EmergencyCloseAllResult} : finishedAt n past = some before → run.returned = some r →
      r.AccountsFor run.openPositions → r.Reports before n run.openPositions → Returned past n run

/-- What the labels of a run say of its `n`th execution. -/
def Told (past : List (EmergencyCloseAllUseCase × CloseAllLabel)) (n : Nat) :
    Option CloseAllExecution → Prop
  | none | some .reading =>
    readIn past n = none ∧ (∀ id, answersIn past n id = []) ∧ finishedAt n past = none
  | some .rejected => readIn past n = some none ∧ finishedAt n past = none
  | some .empty => (∃ openPositions, readIn past n = some (some openPositions) ∧
      openPositions.positions = []) ∧ finishedAt n past = none
  | some (.closing run) => readIn past n = some (some run.openPositions) ∧
      run.openPositions.positions ≠ [] ∧ Reported past n run ∧ Returned past n run

/-- A label that is not of the execution. -/
structure CloseAllLabel.Apart (a : CloseAllLabel) (n : Nat) : Prop where
  read : a.read n = none
  answer : ∀ id, a.answer n id = none
  finishesAt : a.finishesAt n = false

theorem CloseAllLabel.Apart.readIn_eq (h : a.Apart n) :
    readIn ((u, a) :: past) n = readIn past n := by
  rw [readIn_cons, h.read, Option.none_or]

theorem CloseAllLabel.Apart.answersIn_eq (h : a.Apart n) (id : PositionId) :
    answersIn ((u, a) :: past) n id = answersIn past n id := by
  rw [answersIn_cons, h.answer, Option.toList_none, List.append_nil]

theorem CloseAllLabel.Apart.finishedAt_eq (h : a.Apart n) :
    finishedAt n ((u, a) :: past) = finishedAt n past := by
  simp [finishedAt, h.finishesAt]

theorem Returned.congr {past' : List (EmergencyCloseAllUseCase × CloseAllLabel)}
    {run' : CloseAllRun} (h : Returned past n run)
    (hfinished : finishedAt n past' = finishedAt n past)
    (hreturned : run'.returned = run.returned) (hopen : run'.openPositions = run.openPositions) :
    Returned past' n run' := by
  cases h with
  | races hnone hnothing => exact .races (hfinished.trans hnone) (hreturned.trans hnothing)
  | finished hbefore hr haccounts hreports =>
    refine .finished (hfinished.trans hbefore) (hreturned.trans hr) ?_ ?_
    · rw [hopen]
      exact haccounts
    · rw [hopen]
      exact hreports

theorem Told.apart {e : Option CloseAllExecution} (h : Told past n e) (ha : a.Apart n) :
    Told ((u, a) :: past) n e := by
  match e, h with
  | none, h | some .reading, h =>
    exact ⟨ha.readIn_eq.trans h.1, fun id => (ha.answersIn_eq id).trans (h.2.1 id),
      ha.finishedAt_eq.trans h.2.2⟩
  | some .rejected, h => exact ⟨ha.readIn_eq.trans h.1, ha.finishedAt_eq.trans h.2⟩
  | some .empty, ⟨⟨openPositions, hread, hnil⟩, hfinished⟩ =>
    exact ⟨⟨openPositions, ha.readIn_eq.trans hread, hnil⟩, ha.finishedAt_eq.trans hfinished⟩
  | some (.closing run), ⟨hread, hne, hreported, hreturned⟩ =>
    refine ⟨ha.readIn_eq.trans hread, hne, fun position hposition => ?_,
      hreturned.congr ha.finishedAt_eq rfl rfl⟩
    rw [ha.answersIn_eq]
    exact hreported position hposition

end Told

/-! ## Any number of executions -/

/-- The execution holds the guard. -/
def CloseAllExecution.busy : CloseAllExecution → Bool
  | .reading => true
  | .rejected | .empty => false
  | .closing run => !run.released

theorem countP_set_add {α : Type*} {p : α → Bool} {l : List α} {k : Nat} {a b : α}
    (h : l[k]? = some b) :
    (l.set k a).countP p + (p b).toNat = l.countP p + (p a).toNat := by
  obtain ⟨hk, rfl⟩ := List.getElem?_eq_some_iff.mp h
  have hset := (List.set_perm_cons_eraseIdx hk a).countP_eq p
  have hget := (List.getElem_cons_eraseIdx_perm hk).countP_eq p
  rw [List.countP_cons] at hset hget
  cases hb : p l[k] <;> cases ha : p a <;> simp [hb, ha] at hset hget ⊢ <;> omega

namespace EmergencyCloseAllUseCase

variable {past : List (EmergencyCloseAllUseCase × CloseAllLabel)}
  {u u' : EmergencyCloseAllUseCase} {n m : Nat} {id : PositionId}

/-- What every run keeps: the executions account for their positions as their answers say,
and one of them holds the guard while it is held. -/
structure Sound (past : List (EmergencyCloseAllUseCase × CloseAllLabel))
    (u : EmergencyCloseAllUseCase) : Prop where
  runs : ∀ run, .closing run ∈ u.executions → run.Sound
  guard : u.executions.countP (·.busy) = u.inFlight.toNat
  told : ∀ n, Told past n u.executions[n]?

/-- What a step does. -/
inductive Steps (u : EmergencyCloseAllUseCase) : CloseAllLabel → EmergencyCloseAllUseCase → Prop
  | executed : u.inFlight = false → Steps u .execute ⟨true, u.executions ++ [.reading]⟩
  | refused : u.inFlight = true → Steps u .execute u
  | rejected {n : Nat} : u.executions[n]? = some .reading →
      Steps u (.openPositions n none) ⟨false, u.executions.set n .rejected⟩
  | empty {n : Nat} {openPositions : OpenPositions} : u.executions[n]? = some .reading →
      openPositions.positions = [] →
      Steps u (.openPositions n (some openPositions)) ⟨false, u.executions.set n .empty⟩
  | found {n : Nat} {openPositions : OpenPositions} : u.executions[n]? = some .reading →
      openPositions.positions ≠ [] → Steps u (.openPositions n (some openPositions))
        { u with executions := u.executions.set n (.closing (.start openPositions)) }
  | answered {n : Nat} {id : PositionId} {answer : CloseAnswer} {run run' : CloseAllRun} :
      u.executions[n]? = some (.closing run) → run.answer id answer = some run' →
      Steps u (.closeOne n id answer) { u with executions := u.executions.set n (.closing run') }
  | finished {n : Nat} {timeout : Bool} {run : CloseAllRun} :
      u.executions[n]? = some (.closing run) → run.returned = none →
      Steps u (.finishes n timeout) { u with
        executions := u.executions.set n (.closing { run with returned := some run.result }) }
  | released {n : Nat} {run : CloseAllRun} : u.executions[n]? = some (.closing run) →
      run.tasks = [] → run.released = false → Steps u (.allSettled n)
        ⟨false, u.executions.set n (.closing { run with released := true })⟩

theorem onRun_eq_some {f : CloseAllRun → Option CloseAllRun} (h : u.onRun n f = some u') :
    ∃ run run', u.executions[n]? = some (.closing run) ∧ f run = some run' ∧
      u' = { u with executions := u.executions.set n (.closing run') } := by
  unfold onRun at h
  split at h
  · rename_i run hrun
    obtain ⟨run', hrun', rfl⟩ := Option.map_eq_some_iff.mp h
    exact ⟨run, run', hrun, hrun', rfl⟩
  · cases h

theorem step_steps {a : CloseAllLabel} (h : u.step a = some u') : u.Steps a u' := by
  cases a with
  | execute =>
    simp only [step, execute] at h
    split at h
    · rename_i u₁ hu₁
      split at hu₁
      · cases hu₁
      · rename_i hfree
        cases hu₁
        cases h
        exact .executed (by simpa using hfree)
    · rename_i hu₁
      split at hu₁
      · rename_i hheld
        cases h
        exact .refused hheld
      · cases hu₁
  | openPositions n reply =>
    simp only [step, positionsRead] at h
    split at h
    · rename_i hreading
      cases h
      exact .rejected hreading
    · rename_i openPositions hreading
      split at h
      · rename_i hnil
        cases h
        exact .empty hreading hnil
      · rename_i hne
        cases h
        exact .found hreading hne
    · cases h
  | closeOne n id answer =>
    obtain ⟨run, run', hrun, hanswer, rfl⟩ := onRun_eq_some h
    exact .answered hrun hanswer
  | allSettled n =>
    simp only [step, release] at h
    split at h
    · rename_i run hrun
      split at h
      · rename_i hdue
        cases h
        exact .released hrun hdue.1 hdue.2
      · cases h
    · cases h
  | finishes n timeout =>
    obtain ⟨run, run', hrun, hfinishes, rfl⟩ := onRun_eq_some h
    obtain ⟨hnone, rfl⟩ := CloseAllRun.finishes_eq_some hfinishes
    exact .finished hrun hnone

theorem sound_new : Sound [] new :=
  ⟨by simp [new], rfl, fun n => ⟨rfl, fun _ => rfl, rfl⟩⟩

theorem Sound.runs_set {e : CloseAllExecution} (h : Sound past u)
    (he : ∀ run, e = .closing run → run.Sound) :
    ∀ run, .closing run ∈ u.executions.set n e → run.Sound := by
  intro run hmem
  rcases List.mem_or_eq_of_mem_set hmem with hmem | heq
  · exact h.runs run hmem
  · exact he run heq.symm

/-- The labels say of the other executions what they said before. -/
theorem Sound.told_set {a : CloseAllLabel} {e e' : CloseAllExecution} (h : Sound past u)
    (hn : u.executions[n]? = some e) (ha : ∀ m, m ≠ n → a.Apart m)
    (htold : Told ((u, a) :: past) n (some e')) :
    ∀ m, Told ((u, a) :: past) m (u.executions.set n e')[m]? := by
  intro m
  by_cases hm : m = n
  · subst hm
    rw [List.getElem?_set_self (List.getElem?_eq_some_iff.mp hn).1]
    exact htold
  · rw [List.getElem?_set_ne fun heq => hm heq.symm]
    exact (h.told m).apart (ha m hm)

/-- A busy execution holds the guard. -/
theorem Sound.held {e : CloseAllExecution} (h : Sound past u) (he : e ∈ u.executions)
    (hbusy : e.busy = true) : u.inFlight = true := by
  have hpos := List.countP_pos_iff.mpr ⟨e, he, hbusy⟩
  rw [h.guard] at hpos
  cases hguard : u.inFlight with
  | true => rfl
  | false =>
    rw [hguard] at hpos
    exact absurd hpos (Nat.lt_irrefl 0)

/-- No two executions are busy. -/
theorem Sound.busy_unique {e e' : CloseAllExecution} (h : Sound past u)
    (hn : u.executions[n]? = some e) (hm : u.executions[m]? = some e') (he : e.busy = true)
    (he' : e'.busy = true) : n = m := by
  by_contra hne
  have hcount := countP_set_add (p := (·.busy)) (a := .rejected) hn
  have hle : u.executions.countP (·.busy) ≤ 1 := h.guard ▸ Bool.toNat_le _
  have hother : (u.executions.set n .rejected)[m]? = some e' := by
    rw [List.getElem?_set_ne hne]
    exact hm
  have hpos : 0 < (u.executions.set n .rejected).countP (·.busy) :=
    List.countP_pos_iff.mpr ⟨e', List.mem_of_getElem? hother, he'⟩
  rw [he, Bool.toNat_true, show (CloseAllExecution.rejected).busy = false from rfl,
    Bool.toNat_false] at hcount
  omega

theorem apart_openPositions {reply : Option OpenPositions} (hne : m ≠ n) :
    (CloseAllLabel.openPositions n reply).Apart m :=
  ⟨if_neg hne.symm, fun _ => rfl, rfl⟩

theorem Sound.reading (h : Sound past u) (hn : u.executions[n]? = some .reading) :
    readIn past n = none ∧ (∀ id, answersIn past n id = []) ∧ finishedAt n past = none := by
  have htold := h.told n
  rw [hn] at htold
  exact htold

theorem Sound.closing {run : CloseAllRun} (h : Sound past u)
    (hn : u.executions[n]? = some (.closing run)) :
    run.Sound ∧ readIn past n = some (some run.openPositions) ∧
      run.openPositions.positions ≠ [] ∧ Reported past n run ∧ Returned past n run := by
  have htold := h.told n
  rw [hn] at htold
  exact ⟨h.runs run (List.mem_of_getElem? hn), htold⟩

theorem Sound.steps {a : CloseAllLabel} (h : Sound past u) (hstep : u.Steps a u') :
    Sound ((u, a) :: past) u' := by
  cases hstep with
  | executed hfree =>
    have hguard := h.guard
    rw [hfree] at hguard
    have hapart : ∀ n, (CloseAllLabel.execute).Apart n := fun n => ⟨rfl, fun _ => rfl, rfl⟩
    refine ⟨fun run hmem => ?_, ?_, fun n => ?_⟩
    · rcases List.mem_append.mp hmem with hmem | hmem
      · exact h.runs run hmem
      · cases List.mem_singleton.mp hmem
    · rw [List.countP_append, hguard]
      rfl
    · have htold := (h.told n).apart (u := u) (hapart n)
      rcases lt_trichotomy n u.executions.length with hlt | heq | hgt
      · rw [List.getElem?_append_left hlt]
        exact htold
      · subst heq
        rw [List.getElem?_eq_none le_rfl] at htold
        rw [List.getElem?_append_right le_rfl, Nat.sub_self]
        exact htold
      · rw [List.getElem?_eq_none (Nat.le_of_lt hgt)] at htold
        rw [List.getElem?_eq_none (by simpa using Nat.succ_le_of_lt hgt)]
        exact htold
  | refused =>
    exact ⟨h.runs, h.guard, fun n => (h.told n).apart ⟨rfl, fun _ => rfl, rfl⟩⟩
  | @rejected n hreading =>
    have hheld := h.held (List.mem_of_getElem? hreading) rfl
    have hcount := countP_set_add (p := (·.busy)) (a := .rejected) hreading
    obtain ⟨-, -, hfinished⟩ := h.reading hreading
    rw [h.guard, hheld] at hcount
    refine ⟨h.runs_set (by simp), by simpa [CloseAllExecution.busy] using hcount,
      h.told_set hreading (fun m hm => apart_openPositions hm) ⟨readIn_openPositions, hfinished⟩⟩
  | @empty n openPositions hreading hnil =>
    have hheld := h.held (List.mem_of_getElem? hreading) rfl
    have hcount := countP_set_add (p := (·.busy)) (a := .empty) hreading
    obtain ⟨-, -, hfinished⟩ := h.reading hreading
    rw [h.guard, hheld] at hcount
    exact ⟨h.runs_set (by simp), by simpa [CloseAllExecution.busy] using hcount,
      h.told_set hreading (fun m hm => apart_openPositions hm)
        ⟨⟨openPositions, readIn_openPositions, hnil⟩, hfinished⟩⟩
  | @found n openPositions hreading hne =>
    have hcount := countP_set_add (p := (·.busy))
      (a := .closing (CloseAllRun.start openPositions)) hreading
    obtain ⟨-, hanswers, hfinished⟩ := h.reading hreading
    refine ⟨h.runs_set fun run heq => ?_, ?_, h.told_set hreading
      (fun m hm => apart_openPositions hm) ⟨readIn_openPositions, hne,
        reported_start fun id => ?_, .races hfinished rfl⟩⟩
    · cases heq
      exact CloseAllRun.sound_start openPositions
    · rw [← h.guard]
      simpa [CloseAllExecution.busy, CloseAllRun.start] using hcount
    · rw [answersIn_cons, hanswers]
      rfl
  | @answered n id answer run run' hrun hanswer =>
    obtain ⟨hsound, hread, hne, hreported, hreturned⟩ := h.closing hrun
    obtain ⟨hsound', hreported'⟩ := hreported.answer (u := u) hsound hanswer
    have hcount := countP_set_add (p := (·.busy)) (a := .closing run') hrun
    obtain ⟨k, task, state, -, -, -, rfl⟩ := CloseAllRun.answer_eq_some hanswer
    refine ⟨h.runs_set fun run₁ heq => ?_, ?_, h.told_set hrun (fun m hm =>
      ⟨rfl, fun id' => if_neg fun hboth => hm hboth.1.symm, rfl⟩) ⟨?_, ?_, hreported',
        hreturned.congr rfl CloseAllRun.put_returned CloseAllRun.put_openPositions⟩⟩
    · cases heq
      exact hsound'
    · rw [← h.guard]
      simpa [CloseAllExecution.busy] using hcount
    · rw [readIn_cons, CloseAllRun.put_openPositions]
      exact hread
    · rw [CloseAllRun.put_openPositions]
      exact hne
  | @finished n timeout run hrun hnone =>
    obtain ⟨hsound, hread, hne, hreported, -⟩ := h.closing hrun
    have hcount := countP_set_add (p := (·.busy))
      (a := .closing { run with returned := some run.result }) hrun
    refine ⟨h.runs_set fun run₁ heq => ?_, ?_, h.told_set hrun (fun m hm =>
      ⟨rfl, fun _ => rfl, decide_eq_false fun heq => hm heq.symm⟩) ⟨?_, hne,
        fun position hposition => ?_, .finished ?_ rfl hsound.result
          (hreported.reports hsound)⟩⟩
    · cases heq
      exact ⟨hsound.tasked, hsound.settled, hsound.released⟩
    · rw [← h.guard]
      simpa [CloseAllExecution.busy] using hcount
    · rw [readIn_cons]
      exact hread
    · rw [answersIn_cons, show (CloseAllLabel.finishes n timeout).answer n position.id = none from
        rfl, Option.toList_none, List.append_nil]
      exact hreported position hposition
    · simp [finishedAt, CloseAllLabel.finishesAt]
  | @released n run hrun htasks hreleased =>
    obtain ⟨hsound, htold⟩ := h.closing hrun
    have hheld := h.held (List.mem_of_getElem? hrun) (by simp [CloseAllExecution.busy, hreleased])
    have hcount := countP_set_add (p := (·.busy))
      (a := .closing { run with released := true }) hrun
    rw [h.guard, hheld] at hcount
    have hapart : ∀ m, (CloseAllLabel.allSettled n).Apart m := fun m => ⟨rfl, fun _ => rfl, rfl⟩
    have htold' : Told ((u, .allSettled n) :: past) n (some (.closing run)) :=
      Told.apart htold (hapart n)
    obtain ⟨hread, hne, hreported, hreturned⟩ := htold'
    refine ⟨h.runs_set fun run₁ heq => ?_, ?_, h.told_set hrun (fun m _ => hapart m)
      ⟨hread, hne, hreported, hreturned.congr rfl rfl rfl⟩⟩
    · cases heq
      exact ⟨hsound.tasked, hsound.settled, fun _ => htasks⟩
    · simpa [CloseAllExecution.busy, hreleased] using hcount

theorem sound_of_passes (h : Passes step (fun _ _ => True) new past u) : Sound past u :=
  h.invariant sound_new fun _ _ _ _ hs _ hstep => hs.steps (step_steps hstep)

/-- What the `n`th execution has returned. -/
def returnedBy (u : EmergencyCloseAllUseCase) (n : Nat) : Option EmergencyCloseAllResult :=
  u.executions[n]?.bind (·.returned)

/-- What was returned stays as it is: the lists that were copied grow, the copies do not. -/
theorem returnedBy_steps {a : CloseAllLabel} {r : EmergencyCloseAllResult}
    (h : u.returnedBy n = some r) (hstep : u.Steps a u') : u'.returnedBy n = some r := by
  obtain ⟨e, he, hr⟩ := Option.bind_eq_some_iff.mp h
  -- an execution that has returned is changed by its own answers only
  have hset : ∀ m e₁ e₂, u.executions[m]? = some e₁ →
      (e₁.returned = some r → e₂.returned = some r) →
      (u.executions.set m e₂)[n]?.bind (·.returned) = some r := by
    intro m e₁ e₂ hm hkeep
    by_cases heq : m = n
    · subst heq
      obtain rfl : e₁ = e := Option.some.inj (hm.symm.trans he)
      rw [List.getElem?_set_self (List.getElem?_eq_some_iff.mp hm).1]
      exact hkeep hr
    · rw [List.getElem?_set_ne heq]
      exact h
  cases hstep with
  | executed =>
    have happend : (u.executions ++ [.reading])[n]? = some e := by
      rw [List.getElem?_append_left (List.getElem?_eq_some_iff.mp he).1, he]
    exact Option.bind_eq_some_iff.mpr ⟨e, happend, hr⟩
  | refused => exact h
  | rejected hreading | empty hreading | found hreading =>
    exact hset _ _ _ hreading fun hnone => by cases hnone
  | answered hrun hanswer =>
    obtain ⟨k, task, state, -, -, -, rfl⟩ := CloseAllRun.answer_eq_some hanswer
    exact hset _ _ _ hrun fun hreturned => CloseAllRun.put_returned.trans hreturned
  | finished hrun hnone =>
    exact hset _ _ _ hrun fun hreturned => by cases hnone.symm.trans hreturned
  | released hrun => exact hset _ _ _ hrun fun hreturned => hreturned

/-! ### The guard -/

/-- The execution is over but for the `finally` of its `allSettled`, as its labels say. -/
theorem Sound.overIn_iff {e : CloseAllExecution} (h : Sound past u)
    (hn : u.executions[n]? = some e) :
    OverIn past n ↔ e ≠ .reading ∧ ∀ run, e = .closing run → run.tasks = [] := by
  cases e with
  | reading =>
    obtain ⟨hread, -, -⟩ := h.reading hn
    simp [OverIn, hread]
  | rejected =>
    have htold := h.told n
    rw [hn] at htold
    refine ⟨fun _ => ⟨by simp, by simp⟩, fun _ => ⟨by rw [htold.1]; rfl, ?_⟩⟩
    rintro id ⟨openPositions, hread, -⟩
    cases htold.1.symm.trans hread
  | empty =>
    have htold := h.told n
    rw [hn] at htold
    obtain ⟨⟨openPositions, hread, hnil⟩, -⟩ := htold
    refine ⟨fun _ => ⟨by simp, by simp⟩, fun _ => ⟨by rw [hread]; rfl, ?_⟩⟩
    rintro id ⟨openPositions', hread', position, hposition, -⟩
    cases hread.symm.trans hread'
    rw [hnil] at hposition
    cases hposition
  | closing run =>
    obtain ⟨hsound, hread, -, hreported, -⟩ := h.closing hn
    constructor
    · rintro ⟨-, hover⟩
      refine ⟨by simp, ?_⟩
      rintro run' ⟨⟩
      refine List.eq_nil_iff_forall_not_mem.mpr fun task htask => ?_
      obtain ⟨position, hposition, hcloseOne⟩ :=
        (hreported.mem_entries_iff hsound).mp (CloseAllRun.waits_mem_entries.mpr htask)
      exact hover position.id ⟨_, hread, position, hposition, rfl, task, hcloseOne⟩
    · rintro ⟨-, htasks⟩
      refine ⟨by rw [hread]; rfl, ?_⟩
      rintro id ⟨openPositions, hread', position, hposition, rfl, task, hcloseOne⟩
      cases hread.symm.trans hread'
      have htask := CloseAllRun.waits_mem_entries.mp
        ((hreported.mem_entries_iff hsound).mpr ⟨position, hposition, hcloseOne⟩)
      rw [htasks run rfl] at htask
      cases htask

/-- An execution that is not over is busy. -/
theorem Sound.busy_of_not_over {e : CloseAllExecution} (h : Sound past u)
    (hn : u.executions[n]? = some e) (hover : ¬ OverIn past n) : e.busy = true := by
  rw [h.overIn_iff hn] at hover
  cases e with
  | reading => rfl
  | rejected | empty => exact absurd ⟨by simp, by simp⟩ hover
  | closing run =>
    by_contra hbusy
    have hreleased : run.released = true := by simpa [CloseAllExecution.busy] using hbusy
    refine hover ⟨by simp, ?_⟩
    rintro run' ⟨⟩
    exact (h.closing hn).1.released hreleased

/-- What is busy and over has its release due. -/
theorem Sound.release_due {e : CloseAllExecution} (h : Sound past u)
    (hn : u.executions[n]? = some e) (hbusy : e.busy = true) (hover : OverIn past n) :
    ∃ u', u.release n = some u' := by
  obtain ⟨hreading, htasks⟩ := (h.overIn_iff hn).mp hover
  cases e with
  | reading => exact absurd rfl hreading
  | rejected | empty => cases hbusy
  | closing run =>
    have hreleased : run.released = false := by simpa [CloseAllExecution.busy] using hbusy
    refine ⟨⟨false, u.executions.set n (.closing { run with released := true })⟩, ?_⟩
    unfold release
    rw [hn]
    exact if_pos ⟨htasks run rfl, hreleased⟩

theorem isSome_read_of_inFlight (h : InFlightIn past n id) : (readIn past n).isSome = true := by
  obtain ⟨openPositions, hread, -⟩ := h
  rw [hread]
  rfl

/-- The execution of an exit in flight is not over. -/
theorem not_over_of_inFlight (h : InFlightIn past n id) : ¬ OverIn past n := by
  obtain ⟨openPositions, hread, hid, hanswers⟩ := h
  obtain ⟨position, hposition, rfl⟩ := List.mem_map.mp hid
  rintro ⟨-, hover⟩
  refine hover position.id ⟨openPositions, hread, position, hposition, rfl, .placing position, ?_⟩
  rw [hanswers]
  rfl

/-- An execution whose read has been answered is there. -/
theorem Sound.exists_execution (h : Sound past u) (hread : (readIn past n).isSome = true) :
    ∃ e, u.executions[n]? = some e := by
  have htold := h.told n
  cases hn : u.executions[n]? with
  | some e => exact ⟨e, rfl⟩
  | none =>
    rw [hn] at htold
    rw [htold.1] at hread
    cases hread

/-! ### The use case over runs -/

/-- What the labels of a run say of what came back and of the guard. -/
structure AccountsForAll (past : List (EmergencyCloseAllUseCase × CloseAllLabel))
    (u : EmergencyCloseAllUseCase) : Prop where
  /-- A race that was over by `before` returned each position once, as it stood then. -/
  accounts : ∀ n before, finishedAt n past = some before →
    ∃ openPositions r, readIn past n = some (some openPositions) ∧ u.returnedBy n = some r ∧
      r.AccountsFor openPositions ∧ r.Reports before n openPositions
  /-- Nothing else is returned but for a read that finds none. -/
  returns : ∀ n r, u.returnedBy n = some r → (∃ before, finishedAt n past = some before) ∨
    r = ⟨0, [], [], []⟩ ∧ ∃ openPositions, readIn past n = some (some openPositions) ∧
      openPositions.positions = []
  rejects : ∀ n < u.executions.length, ¬ OverIn past n → u.execute = .error ⟨⟩
  /-- An exit in flight refuses `execute`, and no position has two. -/
  inFlight : ∀ n id, InFlightIn past n id →
    u.execute = .error ⟨⟩ ∧ ∀ m, InFlightIn past m id → m = n
  /-- Where all is over the guard is free, or its release is due. -/
  releases : (∀ n < u.executions.length, OverIn past n) →
    (∃ u', u.execute = .ok u') ∨ ∃ n u', u.release n = some u'
  released : ∀ n u', u.release n = some u' → ∃ u'', u'.execute = .ok u''

theorem Sound.rejects (h : Sound past u) (hn : n < u.executions.length)
    (hover : ¬ OverIn past n) : u.execute = .error ⟨⟩ := by
  have hget := List.getElem?_eq_getElem hn
  exact if_pos (h.held (List.mem_of_getElem? hget) (h.busy_of_not_over hget hover))

theorem Sound.returned (h : Sound past u) {before : List (EmergencyCloseAllUseCase × CloseAllLabel)}
    (hfinished : finishedAt n past = some before) :
    ∃ openPositions r, readIn past n = some (some openPositions) ∧ u.returnedBy n = some r ∧
      r.AccountsFor openPositions ∧ r.Reports before n openPositions := by
  have htold := h.told n
  unfold returnedBy
  match u.executions[n]?, htold with
  | none, htold | some .reading, htold => cases htold.2.2.symm.trans hfinished
  | some .rejected, htold => cases htold.2.symm.trans hfinished
  | some .empty, htold => cases htold.2.symm.trans hfinished
  | some (.closing run), ⟨hread, _, _, hreturned⟩ =>
    cases hreturned with
    | races hnone => cases hnone.symm.trans hfinished
    | finished hbefore hr haccounts hreports =>
      cases hbefore.symm.trans hfinished
      exact ⟨run.openPositions, _, hread, hr, haccounts, hreports⟩

theorem Sound.returns (h : Sound past u) {r : EmergencyCloseAllResult}
    (hr : u.returnedBy n = some r) : (∃ before, finishedAt n past = some before) ∨
      r = ⟨0, [], [], []⟩ ∧ ∃ openPositions, readIn past n = some (some openPositions) ∧
        openPositions.positions = [] := by
  have htold := h.told n
  obtain ⟨e, hn, hr⟩ := Option.bind_eq_some_iff.mp hr
  rw [hn] at htold
  cases e with
  | reading | rejected => cases hr
  | empty =>
    cases hr
    exact .inr ⟨rfl, htold.1⟩
  | closing run =>
    cases htold.2.2.2 with
    | races _ hnothing => cases hnothing.symm.trans hr
    | finished hbefore => exact .inl ⟨_, hbefore⟩

theorem Sound.inFlight (h : Sound past u) (hid : InFlightIn past n id) :
    u.execute = .error ⟨⟩ ∧ ∀ m, InFlightIn past m id → m = n := by
  have hexists : ∀ k, InFlightIn past k id →
      ∃ e, u.executions[k]? = some e ∧ e.busy = true := by
    intro k hk
    obtain ⟨e, he⟩ := h.exists_execution (n := k) (isSome_read_of_inFlight hk)
    exact ⟨e, he, h.busy_of_not_over he (not_over_of_inFlight hk)⟩
  obtain ⟨e, he, hbusy⟩ := hexists n hid
  refine ⟨if_pos (h.held (List.mem_of_getElem? he) hbusy), fun m hm => ?_⟩
  obtain ⟨e', he', hbusy'⟩ := hexists m hm
  exact h.busy_unique he' he hbusy' hbusy

theorem Sound.releases (h : Sound past u) (hover : ∀ n < u.executions.length, OverIn past n) :
    (∃ u', u.execute = .ok u') ∨ ∃ n u', u.release n = some u' := by
  cases hheld : u.inFlight with
  | false => exact .inl ⟨_, if_neg (by rw [hheld]; exact Bool.false_ne_true)⟩
  | true =>
    have hpos : 0 < u.executions.countP (·.busy) := by
      rw [h.guard, hheld]
      exact Nat.one_pos
    obtain ⟨e, he, hbusy⟩ := List.countP_pos_iff.mp hpos
    obtain ⟨n, hn⟩ := List.getElem?_of_mem he
    exact .inr ⟨n, h.release_due hn hbusy (hover n (List.getElem?_eq_some_iff.mp hn).1)⟩

theorem released_execute (h : u.release n = some u') : ∃ u'', u'.execute = .ok u'' := by
  unfold release at h
  split at h
  · split at h
    · cases h
      exact ⟨_, rfl⟩
    · cases h
  · cases h

theorem Sound.accounts_all (h : Sound past u) : AccountsForAll past u where
  accounts _ _ := h.returned
  returns _ _ := h.returns
  rejects _ := h.rejects
  inFlight _ _ := h.inFlight
  releases := h.releases
  released _ _ := released_execute

/-- After every run the executions account for every position as its labels say and no exit is
in flight twice, and what an execution has returned is what it returns ever after. -/
theorem accountsForAll (h : Passes step (fun _ _ => True) new past u) :
    AccountsForAll past u ∧ ∀ u', Reaches step (fun _ _ => True) u u' →
      ∀ n r, u.returnedBy n = some r → u'.returnedBy n = some r := by
  refine ⟨(sound_of_passes h).accounts_all, fun u' hu' n r hr => ?_⟩
  induction hu' with
  | start => exact hr
  | next _ _ hstep ih => exact returnedBy_steps ih (step_steps hstep)

/-- Two positions: one is closed when the timeout fires, and the exit of the other is in
flight. It is rejected later, and the guard is released. -/
def timedOut : List CloseAllLabel :=
  [.execute,
    .openPositions 0 (some ⟨[heldPosition (.ofNat 1) .smaCross 1000,
      heldPosition (.ofNat 2) .smaCross 2000], by decide⟩),
    .closeOne 0 (.ofNat 1) (.placeExitResolves crossExit),
    .closeOne 0 (.ofNat 1) .updateResolves, .finishes 0 true, .execute,
    .closeOne 0 (.ofNat 2) (.placeExitRejects "Error: timeout"), .allSettled 0, .execute]

/-- What was returned at the timeout is what is returned after the other exit was rejected,
and `execute` is refused until then. -/
theorem exists_accountsForAll_timedOut :
    ∃ past u, Passes step (fun _ _ => True) new past u ∧
      (past.map (·.1.inFlight)).reverse =
        [false, true, true, true, true, true, true, true, false] ∧
      (answersIn past 0 (.ofNat 2)).length = 1 ∧
      ((finishedAt 0 past).map List.length) = some 4 ∧
      ((u.returnedBy 0).map fun r => (r.closed.length, r.errors.length, r.unresolved)) =
        some (1, 0, [.ofNat 2]) ∧
      u.executions.length = 2 ∧ AccountsForAll past u := by
  obtain ⟨past, u, hpasses, hheld, hanswers, hfinished, hreturned, hexecutions⟩ :
      ∃ past u, Passes step (fun _ _ => True) new past u ∧
        (past.map (·.1.inFlight)).reverse =
          [false, true, true, true, true, true, true, true, false] ∧
        (answersIn past 0 (.ofNat 2)).length = 1 ∧
        ((finishedAt 0 past).map List.length) = some 4 ∧
        ((u.returnedBy 0).map fun r => (r.closed.length, r.errors.length, r.unresolved)) =
          some (1, 0, [.ofNat 2]) ∧
        u.executions.length = 2 := exists_passes timedOut (by decide +kernel)
  exact ⟨past, u, hpasses, hheld, hanswers, hfinished, hreturned, hexecutions,
    (accountsForAll hpasses).1⟩

end EmergencyCloseAllUseCase

end Luchida
