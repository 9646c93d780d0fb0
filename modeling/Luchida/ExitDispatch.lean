import Mathlib.Data.Prod.Lex
import Mathlib.Data.String.Basic
import Luchida.BreakerHistory
import Luchida.ExitOnce

/- `ExitDispatcher.dispatch` as one call: the rows that `openPositions` resolved with and,
   for each position, the answers its turn gets from the ports. `ExitSystem` has the same
   loop cut at every point where other parties can act; here a turn runs through, and what
   comes out is said in closed form.

   What becomes of a position is a function of its own answers and of its own cooldown
   (`verdict`). The lists of the result and the calls of `closePosition` are the filters of
   the ordered rows by that verdict (`dispatch_eq`), so one position cannot touch another,
   and the order of the rows in the table has no say (`sortedByOpenedAtAsc_perm`). The calls
   on the breaker are those of a `BreakerRun` (`dispatch_reaches`). -/
namespace Luchida

open Runs

/-! ## The order -/

/-- What `sortedByOpenedAtAsc` compares. -/
def Position.orderKey (p : Position) : ℤ ×ₗ String := toLex (p.openedAt, p.id.value)

theorem notAfter_iff {a b : Position} : notAfter a b ↔ a.orderKey ≤ b.orderKey := by
  simp only [notAfter, PositionId.before, decide_eq_false_iff_not, not_lt, Position.orderKey,
    Prod.Lex.toLex_le_toLex]

instance : Std.Total notAfter where
  total a b := by
    rw [notAfter_iff, notAfter_iff]
    exact le_total a.orderKey b.orderKey

instance : IsTrans Position notAfter where
  trans a b c hab hbc := by
    rw [notAfter_iff] at hab hbc ⊢
    exact le_trans hab hbc

/-- Neither comes after the other only where the ids are equal. -/
theorem id_eq_of_notAfter {a b : Position} (hab : notAfter a b) (hba : notAfter b a) :
    a.id = b.id := by
  have hkey : a.orderKey = b.orderKey := le_antisymm (notAfter_iff.mp hab) (notAfter_iff.mp hba)
  have hvalue : a.id.value = b.id.value := congrArg (fun k => (ofLex k).2) hkey
  cases ha : a.id
  cases hb : b.id
  rw [ha, hb] at hvalue
  cases hvalue
  rfl

theorem eq_of_id_eq {rows : List Position} (hnodup : (rows.map (·.id)).Nodup) {p q : Position}
    (hp : p ∈ rows) (hq : q ∈ rows) (hid : p.id = q.id) : p = q :=
  List.inj_on_of_nodup_map hnodup hp hq hid

/-- The order of a dispatch, whatever the order of the rows. -/
theorem sortedByOpenedAtAsc_perm {rows rows' : List Position} (hperm : rows.Perm rows')
    (hnodup : (rows.map (·.id)).Nodup) : sortedByOpenedAtAsc rows = sortedByOpenedAtAsc rows' := by
  have hsort := List.perm_insertionSort notAfter rows
  have hsort' := List.perm_insertionSort notAfter rows'
  refine List.Perm.eq_of_pairwise (fun p q hp hq hpq hqp => ?_)
    (List.pairwise_insertionSort notAfter rows) (List.pairwise_insertionSort notAfter rows')
    (hsort.trans (hperm.trans hsort'.symm))
  exact eq_of_id_eq hnodup (hsort.mem_iff.mp hp) (hperm.mem_iff.mpr (hsort'.mem_iff.mp hq))
    (id_eq_of_notAfter hpq hqp)

theorem nodup_ordered (pair : CurrencyPair) {rows : List Position}
    (hnodup : (rows.map (·.id)).Nodup) :
    ((sortedByOpenedAtAsc (forPair pair rows)).map (·.id)).Nodup := by
  have hpair : ((forPair pair rows).map (·.id)).Nodup :=
    hnodup.sublist (List.filter_sublist.map _)
  exact ((List.perm_insertionSort notAfter _).map _).nodup_iff.mpr hpair

/-! ## The loop -/

/-- The answers that the turn of one position gets. -/
structure TurnAnswers where
  /-- `compensationQueue.has`. -/
  shielded : Bool
  rule : ExitAnswer
  /-- `extremesPort.find`, which may throw. -/
  extremes : Except Unit (Option ExtremesSnapshot)
  /-- Whether `closePosition` resolves. -/
  closes : Bool
  /-- Whether `notifyExitExecuted` resolves. -/
  notifies : Bool
  /-- Whether `extremesPort.remove` returns. -/
  removes : Bool

/-- What is written to the log. -/
inductive DispatchLog where
  | exitRuleMissing (id : PositionId)
  | exitExtremesUnavailable (id : PositionId)
  | exitNotifyFailed (id : PositionId)
  | exitExtremesRemoveFailed (id : PositionId)
  | exitDispatchFailed (id : PositionId) (consecutiveFailures : Nat)

/-- A dispatch on its way. -/
structure Dispatching where
  result : ExitDispatchResult
  breaker : ExitFailureCircuitBreaker
  /-- The calls of `closePosition` and whether they resolved. -/
  calls : List (PositionId × Bool)
  logs : List DispatchLog

namespace Dispatching

def log (d : Dispatching) (entry : DispatchLog) : Dispatching :=
  { d with logs := d.logs ++ [entry] }

/-- `skipped.push`. -/
def skip (d : Dispatching) (p : Position) (reason : SkipReason) : Dispatching :=
  { d with result :=
      { d.result with skipped := d.result.skipped ++ [(p.id, p.strategyName, reason)] } }

/-- `closeAndNotify`: only `closePosition` can make it reject. -/
def closeAndNotify (d : Dispatching) (p : Position) (answers : TurnAnswers) :
    Except Dispatching Dispatching :=
  let d := { d with calls := d.calls ++ [(p.id, answers.closes)] }
  if answers.closes = false then .error d
  else if answers.notifies = false then .ok (d.log (.exitNotifyFailed p.id))
  else .ok d

/-- What follows `closeAndNotify`. -/
def settle (d : Dispatching) (p : Position) (answers : TurnAnswers) : Dispatching :=
  let d := { d with
    result := { d.result with closed := d.result.closed ++ [p.id] }
    breaker := d.breaker.recordSuccess p.id }
  if answers.removes = false then d.log (.exitExtremesRemoveFailed p.id) else d

/-- The `try` of the loop, once a rule is found. Where it throws, the error is what was done
before. -/
def evaluate (d : Dispatching) (p : Position) (answers : TurnAnswers) :
    Except Dispatching Dispatching :=
  match answers.rule with
  | .missing => .ok ((d.log (.exitRuleMissing p.id)).skip p .ruleMissing)
  | .threw => .error d
  | .doNothing => .ok d
  | .exit command =>
    if command.positionId ≠ p.id then .error d
    else match answers.extremes with
      | .error _ => .error d
      | .ok none => .ok ((d.log (.exitExtremesUnavailable p.id)).skip p .extremesUnavailable)
      | .ok (some _) => (d.closeAndNotify p answers).map (·.settle p answers)

/-- The `catch` of the loop. -/
def fail (d : Dispatching) (p : Position) : Dispatching :=
  let failures := match OrderedMap.get d.breaker.records p.id with
    | none => 0
    | some record => record.consecutiveFailures
  { d with
    result := { d.result with failed := d.result.failed ++ [(p.id, p.strategyName)] }
    breaker := d.breaker.recordFailure p.id
    logs := d.logs ++ [.exitDispatchFailed p.id (failures + 1)] }

/-- The turn of one position. -/
def visit (answers : Position → TurnAnswers) (d : Dispatching) (p : Position) : Dispatching :=
  if (answers p).shielded = true then d.skip p .compensationPending
  else if d.breaker.admitAttempt p.id = false then d.skip p .failureCooldown
  else match d.evaluate p (answers p) with
    | .ok d' => d'
    | .error d' => d'.fail p

end Dispatching

/-- `ExitDispatcher.dispatch`, once `openPositions` has resolved. Every throw after that is
caught. -/
def dispatch (pair : CurrencyPair) (rows : List Position) (answers : Position → TurnAnswers)
    (breaker : ExitFailureCircuitBreaker) : Dispatching :=
  let ordered := sortedByOpenedAtAsc (forPair pair rows)
  ordered.foldl (Dispatching.visit answers)
    ⟨⟨[], [], []⟩, breaker.beginTick (ordered.map (·.id)), [], []⟩

/-! ## Verdicts -/

/-- What becomes of a position in a dispatch. -/
inductive Verdict where
  | skipped (reason : SkipReason)
  /-- The rule lets it be. -/
  | kept
  /-- Failed before `closePosition`. -/
  | failed
  /-- `closePosition` was called and rejected. -/
  | rejected
  | closed
  deriving DecidableEq

/-- The verdict, from the position's own answers and its own cooldown. -/
def verdict (admitted : Bool) (p : Position) (answers : TurnAnswers) : Verdict :=
  if answers.shielded = true then .skipped .compensationPending
  else if admitted = false then .skipped .failureCooldown
  else match answers.rule with
    | .missing => .skipped .ruleMissing
    | .threw => .failed
    | .doNothing => .kept
    | .exit command =>
      if command.positionId ≠ p.id then .failed
      else match answers.extremes with
        | .error _ => .failed
        | .ok none => .skipped .extremesUnavailable
        | .ok (some _) => if answers.closes = true then .closed else .rejected

namespace Verdict

def closed? (p : Position) : Verdict → Option PositionId
  | .closed => some p.id
  | _ => none

def skipped? (p : Position) : Verdict → Option (PositionId × StrategyName × SkipReason)
  | .skipped reason => some (p.id, p.strategyName, reason)
  | _ => none

def failed? (p : Position) : Verdict → Option (PositionId × StrategyName)
  | .failed => some (p.id, p.strategyName)
  | .rejected => some (p.id, p.strategyName)
  | _ => none

/-- The call of `closePosition`, and whether it resolved. -/
def call? (p : Position) : Verdict → Option (PositionId × Bool)
  | .rejected => some (p.id, false)
  | .closed => some (p.id, true)
  | _ => none

/-- What the breaker is told. -/
def report (p : Position) (b : ExitFailureCircuitBreaker) : Verdict → ExitFailureCircuitBreaker
  | .failed => b.recordFailure p.id
  | .rejected => b.recordFailure p.id
  | .closed => b.recordSuccess p.id
  | _ => b

theorem report_admitAttempt {p : Position} (b : ExitFailureCircuitBreaker) (v : Verdict)
    {id : PositionId} (hne : id ≠ p.id) : (v.report p b).admitAttempt id = b.admitAttempt id := by
  cases v with
  | skipped reason => rfl
  | kept => rfl
  | failed => exact b.admitAttempt_recordFailure_of_ne hne
  | rejected => exact b.admitAttempt_recordFailure_of_ne hne
  | closed => exact b.admitAttempt_recordSuccess_of_ne hne

end Verdict

/-- `d'` is `d` with what the verdict on `p` adds. -/
structure Turned (w : Verdict) (d : Dispatching) (p : Position) (d' : Dispatching) : Prop where
  closed : d'.result.closed = d.result.closed ++ (w.closed? p).toList
  skipped : d'.result.skipped = d.result.skipped ++ (w.skipped? p).toList
  failed : d'.result.failed = d.result.failed ++ (w.failed? p).toList
  calls : d'.calls = d.calls ++ (w.call? p).toList
  breaker : d'.breaker = w.report p d.breaker

/-- `d'` is `d` with what the verdicts on `ps` add. -/
structure Ran (v : Position → Verdict) (d : Dispatching) (ps : List Position) (d' : Dispatching) :
    Prop where
  closed : d'.result.closed = d.result.closed ++ ps.filterMap (fun p => (v p).closed? p)
  skipped : d'.result.skipped = d.result.skipped ++ ps.filterMap (fun p => (v p).skipped? p)
  failed : d'.result.failed = d.result.failed ++ ps.filterMap (fun p => (v p).failed? p)
  calls : d'.calls = d.calls ++ ps.filterMap (fun p => (v p).call? p)
  breaker : d'.breaker = ps.foldl (fun b p => (v p).report p b) d.breaker

/-- One turn, and then the rest. -/
theorem Turned.cons {v : Position → Verdict} {p : Position} {ps : List Position}
    {d d' d'' : Dispatching} (h : Turned (v p) d p d') (hrest : Ran v d' ps d'') :
    Ran v d (p :: ps) d'' where
  closed := by
    rw [hrest.closed, h.closed, List.filterMap_cons, List.append_assoc]
    cases (v p).closed? p <;> rfl
  skipped := by
    rw [hrest.skipped, h.skipped, List.filterMap_cons, List.append_assoc]
    cases (v p).skipped? p <;> rfl
  failed := by
    rw [hrest.failed, h.failed, List.filterMap_cons, List.append_assoc]
    cases (v p).failed? p <;> rfl
  calls := by
    rw [hrest.calls, h.calls, List.filterMap_cons, List.append_assoc]
    cases (v p).call? p <;> rfl
  breaker := by rw [hrest.breaker, h.breaker, List.foldl_cons]

namespace Dispatching

theorem turned_skip (d : Dispatching) (p : Position) (reason : SkipReason) :
    Turned (.skipped reason) d p (d.skip p reason) := by
  constructor <;> simp [skip, Verdict.closed?, Verdict.skipped?, Verdict.failed?, Verdict.call?,
    Verdict.report]

theorem turned_log_skip (d : Dispatching) (p : Position) (entry : DispatchLog)
    (reason : SkipReason) : Turned (.skipped reason) d p ((d.log entry).skip p reason) :=
  have h := (d.log entry).turned_skip p reason
  ⟨h.closed, h.skipped, h.failed, h.calls, h.breaker⟩

theorem turned_fail (d : Dispatching) (p : Position) : Turned .failed d p (d.fail p) := by
  constructor <;> simp [fail, Verdict.closed?, Verdict.skipped?, Verdict.failed?, Verdict.call?,
    Verdict.report]

/-- `closeAndNotify` and what follows it, with the `catch`. -/
theorem turned_close (d : Dispatching) (p : Position) (a : TurnAnswers) :
    Turned (if a.closes = true then .closed else .rejected) d p
      (match (d.closeAndNotify p a).map (·.settle p a) with
        | .ok d' => d'
        | .error d' => d'.fail p) := by
  unfold closeAndNotify
  cases hcloses : a.closes with
  | false =>
    constructor <;> simp [Except.map, fail, Verdict.closed?, Verdict.skipped?, Verdict.failed?,
      Verdict.call?, Verdict.report]
  | true =>
    -- neither the notification nor the removal can change what is kept
    cases hnotifies : a.notifies <;> cases hremoves : a.removes <;> constructor <;>
      simp [Except.map, log, settle, hremoves, Verdict.closed?, Verdict.skipped?, Verdict.failed?,
        Verdict.call?, Verdict.report]

theorem visit_turned (answers : Position → TurnAnswers) (d : Dispatching) (p : Position) :
    Turned (verdict (d.breaker.admitAttempt p.id) p (answers p)) d p (d.visit answers p) := by
  unfold verdict visit
  split
  · exact d.turned_skip p _
  split
  · exact d.turned_skip p _
  unfold evaluate
  split
  · exact d.turned_log_skip p _ _
  · exact d.turned_fail p
  · constructor <;> simp [Verdict.closed?, Verdict.skipped?, Verdict.failed?, Verdict.call?,
      Verdict.report]
  · split
    · exact d.turned_fail p
    · split
      · exact d.turned_fail p
      · exact d.turned_log_skip p _ _
      · exact d.turned_close p _

/-- The loop gives each position the verdict of its own answers and its own cooldown. -/
theorem foldl_visit_ran (answers : Position → TurnAnswers) {admitted : PositionId → Bool}
    {ps : List Position} (hnodup : (ps.map (·.id)).Nodup) {d : Dispatching}
    (hadmitted : ∀ p ∈ ps, d.breaker.admitAttempt p.id = admitted p.id) :
    Ran (fun p => verdict (admitted p.id) p (answers p)) d ps (ps.foldl (visit answers) d) := by
  induction ps generalizing d with
  | nil => exact ⟨by simp, by simp, by simp, by simp, rfl⟩
  | cons p ps ih =>
    obtain ⟨hfresh, hrest⟩ := List.nodup_cons.mp hnodup
    have hturn := visit_turned answers d p
    rw [hadmitted p (List.mem_cons_self ..)] at hturn
    refine hturn.cons (v := fun p => verdict (admitted p.id) p (answers p))
      (ih hrest fun q hq => ?_)
    -- the turn of `p` leaves the cooldown of the others alone
    have hne : q.id ≠ p.id := fun heq => hfresh (List.mem_map.mpr ⟨q, hq, heq⟩)
    rw [hturn.breaker, Verdict.report_admitAttempt _ _ hne]
    exact hadmitted q (List.mem_cons_of_mem _ hq)

end Dispatching

/-! ## What a dispatch comes to -/

section
variable {β : Type*} {f : Position → Option β} {k : β → PositionId} {ps : List Position}

/-- A list with one entry at most for each position, by its ids. -/
theorem map_filterMap_key (hkey : ∀ p b, f p = some b → k b = p.id) (ps : List Position) :
    (ps.filterMap f).map k = (ps.filter (fun p => (f p).isSome)).map (·.id) := by
  induction ps with
  | nil => rfl
  | cons p ps ih =>
    cases hf : f p with
    | none => simp [hf, ih]
    | some b => simp [hf, ih, hkey p b hf]

theorem mem_filterMap_key (hkey : ∀ p b, f p = some b → k b = p.id)
    (hnodup : (ps.map (·.id)).Nodup) {p : Position} (hp : p ∈ ps) {b : β} (hb : k b = p.id) :
    b ∈ ps.filterMap f ↔ f p = some b := by
  rw [List.mem_filterMap]
  constructor
  · rintro ⟨q, hq, hf⟩
    obtain rfl : q = p := eq_of_id_eq hnodup hq hp ((hkey q b hf).symm.trans hb)
    exact hf
  · intro hf
    exact ⟨p, hp, hf⟩

end

namespace Verdict

variable {p : Position} {v : Verdict}

theorem closed?_key (v : Verdict) (id : PositionId) (h : v.closed? p = some id) : id = p.id := by
  cases v <;> cases h
  rfl

theorem skipped?_key (v : Verdict) (e : PositionId × StrategyName × SkipReason)
    (h : v.skipped? p = some e) : e.1 = p.id := by
  cases v <;> cases h
  rfl

theorem failed?_key (v : Verdict) (e : PositionId × StrategyName) (h : v.failed? p = some e) :
    e.1 = p.id := by
  cases v <;> cases h <;> rfl

theorem call?_key (v : Verdict) (e : PositionId × Bool) (h : v.call? p = some e) :
    e.1 = p.id := by
  cases v <;> cases h <;> rfl

end Verdict

/-- The positions that a result names. -/
def ExitDispatchResult.ids (r : ExitDispatchResult) : List PositionId :=
  r.closed ++ (r.skipped.map (·.1) ++ r.failed.map (·.1))

/-- Two dispatches do the same to a position. -/
structure SameFate (p : Position) (d d' : Dispatching) : Prop where
  closed : p.id ∈ d.result.closed ↔ p.id ∈ d'.result.closed
  skipped : ∀ reason, (p.id, p.strategyName, reason) ∈ d.result.skipped ↔
    (p.id, p.strategyName, reason) ∈ d'.result.skipped
  failed : (p.id, p.strategyName) ∈ d.result.failed ↔ (p.id, p.strategyName) ∈ d'.result.failed
  calls : ∀ resolved, (p.id, resolved) ∈ d.calls ↔ (p.id, resolved) ∈ d'.calls

/-- What comes of the positions of the pair. -/
structure Partitioned (pair : CurrencyPair) (rows : List Position)
    (answers : Position → TurnAnswers) (breaker : ExitFailureCircuitBreaker) (d : Dispatching) :
    Prop where
  once : d.result.ids.Nodup
  of_pair : ∀ id ∈ d.result.ids, ∃ p ∈ rows, p.pair = pair ∧ p.id = id
  closed_iff : ∀ p ∈ rows, p.pair = pair → (p.id ∈ d.result.closed ↔ (p.id, true) ∈ d.calls)
  failed_iff : ∀ p ∈ rows, p.pair = pair → ((p.id, p.strategyName) ∈ d.result.failed ↔
    (answers p).shielded = false ∧ breaker.admittedNext p.id = true ∧
      ((answers p).rule = .threw ∨ (∃ command, (answers p).rule = .exit command ∧
        (command.positionId ≠ p.id ∨ ∃ e, (answers p).extremes = .error e)) ∨
      (p.id, false) ∈ d.calls))
  /-- `closePosition` is called once at most for each position, in the order of the loop. -/
  calls_ordered : (d.calls.map (·.1)).Sublist
    ((sortedByOpenedAtAsc (forPair pair rows)).map (·.id))

namespace Ran

variable {v v' : Position → Verdict} {b b' : ExitFailureCircuitBreaker} {ps ps' : List Position}
  {d d' : Dispatching} {p : Position}

theorem mem_closed (h : Ran v ⟨⟨[], [], []⟩, b, [], []⟩ ps d) (hnodup : (ps.map (·.id)).Nodup)
    (hp : p ∈ ps) : p.id ∈ d.result.closed ↔ v p = .closed := by
  rw [h.closed, List.nil_append,
    mem_filterMap_key (k := fun id => id) (fun q => (v q).closed?_key) hnodup hp rfl]
  cases v p <;> simp [Verdict.closed?]

theorem mem_skipped (h : Ran v ⟨⟨[], [], []⟩, b, [], []⟩ ps d) (hnodup : (ps.map (·.id)).Nodup)
    (hp : p ∈ ps) (reason : SkipReason) :
    (p.id, p.strategyName, reason) ∈ d.result.skipped ↔ v p = .skipped reason := by
  rw [h.skipped, List.nil_append,
    mem_filterMap_key (k := Prod.fst) (fun q => (v q).skipped?_key) hnodup hp rfl]
  cases v p <;> simp [Verdict.skipped?]

theorem mem_failed (h : Ran v ⟨⟨[], [], []⟩, b, [], []⟩ ps d) (hnodup : (ps.map (·.id)).Nodup)
    (hp : p ∈ ps) :
    (p.id, p.strategyName) ∈ d.result.failed ↔ v p = .failed ∨ v p = .rejected := by
  rw [h.failed, List.nil_append,
    mem_filterMap_key (k := Prod.fst) (fun q => (v q).failed?_key) hnodup hp rfl]
  cases v p <;> simp [Verdict.failed?]

theorem mem_calls (h : Ran v ⟨⟨[], [], []⟩, b, [], []⟩ ps d) (hnodup : (ps.map (·.id)).Nodup)
    (hp : p ∈ ps) (resolved : Bool) :
    (p.id, resolved) ∈ d.calls ↔ v p = bif resolved then .closed else .rejected := by
  rw [h.calls, List.nil_append,
    mem_filterMap_key (k := Prod.fst) (fun q => (v q).call?_key) hnodup hp rfl]
  cases v p <;> cases resolved <;> simp [Verdict.call?]

/-- The ids of the three lists, by the verdicts. -/
theorem ids_eq (h : Ran v ⟨⟨[], [], []⟩, b, [], []⟩ ps d) : d.result.ids =
    (ps.filter (fun p => ((v p).closed? p).isSome)).map (·.id) ++
      ((ps.filter (fun p => ((v p).skipped? p).isSome)).map (·.id) ++
        (ps.filter (fun p => ((v p).failed? p).isSome)).map (·.id)) := by
  rw [ExitDispatchResult.ids, h.closed, h.skipped, h.failed, List.nil_append, List.nil_append,
    List.nil_append]
  have hclosed := map_filterMap_key (k := fun id => id) (fun q => (v q).closed?_key) ps
  rw [List.map_id'] at hclosed
  have hskipped := map_filterMap_key (k := Prod.fst) (fun q => (v q).skipped?_key) ps
  have hfailed := map_filterMap_key (k := Prod.fst) (fun q => (v q).failed?_key) ps
  rw [hclosed]
  exact congrArg₂ (fun l l' => _ ++ (l ++ l')) hskipped hfailed

theorem nodup_ids (h : Ran v ⟨⟨[], [], []⟩, b, [], []⟩ ps d)
    (hnodup : (ps.map (·.id)).Nodup) : d.result.ids.Nodup := by
  have hsub : ∀ q : Position → Bool, ((ps.filter q).map (·.id)).Nodup := fun q =>
    hnodup.sublist (List.filter_sublist.map _)
  -- one position has one verdict
  have hdisjoint : ∀ q q' : Position → Bool, (∀ p ∈ ps, q p = true → q' p = true → False) →
      List.Disjoint ((ps.filter q).map (·.id)) ((ps.filter q').map (·.id)) := by
    intro q q' hnot id hid hid'
    obtain ⟨p, hp, rfl⟩ := List.mem_map.mp hid
    obtain ⟨p', hp', heq⟩ := List.mem_map.mp hid'
    obtain ⟨hp, hq⟩ := List.mem_filter.mp hp
    obtain ⟨hp', hq'⟩ := List.mem_filter.mp hp'
    obtain rfl := eq_of_id_eq hnodup hp' hp heq
    exact hnot _ hp hq hq'
  rw [h.ids_eq, List.nodup_append', List.nodup_append', List.disjoint_append_right]
  refine ⟨hsub _, ⟨hsub _, hsub _, hdisjoint _ _ ?_⟩, hdisjoint _ _ ?_, hdisjoint _ _ ?_⟩
  · intro p _ hskipped hfailed
    cases hv : v p <;> simp [hv, Verdict.skipped?, Verdict.failed?] at hskipped hfailed
  · intro p _ hclosed hskipped
    cases hv : v p <;> simp [hv, Verdict.skipped?, Verdict.closed?] at hclosed hskipped
  · intro p _ hclosed hfailed
    cases hv : v p <;> simp [hv, Verdict.closed?, Verdict.failed?] at hclosed hfailed

theorem of_mem_ids (h : Ran v ⟨⟨[], [], []⟩, b, [], []⟩ ps d) {id : PositionId}
    (hid : id ∈ d.result.ids) : ∃ p ∈ ps, p.id = id := by
  rw [h.ids_eq, List.mem_append, List.mem_append] at hid
  rcases hid with hid | hid | hid <;>
    · obtain ⟨p, hp, rfl⟩ := List.mem_map.mp hid
      exact ⟨p, (List.mem_filter.mp hp).1, rfl⟩

theorem sameFate (h : Ran v ⟨⟨[], [], []⟩, b, [], []⟩ ps d)
    (h' : Ran v' ⟨⟨[], [], []⟩, b', [], []⟩ ps' d') (hnodup : (ps.map (·.id)).Nodup)
    (hnodup' : (ps'.map (·.id)).Nodup) (hp : p ∈ ps) (hp' : p ∈ ps') (hv : v p = v' p) :
    SameFate p d d' where
  closed := by rw [h.mem_closed hnodup hp, h'.mem_closed hnodup' hp', hv]
  skipped reason := by rw [h.mem_skipped hnodup hp, h'.mem_skipped hnodup' hp', hv]
  failed := by rw [h.mem_failed hnodup hp, h'.mem_failed hnodup' hp', hv]
  calls resolved := by rw [h.mem_calls hnodup hp, h'.mem_calls hnodup' hp', hv]

end Ran

/-- When a turn fails: before `closePosition`, or because it rejected. -/
theorem verdict_failed_iff {admitted : Bool} {p : Position} {answers : TurnAnswers} :
    verdict admitted p answers = .failed ∨ verdict admitted p answers = .rejected ↔
      answers.shielded = false ∧ admitted = true ∧
        (answers.rule = .threw ∨ (∃ command, answers.rule = .exit command ∧
          (command.positionId ≠ p.id ∨ ∃ e, answers.extremes = .error e)) ∨
        verdict admitted p answers = .rejected) := by
  unfold verdict
  cases answers.shielded with
  | true => simp
  | false =>
    cases admitted with
    | false => simp
    | true =>
      cases answers.rule with
      | missing => simp
      | threw => simp
      | doNothing => simp
      | exit command =>
        by_cases hid : command.positionId = p.id
        · cases answers.extremes with
          | error e => simp [hid]
          | ok extremes =>
            cases extremes <;> cases answers.closes <;> simp [hid]
        · simp [hid]

section
variable {pair : CurrencyPair} {rows rows' : List Position}

/-- The result of a dispatch is that of the verdicts, in order. -/
theorem dispatch_eq (pair : CurrencyPair) (hnodup : (rows.map (·.id)).Nodup)
    (answers : Position → TurnAnswers) (breaker : ExitFailureCircuitBreaker) :
    Ran (fun p => verdict (breaker.admittedNext p.id) p (answers p))
      ⟨⟨[], [], []⟩, breaker.beginTick ((sortedByOpenedAtAsc (forPair pair rows)).map (·.id)), [],
        []⟩
      (sortedByOpenedAtAsc (forPair pair rows)) (dispatch pair rows answers breaker) :=
  Dispatching.foldl_visit_ran answers (nodup_ordered pair hnodup) fun _ hp =>
    breaker.admitAttempt_beginTick (List.mem_map_of_mem hp)

theorem dispatch_partitioned (hnodup : (rows.map (·.id)).Nodup)
    (answers : Position → TurnAnswers) (breaker : ExitFailureCircuitBreaker) :
    Partitioned pair rows answers breaker (dispatch pair rows answers breaker) := by
  have hran := dispatch_eq pair hnodup answers breaker
  have hids := nodup_ordered pair hnodup
  refine ⟨hran.nodup_ids hids, fun id hid => ?_, fun p hp hpair => ?_, fun p hp hpair => ?_, ?_⟩
  · obtain ⟨p, hp, rfl⟩ := hran.of_mem_ids hid
    obtain ⟨hrow, hpair⟩ := mem_ordered.mp hp
    exact ⟨p, hrow, hpair, rfl⟩
  · have hord := mem_ordered.mpr ⟨hp, hpair⟩
    rw [hran.mem_closed hids hord, hran.mem_calls hids hord true]
    rfl
  · have hord := mem_ordered.mpr ⟨hp, hpair⟩
    rw [hran.mem_failed hids hord, hran.mem_calls hids hord false]
    exact verdict_failed_iff
  · rw [hran.calls, List.nil_append]
    have hcalls := map_filterMap_key (k := Prod.fst) (fun q => Verdict.call?_key
      (verdict (breaker.admittedNext q.id) q (answers q))) (sortedByOpenedAtAsc (forPair pair rows))
    exact hcalls ▸ List.filter_sublist.map _

/-- A dispatch sorts the positions of the pair out, each by itself, in an order of its own. -/
theorem dispatch_isolated (pair : CurrencyPair) (rows : List Position)
    (hnodup : (rows.map (·.id)).Nodup) (answers : Position → TurnAnswers)
    (breaker : ExitFailureCircuitBreaker) :
    Partitioned pair rows answers breaker (dispatch pair rows answers breaker) ∧
    (∀ (rows' : List Position) (answers' : Position → TurnAnswers)
      (breaker' : ExitFailureCircuitBreaker), (rows'.map (·.id)).Nodup →
      ∀ p ∈ rows, p ∈ rows' → p.pair = pair → answers p = answers' p →
        breaker.admittedNext p.id = breaker'.admittedNext p.id →
        SameFate p (dispatch pair rows answers breaker) (dispatch pair rows' answers' breaker')) ∧
    ∀ rows' : List Position, rows.Perm rows' →
      dispatch pair rows' answers breaker = dispatch pair rows answers breaker := by
  refine ⟨dispatch_partitioned hnodup answers breaker, ?_, fun rows' hperm => ?_⟩
  · intro rows' answers' breaker' hnodup' p hp hp' hpair hanswers hcooldown
    refine (dispatch_eq pair hnodup answers breaker).sameFate
      (dispatch_eq pair hnodup' answers' breaker') (nodup_ordered pair hnodup)
      (nodup_ordered pair hnodup')
      (mem_ordered.mpr ⟨hp, hpair⟩) (mem_ordered.mpr ⟨hp', hpair⟩) ?_
    rw [hanswers, hcooldown]
  · have hpairs : (forPair pair rows).Perm (forPair pair rows') := hperm.filter _
    unfold dispatch
    rw [sortedByOpenedAtAsc_perm hpairs (hnodup.sublist (List.filter_sublist.map _))]

/-- What the breaker is told of a position that is OPEN, that was let through and whose turn
has not been. -/
theorem exists_reaches_report {w : Verdict} {p : Position} {s : BreakerRun}
    (hopen : p.id ∈ BreakerCall.openIds s.history) (htried : p.id ∉ BreakerCall.tried s.history)
    (hadmitted : w = .failed ∨ w = .rejected ∨ w = .closed → s.breaker.admitAttempt p.id = true) :
    ∃ s', Reaches BreakerRun.step (fun _ _ => True) s s' ∧ s'.breaker = w.report p s.breaker ∧
      BreakerCall.openIds s'.history = BreakerCall.openIds s.history ∧
      ∀ id ∈ BreakerCall.tried s'.history, id = p.id ∨ id ∈ BreakerCall.tried s.history := by
  have hfailure : s.breaker.admitAttempt p.id = true → ∃ s', Reaches BreakerRun.step
      (fun _ _ => True) s s' ∧ s'.breaker = s.breaker.recordFailure p.id ∧
      BreakerCall.openIds s'.history = BreakerCall.openIds s.history ∧
      ∀ id ∈ BreakerCall.tried s'.history, id = p.id ∨ id ∈ BreakerCall.tried s.history := by
    intro hadmitted
    have htries := BreakerRun.tries_iff.mpr ⟨hopen, htried, hadmitted⟩
    exact ⟨⟨_, .recordFailure p.id :: s.history⟩,
      .next .start trivial (a := .recordFailure p.id) (if_pos htries), rfl, rfl,
      fun id hid => List.mem_cons.mp hid⟩
  cases w with
  | skipped reason => exact ⟨s, .start, rfl, rfl, fun id hid => .inr hid⟩
  | kept => exact ⟨s, .start, rfl, rfl, fun id hid => .inr hid⟩
  | failed => exact hfailure (hadmitted (.inl rfl))
  | rejected => exact hfailure (hadmitted (.inr (.inl rfl)))
  | closed =>
    have htries := BreakerRun.tries_iff.mpr ⟨hopen, htried, hadmitted (.inr (.inr rfl))⟩
    exact ⟨⟨_, .recordSuccess p.id :: s.history⟩,
      .next .start trivial (a := .recordSuccess p.id) (if_pos htries), rfl, rfl,
      fun id hid => List.mem_cons.mp hid⟩

/-- The loop tells the breaker of positions that are OPEN and that it let through, each
once. -/
theorem foldl_report_reaches {v : Position → Verdict} {ps : List Position}
    (hnodup : (ps.map (·.id)).Nodup) {s : BreakerRun}
    (hopen : ∀ p ∈ ps, p.id ∈ BreakerCall.openIds s.history)
    (htried : ∀ p ∈ ps, p.id ∉ BreakerCall.tried s.history)
    (hadmitted : ∀ p ∈ ps, v p = .failed ∨ v p = .rejected ∨ v p = .closed →
      s.breaker.admitAttempt p.id = true) :
    ∃ s', Reaches BreakerRun.step (fun _ _ => True) s s' ∧
      s'.breaker = ps.foldl (fun b p => (v p).report p b) s.breaker := by
  induction ps generalizing s with
  | nil => exact ⟨s, .start, rfl⟩
  | cons p ps ih =>
    obtain ⟨hfresh, hrest⟩ := List.nodup_cons.mp hnodup
    have hhead : p ∈ p :: ps := List.mem_cons_self ..
    have htail : ∀ q ∈ ps, q ∈ p :: ps ∧ q.id ≠ p.id := fun q hq =>
      ⟨List.mem_cons_of_mem _ hq, fun heq => hfresh (List.mem_map.mpr ⟨q, hq, heq⟩)⟩
    obtain ⟨s', hreach, hbreaker, hids, htried'⟩ :=
      exists_reaches_report (hopen p hhead) (htried p hhead) (hadmitted p hhead)
    obtain ⟨s'', hreach', hfinal⟩ := ih (s := s') hrest
      (fun q hq => hids ▸ hopen q (htail q hq).1)
      (fun q hq hmem => (htried' _ hmem).elim (htail q hq).2 (htried q (htail q hq).1))
      (fun q hq hv => by
        -- what was said of `p` leaves the others alone
        rw [hbreaker, Verdict.report_admitAttempt _ _ (htail q hq).2]
        exact hadmitted q (htail q hq).1 hv)
    exact ⟨s'', hreach.trans hreach', by rw [hfinal, hbreaker, List.foldl_cons]⟩

/-- The calls of a dispatch on the breaker are steps of a `BreakerRun`. -/
theorem dispatch_reaches (pair : CurrencyPair) (hnodup : (rows.map (·.id)).Nodup)
    (answers : Position → TurnAnswers) (s : BreakerRun) :
    ∃ s', Reaches BreakerRun.step (fun _ _ => True) s s' ∧
      s'.breaker = (dispatch pair rows answers s.breaker).breaker := by
  let ids := (sortedByOpenedAtAsc (forPair pair rows)).map (·.id)
  let began : BreakerRun := ⟨s.breaker.beginTick ids, .beginTick ids :: s.history⟩
  have hbegan : Reaches BreakerRun.step (fun _ _ => True) s began :=
    .next .start trivial (a := .beginTick ids) rfl
  -- only a position that is let through comes as far as being tried
  have hadmitted : ∀ p ∈ sortedByOpenedAtAsc (forPair pair rows), ∀ w,
      w = verdict (s.breaker.admittedNext p.id) p (answers p) →
      w = .failed ∨ w = .rejected ∨ w = .closed → began.breaker.admitAttempt p.id = true := by
    intro p hp w hw htried
    have hnext : began.breaker.admitAttempt p.id = s.breaker.admittedNext p.id :=
      s.breaker.admitAttempt_beginTick (List.mem_map_of_mem hp)
    rw [hnext]
    cases hadmitted : s.breaker.admittedNext p.id with
    | true => rfl
    | false =>
      rw [hadmitted, verdict] at hw
      split at hw <;> simp [hw] at htried
  obtain ⟨s', hreach, hbreaker⟩ := foldl_report_reaches (s := began) (nodup_ordered pair hnodup)
    (fun p hp => List.mem_map_of_mem hp) (fun _ _ hmem => by cases hmem)
    (fun p hp => hadmitted p hp _ rfl)
  exact ⟨s', hbegan.trans hreach,
    hbreaker.trans (dispatch_eq pair hnodup answers s.breaker).breaker.symm⟩

/-- Two positions of one age. -/
def twinRows : List Position :=
  [heldPosition (.ofNat 2) .smaCross 1000, heldPosition (.ofNat 1) .smaCross 1000]

/-- Both are to be closed, and the exit of one of them rejects. -/
def twinAnswers (p : Position) : TurnAnswers where
  shielded := false
  rule := takeProfits [.ofNat 1, .ofNat 2] p
  extremes := .ok (some ⟨crossPrice, quietPrice⟩)
  closes := p.id = .ofNat 1
  notifies := true
  removes := true

theorem dispatch_isolated_twins : (twinRows.map (·.id)).Nodup ∧
    Partitioned .usdJpy twinRows twinAnswers ExitSystem.fresh.breaker
      (dispatch .usdJpy twinRows twinAnswers ExitSystem.fresh.breaker) := by
  have hnodup : (twinRows.map (·.id)).Nodup := by decide +kernel
  exact ⟨hnodup, (dispatch_isolated .usdJpy twinRows hnodup twinAnswers _).1⟩

example : (dispatch .usdJpy twinRows twinAnswers ExitSystem.fresh.breaker).calls =
    [(.ofNat 1, true), (.ofNat 2, false)] := by decide +kernel

end

end Luchida
