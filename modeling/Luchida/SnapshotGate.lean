import Mathlib.Data.List.Sublists
import Luchida.ExitGuards
import Luchida.Runs
import Luchida.SmaCrossRule
import Luchida.TradingSession

/- TradingSession.ts over whole runs: `onMarketData` with its `processing` flag and its
   buffer of one snapshot, the steps of `process`, the kill switch and `stop`. A label is
   what happens up to the next `await`, or the settling of what is awaited, so a run is any
   interleaving of arrivals, settlements and stops.

   The calls of `onMarketData` that are inside `process` are a list, and that there is never
   more than one is a result (`coalesces`). What arrived, which calls of `process` ended, who
   was signalled and whether the session was stopped are read off the labels of the run
   (`Tied`). With one call the gate is the one of `TradingSession`, on which the entry side
   and the exit side are built (`session_onMarketData`, `session_settle`). -/
namespace Luchida

/-- A snapshot of the session's pair that arrived, with its number. -/
structure Arrival where
  seq : Nat
  snapshot : MarketSnapshot

/-- What `process` waits for. -/
inductive ProcessPhase where
  | extremesUpdate
  | dispatch
  /-- The kill switch has fired: `this.stop()`. -/
  | stop
  | notifyTradingHalted
  | handleSignals
  deriving DecidableEq, Repr

/-- `TradingSession`: its flags and its buffer, the calls of `onMarketData` that are inside
`process`, and what has happened. -/
structure SnapshotGate where
  stopped : Bool
  processing : Bool
  pendingSnapshot : Option Arrival
  calls : List (Arrival × ProcessPhase)
  arrivals : List Arrival
  /-- The snapshots that `process` was called with. -/
  processed : List Arrival
  /-- The snapshots that `handleSignals` was called with. -/
  signalled : List Arrival
  /-- The kill switch has fired. -/
  killed : Bool

inductive GateLabel where
  | onMarketData (snapshot : MarketSnapshot)
  | extremesUpdateSettles (i : Nat) (ok : Bool)
  /-- The breaker as `dispatch` leaves it, or `none` when `dispatch` throws. -/
  | dispatchSettles (i : Nat) (breaker : Option ExitFailureCircuitBreaker)
  -- an error of either is logged, and nothing else
  | stopSettles (i : Nat) (ok : Bool)
  | notifyTradingHaltedSettles (i : Nat) (ok : Bool)
  | handleSignalsSettles (i : Nat) (ok : Bool)
  /-- `stop` is called from outside. -/
  | stop

namespace GateLabel

/-- The label makes `process` reject. -/
def rejects : GateLabel → Bool
  | .extremesUpdateSettles _ ok | .handleSignalsSettles _ ok => !ok
  | .dispatchSettles _ breaker => breaker.isNone
  | _ => false

/-- The label ends a `process`. -/
def ends : GateLabel → Bool
  | .notifyTradingHaltedSettles _ _ | .handleSignalsSettles _ _ => true
  | a => a.rejects

/-- The snapshot of the session's pair that the label brings. -/
def arrival (pair : CurrencyPair) : GateLabel → Option MarketSnapshot
  | .onMarketData snapshot => if snapshot.pair = pair then some snapshot else none
  | _ => none

/-- `dispatch` has left a breaker that fires the kill switch. -/
def kills : GateLabel → Bool
  | .dispatchSettles _ (some breaker) => breaker.killDetail.isSome
  | _ => false

/-- `stop` is called, from outside or by the kill switch. -/
def stops : GateLabel → Bool
  | .stop => true
  | a => a.kills

/-- The call whose `dispatch` the label lets go on to `handleSignals`. -/
def signals : GateLabel → Option Nat
  | .dispatchSettles i (some breaker) => if breaker.killDetail.isSome then none else some i
  | _ => none

/-- What ends a `process` does nothing else. -/
theorem frame_of_ends {a : GateLabel} (h : a.ends = true) (pair : CurrencyPair) :
    a.arrival pair = none ∧ a.kills = false ∧ a.stops = false ∧ a.signals = none := by
  cases a with
  | onMarketData | stop | stopSettles => cases h
  | extremesUpdateSettles | notifyTradingHaltedSettles | handleSignalsSettles =>
    exact ⟨rfl, rfl, rfl, rfl⟩
  | dispatchSettles i breaker =>
    cases breaker with
    | none => exact ⟨rfl, rfl, rfl, rfl⟩
    | some breaker => cases h

end GateLabel

namespace SnapshotGate

def started : SnapshotGate := ⟨false, false, none, [], [], [], [], false⟩

/-- `onMarketData` up to its first `await`. -/
def onMarketData (pair : CurrencyPair) (s : SnapshotGate) (snapshot : MarketSnapshot) :
    SnapshotGate :=
  if snapshot.pair ≠ pair then s
  else
    let arrival : Arrival := ⟨s.arrivals.length, snapshot⟩
    have s := { s with arrivals := s.arrivals ++ [arrival] }
    if s.stopped = true then s
    else if s.processing = true then { s with pendingSnapshot := some arrival }
    else
      { s with
        processing := true
        calls := s.calls ++ [(arrival, .extremesUpdate)]
        processed := s.processed ++ [arrival] }

/-- `process` has resolved or thrown in the `i`-th call: the loop goes on with the kept
snapshot, or the call ends. -/
def settle (s : SnapshotGate) (i : Nat) : SnapshotGate :=
  match s.pendingSnapshot with
  | some next =>
    if s.stopped = true then
      { s with processing := false, pendingSnapshot := none, calls := s.calls.eraseIdx i }
    else
      { s with
        pendingSnapshot := none
        calls := s.calls.set i (next, .extremesUpdate)
        processed := s.processed ++ [next] }
  | none => { s with processing := false, calls := s.calls.eraseIdx i }

/-- `dispatch` has resolved: the kill switch is asked, and then the entry side. -/
def afterDispatch (s : SnapshotGate) (i : Nat) (arrival : Arrival)
    (breaker : ExitFailureCircuitBreaker) : SnapshotGate :=
  match breaker.killDetail with
  | some _ => { s with stopped := true, calls := s.calls.set i (arrival, .stop), killed := true }
  | none =>
    { s with
      calls := s.calls.set i (arrival, .handleSignals)
      signalled := s.signalled ++ [arrival] }

def step (pair : CurrencyPair) (s : SnapshotGate) : GateLabel → Option SnapshotGate
  | .onMarketData snapshot => some (s.onMarketData pair snapshot)
  | .extremesUpdateSettles i ok =>
    match s.calls[i]? with
    | some (arrival, .extremesUpdate) =>
      some (if ok = true then { s with calls := s.calls.set i (arrival, .dispatch) }
        else s.settle i)
    | _ => none
  | .dispatchSettles i breaker =>
    match s.calls[i]? with
    | some (arrival, .dispatch) =>
      match breaker with
      | none => some (s.settle i)
      | some breaker => some (s.afterDispatch i arrival breaker)
    | _ => none
  | .stopSettles i _ =>
    match s.calls[i]? with
    | some (arrival, .stop) =>
      some { s with calls := s.calls.set i (arrival, .notifyTradingHalted) }
    | _ => none
  | .notifyTradingHaltedSettles i _ =>
    match s.calls[i]? with
    | some (_, .notifyTradingHalted) => some (s.settle i)
    | _ => none
  | .handleSignalsSettles i _ =>
    match s.calls[i]? with
    | some (_, .handleSignals) => some (s.settle i)
    | _ => none
  | .stop => some { s with stopped := true }

/-! ## What the labels of a run say -/

/-- The snapshots of the session's pair, in the order in which they arrived. -/
def arrivedIn (pair : CurrencyPair) (past : List (SnapshotGate × GateLabel)) :
    List MarketSnapshot :=
  past.reverse.filterMap (·.2.arrival pair)

/-- The snapshots with which the run went on to `handleSignals`. -/
def signalledIn (past : List (SnapshotGate × GateLabel)) : List Arrival :=
  past.reverse.filterMap fun e => e.2.signals.bind fun i => e.1.calls[i]?.map (·.1)

/-- What the state has of a run, and what its labels were. -/
structure Tied (pair : CurrencyPair) (past : List (SnapshotGate × GateLabel)) (s : SnapshotGate) :
    Prop where
  arrived : s.arrivals.map (·.snapshot) = arrivedIn pair past
  signalled : s.signalled = signalledIn past
  /-- A `process` that began has ended or is in its call. -/
  ended : s.processed.length = past.countP (·.2.ends) + s.calls.length
  stopped_iff : s.stopped = true ↔ ∃ e ∈ past, e.2.stops = true
  killed_iff : s.killed = true ↔ ∃ e ∈ past, e.2.kills = true

/-! ## What holds in every state -/

/-- One `process` at a time, of the snapshots of the pair in their order; the last of them
has been processed or is kept to be next, and where the session is idle it has been. -/
structure Coalesces (pair : CurrencyPair) (past : List (SnapshotGate × GateLabel))
    (s : SnapshotGate) : Prop extends Tied pair past s where
  one_process : s.calls.length ≤ 1
  busy_iff : s.processing = true ↔ s.calls ≠ []
  numbered : s.arrivals.map (·.seq) = List.range s.arrivals.length
  in_order : s.processed.Sublist s.arrivals
  last_kept : s.stopped = false →
    (s.processed ++ s.pendingSnapshot.toList).getLast? = s.arrivals.getLast?
  last_processed : s.processing = false → s.stopped = false →
    s.processed.getLast? = s.arrivals.getLast?

/-- What every step keeps. -/
structure Kept (s : SnapshotGate) : Prop where
  one_process : s.calls.length ≤ 1
  busy_iff : s.processing = true ↔ s.calls ≠ []
  numbered : s.arrivals.map (·.seq) = List.range s.arrivals.length
  idle : s.calls = [] → s.pendingSnapshot = none
  in_order : (s.processed ++ s.pendingSnapshot.toList).Sublist s.arrivals
  last : s.stopped = false →
    (s.processed ++ s.pendingSnapshot.toList).getLast? = s.arrivals.getLast?
  killed_stopped : s.killed = true → s.stopped = true
  -- after the kill switch the call only stops and notifies
  killed_phase : s.killed = true →
    ∀ c ∈ s.calls, c.2 = .stop ∨ c.2 = .notifyTradingHalted

variable {pair : CurrencyPair} {s s' : SnapshotGate}

/-- What one step can do. -/
inductive Moves (pair : CurrencyPair) (s : SnapshotGate) : GateLabel → SnapshotGate → Prop
  | onMarketData (snapshot : MarketSnapshot) :
      Moves pair s (.onMarketData snapshot) (s.onMarketData pair snapshot)
  | toDispatch {i : Nat} {arrival : Arrival} : s.calls[i]? = some (arrival, .extremesUpdate) →
      Moves pair s (.extremesUpdateSettles i true)
        { s with calls := s.calls.set i (arrival, .dispatch) }
  | toNotice {i : Nat} {ok : Bool} {arrival : Arrival} : s.calls[i]? = some (arrival, .stop) →
      Moves pair s (.stopSettles i ok)
        { s with calls := s.calls.set i (arrival, .notifyTradingHalted) }
  | afterDispatch {i : Nat} {arrival : Arrival} (breaker : ExitFailureCircuitBreaker) :
      s.calls[i]? = some (arrival, .dispatch) →
      Moves pair s (.dispatchSettles i (some breaker)) (s.afterDispatch i arrival breaker)
  | settle {i : Nat} {c : Arrival × ProcessPhase} {a : GateLabel} :
      s.calls[i]? = some c → a.ends = true → Moves pair s a (s.settle i)
  | stop : Moves pair s .stop { s with stopped := true }

theorem moves_of_step {a : GateLabel} (hstep : s.step pair a = some s') :
    s.Moves pair a s' := by
  cases a with
  | onMarketData snapshot =>
    cases hstep
    exact .onMarketData snapshot
  | extremesUpdateSettles i ok =>
    simp only [step] at hstep
    split at hstep
    · rename_i arrival hi
      cases ok with
      | true =>
        cases hstep
        exact .toDispatch hi
      | false =>
        cases hstep
        exact .settle hi rfl
    · cases hstep
  | dispatchSettles i breaker =>
    simp only [step] at hstep
    split at hstep
    · rename_i arrival hi
      cases breaker with
      | none =>
        cases hstep
        exact .settle hi rfl
      | some breaker =>
        cases hstep
        exact .afterDispatch breaker hi
    · cases hstep
  | stopSettles i ok =>
    simp only [step] at hstep
    split at hstep
    · rename_i arrival hi
      cases hstep
      exact .toNotice hi
    · cases hstep
  | notifyTradingHaltedSettles i ok =>
    simp only [step] at hstep
    split at hstep
    · rename_i arrival hi
      cases hstep
      exact .settle hi rfl
    · cases hstep
  | handleSignalsSettles i ok =>
    simp only [step] at hstep
    split at hstep
    · rename_i arrival hi
      cases hstep
      exact .settle hi rfl
    · cases hstep
  | stop =>
    cases hstep
    exact .stop

/-- An idle session has processed what came last. -/
theorem Kept.last_processed (h : s.Kept) (hidle : s.processing = false)
    (hstop : s.stopped = false) : s.processed.getLast? = s.arrivals.getLast? := by
  have hcalls : s.calls = [] := by
    by_contra hne
    simp [h.busy_iff.mpr hne] at hidle
  have := h.last hstop
  rwa [h.idle hcalls, Option.toList_none, List.append_nil] at this

/-- The call that is inside `process` is the only one. -/
theorem Kept.calls_eq (h : s.Kept) {i : Nat} {c : Arrival × ProcessPhase}
    (hi : s.calls[i]? = some c) : s.calls = [c] ∧ i = 0 := by
  have hlen := h.one_process
  match hs : s.calls, hi with
  | [], hi => simp at hi
  | [c'], hi =>
    obtain ⟨hlt, heq⟩ := List.getElem?_eq_some_iff.mp hi
    obtain rfl : i = 0 := by simpa using hlt
    exact ⟨by simpa using heq, rfl⟩
  | _ :: _ :: _, _ => simp [hs] at hlen

theorem Kept.onMarketData (h : s.Kept) (snapshot : MarketSnapshot) :
    (s.onMarketData pair snapshot).Kept := by
  unfold SnapshotGate.onMarketData
  split
  · exact h
  have hnumbered : (s.arrivals ++ [(⟨s.arrivals.length, snapshot⟩ : Arrival)]).map (·.seq) =
      List.range (s.arrivals ++ [(⟨s.arrivals.length, snapshot⟩ : Arrival)]).length := by
    simp [h.numbered, List.range_succ]
  dsimp only
  split
  · rename_i hstop
    exact { h with
      numbered := hnumbered
      in_order := h.in_order.trans (List.sublist_append_left ..)
      last := by simp [hstop] }
  · split
    · rename_i hbusy
      exact { h with
        numbered := hnumbered
        idle := fun hcalls => absurd hcalls (h.busy_iff.mp hbusy)
        in_order := by
          have := (List.sublist_append_left s.processed _).trans h.in_order
          exact this.append (List.Sublist.refl _)
        last := by simp }
    · rename_i hstop hbusy
      have hcalls : s.calls = [] := by
        by_contra hne
        exact hbusy (h.busy_iff.mpr hne)
      have hpending := h.idle hcalls
      have hkilled : s.killed = false := by
        by_contra hk
        exact hstop (h.killed_stopped (by simpa using hk))
      exact {
        one_process := by simp [hcalls]
        busy_iff := by simp
        numbered := hnumbered
        idle := by simp
        in_order := by
          have hin := h.in_order
          rw [hpending, Option.toList_none, List.append_nil] at hin
          simpa [hpending] using hin
        last := by simp [hpending]
        killed_stopped := by simp [hkilled]
        killed_phase := by simp [hkilled] }

/-- `process` ends in its call, resolved or rejected. -/
theorem Kept.settle (h : s.Kept) {i : Nat} {c : Arrival × ProcessPhase}
    (hi : s.calls[i]? = some c) : (s.settle i).Kept := by
  obtain ⟨hcalls, rfl⟩ := h.calls_eq hi
  unfold SnapshotGate.settle
  split
  · rename_i next hnext
    have hin := h.in_order
    have hlast := h.last
    rw [hnext, Option.toList_some] at hin hlast
    split
    · rename_i hstop
      exact {
        one_process := by simp [hcalls]
        busy_iff := by simp [hcalls]
        numbered := h.numbered
        idle := fun _ => rfl
        in_order := by simpa using (List.sublist_append_left ..).trans hin
        last := by simp [hstop]
        killed_stopped := h.killed_stopped
        killed_phase := by simp [hcalls] }
    · rename_i hstop
      exact {
        one_process := by simp [hcalls]
        busy_iff := by simp [hcalls, h.busy_iff]
        numbered := h.numbered
        idle := fun _ => rfl
        in_order := by simpa using hin
        last := by simpa using hlast
        killed_stopped := h.killed_stopped
        killed_phase := fun hk => absurd (h.killed_stopped hk) hstop }
  · rename_i hnone
    exact {
      one_process := by simp [hcalls]
      busy_iff := by simp [hcalls]
      numbered := h.numbered
      idle := fun _ => hnone
      in_order := h.in_order
      last := h.last
      killed_stopped := h.killed_stopped
      killed_phase := by simp [hcalls] }

/-- `process` goes on to its next `await`. -/
theorem Kept.goto (h : s.Kept) {i : Nat} {arrival : Arrival} {phase : ProcessPhase}
    (hi : s.calls[i]? = some (arrival, phase)) (phase' : ProcessPhase)
    (hkilled : s.killed = true → phase' = .stop ∨ phase' = .notifyTradingHalted) :
    { s with calls := s.calls.set i (arrival, phase') }.Kept := by
  obtain ⟨hcalls, rfl⟩ := h.calls_eq hi
  exact { h with
    one_process := by simp [hcalls]
    busy_iff := by simp [hcalls, h.busy_iff]
    idle := by simp [hcalls]
    killed_phase := by
      intro hk c hc
      obtain rfl : c = (arrival, phase') := by simpa [hcalls] using hc
      exact hkilled hk }

theorem Kept.afterDispatch (h : s.Kept) {i : Nat} {arrival : Arrival}
    (hi : s.calls[i]? = some (arrival, .dispatch)) (breaker : ExitFailureCircuitBreaker) :
    (s.afterDispatch i arrival breaker).Kept := by
  unfold SnapshotGate.afterDispatch
  split
  · obtain ⟨hcalls, rfl⟩ := h.calls_eq hi
    exact { h with
      one_process := by simp [hcalls]
      busy_iff := by simp [hcalls, h.busy_iff]
      idle := by simp [hcalls]
      last := by simp
      killed_stopped := fun _ => rfl
      killed_phase := by simp [hcalls] }
  · have hsignalled : Kept { s with signalled := s.signalled ++ [arrival] } := { h with }
    refine hsignalled.goto hi .handleSignals fun hk => ?_
    have := h.killed_phase hk _ (List.mem_of_getElem? hi)
    simp at this

theorem Kept.stop (h : s.Kept) : { s with stopped := true }.Kept :=
  { h with
    last := by simp
    killed_stopped := fun _ => rfl }

theorem Kept.moves {a : GateLabel} (h : s.Kept) (hmove : s.Moves pair a s') : s'.Kept := by
  cases hmove with
  | onMarketData snapshot => exact h.onMarketData snapshot
  | toDispatch hi =>
    refine h.goto hi .dispatch fun hk => ?_
    have := h.killed_phase hk _ (List.mem_of_getElem? hi)
    simp at this
  | toNotice hi => exact h.goto hi .notifyTradingHalted fun _ => .inr rfl
  | afterDispatch breaker hi => exact h.afterDispatch hi breaker
  | settle hi _ => exact h.settle hi
  | stop => exact h.stop

/-! ## What a step adds -/

/-- The calls of `process` and `handleSignals` that a step may add. -/
structure Quiet (s s' : SnapshotGate) : Prop where
  stopped : s.stopped = true → s'.stopped = true ∧ s'.processed = s.processed
  killed : s.killed = true → s'.killed = true ∧ s'.signalled = s.signalled

theorem settle_quiet (s : SnapshotGate) (i : Nat) : Quiet s (s.settle i) := by
  unfold settle
  split
  · split
    · exact ⟨fun hs => ⟨hs, rfl⟩, fun hk => ⟨hk, rfl⟩⟩
    · rename_i hs
      exact ⟨fun h => absurd h hs, fun hk => ⟨hk, rfl⟩⟩
  · exact ⟨fun hs => ⟨hs, rfl⟩, fun hk => ⟨hk, rfl⟩⟩

theorem onMarketData_quiet (s : SnapshotGate) (snapshot : MarketSnapshot) :
    Quiet s (s.onMarketData pair snapshot) := by
  unfold onMarketData
  split
  · exact ⟨fun hs => ⟨hs, rfl⟩, fun hk => ⟨hk, rfl⟩⟩
  · dsimp only
    split
    · exact ⟨fun hs => ⟨hs, rfl⟩, fun hk => ⟨hk, rfl⟩⟩
    · rename_i hs
      split <;> exact ⟨fun h => absurd h hs, fun hk => ⟨hk, rfl⟩⟩

theorem Kept.afterDispatch_quiet (h : s.Kept) {i : Nat} {arrival : Arrival}
    (hi : s.calls[i]? = some (arrival, .dispatch)) (breaker : ExitFailureCircuitBreaker) :
    Quiet s (s.afterDispatch i arrival breaker) := by
  unfold SnapshotGate.afterDispatch
  split
  · exact ⟨fun _ => ⟨rfl, rfl⟩, fun _ => ⟨rfl, rfl⟩⟩
  · -- no dispatch is under way after the kill switch
    refine ⟨fun hs => ⟨hs, rfl⟩, fun hk => ?_⟩
    have := h.killed_phase hk _ (List.mem_of_getElem? hi)
    simp at this

/-- After `stop` no `process` starts, and after the kill switch no `handleSignals`. -/
theorem Kept.quiet {a : GateLabel} (h : s.Kept) (hmove : s.Moves pair a s') : Quiet s s' := by
  cases hmove with
  | onMarketData snapshot => exact s.onMarketData_quiet snapshot
  | toDispatch | toNotice => exact ⟨fun hs => ⟨hs, rfl⟩, fun hk => ⟨hk, rfl⟩⟩
  | afterDispatch breaker hi => exact h.afterDispatch_quiet hi breaker
  | settle => exact s.settle_quiet _
  | stop => exact ⟨fun _ => ⟨rfl, rfl⟩, fun hk => ⟨hk, rfl⟩⟩

/-- The kept snapshot is processed next unless the session was stopped, and without one the
session is idle. -/
structure GoesOn (s s' : SnapshotGate) : Prop where
  processed : s'.processed =
    s.processed ++ (if s.stopped = true then [] else s.pendingSnapshot.toList)
  busy_iff : s'.processing = true ↔ s.stopped = false ∧ s.pendingSnapshot.isSome = true

theorem Kept.settle_goesOn (h : s.Kept) {i : Nat} {c : Arrival × ProcessPhase}
    (hi : s.calls[i]? = some c) : GoesOn s (s.settle i) := by
  have hbusy : s.processing = true := h.busy_iff.mpr (List.ne_nil_of_mem (List.mem_of_getElem? hi))
  unfold SnapshotGate.settle
  split
  · rename_i next hnext
    split
    · rename_i hs
      exact ⟨by simp [hs], by simp [hs]⟩
    · rename_i hs
      exact ⟨by simp [hs, hnext], by simp [hs, hnext, hbusy]⟩
  · rename_i hnone
    exact ⟨by simp [hnone], by simp [hnone]⟩

/-- A rejected `process` is followed as one that resolves. -/
theorem Kept.goesOn {a : GateLabel} (h : s.Kept) (hmove : s.Moves pair a s')
    (hrejects : a.rejects = true) : GoesOn s s' := by
  cases hmove with
  | settle hi _ => exact h.settle_goesOn hi
  | onMarketData | toDispatch | toNotice | afterDispatch | stop => cases hrejects

/-! ## What a step does to the log of its labels -/

theorem settle_frame (s : SnapshotGate) (i : Nat) : (s.settle i).arrivals = s.arrivals ∧
    (s.settle i).signalled = s.signalled ∧ (s.settle i).stopped = s.stopped ∧
      (s.settle i).killed = s.killed := by
  unfold settle
  split
  · split <;> exact ⟨rfl, rfl, rfl, rfl⟩
  · exact ⟨rfl, rfl, rfl, rfl⟩

/-- The `process` that ended leaves its call, or the next one takes its place there. -/
theorem settle_ended (s : SnapshotGate) {i : Nat} {c : Arrival × ProcessPhase}
    (hi : s.calls[i]? = some c) :
    (s.settle i).processed.length + s.calls.length =
      s.processed.length + 1 + (s.settle i).calls.length := by
  obtain ⟨hlt, -⟩ := List.getElem?_eq_some_iff.mp hi
  unfold settle
  split
  · split
    · simp only [List.length_eraseIdx, if_pos hlt]
      omega
    · simp only [List.length_append, List.length_singleton, List.length_set]
  · simp only [List.length_eraseIdx, if_pos hlt]
    omega

namespace Tied

variable {past : List (SnapshotGate × GateLabel)}

theorem started : Tied pair [] started := ⟨rfl, rfl, rfl, by simp [SnapshotGate.started],
  by simp [SnapshotGate.started]⟩

/-- A step of a call that does not end it, and that nobody is told of. -/
theorem goto (h : Tied pair past s) {a : GateLabel} {i : Nat} {c : Arrival × ProcessPhase}
    (harrival : a.arrival pair = none) (hends : a.ends = false) (hstops : a.stops = false)
    (hkills : a.kills = false) (hsignals : a.signals = none) :
    Tied pair ((s, a) :: past) { s with calls := s.calls.set i c } where
  arrived := by simp [arrivedIn, harrival, h.arrived]
  signalled := by simp [signalledIn, hsignals, h.signalled]
  ended := by simp [hends, h.ended]
  stopped_iff := by simp [hstops, h.stopped_iff]
  killed_iff := by simp [hkills, h.killed_iff]

theorem onMarketData (h : Tied pair past s) (snapshot : MarketSnapshot) :
    Tied pair ((s, .onMarketData snapshot) :: past) (s.onMarketData pair snapshot) := by
  have hsignalled : s.signalled = signalledIn ((s, .onMarketData snapshot) :: past) := by
    simp [signalledIn, GateLabel.signals, h.signalled]
  have hended : s.processed.length =
      ((s, .onMarketData snapshot) :: past).countP (·.2.ends) + s.calls.length := by
    simp [GateLabel.ends, GateLabel.rejects, h.ended]
  have hstopped : s.stopped = true ↔
      ∃ e ∈ (s, .onMarketData snapshot) :: past, e.2.stops = true := by
    simp [GateLabel.stops, GateLabel.kills, h.stopped_iff]
  have hkilled : s.killed = true ↔
      ∃ e ∈ (s, .onMarketData snapshot) :: past, e.2.kills = true := by
    simp [GateLabel.kills, h.killed_iff]
  unfold SnapshotGate.onMarketData
  split
  · rename_i hpair
    exact ⟨by simp [arrivedIn, GateLabel.arrival, hpair, h.arrived], hsignalled, hended, hstopped,
      hkilled⟩
  · rename_i hpair
    have harrived : (s.arrivals ++ [(⟨s.arrivals.length, snapshot⟩ : Arrival)]).map (·.snapshot) =
        arrivedIn pair ((s, .onMarketData snapshot) :: past) := by
      simp [arrivedIn, GateLabel.arrival, not_not.mp hpair, h.arrived]
    dsimp only
    split
    · exact ⟨harrived, hsignalled, hended, hstopped, hkilled⟩
    · split
      · exact ⟨harrived, hsignalled, hended, hstopped, hkilled⟩
      · refine ⟨harrived, hsignalled, ?_, hstopped, hkilled⟩
        simp only [List.length_append, List.length_singleton, hended]
        omega

theorem afterDispatch (h : Tied pair past s) {i : Nat} {arrival : Arrival}
    (hi : s.calls[i]? = some (arrival, .dispatch)) (breaker : ExitFailureCircuitBreaker) :
    Tied pair ((s, .dispatchSettles i (some breaker)) :: past)
      (s.afterDispatch i arrival breaker) := by
  unfold SnapshotGate.afterDispatch
  split
  · rename_i hkill
    exact {
      arrived := by simp [arrivedIn, GateLabel.arrival, h.arrived]
      signalled := by simp [signalledIn, GateLabel.signals, hkill, h.signalled]
      ended := by simp [GateLabel.ends, GateLabel.rejects, h.ended]
      stopped_iff := by simp [GateLabel.stops, GateLabel.kills, hkill]
      killed_iff := by simp [GateLabel.kills, hkill] }
  · rename_i hkill
    exact {
      arrived := by simp [arrivedIn, GateLabel.arrival, h.arrived]
      signalled := by simp [signalledIn, GateLabel.signals, hkill, h.signalled, hi]
      ended := by simp [GateLabel.ends, GateLabel.rejects, h.ended]
      stopped_iff := by simp [GateLabel.stops, GateLabel.kills, hkill, h.stopped_iff]
      killed_iff := by simp [GateLabel.kills, hkill, h.killed_iff] }

theorem settle (h : Tied pair past s) {a : GateLabel} {i : Nat} {c : Arrival × ProcessPhase}
    (hi : s.calls[i]? = some c) (hends : a.ends = true) :
    Tied pair ((s, a) :: past) (s.settle i) := by
  obtain ⟨harrival, hkills, hstops, hsignals⟩ := GateLabel.frame_of_ends hends pair
  obtain ⟨harrivals, hsignalled, hstopped, hkilled⟩ := s.settle_frame i
  have hended := s.settle_ended hi
  exact {
    arrived := by rw [harrivals]; simp [arrivedIn, harrival, h.arrived]
    signalled := by rw [hsignalled]; simp [signalledIn, hsignals, h.signalled]
    ended := by
      have := h.ended
      rw [List.countP_cons_of_pos (by exact hends)]
      omega
    stopped_iff := by rw [hstopped]; simp [hstops, h.stopped_iff]
    killed_iff := by rw [hkilled]; simp [hkills, h.killed_iff] }

theorem moves (h : Tied pair past s) {a : GateLabel} (hmove : s.Moves pair a s') :
    Tied pair ((s, a) :: past) s' := by
  cases hmove with
  | onMarketData snapshot => exact h.onMarketData snapshot
  | toDispatch | toNotice => exact h.goto rfl rfl rfl rfl rfl
  | afterDispatch breaker hi => exact h.afterDispatch hi breaker
  | settle hi hends => exact h.settle hi hends
  | stop =>
    exact {
      arrived := by simp [arrivedIn, GateLabel.arrival, h.arrived]
      signalled := by simp [signalledIn, GateLabel.signals, h.signalled]
      ended := by simp [GateLabel.ends, GateLabel.rejects, h.ended]
      stopped_iff := by simp [GateLabel.stops]
      killed_iff := by simp [GateLabel.kills, h.killed_iff] }

end Tied

/-! ## Runs -/

theorem started_kept : started.Kept where
  one_process := by simp [started]
  busy_iff := by simp [started]
  numbered := rfl
  idle := fun _ => rfl
  in_order := by simp [started]
  last := by simp [started]
  killed_stopped := by simp [started]
  killed_phase := by simp [started]

theorem kept_tied {past : List (SnapshotGate × GateLabel)}
    (h : Runs.Passes (step pair) (fun _ _ => True) started past s) :
    s.Kept ∧ Tied pair past s := by
  induction h with
  | start => exact ⟨started_kept, .started⟩
  | next _ _ hstep ih =>
    exact ⟨ih.1.moves (moves_of_step hstep), ih.2.moves (moves_of_step hstep)⟩

/-- After every run, whatever is interleaved, the session has coalesced the snapshots of its
pair; from there no step processes one after `stop` or signals one after the kill switch, and
a rejected `process` neither loses the kept snapshot nor leaves the session busy. -/
theorem coalesces {past : List (SnapshotGate × GateLabel)}
    (h : Runs.Passes (step pair) (fun _ _ => True) started past s) :
    Coalesces pair past s ∧ ∀ a s', s.step pair a = some s' →
      Quiet s s' ∧ (a.rejects = true → GoesOn s s') := by
  obtain ⟨hkept, htied⟩ := kept_tied h
  refine ⟨{ htied with
    one_process := hkept.one_process
    busy_iff := hkept.busy_iff
    numbered := hkept.numbered
    in_order := (List.sublist_append_left ..).trans hkept.in_order
    last_kept := hkept.last
    last_processed := hkept.last_processed }, fun a s' hstep => ?_⟩
  exact ⟨hkept.quiet (moves_of_step hstep), hkept.goesOn (moves_of_step hstep)⟩

/-! ## The gate of the session -/

/-- What `TradingSession` keeps of the gate. -/
def session (s : SnapshotGate) : TradingSession (MarketSnapshot × ProcessPhase) where
  stopped := s.stopped
  phase := s.calls.head?.map (fun c => (c.1.snapshot, c.2))
  pendingSnapshot := s.pendingSnapshot.map (·.snapshot)

theorem session_onMarketData (h : s.Kept) (pair : CurrencyPair) (snapshot : MarketSnapshot) :
    (s.onMarketData pair snapshot).session =
      s.session.onMarketData pair (fun next => (next, .extremesUpdate)) snapshot := by
  unfold SnapshotGate.onMarketData TradingSession.onMarketData
  by_cases hstop : s.stopped = true
  · by_cases hpair : snapshot.pair = pair <;> simp [hstop, hpair, session]
  · by_cases hpair : snapshot.pair = pair
    · by_cases hbusy : s.processing = true
      · obtain ⟨c, rest, hcalls⟩ := List.exists_cons_of_ne_nil (h.busy_iff.mp hbusy)
        simp [hstop, hpair, hbusy, hcalls, session]
      · have hcalls : s.calls = [] := by
          by_contra hne
          exact hbusy (h.busy_iff.mpr hne)
        simp [hstop, hpair, hbusy, hcalls, session, TradingSession.goto]
    · simp [hstop, hpair, session]

theorem session_settle (h : s.Kept) {i : Nat} {c : Arrival × ProcessPhase}
    (hi : s.calls[i]? = some c) :
    (s.settle i).session = s.session.settle (fun next => (next, .extremesUpdate)) := by
  obtain ⟨hcalls, rfl⟩ := h.calls_eq hi
  unfold SnapshotGate.settle TradingSession.settle
  cases hpending : s.pendingSnapshot with
  | none => simp [session, hpending, hcalls]
  | some next =>
    by_cases hstop : s.stopped = true <;> simp [session, hpending, hcalls, hstop]

end SnapshotGate

/-- Two snapshots come while one is processed, which is rejected: the second of them is
next, and then `stop` is called. -/
theorem coalesces_rejected :
    ∃ past s, Runs.Passes (SnapshotGate.step .usdJpy) (fun _ _ => True) .started past s ∧
      (SnapshotGate.arrivedIn .usdJpy past).length = 3 ∧ (∃ e ∈ past, e.2.rejects = true) ∧
      s.processed.map (·.seq) = [0, 2] ∧ s.stopped = true ∧
      SnapshotGate.Coalesces .usdJpy past s := by
  have hrun : ∃ past s, Runs.Passes (SnapshotGate.step .usdJpy) (fun _ _ => True) .started past s ∧
      (SnapshotGate.arrivedIn .usdJpy past).length = 3 ∧ (∃ e ∈ past, e.2.rejects = true) ∧
      s.processed.map (·.seq) = [0, 2] ∧ s.stopped = true :=
    Runs.exists_passes [.onMarketData crossSnapshot, .extremesUpdateSettles 0 true,
      .onMarketData nextCrossSnapshot, .onMarketData crossSnapshot, .dispatchSettles 0 none,
      .extremesUpdateSettles 0 true, .stop] (by decide +kernel)
  obtain ⟨past, s, hpasses, harrived, hrejects, hprocessed, hstopped⟩ := hrun
  exact ⟨past, s, hpasses, harrived, hrejects, hprocessed, hstopped,
    (SnapshotGate.coalesces hpasses).1⟩

end Luchida
