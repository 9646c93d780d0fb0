import Luchida.Domain
import Luchida.OrderedMap

/- What the exit side keeps between two dispatches: ExitFailureCircuitBreaker.ts, which
   spaces out the attempts on a position and stops the session after too many failures in
   a row, and ExtremeTracker.ts, the best and the worst price seen by each position. -/
namespace Luchida

/-! ## Failures in a row -/

structure FailureRecord where
  consecutiveFailures : Nat
  cooldownUntilTick : Nat
  deriving DecidableEq

/-- `ExitFailureCircuitBreaker`. `ExitFailureThreshold.of` throws below 1. -/
structure ExitFailureCircuitBreaker where
  threshold : Nat
  cooldownTicks : Nat
  threshold_pos : 1 ≤ threshold
  tick : Nat
  records : List (PositionId × FailureRecord)

structure KillDetail where
  positionId : PositionId
  consecutiveFailures : Nat
  threshold : Nat
  deriving DecidableEq

namespace ExitFailureCircuitBreaker

/-- `beginTick`: forget the positions that are no longer OPEN. -/
def beginTick (b : ExitFailureCircuitBreaker) (activeIds : List PositionId) :
    ExitFailureCircuitBreaker :=
  { b with
    tick := b.tick + 1
    records := b.records.filter (fun r => r.1 ∈ activeIds) }

def admitAttempt (b : ExitFailureCircuitBreaker) (id : PositionId) : Bool :=
  match OrderedMap.get b.records id with
  | none => true
  | some record => record.cooldownUntilTick ≤ b.tick

def recordFailure (b : ExitFailureCircuitBreaker) (id : PositionId) : ExitFailureCircuitBreaker :=
  let failures := match OrderedMap.get b.records id with
    | none => 0
    | some record => record.consecutiveFailures
  { b with records := OrderedMap.set b.records id ⟨failures + 1, b.tick + b.cooldownTicks⟩ }

def recordSuccess (b : ExitFailureCircuitBreaker) (id : PositionId) : ExitFailureCircuitBreaker :=
  { b with records := OrderedMap.delete b.records id }

/-- The loop of `killDetail`: the first of the records with the most failures. -/
def worstOf (threshold : Nat) : Option KillDetail → List (PositionId × FailureRecord) →
    Option KillDetail
  | worst, [] => worst
  | worst, (id, record) :: rest =>
    if record.consecutiveFailures < threshold then worstOf threshold worst rest
    else
      let detail : KillDetail := ⟨id, record.consecutiveFailures, threshold⟩
      match worst with
      | none => worstOf threshold (some detail) rest
      | some w =>
        if w.consecutiveFailures < record.consecutiveFailures then
          worstOf threshold (some detail) rest
        else worstOf threshold worst rest

def killDetail (b : ExitFailureCircuitBreaker) : Option KillDetail :=
  worstOf b.threshold none b.records

theorem worstOf_isSome_iff (threshold : Nat) (worst : Option KillDetail)
    (records : List (PositionId × FailureRecord)) :
    (worstOf threshold worst records).isSome = true ↔
      worst.isSome = true ∨ ∃ r ∈ records, threshold ≤ r.2.consecutiveFailures := by
  induction records generalizing worst with
  | nil => simp [worstOf]
  | cons r rest ih =>
    obtain ⟨id, record⟩ := r
    simp only [worstOf]
    split
    · rename_i hlt
      rw [ih]
      simp [Nat.not_le.mpr hlt]
    · rename_i hge
      have hge := Nat.not_lt.mp hge
      cases worst with
      | none => rw [ih]; simp [hge]
      | some w =>
        dsimp only
        split <;> rw [ih] <;> simp

/-- The record that is named is one of those that were looked at, and none has more failures. -/
theorem worstOf_eq_some {threshold : Nat} {worst : Option KillDetail} {d : KillDetail}
    {records : List (PositionId × FailureRecord)}
    (hworst : ∀ w ∈ worst, threshold ≤ w.consecutiveFailures)
    (h : worstOf threshold worst records = some d) :
    (d ∈ worst ∨ ∃ r ∈ records, d = ⟨r.1, r.2.consecutiveFailures, threshold⟩) ∧
      threshold ≤ d.consecutiveFailures ∧
      (∀ w ∈ worst, w.consecutiveFailures ≤ d.consecutiveFailures) ∧
      ∀ r ∈ records, r.2.consecutiveFailures ≤ d.consecutiveFailures := by
  induction records generalizing worst with
  | nil =>
    have hd : d ∈ worst := Option.mem_def.mpr h
    refine ⟨.inl hd, hworst d hd, fun w hw => ?_, by simp⟩
    rw [Option.mem_unique hw hd]
  | cons r rest ih =>
    obtain ⟨id, record⟩ := r
    simp only [worstOf] at h
    split at h
    · rename_i hlt
      obtain ⟨hfrom, hd, hle, hrest⟩ := ih hworst h
      refine ⟨hfrom.imp_right fun ⟨r, hr, heq⟩ => ⟨r, List.mem_cons_of_mem _ hr, heq⟩, hd, hle, ?_⟩
      intro r hr
      rcases List.mem_cons.mp hr with rfl | hr
      · exact le_trans (le_of_lt hlt) hd
      · exact hrest r hr
    · rename_i hge
      -- either the record takes the place of the worst so far, or the worst has no fewer failures
      have htaken : worstOf threshold (some ⟨id, record.consecutiveFailures, threshold⟩) rest =
          some d → (∀ w ∈ worst, w.consecutiveFailures ≤ record.consecutiveFailures) →
          (d ∈ worst ∨ ∃ r ∈ (id, record) :: rest,
            d = ⟨r.1, r.2.consecutiveFailures, threshold⟩) ∧
          threshold ≤ d.consecutiveFailures ∧
          (∀ w ∈ worst, w.consecutiveFailures ≤ d.consecutiveFailures) ∧
          ∀ r ∈ (id, record) :: rest, r.2.consecutiveFailures ≤ d.consecutiveFailures := by
        intro h hbelow
        obtain ⟨hfrom, hd, hle, hrest⟩ := ih (by simpa using hge) h
        have hrecord := hle _ rfl
        refine ⟨.inr ?_, hd, fun w hw => le_trans (hbelow w hw) hrecord, fun r hr => ?_⟩
        · rcases hfrom with hd | ⟨r, hr, heq⟩
          · exact ⟨(id, record), List.mem_cons_self .., (Option.some.inj hd).symm⟩
          · exact ⟨r, List.mem_cons_of_mem _ hr, heq⟩
        · rcases List.mem_cons.mp hr with rfl | hr
          · exact hrecord
          · exact hrest r hr
      cases worst with
      | none => exact htaken h (by simp)
      | some w =>
        dsimp only at h
        split at h
        · rename_i hlt
          exact htaken h (by simpa using le_of_lt hlt)
        · rename_i hnot
          obtain ⟨hfrom, hd, hle, hrest⟩ := ih hworst h
          refine ⟨hfrom.imp_right fun ⟨r, hr, heq⟩ => ⟨r, List.mem_cons_of_mem _ hr, heq⟩, hd, hle,
            ?_⟩
          intro r hr
          rcases List.mem_cons.mp hr with rfl | hr
          · exact le_trans (not_lt.mp hnot) (hle w rfl)
          · exact hrest r hr

/-- The kill switch fires exactly when a position has failed often enough in a row. -/
theorem killDetail_isSome_iff (b : ExitFailureCircuitBreaker) :
    b.killDetail.isSome = true ↔ ∃ r ∈ b.records, b.threshold ≤ r.2.consecutiveFailures := by
  simp [killDetail, worstOf_isSome_iff]

/-- After a failure a position is not tried again before its cooldown is over. -/
theorem admitAttempt_recordFailure (b : ExitFailureCircuitBreaker) (id : PositionId) :
    (b.recordFailure id).admitAttempt id = true ↔ b.cooldownTicks = 0 := by
  simp [admitAttempt, recordFailure, OrderedMap.get_set_self]

/-- The position will be let through at the next tick, if it is still OPEN. -/
def admittedNext (b : ExitFailureCircuitBreaker) (id : PositionId) : Bool :=
  match OrderedMap.get b.records id with
  | none => true
  | some record => record.cooldownUntilTick ≤ b.tick + 1

theorem admitAttempt_beginTick (b : ExitFailureCircuitBreaker) {ids : List PositionId}
    {id : PositionId} (hid : id ∈ ids) :
    (b.beginTick ids).admitAttempt id = b.admittedNext id := by
  unfold admitAttempt beginTick admittedNext
  rw [OrderedMap.get_filter b.records (q := fun id => decide (id ∈ ids)) (decide_eq_true hid)]

/-- How it went with one position says nothing about another. -/
theorem admitAttempt_recordFailure_of_ne (b : ExitFailureCircuitBreaker) {id id' : PositionId}
    (hne : id' ≠ id) : (b.recordFailure id).admitAttempt id' = b.admitAttempt id' := by
  unfold admitAttempt recordFailure
  rw [OrderedMap.get_set_of_ne b.records _ hne]

theorem admitAttempt_recordSuccess_of_ne (b : ExitFailureCircuitBreaker) {id id' : PositionId}
    (hne : id' ≠ id) : (b.recordSuccess id).admitAttempt id' = b.admitAttempt id' := by
  unfold admitAttempt recordSuccess
  rw [OrderedMap.get_delete_of_ne b.records hne]

end ExitFailureCircuitBreaker

/-! ## Extremes -/

structure ExtremesSnapshot where
  highest : Price
  lowest : Price

/-- `ExtremeTracker`. -/
abbrev ExtremeTracker := List (PositionId × ExtremesSnapshot)

/-- `ExtremeTracker.update`: a long position is closed at the bid, a short one at the
ask. -/
def ExtremeTracker.update (tracker : ExtremeTracker) (id : PositionId) (bid ask : Price)
    (buySell : BuySell) : ExtremeTracker :=
  let price := match buySell with
    | .buy => bid
    | .sell => ask
  match OrderedMap.get tracker id with
  | none => OrderedMap.set tracker id ⟨price, price⟩
  | some existing => OrderedMap.set tracker id {
      highest := if price.isHigherThan existing.highest then price else existing.highest
      lowest := if existing.lowest.isHigherThan price then price else existing.lowest }

/-- `ExtremeTracker.updateOhlc`: the range of a whole bar, whatever the side. -/
def ExtremeTracker.updateOhlc (tracker : ExtremeTracker) (id : PositionId) (high low : Price) :
    ExtremeTracker :=
  match OrderedMap.get tracker id with
  | none => OrderedMap.set tracker id ⟨high, low⟩
  | some existing => OrderedMap.set tracker id {
      highest := if high.isHigherThan existing.highest then high else existing.highest
      lowest := if existing.lowest.isHigherThan low then low else existing.lowest }

/-- `PositionExtremesUpdater.update` once the OPEN positions of the pair are read. -/
def ExtremeTracker.updateAll (bid ask : Price) : List Position → ExtremeTracker → ExtremeTracker
  | [], tracker => tracker
  | p :: rest, tracker => updateAll bid ask rest (tracker.update p.id bid ask p.buySell)

/-- The price at which the position would be closed lies between its extremes. -/
theorem ExtremeTracker.update_bounds (tracker : ExtremeTracker) (id : PositionId)
    (bid ask : Price) (buySell : BuySell) :
    ∃ e, OrderedMap.get (tracker.update id bid ask buySell) id = some e ∧
      e.lowest.value ≤ (match buySell with | .buy => bid | .sell => ask).value ∧
      (match buySell with | .buy => bid | .sell => ask).value ≤ e.highest.value := by
  unfold update
  generalize (match buySell with | .buy => bid | .sell => ask) = price
  cases OrderedMap.get tracker id with
  | none => exact ⟨_, OrderedMap.get_set_self .., le_rfl, le_rfl⟩
  | some existing =>
    refine ⟨_, OrderedMap.get_set_self .., ?_, ?_⟩
    · dsimp only
      split
      · exact le_rfl
      · rename_i h
        rw [Price.isHigherThan_iff, not_lt] at h
        exact h
    · dsimp only
      split
      · exact le_rfl
      · rename_i h
        rw [Price.isHigherThan_iff, not_lt] at h
        exact h

end Luchida
