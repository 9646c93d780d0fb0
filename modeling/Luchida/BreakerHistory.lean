import Luchida.ExitGuards
import Luchida.Runs

/- `ExitFailureCircuitBreaker` against the history of its calls. A dispatch announces the
   OPEN positions with `beginTick`, and reports how it went with each position that it
   tries, at most once a tick and only one that `admitAttempt` lets through.

   The class keeps a count and a tick for each position and forgets them when a position
   is closed or gone. What they stand for is said over the whole history: the ticks at
   which a position has failed since then (`failureTicks`). In every history the kill
   switch, the position it names and the answers of `admitAttempt` are what those ticks
   say (`meetsHistory`). -/
namespace Luchida

open Runs

/-- The calls that change the breaker. -/
inductive BreakerCall where
  | beginTick (ids : List PositionId)
  | recordFailure (id : PositionId)
  | recordSuccess (id : PositionId)
  deriving DecidableEq

/-- A breaker and the calls it has seen, the newest first. -/
structure BreakerRun where
  breaker : ExitFailureCircuitBreaker
  history : List BreakerCall

/-! ## What a history says -/

namespace BreakerCall

/-- The number of dispatches. -/
def ticks : List BreakerCall → Nat
  | [] => 0
  | .beginTick _ :: rest => ticks rest + 1
  | .recordFailure _ :: rest => ticks rest
  | .recordSuccess _ :: rest => ticks rest

/-- The positions that were OPEN at the last dispatch. -/
def openIds : List BreakerCall → List PositionId
  | [] => []
  | .beginTick ids :: _ => ids
  | .recordFailure _ :: rest => openIds rest
  | .recordSuccess _ :: rest => openIds rest

/-- The positions that the last dispatch has tried so far. -/
def tried : List BreakerCall → List PositionId
  | [] => []
  | .beginTick _ :: _ => []
  | .recordFailure id :: rest => id :: tried rest
  | .recordSuccess id :: rest => id :: tried rest

/-- The ticks at which a position has failed since it was last closed or not OPEN, the
newest first. -/
def failureTicks (id : PositionId) : List BreakerCall → List Nat
  | [] => []
  | .beginTick ids :: rest => if id ∈ ids then failureTicks id rest else []
  | .recordFailure id' :: rest =>
    if id' = id then ticks rest :: failureTicks id rest else failureTicks id rest
  | .recordSuccess id' :: rest => if id' = id then [] else failureTicks id rest

end BreakerCall

/-! ## Runs -/

namespace BreakerRun

open BreakerCall

def new (threshold cooldownTicks : Nat) (hpos : 1 ≤ threshold) : BreakerRun where
  breaker :=
    { threshold := threshold, cooldownTicks := cooldownTicks, threshold_pos := hpos
      tick := 0, records := [] }
  history := []

/-- The dispatch gets as far as trying a position: it is OPEN, its turn has not been, and
`admitAttempt` lets it through. -/
def tries (s : BreakerRun) (id : PositionId) : Bool :=
  id ∈ openIds s.history && id ∉ tried s.history && s.breaker.admitAttempt id

def step (s : BreakerRun) (call : BreakerCall) : Option BreakerRun :=
  match call with
  | .beginTick ids => some ⟨s.breaker.beginTick ids, call :: s.history⟩
  | .recordFailure id =>
    if s.tries id then some ⟨s.breaker.recordFailure id, call :: s.history⟩ else none
  | .recordSuccess id =>
    if s.tries id then some ⟨s.breaker.recordSuccess id, call :: s.history⟩ else none

theorem tries_iff {s : BreakerRun} {id : PositionId} : s.tries id = true ↔
    id ∈ openIds s.history ∧ id ∉ tried s.history ∧ s.breaker.admitAttempt id = true := by
  simp [tries, and_assoc]

/-! ## What the class keeps -/

/-- The records are the failures of the history. -/
structure Tracks (threshold cooldownTicks : Nat) (s : BreakerRun) : Prop where
  threshold_eq : s.breaker.threshold = threshold
  cooldown_eq : s.breaker.cooldownTicks = cooldownTicks
  tick_eq : s.breaker.tick = ticks s.history
  mem_records : ∀ e, e ∈ s.breaker.records ↔ ∃ t rest, failureTicks e.1 s.history = t :: rest ∧
    e.2 = ⟨rest.length + 1, t + cooldownTicks⟩
  opened : ∀ id, failureTicks id s.history ≠ [] → id ∈ openIds s.history
  past : ∀ id t rest, failureTicks id s.history = t :: rest →
    t ≤ ticks s.history ∧ (t = ticks s.history → id ∈ tried s.history)

namespace Tracks

variable {threshold cooldownTicks : Nat} {s s' : BreakerRun} {id : PositionId}

theorem new (hpos : 1 ≤ threshold) :
    Tracks threshold cooldownTicks (BreakerRun.new threshold cooldownTicks hpos) where
  threshold_eq := rfl
  cooldown_eq := rfl
  tick_eq := rfl
  mem_records e := by simp [BreakerRun.new, failureTicks]
  opened id h := absurd rfl h
  past id t rest h := by cases h

/-- The record of a position, if it has one. -/
theorem get_records (h : Tracks threshold cooldownTicks s) (id : PositionId) :
    OrderedMap.get s.breaker.records id = match failureTicks id s.history with
      | [] => none
      | t :: rest => some ⟨rest.length + 1, t + cooldownTicks⟩ := by
  cases hget : OrderedMap.get s.breaker.records id with
  | none =>
    split
    · rfl
    · rename_i t rest hticks
      have hmem := (h.mem_records (id, ⟨rest.length + 1, t + cooldownTicks⟩)).mpr
        ⟨t, rest, hticks, rfl⟩
      obtain ⟨v, hv, -⟩ := OrderedMap.exists_get_of_mem hmem
      rw [hget] at hv
      cases hv
  | some record =>
    obtain ⟨t, rest, hticks, hrecord⟩ := (h.mem_records _).mp (OrderedMap.mem_of_get hget)
    dsimp only at hticks hrecord
    rw [hticks, hrecord]

theorem beginTick (h : Tracks threshold cooldownTicks s) (ids : List PositionId) :
    Tracks threshold cooldownTicks
      ⟨s.breaker.beginTick ids, .beginTick ids :: s.history⟩ where
  threshold_eq := h.threshold_eq
  cooldown_eq := h.cooldown_eq
  tick_eq := congrArg (· + 1) h.tick_eq
  mem_records e := by
    simp only [ExitFailureCircuitBreaker.beginTick, List.mem_filter, decide_eq_true_eq,
      failureTicks]
    rw [h.mem_records e]
    split
    · rename_i hmem
      simp [hmem]
    · rename_i hmem
      simp [hmem]
  opened id hne := by
    simp only [failureTicks] at hne
    split at hne
    · rename_i hmem
      exact hmem
    · exact absurd rfl hne
  past id t rest hticks := by
    simp only [failureTicks] at hticks
    split at hticks
    · have hle := (h.past id t rest hticks).1
      simp only [ticks]
      omega
    · cases hticks

/-- A failure is counted on top of those of the history. -/
theorem recordFailure_records (h : Tracks threshold cooldownTicks s) (id : PositionId) :
    (s.breaker.recordFailure id).records = OrderedMap.set s.breaker.records id
      ⟨(failureTicks id s.history).length + 1, ticks s.history + cooldownTicks⟩ := by
  rw [ExitFailureCircuitBreaker.recordFailure, h.get_records id, h.tick_eq, h.cooldown_eq]
  cases failureTicks id s.history <;> rfl

theorem recordFailure (h : Tracks threshold cooldownTicks s) (hid : id ∈ openIds s.history) :
    Tracks threshold cooldownTicks
      ⟨s.breaker.recordFailure id, .recordFailure id :: s.history⟩ where
  threshold_eq := h.threshold_eq
  cooldown_eq := h.cooldown_eq
  tick_eq := h.tick_eq
  mem_records e := by
    obtain ⟨id', record⟩ := e
    simp only [h.recordFailure_records, OrderedMap.mem_set, failureTicks, Prod.mk.injEq]
    by_cases heq : id' = id
    · subst heq
      simp
    · have hne : id ≠ id' := Ne.symm heq
      simp [heq, hne, h.mem_records]
  opened id' hne := by
    simp only [failureTicks] at hne
    split at hne
    · rename_i heq
      exact heq ▸ hid
    · exact h.opened id' hne
  past id' t rest hticks := by
    simp only [failureTicks] at hticks
    split at hticks
    · rename_i heq
      cases hticks
      exact ⟨le_rfl, fun _ => by simp [tried, heq]⟩
    · obtain ⟨hle, htried⟩ := h.past id' t rest hticks
      exact ⟨hle, fun heq => List.mem_cons_of_mem _ (htried heq)⟩

theorem recordSuccess (h : Tracks threshold cooldownTicks s) (id : PositionId) :
    Tracks threshold cooldownTicks
      ⟨s.breaker.recordSuccess id, .recordSuccess id :: s.history⟩ where
  threshold_eq := h.threshold_eq
  cooldown_eq := h.cooldown_eq
  tick_eq := h.tick_eq
  mem_records e := by
    simp only [ExitFailureCircuitBreaker.recordSuccess, OrderedMap.mem_delete, failureTicks]
    rw [h.mem_records e]
    by_cases heq : e.1 = id
    · simp [heq]
    · have hne : id ≠ e.1 := Ne.symm heq
      simp [heq, hne]
  opened id' hne := by
    simp only [failureTicks] at hne
    split at hne
    · exact absurd rfl hne
    · exact h.opened id' hne
  past id' t rest hticks := by
    simp only [failureTicks] at hticks
    split at hticks
    · cases hticks
    · obtain ⟨hle, htried⟩ := h.past id' t rest hticks
      exact ⟨hle, fun heq => List.mem_cons_of_mem _ (htried heq)⟩

theorem step (h : Tracks threshold cooldownTicks s) {call : BreakerCall}
    (hs : BreakerRun.step s call = some s') : Tracks threshold cooldownTicks s' := by
  cases call with
  | beginTick ids =>
    cases hs
    exact h.beginTick ids
  | recordFailure id =>
    simp only [BreakerRun.step] at hs
    split at hs
    · rename_i htries
      cases hs
      exact h.recordFailure (tries_iff.mp htries).1
    · cases hs
  | recordSuccess id =>
    simp only [BreakerRun.step] at hs
    split at hs
    · cases hs
      exact h.recordSuccess id
    · cases hs

/-- A position is barred from its last failure on until the cooldown is over. -/
theorem admitAttempt_iff (h : Tracks threshold cooldownTicks s) (id : PositionId) :
    s.breaker.admitAttempt id = true ↔
      ∀ t ∈ (failureTicks id s.history).head?, t + cooldownTicks ≤ ticks s.history := by
  rw [ExitFailureCircuitBreaker.admitAttempt, h.get_records id, h.tick_eq]
  cases failureTicks id s.history with
  | nil => simp
  | cons t rest => simp

/-- The position that is named has a count of its own, and none has more. -/
theorem killDetail_eq_some (h : Tracks threshold cooldownTicks s) {d : KillDetail}
    (hd : s.breaker.killDetail = some d) :
    d.threshold = threshold ∧
      d.consecutiveFailures = (failureTicks d.positionId s.history).length ∧
      threshold ≤ d.consecutiveFailures ∧
      ∀ id, (failureTicks id s.history).length ≤ d.consecutiveFailures := by
  obtain ⟨hfrom, hreached, -, hmax⟩ :=
    ExitFailureCircuitBreaker.worstOf_eq_some (by simp) hd
  rw [h.threshold_eq] at hfrom hreached
  obtain ⟨r, hr, rfl⟩ := hfrom.resolve_left (by simp)
  obtain ⟨t, rest, hticks, hrecord⟩ := (h.mem_records r).mp hr
  refine ⟨rfl, by simp [hticks, hrecord], hreached, fun id => ?_⟩
  cases hid : failureTicks id s.history with
  | nil => exact Nat.zero_le _
  | cons t' rest' =>
    exact hmax (id, ⟨rest'.length + 1, t' + cooldownTicks⟩)
      ((h.mem_records _).mpr ⟨t', rest', hid, rfl⟩)

theorem killDetail_isSome_iff (h : Tracks threshold cooldownTicks s) :
    s.breaker.killDetail.isSome = true ↔
      ∃ id ∈ openIds s.history, threshold ≤ (failureTicks id s.history).length := by
  have hpos : 1 ≤ threshold := h.threshold_eq ▸ s.breaker.threshold_pos
  rw [ExitFailureCircuitBreaker.killDetail_isSome_iff, h.threshold_eq]
  constructor
  · rintro ⟨r, hr, hreached⟩
    obtain ⟨t, rest, hticks, hrecord⟩ := (h.mem_records r).mp hr
    refine ⟨r.1, h.opened _ (by simp [hticks]), ?_⟩
    simpa [hticks, hrecord] using hreached
  · rintro ⟨id, -, hreached⟩
    cases hid : failureTicks id s.history with
    | nil =>
      rw [hid] at hreached
      exact absurd (le_trans hpos hreached) (by simp)
    | cons t rest =>
      rw [hid] at hreached
      exact ⟨(id, ⟨rest.length + 1, t + cooldownTicks⟩), (h.mem_records _).mpr ⟨t, rest, hid, rfl⟩,
        hreached⟩

end Tracks

/-- What the breaker answers, from the history alone. -/
structure MeetsHistory (threshold cooldownTicks : Nat) (s : BreakerRun) : Prop where
  killed_iff : s.breaker.killDetail.isSome = true ↔
    ∃ id ∈ openIds s.history, threshold ≤ (failureTicks id s.history).length
  names_worst : ∀ d ∈ s.breaker.killDetail, d.positionId ∈ openIds s.history ∧
    d.consecutiveFailures = (failureTicks d.positionId s.history).length ∧
    d.threshold = threshold ∧
    ∀ id, (failureTicks id s.history).length ≤ d.consecutiveFailures
  barred_iff : ∀ id, id ∉ tried s.history → (s.breaker.admitAttempt id = false ↔
    ∃ t ∈ (failureTicks id s.history).head?,
      t + 1 ≤ ticks s.history ∧ ticks s.history + 1 ≤ t + cooldownTicks)
  spaced : ∀ id, s.tries id = true → ∀ t ∈ (failureTicks id s.history).head?,
    t + max 1 cooldownTicks ≤ ticks s.history

theorem Tracks.meets {threshold cooldownTicks : Nat} {s : BreakerRun}
    (h : Tracks threshold cooldownTicks s) : MeetsHistory threshold cooldownTicks s := by
  have hpast : ∀ id, id ∉ tried s.history → ∀ t ∈ (failureTicks id s.history).head?,
      t + 1 ≤ ticks s.history := by
    intro id htried t ht
    obtain ⟨rest, hticks⟩ := List.head?_eq_some_iff.mp (Option.mem_def.mp ht)
    obtain ⟨hle, hnow⟩ := h.past id t rest hticks
    exact Nat.lt_of_le_of_ne hle fun heq => htried (hnow heq)
  refine ⟨h.killDetail_isSome_iff, fun d hd => ?_, fun id htried => ?_, fun id htries t ht => ?_⟩
  · obtain ⟨hthreshold, hcount, hreached, hmax⟩ := h.killDetail_eq_some (Option.mem_def.mp hd)
    refine ⟨h.opened _ fun hnil => ?_, hcount, hthreshold, hmax⟩
    rw [hcount, hnil] at hreached
    exact absurd (le_trans (h.threshold_eq ▸ s.breaker.threshold_pos) hreached) (by simp)
  · rw [← Bool.not_eq_true, h.admitAttempt_iff]
    constructor
    · intro hnot
      push Not at hnot
      obtain ⟨t, ht, hlt⟩ := hnot
      exact ⟨t, ht, hpast id htried t ht, hlt⟩
    · rintro ⟨t, ht, -, hlt⟩ hcooled
      have := hcooled t ht
      omega
  · obtain ⟨-, htried, hadmitted⟩ := tries_iff.mp htries
    have hcooled := h.admitAttempt_iff id |>.mp hadmitted t ht
    have hlater := hpast id htried t ht
    omega

/-- In every run of dispatches the breaker answers what its history says. -/
theorem meetsHistory (threshold cooldownTicks : Nat) (hpos : 1 ≤ threshold) {s : BreakerRun}
    (h : Reaches step (fun _ _ => True) (new threshold cooldownTicks hpos) s) :
    MeetsHistory threshold cooldownTicks s :=
  (h.invariant (Tracks.new hpos) fun _ _ _ hs _ hstep => hs.step hstep).meets

/-- Two failures two ticks apart, with a threshold of 2 and a cooldown of 2: the position is
barred in the tick between them, and the second one fires the kill switch. -/
theorem exists_meetsHistory_twice :
    ∃ s, Reaches step (fun _ _ => True) (new 2 2 (by decide)) s ∧
      s.breaker.killDetail = some ⟨.ofNat 1, 2, 2⟩ ∧ MeetsHistory 2 2 s := by
  obtain ⟨s, hs, hkill⟩ : ∃ s, Reaches step (fun _ _ => True) (new 2 2 (by decide)) s ∧
      s.breaker.killDetail = some ⟨.ofNat 1, 2, 2⟩ := by
    exact exists_reaches ([.beginTick [.ofNat 1], .recordFailure (.ofNat 1), .beginTick [.ofNat 1],
      .beginTick [.ofNat 1], .recordFailure (.ofNat 1)] : List BreakerCall) (by decide +kernel)
  exact ⟨s, hs, hkill, meetsHistory 2 2 (by decide) hs⟩

end BreakerRun

end Luchida
