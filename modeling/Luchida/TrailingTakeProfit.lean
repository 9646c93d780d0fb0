import Luchida.ExitOnce
import Luchida.ResetRuns

/- `TrailingTakeProfitExitRule`: the best move of each position since it was first
   evaluated, and the exit once the move has fallen back from it by a width.

   The rule forgets the best move when it asks for the exit, before it is known whether the
   exit goes through. A position that stays OPEN is then looked at as if it were new
   (`exists_peak_forgotten`). What the documentation says of it holds exactly where the
   moves since the last exit that was asked for call for the next one by themselves
   (`shouldExit_iff`).

   The numbers are those of the runtime: any linear order with a subtraction that keeps
   it, so that rounding is allowed for. -/
namespace Luchida

/-- The arithmetic of `number` that the rule uses. -/
structure Numbers (ν : Type) [LinearOrder ν] where
  zero : ν
  /-- `Big.toNumber`. -/
  ofBig : ℚ → ν
  minus : ν → ν → ν
  minus_mono : ∀ a b c : ν, a ≤ b → minus a c ≤ minus b c
  /-- A number in a template. -/
  text : ν → String
  /-- `Math.round` of a number in a template. -/
  roundText : ν → String

structure TrailingTakeProfitExitRule (ν : Type) where
  activatePips : ν
  trailWidthPips : ν
  peakPnl : List (PositionId × ν)

/-- One call of `shouldExit`. -/
structure ExitEvaluation where
  snapshot : MarketSnapshot
  position : Position

namespace TrailingTakeProfitExitRule

variable {ν : Type} [LinearOrder ν]

def new (activatePips trailWidthPips : ν) : TrailingTakeProfitExitRule ν where
  activatePips := activatePips
  trailWidthPips := trailWidthPips
  peakPnl := []

/-- `currentPips`: how far the price has gone the way of the position. -/
def currentPips (n : Numbers ν) (snapshot : MarketSnapshot) (position : Position) : ν :=
  let favorableMove := match position.buySell with
    | .buy => snapshot.tick.bid.value - position.entryPrice.value
    | .sell => position.entryPrice.value - snapshot.tick.ask.value
  n.ofBig (favorableMove / snapshot.pair.pipUnit)

theorem isBlank_reason (rest : String) : isBlank ("トレーリング利確（MFE" ++ rest) = false := by
  rw [isBlank, String.toList_append, List.all_append, Bool.and_eq_false_iff]
  exact .inl (by decide)

/-- `shouldExit`: the command, or none for `DoNothing`, and the rule afterwards. -/
def shouldExit (n : Numbers ν) (rule : TrailingTakeProfitExitRule ν) (snapshot : MarketSnapshot)
    (position : Position) : Option ExitCommand × TrailingTakeProfitExitRule ν :=
  let currentPips := currentPips n snapshot position
  let prevPeak := (OrderedMap.get rule.peakPnl position.id).getD n.zero
  let newPeak := max prevPeak currentPips
  let peakPnl := OrderedMap.set rule.peakPnl position.id newPeak
  if newPeak < rule.activatePips then (none, { rule with peakPnl := peakPnl })
  else if currentPips ≤ n.minus newPeak rule.trailWidthPips then
    -- whether the exit goes through is not known yet
    (some {
        positionId := position.id
        type := .takeProfit
        reason := {
          value := "トレーリング利確（MFE" ++ (n.roundText newPeak ++ "pips, 幅" ++
            n.text rule.trailWidthPips ++ "pips, 決済" ++ n.roundText currentPips ++ "pips）")
          nonblank := isBlank_reason _ } },
      { rule with peakPnl := OrderedMap.delete peakPnl position.id })
  else (none, { rule with peakPnl := peakPnl })

/-- The rule after some evaluations. -/
def after (n : Numbers ν) (rule : TrailingTakeProfitExitRule ν) (evals : List ExitEvaluation) :
    TrailingTakeProfitExitRule ν :=
  evals.foldl (fun r e => (r.shouldExit n e.snapshot e.position).2) rule

/-- The moves at which a position was evaluated. -/
def moves (n : Numbers ν) (id : PositionId) (evals : List ExitEvaluation) : List ν :=
  evals.filterMap fun e =>
    if e.position.id = id then some (currentPips n e.snapshot e.position) else none

/-- The best of the moves, and never below zero. -/
def peak (n : Numbers ν) (ms : List ν) : ν := ms.foldl max n.zero

/-- The best move was good enough, and the last one is back from it by the width. -/
def CallsForExit (n : Numbers ν) (activatePips trailWidthPips : ν) (ms : List ν) : Prop :=
  ∃ last ∈ ms.getLast?, activatePips ≤ peak n ms ∧ last ≤ n.minus (peak n ms) trailWidthPips

instance (n : Numbers ν) (activatePips trailWidthPips : ν) :
    DecidablePred (CallsForExit n activatePips trailWidthPips) := fun ms =>
  match h : ms.getLast? with
  | none => isFalse (by simp [CallsForExit, h])
  | some last =>
    decidable_of_iff
      (activatePips ≤ peak n ms ∧ last ≤ n.minus (peak n ms) trailWidthPips)
      (by simp [CallsForExit, h])

/-! ## Moves -/

section
variable {n : Numbers ν} {activatePips trailWidthPips : ν}

theorem peak_snoc (ms : List ν) (x : ν) : peak n (ms ++ [x]) = max (peak n ms) x := by
  rw [peak, List.foldl_append, List.foldl_cons, List.foldl_nil, ← peak]

theorem zero_le_peak (ms : List ν) : n.zero ≤ peak n ms := by
  induction ms using List.reverseRecOn with
  | nil => exact le_rfl
  | append_singleton ms x ih =>
    rw [peak_snoc]
    exact le_trans ih (le_max_left ..)

/-- More moves before cannot make the best one worse. -/
theorem peak_le_append (a b : List ν) : peak n b ≤ peak n (a ++ b) := by
  induction b using List.reverseRecOn with
  | nil => exact zero_le_peak _
  | append_singleton b x ih =>
    rw [← List.append_assoc, peak_snoc, peak_snoc]
    exact max_le_max ih le_rfl

theorem callsForExit_snoc {ms : List ν} {x : ν} :
    CallsForExit n activatePips trailWidthPips (ms ++ [x]) ↔
      activatePips ≤ peak n (ms ++ [x]) ∧ x ≤ n.minus (peak n (ms ++ [x])) trailWidthPips := by
  simp [CallsForExit]

theorem CallsForExit.append (a : List ν) {b : List ν}
    (h : CallsForExit n activatePips trailWidthPips b) :
    CallsForExit n activatePips trailWidthPips (a ++ b) := by
  obtain ⟨last, hlast, hactive, hback⟩ := h
  refine ⟨last, List.mem_getLast?_append_of_mem_getLast? hlast,
    le_trans hactive (peak_le_append a b), ?_⟩
  exact le_trans hback (n.minus_mono _ _ _ (peak_le_append a b))

theorem moves_snoc (n : Numbers ν) (id : PositionId) (evals : List ExitEvaluation)
    (e : ExitEvaluation) : moves n id (evals ++ [e]) = moves n id evals ++
      if e.position.id = id then [currentPips n e.snapshot e.position] else [] := by
  rw [moves, List.filterMap_append, ← moves]
  split
  · rename_i hid
    simp [hid]
  · rename_i hid
    simp [hid]

/-! ## What the rule remembers -/

/-- One evaluation of a position whose best move since the last exit is known. -/
theorem shouldExit_spec {rule : TrailingTakeProfitExitRule ν} (snapshot : MarketSnapshot)
    {position : Position} {s : List ν}
    (hpeak : (OrderedMap.get rule.peakPnl position.id).getD n.zero = peak n s) :
    let out := rule.shouldExit n snapshot position
    let fires := CallsForExit n rule.activatePips rule.trailWidthPips
      (s ++ [currentPips n snapshot position])
    (out.1.isSome = true ↔ fires) ∧
      (OrderedMap.get out.2.peakPnl position.id = if fires then none
        else some (peak n (s ++ [currentPips n snapshot position]))) ∧
      (∀ id, id ≠ position.id →
        OrderedMap.get out.2.peakPnl id = OrderedMap.get rule.peakPnl id) ∧
      out.2.activatePips = rule.activatePips ∧ out.2.trailWidthPips = rule.trailWidthPips := by
  simp only [shouldExit, hpeak, ← peak_snoc, callsForExit_snoc]
  split
  · rename_i hlow
    have hnot := not_le.mpr hlow
    refine ⟨by simp [hnot], by simp [hnot, OrderedMap.get_set_self], fun id hne => ?_, rfl, rfl⟩
    exact OrderedMap.get_set_of_ne _ _ hne
  · rename_i hactive
    rw [not_lt] at hactive
    split
    · rename_i hback
      refine ⟨by simp [hactive, hback], ?_, fun id hne => ?_, rfl, rfl⟩
      · rw [if_pos ⟨hactive, hback⟩]
        exact OrderedMap.get_delete_self _ _
      · dsimp only
        rw [OrderedMap.get_delete_of_ne _ hne, OrderedMap.get_set_of_ne _ _ hne]
    · rename_i hback
      refine ⟨by simp [hback], by simp [hback, OrderedMap.get_set_self], fun id hne => ?_, rfl, rfl⟩
      exact OrderedMap.get_set_of_ne _ _ hne

/-- The rule remembers the best of the moves since it last asked for the exit. -/
theorem after_spec (n : Numbers ν) (activatePips trailWidthPips : ν) (evals : List ExitEvaluation) :
    ((new activatePips trailWidthPips).after n evals).activatePips = activatePips ∧
      ((new activatePips trailWidthPips).after n evals).trailWidthPips = trailWidthPips ∧
      ∀ id, (OrderedMap.get ((new activatePips trailWidthPips).after n evals).peakPnl id).getD
        n.zero = peak n (ResetRuns.since (CallsForExit n activatePips trailWidthPips)
          (moves n id evals)) := by
  induction evals using List.reverseRecOn with
  | nil => exact ⟨rfl, rfl, fun id => rfl⟩
  | append_singleton evals e ih =>
    obtain ⟨hactivate, hwidth, hpeak⟩ := ih
    have hafter : (new activatePips trailWidthPips).after n (evals ++ [e]) =
        (((new activatePips trailWidthPips).after n evals).shouldExit n e.snapshot
          e.position).2 := by
      rw [after, List.foldl_append, List.foldl_cons, List.foldl_nil, ← after]
    obtain ⟨-, hself, hothers, hactivate', hwidth'⟩ :=
      shouldExit_spec e.snapshot (hpeak e.position.id)
    rw [hactivate, hwidth] at hself
    rw [hafter]
    refine ⟨hactivate'.trans hactivate, hwidth'.trans hwidth, fun id => ?_⟩
    by_cases hid : e.position.id = id
    · subst hid
      rw [hself, moves_snoc, if_pos rfl, ResetRuns.since_snoc]
      split
      · rfl
      · rfl
    · rw [hothers id (Ne.symm hid), hpeak id, moves_snoc, if_neg hid, List.append_nil]

/-- What an evaluation answers, by the moves since the last exit that was asked for. -/
theorem after_shouldExit (n : Numbers ν) (activatePips trailWidthPips : ν)
    (evals : List ExitEvaluation) (e : ExitEvaluation) :
    (((new activatePips trailWidthPips).after n evals).shouldExit n e.snapshot
        e.position).1.isSome = true ↔
      CallsForExit n activatePips trailWidthPips
        (ResetRuns.since (CallsForExit n activatePips trailWidthPips)
          (moves n e.position.id evals) ++ [currentPips n e.snapshot e.position]) := by
  obtain ⟨hactivate, hwidth, hpeak⟩ := after_spec n activatePips trailWidthPips evals
  have hspec := (shouldExit_spec e.snapshot (hpeak e.position.id)).1
  rw [hactivate, hwidth] at hspec
  exact hspec

/-- The last move of a prefix, and the evaluation it comes from. -/
theorem exists_of_moves_prefix {id : PositionId} {evals : List ExitEvaluation} {ms : List ν}
    {x : ν} (h : ms ++ [x] <+: moves n id evals) :
    ∃ pre e post, evals = pre ++ e :: post ∧ e.position.id = id ∧ moves n id pre = ms ∧
      currentPips n e.snapshot e.position = x := by
  obtain ⟨rest, hrest⟩ := h
  rw [List.append_assoc, List.singleton_append] at hrest
  obtain ⟨pre, l, rfl, hpre, hl⟩ := List.filterMap_eq_append_iff.mp hrest.symm
  obtain ⟨skipped, e, post, rfl, hskipped, he, -⟩ := List.filterMap_eq_cons_iff.mp hl
  split at he
  · rename_i hid
    refine ⟨pre ++ skipped, e, post, by simp, hid, ?_, Option.some.inj he⟩
    rw [moves, List.filterMap_append, hpre, List.filterMap_eq_nil_iff.mpr hskipped, List.append_nil]
  · cases he

/-- The rule keeps its documentation exactly where, after an exit was asked for, the moves
that follow call by themselves for each later one. -/
theorem shouldExit_iff (n : Numbers ν) (activatePips trailWidthPips : ν) (id : PositionId)
    (evals : List ExitEvaluation) :
    (∀ pre e post, evals = pre ++ e :: post → e.position.id = id →
      ((((new activatePips trailWidthPips).after n pre).shouldExit n e.snapshot
          e.position).1.isSome = true ↔
        CallsForExit n activatePips trailWidthPips (moves n id (pre ++ [e])))) ↔
    ∀ a b, a ≠ [] → b ≠ [] → a ++ b <+: moves n id evals →
      CallsForExit n activatePips trailWidthPips a →
      CallsForExit n activatePips trailWidthPips (a ++ b) →
      CallsForExit n activatePips trailWidthPips b := by
  rw [← ResetRuns.agrees_iff fun a b => CallsForExit.append a]
  constructor
  · intro h ms x hprefix
    obtain ⟨pre, e, post, hevals, rfl, rfl, rfl⟩ := exists_of_moves_prefix hprefix
    have hlaw := h pre e post hevals rfl
    rwa [after_shouldExit, moves_snoc, if_pos rfl] at hlaw
  · rintro h pre e post rfl rfl
    rw [after_shouldExit, moves_snoc, if_pos rfl]
    refine h _ _ ?_
    have hmoves : moves n e.position.id (pre ++ e :: post) =
        moves n e.position.id (pre ++ [e]) ++ moves n e.position.id post := by
      rw [moves, moves, moves, ← List.filterMap_append, List.append_assoc, List.singleton_append]
    rw [hmoves, moves_snoc, if_pos rfl]
    exact List.prefix_append _ _

end

/-! ## A rise that is forgotten -/

/-- Exact arithmetic. -/
def exactNumbers : Numbers ℚ where
  zero := 0
  ofBig := id
  minus := (· - ·)
  minus_mono _ _ c h := sub_le_sub_right h c
  text _ := ""
  roundText _ := ""

/-- A long position of 151 at a bid. -/
def evaluationAt (bid : Price) : ExitEvaluation where
  snapshot := { crossSnapshot with tick := ⟨⟨bid.value + 1 / 100, by have := bid.pos; positivity⟩,
    bid, 867605000, by dsimp only; linarith⟩ }
  position := heldPosition (.ofNat 1) .smaCross 1000

/-- 200 pips up, back to 130, where the exit is asked for and fails, and on to 120: the law
of the documentation asks for the exit again, the rule does not. -/
theorem exists_peak_forgotten :
    let up := evaluationAt ⟨153, by decide +kernel⟩
    let back := evaluationAt ⟨1523 / 10, by decide +kernel⟩
    let lower := evaluationAt ⟨1522 / 10, by decide +kernel⟩
    let rule : TrailingTakeProfitExitRule ℚ := new 150 70
    ((rule.after exactNumbers [up]).shouldExit exactNumbers back.snapshot
        back.position).1.isSome = true ∧
      ((rule.after exactNumbers [up, back]).shouldExit exactNumbers lower.snapshot
        lower.position).1 = none ∧
      CallsForExit exactNumbers 150 70 (moves exactNumbers (.ofNat 1) [up, back, lower]) := by
  decide +kernel

end TrailingTakeProfitExitRule

end Luchida
