import Luchida.Allocation
import Luchida.Throws

/- What becomes of a base lot when an allocation is applied to it: `LotAllocation.apply`,
   and steps 3 to 5 of `PositionManager.handleSignals` around it.

   Every share is cut to a multiple of 100, and the shares may add up to ten ticks more than
   one. The lots are still never more than the base lot together: the ten ticks are worth
   less than one unit of the largest lot (`total_le`). So nothing is ever dropped for
   exceeding the limit of a single lot.

   A share of less than 100 units is not left out: `Lot.of` throws, and `handleSignals` has
   no catch there. `apply_ok_iff` says for which base lots there is a lot for every share. -/
namespace Luchida

open Throws

/-! ## One share -/

namespace Ratio

theorem applyTo_eq_some {r : Ratio} {lot share : Lot} :
    r.applyTo lot = some share ↔ share.units = lot.units * r.ticks / (100 * 10 ^ 10) * 100 := by
  unfold applyTo Lot.of
  constructor
  · intro h
    split at h
    · cases h
      rfl
    · cases h
  · intro h
    have hlot := share.min_le
    have hmax := share.le_max
    have hdvd := share.dvd
    rw [dif_pos (by rw [← h]; exact ⟨hlot, hmax, hdvd⟩)]
    simp only [← h]

/-- There is a lot for the share when it comes to 100 units. -/
theorem applyTo_ok_iff {r : Ratio} {lot : Lot} :
    (∃ share, r.applyTo lot = some share) ↔ 100 * 10 ^ 10 ≤ lot.units * r.ticks := by
  constructor
  · intro ⟨share, h⟩
    have hunits := applyTo_eq_some.mp h
    have hmin := share.min_le
    omega
  · intro h
    have hle : lot.units * r.ticks ≤ 500000 * 10 ^ 10 := Nat.mul_le_mul lot.le_max r.le_one
    have hmax : lot.units * r.ticks / (100 * 10 ^ 10) * 100 ≤ 500000 := by omega
    have hmin : 100 ≤ lot.units * r.ticks / (100 * 10 ^ 10) * 100 := by omega
    exact ⟨⟨_, hmin, hmax, Nat.dvd_mul_left ..⟩, applyTo_eq_some.mpr rfl⟩

/-- Cutting takes away, so a share is worth its ratio at most. -/
theorem applyTo_le {r : Ratio} {lot share : Lot} (h : r.applyTo lot = some share) :
    share.units * 10 ^ 10 ≤ lot.units * r.ticks := by
  have hunits := applyTo_eq_some.mp h
  rw [hunits, Nat.mul_assoc]
  exact Nat.div_mul_le_self ..

end Ratio

/-! ## All shares -/

namespace LotAllocation

/-- The entries that get a lot. -/
def given (entries : List (StrategyName × Ratio)) : List (StrategyName × Ratio) :=
  entries.filter (fun e => !e.2.isZero)

/-- The lot of an entry. -/
def LotFor (baseLot : Lot) (e : StrategyName × Ratio) (x : StrategyName × Lot) : Prop :=
  x.1 = e.1 ∧ e.2.applyTo baseLot = some x.2

theorem given_cons_zero {e : StrategyName × Ratio} (rest : List (StrategyName × Ratio))
    (h : e.2.isZero = true) : given (e :: rest) = given rest := by
  simp [given, h]

theorem given_cons {e : StrategyName × Ratio} (rest : List (StrategyName × Ratio))
    (h : e.2.isZero = false) : given (e :: rest) = e :: given rest := by
  simp [given, h]

/-- `apply` succeeds with one lot for each entry that gets one, in their order. -/
theorem applyShares_eq_ok {baseLot : Lot} {entries : List (StrategyName × Ratio)}
    {lots : List (StrategyName × Lot)} :
    applyShares baseLot entries = .ok lots ↔
      List.Forall₂ (LotFor baseLot) (given entries) lots := by
  induction entries generalizing lots with
  | nil =>
    rw [show given [] = [] from rfl, List.forall₂_nil_left_iff]
    exact ⟨fun h => (Except.ok.inj h).symm, fun h => h ▸ rfl⟩
  | cons e rest ih =>
    obtain ⟨s, r⟩ := e
    cases hz : r.isZero with
    | true =>
      rw [applyShares, if_pos hz, given_cons_zero rest hz]
      exact ih
    | false =>
      rw [applyShares, if_neg (by simp [hz]), given_cons rest hz, List.forall₂_cons_left_iff]
      constructor
      · intro h
        split at h
        · cases h
        · rename_i lot hlot
          split at h
          · cases h
          · rename_i others hothers
            cases h
            exact ⟨(s, lot), others, ⟨rfl, hlot⟩, ih.mp hothers, rfl⟩
      · intro ⟨⟨s', lot⟩, others, ⟨hs, hlot⟩, hothers, hlots⟩
        cases hs
        simp only at hlot
        simp only [hlot, ih.mpr hothers, hlots]

/-- The lots are for the strategies with a share. -/
theorem lotFor_keys {baseLot : Lot} {entries : List (StrategyName × Ratio)}
    {lots : List (StrategyName × Lot)} (h : List.Forall₂ (LotFor baseLot) entries lots) :
    lots.map (·.1) = entries.map (·.1) := by
  induction h with
  | nil => rfl
  | cons hhead _ ih => rw [List.map_cons, List.map_cons, hhead.1, ih]

theorem lotFor_total_le {baseLot : Lot} {entries : List (StrategyName × Ratio)}
    {lots : List (StrategyName × Lot)} (h : List.Forall₂ (LotFor baseLot) entries lots) :
    (lots.map (·.2.units)).sum * 10 ^ 10 ≤ baseLot.units * (entries.map (·.2.ticks)).sum := by
  induction h with
  | nil => simp
  | cons hhead _ ih =>
    have hle := Ratio.applyTo_le hhead.2
    simp only [List.map_cons, List.sum_cons]
    rw [Nat.add_mul, Nat.mul_add]
    exact Nat.add_le_add hle ih

theorem given_ticks_le (entries : List (StrategyName × Ratio)) :
    ((given entries).map (·.2.ticks)).sum ≤ (entries.map (·.2.ticks)).sum := by
  apply List.Sublist.sum_le_sum
  · exact List.Sublist.map _ List.filter_sublist
  · intro t _
    exact Nat.zero_le t

/-- What `of` has checked of the sum. -/
theorem of_sum_le {entries : List (StrategyName × Ratio)} {a : LotAllocation}
    (h : of entries = .ok a) :
    a.ratios = entries ∧ (entries.map (·.2.ticks)).sum ≤ 10 ^ 10 + 10 := by
  obtain ⟨hratios, hzero | hnear⟩ := of_eq_ok.mp h
  · have hall : ∀ t ∈ entries.map (·.2.ticks), t = 0 := by
      intro t ht
      obtain ⟨e, he, rfl⟩ := List.mem_map.mp ht
      exact eq_of_beq (List.all_eq_true.mp hzero e he)
    refine ⟨hratios, ?_⟩
    rw [List.sum_eq_zero hall]
    exact Nat.zero_le _
  · exact ⟨hratios, hnear.2⟩

/-- Ten ticks more than one are worth less than a unit. -/
theorem total_le {entries : List (StrategyName × Ratio)} {a : LotAllocation}
    (hof : of entries = .ok a) {baseLot : Lot} {lots : List (StrategyName × Lot)}
    (happly : a.apply baseLot = .ok lots) :
    (lots.map (·.2.units)).sum ≤ baseLot.units := by
  obtain ⟨hratios, hsum⟩ := of_sum_le hof
  have hshares := applyShares_eq_ok.mp happly
  rw [hratios] at hshares
  have htotal : (lots.map (·.2.units)).sum * 10 ^ 10 ≤
      baseLot.units * 10 ^ 10 + baseLot.units * 10 := by
    calc (lots.map (·.2.units)).sum * 10 ^ 10
        ≤ baseLot.units * ((given entries).map (·.2.ticks)).sum := lotFor_total_le hshares
      _ ≤ baseLot.units * (10 ^ 10 + 10) :=
        Nat.mul_le_mul_left _ ((given_ticks_le entries).trans hsum)
      _ = baseLot.units * 10 ^ 10 + baseLot.units * 10 := Nat.mul_add ..
  have hmax := baseLot.le_max
  omega

/-- There is a lot for every share exactly when each of them comes to 100 units. -/
theorem apply_ok_iff (a : LotAllocation) (baseLot : Lot) :
    (∃ lots, a.apply baseLot = .ok lots) ↔
      ∀ e ∈ a.ratios, e.2.isZero = false → 100 * 10 ^ 10 ≤ baseLot.units * e.2.ticks := by
  have hforall : (∀ e ∈ a.ratios, e.2.isZero = false →
      100 * 10 ^ 10 ≤ baseLot.units * e.2.ticks) ↔
      ∀ e ∈ given a.ratios, 100 * 10 ^ 10 ≤ baseLot.units * e.2.ticks := by
    simp [given, List.mem_filter]
  rw [hforall]
  unfold LotAllocation.apply
  simp only [applyShares_eq_ok]
  generalize given a.ratios = entries
  induction entries with
  | nil => simp
  | cons e rest ih =>
    rw [List.forall_mem_cons, ← Ratio.applyTo_ok_iff]
    refine Iff.trans ?_ (and_congr_right fun _ => ih)
    constructor
    · intro ⟨lots, h⟩
      obtain ⟨x, others, hx, hothers, -⟩ := List.forall₂_cons_left_iff.mp h
      exact ⟨⟨x.2, hx.2⟩, others, hothers⟩
    · intro ⟨⟨share, hshare⟩, others, hothers⟩
      exact ⟨(e.1, share) :: others, .cons ⟨rfl, hshare⟩ hothers⟩

/-- `StrategyLots` has a lot for the strategies with a share, in their order. -/
theorem apply_keys {a : LotAllocation} {baseLot : Lot} {lots : List (StrategyName × Lot)}
    (h : a.apply baseLot = .ok lots) : lots.map (·.1) = (given a.ratios).map (·.1) :=
  lotFor_keys (applyShares_eq_ok.mp h)

theorem not_exceeding {entries : List (StrategyName × Ratio)} {a : LotAllocation}
    (hof : of entries = .ok a) {baseLot : Lot} {lots : List (StrategyName × Lot)}
    (happly : a.apply baseLot = .ok lots) : exceedsSingleLotLimit lots = false := by
  have htotal := total_le hof happly
  have hmax := baseLot.le_max
  exact decide_eq_false (by omega)

/-- However the ratios were chosen, the lots are the base lot at most, one for each ratio
that is not zero, and the cap drops none of them. -/
theorem allocation_within_base {entries : List (StrategyName × Ratio)} {a : LotAllocation}
    (hof : of entries = .ok a) (baseLot : Lot) {lots : List (StrategyName × Lot)}
    (happly : a.apply baseLot = .ok lots) :
    (lots.map (·.2.units)).sum ≤ baseLot.units ∧
    exceedsSingleLotLimit lots = false ∧
    (∀ e ∈ lots, 0 < e.2.units ∧ 100 ∣ e.2.units) ∧
    lots.map (·.1) = (entries.filter (fun e => !e.2.isZero)).map (·.1) := by
  refine ⟨total_le hof happly, not_exceeding hof happly, ?_, ?_⟩
  · intro e _
    have hmin := e.2.min_le
    exact ⟨by omega, e.2.dvd⟩
  · have hkeys := apply_keys happly
    rwa [(of_sum_le hof).1] at hkeys

/-- Ten ticks too many, and one strategy that gets nothing. -/
theorem allocation_within_base_at_tolerance :
    ([(StrategyName.smaCross, (⟨200, by decide, by decide, by decide⟩ : Lot)),
      (.wickReversal, ⟨200, by decide, by decide, by decide⟩)].map (·.2.units)).sum ≤ 500 := by
  let a : LotAllocation :=
    { ratios := [(.smaCross, ⟨5 * 10 ^ 9 + 10, by decide⟩), (.rsiReversal, .zero),
        (.wickReversal, ⟨5 * 10 ^ 9, by decide⟩)]
      keyed := by decide }
  have hof : of a.ratios = .ok a := of_eq_ok.mpr ⟨rfl, .inr (by decide)⟩
  exact (allocation_within_base hof ⟨500, by decide, by decide, by decide⟩ (by rfl)).1

end LotAllocation

/-! ## Equal weights on a base lot -/

theorem eligibleStrategies_length_le {pair : CurrencyPair} {detected : List StrategyName}
    (hdetected : detected.Nodup) (positions : List Position) :
    (eligibleStrategies pair detected positions).length ≤ 4 := by
  have hnodup : (eligibleStrategies pair detected positions).Nodup := hdetected.filter _
  have hsub : eligibleStrategies pair detected positions ⊆
      [.smaCross, .rsiReversal, .smaDistance, .wickReversal] := by
    intro s _
    cases s <;> simp
  exact (hnodup.subperm hsub).length_le

/-- The smallest of the weights decides, which is the first. -/
theorem weights_reach_iff {n : Nat} {weights : List Ratio} (hn : n ≤ 4)
    (hweights : computeEqualWeights n = some weights) (baseLot : Lot) :
    (∀ w ∈ weights, w.isZero = false → 100 * 10 ^ 10 ≤ baseLot.units * w.ticks) ↔
      n ≤ 1 ∨ 100 * 10 ^ 10 ≤ baseLot.units * (10 ^ 10 / n) := by
  have hmin := baseLot.min_le
  rcases Nat.lt_or_ge n 2 with hsmall | htwo
  · have hwhole : 100 * 10 ^ 10 ≤ baseLot.units * 10 ^ 10 := Nat.mul_le_mul_right _ hmin
    refine iff_of_true ?_ (.inl (by omega))
    intro w hw _
    have hone : w = Ratio.one := by
      obtain rfl | rfl : n = 0 ∨ n = 1 := by omega
      · cases hweights
        simpa [Ratio.divideOne, Ratio.one] using hw
      · cases hweights
        simpa using hw
    rw [hone]
    exact hwhole
  · obtain ⟨last, hcomplement, -, hlast⟩ := complementOf_divideOne (n := n) (by omega)
    cases (computeEqualWeights_eq hcomplement).symm.trans hweights
    have hhead : (Ratio.divideOne n).isZero = false := by
      have hpos : 0 < 10 ^ 10 / n := Nat.div_pos (by omega) (by omega)
      exact beq_eq_false_iff_ne.mpr hpos.ne'
    constructor
    · intro h
      right
      apply h (Ratio.divideOne n) _ hhead
      simp
      omega
    · intro h w hw _
      have hreach := h.resolve_left (by omega)
      rcases List.mem_append.mp hw with hw | hw
      · rw [List.eq_of_mem_replicate hw]
        exact hreach
      · rw [List.mem_singleton.mp hw]
        have hle : 10 ^ 10 / n ≤ last.ticks := hlast ▸ Nat.le_add_right ..
        exact hreach.trans (Nat.mul_le_mul_left _ hle)

namespace EqualWeightAllocationPolicy

/-- The policy decides, and when it gives to anybody, everybody it gives to can have a lot and
holds no position. -/
def AllocatesAll (pair : CurrencyPair) (detected : List StrategyName)
    (hdetected : detected.Nodup) (positions : List Position) (baseLot : Lot) : Prop :=
  ∃ a, decide pair detected hdetected positions = .ok a ∧
    (a.isFullySuppressed = false → ∃ lots, a.apply baseLot = .ok lots ∧
      ∀ e ∈ lots, holdsStrategyOnPair positions pair e.1 = false)

/-- What the policy decides is what `of` accepts. -/
theorem decide_accepted {pair : CurrencyPair} {detected : List StrategyName}
    {hdetected : detected.Nodup} {positions : List Position} {a : LotAllocation}
    (ha : decide pair detected hdetected positions = .ok a) :
    LotAllocation.of a.ratios = .ok a := by
  have hsuppressed : ∀ (l : List StrategyName) (h : l.Nodup),
      LotAllocation.of (LotAllocation.suppressed l h).ratios = .ok (.suppressed l h) := by
    intro l h
    refine LotAllocation.of_eq_ok.mpr ⟨rfl, .inl ?_⟩
    simp [LotAllocation.suppressed, Ratio.isZero, Ratio.zero]
  unfold decide at ha
  dsimp only at ha
  split at ha
  · cases ha
    exact hsuppressed [] List.nodup_nil
  split at ha
  · cases ha
    exact hsuppressed detected hdetected
  split at ha
  · cases ha
  · rw [(LotAllocation.of_eq_ok.mp ha).1]
    exact ha

/-- Whoever gets a lot holds no position. -/
theorem lots_free {pair : CurrencyPair} {detected : List StrategyName}
    {hdetected : detected.Nodup} {positions : List Position} {a : LotAllocation}
    (ha : decide pair detected hdetected positions = .ok a) {baseLot : Lot}
    {lots : List (StrategyName × Lot)} (happly : a.apply baseLot = .ok lots) :
    ∀ e ∈ lots, holdsStrategyOnPair positions pair e.1 = false := by
  intro e he
  obtain ⟨a', ha', hfree⟩ := decide_ok pair detected hdetected positions
  cases ha'.symm.trans ha
  have hmem : e.1 ∈ (LotAllocation.given a.ratios).map (·.1) := by
    rw [← LotAllocation.apply_keys happly]
    exact List.mem_map_of_mem he
  obtain ⟨entry, hentry, hkey⟩ := List.mem_map.mp hmem
  obtain ⟨hin, hnot⟩ := List.mem_filter.mp hentry
  rw [← hkey]
  exact (hfree entry hin).2 (by simpa using hnot)

/-- A share may be too small for a lot: with two strategies and more the base lot has to
reach 100 units in an `n`-th of it, rounded down as the ratio is. -/
theorem allocates_iff (pair : CurrencyPair) (detected : List StrategyName)
    (hdetected : detected.Nodup) (positions : List Position) (baseLot : Lot) :
    AllocatesAll pair detected hdetected positions baseLot ↔
      (eligibleStrategies pair detected positions).length ≤ 1 ∨
      100 * 10 ^ 10 ≤
        baseLot.units * (10 ^ 10 / (eligibleStrategies pair detected positions).length) := by
  by_cases hne : eligibleStrategies pair detected positions = []
  · rw [hne]
    refine iff_of_true ?_ (.inl (Nat.zero_le 1))
    obtain ⟨a, ha, hfree⟩ := decide_ok pair detected hdetected positions
    refine ⟨a, ha, fun hgiven => absurd hgiven ?_⟩
    -- everybody holds a position
    rw [Bool.not_eq_false]
    refine List.all_eq_true.mpr fun e he => ?_
    by_contra hzero
    have hnone := (hfree e he).2 (by simpa using hzero)
    have hmem : e.1 ∈ eligibleStrategies pair detected positions :=
      List.mem_filter.mpr ⟨(hfree e he).1, by simp [hnone]⟩
    rw [hne] at hmem
    cases hmem
  · obtain ⟨weights, a, hweights, hlen, ha, hratios⟩ := decide_of_eligible hdetected hne
    rw [← weights_reach_iff (eligibleStrategies_length_le hdetected positions) hweights]
    have happly : (∃ lots, a.apply baseLot = .ok lots) ↔
        ∀ w ∈ weights, w.isZero = false → 100 * 10 ^ 10 ≤ baseLot.units * w.ticks := by
      rw [LotAllocation.apply_ok_iff, hratios]
      simp only [List.forall_mem_append, List.forall_mem_map]
      rw [and_iff_left fun s _ hzero => by simp [Ratio.zero, Ratio.isZero] at hzero]
      conv_rhs => rw [← zip_map_snd hlen, List.forall_mem_map]
    rw [← happly]
    constructor
    · intro hall
      obtain ⟨a', ha', hlots⟩ := hall
      cases ha'.symm.trans ha
      cases hgiven : a.isFullySuppressed with
      | false =>
        obtain ⟨lots, hlots, -⟩ := hlots hgiven
        exact ⟨lots, hlots⟩
      | true =>
        refine (LotAllocation.apply_ok_iff a baseLot).mpr fun e he hzero => ?_
        rw [List.all_eq_true.mp hgiven e he] at hzero
        cases hzero
    · intro hreturns
      obtain ⟨lots, hlots⟩ := hreturns
      exact ⟨a, ha, fun _ => ⟨lots, hlots, lots_free ha hlots⟩⟩

/-- Two signals on the smallest lot: 50 units each. -/
theorem allocates_too_little :
    ¬ ∀ (pair : CurrencyPair) (detected : List StrategyName) (hdetected : detected.Nodup)
      (positions : List Position) (baseLot : Lot),
      AllocatesAll pair detected hdetected positions baseLot := by
  intro h
  obtain ⟨a, ha, hlots⟩ :=
    h .usdJpy [.smaCross, .wickReversal] (by decide) [] ⟨100, by decide, by decide, by decide⟩
  cases ha
  obtain ⟨lots, happly, -⟩ := hlots (by decide)
  cases happly

/-- Twice the smallest lot is enough for two. -/
theorem allocates_iff_two :
    AllocatesAll .usdJpy [.smaCross, .wickReversal] (by decide) []
      ⟨200, by decide, by decide, by decide⟩ :=
  (allocates_iff .usdJpy [.smaCross, .wickReversal] (by decide) []
    ⟨200, by decide, by decide, by decide⟩).mpr (.inr (by decide))

end EqualWeightAllocationPolicy

/-! ## Steps 3 to 5 of `handleSignals` -/

/-- Where the cycle is after the cap. -/
inductive LotsToEnqueue where
  /-- `allocation fully suppressed - 配分なし` -/
  | suppressed
  /-- `sizingService.executeWithFresh 失敗 - エントリーサイクル中断` -/
  | noSizing
  /-- `strategyLots 合計が単一 Lot 上限を超過 - 全件 drop` -/
  | dropped
  | lots (lots : List (StrategyName × Lot))

/-- Allocate, size and cap. `sizing` is what `fetchSizing` gives. -/
def PositionManager.lotsToEnqueue (pair : CurrencyPair) (detected : List StrategyName)
    (hdetected : detected.Nodup) (positions : List Position) (sizing : Option Lot) :
    Except AllocationError LotsToEnqueue := do
  let a ← EqualWeightAllocationPolicy.decide pair detected hdetected positions
  if a.isFullySuppressed then .ok .suppressed
  else match sizing with
    | none => .ok .noSizing
    | some baseLot =>
      let lots ← a.apply baseLot
      .ok (if LotAllocation.exceedsSingleLotLimit lots then .dropped else .lots lots)

namespace PositionManager

variable (pair : CurrencyPair) (detected : List StrategyName) (hdetected : detected.Nodup)
  (positions : List Position)

/-- The cap is never reached. -/
theorem lotsToEnqueue_not_dropped (sizing : Option Lot) :
    lotsToEnqueue pair detected hdetected positions sizing ≠ .ok .dropped := by
  intro h
  obtain ⟨a, ha, h⟩ := bind_eq_ok.mp h
  split at h
  · cases h
  · split at h
    · cases h
    · obtain ⟨lots, hlots, h⟩ := bind_eq_ok.mp h
      rw [LotAllocation.not_exceeding (EqualWeightAllocationPolicy.decide_accepted ha) hlots] at h
      cases h

/-- The cycle rejects exactly when a share is too small for a lot. -/
theorem lotsToEnqueue_ok_iff (baseLot : Lot) :
    (∃ r, lotsToEnqueue pair detected hdetected positions (some baseLot) = .ok r) ↔
      EqualWeightAllocationPolicy.AllocatesAll pair detected hdetected positions baseLot := by
  unfold lotsToEnqueue EqualWeightAllocationPolicy.AllocatesAll
  constructor
  · intro ⟨r, h⟩
    obtain ⟨a, ha, h⟩ := bind_eq_ok.mp h
    refine ⟨a, ha, fun hgiven => ?_⟩
    rw [hgiven] at h
    obtain ⟨lots, hlots, -⟩ := bind_eq_ok.mp h
    exact ⟨lots, hlots, EqualWeightAllocationPolicy.lots_free ha hlots⟩
  · intro ⟨a, ha, hlots⟩
    rw [ha]
    cases hgiven : a.isFullySuppressed with
    | true => exact ⟨.suppressed, by simp [bind, Except.bind, hgiven]⟩
    | false =>
      obtain ⟨lots, hlots, -⟩ := hlots hgiven
      exact ⟨_, by simp [bind, Except.bind, hgiven, hlots]; rfl⟩

end PositionManager

end Luchida
