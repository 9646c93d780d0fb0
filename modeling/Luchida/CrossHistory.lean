import Mathlib.Tactic.IntervalCases
import Luchida.LedgerRefinement
import Luchida.SignChanges
import Luchida.SmaCrossRule
import Luchida.Throws

/- `detectCross` over the whole life of a ledger: a warm-up list, and then the confirmed
   candles one by one. The rules take its answer for the short SMA breaking through the
   long one. Said over the closes, the difference of the two means (`gap`) has changed its
   sign since it was last not zero.

   The detector knows two bars and takes equality for either side, so it sees these
   changes except where the means have met and parted again on the same side
   (`marksSignChanges_iff`); there it reports a cross that did not happen
   (`exists_touch_reported`). -/
namespace Luchida

open SignChanges Window

variable {σ : Type} [SmaCalculator σ]

/-- The short mean less the long one, after the first `k` bars. -/
def gap (short long : Nat) (bars : List ConfirmedCandle) (k : Nat) : ℚ :=
  movingAverage mean short ((bars.take k).map fun c => c.close.value) -
    movingAverage mean long ((bars.take k).map fun c => c.close.value)

/-- The ledger after the warm-up list and the confirmed candles. -/
def confirmedLedger (short long : Nat) (candles confirmed : List ConfirmedCandle) :
    IndicatorLedger σ :=
  ((IndicatorLedger.new short long).warmUp candles).run (confirmed.map .onCandleConfirmed)

/-- What `detectCross` reports after the first `k` bars, the warm-up list included. -/
def crossAt (σ : Type) [SmaCalculator σ] (short long : Nat)
    (candles confirmed : List ConfirmedCandle) (k : Nat) : Except LedgerError CrossType :=
  (confirmedLedger (σ := σ) short long candles
    (confirmed.take (k - candles.length))).currentValues.map fun v => detectCross v.confirmed

theorem ofCalls_confirmed (candles confirmed : List ConfirmedCandle) :
    History.ofCalls candles (confirmed.map .onCandleConfirmed) =
      .ofWarmUp (candles ++ confirmed) := by
  induction confirmed using List.reverseRecOn with
  | nil => simp [History.ofCalls]
  | append_singleton confirmed c ih =>
    rw [List.map_append, List.map_singleton, History.ofCalls_append, ih]
    simp [History.after, History.ofWarmUp]

theorem take_bars {candles : List ConfirmedCandle} (confirmed : List ConfirmedCandle) {k : Nat}
    (hk : candles.length ≤ k) :
    candles ++ confirmed.take (k - candles.length) = (candles ++ confirmed).take k := by
  rw [List.take_append, List.take_of_length_le hk]

section
variable (hσ : ExactSma σ) {short long : Nat} (hs : 0 < short) (hl : 0 < long)
  {candles confirmed : List ConfirmedCandle} {k : Nat}
include hσ hs hl

/-- What is reported after `k` bars, by the means of the bars so far. -/
theorem crossAt_cases (hk : candles.length ≤ k) (hk' : k ≤ candles.length + confirmed.length) :
    k < max short long ∧ (∃ e, crossAt σ short long candles confirmed k = .error e) ∨
    max short long ≤ k ∧ ∃ sma, crossAt σ short long candles confirmed k = .ok (detectCross sma) ∧
      sma.shortSma.value - sma.longSma.value = gap short long (candles ++ confirmed) k ∧
      (max short long < k → sma.previousShortSma.value - sma.previousLongSma.value =
        gap short long (candles ++ confirmed) (k - 1)) := by
  have hbars := take_bars confirmed hk
  have htracks := LedgerTracks.run hs hl hσ.averagesBy candles
    ((confirmed.take (k - candles.length)).map .onCandleConfirmed)
  rw [ofCalls_confirmed, hbars] at htracks
  have hlength : ((candles ++ confirmed).take k).length = k := by
    rw [List.length_take, List.length_append]
    omega
  rcases Nat.lt_or_ge k (max short long) with hlt | hge
  · refine .inl ⟨hlt, .notStable, ?_⟩
    have hnone : ∀ n, k < n → fullAverage mean n
        (History.ofWarmUp ((candles ++ confirmed).take k)).closes = none := by
      intro n hn
      refine fullAverage_eq_none le_rfl ?_
      rw [History.ofWarmUp, List.length_map, hlength]
      exact not_le.mpr hn
    have hshort := htracks.short.current
    have hlong := htracks.long.current
    unfold crossAt confirmedLedger IndicatorLedger.currentValues
    rcases lt_max_iff.mp hlt with hlt | hlt
    · rw [hshort, hnone short hlt]
      rfl
    · rw [hlong, hnone long hlt]
      split
      · rename_i hsome
        cases hsome
      · rfl
  · refine .inr ⟨hge, ?_⟩
    have hclosesLength : (History.ofWarmUp ((candles ++ confirmed).take k)).closes.length = k := by
      rw [History.ofWarmUp, List.length_map, hlength]
    obtain ⟨v, hv, hstate⟩ := htracks.currentValues_ok hs hl hσ.averagesBy
      (History.ofWarmUp_positive _) (by rw [hclosesLength]; exact hge)
    refine ⟨v.confirmed, ?_, ?_, fun hlt => ?_⟩
    · rw [crossAt, confirmedLedger, hv]
      rfl
    · rw [hstate.shortSma, hstate.longSma]
      rfl
    · have hprevious : ∀ n, n < k →
          (History.ofWarmUp ((candles ++ confirmed).take k)).previous mean n =
          movingAverage mean n
            (((candles ++ confirmed).take (k - 1)).map fun c => c.close.value) := by
        intro n hn
        rw [History.ofWarmUp, History.previous_of_lt (by rw [List.length_map, hlength]; exact hn),
          ← List.map_dropLast, List.dropLast_eq_take, hlength, List.take_take,
          Nat.min_eq_left (Nat.sub_le k 1)]
      obtain ⟨hshort, hlong⟩ := max_lt_iff.mp hlt
      rw [hstate.previousShortSma, hstate.previousLongSma, hprevious short hshort,
        hprevious long hlong, gap]

end

/-- The crosses that are reported are the sign changes of the gap. -/
structure MarksSignChanges (σ : Type) [SmaCalculator σ] (short long : Nat)
    (candles confirmed : List ConfirmedCandle) : Prop where
  golden_iff : ∀ k, candles.length ≤ k → k ≤ candles.length + confirmed.length →
    Started (gap short long (candles ++ confirmed)) (max short long) k →
    (crossAt σ short long candles confirmed k = .ok .goldenCross ↔
      RisesAt (gap short long (candles ++ confirmed)) (max short long) k)
  dead_iff : ∀ k, candles.length ≤ k → k ≤ candles.length + confirmed.length →
    Started (gap short long (candles ++ confirmed)) (max short long) k →
    (crossAt σ short long candles confirmed k = .ok .deadCross ↔
      FallsAt (gap short long (candles ++ confirmed)) (max short long) k)
  /-- Of two golden crosses, a dead one lies between. -/
  dead_between : ∀ i j, candles.length ≤ i → i < j → j ≤ candles.length + confirmed.length →
    crossAt σ short long candles confirmed i = .ok .goldenCross →
    crossAt σ short long candles confirmed j = .ok .goldenCross →
    ∃ m, i < m ∧ m < j ∧ crossAt σ short long candles confirmed m = .ok .deadCross
  golden_between : ∀ i j, candles.length ≤ i → i < j → j ≤ candles.length + confirmed.length →
    crossAt σ short long candles confirmed i = .ok .deadCross →
    crossAt σ short long candles confirmed j = .ok .deadCross →
    ∃ m, i < m ∧ m < j ∧ crossAt σ short long candles confirmed m = .ok .goldenCross
  touch_unreported : ∀ k, candles.length ≤ k → k ≤ candles.length + confirmed.length →
    TouchesAt (gap short long (candles ++ confirmed)) (max short long) k →
    crossAt σ short long candles confirmed k = .ok .none

section
variable (hσ : ExactSma σ) {short long : Nat} (hs : 0 < short) (hl : 0 < long)
  {candles confirmed : List ConfirmedCandle} {k : Nat}
include hσ hs hl

/-- A cross puts the gap on its side. -/
theorem gap_of_crossAt (hk : candles.length ≤ k) (hk' : k ≤ candles.length + confirmed.length) :
    (crossAt σ short long candles confirmed k = .ok .goldenCross →
      max short long ≤ k ∧ 0 < gap short long (candles ++ confirmed) k) ∧
    (crossAt σ short long candles confirmed k = .ok .deadCross →
      max short long ≤ k ∧ gap short long (candles ++ confirmed) k < 0) := by
  rcases crossAt_cases hσ hs hl hk hk' with ⟨-, e, he⟩ | ⟨hge, sma, hsma, hgap, -⟩
  · rw [he]
    exact ⟨fun h => (by cases h), fun h => (by cases h)⟩
  · rw [hsma, ← hgap]
    refine ⟨fun h => ⟨hge, ?_⟩, fun h => ⟨hge, ?_⟩⟩
    · exact ((detectCross_iff sma).1.mp (Except.ok.inj h)).2
    · exact ((detectCross_iff sma).2.mp (Except.ok.inj h)).2

/-- Once the gap has been on a side, the report is that of two neighbouring gaps. -/
theorem crossAt_iff (hk : candles.length ≤ k) (hk' : k ≤ candles.length + confirmed.length)
    (hstarted : Started (gap short long (candles ++ confirmed)) (max short long) k) :
    (crossAt σ short long candles confirmed k = .ok .goldenCross ↔
      gap short long (candles ++ confirmed) (k - 1) ≤ 0 ∧
        0 < gap short long (candles ++ confirmed) k) ∧
    (crossAt σ short long candles confirmed k = .ok .deadCross ↔
      0 ≤ gap short long (candles ++ confirmed) (k - 1) ∧
        gap short long (candles ++ confirmed) k < 0) ∧
    ∃ cross, crossAt σ short long candles confirmed k = .ok cross := by
  obtain ⟨j, hstart, hlt, -⟩ := hstarted
  rcases crossAt_cases hσ hs hl hk hk' with ⟨hsmall, -⟩ | ⟨-, sma, hsma, hgap, hprevious⟩
  · omega
  · have hprevious := hprevious (lt_of_le_of_lt hstart hlt)
    rw [hsma, Except.ok.injEq, Except.ok.injEq, ← hgap, ← hprevious]
    exact ⟨(detectCross_iff sma).1, (detectCross_iff sma).2, _, rfl⟩

/-- The reports mark the sign changes of the gap exactly where it never comes back from zero
to the side it was on before. -/
theorem marksSignChanges_iff : MarksSignChanges σ short long candles confirmed ↔
    ∀ k, candles.length ≤ k → k ≤ candles.length + confirmed.length →
      ¬ TouchesAt (gap short long (candles ++ confirmed)) (max short long) k := by
  constructor
  · intro h k hk hk' htouch
    have hstarted : Started (gap short long (candles ++ confirmed)) (max short long) k := by
      obtain ⟨-, j, hj, -⟩ := htouch
      exact hj.started
    obtain ⟨hgolden, hdead, -⟩ := crossAt_iff hσ hs hl hk hk' hstarted
    exact (sees_iff hstarted).mp ⟨hgolden.symm.trans (h.golden_iff k hk hk' hstarted),
      hdead.symm.trans (h.dead_iff k hk hk' hstarted)⟩ htouch
  · intro h
    have hlaw : ∀ k, candles.length ≤ k → k ≤ candles.length + confirmed.length →
        Started (gap short long (candles ++ confirmed)) (max short long) k →
        (crossAt σ short long candles confirmed k = .ok .goldenCross ↔
          RisesAt (gap short long (candles ++ confirmed)) (max short long) k) ∧
        (crossAt σ short long candles confirmed k = .ok .deadCross ↔
          FallsAt (gap short long (candles ++ confirmed)) (max short long) k) := by
      intro k hk hk' hstarted
      obtain ⟨hgolden, hdead, -⟩ := crossAt_iff hσ hs hl hk hk' hstarted
      obtain ⟨hrises, hfalls⟩ := (sees_iff hstarted).mpr (h k hk hk')
      exact ⟨hgolden.trans hrises, hdead.trans hfalls⟩
    refine ⟨fun k hk hk' hstarted => (hlaw k hk hk' hstarted).1,
      fun k hk hk' hstarted => (hlaw k hk hk' hstarted).2, fun i j hi hij hj hgi hgj => ?_,
      fun i j hi hij hj hdi hdj => ?_, fun k hk hk' htouch => absurd htouch (h k hk hk')⟩
    · obtain ⟨hstart, hpos⟩ := (gap_of_crossAt hσ hs hl hi (by omega)).1 hgi
      obtain ⟨-, hneg⟩ := (hlaw j (by omega) hj ⟨i, hstart, hij, ne_of_gt hpos⟩).1.mp hgj
      obtain ⟨m, him, hmj, hm⟩ := exists_change (p := (0 < ·)) (q := (· < 0))
        (fun _ => ne_of_gt) (fun _ hne => (lt_or_gt_of_ne hne).symm) (fun _ => not_lt_of_gt)
        hstart hpos hij hneg
      exact ⟨m, him, hmj, (hlaw m (by omega) (by omega) ⟨i, hstart, him, ne_of_gt hpos⟩).2.mpr hm⟩
    · obtain ⟨hstart, hneg⟩ := (gap_of_crossAt hσ hs hl hi (by omega)).2 hdi
      obtain ⟨-, hpos⟩ := (hlaw j (by omega) hj ⟨i, hstart, hij, ne_of_lt hneg⟩).2.mp hdj
      obtain ⟨m, him, hmj, hm⟩ := exists_change (p := (· < 0)) (q := (0 < ·))
        (fun _ => ne_of_lt) (fun _ hne => lt_or_gt_of_ne hne) (fun _ => not_lt_of_gt)
        hstart hneg hij hpos
      exact ⟨m, him, hmj, (hlaw m (by omega) (by omega) ⟨i, hstart, him, ne_of_lt hneg⟩).1.mpr hm⟩

end

/-! ## A touch -/

/-- A minute bar that closes at a whole price, 1 or above. -/
def barAt (openTime : Int) (close : Nat) : ConfirmedCandle :=
  flatCandle .oneMinute openTime
    ⟨(max 1 close : Nat),
      Nat.cast_pos.mpr (Nat.lt_of_lt_of_le Nat.one_pos (Nat.le_max_left 1 close))⟩

def risenBars : List ConfirmedCandle :=
  [barAt 0 1, barAt 60000 2]

/-- The two means meet, and the short one falls through. -/
def fallingBars : List ConfirmedCandle :=
  [barAt 120000 2, barAt 180000 1]

/-- The two means meet, and the short one goes on above. -/
def touchingBars : List ConfirmedCandle :=
  [barAt 120000 2, barAt 180000 3]

theorem marksSignChanges_falling :
    ExactSma RecordedSma ∧ MarksSignChanges RecordedSma 1 2 risenBars fallingBars := by
  refine ⟨RecordedSma.exactSma, (marksSignChanges_iff RecordedSma.exactSma (by decide)
    (by decide)).mpr fun k hk hk' htouch => ?_⟩
  obtain ⟨-, j, hj, hside⟩ := htouch
  have hstart : 2 ≤ j := hj.start_le
  have hlt := hj.lt
  have hk' : k ≤ 4 := hk'
  have hne := hj.ne_zero
  interval_cases k <;> interval_cases j <;> revert hside hne <;> decide +kernel

/-- From 1 to 2, a bar at 2, and on to 3, with periods of 1 and 2 bars: the short mean was
above the long one, touches it and goes on above, and a golden cross is reported. -/
theorem exists_touch_reported :
    crossAt RecordedSma 1 2 risenBars touchingBars 4 = .ok .goldenCross ∧
      (0 < gap 1 2 (risenBars ++ touchingBars) 2 ∧ gap 1 2 (risenBars ++ touchingBars) 3 = 0 ∧
        0 < gap 1 2 (risenBars ++ touchingBars) 4) ∧
      ¬ MarksSignChanges RecordedSma 1 2 risenBars touchingBars := by
  have hreport : crossAt RecordedSma 1 2 risenBars touchingBars 4 = .ok .goldenCross := by
    obtain ⟨cross, hcross, hgolden⟩ : ∃ cross, crossAt RecordedSma 1 2 risenBars touchingBars 4 =
      .ok cross ∧ decide (cross = .goldenCross) = true := Throws.exists_ok (by decide +kernel)
    rw [hcross, of_decide_eq_true hgolden]
  have hgaps : 0 < gap 1 2 (risenBars ++ touchingBars) 2 ∧
      gap 1 2 (risenBars ++ touchingBars) 3 = 0 ∧ 0 < gap 1 2 (risenBars ++ touchingBars) 4 := by
    decide +kernel
  refine ⟨hreport, hgaps, fun h => ?_⟩
  have hstarted : Started (gap 1 2 (risenBars ++ touchingBars)) (max 1 2) 4 :=
    ⟨2, by decide, by decide, ne_of_gt hgaps.1⟩
  obtain ⟨-, j, hj, hneg⟩ := (h.golden_iff 4 (by decide) (by decide) hstarted).mp hreport
  have hstart : 2 ≤ j := hj.start_le
  have hlt := hj.lt
  interval_cases j
  · exact absurd hneg (not_lt_of_gt hgaps.1)
  · exact hj.ne_zero hgaps.2.1

end Luchida
