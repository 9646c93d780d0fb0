import Luchida.IndicatorLedger

/- The ledger refines a stateless SMA. `History` is what a reader of the bar feed
   keeps: the confirmed closes since the last reconciliation, and the close of the
   forming candle since the last confirmation. `Held n l c` says which calls made
   the calculator `c`: of period `n`, it was given the values `l`, a replaced value
   counting once. `AveragesBy` is what the port promises of such calculators: their
   result is some average of the last `n` values. `ExactSma` says that it is the mean.

   Each call keeps the invariant `Tracks` between a line and the history, so the
   values read after any sequence of calls are the ones computed from the history
   alone (`currentValues_stateless`). -/
namespace Luchida

open Window

variable {σ : Type} [SmaCalculator σ]

/-- The calculator `c` of period `n` holds the values `l`. -/
inductive Held : Nat → List ℚ → σ → Prop
  | create (n : Nat) : Held n [] (SmaCalculator.create n)
  | add {n : Nat} {l : List ℚ} {c : σ} (v : ℚ) : Held n l c →
      Held n (l ++ [v]) (SmaCalculator.add c v)
  | replace {n : Nat} {l : List ℚ} {w : ℚ} {c : σ} (v : ℚ) : Held n (l ++ [w]) c →
      Held n (l ++ [v]) (SmaCalculator.replace c v)

/-- The calculator is stable from `period` values on, and its result is then the average
of the last `period` of them. That of prices is a price. -/
structure AveragesBy (average : List ℚ → ℚ) (σ : Type) [SmaCalculator σ] : Prop where
  isStable_iff {n : Nat} {l : List ℚ} {c : σ} :
    Held n l c → (SmaCalculator.isStable c = true ↔ n ≤ l.length)
  getResult_eq {n : Nat} {l : List ℚ} {c : σ} :
    Held n l c → n ≤ l.length → SmaCalculator.getResult c = movingAverage average n l
  keepsPositive : KeepsPositive average

/-- The calculator behaves as the exact mean of the last `period` values. -/
structure ExactSma (σ : Type) [SmaCalculator σ] : Prop where
  isStable_iff {n : Nat} {l : List ℚ} {c : σ} :
    Held n l c → (SmaCalculator.isStable c = true ↔ n ≤ l.length)
  getResult_eq {n : Nat} {l : List ℚ} {c : σ} :
    Held n l c → n ≤ l.length → SmaCalculator.getResult c = movingAverage mean n l

theorem ExactSma.averagesBy (hσ : ExactSma σ) : AveragesBy mean σ :=
  ⟨hσ.isStable_iff, hσ.getResult_eq, mean_keepsPositive⟩

/-! ## The stateless reading -/

/-- The calls on a ledger after its warm-up. -/
inductive LedgerCall where
  | onCandleConfirmed (candle : ConfirmedCandle)
  | onCandleUpdated (forming : FormingCandle)
  | reconcileWith (official : List ConfirmedCandle)

/-- Every call but an update of the forming candle. -/
def LedgerCall.isConfirming : LedgerCall → Bool
  | .onCandleUpdated _ => false
  | _ => true

def IndicatorLedger.apply (ledger : IndicatorLedger σ) : LedgerCall → IndicatorLedger σ
  | .onCandleConfirmed candle => ledger.onCandleConfirmed candle
  | .onCandleUpdated forming => ledger.onCandleUpdated forming
  | .reconcileWith official => (ledger.reconcileWith official).2

def IndicatorLedger.run (ledger : IndicatorLedger σ) (calls : List LedgerCall) :
    IndicatorLedger σ :=
  calls.foldl IndicatorLedger.apply ledger

/-- The confirmed closes since the last reconciliation, and the forming close
since the last confirmation, if an update has come. -/
structure History where
  closes : List ℚ
  latest : Option ℚ

namespace History

def ofWarmUp (candles : List ConfirmedCandle) : History :=
  ⟨candles.map fun c => c.close.value, none⟩

def after (h : History) : LedgerCall → History
  | .onCandleConfirmed candle => ⟨h.closes ++ [candle.close.value], none⟩
  | .onCandleUpdated forming => { h with latest := some forming.close.value }
  | .reconcileWith official => .ofWarmUp official

/-- The history of a warm-up list and the calls after it. -/
def ofCalls (candles : List ConfirmedCandle) (calls : List LedgerCall) : History :=
  calls.foldl after (ofWarmUp candles)

theorem ofCalls_append (candles : List ConfirmedCandle) (calls : List LedgerCall)
    (call : LedgerCall) :
    ofCalls candles (calls ++ [call]) = (ofCalls candles calls).after call := by
  simp [ofCalls]

theorem after_closes (h h' : History) (heq : h.closes = h'.closes) (call : LedgerCall) :
    (h.after call).closes = (h'.after call).closes := by
  cases call <;> simp [after, heq]

/-- Updates leave no trace in the confirmed closes. -/
theorem ofCalls_filter_closes (candles : List ConfirmedCandle) (calls : List LedgerCall) :
    (ofCalls candles (calls.filter LedgerCall.isConfirming)).closes =
      (ofCalls candles calls).closes := by
  induction calls using List.reverseRecOn with
  | nil => rfl
  | append_singleton calls call ih =>
    rw [ofCalls_append, List.filter_append]
    cases hc : call.isConfirming with
    | true => simpa [hc, ofCalls_append] using after_closes _ _ ih call
    | false =>
      cases call with
      | onCandleConfirmed _ => simp [LedgerCall.isConfirming] at hc
      | reconcileWith _ => simp [LedgerCall.isConfirming] at hc
      | onCandleUpdated _ => simpa [LedgerCall.isConfirming, after] using ih

/-- Every close is a price. -/
def Positive (h : History) : Prop := (∀ x ∈ h.closes, 0 < x) ∧ ∀ x ∈ h.latest, 0 < x

theorem ofWarmUp_positive (candles : List ConfirmedCandle) : (ofWarmUp candles).Positive := by
  constructor
  · intro x hx
    obtain ⟨c, -, rfl⟩ := List.mem_map.mp hx
    exact c.close.pos
  · simp [ofWarmUp]

theorem after_positive {h : History} (hpos : h.Positive) (call : LedgerCall) :
    (h.after call).Positive := by
  cases call with
  | onCandleConfirmed candle =>
    refine ⟨?_, by simp [after]⟩
    intro x hx
    rcases List.mem_append.mp hx with hx | hx
    · exact hpos.1 x hx
    · rw [List.mem_singleton.mp hx]
      exact candle.close.pos
  | onCandleUpdated forming =>
    refine ⟨hpos.1, ?_⟩
    intro x hx
    obtain rfl : forming.close.value = x := by simpa [after] using hx
    exact forming.close.pos
  | reconcileWith official => exact ofWarmUp_positive official

theorem ofCalls_positive (candles : List ConfirmedCandle) (calls : List LedgerCall) :
    (ofCalls candles calls).Positive := by
  induction calls using List.reverseRecOn with
  | nil => exact ofWarmUp_positive candles
  | append_singleton calls call ih =>
    rw [ofCalls_append]
    exact after_positive ih call

variable (h : History) (average : List ℚ → ℚ)

/-- The SMA of period `n` over the confirmed closes. -/
def current (n : Nat) : ℚ := movingAverage average n h.closes

/-- The SMA one confirmation earlier, or the current one where there was none. -/
def previous (n : Nat) : ℚ :=
  if n ≤ h.closes.dropLast.length then movingAverage average n h.closes.dropLast
  else h.current average n

/-- The SMA with the forming close on top of the last `n - 1` confirmed ones. -/
def forming (n : Nat) : ℚ :=
  match h.latest with
  | some close => average (h.closes.rtake (n - 1) ++ [close])
  | none => h.current average n

variable {h average}

theorem previous_of_lt {n : Nat} (hlt : n < h.closes.length) :
    h.previous average n = movingAverage average n h.closes.dropLast := by
  have hlength : n ≤ h.closes.dropLast.length := by
    rw [List.length_dropLast]
    omega
  exact if_pos hlength

end History

variable {average : List ℚ → ℚ}

/-- The values a reader computes from the history alone. -/
structure Stateless (average : List ℚ → ℚ) (short long : Nat) (h : History)
    (v : IndicatorValues) : Prop where
  shortSma : v.confirmed.shortSma.value = h.current average short
  longSma : v.confirmed.longSma.value = h.current average long
  previousShortSma : v.confirmed.previousShortSma.value = h.previous average short
  previousLongSma : v.confirmed.previousLongSma.value = h.previous average long
  formingShortSma : v.forming.shortSma.value = h.forming average short
  formingLongSma : v.forming.longSma.value = h.forming average long
  formingPreviousShort : v.forming.previousShortSma = v.confirmed.shortSma
  formingPreviousLong : v.forming.previousLongSma = v.confirmed.longSma

/-! ## The invariant of one line -/

/-- The line `t` of period `n` stands where the history `h` puts it. -/
structure Tracks (average : List ℚ → ℚ) (n : Nat) (h : History) (t : SmaTracker σ) :
    Prop where
  period : t.period = n
  confirmed : Held n h.closes t.confirmed
  forming : Held n (h.closes ++ h.latest.toList) t.forming
  hasFormingValue : t.hasFormingValue = h.latest.isSome
  current : t.current = fullAverage average n h.closes
  prev : t.prev = fullAverage average n h.closes.dropLast
  formingCurrent : t.formingCurrent = h.latest.bind fun v => fullAverage average n (h.closes ++ [v])

/-- The confirmed values of the line `t` of period `n` are those of `closes`. -/
structure ConfirmedTracks (average : List ℚ → ℚ) (n : Nat) (closes : List ℚ)
    (t : SmaTracker σ) : Prop where
  period : t.period = n
  confirmed : Held n closes t.confirmed
  current : t.current = fullAverage average n closes
  prev : t.prev = fullAverage average n closes.dropLast

namespace ConfirmedTracks

variable {n : Nat} {closes : List ℚ} {t : SmaTracker σ}

/-- What the snapshots take for the previous value. -/
theorem prev_getD (ht : ConfirmedTracks average n closes t) :
    t.prev.getD (movingAverage average n closes) =
      if n ≤ closes.dropLast.length then movingAverage average n closes.dropLast
      else movingAverage average n closes := by
  rw [ht.prev]
  unfold fullAverage
  split <;> rfl

variable (hσ : AveragesBy average σ)
include hσ

/-- The result read from a calculator that holds `l` is the average of a full
window, given that nothing was read before the window filled. -/
theorem resultOr_held {l : List ℚ} {c : σ} (hc : Held n l c) {old : Option ℚ}
    (hold : ¬ n ≤ l.length → old = none) : SmaTracker.resultOr c old = fullAverage average n l := by
  unfold SmaTracker.resultOr
  split
  · rename_i hs
    have hle := (hσ.isStable_iff hc).mp hs
    rw [fullAverage_of_le hle, hσ.getResult_eq hc hle]
  · rename_i hs
    have hlt : ¬ n ≤ l.length := mt (hσ.isStable_iff hc).mpr hs
    rw [hold hlt, fullAverage_eq_none le_rfl hlt]

theorem addConfirmed (ht : ConfirmedTracks average n closes t) (close : ℚ) :
    ConfirmedTracks average n (closes ++ [close]) (t.addConfirmed close) where
  period := ht.period
  confirmed := ht.confirmed.add close
  current := by
    refine resultOr_held hσ (ht.confirmed.add close) fun hlt => ?_
    rw [ht.current, fullAverage_eq_none (by simp) hlt]
  prev := by simp [SmaTracker.addConfirmed, ht.current]

end ConfirmedTracks

namespace Tracks

variable {n : Nat} {h : History} {t : SmaTracker σ}

theorem confirmedTracks (ht : Tracks average n h t) : ConfirmedTracks average n h.closes t :=
  ⟨ht.period, ht.confirmed, ht.current, ht.prev⟩

theorem new (n : Nat) (hn : 0 < n) :
    Tracks average n ⟨[], none⟩ (SmaTracker.new n : SmaTracker σ) where
  period := rfl
  confirmed := .create n
  forming := .create n
  hasFormingValue := rfl
  current := (fullAverage_eq_none le_rfl (not_le.mpr hn)).symm
  prev := (fullAverage_eq_none le_rfl (not_le.mpr hn)).symm
  formingCurrent := rfl

theorem updateForming_held (ht : Tracks average n h t) (close : ℚ) :
    Held n (h.closes ++ [close]) (t.updateForming close).forming := by
  have hf := ht.forming
  have hhas := ht.hasFormingValue
  cases hl : h.latest with
  | none =>
    simp only [hl, Option.toList_none, List.append_nil, Option.isSome_none] at hf hhas
    simpa [SmaTracker.updateForming, hhas] using hf.add close
  | some w =>
    -- a second update in the same candle replaces the first
    simp only [hl, Option.toList_some, Option.isSome_some] at hf hhas
    simpa [SmaTracker.updateForming, hhas] using hf.replace close

variable (hσ : AveragesBy average σ)
include hσ

/-- The close of a confirmed candle takes the place of the forming one. -/
theorem onConfirmed (ht : Tracks average n h t) (close : ℚ) :
    Tracks average n ⟨h.closes ++ [close], none⟩ ((t.addConfirmed close).resetForming close) where
  period := ht.period
  confirmed := ht.confirmed.add close
  forming := by
    simp only [Option.toList_none, List.append_nil]
    exact updateForming_held ht close
  hasFormingValue := rfl
  current := (ht.confirmedTracks.addConfirmed hσ close).current
  prev := (ht.confirmedTracks.addConfirmed hσ close).prev
  formingCurrent := rfl

theorem onUpdated (ht : Tracks average n h t) (close : ℚ) :
    Tracks average n { h with latest := some close } (t.updateForming close) where
  period := ht.period
  confirmed := ht.confirmed
  forming := updateForming_held ht close
  hasFormingValue := rfl
  current := ht.current
  prev := ht.prev
  formingCurrent := by
    refine ConfirmedTracks.resultOr_held hσ (updateForming_held ht close) fun hlt => ?_
    rw [ht.formingCurrent]
    cases h.latest with
    | none => rfl
    | some w => exact fullAverage_eq_none (by simp) hlt

/-- One close of a warm-up or of a reseeding goes to both calculators. -/
theorem onSeed {l : List ℚ} (ht : Tracks average n ⟨l, none⟩ t) (close : ℚ) :
    Tracks average n ⟨l ++ [close], none⟩ ((t.addConfirmed close).addFormingForWarmUp close) where
  period := ht.period
  confirmed := ht.confirmed.add close
  forming := by
    have hf : Held n l t.forming := by simpa using ht.forming
    simpa [SmaTracker.addFormingForWarmUp, SmaTracker.addConfirmed] using hf.add close
  hasFormingValue := ht.hasFormingValue
  current := (ht.confirmedTracks.addConfirmed hσ close).current
  prev := (ht.confirmedTracks.addConfirmed hσ close).prev
  formingCurrent := ht.formingCurrent

theorem onSeeds (closes : List ℚ) {l : List ℚ} (ht : Tracks average n ⟨l, none⟩ t) :
    Tracks average n ⟨l ++ closes, none⟩
      (closes.foldl (fun t close => (t.addConfirmed close).addFormingForWarmUp close) t) := by
  induction closes generalizing l t with
  | nil => simpa using ht
  | cons close closes ih => simpa using ih (ht.onSeed hσ close)

end Tracks

/-- Started over, the line tracks a history, whatever its forming side held before. -/
theorem ConfirmedTracks.reseed (hσ : AveragesBy average σ) {n : Nat} {closes : List ℚ}
    {t : SmaTracker σ} (ht : ConfirmedTracks average n closes t) (hn : 0 < n) (closes' : List ℚ) :
    Tracks average n ⟨closes', none⟩ (t.reseed closes') := by
  rw [SmaTracker.reseed, ht.period]
  simpa using Tracks.onSeeds hσ closes' (Tracks.new n hn)

/-- The snapshot kept for the log never throws on positive closes. -/
theorem snapshotOrNull_ok_of_confirmed (hσ : AveragesBy average σ) {short long : Nat}
    (hs : 0 < short) (hl : 0 < long) {closes : List ℚ} {ledger : IndicatorLedger σ}
    (hshort : ConfirmedTracks average short closes ledger.short)
    (hlong : ConfirmedTracks average long closes ledger.long) (hpos : ∀ x ∈ closes, 0 < x) :
    ∃ snapshot, ledger.snapshotOrNull = .ok snapshot := by
  have hprevPos : ∀ {n : Nat} {t : SmaTracker σ}, 0 < n → n ≤ closes.length →
      ConfirmedTracks average n closes t → 0 < t.prev.getD (movingAverage average n closes) := by
    intro n t hn hle ht
    rw [ht.prev_getD]
    split
    · rename_i hd
      exact hσ.keepsPositive.movingAverage_pos hn hd
        fun x hx => hpos x ((List.dropLast_sublist _).subset hx)
    · exact hσ.keepsPositive.movingAverage_pos hn hle hpos
  unfold IndicatorLedger.snapshotOrNull
  rw [hshort.current, hlong.current]
  by_cases hsle : short ≤ closes.length
  · by_cases hlle : long ≤ closes.length
    · simp only [fullAverage_of_le hsle, fullAverage_of_le hlle,
        IndicatorLedger.buildConfirmedSnapshot,
        SmaValue.of_pos (hσ.keepsPositive.movingAverage_pos hs hsle hpos),
        SmaValue.of_pos (hσ.keepsPositive.movingAverage_pos hl hlle hpos),
        SmaValue.of_pos (hprevPos hs hsle hshort), SmaValue.of_pos (hprevPos hl hlle hlong)]
      exact ⟨_, rfl⟩
    · simp [fullAverage, hlle]
  · simp [fullAverage, hsle]

/-! ## The ledger against its history -/

/-- Both lines of the ledger stand where the history puts them. -/
structure LedgerTracks (average : List ℚ → ℚ) (short long : Nat) (h : History)
    (ledger : IndicatorLedger σ) : Prop where
  short : Tracks average short h ledger.short
  long : Tracks average long h ledger.long

namespace LedgerTracks

variable {short long : Nat} {h : History} {ledger : IndicatorLedger σ}

theorem previous_eq (h : History) (n : Nat) :
    (fullAverage average n h.closes.dropLast).getD (h.current average n) =
      h.previous average n := by
  unfold fullAverage History.previous
  split <;> simp

section
variable (hσ : AveragesBy average σ)
include hσ

theorem current_pos (hpos : h.Positive) {n : Nat} (hn : 0 < n) (hle : n ≤ h.closes.length) :
    0 < h.current average n :=
  hσ.keepsPositive.movingAverage_pos hn hle hpos.1

theorem previous_pos (hpos : h.Positive) {n : Nat} (hn : 0 < n) (hle : n ≤ h.closes.length) :
    0 < h.previous average n := by
  unfold History.previous
  split
  · rename_i hd
    exact hσ.keepsPositive.movingAverage_pos hn hd
      fun x hx => hpos.1 x ((List.dropLast_sublist _).subset hx)
  · exact current_pos hσ hpos hn hle

theorem forming_pos (hpos : h.Positive) {n : Nat} (hn : 0 < n) (hle : n ≤ h.closes.length) :
    0 < h.forming average n := by
  unfold History.forming
  cases hl : h.latest with
  | none => exact current_pos hσ hpos hn hle
  | some close =>
    refine hσ.keepsPositive _ (by simp) fun x hx => ?_
    rcases List.mem_append.mp hx with hx | hx
    · exact hpos.1 x ((rtake_suffix _ _).subset hx)
    · rw [List.mem_singleton.mp hx]
      exact hpos.2 close (by simp [hl])

end

theorem formingCurrent_eq {n : Nat} {t : SmaTracker σ} (ht : Tracks average n h t) (hn : 0 < n)
    (hle : n ≤ h.closes.length) : t.formingCurrent.getD (h.current average n) =
      h.forming average n := by
  rw [ht.formingCurrent]
  unfold History.forming
  cases h.latest with
  | none => rfl
  | some close =>
    have : n ≤ (h.closes ++ [close]).length := by simp; omega
    simp only [Option.bind_some, fullAverage_of_le this, Option.getD_some]
    exact movingAverage_append h.closes close hn

variable (hs : 0 < short) (hl : 0 < long) (hσ : AveragesBy average σ)
include hs hl hσ

/-- Once the windows are full the ledger shows the stateless values. -/
theorem currentValues_ok (hk : LedgerTracks average short long h ledger) (hpos : h.Positive)
    (hle : max short long ≤ h.closes.length) :
    ∃ v, ledger.currentValues = .ok v ∧ Stateless average short long h v := by
  have hsle : short ≤ h.closes.length := le_trans (le_max_left ..) hle
  have hlle : long ≤ h.closes.length := le_trans (le_max_right ..) hle
  have hsc : ledger.short.current = some (h.current average short) := by
    rw [hk.short.current, fullAverage_of_le hsle, History.current]
  have hlc : ledger.long.current = some (h.current average long) := by
    rw [hk.long.current, fullAverage_of_le hlle, History.current]
  have hsp := hk.short.prev ▸ previous_eq h short
  have hlp := hk.long.prev ▸ previous_eq h long
  have hsf := formingCurrent_eq hk.short hs hsle
  have hlf := formingCurrent_eq hk.long hl hlle
  simp only [IndicatorLedger.currentValues, hsc, hlc, IndicatorLedger.buildConfirmedSnapshot,
    IndicatorLedger.buildFormingSnapshot, hsp, hlp, hsf, hlf,
    SmaValue.of_pos (current_pos hσ hpos hs hsle), SmaValue.of_pos (current_pos hσ hpos hl hlle),
    SmaValue.of_pos (previous_pos hσ hpos hs hsle),
    SmaValue.of_pos (previous_pos hσ hpos hl hlle),
    SmaValue.of_pos (forming_pos hσ hpos hs hsle), SmaValue.of_pos (forming_pos hσ hpos hl hlle)]
  exact ⟨_, rfl, rfl, rfl, rfl, rfl, rfl, rfl, rfl, rfl⟩

/-- Under the invariant the snapshot kept for the log never throws. -/
theorem snapshotOrNull_ok (hk : LedgerTracks average short long h ledger) (hpos : h.Positive) :
    ∃ snapshot, ledger.snapshotOrNull = .ok snapshot :=
  snapshotOrNull_ok_of_confirmed hσ hs hl hk.short.confirmedTracks hk.long.confirmedTracks hpos.1

theorem onReseed (hk : LedgerTracks average short long h ledger) (official : List ConfirmedCandle) :
    LedgerTracks average short long (.ofWarmUp official) (ledger.reseed official) where
  short := hk.short.confirmedTracks.reseed hσ hs _
  long := hk.long.confirmedTracks.reseed hσ hl _

/-- Every call keeps the ledger in step with the history. -/
theorem apply (hk : LedgerTracks average short long h ledger) (hpos : h.Positive)
    (call : LedgerCall) :
    LedgerTracks average short long (h.after call) (ledger.apply call) := by
  cases call with
  | onCandleConfirmed candle => exact ⟨hk.short.onConfirmed hσ _, hk.long.onConfirmed hσ _⟩
  | onCandleUpdated forming => exact ⟨hk.short.onUpdated hσ _, hk.long.onUpdated hσ _⟩
  | reconcileWith official =>
    have hreseed := hk.onReseed hs hl hσ official
    -- neither snapshot that `reconcileWith` takes for its report throws
    obtain ⟨before, hbefore⟩ := hk.snapshotOrNull_ok hs hl hσ hpos
    obtain ⟨after, hafter⟩ :=
      hreseed.snapshotOrNull_ok hs hl hσ (History.ofWarmUp_positive official)
    simpa [IndicatorLedger.apply, IndicatorLedger.reconcileWith, History.after, hbefore, hafter]
      using hreseed

theorem warmUp (candles : List ConfirmedCandle) :
    LedgerTracks average short long (.ofWarmUp candles)
      ((IndicatorLedger.new short long : IndicatorLedger σ).warmUp candles) := by
  induction candles using List.reverseRecOn with
  | nil => exact ⟨Tracks.new short hs, Tracks.new long hl⟩
  | append_singleton candles candle ih =>
    simp only [IndicatorLedger.warmUp, List.foldl_append, List.foldl_cons, List.foldl_nil,
      History.ofWarmUp, List.map_append, List.map_cons, List.map_nil]
    exact ⟨ih.short.onSeed hσ _, ih.long.onSeed hσ _⟩

/-- After a warm-up and any calls the ledger is in step with the history. -/
theorem run (candles : List ConfirmedCandle) (calls : List LedgerCall) :
    LedgerTracks average short long (.ofCalls candles calls)
      (((IndicatorLedger.new short long : IndicatorLedger σ).warmUp candles).run calls) := by
  induction calls using List.reverseRecOn with
  | nil => exact warmUp hs hl hσ candles
  | append_singleton calls call ih =>
    simp only [IndicatorLedger.run, List.foldl_append, List.foldl_cons, List.foldl_nil,
      History.ofCalls_append]
    exact ih.apply hs hl hσ (History.ofCalls_positive candles calls) call

end LedgerTracks

/-- Two readings of histories with the same confirmed closes show the same
confirmed snapshot. -/
theorem Stateless.confirmed_eq {short long : Nat} {h h' : History} {v v' : IndicatorValues}
    (hv : Stateless average short long h v) (hv' : Stateless average short long h' v')
    (heq : h.closes = h'.closes) : v.confirmed = v'.confirmed := by
  have hcur : ∀ n, h.current average n = h'.current average n := by simp [History.current, heq]
  have hprev : ∀ n, h.previous average n = h'.previous average n := by
    simp [History.previous, hcur, heq]
  have h1 := hv.shortSma.trans ((hcur short).trans hv'.shortSma.symm)
  have h2 := hv.longSma.trans ((hcur long).trans hv'.longSma.symm)
  have h3 := hv.previousShortSma.trans ((hprev short).trans hv'.previousShortSma.symm)
  have h4 := hv.previousLongSma.trans ((hprev long).trans hv'.previousLongSma.symm)
  obtain ⟨⟨⟨a, _⟩, ⟨b, _⟩, ⟨c, _⟩, ⟨d, _⟩⟩, _⟩ := v
  obtain ⟨⟨⟨a', _⟩, ⟨b', _⟩, ⟨c', _⟩, ⟨d', _⟩⟩, _⟩ := v'
  obtain rfl : a = a' := h1
  obtain rfl : b = b' := h2
  obtain rfl : c = c' := h3
  obtain rfl : d = d' := h4
  rfl

/-- After any warm-up and any calls, once the history fills both windows the
ledger shows the values computed from the history alone, and its confirmed values
are those of the same calls without the updates. -/
theorem currentValues_stateless (hσ : ExactSma σ) {short long : Nat} (hs : 0 < short)
    (hl : 0 < long) (candles : List ConfirmedCandle) (calls : List LedgerCall)
    (hfull : max short long ≤ (History.ofCalls candles calls).closes.length) :
    let ledger : IndicatorLedger σ := (IndicatorLedger.new short long).warmUp candles
    ∃ v, (ledger.run calls).currentValues = .ok v ∧
      Stateless mean short long (.ofCalls candles calls) v ∧
      ∃ v', (ledger.run (calls.filter LedgerCall.isConfirming)).currentValues = .ok v' ∧
        v'.confirmed = v.confirmed := by
  intro ledger
  -- the same calls without the updates make the same confirmed closes
  have hcloses := History.ofCalls_filter_closes candles calls
  have hσ := hσ.averagesBy
  obtain ⟨v, hv, hstate⟩ := (LedgerTracks.run hs hl hσ candles calls).currentValues_ok hs hl hσ
    (History.ofCalls_positive candles calls) hfull
  obtain ⟨v', hv', hstate'⟩ :=
    (LedgerTracks.run hs hl hσ candles (calls.filter LedgerCall.isConfirming)).currentValues_ok
      hs hl hσ (History.ofCalls_positive ..) (hcloses ▸ hfull)
  exact ⟨v, hv, hstate, v', hv', hstate'.confirmed_eq hstate hcloses⟩

/-! ## A calculator that keeps every value -/

theorem RecordedSma.held {n : Nat} {l : List ℚ} {c : RecordedSma} (h : Held n l c) :
    c = ⟨n, l⟩ := by
  induction h with
  | create => rfl
  | add v _ ih =>
    subst ih
    rfl
  | replace v _ ih =>
    subst ih
    simp [SmaCalculator.replace]

theorem RecordedSma.exactSma : ExactSma RecordedSma where
  isStable_iff := by
    intro n l c h
    rw [held h]
    simp [SmaCalculator.isStable]
  getResult_eq := by
    intro n l c h _
    rw [held h]
    rfl

/-- Periods 1 and 2 over two closes, with a forming candle on top. -/
theorem currentValues_stateless_recorded :
    let p1 : Price := ⟨1, by decide +kernel⟩
    let p3 : Price := ⟨3, by decide +kernel⟩
    let tick : Tick := ⟨p3, p1, 60000, by decide +kernel⟩
    let candles := [flatCandle .oneMinute 0 p1]
    let calls := [LedgerCall.onCandleConfirmed (flatCandle .oneMinute 60000 p3),
      .onCandleUpdated (.openWith tick .oneMinute)]
    let ledger : IndicatorLedger RecordedSma := (IndicatorLedger.new 1 2).warmUp candles
    ∃ v, (ledger.run calls).currentValues = .ok v ∧ Stateless mean 1 2 (.ofCalls candles calls) v ∧
      ∃ v', (ledger.run (calls.filter LedgerCall.isConfirming)).currentValues = .ok v' ∧
        v'.confirmed = v.confirmed := by
  intro p1 p3 tick candles calls
  exact currentValues_stateless RecordedSma.exactSma (by decide) (by decide) candles calls
    (by decide)

end Luchida
