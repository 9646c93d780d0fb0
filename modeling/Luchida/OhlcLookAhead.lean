import Luchida.ExecutionSimulators
import Luchida.OhlcEngine

/- The OHLC engine looks no further than the open of the next bar. A run is cut after any
   bar (`run_eq_afterBar`), and the part before the cut reads, of the bar after it, the
   open price and the open time only (`loop_next`). So two series that agree up to a bar
   and on the open after it have the same state there, whatever comes later. -/
namespace Luchida

open Throws

namespace OhlcEngine

variable {α ω : Type} [SnapshotAdapter α] {params : EngineRunParams ω}

/-- The run up to the end of the round of the bar `i`. -/
def afterBar (params : EngineRunParams ω) (candles : List ConfirmedCandle)
    (additionalBundles : List (TimeFrameIndicatorSpec × List ConfirmedCandle)) (adapter : α)
    (world : ω) (shared : SharedState) (i : Nat) : Except EngineError (EngineState α ω) := do
  let s ← begin params candles additionalBundles adapter world shared
  loop params ((candles.take (i + 2)).drop params.config.warmupCount) s

/-- The rest of the run. -/
def afterwards (params : EngineRunParams ω) (candles : List ConfirmedCandle) (i : Nat)
    (s : EngineState α ω) : Except EngineError (EngineState α ω) := do
  let s ← loop params (candles.drop (i + 1)) s
  match candles.getLast? with
  | some finalCandle => forceCloseAll params finalCandle s
  | none => return s

/-! ### Cutting the loop -/

theorem loop_append (pre : List ConfirmedCandle) (next : ConfirmedCandle)
    (rest : List ConfirmedCandle) (s : EngineState α ω) :
    loop params (pre ++ next :: rest) s =
      loop params (pre ++ [next]) s >>= loop params (next :: rest) := by
  induction pre generalizing s with
  | nil => rfl
  | cons c pre ih =>
    cases pre with
    | nil =>
      simp only [List.cons_append, List.nil_append, loop, bind_assoc]
      rfl
    | cons d pre =>
      simp only [List.cons_append, loop, bind_assoc] at ih ⊢
      exact congrArg _ (funext ih)

/-- The bars of the loop before a cut, and the bar after it. -/
theorem drop_take_succ {candles : List ConfirmedCandle} {w i : Nat} (hw : w ≤ i)
    (hi : i < candles.length) :
    (candles.take (i + 1)).drop w = (candles.take i).drop w ++ [candles[i]] := by
  rw [List.take_succ_eq_append_getElem hi, List.drop_append_of_le_length]
  simp only [List.length_take]
  omega

theorem run_eq_afterBar {candles : List ConfirmedCandle}
    {additionalBundles : List (TimeFrameIndicatorSpec × List ConfirmedCandle)}
    (hfetch : fetch params = .ok (candles, additionalBundles)) {i : Nat}
    (hw : params.config.warmupCount ≤ i) (hi : i + 1 < candles.length) (adapter : α) (world : ω)
    (shared : SharedState) :
    run params adapter world shared =
      afterBar params candles additionalBundles adapter world shared i >>=
        afterwards params candles i := by
  have hsplit : candles.drop params.config.warmupCount =
      (candles.take (i + 1)).drop params.config.warmupCount ++
        candles[i + 1] :: candles.drop (i + 2) := by
    conv_lhs => rw [← List.take_append_drop (i + 1) candles]
    rw [List.drop_append_of_le_length (by simp only [List.length_take]; omega),
      List.drop_eq_getElem_cons hi]
  have hrest : candles[i + 1] :: candles.drop (i + 2) = candles.drop (i + 1) :=
    (List.drop_eq_getElem_cons hi).symm
  unfold run afterBar afterwards
  rw [hfetch, drop_take_succ (Nat.le_succ_of_le hw) hi, bind_assoc]
  show (begin params candles additionalBundles adapter world shared >>= _) = _
  refine congrArg _ (funext fun s => ?_)
  simp only [hsplit]
  rw [loop_append, hrest]
  exact bind_assoc ..

/-! ### What the loop reads of the bar after the cut -/

theorem onBar_next (currentCandle : ConfirmedCandle) {next next' : ConfirmedCandle}
    (hopen : next.openPrice = next'.openPrice) (htime : next.openTime = next'.openTime)
    (s : EngineState α ω) :
    onBar params currentCandle next s = onBar params currentCandle next' s := by
  unfold onBar evaluateExit evaluateEntry
  simp only [hopen, htime]

theorem loop_next (pre : List ConfirmedCandle) {next next' : ConfirmedCandle}
    (hopen : next.openPrice = next'.openPrice) (htime : next.openTime = next'.openTime)
    (s : EngineState α ω) :
    loop params (pre ++ [next]) s = loop params (pre ++ [next']) s := by
  induction pre generalizing s with
  | nil => rfl
  | cons c pre ih =>
    cases pre with
    | nil =>
      simp only [List.cons_append, List.nil_append, loop]
      rw [onBar_next c hopen htime]
    | cons d pre =>
      simp only [List.cons_append, loop] at ih ⊢
      exact congrArg _ (funext ih)

/-- The loop does not ask the provider. -/
theorem loop_provider (provider : DataProvider) (candles : List ConfirmedCandle)
    (s : EngineState α ω) :
    loop { params with dataProvider := provider } candles s = loop params candles s := by
  induction candles generalizing s with
  | nil => rfl
  | cons c rest ih =>
    cases rest with
    | nil => rfl
    | cons d rest =>
      simp only [loop]
      exact congrArg _ (funext ih)

theorem fetch_single (hsingle : params.additionalIndicatorSpecs = [])
    {candles : List ConfirmedCandle} (hfetch : params.dataProvider.fetchCandles params.config.pair
      params.config.timeframe params.config.dateRange params.config.warmupCount = .ok candles)
    (hlength : params.config.warmupCount < candles.length) :
    fetch params = .ok (candles, []) := by
  have hne : candles.length ≠ 0 := by omega
  simp only [fetch, hfetch, hsingle]
  simp [mapError_ok, bind, Except.bind, pure, Except.pure, hne, hlength]

/-- Two series that agree on the bars up to `i` and on the open after it have the same
state after that bar, in runs with the same parties; and each run goes through it. -/
theorem no_look_ahead (params : EngineRunParams ω) (provider : DataProvider)
    (hsingle : params.additionalIndicatorSpecs = []) {candles candles' : List ConfirmedCandle}
    (hfetch : params.dataProvider.fetchCandles params.config.pair params.config.timeframe
      params.config.dateRange params.config.warmupCount = .ok candles)
    (hfetch' : provider.fetchCandles params.config.pair params.config.timeframe
      params.config.dateRange params.config.warmupCount = .ok candles')
    {i : Nat} (hw : params.config.warmupCount ≤ i) (hi : i + 1 < candles.length)
    (hi' : i + 1 < candles'.length) (hpast : candles.take (i + 1) = candles'.take (i + 1))
    (hopen : candles[i + 1].openPrice = candles'[i + 1].openPrice)
    (htime : candles[i + 1].openTime = candles'[i + 1].openTime)
    (adapter : α) (world : ω) (shared : SharedState) :
    let params' := { params with dataProvider := provider }
    afterBar params candles [] adapter world shared i =
        afterBar params' candles' [] adapter world shared i ∧
      run params adapter world shared =
        afterBar params candles [] adapter world shared i >>= afterwards params candles i ∧
      run params' adapter world shared =
        afterBar params' candles' [] adapter world shared i >>= afterwards params' candles' i := by
  intro params'
  have hfetched' : fetch params' = .ok (candles', []) := by
    refine @fetch_single _ params' hsingle _ hfetch' ?_
    show params.config.warmupCount < candles'.length
    omega
  refine ⟨?_, run_eq_afterBar (fetch_single hsingle hfetch (by omega)) hw hi adapter world shared,
    run_eq_afterBar hfetched' hw hi' adapter world shared⟩
  have hwarm : candles.take params.config.warmupCount =
      candles'.take params.config.warmupCount := by
    have := congrArg (List.take params.config.warmupCount) hpast
    rwa [List.take_take, List.take_take, Nat.min_eq_left (by omega)] at this
  have hbegin : begin params candles [] adapter world shared =
      begin params' candles' [] adapter world shared := by
    simp only [begin, warmUp, hwarm]
    rfl
  unfold afterBar
  have hw' : params'.config.warmupCount ≤ i + 1 := Nat.le_succ_of_le hw
  rw [hbegin, drop_take_succ (Nat.le_succ_of_le hw) hi, drop_take_succ hw' hi', hpast]
  refine congrArg _ (funext fun s => ?_)
  rw [loop_next _ hopen htime]
  exact (loop_provider provider _ s).symm

/-- A bar of the fourth minute that opens at the quiet price and leaves it. -/
def leavingBar : ConfirmedCandle :=
  (ConfirmedCandle.of ⟨quietPrice, crossPrice, quietPrice, crossPrice, 180000, 240000,
    .oneMinute⟩).toOption.get (by decide +kernel)

theorem no_look_ahead_quiet :
    let params := quietParams (idealExecutionSimulator countedIds) (quietBars 6) []
    let params' := { params with dataProvider :=
      ⟨fun _ _ _ _ => .ok (quietBars 3 ++ [leavingBar]), fun _ _ => []⟩ }
    afterBar params (quietBars 6) [] quietAdapter 0 ⟨none, none⟩ 2 =
        afterBar params' (quietBars 3 ++ [leavingBar]) [] quietAdapter 0 ⟨none, none⟩ 2 ∧
      run params quietAdapter 0 ⟨none, none⟩ =
        afterBar params (quietBars 6) [] quietAdapter 0 ⟨none, none⟩ 2
          >>= afterwards params (quietBars 6) 2 ∧
      run params' quietAdapter 0 ⟨none, none⟩ =
        afterBar params' (quietBars 3 ++ [leavingBar]) [] quietAdapter 0 ⟨none, none⟩ 2
          >>= afterwards params' (quietBars 3 ++ [leavingBar]) 2 :=
  @no_look_ahead _ _ _ _ _ rfl (quietBars 6) (quietBars 3 ++ [leavingBar]) rfl rfl 2
    (by decide) (by decide) (by decide) rfl rfl rfl _ _ _

end OhlcEngine

end Luchida
