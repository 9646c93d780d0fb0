import Luchida.ExecutionSimulators
import Luchida.TickEngine

/- When the engine over ticks runs into its own orders. An exit is ordered at the tick
   that confirms a bar, before the orders of that tick are filled, and nothing asks
   whether an earlier exit still waits. So a position can be held at two confirming ticks
   with an exit waiting at the second, unless the ticks are `Spaced` for the delay: an
   exit is filled before the next bar is confirmed, wherever an entry was filled before
   it. The condition is exact (`never_aborts_iff`): where it fails there are rules that
   make the run abort. -/
namespace Luchida

open Throws EngineState

namespace TickEngine

/-- The tick is the first of its bar, in a stream that begins with the ticks of `past`. -/
def Confirming (tf : TimeFrame) (past : List Tick) (tick : Tick) : Prop :=
  ∃ previous ∈ past.getLast?, tf.bucket previous.timestamp ≠ tf.bucket tick.timestamp

/-- An order placed at the tick is filled at it, or at one of the ticks that follow. -/
def Filled (delayMs : Int) (tick : Tick) (following : List Tick) : Prop :=
  ∃ t ∈ tick :: following, tick.timestamp + delayMs ≤ t.timestamp

/-- Of three confirming ticks, if an entry placed at the first is filled before the
second, then an exit placed at the second is filled before the third. -/
def Spaced (tf : TimeFrame) (delayMs : Int) (ticks : List Tick) : Prop :=
  ∀ past a mid b later c rest, ticks = past ++ a :: (mid ++ b :: (later ++ c :: rest)) →
    Confirming tf past a → Confirming tf (past ++ a :: mid) b →
    Confirming tf (past ++ a :: (mid ++ b :: later)) c →
    Filled delayMs a mid → Filled delayMs b later

/-! ### Confirming ticks -/

section
variable {tf : TimeFrame} {delayMs : Int} {past following : List Tick} {tick t : Tick}

/-- A confirming tick is later than every tick before it. -/
theorem Confirming.lt (h : Confirming tf past tick)
    (hmono : (past ++ [tick]).Pairwise (fun a b => a.timestamp ≤ b.timestamp)) (ht : t ∈ past) :
    t.timestamp < tick.timestamp := by
  obtain ⟨previous, hlast, hne⟩ := h
  obtain ⟨hpast, -, hle⟩ := List.pairwise_append.mp hmono
  obtain ⟨init, rfl⟩ := List.getLast?_eq_some_iff.mp hlast
  have hprevious : t.timestamp ≤ previous.timestamp := by
    rcases List.mem_append.mp ht with hinit | hend
    · exact (List.pairwise_append.mp hpast).2.2 t hinit previous (by simp)
    · obtain rfl := List.mem_singleton.mp hend
      exact le_rfl
  have hbuckets := tf.bucket_lt_of_ne (hle previous (by simp) tick (by simp)) hne
  by_contra hlt
  have := tf.bucket_mono (le_trans (not_lt.mp hlt) hprevious)
  omega

theorem Filled.snoc (h : Filled delayMs tick following) (t : Tick) :
    Filled delayMs tick (following ++ [t]) := by
  obtain ⟨u, hu, hle⟩ := h
  exact ⟨u, by rcases List.mem_cons.mp hu with rfl | hu <;> simp [*], hle⟩

theorem filled_snoc_iff : Filled delayMs tick (following ++ [t]) ↔
    Filled delayMs tick following ∨ tick.timestamp + delayMs ≤ t.timestamp := by
  constructor
  · rintro ⟨u, hu, hle⟩
    rw [← List.cons_append] at hu
    rcases List.mem_append.mp hu with hu | hu
    · exact .inl ⟨u, hu, hle⟩
    · obtain rfl := List.mem_singleton.mp hu
      exact .inr hle
  · rintro (h | h)
    · exact h.snoc t
    · exact ⟨t, by simp, h⟩

/-- The accumulator has been fed these ticks. -/
structure Follows (tf : TimeFrame) (past : List Tick) (acc : CandleAccumulator) : Prop where
  timeFrame : acc.timeFrame = tf
  forming : acc.forming.map (fun f => tf.bucket f.openTime) =
    past.getLast?.map fun t => tf.bucket t.timestamp

theorem Follows.new (tf : TimeFrame) : Follows tf [] (.new tf) := ⟨rfl, rfl⟩

theorem Follows.accumulated {acc acc' : CandleAccumulator} {event : CandleEvent}
    (h : Follows tf past acc) (hacc : CandleAccumulator.Accumulated acc tick event acc') :
    Follows tf (past ++ [tick]) acc' ∧ (event = .confirmed ↔ Confirming tf past tick) := by
  obtain ⟨htf, hforming⟩ := h
  cases hacc with
  | first hf =>
    rw [hf] at hforming
    have hnone : past.getLast? = none := by simpa using hforming.symm
    exact ⟨⟨htf, by simp [CandleAccumulator.reopen, FormingCandle.openWith]⟩,
      by simp [Confirming, hnone]⟩
  | @same _ f f' hf hsame htf' _ hf' hopen =>
    rw [hf] at hforming
    obtain ⟨previous, hlast, hbucket⟩ : ∃ previous, past.getLast? = some previous ∧
        tf.bucket previous.timestamp = tf.bucket f.openTime := by
      simpa [Option.map_eq_some_iff] using hforming.symm
    rw [htf] at hsame
    exact ⟨⟨htf'.trans htf, by simp [hf', hopen, hsame]⟩,
      by simp [Confirming, hlast, hbucket, hsame]⟩
  | @next f c hf hne _ _ _ =>
    rw [hf] at hforming
    obtain ⟨previous, hlast, hbucket⟩ : ∃ previous, past.getLast? = some previous ∧
        tf.bucket previous.timestamp = tf.bucket f.openTime := by
      simpa [Option.map_eq_some_iff] using hforming.symm
    rw [htf] at hne
    exact ⟨⟨htf, by simp [CandleAccumulator.reopen, FormingCandle.openWith]⟩,
      by simp [Confirming, hlast, hbucket, Ne.symm hne]⟩

end

/-! ### Spaced ticks: the run goes through -/

/-- What the waiting orders and the position held go back to: confirming ticks of the past
at which the orders were placed. The fills of the tick `now`, if any, are still to come. -/
structure Waits (tf : TimeFrame) (delayMs : Int) (past : List Tick) (now : Option Tick)
    (held : Option Position) (m : PendingOrderManager) : Prop where
  delay : m.delayMs = delayMs
  entry : ∀ o ∈ m.pendingEntry, ∃ before a since, past = before ++ a :: since ∧
    Confirming tf before a ∧ o.fillableAt = a.timestamp + delayMs
  held : held.isSome = true → ∃ before a since, past = before ++ a :: since ∧
    Confirming tf before a ∧ Filled delayMs a since
  exit : ∀ o ∈ m.pendingExit, (∀ t ∈ now, t.timestamp < o.fillableAt) →
    ∃ before a mid b since, past = before ++ a :: (mid ++ b :: since) ∧
      Confirming tf before a ∧ Confirming tf (before ++ a :: mid) b ∧ Filled delayMs a mid ∧
      o.fillableAt = b.timestamp + delayMs ∧ ¬ Filled delayMs b since

section
variable {tf : TimeFrame} {delayMs : Int} {past : List Tick} {tick : Tick}
  {held : Option Position} {m : PendingOrderManager}

theorem Waits.new (tf : TimeFrame) (delayMs : Int) : Waits tf delayMs [] none none (.new delayMs) :=
  ⟨rfl, by simp [PendingOrderManager.new], by simp, by simp [PendingOrderManager.new]⟩

/-- A tick arrives. -/
theorem Waits.arrives (h : Waits tf delayMs past none held m) (tick : Tick) :
    Waits tf delayMs (past ++ [tick]) (some tick) held m where
  delay := h.delay
  entry := by
    intro o ho
    obtain ⟨before, a, since, rfl, hconf, hfill⟩ := h.entry o ho
    exact ⟨before, a, since ++ [tick], by simp, hconf, hfill⟩
  held := by
    intro hheld
    obtain ⟨before, a, since, rfl, hconf, hfilled⟩ := h.held hheld
    exact ⟨before, a, since ++ [tick], by simp, hconf, hfilled.snoc tick⟩
  exit := by
    intro o ho hnow
    obtain ⟨before, a, mid, b, since, rfl, ha, hb, hfilled, hfill, hunfilled⟩ :=
      h.exit o ho (by simp)
    refine ⟨before, a, mid, b, since ++ [tick], by simp, ha, hb, hfilled, hfill, ?_⟩
    rw [filled_snoc_iff]
    rintro (hsince | hle)
    · exact hunfilled hsince
    · have := hnow tick rfl
      omega

/-- The rules are asked at a confirming tick. -/
theorem Waits.asked (h : Waits tf delayMs past none held m) {m' : PendingOrderManager}
    (ha : Asked tick held m m') (hconf : m' = m ∨ Confirming tf past tick) :
    Waits tf delayMs (past ++ [tick]) (some tick) held m' := by
  obtain ⟨hdelay, hentry, hheld, hexit⟩ := h.arrives tick
  cases ha with
  | nothing => exact ⟨hdelay, hentry, hheld, hexit⟩
  | @exit p command hsome hnone =>
    have hconf : Confirming tf past tick := by
      refine hconf.resolve_left fun heq => ?_
      have := congrArg (·.pendingExit) heq
      simp [hnone] at this
    refine ⟨hdelay, hentry, hheld, fun o ho hnow => ?_⟩
    obtain rfl := Option.some.inj ho
    have hlt := hnow tick rfl
    obtain ⟨before, a, since, rfl, ha, hfilled⟩ := h.held (by simp [hsome])
    refine ⟨before, a, since, tick, [], by simp, ha, hconf, hfilled, by rw [← hdelay], ?_⟩
    rintro ⟨t, ht, hle⟩
    obtain rfl := List.mem_singleton.mp ht
    rw [← hdelay] at hle
    exact absurd hlt (not_lt.mpr hle)
  | entry command hfree hnone hnoExit =>
    have hconf : Confirming tf past tick := by
      refine hconf.resolve_left fun heq => ?_
      have := congrArg (·.pendingEntry) heq
      simp [hnone] at this
    refine ⟨hdelay, fun o ho => ?_, hheld, fun o ho => absurd (hnoExit.symm.trans ho) (by simp)⟩
    obtain rfl := Option.some.inj ho
    exact ⟨past, tick, [], rfl, hconf, by rw [← hdelay]⟩

/-- The exit is not due. -/
theorem Waits.exitNotDue (h : Waits tf delayMs past (some tick) held m)
    (hlt : ∀ o ∈ m.pendingExit, tick.timestamp < o.fillableAt) :
    Waits tf delayMs past none held m :=
  ⟨h.delay, h.entry, h.held, fun o ho _ => h.exit o ho fun t ht => by
    obtain rfl := Option.some.inj ht
    exact hlt o ho⟩

/-- The exit is filled. -/
theorem Waits.exitFilled (h : Waits tf delayMs past (some tick) held m) :
    Waits tf delayMs past none none { m with pendingExit := none } :=
  ⟨h.delay, h.entry, by simp, by simp⟩

/-- The entry is filled at the last tick of the past. -/
theorem Waits.entryFilled (h : Waits tf delayMs (past ++ [tick]) none held m) {o : PendingEntry}
    (ho : m.pendingEntry = some o) (hle : o.fillableAt ≤ tick.timestamp)
    (hexit : m.pendingExit = none) (p : Position) :
    Waits tf delayMs (past ++ [tick]) none (some p) { m with pendingEntry := none } := by
  refine ⟨h.delay, by simp, fun _ => ?_, fun o' ho' => absurd (hexit.symm.trans ho') (by simp)⟩
  obtain ⟨before, a, since, hpast, hconf, hfill⟩ := h.entry o ho
  refine ⟨before, a, since, hpast, hconf, tick, ?_, by omega⟩
  -- it is one of the ticks from `a` on
  have hlast : (a :: since).getLast? = some tick := by
    rw [← List.getLast?_append_cons before, ← hpast, List.getLast?_concat]
  exact List.mem_of_getLast? hlast

/-- An exit still waits when the next bar is confirmed: the ticks are not spaced. -/
theorem Waits.not_spaced (h : Waits tf delayMs past none held m)
    (hexit : m.pendingExit.isSome = true) (hconf : Confirming tf past tick) (rest : List Tick) :
    ¬ Spaced tf delayMs (past ++ tick :: rest) := by
  intro hspaced
  obtain ⟨o, ho⟩ := Option.isSome_iff_exists.mp hexit
  obtain ⟨before, a, mid, b, since, rfl, ha, hb, hfilled, -, hunfilled⟩ := h.exit o ho (by simp)
  exact hunfilled (hspaced before a mid b since tick rest (by simp) ha hb hconf hfilled)

end

/-- The books, the orders and the accumulator in the course of a run. -/
structure Going {α ω : Type} (tf : TimeFrame) (delayMs : Int) (past : List Tick)
    (now : Option Tick) (held : Option Position) (s : TickState α ω) : Prop where
  holds : s.Holds held
  orders : Orders held s.pendingOrders
  waits : Waits tf delayMs past now held s.pendingOrders
  follows : Follows tf past s.accumulator

section
variable {α ω : Type} [SnapshotAdapter α] {params : EngineRunParams ω} {tf : TimeFrame}
  {delayMs : Int} {past : List Tick} {tick : Tick} {held : Option Position} {s : TickState α ω}

theorem accumulate_going (h : Going tf delayMs past none held s) (rest : List Tick)
    (hspaced : Spaced tf delayMs (past ++ tick :: rest)) :
    Ends (Going tf delayMs (past ++ [tick]) (some tick) held) EngineError.Foreign
      (accumulate params tick s) := by
  refine ((accumulate_ends params tick h.holds).imp ?_).imp_error ?_
  · intro s' ⟨hbooks, _, ⟨event, hacc, hsame⟩, horders⟩
    obtain ⟨hfollows, hevent⟩ := h.follows.accumulated hacc
    have hconf : s'.pendingOrders = s.pendingOrders ∨ Confirming tf past tick := by
      cases event with
      | updated => exact .inl (hsame rfl)
      | confirmed => exact .inr (hevent.mp rfl)
    exact ⟨h.holds.of_positions (by rw [hbooks]), h.orders.asked horders,
      h.waits.asked horders hconf, hfollows⟩
  · intro e ⟨hdouble, acc, hacc⟩
    refine hdouble.resolve_right fun ⟨_, hexit⟩ => ?_
    exact h.waits.not_spaced hexit ((h.follows.accumulated hacc).2.mp rfl) rest hspaced

omit [SnapshotAdapter α] in
theorem fillExit_going (h : Going tf delayMs past (some tick) held s) :
    Ends (fun s' => ∃ held', Going tf delayMs past none held' s') EngineError.Foreign
      (fillExit params tick s) := by
  refine (fillExit_ends params tick h.holds h.orders.exit).imp ?_
  rintro s' (⟨rfl, hlt⟩ | ⟨o, closed, record, horder, -, hcloses, rfl⟩)
  · exact ⟨held, h.holds, h.orders, h.waits.exitNotDue hlt, h.follows⟩
  · obtain rfl := h.orders.exit o horder
    exact ⟨none, ⟨hcloses.forget_positions h.holds, by simp⟩,
      h.orders.exitFilled (by simp [horder]), h.waits.exitFilled, h.follows⟩

omit [SnapshotAdapter α] in
theorem fillEntry_going (h : Going tf delayMs (past ++ [tick]) none held s) :
    Ends (fun s' => ∃ held', Going tf delayMs (past ++ [tick]) none held' s') EngineError.Foreign
      (fillEntry params tick s) := by
  refine (fillEntry_ends params tick s).imp ?_
  rintro s' (⟨rfl, -⟩ | ⟨o, p, books, horder, hle, hopens, rfl⟩)
  · exact ⟨held, h⟩
  · have hsome : s.pendingOrders.pendingEntry.isSome = true := by simp [horder]
    obtain ⟨rfl, hexit⟩ := h.orders.entry hsome
    exact ⟨some p, hopens.holds h.holds, h.orders.entryFilled hsome p,
      h.waits.entryFilled horder hle hexit p, h.follows⟩

/-- One round of the loop. -/
theorem onTick_going (h : Going tf delayMs past none held s) (rest : List Tick)
    (hspaced : Spaced tf delayMs (past ++ tick :: rest)) :
    Ends (fun s' => ∃ held', Going tf delayMs (past ++ [tick]) none held' s')
      EngineError.Foreign (onTick params s tick) := by
  unfold onTick
  have hreceived : Going tf delayMs past none held (receive tick s) :=
    ⟨h.holds.of_positions rfl, h.orders, h.waits, h.follows⟩
  refine Ends.bind _ (accumulate_going hreceived rest hspaced) ?_
  intro s₁ _ h₁
  refine Ends.bind _ (fillExit_going h₁) ?_
  intro s₂ _ ⟨held₂, h₂⟩
  refine Ends.bind _ (fillEntry_going h₂) ?_
  intro s₃ _ ⟨held₃, h₃⟩
  exact ⟨held₃, h₃.holds.of_positions rfl, h₃.orders, h₃.waits, h₃.follows⟩

omit [SnapshotAdapter α] in
/-- The end of the stream throws nothing of its own. -/
theorem finish_ends (hs : s.Holds held) (horders : Orders held s.pendingOrders) :
    Ends (fun _ => True) EngineError.Foreign (finish params s) := by
  unfold finish
  cases hl : s.lastTick with
  | none => trivial
  | some lastTick =>
    refine Ends.bind (fun books => ∃ held', books.Holds held') ?_ ?_
    · dsimp only [PendingOrderManager.settleAtStreamEnd, settleWaiting]
      cases horder : s.pendingOrders.pendingExit with
      | none => exact ⟨held, hs⟩
      | some o =>
        obtain rfl := horders.exit o horder
        refine (settleExit_ends params lastTick o _ (hs.opened _ rfl)).imp ?_
        rintro books ⟨closed, record, hcloses, rfl⟩
        exact ⟨none, hcloses.forget_positions hs, by simp⟩
    · intro books _ ⟨held', hbooks⟩
      refine Ends.bind (fun _ => True) ?_ fun _ _ _ => trivial
      unfold forceCloseAll
      refine Ends.bind (fun _ => True) ?_ fun _ _ _ => trivial
      rw [hbooks.positions]
      cases held' with
      | none => trivial
      | some p =>
        simp only [Option.toList_some, List.map_cons, List.map_nil, List.foldlM_cons,
          List.foldlM_nil, bind_pure]
        unfold forceClose
        exact Ends.bind _ (closePosition_ends params _ p.id (hbooks.opened p rfl) _ _ _ _)
          fun _ _ _ => trivial

/-- Over spaced ticks a run throws nothing of its own. -/
theorem run_ends_of_spaced (params : EngineRunParams ω) (adapter : α) (world : ω)
    (shared : SharedState) (hspaced : Spaced params.config.timeframe delayMs
      (params.dataProvider.fetchTicks params.config.pair params.config.dateRange)) :
    Ends (fun _ => True) EngineError.Foreign (run params delayMs adapter world shared) := by
  unfold run runOver
  generalize params.dataProvider.fetchTicks params.config.pair params.config.dateRange = ticks
    at hspaced ⊢
  rw [bind_assoc]
  refine Ends.bind (Going params.config.timeframe delayMs [] none none) ?_ ?_
  · unfold begin
    refine Ends.bind (fun _ => True) ?_ fun warmupCandles _ _ => ?_
    · unfold fetchWarmUp
      dsimp only
      split
      · refine Ends.bind (fun _ => True) (thrown_ends _) fun warmupCandles _ _ => ?_
        split
        · trivial
        · trivial
      · trivial
    · refine Ends.bind (fun _ => True) (foreign_ends EngineError.adapter (fun _ => trivial) _) ?_
      intro adapter _ _
      exact ⟨⟨rfl, by simp⟩, Orders.new delayMs, Waits.new _ delayMs, Follows.new _⟩
  · intro s _ hs
    refine Ends.bind (fun s => ∃ held, Going params.config.timeframe delayMs ticks none held s)
      ?_ ?_
    · refine Ends.foldlM (fun past (s : TickState α ω) =>
        ∃ held, Going params.config.timeframe delayMs past none held s) ?_ ⟨none, hs⟩
      intro past tick rest hticks s' ⟨held, h⟩
      exact onTick_going h rest (hticks ▸ hspaced)
    · intro s' _ ⟨held, h⟩
      exact finish_ends h.holds h.orders

end

/-! ### Ticks that are not spaced: rules that make the run abort -/

/-- An adapter whose snapshots show the tick, and otherwise always the same market. -/
inductive TickAdapter where
  | mk

instance : SnapshotAdapter TickAdapter where
  warmUp a _ := .ok a
  addCandleAndBuild a _ tick _ := .ok ({ crossSnapshot with tick := tick }, a)
  warmUpByTimeFrame := none

/-- Rules that enter at the time of `a` and leave at those of `b` and `c`, without warm-up. -/
def scripted (tf : TimeFrame) (a b c : Tick) (ticks : List Tick) : EngineRunParams Nat where
  config := ⟨.usdJpy, tf, ⟨0, 0⟩, 0⟩
  entryRule _ snapshot n :=
    .ok (if snapshot.tick.timestamp = a.timestamp then some filledEntry else none, n)
  exitRule _ snapshot p n :=
    .ok (if snapshot.tick.timestamp = b.timestamp ∨ snapshot.tick.timestamp = c.timestamp then
      some (leaveCommand p) else none, n)
  dataProvider := ⟨fun _ _ _ _ => .ok [], fun _ _ => ticks⟩
  executionSimulator := idealExecutionSimulator countedIds
  runId := "run"
  initialCapital := 100000
  additionalIndicatorSpecs := []

/-- The position, the orders and the accumulator at a point of the script. -/
structure Stage (tf : TimeFrame) (past : List Tick) (held : Option Position)
    (m : PendingOrderManager) (s : TickState TickAdapter Nat) : Prop where
  holds : s.Holds held
  orders : s.pendingOrders = m
  follows : Follows tf past s.accumulator

section
variable {tf : TimeFrame} {a b c tick : Tick} {ticks past : List Tick}
  {held : Option Position} {m : PendingOrderManager} {s : TickState TickAdapter Nat}

/-- The rules are asked at a confirming tick, and else nothing happens. -/
theorem accumulate_stage {post : TickState TickAdapter Nat → Prop} {err : EngineError → Prop}
    (params : EngineRunParams Nat) (h : Stage tf past held m s)
    (hsilent : ¬ Confirming tf past tick → ∀ s', Stage tf (past ++ [tick]) held m s' → post s')
    (hasked : Confirming tf past tick → ∀ s' candle, Stage tf (past ++ [tick]) held m s' →
      Ends post err (onConfirmed params candle tick s')) :
    Ends post err (accumulate params tick s) := by
  obtain ⟨event, acc, hacc, hcases⟩ := s.accumulator.accumulate_cases tick
  obtain ⟨hfollows, hevent⟩ := h.follows.accumulated hcases
  have hstage : Stage tf (past ++ [tick]) held m { s with accumulator := acc } :=
    ⟨h.holds.of_positions rfl, h.orders, hfollows⟩
  unfold accumulate
  rw [hacc]
  refine Ends.bind (· = (event, acc)) rfl ?_
  rintro _ - rfl
  dsimp only
  cases hcases with
  | first hf => exact hsilent (fun hconf => nomatch hevent.mpr hconf) _ hstage
  | same hf hb htf hl hf' ho => exact hsilent (fun hconf => nomatch hevent.mpr hconf) _ hstage
  | @next f candle hf hb ho hc htf => exact hasked (hevent.mp rfl) _ candle hstage

/-- While nothing is held only the entry rule is asked. -/
theorem onConfirmed_free (hs : s.Holds none) (candle : ConfirmedCandle) :
    onConfirmed (scripted tf a b c ticks) candle tick s =
      evaluateEntry (scripted tf a b c ticks) { crossSnapshot with tick := tick } tick s := by
  show (s.positions.foldlM _ s >>= evaluateEntry _ _ tick) = _
  rw [hs.positions]
  rfl

/-- While a position is held only the exit rule is asked. -/
theorem onConfirmed_held {p : Position} (hs : s.Holds (some p)) (candle : ConfirmedCandle) :
    onConfirmed (scripted tf a b c ticks) candle tick s =
      (evaluateExit (scripted tf a b c ticks) { crossSnapshot with tick := tick } tick s
        (p.id, p) >>= evaluateEntry (scripted tf a b c ticks)
          { crossSnapshot with tick := tick } tick) := by
  show (s.positions.foldlM _ s >>= evaluateEntry _ _ tick) = _
  rw [hs.positions]
  simp only [Option.toList_some, List.map_cons, List.map_nil, List.foldlM_cons, List.foldlM_nil,
    bind_pure]

/-- Before the entry, and as long as it waits. -/
theorem accumulate_free {err : EngineError → Prop} (h : Stage tf past none m s)
    (hsilent : Confirming tf past tick → m.hasAnyPending = false → tick.timestamp ≠ a.timestamp) :
    Ends (Stage tf (past ++ [tick]) none m) err (accumulate (scripted tf a b c ticks) tick s) := by
  refine accumulate_stage _ h (fun _ _ h' => h') fun hconf s' candle h' => ?_
  rw [onConfirmed_free h'.holds]
  unfold evaluateEntry
  split
  · rename_i hfree
    have hne :
        ({ crossSnapshot with tick := tick } : MarketSnapshot).tick.timestamp ≠ a.timestamp :=
      hsilent hconf (h'.orders ▸ hfree.2)
    simp only [scripted, if_neg hne]
    exact ⟨h'.holds.of_positions rfl, h'.orders, h'.follows⟩
  · exact h'

/-- The entry is ordered. -/
theorem accumulate_enters {err : EngineError → Prop} {delayMs : Int}
    (h : Stage tf past none (.new delayMs) s) (hconf : Confirming tf past tick)
    (ha : tick.timestamp = a.timestamp) :
    Ends (Stage tf (past ++ [tick]) none
      ⟨delayMs, some ⟨filledEntry, tick.timestamp + delayMs⟩, none⟩) err
      (accumulate (scripted tf a b c ticks) tick s) := by
  refine accumulate_stage _ h (absurd hconf) fun _ s' candle h' => ?_
  rw [onConfirmed_free h'.holds]
  unfold evaluateEntry
  have hnothing : s'.pendingOrders.hasAnyPending = false := by rw [h'.orders]; rfl
  rw [if_pos ⟨h'.holds.length_eq_zero.mpr rfl, hnothing⟩]
  simp only [scripted, ha, if_true]
  show Ends _ _ (s'.pendingOrders.acceptEntryOrder filledEntry tick >>= _)
  rw [h'.orders]
  exact ⟨h'.holds.of_positions rfl, by rw [← ha]; rfl, h'.follows⟩

/-- While the position is held, between the exits. -/
theorem accumulate_held {err : EngineError → Prop} {p : Position} (h : Stage tf past (some p) m s)
    (hsilent : Confirming tf past tick →
      tick.timestamp ≠ b.timestamp ∧ tick.timestamp ≠ c.timestamp) :
    Ends (Stage tf (past ++ [tick]) (some p) m) err
      (accumulate (scripted tf a b c ticks) tick s) := by
  refine accumulate_stage _ h (fun _ _ h' => h') fun hconf s' candle h' => ?_
  obtain ⟨hb, hc⟩ := hsilent hconf
  rw [onConfirmed_held h'.holds]
  unfold evaluateExit
  simp only [scripted, hb, hc, or_self, if_false]
  show Ends _ _ (evaluateEntry _ _ tick s')
  unfold evaluateEntry
  rw [if_neg (by simp [h'.holds.length_eq_zero])]
  exact h'

/-- The exit is ordered, and refused where another waits. -/
theorem accumulate_leaves {err : EngineError → Prop} {post : TickState TickAdapter Nat → Prop}
    {p : Position} (h : Stage tf past (some p) m s) (hconf : Confirming tf past tick)
    (hbc : tick.timestamp = b.timestamp ∨ tick.timestamp = c.timestamp)
    (haccept : Ends (fun m' => ∀ s', Stage tf (past ++ [tick]) (some p) m' s' → post s') err
      (m.acceptExitOrder (leaveCommand p) p tick)) :
    Ends post err (accumulate (scripted tf a b c ticks) tick s) := by
  refine accumulate_stage _ h (absurd hconf) fun _ s' candle h' => ?_
  rw [onConfirmed_held h'.holds]
  unfold evaluateExit
  simp only [scripted, hbc, if_true]
  show Ends _ _ ((s'.pendingOrders.acceptExitOrder (leaveCommand p) p tick >>= _) >>= _)
  rw [bind_assoc, h'.orders]
  refine Ends.bind _ haccept ?_
  intro m' _ hpost
  show Ends _ _ (evaluateEntry _ _ tick _)
  unfold evaluateEntry
  rw [if_neg (by simp [h'.holds.length_eq_zero])]
  exact hpost _ ⟨h'.holds.of_positions rfl, rfl, h'.follows⟩

/-- The rest of a tick at which nothing is due. -/
theorem fills_wait {err : EngineError → Prop} (params : EngineRunParams Nat)
    (h : Stage tf past held m s) (hexit : ∀ o ∈ m.pendingExit, tick.timestamp < o.fillableAt)
    (hentry : ∀ o ∈ m.pendingEntry, tick.timestamp < o.fillableAt) :
    Ends (Stage tf past held m) err (do
      let s ← fillExit params tick s
      let s ← fillEntry params tick s
      return updateExtremes tick s) := by
  obtain ⟨hholds, rfl, hfollows⟩ := h
  have hnoExit : fillExit params tick s = .ok s := by
    unfold fillExit PendingOrderManager.checkExitFill
    cases horder : s.pendingOrders.pendingExit with
    | none => rfl
    | some o => simp only [if_pos (hexit o horder)]
  have hnoEntry : fillEntry params tick s = .ok s := by
    unfold fillEntry PendingOrderManager.checkEntryFill
    cases horder : s.pendingOrders.pendingEntry with
    | none => rfl
    | some o => simp only [if_pos (hentry o horder)]
  rw [hnoExit]
  show Ends _ _ (fillEntry params tick s >>= fun s => pure (updateExtremes tick s))
  rw [hnoEntry]
  exact ⟨hholds.of_positions rfl, rfl, hfollows⟩

/-- The rest of the tick at which the entry is due. -/
theorem fills_enter {err : EngineError → Prop} {delayMs : Int} {o : PendingEntry}
    (h : Stage tf past none ⟨delayMs, some o, none⟩ s) (hle : o.fillableAt ≤ tick.timestamp) :
    Ends (fun s' => ∃ p, Stage tf past (some p) (.new delayMs) s') err (do
      let s ← fillExit (scripted tf a b c ticks) tick s
      let s ← fillEntry (scripted tf a b c ticks) tick s
      return updateExtremes tick s) := by
  obtain ⟨hholds, horders, hfollows⟩ := h
  have hnoExit : fillExit (scripted tf a b c ticks) tick s = .ok s := by
    simp [fillExit, PendingOrderManager.checkExitFill, horders]
  rw [hnoExit]
  show Ends _ _ (fillEntry (scripted tf a b c ticks) tick s >>= fun s =>
    pure (updateExtremes tick s))
  unfold fillEntry PendingOrderManager.checkEntryFill
  simp only [horders, if_neg (not_lt.mpr hle)]
  -- the simulator does not throw
  obtain ⟨books, hbooks⟩ : ∃ books, s.toEngineState.openPosition (scripted tf a b c ticks)
      o.command (selectPrice tick o.command.buySell) tick.timestamp = .ok books := ⟨_, rfl⟩
  obtain ⟨p, hopens⟩ := (openPosition_ends (scripted tf a b c ticks) o.command _ _ _).of_ok hbooks
  rw [hbooks]
  exact ⟨p, (hopens.holds hholds).of_positions rfl, rfl, hfollows⟩

theorem Stage.receive (h : Stage tf past held m s) : Stage tf past held m (receive tick s) :=
  ⟨h.holds.of_positions rfl, h.orders, h.follows⟩

end

/-- The entry has been ordered at the tick `a`, and is filled once it is due. -/
def Entered (tf : TimeFrame) (delayMs : Int) (before : List Tick) (a : Tick) (since : List Tick)
    (s : TickState TickAdapter Nat) : Prop :=
  (Stage tf (before ++ a :: since) none ⟨delayMs, some ⟨filledEntry, a.timestamp + delayMs⟩, none⟩ s
      ∧ ¬ Filled delayMs a since) ∨
    ∃ p, Stage tf (before ++ a :: since) (some p) (.new delayMs) s

section
variable {tf : TimeFrame} {delayMs : Int} {ticks before mid later : List Tick} {a b c : Tick}
  {s : TickState TickAdapter Nat}

/-- Nothing is ordered before the tick `a`. -/
theorem loop_before {err : EngineError → Prop} (hlt : ∀ t ∈ before, t.timestamp < a.timestamp)
    (h : Stage tf [] none (.new delayMs) s) :
    Ends (Stage tf before none (.new delayMs)) err
      (before.foldlM (onTick (scripted tf a b c ticks)) s) := by
  refine Ends.foldlM (fun done => Stage tf done none (.new delayMs)) ?_ h
  intro done tick rest hbefore s' h'
  have hne : tick.timestamp ≠ a.timestamp := Int.ne_of_lt (hlt tick (by simp [hbefore]))
  refine Ends.bind _ (accumulate_free h'.receive fun _ _ => hne) ?_
  intro s'' _ h''
  exact fills_wait _ h'' (by simp [PendingOrderManager.new]) (by simp [PendingOrderManager.new])

/-- The fills of a tick at which the entry waits. -/
theorem fills_entered {err : EngineError → Prop} {since : List Tick} {tick : Tick}
    (h : Stage tf (before ++ a :: since) none
      ⟨delayMs, some ⟨filledEntry, a.timestamp + delayMs⟩, none⟩ s)
    (hwaits : tick.timestamp < a.timestamp + delayMs → ¬ Filled delayMs a since) :
    Ends (Entered tf delayMs before a since) err (do
      let s ← fillExit (scripted tf a b c ticks) tick s
      let s ← fillEntry (scripted tf a b c ticks) tick s
      return updateExtremes tick s) := by
  by_cases hle : a.timestamp + delayMs ≤ tick.timestamp
  · exact (fills_enter h hle).imp fun _ => .inr
  · have hlt : tick.timestamp < a.timestamp + delayMs := not_le.mp hle
    exact (fills_wait _ h (by simp) (by simpa using hlt)).imp fun s' h' => .inl ⟨h', hwaits hlt⟩

/-- The tick `a`. -/
theorem onTick_enters {err : EngineError → Prop} (h : Stage tf before none (.new delayMs) s)
    (hconf : Confirming tf before a) :
    Ends (Entered tf delayMs before a []) err (onTick (scripted tf a b c ticks) s a) := by
  refine Ends.bind _ (accumulate_enters h.receive hconf rfl) ?_
  intro s' _ h'
  refine fills_entered h' ?_
  rintro hlt ⟨t, ht, hle⟩
  obtain rfl := List.mem_singleton.mp ht
  exact absurd hlt (not_lt.mpr hle)

/-- The ticks between `a` and `b`, at which no rule speaks. -/
theorem loop_entered {err : EngineError → Prop} (hb : ∀ t ∈ mid, t.timestamp < b.timestamp)
    (hc : ∀ t ∈ mid, t.timestamp < c.timestamp) (h : Entered tf delayMs before a [] s) :
    Ends (Entered tf delayMs before a mid) err
      (mid.foldlM (onTick (scripted tf a b c ticks)) s) := by
  refine Ends.foldlM (Entered tf delayMs before a) ?_ h
  intro done tick rest hmid s' h'
  have hmem : tick ∈ mid := by simp [hmid]
  rcases h' with ⟨h', hwaits⟩ | ⟨p, h'⟩
  · refine Ends.bind _ (accumulate_free h'.receive
      (by simp [PendingOrderManager.hasAnyPending])) ?_
    intro s'' _ h''
    rw [List.append_assoc, List.cons_append] at h''
    refine fills_entered h'' fun hlt => ?_
    rw [filled_snoc_iff]
    exact fun hor => hor.elim hwaits (not_le.mpr hlt)
  · refine Ends.bind _ (accumulate_held h'.receive fun _ =>
      ⟨Int.ne_of_lt (hb tick hmem), Int.ne_of_lt (hc tick hmem)⟩) ?_
    intro s'' _ h''
    rw [List.append_assoc, List.cons_append] at h''
    exact (fills_wait _ h'' (by simp [PendingOrderManager.new])
      (by simp [PendingOrderManager.new])).imp fun _ h₃ => .inr ⟨p, h₃⟩

/-- The tick `b`, and the ticks between it and `c`: the exit waits. -/
theorem loop_leaving {err : EngineError → Prop} {past : List Tick} {p : Position}
    (h : Stage tf past (some p) (.new delayMs) s) (hconf : Confirming tf past b)
    (hwaits : ¬ Filled delayMs b later)
    (hb : ∀ done t rest, later = done ++ t :: rest → Confirming tf (past ++ b :: done) t →
      b.timestamp < t.timestamp) (hc : ∀ t ∈ later, t.timestamp < c.timestamp) :
    Ends (Stage tf (past ++ b :: later) (some p)
        ⟨delayMs, none, some ⟨leaveCommand p, p, b.timestamp + delayMs⟩⟩) err
      ((b :: later).foldlM (onTick (scripted tf a b c ticks)) s) := by
  have hlt : ∀ t ∈ b :: later, t.timestamp < b.timestamp + delayMs := fun t ht =>
    not_le.mp fun hle => hwaits ⟨t, ht, hle⟩
  rw [List.foldlM_cons]
  refine Ends.bind (Stage tf (past ++ [b]) (some p)
    ⟨delayMs, none, some ⟨leaveCommand p, p, b.timestamp + delayMs⟩⟩) ?_ fun s' _ h' => ?_
  · refine Ends.bind _ (accumulate_leaves h.receive hconf (.inl rfl) fun _ h' => h') ?_
    intro s' _ h'
    exact fills_wait _ h' (by simpa using hlt b (by simp)) (by simp)
  · refine Ends.foldlM (fun done => Stage tf (past ++ b :: done) (some p)
      ⟨delayMs, none, some ⟨leaveCommand p, p, b.timestamp + delayMs⟩⟩) ?_ h'
    intro done tick rest hlater s'' h''
    have hmem : tick ∈ later := by simp [hlater]
    refine Ends.bind _ (accumulate_held h''.receive fun hconf' =>
      ⟨Int.ne_of_gt (hb done tick rest hlater hconf'), Int.ne_of_lt (hc tick hmem)⟩) ?_
    intro s₃ _ h₃
    rw [List.append_assoc, List.cons_append] at h₃
    exact fills_wait _ h₃ (by simpa using hlt tick (by simp [hmem])) (by simp)

/-- The tick `c`: the second exit is refused. -/
theorem onTick_clashes {past : List Tick} {p : Position} {o : PendingExit}
    (h : Stage tf past (some p) ⟨delayMs, none, some o⟩ s) (hconf : Confirming tf past c) :
    Ends (fun _ => False) (· = .pendingExitExists) (onTick (scripted tf a b c ticks) s c) := by
  refine Ends.bind (fun _ => False) ?_ fun _ _ h' => h'.elim
  exact accumulate_leaves h.receive hconf (.inr rfl) rfl

/-- A stream that is not spaced: the script aborts. -/
theorem run_clashes {rest : List Tick}
    (hticks : ticks = before ++ a :: (mid ++ b :: (later ++ c :: rest)))
    (hmono : ticks.Pairwise (fun t u => t.timestamp ≤ u.timestamp)) (ha : Confirming tf before a)
    (hb : Confirming tf (before ++ a :: mid) b)
    (hc : Confirming tf (before ++ a :: (mid ++ b :: later)) c) (hfilled : Filled delayMs a mid)
    (hwaits : ¬ Filled delayMs b later) :
    Ends (fun _ => False) (· = .pendingExitExists)
      (run (scripted tf a b c ticks) delayMs TickAdapter.mk 0 ⟨none, none⟩) := by
  -- a confirming tick of the stream is later than what comes before it
  have hlt : ∀ past t after, ticks = past ++ t :: after → Confirming tf past t →
      ∀ u ∈ past, u.timestamp < t.timestamp := by
    intro past t after hsplit hconf u hu
    have hprefix : past ++ [t] <+: ticks := ⟨after, by simp [hsplit]⟩
    exact hconf.lt (hmono.sublist hprefix.sublist) hu
  have hlta := hlt before a _ hticks ha
  have hltb := hlt (before ++ a :: mid) b (later ++ c :: rest) (by simp [hticks]) hb
  have hltc := hlt (before ++ a :: (mid ++ b :: later)) c rest (by simp [hticks]) hc
  refine Ends.bind (fun _ => False) ?_ fun _ _ h => h.elim
  refine Ends.bind (Stage tf [] none (.new delayMs)) ⟨⟨rfl, by simp⟩, rfl, Follows.new tf⟩ ?_
  intro s _ h
  suffices hloop : Ends (fun _ => False) (· = .pendingExitExists)
      ((before ++ a :: (mid ++ b :: (later ++ c :: rest))).foldlM
        (onTick (scripted tf a b c ticks)) s) by
    rwa [← hticks] at hloop
  rw [List.foldlM_append]
  refine Ends.bind _ (loop_before hlta h) ?_
  intro s₁ _ h₁
  rw [List.foldlM_cons]
  refine Ends.bind _ (onTick_enters h₁ ha) ?_
  intro s₂ _ h₂
  rw [List.foldlM_append]
  refine Ends.bind _ (loop_entered (fun t ht => hltb t (by simp [ht]))
    (fun t ht => hltc t (by simp [ht])) h₂) ?_
  rintro s₃ - (⟨-, hunfilled⟩ | ⟨p, h₃⟩)
  · exact absurd hfilled hunfilled
  rw [← List.cons_append, List.foldlM_append]
  refine Ends.bind _ (loop_leaving h₃ hb hwaits ?_ fun t ht => hltc t (by simp [ht])) ?_
  · intro done t after hlater hconf
    exact hlt (before ++ a :: mid ++ b :: done) t (after ++ c :: rest)
      (by simp [hticks, hlater]) hconf b (by simp)
  intro s₄ _ h₄
  rw [List.foldlM_cons]
  refine Ends.bind _ (onTick_clashes h₄ (by simpa using hc)) fun _ _ h => h.elim

end

/-- Without a delay every stream is spaced. -/
theorem spaced_of_no_delay (tf : TimeFrame) {delayMs : Int} (h : delayMs ≤ 0)
    (ticks : List Tick) : Spaced tf delayMs ticks := by
  intro _ _ _ b _ _ _ _ _ _ _ _
  exact ⟨b, by simp, by omega⟩

/-- Over ticks in order: no rules, adapter or simulator make a run throw anything of its
own, exactly if the ticks are spaced. -/
theorem never_aborts_iff (tf : TimeFrame) (delayMs : Int) {ticks : List Tick}
    (hmono : ticks.Pairwise (fun t u => t.timestamp ≤ u.timestamp)) :
    (∀ (α ω : Type) [SnapshotAdapter α] (params : EngineRunParams ω) (adapter : α) (world : ω)
        (shared : SharedState), params.config.timeframe = tf →
      params.dataProvider.fetchTicks params.config.pair params.config.dateRange = ticks →
      ∀ e, run params delayMs adapter world shared = .error e → e.Foreign) ↔
      Spaced tf delayMs ticks := by
  constructor
  · intro hforeign before a mid b later c rest hticks ha hb hc hfilled
    by_contra hwaits
    have hclash := run_clashes hticks hmono ha hb hc hfilled hwaits
    cases hrun : run (scripted tf a b c ticks) delayMs TickAdapter.mk 0 ⟨none, none⟩ with
    | ok s => exact hclash.of_ok hrun
    | error e =>
      have he : e = .pendingExitExists := hclash.of_error hrun
      have := hforeign TickAdapter Nat (scripted tf a b c ticks) .mk 0 ⟨none, none⟩ rfl rfl e hrun
      rw [he] at this
      exact this
  · rintro hspaced α ω _ params adapter world shared rfl rfl e he
    exact (run_ends_of_spaced params adapter world shared hspaced).of_error he

/-- Without a delay the quiet ticks go through. -/
theorem never_aborts_quiet :
    ¬ ∃ e, run (quietParams (idealExecutionSimulator countedIds) (quietBars 2)
      (quietTicks 120000 6)) 0 quietAdapter 0 ⟨some 100000, none⟩ = .error e ∧ ¬ e.Foreign := by
  rintro ⟨e, hrun, he⟩
  have hmono : (quietTicks 120000 6).Pairwise (fun t u => t.timestamp ≤ u.timestamp) := by
    decide +kernel
  exact he ((never_aborts_iff .oneMinute 0 hmono).mpr (spaced_of_no_delay _ le_rfl _) _ _ _ _ _ _
    rfl rfl e hrun)

/-- One tick a minute. -/
def sparseTicks : List Tick :=
  [quietTick 120000, quietTick 180000, quietTick 240000, quietTick 300000, quietTick 360000]

/-- The exit of the fourth minute still waits when that of the fifth is placed. -/
theorem exists_double_acceptance :
    sparseTicks.Pairwise (fun t u => t.timestamp ≤ u.timestamp) ∧
    run (quietParams (idealExecutionSimulator countedIds) (quietBars 2) sparseTicks) 100
      quietAdapter 0 ⟨some 100000, none⟩ = .error .pendingExitExists := by
  refine ⟨by decide, ?_⟩
  obtain ⟨e, hrun, he⟩ : ∃ e, run (quietParams (idealExecutionSimulator countedIds) (quietBars 2)
      sparseTicks) 100 quietAdapter 0 ⟨some 100000, none⟩ = .error e ∧
        (e matches .pendingExitExists) = true := exists_error (by decide +kernel)
  rw [hrun]
  cases e with
  | pendingExitExists => rfl
  | _ => cases he

end TickEngine

end Luchida
