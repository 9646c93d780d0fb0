import Luchida.Runs
import Luchida.TimeFrameBook

/- The bars that make up the confirmed SMA of each time frame, over whole runs of
   ticks and official lists. A `BarState` is a book with a record of what it was
   fed: `bars`, the candles given to the confirmed SMA since the last official list
   (`BarState.Recorded` is kept by every step), and the market snapshots shown.

   `BarView` is all that matters of one time frame: when the forming candle opened,
   the confirmed candle, and the bars. The book simulates two relations on views, one
   for a tick and one for an official list, and the invariants are proved there. -/
namespace Luchida

/-! ## One time frame, abstractly -/

structure BarView where
  forming : Option Int
  confirmed : Option ConfirmedCandle
  bars : List ConfirmedCandle

namespace BarView

/-- What a tick at time `t` may do: nothing visible, open the first candle, or
close the forming candle and open the next. -/
inductive Ticked (tf : TimeFrame) (t : Int) : BarView → BarView → Prop
  | idle (v : BarView) : Ticked tf t v v
  | opened {v : BarView} : v.forming = none → Ticked tf t v { v with forming := some t }
  | closed {v : BarView} {o : Int} {c : ConfirmedCandle} :
      v.forming = some o → tf.bucket t ≠ tf.bucket o → c.openTime = o →
      Ticked tf t v ⟨some t, some c, v.bars ++ [c]⟩

/-- What an official list with last candle `last` does once it is accepted. The
bars stay as they were only where reading the old SMA threw. -/
structure Corrected (official : List ConfirmedCandle) (last : ConfirmedCandle)
    (v v' : BarView) : Prop where
  ascending : official.Pairwise (fun a b => a.openTime < b.openTime)
  last_eq : official.getLast? = some last
  before_forming : ∀ o ∈ v.forming, last.openTime < o
  forming : v'.forming = v.forming
  confirmed : v'.confirmed = some last
  bars : v'.bars = official ∨ v'.bars = v.bars

end BarView

/-- The last of an ascending list opens no earlier than any other. -/
theorem openTime_le_last {bars : List ConfirmedCandle} {last : ConfirmedCandle}
    (hasc : bars.Pairwise (fun a b => a.openTime < b.openTime)) (hlast : bars.getLast? = some last)
    {c : ConfirmedCandle} (hc : c ∈ bars) : c.openTime ≤ last.openTime := by
  obtain ⟨init, rfl⟩ := List.getLast?_eq_some_iff.mp hlast
  rcases List.mem_append.mp hc with hc | hc
  · exact Int.le_of_lt ((List.pairwise_append.mp hasc).2.2 c hc last (by simp))
  · rw [List.mem_singleton.mp hc]

/-! ## Runs of the book -/

structure BarState (σ : Type) where
  book : TimeFrameBook σ
  bars : TimeFrame → List ConfirmedCandle
  /-- The market snapshots shown so far, the newest first. -/
  snapshots : List MarketSnapshot
  lastTick : Option Int

inductive BarLabel where
  | onTick (tick : Tick) (now : Int)
  | reconcile (timeFrame : TimeFrame) (official : List ConfirmedCandle) (now : Int)

/-- The bars after a tick: the candle that was confirmed is added, which is when the
forming candle moved to another bucket. -/
def recordTick (acc acc' : CandleAccumulator) (bars : List ConfirmedCandle) :
    List ConfirmedCandle :=
  match acc.forming, acc'.forming with
  | some f, some f' =>
    -- a tick of the same bucket leaves the open time of the forming candle alone
    if acc.timeFrame.bucket f'.openTime = acc.timeFrame.bucket f.openTime then bars
    else bars ++ acc'.lastConfirmed.toList
  | _, _ => bars

section
variable {σ : Type}

/-- The bars after an official list: the list itself, once it is accepted and the
ledger got as far as rebuilding. -/
def recordOfficial (book : TimeFrameBook σ) (tf : TimeFrame) (official : List ConfirmedCandle)
    (bars : List ConfirmedCandle) : List ConfirmedCandle :=
  match book.acceptOfficial tf official, (book.entries tf).ledger.snapshotOrNull with
  | .ok (some _), .ok _ => official
  | _, _ => bars

theorem recordOfficial_rejected {book : TimeFrameBook σ} {tf : TimeFrame}
    {official : List ConfirmedCandle} (bars : List ConfirmedCandle)
    (h : ∀ acc, book.acceptOfficial tf official ≠ .ok (some acc)) :
    recordOfficial book tf official bars = bars := by
  unfold recordOfficial
  split
  · rename_i acc _ hacc _
    exact absurd hacc (h acc)
  · rfl

namespace BarState

variable [SmaCalculator σ]

def step (s : BarState σ) : BarLabel → Option (BarState σ)
  | .onTick tick now =>
    let result := s.book.onTick tick now
    some {
      book := result.2
      bars := fun tf =>
        recordTick (s.book.entries tf).accumulator (result.2.entries tf).accumulator (s.bars tf)
      snapshots := match result.1 with
        | .ok snapshot => snapshot :: s.snapshots
        | .error _ => s.snapshots
      lastTick := some tick.timestamp }
  | .reconcile tf official now =>
    some { s with
      book := (s.book.reconcile tf official now).2
      bars := Function.update s.bars tf (recordOfficial s.book tf official (s.bars tf)) }

def view (s : BarState σ) (tf : TimeFrame) : BarView where
  forming := (s.book.entries tf).accumulator.forming.map (·.openTime)
  confirmed := (s.book.entries tf).accumulator.lastConfirmed
  bars := s.bars tf

/-- `warmUp` of the time frames that are left, each with its own history. -/
def warmUpFrom (history : TimeFrame → List ConfirmedCandle) :
    List TimeFrame → TimeFrameBook σ → Except BookError (TimeFrameBook σ)
  | [], book => .ok book
  | tf :: rest, book =>
    match book.warmUp tf (history tf) with
    | .error e => .error e
    | .ok book' => warmUpFrom history rest book'

/-- A warmed-up book before its first tick. -/
def warmedUp (pair : CurrencyPair) (config : IndicatorConfig)
    (history : TimeFrame → List ConfirmedCandle) : Except BookError (BarState σ) :=
  match warmUpFrom history TimeFrame.liveTimeframes (.new pair config) with
  | .error e => .error e
  | .ok book => .ok ⟨book, history, [], none⟩

/-! ### The book simulates the views -/

theorem recordTick_self (acc : CandleAccumulator) (bars : List ConfirmedCandle) :
    recordTick acc acc bars = bars := by
  unfold recordTick
  split
  · rename_i hf hf'
    rw [hf] at hf'
    cases hf'
    simp
  · rfl

theorem view_onTick {s s' : BarState σ} {tick : Tick} {now : Int}
    (h : s.step (.onTick tick now) = some s') (tf : TimeFrame) :
    BarView.Ticked tf tick.timestamp (s.view tf) (s'.view tf) := by
  cases h
  simp only [view]
  rcases s.book.onTick_entries tick now tf with heq | heq
  · rw [heq, recordTick_self]
    exact .idle _
  · rw [heq]
    obtain ⟨event, hacc⟩ := TimeFrameBook.processEntry_accumulated tf (s.book.entries tf) tick
    have hsound := s.book.sound tf
    -- from here on only what the accumulator did matters, not what the ledger threw
    generalize (TimeFrameBook.processEntry tf (s.book.entries tf) tick).2.accumulator = acc' at hacc
    cases hacc with
    | first hf =>
      simp only [recordTick, hf, Option.map_none]
      exact .opened rfl
    | same hf hbucket htf hlast hf' hopen =>
      simp only [recordTick, hf, hf', hopen, if_true, hlast, Option.map_some]
      exact .idle _
    | next hf hbucket hopen hclose htf =>
      simp only [recordTick, hf, CandleAccumulator.reopen, Option.map_some,
        FormingCandle.openWith, Option.toList_some, if_neg hbucket]
      rw [hsound] at hbucket
      exact .closed rfl hbucket hopen

theorem view_reconcile {s s' : BarState σ} {tf : TimeFrame} {official : List ConfirmedCandle}
    {now : Int} (h : s.step (.reconcile tf official now) = some s') :
    (∀ tf' ≠ tf, s'.view tf' = s.view tf') ∧
      (s'.view tf = s.view tf ∨ ∃ last, s.book.Accepts tf official last ∧
        BarView.Corrected official last (s.view tf) (s'.view tf)) := by
  cases h
  by_cases hacc : ∃ acc, s.book.acceptOfficial tf official = .ok (some acc)
  · obtain ⟨acc, hacc⟩ := hacc
    have hentries := TimeFrameBook.reconcile_accepted now hacc
    obtain ⟨-, hforming, last, hlast, haccepts⟩ := TimeFrameBook.acceptOfficial_ok hacc
    constructor
    · intro tf' hne
      simp [view, hentries, hne]
    · refine .inr ⟨last, haccepts, haccepts.ascending, haccepts.last_eq, ?_, ?_, ?_, ?_⟩
      · intro o ho
        obtain ⟨f, hf, rfl⟩ := Option.map_eq_some_iff.mp ho
        exact haccepts.before_forming f hf
      · simp [view, hentries, hforming]
      · simp [view, hentries, hlast]
      · simp only [view, Function.update_self, recordOfficial]
        split
        · exact .inl rfl
        · exact .inr rfl
  · simp only [not_exists] at hacc
    rw [TimeFrameBook.reconcile_rejected now hacc, recordOfficial_rejected _ hacc,
      Function.update_eq_self]
    exact ⟨fun _ _ => rfl, .inl rfl⟩

/-- What a step does to one time frame: a tick, nothing, or an official list accepted for it. -/
theorem view_cases {s s' : BarState σ} {a : BarLabel} (h : s.step a = some s') (tf : TimeFrame) :
    (∃ tick now, a = .onTick tick now ∧ s'.lastTick = some tick.timestamp ∧
      BarView.Ticked tf tick.timestamp (s.view tf) (s'.view tf)) ∨
    (s'.lastTick = s.lastTick ∧ s'.view tf = s.view tf) ∨
    ∃ official now last, a = .reconcile tf official now ∧ s'.lastTick = s.lastTick ∧
      s.book.Accepts tf official last ∧
      BarView.Corrected official last (s.view tf) (s'.view tf) := by
  cases a with
  | onTick tick now =>
    have hview := view_onTick h tf
    cases h
    exact .inl ⟨tick, now, rfl, rfl, hview⟩
  | reconcile tf' official now =>
    obtain ⟨hother, hself⟩ := view_reconcile h
    cases h
    by_cases heq : tf = tf'
    · subst heq
      rcases hself with hsame | ⟨last, haccepts, hcorrected⟩
      · exact .inr (.inl ⟨rfl, hsame⟩)
      · exact .inr (.inr ⟨official, now, last, rfl, rfl, haccepts, hcorrected⟩)
    · exact .inr (.inl ⟨rfl, hother tf heq⟩)

/-! ### The record is what the SMA was fed -/

/-- The confirmed SMAs of every time frame hold the recorded bars. -/
def Recorded (s : BarState σ) : Prop :=
  ∀ tf, (s.book.entries tf).ledger.FedWith (s.bars tf)

theorem processEntry_fed (tf : TimeFrame) {entry : TimeFrameEntry σ} (tick : Tick)
    {bars : List ConfirmedCandle} (h : entry.ledger.FedWith bars) :
    (TimeFrameBook.processEntry tf entry tick).2.ledger.FedWith
      (recordTick entry.accumulator (TimeFrameBook.processEntry tf entry tick).2.accumulator
        bars) := by
  obtain ⟨event, acc, hacc, hcases⟩ := entry.accumulator.accumulate_cases tick
  rw [TimeFrameBook.processEntry_eq hacc]
  cases hcases with
  | first hf =>
    simp only [recordTick, hf]
    exact TimeFrameBook.advanceLedger_fed .updated rfl h
  | same hf _ _ _ hf' hopen =>
    simp only [recordTick, hf, hf', hopen, if_true]
    exact TimeFrameBook.advanceLedger_fed .updated hf' h
  | next hf hbucket _ _ _ =>
    simp only [recordTick, hf, CandleAccumulator.reopen, FormingCandle.openWith,
      if_neg hbucket]
    exact TimeFrameBook.advanceLedger_fed .confirmed rfl h

theorem reconcileWith_fed {ledger : IndicatorLedger σ} {bars : List ConfirmedCandle}
    (h : ledger.FedWith bars) (official : List ConfirmedCandle) :
    (ledger.reconcileWith official).2.FedWith
      (match ledger.snapshotOrNull with
        | .ok _ => official
        | .error _ => bars) := by
  unfold IndicatorLedger.reconcileWith
  cases ledger.snapshotOrNull with
  | error e => exact h
  | ok before =>
    dsimp only
    split <;> exact IndicatorLedger.fedWith_reseed ledger official

/-- Every step keeps the record equal to what the SMAs were fed. -/
theorem recorded_step {s s' : BarState σ} {a : BarLabel} (hs : s.Recorded)
    (h : s.step a = some s') : s'.Recorded := by
  intro tf
  cases a with
  | onTick tick now =>
    cases h
    rcases s.book.onTick_entries tick now tf with heq | heq
    · simpa only [heq, recordTick_self] using hs tf
    · simpa only [heq] using processEntry_fed tf tick (hs tf)
  | reconcile tf' official now =>
    cases h
    by_cases hacc : ∃ acc, s.book.acceptOfficial tf' official = .ok (some acc)
    · obtain ⟨acc, hacc⟩ := hacc
      simp only [TimeFrameBook.reconcile_accepted now hacc]
      by_cases heq : tf = tf'
      · subst heq
        simp only [Function.update_self, recordOfficial, hacc]
        -- the record follows the ledger in whether the first snapshot threw
        have := reconcileWith_fed (hs tf) official
        split at this <;> rename_i hsnap <;> simpa [hsnap] using this
      · simpa [heq] using hs tf
    · simp only [not_exists] at hacc
      simpa [TimeFrameBook.reconcile_rejected now hacc, recordOfficial_rejected _ hacc] using hs tf

/-! ### Warmed-up books -/

theorem warmUpFrom_ok {history : TimeFrame → List ConfirmedCandle} {tfs : List TimeFrame}
    (hnodup : tfs.Nodup) {book book' : TimeFrameBook σ}
    (h : warmUpFrom history tfs book = .ok book') (tf : TimeFrame) :
    (tf ∉ tfs → book'.entries tf = book.entries tf) ∧
      (tf ∈ tfs → (history tf).Pairwise (fun a b => a.openTime < b.openTime) ∧
        book'.entries tf =
          ⟨{ (book.entries tf).accumulator with lastConfirmed := (history tf).getLast? },
            (book.entries tf).ledger.warmUp (history tf)⟩) := by
  induction tfs generalizing book with
  | nil =>
    cases h
    simp
  | cons tf' rest ih =>
    obtain ⟨hnot, hrest⟩ := List.nodup_cons.mp hnodup
    simp only [warmUpFrom] at h
    split at h
    · cases h
    · rename_i mid hmid
      obtain ⟨hasc, hentries⟩ := TimeFrameBook.warmUp_ok hmid
      obtain ⟨hout, hin⟩ := ih hrest h
      constructor
      · intro hmem
        have hne : tf ≠ tf' := fun heq => hmem (by simp [heq])
        rw [hout fun hm => hmem (by simp [hm]), hentries, Function.update_of_ne hne]
      · intro hmem
        rcases List.mem_cons.mp hmem with rfl | hmem
        · exact ⟨hasc, by rw [hout hnot, hentries, Function.update_self]⟩
        · have hne : tf ≠ tf' := fun heq => hnot (heq ▸ hmem)
          have := hin hmem
          rwa [hentries, Function.update_of_ne hne] at this

/-- A warmed-up book: each time frame holds its history and has no forming candle. -/
theorem warmedUp_ok {pair : CurrencyPair} {config : IndicatorConfig}
    {history : TimeFrame → List ConfirmedCandle} {s : BarState σ}
    (h : warmedUp pair config history = .ok s) :
    s.lastTick = none ∧ s.snapshots = [] ∧ s.Recorded ∧
      ∀ tf, (history tf).Pairwise (fun a b => a.openTime < b.openTime) ∧
        s.view tf = ⟨none, (history tf).getLast?, history tf⟩ := by
  unfold warmedUp at h
  split at h
  · cases h
  · rename_i book hbook
    cases h
    have hentry := fun tf => (warmUpFrom_ok TimeFrame.liveTimeframes_nodup hbook tf).2
      (TimeFrame.mem_liveTimeframes tf)
    refine ⟨rfl, rfl, fun tf => ?_, fun tf => ⟨(hentry tf).1, ?_⟩⟩
    · simp only [(hentry tf).2]
      exact IndicatorLedger.fedWith_warmUp ..
    · simp only [view, (hentry tf).2]
      rfl

/-- In every run from a warmed-up book the recorded bars are what the confirmed
SMAs hold. -/
theorem recorded_of_reaches {pair : CurrencyPair} {config : IndicatorConfig}
    {history : TimeFrame → List ConfirmedCandle} {s₀ s : BarState σ}
    (h₀ : warmedUp pair config history = .ok s₀) {ok : BarState σ → BarLabel → Prop}
    (h : Runs.Reaches step ok s₀ s) : s.Recorded :=
  h.invariant (warmedUp_ok h₀).2.2.1 fun _ _ _ hs _ hstep => recorded_step hs hstep

end BarState

end

/-! ## A quiet market -/

/-- SMAs over one and over two bars. -/
def quietConfig : IndicatorConfig := ⟨1, 2, by decide, by decide⟩

/-- A quote at time `t`. -/
def quietTick (t : Int) : Tick := ⟨crossPrice, quietPrice, t, by decide +kernel⟩

/-- The two bars of each time frame that end at 864000000, ten days in. -/
def quietHistory (tf : TimeFrame) : List ConfirmedCandle :=
  [flatCandle tf (864000000 - 2 * tf.durationMs) quietPrice,
    flatCandle tf (864000000 - tf.durationMs) quietPrice]

/-- The book warmed up with it. -/
def quietStart : BarState RecordedSma :=
  match BarState.warmedUp .usdJpy quietConfig quietHistory with
  | .ok s => s
  | .error _ => ⟨.new .usdJpy quietConfig, quietHistory, [], none⟩

theorem quietStart_eq : BarState.warmedUp .usdJpy quietConfig quietHistory = .ok quietStart := rfl

end Luchida
