import Luchida.BarHistory

/- A bar is counted once: when is the confirmed SMA window free of two closes of one
   time bucket? The guard of `reconcileLastConfirmed` compares the open time of the
   official candle with that of the forming one. The latter is the time of a first
   tick, which need not lie on a boundary, so an official bar of the very bucket that
   is still forming passes, and the next confirmation adds that bucket again
   (`exists_bar_counted_twice`).

   `ClearOfForming` is what keeps runs clear of that, and `countedOnce_of_clear`
   proves that it does. The invariant is on views: the buckets of the window ascend,
   and the forming candle lies in a later one. -/
namespace Luchida

/-- No two of the bars lie in one bucket. -/
def OncePerBucket (tf : TimeFrame) (bars : List ConfirmedCandle) : Prop :=
  (bars.map fun c => tf.bucket c.openTime).Nodup

instance (tf : TimeFrame) (bars : List ConfirmedCandle) : Decidable (OncePerBucket tf bars) :=
  inferInstanceAs (Decidable (List.Nodup _))

theorem oncePerBucket_of_ascending {tf : TimeFrame} {bars : List ConfirmedCandle}
    (h : bars.Pairwise (fun a b => tf.bucket a.openTime < tf.bucket b.openTime)) :
    OncePerBucket tf bars :=
  List.pairwise_map.mpr (h.imp fun hlt => ne_of_lt hlt)

/-- The bars of an ascending list ascend in their buckets when no two share one. -/
theorem OncePerBucket.ascending {tf : TimeFrame} {bars : List ConfirmedCandle}
    (h : OncePerBucket tf bars) (hasc : bars.Pairwise (fun a b => a.openTime < b.openTime)) :
    bars.Pairwise (fun a b => tf.bucket a.openTime < tf.bucket b.openTime) :=
  (hasc.and (List.pairwise_map.mp h)).imp fun ⟨hlt, hne⟩ =>
    tf.bucket_lt_of_ne (Int.le_of_lt hlt) hne

namespace BarView

/-- The window of `n` bars ascends in its buckets, up to the forming candle, which
opened no later than the last tick. -/
structure Once (n : Nat) (tf : TimeFrame) (lastTick : Option Int) (v : BarView) : Prop where
  ascending : (v.bars.rtake n).Pairwise fun a b => tf.bucket a.openTime < tf.bucket b.openTime
  before_forming : ∀ o ∈ v.forming, ∀ c ∈ v.bars.rtake n, tf.bucket c.openTime < tf.bucket o
  ticked : ∀ o ∈ v.forming, ∃ t ∈ lastTick, o ≤ t

/-- Closing the forming candle moves the window by one bar. -/
theorem window_close {n : Nat} {tf : TimeFrame} {bars : List ConfirmedCandle}
    {c : ConfirmedCandle}
    (hasc : (bars.rtake n).Pairwise fun a b => tf.bucket a.openTime < tf.bucket b.openTime)
    (hbefore : ∀ b ∈ bars.rtake n, tf.bucket b.openTime < tf.bucket c.openTime) (hn : 0 < n) :
    ((bars ++ [c]).rtake n).Pairwise (fun a b => tf.bucket a.openTime < tf.bucket b.openTime) ∧
      ∀ b ∈ (bars ++ [c]).rtake n, tf.bucket b.openTime ≤ tf.bucket c.openTime := by
  have hsub : bars.rtake (n - 1) <:+ bars.rtake n := Window.rtake_suffix_rtake bars (by omega)
  rw [Window.rtake_append_last bars c hn]
  refine ⟨List.pairwise_append.mpr ⟨hasc.sublist hsub.sublist, List.pairwise_singleton .., ?_⟩, ?_⟩
  · intro a ha b hb
    rw [List.mem_singleton.mp hb]
    exact hbefore a (hsub.subset ha)
  · intro b hb
    rcases List.mem_append.mp hb with hb | hb
    · exact Int.le_of_lt (hbefore b (hsub.subset hb))
    · rw [List.mem_singleton.mp hb]

theorem Once.ticked_step {n : Nat} {tf : TimeFrame} {lastTick : Option Int} {t : Int}
    {v v' : BarView} (h : v.Once n tf lastTick) (hn : 0 < n) (hmono : ∀ t' ∈ lastTick, t' ≤ t)
    (hfirst : v.forming = none → ∀ c ∈ v.bars.rtake n, tf.bucket c.openTime < tf.bucket t)
    (hstep : Ticked tf t v v') : v'.Once n tf (some t) := by
  have hle : ∀ o ∈ v.forming, o ≤ t := by
    intro o ho
    obtain ⟨t', ht', hot⟩ := h.ticked o ho
    exact le_trans hot (hmono t' ht')
  cases hstep with
  | idle => exact ⟨h.ascending, h.before_forming, fun o ho => ⟨t, rfl, hle o ho⟩⟩
  | opened hf =>
    refine ⟨h.ascending, ?_, ?_⟩
    · intro o ho
      obtain rfl : t = o := by simpa using ho
      exact hfirst hf
    · intro o ho
      obtain rfl : t = o := by simpa using ho
      exact ⟨t, rfl, le_rfl⟩
  | @closed o c hf hbucket hopen =>
    subst hopen
    -- the tick is in another bucket than the candle it closes, and not earlier
    have hlt := tf.bucket_lt_of_ne (hle _ hf) (Ne.symm hbucket)
    obtain ⟨hasc, hbefore⟩ := window_close h.ascending (h.before_forming _ hf) hn
    refine ⟨hasc, ?_, ?_⟩
    · intro o ho b hb
      obtain rfl : t = o := by simpa using ho
      exact lt_of_le_of_lt (hbefore b hb) hlt
    · intro o ho
      obtain rfl : t = o := by simpa using ho
      exact ⟨t, rfl, le_rfl⟩

theorem Once.corrected_step {n : Nat} {tf : TimeFrame} {lastTick : Option Int}
    {official : List ConfirmedCandle} {last : ConfirmedCandle} {v v' : BarView}
    (h : v.Once n tf lastTick) (haligned : ∀ c ∈ official, tf.isAligned c.openTime = true)
    (hclear : ∀ o ∈ v.forming, tf.bucket last.openTime ≠ tf.bucket o)
    (hstep : Corrected official last v v') : v'.Once n tf lastTick := by
  have hticked : ∀ o ∈ v'.forming, ∃ t ∈ lastTick, o ≤ t := hstep.forming ▸ h.ticked
  rcases hstep.bars with hbars | hbars
  -- aligned open times that ascend lie in different buckets
  · have hasc : official.Pairwise fun a b => tf.bucket a.openTime < tf.bucket b.openTime :=
      hstep.ascending.imp_of_mem fun ha hb hlt =>
        tf.bucket_lt_of_aligned (haligned _ ha) (haligned _ hb) hlt
    have hsub := Window.rtake_suffix official n
    refine ⟨by rw [hbars]; exact hasc.sublist hsub.sublist, ?_, hticked⟩
    intro o ho c hc
    rw [hbars] at hc
    rw [hstep.forming] at ho
    have hcl := tf.bucket_mono (openTime_le_last hstep.ascending hstep.last_eq (hsub.subset hc))
    -- the guard gives `≤` between the buckets, the condition makes it `<`
    have hlo := tf.bucket_lt_of_ne (Int.le_of_lt (hstep.before_forming o ho)) (hclear o ho)
    exact lt_of_le_of_lt hcl hlo
  · exact ⟨hbars ▸ h.ascending, by rw [hstep.forming, hbars]; exact h.before_forming, hticked⟩

end BarView

namespace BarState

variable {σ : Type} [SmaCalculator σ]

/-- The bars that the confirmed SMAs of `tf` are made of. -/
def window (config : IndicatorConfig) (s : BarState σ) (tf : TimeFrame) : List ConfirmedCandle :=
  (s.bars tf).rtake (max config.shortSmaPeriod config.longSmaPeriod)

/-- Each window has at most one close per bucket. -/
def CountedOnce (config : IndicatorConfig) (s : BarState σ) : Prop :=
  ∀ tf, OncePerBucket tf (s.window config tf)

/-- The feed: tick times do not decrease, and official bars lie on bucket
boundaries and have closed by the time of the call. -/
def InOrder (s : BarState σ) : BarLabel → Prop
  | .onTick tick _ => ∀ t ∈ s.lastTick, t ≤ tick.timestamp
  | .reconcile tf official now =>
    ∀ c ∈ official, tf.isAligned c.openTime = true ∧ c.openTime + tf.durationMs ≤ now

instance (s : BarState σ) (a : BarLabel) : Decidable (s.InOrder a) :=
  match a with
  | .onTick tick _ => inferInstanceAs (Decidable (∀ t ∈ s.lastTick, t ≤ tick.timestamp))
  | .reconcile tf official now => inferInstanceAs (Decidable (∀ c ∈ official,
      tf.isAligned c.openTime = true ∧ c.openTime + tf.durationMs ≤ now))

/-- The first tick of a time frame comes after the window it finds, and no accepted
list ends in the bucket of the forming candle. -/
def ClearOfForming (config : IndicatorConfig) (s : BarState σ) : BarLabel → Prop
  | .onTick tick _ => ∀ tf, (s.view tf).forming = none →
      ∀ c ∈ s.window config tf, tf.bucket c.openTime < tf.bucket tick.timestamp
  | .reconcile tf official _ => ∀ last, s.book.Accepts tf official last →
      ∀ o ∈ (s.view tf).forming, tf.bucket last.openTime ≠ tf.bucket o

/-- Every time frame of the state has its bars in order. -/
def Once (config : IndicatorConfig) (s : BarState σ) : Prop :=
  ∀ tf, (s.view tf).Once (max config.shortSmaPeriod config.longSmaPeriod) tf s.lastTick

theorem once_step {config : IndicatorConfig} {s s' : BarState σ} {a : BarLabel}
    (hs : s.Once config) (horder : s.InOrder a) (hclear : s.ClearOfForming config a)
    (h : s.step a = some s') : s'.Once config := by
  have hn : 0 < max config.shortSmaPeriod config.longSmaPeriod :=
    lt_of_lt_of_le config.short_pos (le_max_left ..)
  intro tf
  rcases view_cases h tf with ⟨tick, now, rfl, hlast, hview⟩ | ⟨hlast, hsame⟩ |
    ⟨official, now, last, rfl, hlast, haccepts, hcorrected⟩
  · rw [hlast]
    exact (hs tf).ticked_step hn horder (hclear tf) hview
  · rw [hlast, hsame]
    exact hs tf
  · rw [hlast]
    exact (hs tf).corrected_step (fun c hc => (horder c hc).1) (hclear last haccepts) hcorrected

theorem once_warmedUp {pair : CurrencyPair} {config : IndicatorConfig}
    {history : TimeFrame → List ConfirmedCandle} {s : BarState σ}
    (h : warmedUp pair config history = .ok s) (honce : s.CountedOnce config) : s.Once config := by
  intro tf
  obtain ⟨hasc, hview⟩ := (warmedUp_ok h).2.2.2 tf
  have hbars : s.bars tf = history tf := congrArg BarView.bars hview
  have honce := honce tf
  rw [window, hbars] at honce
  rw [hview]
  exact ⟨honce.ascending (hasc.sublist (Window.rtake_suffix ..).sublist), by simp, by simp⟩

/-- From a warmed-up book that counts each bar once, every run in which no first
tick falls back into the window and no accepted list reaches into the forming
bucket counts each bar once. -/
theorem countedOnce_of_clear {pair : CurrencyPair} {config : IndicatorConfig}
    {history : TimeFrame → List ConfirmedCandle} {s₀ s : BarState σ}
    (h₀ : warmedUp pair config history = .ok s₀) (honce : s₀.CountedOnce config)
    (h : Runs.Reaches step (fun s a => s.InOrder a ∧ s.ClearOfForming config a) s₀ s) :
    s.CountedOnce config := by
  have hinv : s.Once config := h.invariant (once_warmedUp h₀ honce)
    fun _ _ _ hs hok hstep => once_step hs hok.1 hok.2 hstep
  exact fun tf => oncePerBucket_of_ascending (hinv tf).ascending

/-! ## A quiet market -/

instance (config : IndicatorConfig) (s : BarState σ) : Decidable (s.CountedOnce config) :=
  decidable_of_iff (∀ tf ∈ TimeFrame.liveTimeframes, OncePerBucket tf (s.window config tf))
    ⟨fun h tf => h tf (TimeFrame.mem_liveTimeframes tf), fun h tf _ => h tf⟩

instance (config : IndicatorConfig) (s : BarState σ) (tick : Tick) (now : Int) :
    Decidable (s.ClearOfForming config (.onTick tick now)) :=
  decidable_of_iff (∀ tf ∈ TimeFrame.liveTimeframes, (s.view tf).forming = none →
      ∀ c ∈ s.window config tf, tf.bucket c.openTime < tf.bucket tick.timestamp)
    ⟨fun h tf => h tf (TimeFrame.mem_liveTimeframes tf), fun h tf _ => h tf⟩

end BarState

/-- The first tick of the minute comes five seconds in. After that minute is over,
and before its next tick, the watchdog brings its official bar. -/
def quietFeed : List BarLabel :=
  [.onTick (quietTick 864005000) 864005000,
    .reconcile .oneMinute [flatCandle .oneMinute 863940000 quietPrice,
      flatCandle .oneMinute 864000000 quietPrice] 864075000,
    .onTick (quietTick 864080000) 864080000]

/-- The official bar and the ticked bar of that minute both end up in the window. -/
theorem exists_bar_counted_twice :
    BarState.warmedUp .usdJpy quietConfig quietHistory = .ok quietStart ∧
      quietStart.CountedOnce quietConfig ∧
      ∃ s, Runs.exec BarState.step BarState.InOrder quietStart quietFeed = some s ∧
        ¬ s.CountedOnce quietConfig := by
  refine ⟨quietStart_eq, by decide +kernel, _, rfl, ?_⟩
  decide +kernel

/-- The first tick, and then an official list that ends one bar earlier. -/
theorem countedOnce_of_clear_quiet :
    ∃ s : BarState RecordedSma, s.lastTick = some 864080000 ∧ s.CountedOnce quietConfig := by
  have h0 : Runs.Reaches BarState.step
      (fun s a => s.InOrder a ∧ s.ClearOfForming quietConfig a) quietStart quietStart := .start
  have h1 := h0.snoc (.onTick (quietTick 864005000) 864005000) (by decide +kernel) rfl
  have h2 := h1.snoc (.reconcile .oneMinute [flatCandle .oneMinute 863880000 quietPrice,
      flatCandle .oneMinute 863940000 quietPrice] 864015000) (by
        refine ⟨by decide +kernel, ?_⟩
        intro last h
        obtain rfl : flatCandle .oneMinute 863940000 quietPrice = last := Option.some.inj h.last_eq
        decide +kernel) rfl
  have h3 := h2.snoc (.onTick (quietTick 864080000) 864080000) (by decide +kernel) rfl
  exact ⟨_, rfl, BarState.countedOnce_of_clear quietStart_eq (by decide +kernel) h3⟩

end Luchida
