import Luchida.BarHistory

/- Confirmed history moves forward: when do the confirmed candle and the bars of the
   SMA never go back to an earlier bucket? `reconcile` checks that a list does not
   reach past the forming candle, and nothing about how early it ends. A list whose
   last bar is older than the confirmed candle takes its place all the same, and the
   bars after it are gone from the SMA (`exists_history_moves_back`).

   `EndsForward` is what keeps a run from that, and `forward_of_ends` proves that it
   does. The invariant chains the times: bars, confirmed candle, forming candle, last
   tick. -/
namespace Luchida

/-- Every bar is still there, or one of its bucket or a later one is. -/
def KeptOrReplaced (tf : TimeFrame) (bars bars' : List ConfirmedCandle) : Prop :=
  ∀ c ∈ bars, ∃ c' ∈ bars', tf.bucket c.openTime ≤ tf.bucket c'.openTime

namespace BarView

/-- No bar is later than the confirmed candle, nor that than the forming one, nor
that than the last tick. -/
structure Chained (tf : TimeFrame) (lastTick : Option Int) (v : BarView) : Prop where
  bars : ∀ c ∈ v.bars, ∃ d ∈ v.confirmed, tf.bucket c.openTime ≤ tf.bucket d.openTime
  confirmed : ∀ d ∈ v.confirmed, ∀ o ∈ v.forming, tf.bucket d.openTime ≤ tf.bucket o
  ticked : ∀ o ∈ v.forming, ∃ t ∈ lastTick, o ≤ t

/-- The confirmed candle of `v'` is not in an earlier bucket than that of `v`, and no
bar was dropped. -/
structure Forward (tf : TimeFrame) (v v' : BarView) : Prop where
  confirmed : ∀ d ∈ v.confirmed, ∃ d' ∈ v'.confirmed, tf.bucket d.openTime ≤ tf.bucket d'.openTime
  bars : KeptOrReplaced tf v.bars v'.bars

theorem Forward.of_eq {tf : TimeFrame} {v v' : BarView} (hc : v'.confirmed = v.confirmed)
    (hb : v'.bars = v.bars) : Forward tf v v' :=
  ⟨fun d hd => ⟨d, hc ▸ hd, le_rfl⟩, fun c hm => ⟨c, hb ▸ hm, le_rfl⟩⟩

theorem Chained.ticked_step {tf : TimeFrame} {lastTick : Option Int} {t : Int} {v v' : BarView}
    (h : v.Chained tf lastTick) (hmono : ∀ t' ∈ lastTick, t' ≤ t)
    (hfirst : v.forming = none → ∀ d ∈ v.confirmed, tf.bucket d.openTime ≤ tf.bucket t)
    (hstep : Ticked tf t v v') : v'.Chained tf (some t) ∧ Forward tf v v' := by
  have hle : ∀ o ∈ v.forming, o ≤ t := by
    intro o ho
    obtain ⟨t', ht', hot⟩ := h.ticked o ho
    exact le_trans hot (hmono t' ht')
  cases hstep with
  | idle => exact ⟨⟨h.bars, h.confirmed, fun o ho => ⟨t, rfl, hle o ho⟩⟩, .of_eq rfl rfl⟩
  | opened hf =>
    refine ⟨⟨h.bars, ?_, ?_⟩, .of_eq rfl rfl⟩
    · intro d hd o ho
      obtain rfl : t = o := by simpa using ho
      exact hfirst hf d hd
    · intro o ho
      obtain rfl : t = o := by simpa using ho
      exact ⟨t, rfl, le_rfl⟩
  | @closed o c hf hbucket hopen =>
    subst hopen
    -- the candle that is confirmed now was forming when `d` was confirmed
    have hforward : ∀ d ∈ v.confirmed, tf.bucket d.openTime ≤ tf.bucket c.openTime :=
      fun d hd => h.confirmed d hd _ hf
    refine ⟨⟨?_, ?_, ?_⟩, ⟨fun d hd => ⟨c, rfl, hforward d hd⟩, ?_⟩⟩
    · intro b hb
      refine ⟨c, rfl, ?_⟩
      rcases List.mem_append.mp hb with hb | hb
      · obtain ⟨d, hd, hbd⟩ := h.bars b hb
        exact le_trans hbd (hforward d hd)
      · rw [List.mem_singleton.mp hb]
    · intro d hd o ho
      obtain rfl : c = d := by simpa using hd
      obtain rfl : t = o := by simpa using ho
      exact tf.bucket_mono (hle _ hf)
    · intro o ho
      obtain rfl : t = o := by simpa using ho
      exact ⟨t, rfl, le_rfl⟩
    · exact fun b hb => ⟨b, List.mem_append_left _ hb, le_rfl⟩

theorem Chained.corrected_step {tf : TimeFrame} {lastTick : Option Int}
    {official : List ConfirmedCandle} {last : ConfirmedCandle} {v v' : BarView}
    (h : v.Chained tf lastTick)
    (hends : ∀ d ∈ v.confirmed, tf.bucket d.openTime ≤ tf.bucket last.openTime)
    (hstep : Corrected official last v v') : v'.Chained tf lastTick ∧ Forward tf v v' := by
  have hlast : ∀ c ∈ v.bars, tf.bucket c.openTime ≤ tf.bucket last.openTime := by
    intro c hc
    obtain ⟨d, hd, hcd⟩ := h.bars c hc
    exact le_trans hcd (hends d hd)
  -- every bar that is dropped has the last official bar in its place
  have hmem : last ∈ official := List.mem_of_getLast? hstep.last_eq
  refine ⟨⟨?_, ?_, hstep.forming ▸ h.ticked⟩, ⟨?_, ?_⟩⟩
  · intro c hc
    refine ⟨last, hstep.confirmed, ?_⟩
    rcases hstep.bars with hbars | hbars
    · exact tf.bucket_mono (openTime_le_last hstep.ascending hstep.last_eq (hbars ▸ hc))
    · exact hlast c (hbars ▸ hc)
  · intro d hd o ho
    obtain rfl : last = d := by simpa [hstep.confirmed] using hd
    exact tf.bucket_mono (Int.le_of_lt (hstep.before_forming o (hstep.forming ▸ ho)))
  · exact fun d hd => ⟨last, hstep.confirmed, hends d hd⟩
  · intro c hc
    rcases hstep.bars with hbars | hbars
    · exact ⟨last, hbars ▸ hmem, hlast c hc⟩
    · exact ⟨c, hbars ▸ hc, le_rfl⟩

end BarView

namespace BarState

variable {σ : Type} [SmaCalculator σ]

/-- Tick times do not decrease; the official lists may be any. -/
def TicksInOrder (s : BarState σ) : BarLabel → Prop
  | .onTick tick _ => ∀ t ∈ s.lastTick, t ≤ tick.timestamp
  | .reconcile .. => True

instance (s : BarState σ) (a : BarLabel) : Decidable (s.TicksInOrder a) :=
  match a with
  | .onTick tick _ => inferInstanceAs (Decidable (∀ t ∈ s.lastTick, t ≤ tick.timestamp))
  | .reconcile .. => inferInstanceAs (Decidable True)

/-- Every accepted list ends in the bucket of the confirmed candle or after it, and
so does the first tick of a time frame. -/
def EndsForward (s : BarState σ) : BarLabel → Prop
  | .onTick tick _ => ∀ tf, (s.view tf).forming = none →
      ∀ d ∈ (s.view tf).confirmed, tf.bucket d.openTime ≤ tf.bucket tick.timestamp
  | .reconcile tf official _ => ∀ last, s.book.Accepts tf official last →
      ∀ d ∈ (s.view tf).confirmed, tf.bucket d.openTime ≤ tf.bucket last.openTime

/-- The confirmed candles of successive snapshots never go back a bucket. -/
def SnapshotsForward (s : BarState σ) : Prop :=
  s.snapshots.Pairwise fun newer older => ∀ tf : TimeFrame,
    tf.bucket (older.snapshotOf tf).confirmed.openTime ≤
      tf.bucket (newer.snapshotOf tf).confirmed.openTime

/-- What every run keeps: the times of each time frame are chained, and no snapshot
shown so far is ahead of the confirmed candle. -/
structure Chained (s : BarState σ) : Prop where
  views : ∀ tf, (s.view tf).Chained tf s.lastTick
  shown : ∀ m ∈ s.snapshots, ∀ tf, ∃ d ∈ (s.view tf).confirmed,
    tf.bucket (m.snapshotOf tf).confirmed.openTime ≤ tf.bucket d.openTime
  forward : s.SnapshotsForward

theorem views_step {s s' : BarState σ} {a : BarLabel} (hs : s.Chained) (horder : s.TicksInOrder a)
    (hends : s.EndsForward a) (h : s.step a = some s') (tf : TimeFrame) :
    (s'.view tf).Chained tf s'.lastTick ∧ BarView.Forward tf (s.view tf) (s'.view tf) := by
  rcases view_cases h tf with ⟨tick, now, rfl, hlast, hview⟩ | ⟨hlast, hsame⟩ |
    ⟨official, now, last, rfl, hlast, haccepts, hcorrected⟩
  · rw [hlast]
    exact (hs.views tf).ticked_step horder (hends tf) hview
  · rw [hlast, hsame]
    exact ⟨hs.views tf, .of_eq rfl rfl⟩
  · rw [hlast]
    exact (hs.views tf).corrected_step (hends last haccepts) hcorrected

/-- A step adds at most one snapshot, which shows the confirmed candles it leaves. -/
theorem snapshots_step {s s' : BarState σ} {a : BarLabel} (h : s.step a = some s') :
    s'.snapshots = s.snapshots ∨ ∃ m, s'.snapshots = m :: s.snapshots ∧
      ∀ tf, (s'.view tf).confirmed = some (m.snapshotOf tf).confirmed := by
  cases a with
  | onTick tick now =>
    cases h
    cases hm : (s.book.onTick tick now).1 with
    | error e => exact .inl rfl
    | ok m => exact .inr ⟨m, rfl, fun tf => TimeFrameBook.onTick_confirmed hm tf⟩
  | reconcile tf official now =>
    cases h
    exact .inl rfl

theorem chained_step {s s' : BarState σ} {a : BarLabel} (hs : s.Chained)
    (horder : s.TicksInOrder a) (hends : s.EndsForward a) (h : s.step a = some s') :
    s'.Chained := by
  have hviews := views_step hs horder hends h
  have hold : ∀ m ∈ s.snapshots, ∀ tf, ∃ d ∈ (s'.view tf).confirmed,
      tf.bucket (m.snapshotOf tf).confirmed.openTime ≤ tf.bucket d.openTime := by
    intro m hm tf
    obtain ⟨d, hd, hmd⟩ := hs.shown m hm tf
    obtain ⟨d', hd', hdd⟩ := (hviews tf).2.confirmed d hd
    exact ⟨d', hd', le_trans hmd hdd⟩
  rcases snapshots_step h with heq | ⟨m, heq, hm⟩
  · exact ⟨fun tf => (hviews tf).1, heq ▸ hold, by rw [SnapshotsForward, heq]; exact hs.forward⟩
  · refine ⟨fun tf => (hviews tf).1, ?_, ?_⟩
    · rw [heq]
      intro m' hm' tf
      rcases List.mem_cons.mp hm' with rfl | hm'
      · exact ⟨_, hm tf, le_rfl⟩
      · exact hold m' hm' tf
    · rw [SnapshotsForward, heq]
      refine List.pairwise_cons.mpr ⟨?_, hs.forward⟩
      intro older holder tf
      obtain ⟨d, hd, hle⟩ := hold older holder tf
      obtain rfl : (m.snapshotOf tf).confirmed = d := by simpa [hm tf] using hd
      exact hle

theorem chained_warmedUp {pair : CurrencyPair} {config : IndicatorConfig}
    {history : TimeFrame → List ConfirmedCandle} {s : BarState σ}
    (h : warmedUp pair config history = .ok s) : s.Chained := by
  obtain ⟨-, hsnapshots, -, hviews⟩ := warmedUp_ok h
  refine ⟨fun tf => ?_, by simp [hsnapshots], by simp [SnapshotsForward, hsnapshots]⟩
  obtain ⟨hasc, hview⟩ := hviews tf
  rw [hview]
  refine ⟨?_, by simp, by simp⟩
  intro c hc
  cases hlast : (history tf).getLast? with
  | none => simp [List.getLast?_eq_none_iff.mp hlast] at hc
  | some last => exact ⟨last, rfl, tf.bucket_mono (openTime_le_last hasc hlast hc)⟩

/-- In every run from a warmed-up book whose accepted lists and first ticks do not
end before the confirmed candle, successive snapshots never go back, and no step
drops a bar without one of its bucket or a later one in its place. -/
theorem forward_of_ends {pair : CurrencyPair} {config : IndicatorConfig}
    {history : TimeFrame → List ConfirmedCandle} {s₀ s : BarState σ}
    (h₀ : warmedUp pair config history = .ok s₀)
    (h : Runs.Reaches step (fun s a => s.TicksInOrder a ∧ s.EndsForward a) s₀ s) :
    s.SnapshotsForward ∧ ∀ a s', s.TicksInOrder a → s.EndsForward a → s.step a = some s' →
      ∀ tf, KeptOrReplaced tf (s.bars tf) (s'.bars tf) := by
  have hinv : s.Chained := h.invariant (chained_warmedUp h₀)
    fun _ _ _ hs hok hstep => chained_step hs hok.1 hok.2 hstep
  exact ⟨hinv.forward, fun a s' horder hends hstep tf =>
    (views_step hinv horder hends hstep tf).2.bars⟩

/-! ## A list that ends too early -/

instance (tf : TimeFrame) (bars bars' : List ConfirmedCandle) :
    Decidable (KeptOrReplaced tf bars bars') :=
  inferInstanceAs (Decidable (∀ c ∈ bars, ∃ c' ∈ bars', _))

instance (s : BarState σ) : Decidable s.SnapshotsForward :=
  decidable_of_iff (s.snapshots.Pairwise fun newer older => ∀ tf ∈ TimeFrame.liveTimeframes,
      tf.bucket (older.snapshotOf tf).confirmed.openTime ≤
        tf.bucket (newer.snapshotOf tf).confirmed.openTime)
    ⟨fun h => h.imp fun hle tf => hle tf (TimeFrame.mem_liveTimeframes tf),
      fun h => h.imp fun hle tf _ => hle tf⟩

instance (s : BarState σ) (tick : Tick) (now : Int) :
    Decidable (s.EndsForward (.onTick tick now)) :=
  decidable_of_iff (∀ tf ∈ TimeFrame.liveTimeframes, (s.view tf).forming = none →
      ∀ d ∈ (s.view tf).confirmed, tf.bucket d.openTime ≤ tf.bucket tick.timestamp)
    ⟨fun h tf => h tf (TimeFrame.mem_liveTimeframes tf), fun h tf _ => h tf⟩

end BarState

/-- The ticks of two minutes: the second one confirms the candle of the first. -/
def twoMinutes : List BarLabel :=
  [.onTick (quietTick 864005000) 864005000, .onTick (quietTick 864065000) 864065000]

/-- The official list the watchdog brings then does not have that candle yet. -/
def lateOfficial : List ConfirmedCandle := quietHistory .oneMinute

/-- The confirmed candle is dropped from the SMA, and the next snapshot shows the
one before it. -/
theorem exists_history_moves_back :
    BarState.warmedUp .usdJpy quietConfig quietHistory = .ok quietStart ∧
      ∃ s s' s'', Runs.exec BarState.step BarState.TicksInOrder quietStart twoMinutes = some s ∧
        s.step (.reconcile .oneMinute lateOfficial 864075000) = some s' ∧
        ¬ KeptOrReplaced .oneMinute (s.bars .oneMinute) (s'.bars .oneMinute) ∧
        Runs.exec BarState.step BarState.TicksInOrder s'
          [.onTick (quietTick 864080000) 864080000] = some s'' ∧ ¬ s''.SnapshotsForward := by
  refine ⟨quietStart_eq, _, _, _, rfl, rfl, ?_, rfl, ?_⟩
  · decide +kernel
  · decide +kernel

/-- Two minutes of ticks with an official list that has the confirmed candle. -/
theorem forward_of_ends_quiet :
    ∃ s : BarState RecordedSma, s.snapshots.length = 3 ∧ s.SnapshotsForward ∧
      ∀ a s', s.TicksInOrder a → s.EndsForward a → s.step a = some s' →
        ∀ tf, KeptOrReplaced tf (s.bars tf) (s'.bars tf) := by
  have h0 : Runs.Reaches BarState.step
      (fun s a => s.TicksInOrder a ∧ s.EndsForward a) quietStart quietStart := .start
  have h1 := h0.snoc (.onTick (quietTick 864005000) 864005000) (by decide +kernel) rfl
  have h2 := h1.snoc (.onTick (quietTick 864065000) 864065000) (by decide +kernel) rfl
  have h3 := h2.snoc (.reconcile .oneMinute [flatCandle .oneMinute 863940000 quietPrice,
      flatCandle .oneMinute 864000000 quietPrice] 864075000) (by
        refine ⟨trivial, ?_⟩
        intro last h
        obtain rfl : flatCandle .oneMinute 864000000 quietPrice = last := Option.some.inj h.last_eq
        decide +kernel) rfl
  have h4 := h3.snoc (.onTick (quietTick 864080000) 864080000) (by decide +kernel) rfl
  exact ⟨_, by decide +kernel, BarState.forward_of_ends quietStart_eq h4⟩

end Luchida
