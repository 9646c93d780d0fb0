import Mathlib.Logic.Function.Basic
import Luchida.Runs
import Luchida.TimeFrame

/- BoundaryScheduler.ts, the wall-clock watchdog: for every time frame a timer for the next
   boundary and `offsetMs`, a callback when it fires, and the next timer when the callback is
   over, with callbacks of any length and timers that are late.

   The next boundary is computed from the clock when the callback ends. A callback that ends
   at a boundary or less than `offsetMs` after it sets the timer for the boundary after that
   one, which is never served, though nothing runs when it is due (`exists_boundary_skipped`).
   As long as no callback ends there, every boundary is served or a callback runs when it is
   due (`serves_of_notInGap`). The rest holds always: one callback at a time, one boundary
   after the other, none early, none after `stop` (`serves_iff_served`). -/
namespace Luchida

open Runs

/-- A timer that `TimerApi.set` has set. -/
structure BoundaryTimer where
  handle : Nat
  dueAt : Int
  deriving DecidableEq, Repr

/-- A call of `onBoundary`, and the boundary for which its timer was set, which the source
does not keep. -/
structure BoundaryCallback where
  boundary : Int
  startedAt : Int
  endedAt : Option Int
  deriving DecidableEq, Repr

/-- What there is of one time frame: the entry in `handles`, the timers set for it, and its
callbacks, the newest first. -/
structure BoundaryChain where
  handle : Option Nat
  timers : List BoundaryTimer
  callbacks : List BoundaryCallback
  deriving DecidableEq, Repr

namespace BoundaryChain

/-- A timer is set. -/
def armed (c : BoundaryChain) (handle : Nat) (dueAt : Int) : BoundaryChain :=
  { c with
    handle := some handle
    timers := ⟨handle, dueAt⟩ :: c.timers }

/-- A timer fires. -/
def fired (c : BoundaryChain) (offsetMs now : Int) (t : BoundaryTimer) : BoundaryChain :=
  { c with
    timers := c.timers.erase t
    callbacks := ⟨t.dueAt - offsetMs, now, none⟩ :: c.callbacks }

/-- A callback is over. -/
def settled (c : BoundaryChain) (i : Nat) (x : BoundaryCallback) (now : Int) : BoundaryChain :=
  { c with callbacks := c.callbacks.set i { x with endedAt := some now } }

end BoundaryChain

/-- When `stop` was called, and how many callbacks there had been. -/
structure BoundaryStop where
  stoppedAt : Int
  callbacks : TimeFrame → Nat

/-- `BoundaryScheduler`, over the timers and the callbacks of its time frames. -/
structure BoundaryScheduler where
  timeFrames : List TimeFrame
  offsetMs : Int
  now : Int
  running : Bool
  nextHandle : Nat
  chains : TimeFrame → BoundaryChain
  startedAt : Option Int
  stop : Option BoundaryStop

inductive BoundaryLabel where
  | start (now : Int)
  | stop (now : Int)
  /-- A timer of the time frame fires. -/
  | fire (timeFrame : TimeFrame) (handle : Nat) (now : Int)
  /-- A callback of the time frame is over, successfully or not. -/
  | settle (timeFrame : TimeFrame) (index : Nat) (ok : Bool) (now : Int)
  /-- Time passes. -/
  | tick (now : Int)

def BoundaryLabel.now : BoundaryLabel → Int
  | .start now | .stop now | .fire _ _ now | .settle _ _ _ now | .tick now => now

namespace BoundaryScheduler

/-- The constructor. -/
def create (timeFrames : List TimeFrame) (offsetMs now : Int) : BoundaryScheduler :=
  ⟨timeFrames, offsetMs, now, false, 0, fun _ => ⟨none, [], []⟩, none, none⟩

def setChain (s : BoundaryScheduler) (tf : TimeFrame) (c : BoundaryChain) : BoundaryScheduler :=
  { s with chains := Function.update s.chains tf c }

/-- The next boundary after a time. -/
def nextBoundary (tf : TimeFrame) (now : Int) : Int := tf.periodStart now + tf.durationMs

/-- `timer.set`, and its handle goes into `handles`. -/
def setTimer (s : BoundaryScheduler) (tf : TimeFrame) (dueAt : Int) : BoundaryScheduler :=
  { s with nextHandle := s.nextHandle + 1 }.setChain tf
    ((s.chains tf).armed s.nextHandle dueAt)

/-- `scheduleNext`. -/
def scheduleNext (s : BoundaryScheduler) (tf : TimeFrame) : BoundaryScheduler :=
  if s.running then
    let fireAt := nextBoundary tf s.now + s.offsetMs
    let delay := max 0 (fireAt - s.now)
    s.setTimer tf (s.now + delay)
  else s

/-- The loop of `start`. -/
def scheduleAll (s : BoundaryScheduler) : List TimeFrame → BoundaryScheduler
  | [] => s
  | tf :: rest => scheduleAll (s.scheduleNext tf) rest

/-- `start`. -/
def begin (s : BoundaryScheduler) : BoundaryScheduler :=
  if s.running then s
  else scheduleAll { s with running := true, startedAt := some s.now } s.timeFrames

/-- The handle is among `handles.values()`. -/
def holdsHandle (s : BoundaryScheduler) (handle : Nat) : Bool :=
  TimeFrame.liveTimeframes.any (fun tf => (s.chains tf).handle == some handle)

/-- `stop`. -/
def halt (s : BoundaryScheduler) : BoundaryScheduler :=
  { s with
    running := false
    chains := fun tf =>
      { s.chains tf with
        handle := none
        timers := (s.chains tf).timers.filter (fun t => !s.holdsHandle t.handle) }
    stop := s.stop.or (some ⟨s.now, fun tf => (s.chains tf).callbacks.length⟩) }

/-- `fire` up to its `await`. -/
def fire (s : BoundaryScheduler) (tf : TimeFrame) (t : BoundaryTimer) : BoundaryScheduler :=
  s.setChain tf ((s.chains tf).fired s.offsetMs s.now t)

/-- `fire` after its `await`: a failure is logged, and the `finally` is the same. -/
def settle (s : BoundaryScheduler) (tf : TimeFrame) (i : Nat) (x : BoundaryCallback) :
    BoundaryScheduler :=
  (s.setChain tf ((s.chains tf).settled i x s.now)).scheduleNext tf

/-- A label does its work at the time it carries. -/
def act (s : BoundaryScheduler) : BoundaryLabel → Option BoundaryScheduler
  | .start _ => some s.begin
  | .stop _ => some s.halt
  | .fire tf handle _ =>
    match (s.chains tf).timers.find? (fun t => t.handle == handle) with
    | some t => if t.dueAt ≤ s.now then some (s.fire tf t) else none
    | none => none
  | .settle tf i _ _ =>
    match (s.chains tf).callbacks[i]? with
    | some x => if x.endedAt = none then some (s.settle tf i x) else none
    | none => none
  | .tick _ => some s

/-- The clock does not run backwards. -/
def step (s : BoundaryScheduler) (a : BoundaryLabel) : Option BoundaryScheduler :=
  if s.now ≤ a.now then { s with now := a.now }.act a else none

/-! ## What is asked of it -/

/-- There is one `start`, and `stop` comes after it. -/
def StartsOnce (s : BoundaryScheduler) : BoundaryLabel → Prop
  | .start _ => s.startedAt = none
  | .stop _ => s.startedAt ≠ none
  | _ => True

instance (s : BoundaryScheduler) : DecidablePred s.StartsOnce
  | .start _ => inferInstanceAs (Decidable (s.startedAt = none))
  | .stop _ => inferInstanceAs (Decidable (s.startedAt ≠ none))
  | .fire .. | .settle .. | .tick _ => inferInstanceAs (Decidable True)

/-- What is assumed: no timer is late by the period without the offset. -/
def Timely (s : BoundaryScheduler) (a : BoundaryLabel) : Prop :=
  (∀ tf ∈ s.timeFrames, ∀ t ∈ (s.chains tf).timers,
    a.now < t.dueAt + (tf.durationMs - s.offsetMs)) ∧ s.StartsOnce a

instance (s : BoundaryScheduler) (a : BoundaryLabel) : Decidable (s.Timely a) :=
  inferInstanceAs (Decidable (_ ∧ _))

/-- No callback ends at a boundary or less than `offsetMs` after it. -/
def NotInGap (s : BoundaryScheduler) : BoundaryLabel → Prop
  | .settle tf _ _ now => s.running = true → s.offsetMs ≤ now - tf.periodStart now
  | _ => True

instance (s : BoundaryScheduler) : DecidablePred s.NotInGap
  | .settle .. => inferInstanceAs (Decidable (_ → _))
  | .start _ | .stop _ | .fire .. | .tick _ => inferInstanceAs (Decidable True)

/-- The boundary is served, or a callback runs when it is due. -/
def Covered (offsetMs : Int) (callbacks : List BoundaryCallback) (b : Int) : Prop :=
  (∃ x ∈ callbacks, x.boundary = b) ∨
  ∃ x ∈ callbacks, x.startedAt ≤ b + offsetMs ∧ ∀ e, x.endedAt = some e → b + offsetMs ≤ e

/-- The time up to which the watchdog has been running. -/
def horizon (s : BoundaryScheduler) : Int :=
  match s.stop with
  | none => s.now
  | some stop => stop.stoppedAt

/-- Once its period is over, a boundary after the start has been served. -/
def Served (s : BoundaryScheduler) : Prop :=
  ∀ tf ∈ s.timeFrames, ∀ startedAt ∈ s.startedAt, ∀ b, tf.isAligned b = true →
    startedAt < b → b + tf.durationMs ≤ s.horizon →
    Covered s.offsetMs (s.chains tf).callbacks b

/-- The watchdog serves every boundary. -/
structure Serves (s : BoundaryScheduler) : Prop where
  /-- A callback begins when those before it are over. -/
  no_overlap : ∀ tf, (s.chains tf).callbacks.Pairwise
    (fun later earlier => ∃ e, earlier.endedAt = some e ∧ e ≤ later.startedAt)
  increasing : ∀ tf, (s.chains tf).callbacks.Pairwise
    (fun later earlier => earlier.boundary < later.boundary)
  /-- A callback serves the boundary before it, `offsetMs` after it or later. -/
  due : ∀ tf, ∀ x ∈ (s.chains tf).callbacks, tf.isAligned x.boundary = true ∧
    x.boundary + s.offsetMs ≤ x.startedAt ∧ x.startedAt < x.boundary + tf.durationMs
  served : s.Served
  after_stop : ∀ stop ∈ s.stop, ∀ tf, (s.chains tf).callbacks.length = stop.callbacks tf

/-! ## Boundaries -/

variable {tf : TimeFrame} {offsetMs now : Int}

theorem isAligned_nextBoundary (tf : TimeFrame) (now : Int) :
    tf.isAligned (nextBoundary tf now) = true := by
  have h := tf.isAligned_periodStart now
  simp only [TimeFrame.isAligned, beq_iff_eq, nextBoundary] at h ⊢
  rw [Int.add_emod_right, h]

theorem lt_nextBoundary (tf : TimeFrame) (now : Int) : now < nextBoundary tf now :=
  tf.lt_periodStart_add now

/-- A boundary before the next one is not after the period that the time is in. -/
theorem le_periodStart_of_lt {b : Int} (hb : tf.isAligned b = true)
    (h : b < nextBoundary tf now) : b ≤ tf.periodStart now := by
  by_contra hlt
  have := tf.add_durationMs_le (tf.isAligned_periodStart now) hb (not_le.mp hlt)
  unfold nextBoundary at h
  omega

theorem Covered.cons {callbacks : List BoundaryCallback} {b : Int}
    (h : Covered offsetMs callbacks b) (x : BoundaryCallback) :
    Covered offsetMs (x :: callbacks) b := by
  rcases h with ⟨y, hy, hserved⟩ | ⟨y, hy, hruns⟩
  · exact .inl ⟨y, List.mem_cons_of_mem x hy, hserved⟩
  · exact .inr ⟨y, List.mem_cons_of_mem x hy, hruns⟩

/-- The end of a callback uncovers nothing that was due by then. -/
theorem Covered.settle {x : BoundaryCallback} {rest : List BoundaryCallback} {b : Int}
    (h : Covered offsetMs (x :: rest) b) (hdue : x.startedAt ≤ b + offsetMs → b + offsetMs ≤ now) :
    Covered offsetMs ({ x with endedAt := some now } :: rest) b := by
  rcases h with ⟨y, hy, hserved⟩ | ⟨y, hy, hbegun, hruns⟩
  · left
    rcases List.mem_cons.mp hy with rfl | hy
    · exact ⟨_, List.mem_cons_self, hserved⟩
    · exact ⟨y, List.mem_cons_of_mem _ hy, hserved⟩
  · right
    rcases List.mem_cons.mp hy with rfl | hy
    · refine ⟨_, List.mem_cons_self, hbegun, fun e he => ?_⟩
      cases he
      exact hdue hbegun
    · exact ⟨y, List.mem_cons_of_mem _ hy, hbegun, hruns⟩

/-! ## One time frame -/

/-- A callback and one before it. -/
def After (later earlier : BoundaryCallback) : Prop :=
  earlier.boundary < later.boundary ∧ ∃ e, earlier.endedAt = some e ∧ e ≤ later.startedAt

/-- What holds of a callback from its start on. -/
structure Timed (tf : TimeFrame) (offsetMs now : Int) (x : BoundaryCallback) : Prop where
  aligned : tf.isAligned x.boundary = true
  due : x.boundary + offsetMs ≤ x.startedAt
  in_period : x.startedAt < x.boundary + tf.durationMs
  begun : x.startedAt ≤ now
  ended : ∀ e, x.endedAt = some e → x.startedAt ≤ e ∧ e ≤ now

theorem Timed.advance {x : BoundaryCallback} {now' : Int} (h : Timed tf offsetMs now x)
    (hnow : now ≤ now') : Timed tf offsetMs now' x :=
  { h with
    begun := h.begun.trans hnow
    ended := fun e he => ⟨(h.ended e he).1, (h.ended e he).2.trans hnow⟩ }

/-- The boundaries from the start on that are before `b₀` are covered. -/
def CoveredTo (tf : TimeFrame) (offsetMs startedAt : Int) (callbacks : List BoundaryCallback)
    (b₀ : Int) : Prop :=
  ∀ b, tf.isAligned b = true → startedAt < b → b < b₀ → Covered offsetMs callbacks b

/-- A timer is set for `b₀`, and every callback is over. -/
structure Armed (tf : TimeFrame) (offsetMs now startedAt : Int) (cov : Prop) (c : BoundaryChain)
    (t : BoundaryTimer) (b₀ : Int) : Prop where
  timers : c.timers = [t]
  handle : c.handle = some t.handle
  aligned : tf.isAligned b₀ = true
  due : t.dueAt = b₀ + offsetMs
  earlier : ∀ x ∈ c.callbacks, x.boundary < b₀ ∧ ∃ e, x.endedAt = some e
  covered : cov → CoveredTo tf offsetMs startedAt c.callbacks b₀
  in_time : now < b₀ + tf.durationMs

/-- The newest callback runs, and no timer is set. -/
structure Calling (tf : TimeFrame) (offsetMs startedAt : Int) (cov : Prop) (c : BoundaryChain)
    (x : BoundaryCallback) (rest : List BoundaryCallback) : Prop where
  timers : c.timers = []
  callbacks : c.callbacks = x :: rest
  active : x.endedAt = none
  covered : cov → CoveredTo tf offsetMs startedAt c.callbacks x.boundary

/-- After `stop` a callback may still run. -/
structure Halted (tf : TimeFrame) (offsetMs now startedAt : Int) (cov : Prop) (stop : BoundaryStop)
    (c : BoundaryChain) : Prop where
  timers : c.timers = []
  length : c.callbacks.length = stop.callbacks tf
  stopped : stop.stoppedAt ≤ now
  covered : cov → ∀ b, tf.isAligned b = true → startedAt < b →
    b + tf.durationMs ≤ stop.stoppedAt → Covered offsetMs c.callbacks b

/-- Where the time frame is. -/
def Phase (tf : TimeFrame) (offsetMs now startedAt : Int) (cov : Prop) (c : BoundaryChain) :
    Option BoundaryStop → Prop
  | none => (∃ t b₀, Armed tf offsetMs now startedAt cov c t b₀) ∨
      ∃ x rest, Calling tf offsetMs startedAt cov c x rest
  | some stop => Halted tf offsetMs now startedAt cov stop c

/-- Each callback is timed, and after those before it. -/
structure Lined (tf : TimeFrame) (offsetMs now : Int) (c : BoundaryChain) : Prop where
  ordered : c.callbacks.Pairwise After
  timed : ∀ x ∈ c.callbacks, Timed tf offsetMs now x

/-- Only the newest callback may still run. -/
theorem Lined.active {c : BoundaryChain} (h : Lined tf offsetMs now c) {i : Nat}
    {x : BoundaryCallback} (hx : c.callbacks[i]? = some x) (hactive : x.endedAt = none) :
    ∃ rest, i = 0 ∧ c.callbacks = x :: rest := by
  have hordered := h.ordered
  cases hcs : c.callbacks with
  | nil =>
    rw [hcs] at hx
    cases hx
  | cons y rest =>
    rw [hcs] at hx hordered
    cases i with
    | zero =>
      cases hx
      exact ⟨rest, rfl, rfl⟩
    | succ i =>
      obtain ⟨-, e, he, -⟩ := (List.pairwise_cons.mp hordered).1 x (List.mem_of_getElem? hx)
      cases hactive.symm.trans he

/-! ### A timer fires -/

variable {startedAt : Int} {cov : Prop} {c : BoundaryChain}

theorem Armed.fired {t : BoundaryTimer} {b₀ : Int}
    (h : Armed tf offsetMs now startedAt cov c t b₀) :
    Calling tf offsetMs startedAt cov (c.fired offsetMs now t) ⟨b₀, now, none⟩
      c.callbacks where
  timers := by simp [BoundaryChain.fired, h.timers]
  callbacks := by
    have hb : t.dueAt - offsetMs = b₀ := by
      have := h.due
      omega
    rw [BoundaryChain.fired, hb]
  active := rfl
  covered hcov b hb hstart hlt := (h.covered hcov b hb hstart hlt).cons _

theorem Armed.lined_fired {t : BoundaryTimer} {b₀ : Int}
    (h : Armed tf offsetMs now startedAt cov c t b₀) (hlined : Lined tf offsetMs now c)
    (hdue : t.dueAt ≤ now) : Lined tf offsetMs now (c.fired offsetMs now t) := by
  have hb := h.due
  have htime := h.in_time
  constructor
  · refine List.pairwise_cons.mpr ⟨fun y hy => ?_, hlined.ordered⟩
    obtain ⟨hlt, e, he⟩ := h.earlier y hy
    refine ⟨?_, e, he, ((hlined.timed y hy).ended e he).2⟩
    dsimp only
    omega
  · refine List.forall_mem_cons.mpr ⟨?_, hlined.timed⟩
    have hb₀ : t.dueAt - offsetMs = b₀ := by omega
    exact
      { aligned := hb₀ ▸ h.aligned
        due := by
          dsimp only
          omega
        in_period := by
          dsimp only
          omega
        begun := le_rfl
        ended := fun e he => by cases he }

/-- While a callback runs, every boundary after its own is covered by it. -/
theorem Calling.covers {x : BoundaryCallback} {rest : List BoundaryCallback}
    (h : Calling tf offsetMs startedAt cov c x rest) (hlined : Lined tf offsetMs now c)
    (hoffset : 0 ≤ offsetMs) (hcov : cov) {b : Int} (hb : tf.isAligned b = true)
    (hstart : startedAt < b) : Covered offsetMs c.callbacks b := by
  have hmem : x ∈ c.callbacks := by
    rw [h.callbacks]
    exact List.mem_cons_self
  have hnewest := hlined.timed x hmem
  rcases lt_trichotomy b x.boundary with hbefore | heq | hafter
  · exact h.covered hcov b hb hstart hbefore
  · exact .inl ⟨x, hmem, heq.symm⟩
  · right
    refine ⟨x, hmem, ?_, fun e he => ?_⟩
    · have := tf.add_durationMs_le hnewest.aligned hb hafter
      have := hnewest.in_period
      omega
    · cases h.active.symm.trans he

/-! ### A callback ends -/

/-- The end of the newest callback. -/
theorem settled_head {x : BoundaryCallback} {rest : List BoundaryCallback}
    (h : c.callbacks = x :: rest) :
    (c.settled 0 x now).callbacks = { x with endedAt := some now } :: rest := by
  simp [BoundaryChain.settled, h]

theorem Lined.settled {x : BoundaryCallback} {rest : List BoundaryCallback}
    (h : Lined tf offsetMs now c) (hx : c.callbacks = x :: rest) :
    Lined tf offsetMs now (c.settled 0 x now) := by
  obtain ⟨hordered, htimed⟩ := h
  rw [hx] at hordered htimed
  obtain ⟨hafter, hordered⟩ := List.pairwise_cons.mp hordered
  obtain ⟨hnewest, htimed⟩ := List.forall_mem_cons.mp htimed
  constructor
  · rw [settled_head hx]
    exact List.pairwise_cons.mpr ⟨hafter, hordered⟩
  · rw [settled_head hx]
    refine List.forall_mem_cons.mpr ⟨{ hnewest with ended := fun e he => ?_ }, htimed⟩
    cases he
    exact ⟨hnewest.begun, le_rfl⟩

/-- The next timer covers what is before its boundary, if the callback has not ended in the
gap. -/
theorem Calling.settled {x : BoundaryCallback} {rest : List BoundaryCallback}
    (h : Calling tf offsetMs startedAt cov c x rest) (hlined : Lined tf offsetMs now c)
    (hoffset : 0 ≤ offsetMs) (hgap : cov → offsetMs ≤ now - tf.periodStart now) (handle : Nat) :
    Armed tf offsetMs now startedAt cov
      ((c.settled 0 x now).armed handle
        (now + max 0 (nextBoundary tf now + offsetMs - now)))
      ⟨handle, now + max 0 (nextBoundary tf now + offsetMs - now)⟩ (nextBoundary tf now) where
  timers := by simp [BoundaryChain.armed, BoundaryChain.settled, h.timers]
  handle := rfl
  aligned := isAligned_nextBoundary tf now
  due := by
    have := lt_nextBoundary tf now
    dsimp only
    omega
  earlier := by
    change ∀ y ∈ (c.settled 0 x now).callbacks, _
    rw [settled_head h.callbacks]
    have hordered := hlined.ordered
    have htimed := hlined.timed
    rw [h.callbacks] at hordered htimed
    obtain ⟨hafter, -⟩ := List.pairwise_cons.mp hordered
    obtain ⟨hnewest, -⟩ := List.forall_mem_cons.mp htimed
    have hlt : x.boundary < nextBoundary tf now := by
      have := hnewest.due
      have := hnewest.begun
      have := lt_nextBoundary tf now
      omega
    refine List.forall_mem_cons.mpr ⟨⟨hlt, now, rfl⟩, fun y hy => ?_⟩
    obtain ⟨hbefore, e, he, -⟩ := hafter y hy
    exact ⟨hbefore.trans hlt, e, he⟩
  covered hcov b hb hstart hlt := by
    change Covered offsetMs (c.settled 0 x now).callbacks b
    have hold := h.covers hlined hoffset hcov hb hstart
    rw [settled_head h.callbacks]
    rw [h.callbacks] at hold
    -- what is before the next boundary was due by the end of the callback
    refine hold.settle fun _ => ?_
    have := le_periodStart_of_lt hb hlt
    have := hgap hcov
    omega
  in_time := by
    have := lt_nextBoundary tf now
    have := tf.durationMs_pos
    omega

theorem Halted.settled {stop : BoundaryStop} {x : BoundaryCallback} {rest : List BoundaryCallback}
    (h : Halted tf offsetMs now startedAt cov stop c) (hx : c.callbacks = x :: rest)
    (hoffset : offsetMs < tf.durationMs) :
    Halted tf offsetMs now startedAt cov stop (c.settled 0 x now) where
  timers := h.timers
  length := by
    rw [← h.length]
    simp [BoundaryChain.settled]
  stopped := h.stopped
  covered hcov b hb hstart hle := by
    have hold := h.covered hcov b hb hstart hle
    rw [settled_head hx]
    rw [hx] at hold
    refine hold.settle fun _ => ?_
    have := h.stopped
    omega

/-! ### The scheduler stops -/

/-- What `stop` makes of the chain. -/
theorem Armed.halted {t : BoundaryTimer} {b₀ : Int} {stop : BoundaryStop} {c' : BoundaryChain}
    (h : Armed tf offsetMs now startedAt cov c t b₀) (htimers : c'.timers = [])
    (hcallbacks : c'.callbacks = c.callbacks) (hlen : stop.callbacks tf = c.callbacks.length)
    (hstop : stop.stoppedAt = now) : Halted tf offsetMs now startedAt cov stop c' where
  timers := htimers
  length := by rw [hcallbacks, hlen]
  stopped := hstop.le
  covered hcov b hb hstart hle := by
    rw [hcallbacks]
    refine h.covered hcov b hb hstart ?_
    have := h.in_time
    omega

theorem Calling.halted {x : BoundaryCallback} {rest : List BoundaryCallback} {stop : BoundaryStop}
    {c' : BoundaryChain} (h : Calling tf offsetMs startedAt cov c x rest)
    (hlined : Lined tf offsetMs now c) (hoffset : 0 ≤ offsetMs) (htimers : c'.timers = [])
    (hcallbacks : c'.callbacks = c.callbacks) (hlen : stop.callbacks tf = c.callbacks.length)
    (hstop : stop.stoppedAt = now) : Halted tf offsetMs now startedAt cov stop c' where
  timers := htimers
  length := by rw [hcallbacks, hlen]
  stopped := hstop.le
  covered hcov b hb hstart hle := by
    rw [hcallbacks]
    exact h.covers hlined hoffset hcov hb hstart

/-! ## The scheduler -/

/-- What every step keeps. Where `cov` is given, no callback has ended in a gap. -/
structure Inv (cov : Prop) (s : BoundaryScheduler) : Prop where
  offset_nonneg : 0 ≤ s.offsetMs
  offset_lt : ∀ tf ∈ s.timeFrames, s.offsetMs < tf.durationMs
  nodup : s.timeFrames.Nodup
  lined : ∀ tf, Lined tf s.offsetMs s.now (s.chains tf)
  unstarted : s.startedAt = none → s.running = false ∧ s.stop = none ∧
    ∀ tf, (s.chains tf).timers = [] ∧ (s.chains tf).callbacks = []
  running : s.startedAt ≠ none → (s.running = true ↔ s.stop = none)
  phase : ∀ startedAt, s.startedAt = some startedAt → ∀ tf ∈ s.timeFrames,
    Phase tf s.offsetMs s.now startedAt cov (s.chains tf) s.stop
  idle : ∀ tf, tf ∉ s.timeFrames → (s.chains tf).timers = [] ∧ (s.chains tf).callbacks = [] ∧
    ∀ stop, s.stop = some stop → stop.callbacks tf = 0

variable {s s' : BoundaryScheduler}

theorem Lined.advance {now' : Int} (h : Lined tf offsetMs now c) (hnow : now ≤ now') :
    Lined tf offsetMs now' c where
  ordered := h.ordered
  timed x hx := (h.timed x hx).advance hnow

/-- The clock goes on, no timer being too late. -/
theorem Phase.advance {stop : Option BoundaryStop} {now' : Int}
    (h : Phase tf offsetMs now startedAt cov c stop) (hnow : now ≤ now')
    (htimely : ∀ t ∈ c.timers, now' < t.dueAt + (tf.durationMs - offsetMs)) :
    Phase tf offsetMs now' startedAt cov c stop := by
  cases stop with
  | some stop => exact { h with stopped := h.stopped.trans hnow }
  | none =>
    rcases h with ⟨t, b₀, harmed⟩ | hcalling
    · refine .inl ⟨t, b₀, { harmed with in_time := ?_ }⟩
      have hlate := htimely t (by simp [harmed.timers])
      have := harmed.due
      omega
    · exact .inr hcalling

theorem Inv.advance (h : s.Inv cov) {a : BoundaryLabel} (hnow : s.now ≤ a.now)
    (htimely : s.Timely a) : { s with now := a.now }.Inv cov where
  offset_nonneg := h.offset_nonneg
  offset_lt := h.offset_lt
  nodup := h.nodup
  lined tf := (h.lined tf).advance hnow
  unstarted := h.unstarted
  running := h.running
  phase startedAt hstart tf htf := (h.phase startedAt hstart tf htf).advance hnow (htimely.1 tf htf)
  idle := h.idle

/-- One chain changes in a scheduler that has been started. -/
theorem Inv.setChain (h : s.Inv cov) {c : BoundaryChain} (hstarted : s.startedAt ≠ none)
    (htf : tf ∈ s.timeFrames) (hlined : Lined tf s.offsetMs s.now c)
    (hphase : ∀ startedAt, s.startedAt = some startedAt →
      Phase tf s.offsetMs s.now startedAt cov c s.stop) : (s.setChain tf c).Inv cov where
  offset_nonneg := h.offset_nonneg
  offset_lt := h.offset_lt
  nodup := h.nodup
  lined tf' := by
    by_cases heq : tf' = tf
    · subst heq
      simpa [BoundaryScheduler.setChain] using hlined
    · simpa [BoundaryScheduler.setChain, heq] using h.lined tf'
  unstarted hnone := absurd hnone hstarted
  running := h.running
  phase startedAt hstart tf' htf' := by
    by_cases heq : tf' = tf
    · subst heq
      simpa [BoundaryScheduler.setChain] using hphase startedAt hstart
    · simpa [BoundaryScheduler.setChain, heq] using h.phase startedAt hstart tf' htf'
  idle tf' htf' := by
    have hne : tf' ≠ tf := fun heq => htf' (heq ▸ htf)
    simpa [BoundaryScheduler.setChain, hne] using h.idle tf' htf'

/-- A timer or a callback is one of a time frame of a scheduler that has been started. -/
theorem Inv.started (h : s.Inv cov)
    (hc : (s.chains tf).timers ≠ [] ∨ (s.chains tf).callbacks ≠ []) :
    tf ∈ s.timeFrames ∧ ∃ startedAt, s.startedAt = some startedAt := by
  constructor
  · by_contra hout
    obtain ⟨htimers, hcallbacks, -⟩ := h.idle tf hout
    rcases hc with hc | hc
    · exact hc htimers
    · exact hc hcallbacks
  · cases hstart : s.startedAt with
    | some startedAt => exact ⟨startedAt, rfl⟩
    | none =>
      obtain ⟨-, -, hempty⟩ := h.unstarted hstart
      rcases hc with hc | hc
      · exact absurd (hempty tf).1 hc
      · exact absurd (hempty tf).2 hc

/-- A timer that is set is the one of an armed time frame. -/
theorem Inv.armed (h : s.Inv cov) {t : BoundaryTimer} (ht : t ∈ (s.chains tf).timers) :
    tf ∈ s.timeFrames ∧ s.stop = none ∧ ∃ T b₀, s.startedAt = some T ∧
      Armed tf s.offsetMs s.now T cov (s.chains tf) t b₀ := by
  obtain ⟨htf, T, hstart⟩ := h.started (.inl (List.ne_nil_of_mem ht))
  have hphase := h.phase T hstart tf htf
  cases hstop : s.stop with
  | some stop =>
    rw [hstop] at hphase
    rw [hphase.timers] at ht
    cases ht
  | none =>
    rw [hstop] at hphase
    rcases hphase with ⟨t', b₀, harmed⟩ | ⟨x, rest, hcalling⟩
    · rw [harmed.timers] at ht
      cases List.mem_singleton.mp ht
      exact ⟨htf, rfl, T, b₀, hstart, harmed⟩
    · rw [hcalling.timers] at ht
      cases ht

theorem Inv.fire (h : s.Inv cov) {t : BoundaryTimer} (ht : t ∈ (s.chains tf).timers)
    (hdue : t.dueAt ≤ s.now) : (s.fire tf t).Inv cov := by
  obtain ⟨htf, hstop, T, b₀, hstart, harmed⟩ := h.armed ht
  refine h.setChain (by simp [hstart]) htf (harmed.lined_fired (h.lined tf) hdue) ?_
  intro T' hT'
  cases hstart.symm.trans hT'
  rw [hstop]
  exact .inr ⟨_, _, harmed.fired⟩

theorem Inv.nextHandle (h : s.Inv cov) (n : Nat) : { s with nextHandle := n }.Inv cov where
  offset_nonneg := h.offset_nonneg
  offset_lt := h.offset_lt
  nodup := h.nodup
  lined := h.lined
  unstarted := h.unstarted
  running := h.running
  phase := h.phase
  idle := h.idle

/-- After `stop` the end of a callback sets no timer. -/
theorem settle_of_stopped (h : s.running = false) (tf : TimeFrame) (i : Nat)
    (x : BoundaryCallback) :
    s.settle tf i x = s.setChain tf ((s.chains tf).settled i x s.now) := by
  unfold BoundaryScheduler.settle scheduleNext
  exact if_neg (by simp [setChain, h])

theorem settle_of_running (h : s.running = true) (tf : TimeFrame) (i : Nat)
    (x : BoundaryCallback) :
    s.settle tf i x = { s with nextHandle := s.nextHandle + 1 }.setChain tf
      (((s.chains tf).settled i x s.now).armed s.nextHandle
        (s.now + max 0 (nextBoundary tf s.now + s.offsetMs - s.now))) := by
  unfold BoundaryScheduler.settle scheduleNext setTimer
  rw [if_pos (by exact h)]
  simp [setChain]

theorem Inv.settle (h : s.Inv cov) {i : Nat} {x : BoundaryCallback}
    (hx : (s.chains tf).callbacks[i]? = some x) (hactive : x.endedAt = none)
    (hgap : cov → s.running = true → s.offsetMs ≤ s.now - tf.periodStart s.now) :
    (s.settle tf i x).Inv cov := by
  obtain ⟨htf, T, hstart⟩ := h.started (.inr (List.ne_nil_of_mem (List.mem_of_getElem? hx)))
  have hstarted : s.startedAt ≠ none := by simp [hstart]
  obtain ⟨rest, rfl, hcallbacks⟩ := (h.lined tf).active hx hactive
  have hlined := (h.lined tf).settled hcallbacks
  have hphase := h.phase T hstart tf htf
  cases hstop : s.stop with
  | some stop =>
    -- `scheduleNext` does nothing after `stop`
    have hrunning : s.running = false := by
      rw [← Bool.not_eq_true, h.running hstarted, hstop]
      exact Option.some_ne_none stop
    rw [hstop] at hphase
    rw [settle_of_stopped hrunning]
    refine h.setChain hstarted htf hlined ?_
    intro T' hT'
    cases hstart.symm.trans hT'
    rw [hstop]
    exact Halted.settled hphase hcallbacks (h.offset_lt tf htf)
  | none =>
    have hrunning : s.running = true := (h.running hstarted).mpr hstop
    rw [hstop] at hphase
    rcases hphase with ⟨t, b₀, harmed⟩ | ⟨y, rest', hcalling⟩
    · obtain ⟨-, e, he⟩ := harmed.earlier x (List.mem_of_getElem? hx)
      cases hactive.symm.trans he
    · cases hcallbacks.symm.trans hcalling.callbacks
      rw [settle_of_running hrunning]
      refine (h.nextHandle _).setChain hstarted htf ⟨hlined.ordered, hlined.timed⟩ ?_
      intro T' hT'
      cases hstart.symm.trans hT'
      change Phase tf s.offsetMs s.now T cov _ s.stop
      rw [hstop]
      exact .inl ⟨_, _, hcalling.settled (h.lined tf) h.offset_nonneg
        (fun hcov => hgap hcov hrunning) _⟩

/-- The timers that are set are those of the handles. -/
theorem halt_chain (h : s.Inv cov) (tf : TimeFrame) :
    (s.halt.chains tf).timers = [] ∧ (s.halt.chains tf).callbacks = (s.chains tf).callbacks := by
  refine ⟨?_, rfl⟩
  change (s.chains tf).timers.filter (fun t => !s.holdsHandle t.handle) = []
  rw [List.filter_eq_nil_iff]
  intro t ht
  obtain ⟨-, -, T, b₀, -, harmed⟩ := h.armed ht
  have hheld : s.holdsHandle t.handle = true :=
    List.any_eq_true.mpr ⟨tf, TimeFrame.mem_liveTimeframes tf, by simp [harmed.handle]⟩
  simp [hheld]

theorem Inv.halt (h : s.Inv cov) (hstarted : s.startedAt ≠ none) : s.halt.Inv cov where
  offset_nonneg := h.offset_nonneg
  offset_lt := h.offset_lt
  nodup := h.nodup
  lined tf := ⟨(h.lined tf).ordered, (h.lined tf).timed⟩
  unstarted hnone := absurd hnone hstarted
  running _ := by
    cases hstop : s.stop <;> simp [BoundaryScheduler.halt, hstop]
  phase T hT tf htf := by
    have hphase := h.phase T hT tf htf
    obtain ⟨htimers, hcallbacks⟩ := halt_chain h tf
    cases hstop : s.stop with
    | some stop =>
      rw [hstop] at hphase
      have hkept : s.halt.stop = some stop := by simp [BoundaryScheduler.halt, hstop]
      rw [hkept]
      exact ⟨htimers, hphase.length, hphase.stopped, hphase.covered⟩
    | none =>
      rw [hstop] at hphase
      have hnew : s.halt.stop =
          some ⟨s.now, fun tf => (s.chains tf).callbacks.length⟩ := by
        simp [BoundaryScheduler.halt, hstop]
      rw [hnew]
      rcases hphase with ⟨t, b₀, harmed⟩ | ⟨x, rest, hcalling⟩
      · exact harmed.halted htimers hcallbacks rfl rfl
      · exact hcalling.halted (h.lined tf) h.offset_nonneg htimers hcallbacks rfl rfl
  idle tf htf := by
    obtain ⟨-, hcallbacks, hlen⟩ := h.idle tf htf
    refine ⟨(halt_chain h tf).1, hcallbacks, fun stop hstop => ?_⟩
    cases hold : s.stop with
    | some old =>
      obtain rfl : old = stop := by simpa [BoundaryScheduler.halt, hold] using hstop
      exact hlen old hold
    | none =>
      obtain rfl : _ = stop := by simpa [BoundaryScheduler.halt, hold] using hstop
      simp [hcallbacks]

/-- The first timer of a time frame is for the boundary after `start`. -/
theorem armed_start (hoffset : 0 ≤ offsetMs) (h : c.callbacks = []) (htimers : c.timers = [])
    (handle : Nat) :
    Armed tf offsetMs now now cov
      (c.armed handle (now + max 0 (nextBoundary tf now + offsetMs - now)))
      ⟨handle, now + max 0 (nextBoundary tf now + offsetMs - now)⟩ (nextBoundary tf now) where
  timers := by simp [BoundaryChain.armed, htimers]
  handle := rfl
  aligned := isAligned_nextBoundary tf now
  due := by
    have := lt_nextBoundary tf now
    dsimp only
    omega
  earlier x hx := by
    change x ∈ c.callbacks at hx
    rw [h] at hx
    cases hx
  covered _ b hb hstart hlt := by
    -- no boundary is after the start and before the next one
    have := le_periodStart_of_lt hb hlt
    have := tf.periodStart_le now
    omega
  in_time := by
    have := lt_nextBoundary tf now
    have := tf.durationMs_pos
    omega

/-- What the loop of `start` leaves alone. -/
structure SameButChains (s s' : BoundaryScheduler) : Prop where
  timeFrames : s'.timeFrames = s.timeFrames
  offsetMs : s'.offsetMs = s.offsetMs
  now : s'.now = s.now
  running : s'.running = s.running
  startedAt : s'.startedAt = s.startedAt
  stop : s'.stop = s.stop

/-- The loop sets one timer for each time frame of the list. -/
theorem scheduleAll_chains (hrunning : s.running = true) {l : List TimeFrame} (hl : l.Nodup) :
    SameButChains s (s.scheduleAll l) ∧
    (∀ tf, tf ∉ l → (s.scheduleAll l).chains tf = s.chains tf) ∧
    ∀ tf ∈ l, ∃ handle, (s.scheduleAll l).chains tf = (s.chains tf).armed handle
      (s.now + max 0 (nextBoundary tf s.now + s.offsetMs - s.now)) := by
  induction l generalizing s with
  | nil => exact ⟨⟨rfl, rfl, rfl, rfl, rfl, rfl⟩, fun _ _ => rfl, fun _ h => by cases h⟩
  | cons x rest ih =>
    obtain ⟨hx, hrest⟩ := List.nodup_cons.mp hl
    have hnext : s.scheduleNext x = s.setTimer x
        (s.now + max 0 (nextBoundary x s.now + s.offsetMs - s.now)) := if_pos hrunning
    have hchain : ∀ tf, tf ≠ x → (s.scheduleNext x).chains tf = s.chains tf := by
      intro tf hne
      rw [hnext]
      exact Function.update_of_ne hne ..
    have hsame : SameButChains s (s.scheduleNext x) := by
      rw [hnext]
      exact ⟨rfl, rfl, rfl, rfl, rfl, rfl⟩
    obtain ⟨hkept, hother, hset⟩ := ih (s := s.scheduleNext x) (hsame.running ▸ hrunning) hrest
    refine ⟨?_, ?_, ?_⟩
    · exact ⟨hkept.timeFrames.trans hsame.timeFrames, hkept.offsetMs.trans hsame.offsetMs,
        hkept.now.trans hsame.now, hkept.running.trans hsame.running,
        hkept.startedAt.trans hsame.startedAt, hkept.stop.trans hsame.stop⟩
    · intro tf htf
      obtain ⟨hne, htf⟩ := not_or.mp (fun h => htf (List.mem_cons.mpr h))
      rw [scheduleAll, hother tf htf, hchain tf hne]
    · intro tf htf
      rcases List.mem_cons.mp htf with heq | htf
      · subst heq
        refine ⟨s.nextHandle, ?_⟩
        rw [scheduleAll, hother tf hx, hnext]
        exact Function.update_self ..
      · obtain ⟨handle, hhandle⟩ := hset tf htf
        have hne : tf ≠ x := fun heq => hx (heq ▸ htf)
        rw [hchain tf hne, hsame.now, hsame.offsetMs] at hhandle
        exact ⟨handle, hhandle⟩

theorem Inv.begin (h : s.Inv cov) (hnone : s.startedAt = none) : s.begin.Inv cov := by
  obtain ⟨hrunning, hstop, hempty⟩ := h.unstarted hnone
  obtain ⟨hsame, hother, hset⟩ := scheduleAll_chains
    (s := { s with running := true, startedAt := some s.now }) rfl h.nodup
  have hbegin : s.begin =
      scheduleAll { s with running := true, startedAt := some s.now } s.timeFrames := by
    unfold BoundaryScheduler.begin
    rw [if_neg (by simp [hrunning])]
  rw [← hbegin] at hsame hother hset
  have hcallbacks : ∀ tf, (s.begin.chains tf).callbacks = [] := by
    intro tf
    by_cases htf : tf ∈ s.timeFrames
    · obtain ⟨handle, hhandle⟩ := hset tf htf
      rw [hhandle]
      exact (hempty tf).2
    · rw [hother tf htf]
      exact (hempty tf).2
  exact {
    offset_nonneg := by
      rw [hsame.offsetMs]
      exact h.offset_nonneg
    offset_lt := by
      rw [hsame.offsetMs, hsame.timeFrames]
      exact h.offset_lt
    nodup := by
      rw [hsame.timeFrames]
      exact h.nodup
    lined := fun tf => ⟨by rw [hcallbacks tf]; exact .nil, by simp [hcallbacks tf]⟩
    unstarted := fun hstart => by cases hsame.startedAt.symm.trans hstart
    running := fun _ => by simp [hsame.running, hsame.stop, hstop]
    phase := fun T hT tf htf => by
      cases hsame.startedAt.symm.trans hT
      rw [hsame.timeFrames] at htf
      obtain ⟨handle, hhandle⟩ := hset tf htf
      rw [hsame.offsetMs, hsame.now, hsame.stop, hhandle]
      change Phase tf s.offsetMs s.now s.now cov _ s.stop
      rw [hstop]
      exact .inl ⟨_, _, armed_start h.offset_nonneg (hempty tf).2 (hempty tf).1 handle⟩
    idle := fun tf htf => by
      rw [hsame.timeFrames] at htf
      rw [hother tf htf]
      refine ⟨(hempty tf).1, (hempty tf).2, fun stop hstop' => ?_⟩
      cases (hsame.stop.trans hstop).symm.trans hstop' }

theorem inv_create {timeFrames : List TimeFrame} (hnodup : timeFrames.Nodup)
    (hoffset : 0 ≤ offsetMs) (hlt : ∀ tf ∈ timeFrames, offsetMs < tf.durationMs) (now : Int) :
    (create timeFrames offsetMs now).Inv cov where
  offset_nonneg := hoffset
  offset_lt := hlt
  nodup := hnodup
  lined _ := ⟨.nil, fun x hx => by cases hx⟩
  unstarted _ := ⟨rfl, rfl, fun _ => ⟨rfl, rfl⟩⟩
  running h := absurd rfl h
  phase T hT := by cases hT
  idle _ _ := ⟨rfl, rfl, fun stop hstop => by cases hstop⟩

theorem step_eq_some {a : BoundaryLabel} (h : s.step a = some s') :
    s.now ≤ a.now ∧ { s with now := a.now }.act a = some s' := by
  unfold step at h
  split at h
  · rename_i hnow
    exact ⟨hnow, h⟩
  · cases h

theorem inv_step {a : BoundaryLabel} (hinv : s.Inv cov) (htimely : s.Timely a)
    (hgap : cov → s.NotInGap a) (h : s.step a = some s') : s'.Inv cov := by
  obtain ⟨hnow, hact⟩ := step_eq_some h
  have hadvanced := hinv.advance hnow htimely
  cases a with
  | start now =>
    cases hact
    exact hadvanced.begin htimely.2
  | stop now =>
    cases hact
    exact hadvanced.halt htimely.2
  | fire tf handle now =>
    unfold act at hact
    dsimp only at hact
    split at hact
    · rename_i t ht
      split at hact
      · rename_i hdue
        cases hact
        exact hadvanced.fire (List.mem_of_find?_eq_some ht) hdue
      · cases hact
    · cases hact
  | settle tf i ok now =>
    unfold act at hact
    dsimp only at hact
    split at hact
    · rename_i x hx
      split at hact
      · rename_i hactive
        cases hact
        exact hadvanced.settle hx hactive hgap
      · cases hact
    · cases hact
  | tick now =>
    cases hact
    exact hadvanced

/-! ## Every run -/

/-- What has been covered, when no callback has ended in a gap. -/
theorem Inv.served (h : s.Inv cov) (hcov : cov) : s.Served := by
  intro tf htf T hT b hb hstart hle
  have hphase := h.phase T hT tf htf
  unfold horizon at hle
  cases hstop : s.stop with
  | some stop =>
    rw [hstop] at hphase hle
    exact hphase.covered hcov b hb hstart hle
  | none =>
    rw [hstop] at hphase hle
    dsimp only at hle
    rcases hphase with ⟨t, b₀, harmed⟩ | ⟨x, rest, hcalling⟩
    · refine harmed.covered hcov b hb hstart ?_
      have := harmed.in_time
      omega
    · exact hcalling.covers (h.lined tf) h.offset_nonneg hcov hb hstart

/-- No callback begins after `stop`. -/
theorem Inv.after_stop (h : s.Inv cov) {stop : BoundaryStop} (hstop : s.stop = some stop)
    (tf : TimeFrame) : (s.chains tf).callbacks.length = stop.callbacks tf := by
  by_cases htf : tf ∈ s.timeFrames
  · cases hstart : s.startedAt with
    | none =>
      obtain ⟨-, hnone, -⟩ := h.unstarted hstart
      cases hnone.symm.trans hstop
    | some T =>
      have hphase := h.phase T hstart tf htf
      rw [hstop] at hphase
      exact hphase.length
  · obtain ⟨-, hcallbacks, hlen⟩ := h.idle tf htf
    rw [hcallbacks, hlen stop hstop]
    rfl

theorem Inv.serves (h : s.Inv cov) (hserved : s.Served) : s.Serves where
  no_overlap tf := (h.lined tf).ordered.imp fun hafter => hafter.2
  increasing tf := (h.lined tf).ordered.imp fun hafter => hafter.1
  due tf x hx :=
    have hx := (h.lined tf).timed x hx
    ⟨hx.aligned, hx.due, hx.in_period⟩
  served := hserved
  after_stop _ hstop tf := h.after_stop hstop tf

/-- The invariant holds in every timely run. -/
theorem inv_run {ok : BoundaryScheduler → BoundaryLabel → Prop}
    (hok : ∀ s a, ok s a → s.Timely a ∧ (cov → s.NotInGap a)) {timeFrames : List TimeFrame}
    (hnodup : timeFrames.Nodup) (hoffset : 0 ≤ offsetMs)
    (hlt : ∀ tf ∈ timeFrames, offsetMs < tf.durationMs)
    (hreaches : Reaches step ok (create timeFrames offsetMs now) s) : s.Inv cov := by
  have hkeep : ∀ (s : BoundaryScheduler) (a : BoundaryLabel) (s' : BoundaryScheduler),
      s.Inv cov → ok s a → s.step a = some s' → s'.Inv cov := by
    intro s a s' hinv ha h
    exact inv_step hinv (hok s a ha).1 (hok s a ha).2 h
  exact hreaches.invariant (inv_create hnodup hoffset hlt now) hkeep

/-- Whatever the callbacks do, nothing but the covering of the boundaries is at stake. -/
theorem serves_iff_served {timeFrames : List TimeFrame} (hnodup : timeFrames.Nodup)
    (hoffset : 0 ≤ offsetMs) (hlt : ∀ tf ∈ timeFrames, offsetMs < tf.durationMs)
    (hreaches : Reaches step Timely (create timeFrames offsetMs now) s) :
    s.Serves ↔ s.Served := by
  have hinv : s.Inv False :=
    inv_run (fun _ _ htimely => ⟨htimely, False.elim⟩) hnodup hoffset hlt hreaches
  exact ⟨fun h => h.served, hinv.serves⟩

/-- As long as no callback ends in a gap, the watchdog serves every boundary. -/
theorem serves_of_notInGap (timeFrames : List TimeFrame) (hnodup : timeFrames.Nodup)
    (offsetMs now : Int) (hoffset : 0 ≤ offsetMs)
    (hlt : ∀ tf ∈ timeFrames, offsetMs < tf.durationMs) (s : BoundaryScheduler)
    (hreaches : Reaches step (fun s a => s.Timely a ∧ s.NotInGap a)
      (create timeFrames offsetMs now) s) :
    s.Serves := by
  have hinv : s.Inv True :=
    inv_run (fun _ _ hok => ⟨hok.1, fun _ => hok.2⟩) hnodup hoffset hlt hreaches
  exact hinv.serves (hinv.served trivial)

/-- Two boundaries, the first callback being over at once and the second one late. -/
theorem serves_two_boundaries : ∃ s,
    Reaches step (fun s a => s.Timely a ∧ s.NotInGap a) (create [.fifteenMinute] 15000 0) s ∧
    ((s.chains .fifteenMinute).callbacks.map (fun x => x.boundary) = [1800000, 900000]) ∧
    s.Serves := by
  obtain ⟨s, hreaches, hcallbacks⟩ : ∃ s,
      Reaches step (fun s a => s.Timely a ∧ s.NotInGap a) (create [.fifteenMinute] 15000 0) s ∧
      (s.chains .fifteenMinute).callbacks.map (fun x => x.boundary) = [1800000, 900000] :=
    exists_reaches [.start 0, .fire .fifteenMinute 0 915000,
      .settle .fifteenMinute 0 true 915100, .fire .fifteenMinute 1 1816000,
      .settle .fifteenMinute 0 false 1900000] (by decide +kernel)
  exact ⟨s, hreaches, hcallbacks, serves_of_notInGap [.fifteenMinute] (by decide) 15000 0
    (by decide) (by decide) s hreaches⟩

/-- The callback of 00:15 is over five seconds after 00:30. The next timer is set for 00:45,
and 00:30 is never served, though nothing ran when it was due. -/
theorem exists_boundary_skipped : ¬ ∀ (timeFrames : List TimeFrame) (offsetMs now : Int)
    (s : BoundaryScheduler), timeFrames.Nodup → 0 ≤ offsetMs →
    (∀ tf ∈ timeFrames, offsetMs < tf.durationMs) →
    Reaches step Timely (create timeFrames offsetMs now) s → s.Serves := by
  intro hall
  obtain ⟨s, hreaches, htimeFrames, hstart, hhorizon, hoffset, hcallbacks⟩ : ∃ s,
      Reaches step Timely (create [.fifteenMinute] 15000 0) s ∧
      s.timeFrames = [.fifteenMinute] ∧ s.startedAt = some 0 ∧ s.horizon = 2700000 ∧
      s.offsetMs = 15000 ∧
      (s.chains .fifteenMinute).callbacks = [⟨900000, 915000, some 1805000⟩] :=
    exists_reaches [.start 0, .fire .fifteenMinute 0 915000,
      .settle .fifteenMinute 0 true 1805000, .tick 2700000] (by decide +kernel)
  have hserves := hall [.fifteenMinute] 15000 0 s (by decide) (by decide) (by decide) hreaches
  have hcovered := hserves.served .fifteenMinute (by simp [htimeFrames]) 0 hstart 1800000
    (by decide) (by decide) (by simp [hhorizon, TimeFrame.durationMs])
  rw [hcallbacks, hoffset] at hcovered
  simp [Covered] at hcovered

end BoundaryScheduler

end Luchida
