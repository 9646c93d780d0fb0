import Mathlib.Tactic.Linarith
import Mathlib.Tactic.Ring

/- TimeFrame.ts: the bar lengths of the live system and the time buckets they
   cut the clock into. Times are milliseconds since the epoch (`Date.getTime`).
   The source rounds down with `Math.floor(ms / duration) * duration`; `/` on
   `Int` with a positive divisor is that floor. -/
namespace Luchida

inductive TimeFrame where
  | oneMinute
  | fifteenMinute
  | oneHour
  | oneDay
  deriving DecidableEq, Repr

namespace TimeFrame

def durationMs : TimeFrame → Int
  | .oneMinute => 60000
  | .fifteenMinute => 900000
  | .oneHour => 3600000
  | .oneDay => 86400000

/-- `LIVE_TIMEFRAMES`, in the order in which the book serves them. -/
def liveTimeframes : List TimeFrame := [.oneMinute, .fifteenMinute, .oneHour, .oneDay]

theorem mem_liveTimeframes (tf : TimeFrame) : tf ∈ liveTimeframes := by
  cases tf <;> decide

theorem liveTimeframes_nodup : liveTimeframes.Nodup := by decide

theorem durationMs_pos (tf : TimeFrame) : 0 < tf.durationMs := by
  cases tf <;> decide

/-- The time bucket that holds `ms`. -/
def bucket (tf : TimeFrame) (ms : Int) : Int := ms / tf.durationMs

/-- The start of the bucket that holds `ms`. -/
def periodStart (tf : TimeFrame) (ms : Int) : Int := ms / tf.durationMs * tf.durationMs

/-- `isAlignedToTimeFrame`: the time lies on a bucket boundary. -/
def isAligned (tf : TimeFrame) (ms : Int) : Bool := ms % tf.durationMs == 0

theorem periodStart_eq_iff (tf : TimeFrame) (s t : Int) :
    tf.periodStart s = tf.periodStart t ↔ tf.bucket s = tf.bucket t := by
  have hd : tf.durationMs ≠ 0 := Int.ne_of_gt tf.durationMs_pos
  simp [periodStart, bucket, hd]

theorem periodStart_le (tf : TimeFrame) (t : Int) : tf.periodStart t ≤ t :=
  Int.ediv_mul_le t (Int.ne_of_gt tf.durationMs_pos)

theorem lt_periodStart_add (tf : TimeFrame) (t : Int) :
    t < tf.periodStart t + tf.durationMs := by
  have := Int.lt_ediv_add_one_mul_self t tf.durationMs_pos
  simp only [periodStart]
  linarith [this]

theorem bucket_mono (tf : TimeFrame) {s t : Int} (h : s ≤ t) : tf.bucket s ≤ tf.bucket t :=
  Int.ediv_le_ediv tf.durationMs_pos h

theorem bucket_lt_of_ne (tf : TimeFrame) {s t : Int} (h : s ≤ t)
    (hne : tf.bucket s ≠ tf.bucket t) : tf.bucket s < tf.bucket t :=
  lt_of_le_of_ne (tf.bucket_mono h) hne

/-- Of two boundaries, the later one starts a later bucket. -/
theorem bucket_lt_of_aligned (tf : TimeFrame) {s t : Int} (hs : tf.isAligned s = true)
    (ht : tf.isAligned t = true) (h : s < t) : tf.bucket s < tf.bucket t := by
  simp only [isAligned, beq_iff_eq] at hs ht
  refine tf.bucket_lt_of_ne (Int.le_of_lt h) fun heq => ?_
  simp only [bucket] at heq
  have hs' := Int.ediv_mul_cancel_of_emod_eq_zero hs
  have ht' := Int.ediv_mul_cancel_of_emod_eq_zero ht
  rw [heq, ht'] at hs'
  omega

theorem periodStart_mono (tf : TimeFrame) {s t : Int} (h : s ≤ t) :
    tf.periodStart s ≤ tf.periodStart t :=
  Int.mul_le_mul_of_nonneg_right (tf.bucket_mono h) (Int.le_of_lt tf.durationMs_pos)

theorem isAligned_periodStart (tf : TimeFrame) (t : Int) :
    tf.isAligned (tf.periodStart t) = true := by
  simp [isAligned, periodStart]

/-- A bucket that holds a time from a boundary on begins there or later. -/
theorem le_periodStart (tf : TimeFrame) {s t : Int} (hs : tf.isAligned s = true) (h : s ≤ t) :
    s ≤ tf.periodStart t := by
  simp only [isAligned, beq_iff_eq] at hs
  calc s = tf.periodStart s := (Int.ediv_mul_cancel_of_emod_eq_zero hs).symm
    _ ≤ tf.periodStart t := tf.periodStart_mono h

/-- Of two boundaries, the later one is a whole bucket later. -/
theorem add_durationMs_le (tf : TimeFrame) {s t : Int} (hs : tf.isAligned s = true)
    (ht : tf.isAligned t = true) (h : s < t) : s + tf.durationMs ≤ t := by
  simp only [isAligned, beq_iff_eq] at hs ht
  obtain ⟨m, rfl⟩ := Int.dvd_of_emod_eq_zero hs
  obtain ⟨n, rfl⟩ := Int.dvd_of_emod_eq_zero ht
  have hlt : m < n := Int.lt_of_mul_lt_mul_left h (Int.le_of_lt tf.durationMs_pos)
  calc tf.durationMs * m + tf.durationMs = tf.durationMs * (m + 1) := by ring
    _ ≤ tf.durationMs * n := Int.mul_le_mul_of_nonneg_left hlt (Int.le_of_lt tf.durationMs_pos)

end TimeFrame

end Luchida
