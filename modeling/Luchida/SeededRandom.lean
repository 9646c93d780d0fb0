import Mathlib.Algebra.Order.Field.Basic
import Mathlib.Data.Rat.Cast.Order
import Mathlib.Tactic.NormNum
import Mathlib.Tactic.Positivity
import Luchida.Xorshift

/- SeededRandom.ts of the backtest: xorshift128+ written with BigInt.

   Only the sum of the two words is cut to 64 bits. The shift by 23 to the left is not, so
   from the first call on the longer word has more than 64 bits and keeps growing
   (`next_large`), and what the shifts to the right bring down from above the 64th bit is
   part of the numbers returned: with the seed 0 already of the first (`exists_departure`).
   The numbers are between 0 and 1 all the same, but `Number` rounds the highest 2^10 of
   the 64-bit integers to 2^64, and then 1 itself is returned (`next_lt_one_iff`). -/
namespace Luchida

open Xorshift

/-- `Number` on a BigInt of less than 1024 bits, and the rounding of a sum of two integers:
53 bits are kept, halves go to the even neighbour. -/
def toNumber (n : Nat) : Nat :=
  let unit := 2 ^ (n.log2 - 52)
  let kept := n / unit
  let rest := n % unit
  (if 2 * rest < unit then kept
    else if unit < 2 * rest then kept + 1
    else if kept % 2 = 0 then kept else kept + 1) * unit

/-- What has 53 bits is kept. -/
theorem toNumber_of_lt {n : Nat} (h : n < 2 ^ 53) : toNumber n = n := by
  have hlog : n.log2 - 52 = 0 := by
    rcases Nat.eq_zero_or_pos n with rfl | hpos
    · rfl
    · have := (Nat.log2_lt hpos.ne').mpr h
      omega
  unfold toNumber
  simp [hlog, Nat.mod_one]

theorem le_toNumber {n : Nat} (h : 2 ^ 53 ≤ n) : 2 ^ 52 ≤ toNumber n := by
  have hpos : n ≠ 0 := by omega
  have hlog : 53 ≤ n.log2 := (Nat.le_log2 hpos).mpr h
  have hkept : 2 ^ 52 ≤ n / 2 ^ (n.log2 - 52) := by
    rw [Nat.le_div_iff_mul_le (Nat.two_pow_pos _), ← Nat.pow_add,
      show 52 + (n.log2 - 52) = n.log2 by omega]
    exact Nat.log2_self_le hpos
  have hunit := Nat.two_pow_pos (n.log2 - 52)
  unfold toNumber
  dsimp only
  refine le_trans ?_ (Nat.le_mul_of_pos_right _ hunit)
  split
  · exact hkept
  · split
    · omega
    · split <;> omega

theorem toNumber_le_add (n : Nat) : toNumber n ≤ n + 2 ^ (n.log2 - 52) := by
  have hkept := Nat.div_mul_le_self n (2 ^ (n.log2 - 52))
  unfold toNumber
  dsimp only
  split
  · omega
  · split
    · rw [Nat.add_mul, Nat.one_mul]
      omega
    · split
      · omega
      · rw [Nat.add_mul, Nat.one_mul]
        omega

/-- A 64-bit integer is rounded to 2^64 from 2^10 below it on, and to less before. -/
theorem toNumber_lt_iff {n : Nat} (h : n < 2 ^ 64) :
    toNumber n < 2 ^ 64 ↔ n < 2 ^ 64 - 2 ^ 10 := by
  rcases Nat.lt_or_ge n (2 ^ 63) with hsmall | hlarge
  · have hlog : n.log2 - 52 ≤ 11 := by
      rcases Nat.eq_zero_or_pos n with rfl | hpos
      · exact Nat.zero_le _
      · have := (Nat.log2_lt hpos.ne').mpr h
        omega
    have hunit : 2 ^ (n.log2 - 52) ≤ 2 ^ 11 := Nat.pow_le_pow_right Nat.two_pos hlog
    have hle := toNumber_le_add n
    refine iff_of_true ?_ ?_ <;> omega
  · -- the last of 53 bits counts 2^11
    have hpos : n ≠ 0 := by omega
    have hlog : n.log2 = 63 :=
      le_antisymm (Nat.lt_succ_iff.mp ((Nat.log2_lt hpos).mpr h)) ((Nat.le_log2 hpos).mpr hlarge)
    unfold toNumber
    simp only [hlog]
    split
    · omega
    · split
      · omega
      · split <;> omega

theorem toNumber_le {n : Nat} (h : n < 2 ^ 64) : toNumber n ≤ 2 ^ 64 := by
  rcases Nat.lt_or_ge n (2 ^ 64 - 2 ^ 10) with hlow | hhigh
  · exact ((toNumber_lt_iff h).mpr hlow).le
  · have hpos : n ≠ 0 := by omega
    have hlog : n.log2 = 63 :=
      le_antisymm (Nat.lt_succ_iff.mp ((Nat.log2_lt hpos).mpr h))
        ((Nat.le_log2 hpos).mpr (by omega))
    unfold toNumber
    simp only [hlog]
    split
    · omega
    · split
      · omega
      · split <;> omega

/-! ## SeededRandom.ts -/

/-- `SeededRandom`: the state words, which a seed that is not negative never makes
negative. -/
structure SeededRandom where
  s0 : Nat
  s1 : Nat
  deriving DecidableEq

namespace SeededRandom

/-- The constructor. -/
def ofSeed (seed : Nat) : SeededRandom :=
  let s0 := toNumber (seed + 1) * 6364136223846793005 + 1442695040888963407
  let s1 := toNumber (seed + 1) * 2862933555777941757 + 3037000493
  { s0 := if s0 = 0 then 1 else s0
    s1 := if s1 = 0 then 1 else s1 }

/-- The state after `next`. -/
def step (r : SeededRandom) : SeededRandom :=
  let x := r.s0
  let y := r.s1
  let x := x ^^^ (x <<< 23)
  let x := x ^^^ (x >>> 17)
  let x := x ^^^ y
  let x := x ^^^ (y >>> 26)
  { s0 := y, s1 := x }

/-- `u64` in `next`. -/
def u64 (r : SeededRandom) : Nat := (r.step.s0 + r.step.s1) % 2 ^ 64

/-- `next`. -/
def next (r : SeededRandom) : ℚ × SeededRandom :=
  ((toNumber r.u64 : ℚ) / 18446744073709551616, r.step)

/-- The state after `n` calls of `next`. -/
def after (r : SeededRandom) : Nat → SeededRandom
  | 0 => r
  | n + 1 => (after r n).next.2

/-- The number that the call after `n` others returns. -/
def output (r : SeededRandom) (n : Nat) : ℚ := (after r n).next.1

theorem step_eq (r : SeededRandom) : r.step = ⟨r.s1, scramble r.s0 r.s1⟩ := rfl

/-! ### What is returned -/

theorem u64_lt (r : SeededRandom) : r.u64 < 2 ^ 64 := Nat.mod_lt _ (Nat.two_pow_pos 64)

/-- The number is never outside of 0 and 1. -/
theorem next_mem (r : SeededRandom) : 0 ≤ r.next.1 ∧ r.next.1 ≤ 1 := by
  have hle : (toNumber r.u64 : ℚ) ≤ 18446744073709551616 := by
    exact_mod_cast toNumber_le r.u64_lt
  unfold next
  dsimp only
  refine ⟨by positivity, ?_⟩
  rw [div_le_one (by norm_num)]
  exact hle

/-- It is 1 when `Number` rounds up to 2^64. -/
theorem next_lt_one_iff (r : SeededRandom) : r.next.1 < 1 ↔ r.u64 < 2 ^ 64 - 2 ^ 10 := by
  rw [← toNumber_lt_iff r.u64_lt]
  unfold next
  rw [div_lt_one (by norm_num), ← Nat.cast_lt (α := ℚ)]
  norm_num

/-! ### The state -/

/-- Both words of a state, cut to 64 bits. -/
def words (r : SeededRandom) : Words := ⟨BitVec.ofNat 64 r.s0, BitVec.ofNat 64 r.s1⟩

/-- From words of 64 bits, the 64-bit integer is that of the generator exactly when bits 41 to
57 of the first word are zero. -/
theorem u64_eq_iff {r : SeededRandom} (h0 : r.s0 < 2 ^ 64) (h1 : r.s1 < 2 ^ 64) :
    r.u64 = r.words.output.toNat ↔ (r.s0 >>> 41) % 2 ^ 17 = 0 := by
  have hsum : r.u64 = (BitVec.ofNat 64 r.s1 + BitVec.ofNat 64 (scramble r.s0 r.s1)).toNat := by
    rw [← BitVec.ofNat_add, BitVec.toNat_ofNat, u64, step_eq]
  rw [hsum, BitVec.toNat_inj, ← scramble_agrees_iff h0 h1]
  unfold Words.output Words.next words
  exact BitVec.add_right_inj _

/-- A state with a word that does not fit `k` bits. -/
def Large (k : Nat) (r : SeededRandom) : Prop := 2 ^ k ≤ r.s0 ∨ 2 ^ k ≤ r.s1

/-- The first word makes the second 23 bits longer than it is, unless the second is so
already. -/
theorem step_of_s0 {k : Nat} {r : SeededRandom} (h : 2 ^ k ≤ r.s0) : Large (k + 23) r.step := by
  have hpos : r.s0 ≠ 0 := (Nat.two_pow_pos k).trans_le h |>.ne'
  have hlog : k ≤ r.s0.log2 := (Nat.le_log2 hpos).mpr h
  have hpow : 2 ^ (k + 23) ≤ 2 ^ (r.s0.log2 + 23) :=
    Nat.pow_le_pow_right Nat.two_pos (Nat.add_le_add_right hlog 23)
  rcases Nat.lt_or_ge r.s1 (2 ^ (r.s0.log2 + 23)) with hlt | hge
  · right
    exact hpow.trans (two_pow_le_scramble (Nat.log2_self_le hpos) Nat.lt_log2_self hlt)
  · left
    exact hpow.trans hge

/-- No word is lost that is too long. -/
theorem next_large {k : Nat} {r : SeededRandom} (h : Large k r) : Large k r.step := by
  rcases h with h0 | h1
  · have hpow : 2 ^ k ≤ 2 ^ (k + 23) := Nat.pow_le_pow_right Nat.two_pos (Nat.le_add_right k 23)
    rcases step_of_s0 h0 with h | h
    · exact .inl (hpow.trans h)
    · exact .inr (hpow.trans h)
  · exact .inl h1

theorem next_next_large {k : Nat} {r : SeededRandom} (h : Large k r) :
    Large (k + 23) r.step.step := by
  rcases h with h0 | h1
  · exact next_large (step_of_s0 h0)
  · exact step_of_s0 h1

/-- The state has no bound: 23 bits more every second call at least. -/
theorem after_large {k : Nat} {r : SeededRandom} (h : Large k r) (n : Nat) :
    Large (k + 23 * n) (r.after (2 * n)) := by
  induction n with
  | zero => exact h
  | succ n ih => exact next_next_large ih

/-! ### The seed -/

theorem toNumber_pos {n : Nat} (h : 0 < n) : 0 < toNumber n := by
  rcases Nat.lt_or_ge n (2 ^ 53) with hlt | hge
  · rwa [toNumber_of_lt hlt]
  · have := le_toNumber hge
    omega

/-- The guards against zero are never needed. -/
theorem ofSeed_eq (seed : Nat) :
    ofSeed seed = ⟨toNumber (seed + 1) * 6364136223846793005 + 1442695040888963407,
      toNumber (seed + 1) * 2862933555777941757 + 3037000493⟩ := by
  unfold ofSeed
  dsimp only
  rw [if_neg (by omega), if_neg (by omega)]

/-- The words of a new generator fit 64 bits for the seeds 0 and 1. -/
theorem ofSeed_lt_iff (seed : Nat) :
    (ofSeed seed).s0 < 2 ^ 64 ∧ (ofSeed seed).s1 < 2 ^ 64 ↔ seed ≤ 1 := by
  rw [ofSeed_eq]
  dsimp only
  rcases Nat.lt_or_ge (seed + 1) (2 ^ 53) with hlt | hge
  · rw [toNumber_of_lt hlt]
    omega
  · have := le_toNumber hge
    omega

theorem ofSeed_large (seed : Nat) : 2 ^ 62 ≤ (ofSeed seed).s0 := by
  have hpos : 0 < toNumber (seed + 1) := toNumber_pos (Nat.succ_pos seed)
  rw [ofSeed_eq]
  dsimp only
  omega

/-- After the first call a word is too long, whatever the seed. -/
theorem after_ofSeed_large (seed n : Nat) : Large 64 ((ofSeed seed).after (n + 1)) := by
  induction n with
  | zero =>
    rcases step_of_s0 (ofSeed_large seed) with h | h
    · exact .inl (le_trans (Nat.pow_le_pow_right Nat.two_pos (by decide)) h)
    · exact .inr (le_trans (Nat.pow_le_pow_right Nat.two_pos (by decide)) h)
  | succ n ih => exact next_large ih

/-! ### The generator it is meant to be -/

/-- The words of the generator of 64 bits after `n` steps. -/
def referenceAfter (w : Words) : Nat → Words
  | 0 => w
  | n + 1 => (referenceAfter w n).next

/-- `n` calls with the seed are those of xorshift128+: the words fit 64 bits, and each number
is the generator's, over 2^64 as a double, and below 1. -/
def MeetsReference (seed n : Nat) : Prop :=
  ((ofSeed seed).after n).s0 < 2 ^ 64 ∧ ((ofSeed seed).after n).s1 < 2 ^ 64 ∧
  ∀ i < n, (ofSeed seed).output i =
      (toNumber (referenceAfter (ofSeed seed).words i).output.toNat : ℚ) / 2 ^ 64 ∧
    0 ≤ (ofSeed seed).output i ∧ (ofSeed seed).output i < 1

/-- No call ever meets it, and before the first the words fit for two seeds. -/
theorem meetsReference_iff (seed n : Nat) : MeetsReference seed n ↔ n = 0 ∧ seed ≤ 1 := by
  constructor
  · intro ⟨h0, h1, _⟩
    cases n with
    | zero => exact ⟨rfl, (ofSeed_lt_iff seed).mp ⟨h0, h1⟩⟩
    | succ n =>
      rcases after_ofSeed_large seed n with h | h
      · exact absurd h0 (not_lt.mpr h)
      · exact absurd h1 (not_lt.mpr h)
  · intro ⟨hn, hseed⟩
    subst hn
    obtain ⟨h0, h1⟩ := (ofSeed_lt_iff seed).mpr hseed
    exact ⟨h0, h1, fun i hi => absurd hi (Nat.not_lt_zero i)⟩

/-- The first number for the seed 0 is not the generator's. -/
theorem exists_departure : ¬ ∀ seed n, MeetsReference seed n := by
  intro h
  obtain ⟨-, -, houtput⟩ := h 0 1
  have hfirst := (houtput 0 Nat.one_pos).1
  revert hfirst
  decide +kernel

end SeededRandom

end Luchida
