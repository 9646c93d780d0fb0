import Mathlib.Data.Nat.Bitwise
import Mathlib.Data.Nat.Log

/- The generator xorshift128+ on two words of 64 bits, and the same shifts and exclusive-ors
   on numbers without a bound.

   On unbounded numbers the shift to the left drops nothing. The bits above the 64th come
   back with the next shift to the right, so that the two agree on one step exactly when bits
   41 to 57 of the first word are zero (`scramble_agrees_iff`), and the longer of the two
   numbers never gets shorter (`two_pow_le_scramble`). -/
namespace Xorshift

/-! ## Words of 64 bits -/

/-- The word that replaces `y`. -/
def scramble64 (x y : BitVec 64) : BitVec 64 :=
  let x := x ^^^ (x <<< 23)
  let x := x ^^^ (x >>> 17)
  let x := x ^^^ y
  x ^^^ (y >>> 26)

/-- The state. -/
structure Words where
  s0 : BitVec 64
  s1 : BitVec 64

def Words.next (w : Words) : Words := ⟨w.s1, scramble64 w.s0 w.s1⟩

/-- The number that a step gives: the sum of the words after it. -/
def Words.output (w : Words) : BitVec 64 := w.next.s0 + w.next.s1

/-! ## Numbers without a bound -/

/-- `scramble64`, with nothing cut off. -/
def scramble (x y : Nat) : Nat :=
  let x := x ^^^ (x <<< 23)
  let x := x ^^^ (x >>> 17)
  let x := x ^^^ y
  x ^^^ (y >>> 26)

theorem shiftRight_eq_zero_iff {x k : Nat} : x >>> k = 0 ↔ x < 2 ^ k := by
  rw [Nat.shiftRight_eq_div_pow, Nat.div_eq_zero_iff]
  have := Nat.two_pow_pos k
  omega

/-- The new number has 23 bits more than the first one, if the second is not longer still. -/
theorem two_pow_le_scramble {x y k : Nat} (hx : 2 ^ k ≤ x) (hxk : x < 2 ^ (k + 1))
    (hy : y < 2 ^ (k + 23)) : 2 ^ (k + 23) ≤ scramble x y := by
  rw [← not_lt, ← shiftRight_eq_zero_iff]
  have htop : x >>> k ≠ 0 := fun h => absurd (shiftRight_eq_zero_iff.mp h) (not_lt.mpr hx)
  have hlow : x >>> (k + 23) = 0 :=
    shiftRight_eq_zero_iff.mpr (hxk.trans_le (Nat.pow_le_pow_right Nat.two_pos (by omega)))
  -- of all that is combined only the shifted `x` reaches the bit `k + 23`
  have hleft : (x <<< 23) >>> (k + 23) = x >>> k := by
    rw [Nat.add_comm, Nat.shiftRight_add, Nat.shiftLeft_shiftRight]
  have hright : ∀ z, z < 2 ^ (k + 1 + 23) → (z >>> 17) >>> (k + 23) = 0 := by
    intro z hz
    rw [← Nat.shiftRight_add, shiftRight_eq_zero_iff]
    exact hz.trans_le (Nat.pow_le_pow_right Nat.two_pos (by omega))
  have hshift : x ^^^ (x <<< 23) < 2 ^ (k + 1 + 23) := by
    apply Nat.xor_lt_two_pow
    · exact hxk.trans_le (Nat.pow_le_pow_right Nat.two_pos (by omega))
    · rw [Nat.shiftLeft_eq, pow_add 2 (k + 1)]
      exact Nat.mul_lt_mul_of_pos_right hxk (Nat.two_pow_pos 23)
  have hy26 : (y >>> 26) >>> (k + 23) = 0 := by
    rw [← Nat.shiftRight_add, shiftRight_eq_zero_iff]
    exact hy.trans_le (Nat.pow_le_pow_right Nat.two_pos (by omega))
  have htop' : (x ^^^ (x <<< 23)) >>> (k + 23) = x >>> k := by
    rw [Nat.shiftRight_xor_distrib, hleft, hlow, Nat.zero_xor]
  unfold scramble
  dsimp only
  rw [Nat.shiftRight_xor_distrib, Nat.shiftRight_xor_distrib, Nat.shiftRight_xor_distrib, htop',
    hright _ hshift, shiftRight_eq_zero_iff.mpr hy, hy26]
  simpa using htop

/-- What the step on unbounded numbers has in the low 64 bits: the step on words, and the
bits of `x` that the shift to the left has lifted over the 64th and the shift to the right
brings back. -/
theorem ofNat_scramble {x y : Nat} (hx : x < 2 ^ 64) (hy : y < 2 ^ 64) :
    BitVec.ofNat 64 (scramble x y) =
      scramble64 (BitVec.ofNat 64 x) (BitVec.ofNat 64 y) ^^^
        BitVec.ofNat 64 ((x >>> 41) <<< 47) := by
  apply BitVec.eq_of_getLsbD_eq
  intro i hi
  unfold scramble scramble64
  have hxhigh : ∀ j, 64 ≤ j → x.testBit j = false := fun j hj =>
    Nat.testBit_lt_two_pow (hx.trans_le (Nat.pow_le_pow_right Nat.two_pos hj))
  have hyhigh : ∀ j, 64 ≤ j → y.testBit j = false := fun j hj =>
    Nat.testBit_lt_two_pow (hy.trans_le (Nat.pow_le_pow_right Nat.two_pos hj))
  simp only [BitVec.getLsbD_xor, BitVec.getLsbD_ushiftRight, BitVec.getLsbD_shiftLeft,
    BitVec.getLsbD_ofNat, Nat.testBit_xor, Nat.testBit_shiftRight, Nat.testBit_shiftLeft, hi,
    decide_true, Bool.true_and]
  have hyshift : (decide (26 + i < 64) && y.testBit (26 + i)) = y.testBit (26 + i) := by
    by_cases h : 26 + i < 64
    · simp [h]
    · simp [h, hyhigh (26 + i) (by omega)]
  have hge : ∀ j : Nat, decide (j ≥ 23) = !decide (j < 23) := by
    intro j
    rw [← decide_not]
    exact decide_eq_decide.mpr not_lt.symm
  rw [hyshift, hge, hge, decide_eq_true (show i - 23 < 64 by omega),
    decide_eq_true (show 17 + i - 23 < 64 by omega)]
  by_cases hlow : i < 47
  · -- below bit 47 the shift to the right takes from the low 64 bits
    rw [decide_eq_true (show 17 + i < 64 by omega), decide_eq_false (show ¬ i ≥ 47 by omega)]
    simp
  · rw [decide_eq_false (show ¬ 17 + i < 64 by omega), decide_eq_true (show i ≥ 47 by omega),
      hxhigh (17 + i) (by omega), show 41 + (i - 47) = 17 + i - 23 by omega]
    rw [decide_eq_false (show ¬ 17 + i < 23 by omega)]
    simp only [Bool.not_false, Bool.true_and, Bool.false_and, Bool.xor_false, Bool.false_xor]
    cases x.testBit (17 + i - 23) <;> simp

/-- The two steps agree when there is nothing to bring back. -/
theorem scramble_agrees_iff {x y : Nat} (hx : x < 2 ^ 64) (hy : y < 2 ^ 64) :
    BitVec.ofNat 64 (scramble x y) = scramble64 (BitVec.ofNat 64 x) (BitVec.ofNat 64 y) ↔
      (x >>> 41) % 2 ^ 17 = 0 := by
  have hleak : BitVec.ofNat 64 ((x >>> 41) <<< 47) = 0#64 ↔ (x >>> 41) % 2 ^ 17 = 0 := by
    rw [← BitVec.toNat_inj, BitVec.toNat_ofNat, BitVec.toNat_ofNat, Nat.shiftLeft_eq,
      show (2 : Nat) ^ 64 = 2 ^ 17 * 2 ^ 47 from rfl, Nat.mul_mod_mul_right]
    simp
  rw [ofNat_scramble hx hy]
  conv_lhs => rhs; rw [← BitVec.xor_zero (x := scramble64 _ _)]
  rw [BitVec.xor_right_inj, hleak]

end Xorshift
