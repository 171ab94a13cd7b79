import Mathlib.Algebra.Group.Nat.Defs
import Mathlib.Tactic.Common
/-!
# Mask — the bits of a word as a set

A word of `w` bits is the set of the numbers below `w` whose bits are set.  Clearing and setting one bit are removing
and adding one element; clearing the low bits rounds the number down.
-/
namespace Mask

variable {w : Nat} {m : BitVec w} {i j : Nat}

/-- **Clearing a bit removes it.** -/
theorem getLsbD_clear : (m &&& ~~~((1 : BitVec w) <<< i)).getLsbD j = (m.getLsbD j && decide (j ≠ i)) := by
  have hone : (1 : BitVec w) <<< i = BitVec.twoPow w i := (BitVec.twoPow_eq w i).symm
  rw [hone, BitVec.getLsbD_and, BitVec.getLsbD_not, BitVec.getLsbD_twoPow]
  by_cases hj : j < w
  · by_cases hi : j = i
    · subst hi; simp [hj]
    · simp [hj, hi, Ne.symm hi]
  · simp [BitVec.getLsbD_of_ge m j (Nat.le_of_not_lt hj)]

/-- **Setting a bit adds it.** -/
theorem getLsbD_set : (m ||| ((1 : BitVec w) <<< i)).getLsbD j = (m.getLsbD j || decide (j = i ∧ j < w)) := by
  have hone : (1 : BitVec w) <<< i = BitVec.twoPow w i := (BitVec.twoPow_eq w i).symm
  rw [hone, BitVec.getLsbD_or, BitVec.getLsbD_twoPow]
  by_cases hj : j < w <;> by_cases hi : j = i
  · subst hi; simp [hj]
  · simp [hi, Ne.symm hi]
  · subst hi; simp [hj]
  · simp [hi, Ne.symm hi]

/-- **Clearing the low `k` bits rounds down** to a multiple of `2 ^ k`. -/
theorem toNat_and_not_low {k : Nat} : (m &&& ~~~(BitVec.ofNat w (2 ^ k - 1))).toNat = m.toNat / 2 ^ k * 2 ^ k := by
  have hshift : m &&& ~~~(BitVec.ofNat w (2 ^ k - 1)) = (m >>> k) <<< k := by
    apply BitVec.eq_of_getLsbD_eq
    intro i hi
    rw [BitVec.getLsbD_and, BitVec.getLsbD_not, BitVec.getLsbD_ofNat, Nat.testBit_two_pow_sub_one,
      BitVec.getLsbD_shiftLeft, BitVec.getLsbD_ushiftRight]
    rcases Nat.lt_or_ge i k with hik | hik
    · simp [hi, hik]
    · simp [hi, Nat.not_lt.2 hik, Nat.add_sub_cancel' hik]
  have hle : m.toNat / 2 ^ k * 2 ^ k < 2 ^ w := Nat.lt_of_le_of_lt (Nat.div_mul_le_self _ _) m.isLt
  rw [hshift, BitVec.toNat_shiftLeft, BitVec.toNat_ushiftRight, Nat.shiftLeft_eq, Nat.shiftRight_eq_div_pow,
    Nat.mod_eq_of_lt hle]

/-- **The low `k` bits** are the remainder by `2 ^ k`. -/
theorem toNat_and_low {k : Nat} (hk : k ≤ w) : (m &&& BitVec.ofNat w (2 ^ k - 1)).toNat = m.toNat % 2 ^ k := by
  have hlt : 2 ^ k - 1 < 2 ^ w :=
    Nat.lt_of_lt_of_le (Nat.sub_lt (Nat.two_pow_pos k) Nat.one_pos) (Nat.pow_le_pow_right (by decide) hk)
  rw [BitVec.toNat_and, BitVec.toNat_ofNat, Nat.mod_eq_of_lt hlt, Nat.and_two_pow_sub_one_eq_mod]

end Mask
