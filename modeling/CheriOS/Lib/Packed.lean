import Mathlib.Data.Nat.Bitwise
/-!
# Packed — numbers of a fixed width in a string of bytes

Entry `c` takes the `w` bits from `s * c` on, lowest first, whether or not they end where a byte ends.  A write of an
entry is told by its bits: those of the entry are the ones of the number written, and the others stay.
-/
namespace Packed

variable {b b' : Nat → BitVec 8} {s w c d x : Nat}

/-- **Bit `n` of a string of bytes.** -/
def bit (b : Nat → BitVec 8) (n : Nat) : Bool := (b (n / 8)).getLsbD (n % 8)

/-- **Entry `c`** of the entries of `w` bits that are `s` bits apart. -/
def entry (b : Nat → BitVec 8) (s w c : Nat) : Nat := Nat.ofBits fun k : Fin w => bit b (s * c + k)

/-- **The bits of `b'` are those of `b` with `x` written to entry `c`.** -/
def Writes (s w c x : Nat) (b b' : Nat → BitVec 8) : Prop :=
  ∀ n, bit b' n = if s * c ≤ n ∧ n < s * c + w then x.testBit (n - s * c) else bit b n

/-- A byte is eight bits. -/
theorem bit_update (b : Nat → BitVec 8) (i : Nat) (y : BitVec 8) (n : Nat) :
    bit (Function.update b i y) n = if 8 * i ≤ n ∧ n < 8 * i + 8 then y.getLsbD (n - 8 * i) else bit b n := by
  unfold bit
  by_cases h : n / 8 = i
  · rw [h, Function.update_self, if_pos (by omega)]
    exact congrArg y.getLsbD (by omega)
  · rw [Function.update_of_ne h, if_neg (by omega)]

theorem getLsbD_eq_bit (b : Nat → BitVec 8) (i : Nat) {k : Nat} (hk : k < 8) : (b i).getLsbD k = bit b (8 * i + k) := by
  unfold bit
  rw [show (8 * i + k) / 8 = i by omega, show (8 * i + k) % 8 = k by omega]

theorem entry_lt (b : Nat → BitVec 8) (s w c : Nat) : entry b s w c < 2 ^ w := Nat.ofBits_lt_two_pow _

theorem testBit_entry (b : Nat → BitVec 8) (s w c k : Nat) :
    (entry b s w c).testBit k = (decide (k < w) && bit b (s * c + k)) := by
  rw [entry, Nat.testBit_ofBits]
  split <;> simp [*]

/-- **A number with the bits of the entry is the entry.** -/
theorem eq_entry (h : ∀ k, x.testBit k = (decide (k < w) && bit b (s * c + k))) : x = entry b s w c := by
  refine Nat.eq_of_testBit_eq fun k => ?_
  rw [h, testBit_entry]

theorem entry_congr (h : ∀ k < w, bit b' (s * c + k) = bit b (s * c + k)) : entry b' s w c = entry b s w c := by
  refine eq_entry fun k => ?_
  rw [testBit_entry]
  by_cases hk : k < w
  · rw [h k hk]
  · simp [hk]

namespace Writes

/-- **What is written is read**, cut off at the width. -/
theorem self (h : Writes s w c x b b') : entry b' s w c = x % 2 ^ w := by
  refine (eq_entry fun k => ?_).symm
  rw [Nat.testBit_mod_two_pow, h]
  by_cases hk : k < w
  · rw [if_pos ⟨by omega, by omega⟩, Nat.add_sub_cancel_left]
  · simp [hk]

/-- **The other entries stay.** -/
theorem other (h : Writes s w c x b b') (hw : w ≤ s) (hd : d ≠ c) : entry b' s w d = entry b s w d := by
  refine entry_congr fun k hk => ?_
  rw [h, if_neg]
  rintro ⟨hlo, hhi⟩
  rcases Nat.lt_or_gt_of_ne hd with hlt | hgt
  · have h1 : s * (d + 1) ≤ s * c := Nat.mul_le_mul_left s hlt
    rw [Nat.mul_succ] at h1
    omega
  · have h1 : s * (c + 1) ≤ s * d := Nat.mul_le_mul_left s hgt
    rw [Nat.mul_succ] at h1
    omega

end Writes
end Packed
