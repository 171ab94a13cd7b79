import Mathlib.Data.BitVec
import Mathlib.Tactic.Common
/-!
# Mips — word instructions on 64-bit registers

`add` and `sub` are defined for operands that are sign-extended words; they trap on overflow.  For other operands the
architecture leaves the result open, a trap included, so that a processor (`Cpu`) is what it makes of them.  `sll`
takes the low word of any operand.
-/
namespace Mips

/-- What a processor gives for operands of `add` and `sub` that are not words; `none` is a trap. -/
structure Cpu where
  add : BitVec 64 → BitVec 64 → Option (BitVec 64)
  sub : BitVec 64 → BitVec 64 → Option (BitVec 64)

/-- Values a signed word can have. -/
def FitsWord (n : Int) : Prop := -2 ^ 31 ≤ n ∧ n < 2 ^ 31

instance (n : Int) : Decidable (FitsWord n) := inferInstanceAs (Decidable (_ ∧ _))

/-- A sign-extended word. -/
def IsWord (x : BitVec 64) : Prop := FitsWord x.toInt

instance (x : BitVec 64) : Decidable (IsWord x) := inferInstanceAs (Decidable (FitsWord _))

/-- A result that a word has to hold. -/
def wordResult (n : Int) : Option (BitVec 64) := if FitsWord n then some (BitVec.ofInt 64 n) else none

def add (cpu : Cpu) (a b : BitVec 64) : Option (BitVec 64) :=
  if IsWord a ∧ IsWord b then wordResult (a.toInt + b.toInt) else cpu.add a b

def sub (cpu : Cpu) (a b : BitVec 64) : Option (BitVec 64) :=
  if IsWord a ∧ IsWord b then wordResult (a.toInt - b.toInt) else cpu.sub a b

def sll (x : BitVec 64) (k : Nat) : BitVec 64 := (x.setWidth 32 <<< k).signExtend 64

variable {cpu : Cpu} {a b x : BitVec 64} {n : Int}

theorem toInt_ofInt_word (h : FitsWord n) : (BitVec.ofInt 64 n).toInt = n := by
  obtain ⟨h1, h2⟩ := h
  rw [BitVec.toInt_ofInt, Int.bmod_eq_of_le] <;> omega

theorem wordResult_some (h : FitsWord n) : wordResult n = some (BitVec.ofInt 64 n) := if_pos h

theorem sub_words (ha : IsWord a) (hb : IsWord b) : sub cpu a b = wordResult (a.toInt - b.toInt) := if_pos ⟨ha, hb⟩

theorem add_words (ha : IsWord a) (hb : IsWord b) : add cpu a b = wordResult (a.toInt + b.toInt) := if_pos ⟨ha, hb⟩

theorem sub_other (hb : ¬ IsWord b) : sub cpu a b = cpu.sub a b := if_neg fun h => hb h.2

/-- **A shift that stays in the positive words** multiplies. -/
theorem toNat_sll {k : Nat} (h : x.toNat * 2 ^ k < 2 ^ 31) : (sll x k).toNat = x.toNat * 2 ^ k := by
  have hpos : 0 < 2 ^ k := Nat.two_pow_pos k
  have hx : x.toNat < 2 ^ 31 := Nat.lt_of_le_of_lt (Nat.le_mul_of_pos_right _ hpos) h
  have hw : (x.setWidth 32 <<< k).toNat = x.toNat * 2 ^ k := by
    rw [BitVec.toNat_shiftLeft, BitVec.toNat_setWidth, Nat.shiftLeft_eq, Nat.mod_eq_of_lt (a := x.toNat) (by omega),
      Nat.mod_eq_of_lt (by omega)]
  have hmsb : (x.setWidth 32 <<< k).msb = false := by
    rw [BitVec.msb_eq_decide, hw]
    simpa using h
  unfold sll
  rw [BitVec.signExtend_eq_setWidth_of_msb_false hmsb, BitVec.toNat_setWidth, hw]
  exact Nat.mod_eq_of_lt (by omega)

theorem toInt_of_lt (h : x.toNat < 2 ^ 31) : x.toInt = x.toNat :=
  BitVec.toInt_eq_toNat_of_lt (by omega)

theorem toNat_of_nonneg (h : 0 ≤ x.toInt) : x.toNat = x.toInt.natAbs := by
  have hx := BitVec.toInt_eq_toNat_cond x
  split at hx <;> omega

theorem isWord_of_lt (h : x.toNat < 2 ^ 31) : IsWord x := by
  unfold IsWord FitsWord
  rw [toInt_of_lt h]
  omega

end Mips
