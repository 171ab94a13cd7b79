import CheriOS.Memcpy.Code
import Mathlib.Tactic.FinCases
/-!
# Exec — instructions that do not trap

An instruction traps on a signed overflow and on an access that is not permitted.  What the text adds and subtracts are
lengths below `2 ^ 63`: of these a register holds the number itself, and an instruction does to the numbers what its
name says.
-/
namespace CheriOS
namespace Memcpy

open DelaySlot (Flow)

variable {w : Nat} {decode : CapBits w → Cap} {s : State w} {rd rs rt : Reg} {cb cd : CReg} {imm : BitVec 64}

/-! ## What does not overflow, and what is permitted -/

theorem exec_dadd (h : (s.get rs).saddOverflow (s.get rt) = false) :
    exec decode (.dadd rd rs rt) s = some (s.set rd (s.get rs + s.get rt), .next) :=
  if_neg (by simp [h])

theorem exec_dadd_none (h : (s.get rs).saddOverflow (s.get rt) = true) : exec decode (.dadd rd rs rt) s = none :=
  if_pos h

theorem exec_dsub (h : (s.get rs).ssubOverflow (s.get rt) = false) :
    exec decode (.dsub rd rs rt) s = some (s.set rd (s.get rs - s.get rt), .next) :=
  if_neg (by simp [h])

theorem exec_daddi (h : (s.get rs).saddOverflow imm = false) :
    exec decode (.daddi rt rs imm) s = some (s.set rt (s.get rs + imm), .next) :=
  if_neg (by simp [h])

theorem exec_clb (h : permits (decode (s.getc cb)) Cap.permLoad (s.get rt + imm) 1 = true) :
    exec decode (.clb rd rt imm cb) s =
      some (s.set rd ((s.mem.byte (reach (decode (s.getc cb)) (s.get rt + imm))).signExtend 64), .next) :=
  if_pos h

theorem exec_csb (h : permits (decode (s.getc cb)) Cap.permStore (s.get rt + imm) 1 = true) :
    exec decode (.csb rs rt imm cb) s =
      some ({ s with mem := (s.mem.store w (reach (decode (s.getc cb)) (s.get rt + imm))
        (fun _ : Fin 1 => (s.get rs).setWidth 8) false) }, .next) :=
  if_pos h

/-! ## Registers as integers -/

section

variable {a b : Int}

theorem toInt_ofInt (h : -2 ^ 63 ≤ a) (h' : a < 2 ^ 63) : (BitVec.ofInt 64 a).toInt = a :=
  BitVec.toInt_ofInt_eq_self (by decide) h h'

theorem sadd_ofInt (ha : -2 ^ 63 ≤ a ∧ a < 2 ^ 63) (hb : -2 ^ 63 ≤ b ∧ b < 2 ^ 63)
    (hab : -2 ^ 63 ≤ a + b ∧ a + b < 2 ^ 63) : (BitVec.ofInt 64 a).saddOverflow (BitVec.ofInt 64 b) = false := by
  unfold BitVec.saddOverflow
  rw [toInt_ofInt ha.1 ha.2, toInt_ofInt hb.1 hb.2]
  simp only [Bool.or_eq_false_iff, decide_eq_false_iff_not]
  omega

theorem ssub_ofInt (ha : -2 ^ 63 ≤ a ∧ a < 2 ^ 63) (hb : -2 ^ 63 ≤ b ∧ b < 2 ^ 63)
    (hab : -2 ^ 63 ≤ a - b ∧ a - b < 2 ^ 63) : (BitVec.ofInt 64 a).ssubOverflow (BitVec.ofInt 64 b) = false := by
  unfold BitVec.ssubOverflow
  rw [toInt_ofInt ha.1 ha.2, toInt_ofInt hb.1 hb.2]
  simp only [Bool.or_eq_false_iff, decide_eq_false_iff_not]
  omega

theorem ofInt_sub : BitVec.ofInt 64 a - BitVec.ofInt 64 b = BitVec.ofInt 64 (a - b) := by
  rw [BitVec.sub_eq_add_neg, ← BitVec.ofInt_neg, ← BitVec.ofInt_add]
  rfl

end

/-! ## Registers as lengths -/

section

variable {a b target : Nat}

theorem ofNat_eq_iff (ha : a < 2 ^ 64) (hb : b < 2 ^ 64) : BitVec.ofNat 64 a = BitVec.ofNat 64 b ↔ a = b := by
  rw [← BitVec.toNat_inj, BitVec.toNat_ofNat, BitVec.toNat_ofNat, Nat.mod_eq_of_lt ha, Nat.mod_eq_of_lt hb]

theorem ofNat_add_neg (k z : Nat) : BitVec.ofNat 64 (k + z) + -BitVec.ofNat 64 z = BitVec.ofNat 64 k := by
  rw [BitVec.ofNat_add, BitVec.add_assoc, BitVec.add_right_neg, BitVec.add_zero]

theorem sadd_ofNat (h : a + b < 2 ^ 63) : (BitVec.ofNat 64 a).saddOverflow (BitVec.ofNat 64 b) = false :=
  sadd_ofInt (a := a) (b := b) (by omega) (by omega) (by omega)

theorem exec_dadd_ofNat (ha : s.get rs = BitVec.ofNat 64 a) (hb : s.get rt = BitVec.ofNat 64 b) (h : a + b < 2 ^ 63) :
    exec decode (.dadd rd rs rt) s = some (s.set rd (BitVec.ofNat 64 (a + b)), .next) := by
  have hov : (s.get rs).saddOverflow (s.get rt) = false := by
    rw [ha, hb]
    exact sadd_ofNat h
  rw [exec_dadd hov, ha, hb, ← BitVec.ofNat_add]

theorem exec_daddi_ofNat (ha : s.get rs = BitVec.ofNat 64 a) (h : a + b < 2 ^ 63) :
    exec decode (.daddi rt rs (BitVec.ofNat 64 b)) s = some (s.set rt (BitVec.ofNat 64 (a + b)), .next) := by
  have hov : (s.get rs).saddOverflow (BitVec.ofNat 64 b) = false := by
    rw [ha]
    exact sadd_ofNat h
  rw [exec_daddi hov, ha, ← BitVec.ofNat_add]

theorem exec_dsub_ofNat (ha : s.get rs = BitVec.ofNat 64 a) (hb : s.get rt = BitVec.ofNat 64 b) (hle : b ≤ a)
    (h : a < 2 ^ 63) : exec decode (.dsub rd rs rt) s = some (s.set rd (BitVec.ofNat 64 (a - b)), .next) := by
  have hov : (s.get rs).ssubOverflow (s.get rt) = false := by
    rw [ha, hb]
    exact ssub_ofInt (a := a) (b := b) (by omega) (by omega) (by omega)
  have hsub : BitVec.ofNat 64 a - BitVec.ofNat 64 b = BitVec.ofNat 64 (a - b) := by
    refine (ofInt_sub (a := a) (b := b)).trans ?_
    rw [← Int.ofNat_sub hle]
    rfl
  rw [exec_dsub hov, ha, hb, hsub]

theorem exec_bne_ofNat (ha : s.get rs = BitVec.ofNat 64 a) (hb : s.get rt = BitVec.ofNat 64 b) (hla : a < 2 ^ 64)
    (hlb : b < 2 ^ 64) :
    exec decode (.bne rs rt target) s = some (s, if a = b then .next else .branch target) := by
  show some (s, if s.get rs = s.get rt then Flow.next else .branch target) = _
  rw [ha, hb, if_congr (ofNat_eq_iff hla hlb) rfl rfl]

theorem exec_beqzl_ofNat (ha : s.get rs = BitVec.ofNat 64 a) (hla : a < 2 ^ 64) :
    exec decode (.beqzl rs target) s = some (s, if a = 0 then .branch target else .skip) := by
  have hzero : s.get rs = 0 ↔ a = 0 := by
    rw [ha]
    exact ofNat_eq_iff hla (by decide)
  show some (s, if s.get rs = 0 then Flow.branch target else .skip) = _
  rw [if_congr hzero rfl rfl]

end

/-! ## Bytes of a register -/

theorem setWidth_signExtend (b : BitVec 8) : (b.signExtend 64).setWidth 8 = b := by
  decide +revert

/-- The last byte is behind the others. -/
theorem extract_append {v : Nat} (x : BitVec v) (y : BitVec 8) (j : Nat) :
    (x ++ y).extractLsb' (j + 8) 8 = x.extractLsb' j 8 := by
  rw [BitVec.extractLsb'_append_eq_of_le (Nat.le_add_left 8 j), Nat.add_sub_cancel]

theorem byteOf_doubleOf (b : Fin 8 → BitVec 8) (i : Fin 8) : byteOf (doubleOf b) i = b i := by
  show BitVec.extractLsb' (n := 8 + 8 + 8 + 8 + 8 + 8 + 8 + 8) ((7 - i.val) * 8) 8
    (b 0 ++ b 1 ++ b 2 ++ b 3 ++ b 4 ++ b 5 ++ b 6 ++ b 7) = b i
  fin_cases i
  · show BitVec.extractLsb' (0 + 8 + 8 + 8 + 8 + 8 + 8 + 8) 8 _ = b 0
    iterate 7 rw [extract_append]
    exact BitVec.extractLsb'_eq_self
  · show BitVec.extractLsb' (0 + 8 + 8 + 8 + 8 + 8 + 8) 8 _ = b 1
    iterate 6 rw [extract_append]
    exact BitVec.extractLsb'_append_eq_right
  · show BitVec.extractLsb' (0 + 8 + 8 + 8 + 8 + 8) 8 _ = b 2
    iterate 5 rw [extract_append]
    exact BitVec.extractLsb'_append_eq_right
  · show BitVec.extractLsb' (0 + 8 + 8 + 8 + 8) 8 _ = b 3
    iterate 4 rw [extract_append]
    exact BitVec.extractLsb'_append_eq_right
  · show BitVec.extractLsb' (0 + 8 + 8 + 8) 8 _ = b 4
    iterate 3 rw [extract_append]
    exact BitVec.extractLsb'_append_eq_right
  · show BitVec.extractLsb' (0 + 8 + 8) 8 _ = b 5
    iterate 2 rw [extract_append]
    exact BitVec.extractLsb'_append_eq_right
  · show BitVec.extractLsb' (0 + 8) 8 _ = b 6
    rw [extract_append]
    exact BitVec.extractLsb'_append_eq_right
  · exact BitVec.extractLsb'_append_eq_right

end Memcpy
end CheriOS
