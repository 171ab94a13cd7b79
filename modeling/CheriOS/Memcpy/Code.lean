import CheriOS.Cap
import CheriOS.Lib.DelaySlot
/-!
# Code — `memcpy_c.S` and `memcpy_hack.S`

The two routines are one text with two constants: the size of what they copy at a time, and the instructions that load
and store it.  The instructions are those of CHERI-MIPS that the text uses.  A capability is `w` bytes and a tag, in
memory as in a register; what a register's bits stand for is `decode`, which the format of the processor decides.
-/
namespace CheriOS
namespace Memcpy

open DelaySlot (Flow)

/-! ## The machine -/

structure CapBits (w : Nat) where
  tag : Bool
  bytes : Fin w → BitVec 8

/-- Bytes by their address, tags by the number of the granule of `w` bytes. -/
structure Memory where
  byte : Nat → BitVec 8
  tag : Nat → Bool

/-- A store of `n` bytes at `a`, in one granule, whose tag it decides. -/
def Memory.store (m : Memory) (w a : Nat) {n : Nat} (bytes : Fin n → BitVec 8) (t : Bool) : Memory where
  byte := fun x => if h : a ≤ x ∧ x < a + n then bytes ⟨x - a, by omega⟩ else m.byte x
  tag := fun g => if g = a / w then t else m.tag g

/-- The general registers of the text; `tmp` is `$at`, the others are named after `$4`, `$5`, `$6`, `$12`, `$13`. -/
inductive Reg where
  | zero | tmp | v0 | v1 | a0 | a1 | a2 | r12 | r13 | t3 | t8
  deriving DecidableEq, Repr

inductive CReg where
  | c0 | c3 | c4 | c5
  deriving DecidableEq, Repr

structure Regs where
  tmp : BitVec 64
  v0 : BitVec 64
  v1 : BitVec 64
  a0 : BitVec 64
  a1 : BitVec 64
  a2 : BitVec 64
  r12 : BitVec 64
  r13 : BitVec 64
  t3 : BitVec 64
  t8 : BitVec 64

structure State (w : Nat) where
  regs : Regs
  c0 : CapBits w
  c3 : CapBits w
  c4 : CapBits w
  c5 : CapBits w
  mem : Memory

variable {w : Nat}

def Regs.get (r : Regs) : Reg → BitVec 64
  | .zero => 0
  | .tmp => r.tmp
  | .v0 => r.v0
  | .v1 => r.v1
  | .a0 => r.a0
  | .a1 => r.a1
  | .a2 => r.a2
  | .r12 => r.r12
  | .r13 => r.r13
  | .t3 => r.t3
  | .t8 => r.t8

def Regs.set (r : Regs) (x : BitVec 64) : Reg → Regs
  | .zero => r
  | .tmp => { r with tmp := x }
  | .v0 => { r with v0 := x }
  | .v1 => { r with v1 := x }
  | .a0 => { r with a0 := x }
  | .a1 => { r with a1 := x }
  | .a2 => { r with a2 := x }
  | .r12 => { r with r12 := x }
  | .r13 => { r with r13 := x }
  | .t3 => { r with t3 := x }
  | .t8 => { r with t8 := x }

def State.get (s : State w) (r : Reg) : BitVec 64 := s.regs.get r

def State.set (s : State w) (r : Reg) (x : BitVec 64) : State w := { s with regs := s.regs.set x r }

def State.getc (s : State w) : CReg → CapBits w
  | .c0 => s.c0
  | .c3 => s.c3
  | .c4 => s.c4
  | .c5 => s.c5

def State.setc (s : State w) (x : CapBits w) : CReg → State w
  | .c0 => { s with c0 := x }
  | .c3 => { s with c3 := x }
  | .c4 => { s with c4 := x }
  | .c5 => { s with c5 := x }

/-! ## The instructions -/

/-- Branch targets are places in the text; immediate values are extended to the registers' size. -/
inductive Instr where
  | nop
  | ret
  | beq (rs rt : Reg) (target : Nat)
  | bne (rs rt : Reg) (target : Nat)
  | bltz (rs : Reg) (target : Nat)
  | beqzl (rs : Reg) (target : Nat)
  | dadd (rd rs rt : Reg)
  | dsub (rd rs rt : Reg)
  | and (rd rs rt : Reg)
  | daddi (rt rs : Reg) (imm : BitVec 64)
  | addi (rt rs : Reg) (imm : BitVec 32)
  | andi (rt rs : Reg) (imm : BitVec 64)
  | cgetbase (rd : Reg) (cb : CReg)
  | cgetoffset (rd : Reg) (cb : CReg)
  | cgetdefault (cd : CReg)
  | ctoptr (rd : Reg) (cb ct : CReg)
  | clb (rd rt : Reg) (imm : BitVec 64) (cb : CReg)
  | csb (rs rt : Reg) (imm : BitVec 64) (cb : CReg)
  | cld (rd rt : Reg) (imm : BitVec 64) (cb : CReg)
  | csd (rs rt : Reg) (imm : BitVec 64) (cb : CReg)
  | clc (cd : CReg) (rt : Reg) (imm : BitVec 64) (cb : CReg)
  | csc (cs : CReg) (rt : Reg) (imm : BitVec 64) (cb : CReg)

/-- The place that `ret` goes to is not in the text. -/
def caller : Nat := 2 ^ 16

/-- An access of `n` bytes at the offset `i` from where `c` points, with the permissions `p`. -/
def permits (c : Cap) (p : BitVec 32) (i : BitVec 64) (n : Nat) : Bool :=
  c.tag && !c.isSealed && c.hasPerms p && decide ((c.offset + i).toNat + n ≤ c.len.toNat)

def reach (c : Cap) (i : BitVec 64) : Nat := (c.addr + i).toNat

/-- The bytes of a double word, the most significant first. -/
def doubleOf (b : Fin 8 → BitVec 8) : BitVec 64 :=
  b 0 ++ b 1 ++ b 2 ++ b 3 ++ b 4 ++ b 5 ++ b 6 ++ b 7

def byteOf (x : BitVec 64) (i : Fin 8) : BitVec 8 := x.extractLsb' ((7 - i.val) * 8) 8

/-- `none` where the instruction traps: on a signed overflow, and on an access that the capability does not permit. -/
def exec (decode : CapBits w → Cap) (i : Instr) (s : State w) : Option (State w × Flow) :=
  match i with
  | .nop => some (s, .next)
  | .ret => some (s, .branch caller)
  | .beq rs rt target => some (s, if s.get rs = s.get rt then .branch target else .next)
  | .bne rs rt target => some (s, if s.get rs = s.get rt then .next else .branch target)
  | .bltz rs target => some (s, if (s.get rs).toInt < 0 then .branch target else .next)
  | .beqzl rs target => some (s, if s.get rs = 0 then .branch target else .skip)
  | .dadd rd rs rt =>
    if (s.get rs).saddOverflow (s.get rt) then none else some (s.set rd (s.get rs + s.get rt), .next)
  | .dsub rd rs rt =>
    if (s.get rs).ssubOverflow (s.get rt) then none else some (s.set rd (s.get rs - s.get rt), .next)
  | .and rd rs rt => some (s.set rd (s.get rs &&& s.get rt), .next)
  | .daddi rt rs imm => if (s.get rs).saddOverflow imm then none else some (s.set rt (s.get rs + imm), .next)
  | .addi rt rs imm =>
    if ((s.get rs).setWidth 32).saddOverflow imm then none
    else some (s.set rt (((s.get rs).setWidth 32 + imm).signExtend 64), .next)
  | .andi rt rs imm => some (s.set rt (s.get rs &&& imm), .next)
  | .cgetbase rd cb => some (s.set rd (decode (s.getc cb)).base, .next)
  | .cgetoffset rd cb => some (s.set rd (decode (s.getc cb)).offset, .next)
  | .cgetdefault cd => some (s.setc s.c0 cd, .next)
  | .ctoptr rd cb ct =>
    if (decode (s.getc ct)).tag && !(decode (s.getc ct)).isSealed then
      let x := if (decode (s.getc cb)).tag then (decode (s.getc cb)).addr - (decode (s.getc ct)).base else 0
      some (s.set rd x, .next)
    else none
  | .clb rd rt imm cb =>
    let c := decode (s.getc cb)
    let i := s.get rt + imm
    if permits c Cap.permLoad i 1 then some (s.set rd ((s.mem.byte (reach c i)).signExtend 64), .next) else none
  | .csb rs rt imm cb =>
    let c := decode (s.getc cb)
    let i := s.get rt + imm
    if permits c Cap.permStore i 1 then
      some ({ s with mem := s.mem.store w (reach c i) (fun _ : Fin 1 => (s.get rs).setWidth 8) false }, .next)
    else none
  | .cld rd rt imm cb =>
    let c := decode (s.getc cb)
    let i := s.get rt + imm
    if permits c Cap.permLoad i 8 && reach c i % 8 == 0 then
      some (s.set rd (doubleOf fun j => s.mem.byte (reach c i + j)), .next)
    else none
  | .csd rs rt imm cb =>
    let c := decode (s.getc cb)
    let i := s.get rt + imm
    if permits c Cap.permStore i 8 && reach c i % 8 == 0 then
      some ({ s with mem := s.mem.store w (reach c i) (byteOf (s.get rs)) false }, .next)
    else none
  | .clc cd rt imm cb =>
    let c := decode (s.getc cb)
    let i := s.get rt + imm
    if permits c (Cap.permLoad ||| Cap.permLoadCap) i w && reach c i % w == 0 then
      some (s.setc ⟨s.mem.tag (reach c i / w), fun j => s.mem.byte (reach c i + j)⟩ cd, .next)
    else none
  | .csc cs rt imm cb =>
    let c := decode (s.getc cb)
    let i := s.get rt + imm
    let x := s.getc cs
    if permits c (Cap.permStore ||| Cap.permStoreCap) i w && reach c i % w == 0 &&
        (!x.tag || (decode x).hasPerms Cap.permGlobal || c.hasPerms Cap.permStoreLocalCap) then
      some ({ s with mem := s.mem.store w (reach c i) x.bytes x.tag }, .next)
    else none

/-! ## The text -/

/-- The text, for a `CAP_SIZE` and the two instructions of its loop over whole capabilities. -/
def text (capSize : BitVec 64) (load store : Instr) : List Instr :=
  let mask := capSize - 1
  let aligned_copy := 28
  let memcpy_return := 43
  let slow_memcpy_loop := 45
  [.beq .a0 .zero memcpy_return,          -- 0
   .cgetbase .v0 .c3,
   .cgetoffset .tmp .c3,
   .dadd .v0 .v0 .tmp,
   .cgetbase .v1 .c4,
   .cgetoffset .tmp .c4,
   .dadd .v1 .v1 .tmp,
   .andi .r12 .v0 mask,
   .cgetdefault .c5,
   .ctoptr .v0 .c5 .c3,
   .andi .r13 .v1 mask,
   .daddi .a1 .zero 0,
   .bne .r12 .r13 slow_memcpy_loop,
   .andi .t8 .a0 mask,
   .dsub .v1 .zero .r12,                  -- 14: fast_path
   .daddi .v1 .v1 capSize,
   .andi .v1 .v1 mask,
   .dsub .a2 .a0 .v1,
   .daddi .a2 .a2 (-capSize),
   .bltz .a2 slow_memcpy_loop,
   .nop,
   .beqzl .v1 aligned_copy,
   .dsub .a2 .a0 .a1,
   .clb .a2 .a1 0 .c4,                    -- 23: unaligned_start
   .daddi .a1 .a1 1,
   .bne .v1 .a1 23,
   .csb .a2 .a1 (-1) .c3,
   .dsub .a2 .a0 .a1,
   .addi .tmp .zero (-(capSize.setWidth 32)), -- 28: aligned_copy
   .and .a2 .a2 .tmp,
   .dadd .a2 .a2 .a1,
   load,                                  -- 31: copy_caps
   .daddi .a1 .a1 capSize,
   .bne .a1 .a2 31,
   store,
   .dsub .v1 .a0 .a2,
   .beqzl .v1 memcpy_return,
   .nop,
   .dadd .v1 .a1 .v1,
   .clb .a2 .a1 0 .c4,                    -- 39: unaligned_end
   .daddi .a1 .a1 1,
   .bne .v1 .a1 39,
   .csb .a2 .a1 (-1) .c3,
   .ret,                                  -- 43: the return
   .nop,
   .clb .a2 .a1 0 .c4,                    -- 45: slow_memcpy_loop
   .daddi .a1 .a1 1,
   .bne .a0 .a1 45,
   .csb .a2 .a1 (-1) .c3,
   .ret,
   .nop]

def memcpyC (w : Nat) : List Instr :=
  let capSize := BitVec.ofNat 64 w
  text capSize (.clc .c5 .a1 0 .c4) (.csc .c5 .a1 (-capSize) .c3)

def memcpyHack : List Instr := text (64 / 8) (.cld .t3 .a1 0 .c4) (.csd .t3 .a1 (-(64 / 8)) .c3)

end Memcpy
end CheriOS
