import CheriOS.Kernel.State
import CheriOS.Lib.Mips
/-!
# Msg — the message loop of an activation (`msg.S`, `msg.c`)

`msg_entry` looks the method number up in one of two tables, calls the method with the token saved in the global
`sync_token`, and returns with the token it loads from there.
-/
namespace CheriOS
namespace LibUser

open Kernel (RegFrame)
open Mips (Cpu)

/-- What the linker and the initialisers fix: the two tables and their lengths, and the capabilities in memory.
`capSizeBits` is 4 or 5, for 128-bit and 256-bit capabilities. -/
structure Image where
  msgMethods : BitVec 64
  msgMethodsNb : BitVec 64
  ctrlMethods : BitVec 64
  ctrlMethodsNb : BitVec 64
  capSizeBits : Nat
  mem : BitVec 64 → Cap

/-- The memory that changes: `sync_token` (`NULL` at first) and everything else. -/
structure Globals (σ : Type) where
  syncToken : Cap
  data : σ

/-- **What calling a capability does** to the registers and the rest of the memory.  A handler may read `sync_token`
and does not assign it. -/
abbrev Handler (σ : Type) := Cap → Cap → RegFrame → σ → RegFrame × σ

/-- The end of the handling of a message: the registers at `creturn`, and what was called. -/
structure Reply where
  regs : RegFrame
  called : Option Cap

/-- What `cjalr` can jump to. -/
def callable (c : Cap) : Bool := c.tag && !c.isSealed && c.hasPerms Cap.permExecute

variable {σ : Type}

/-- The registers at `creturn`: `sync_token` is restored. -/
def restore (regs : RegFrame) (syncToken : Cap) : RegFrame := regs.setCf .c1 syncToken

/-- The code at `overflow`. -/
def overflow (regs : RegFrame) : RegFrame := ((regs.setMf .v0 0).setMf .v1 0).setCf .c3 Cap.null

/-- The code up to `call`: the table, its length and the index. -/
def lookup (cpu : Cpu) (im : Image) (v0 : BitVec 64) : Option (BitVec 64 × BitVec 64 × BitVec 64) :=
  if v0.toInt < 0 then do
    let v0 ← Mips.sub cpu 0 v0
    return (im.ctrlMethods, im.ctrlMethodsNb, v0)
  else
    return (im.msgMethods, im.msgMethodsNb, v0)

/-- `msg_entry`, from a message in the registers to `creturn`; `none` is an exception on the way.  The temporaries
`$t0`, `$t1` and `$c17` are not kept. -/
def msgEntry (cpu : Cpu) (im : Image) (h : Handler σ) (regs : RegFrame) (g : Globals σ) : Option (Reply × Globals σ) := do
  let (t0, nb, v0) ← lookup cpu im (regs.mf .v0)
  let t1 ← Mips.sub cpu nb v0
  if t1.toInt ≤ 0 then
    return (⟨restore (overflow regs) g.syncToken, none⟩, g)
  else
    let g := { g with syncToken := regs.cf .c1 }
    let v0 := Mips.sll v0 im.capSizeBits
    let t0 ← Mips.add cpu t0 v0
    let c12 := im.mem t0
    if callable c12 then
      let (regs, data) := h c12 g.syncToken ((regs.setMf .v0 v0).setCf .c12 c12) g.data
      return (⟨restore regs g.syncToken, some c12⟩, { g with data := data })
    else none

end LibUser
end CheriOS
