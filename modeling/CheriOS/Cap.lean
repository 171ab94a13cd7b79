import Mathlib.Data.BitVec
/-!
# Cap — capabilities, as the code sees them

A capability is the record its instructions read and write: tag, seal, object type, permissions and bounds.  The
kernel's two root capabilities are those the boot code leaves: `ddc` is the whole address space without execute, `pcc`
the whole address space without store (`boot_init.S`, `init_init.S`: W^X for pointers).  Bounds are exact.
-/
namespace CheriOS

structure Cap where
  tag : Bool
  isSealed : Bool
  otype : Nat
  perms : BitVec 32
  base : BitVec 64
  len : BitVec 64
  offset : BitVec 64
  deriving DecidableEq, Repr

namespace Cap

/-! ## Permission bits (`cheric.h`) -/

def permGlobal : BitVec 32 := 1 <<< 0
def permExecute : BitVec 32 := 1 <<< 1
def permLoad : BitVec 32 := 1 <<< 2
def permStore : BitVec 32 := 1 <<< 3
def permLoadCap : BitVec 32 := 1 <<< 4
def permStoreCap : BitVec 32 := 1 <<< 5
def permStoreLocalCap : BitVec 32 := 1 <<< 6
def permSoft1 : BitVec 32 := 1 <<< 15

/-- Every permission a capability can have: eleven architectural bits and four software ones. -/
def permAll : BitVec 32 := 0x787ff

/-! ## Instructions -/

def null : Cap := ⟨false, false, 0, 0, 0, 0, 0⟩

def addr (c : Cap) : BitVec 64 := c.base + c.offset

/-- `c == NULL`: tags and addresses are compared. -/
def isNull (c : Cap) : Bool := !c.tag && c.addr == 0

def hasPerms (c : Cap) (p : BitVec 32) : Bool := c.perms &&& p == p

def setOffset (c : Cap) (o : BitVec 64) : Cap := { c with offset := o }

def incOffset (c : Cap) (d : BitVec 64) : Cap := { c with offset := c.offset + d }

/-- Clearing permissions traps on an untagged or a sealed capability. -/
def andPerm (c : Cap) (p : BitVec 32) : Option Cap :=
  if c.tag && !c.isSealed then some { c with perms := c.perms &&& p } else none

/-- New bounds start at the address and must lie in the old ones. -/
def setBounds (c : Cap) (n : BitVec 64) : Option Cap :=
  if c.tag && !c.isSealed && decide (c.offset.toNat + n.toNat ≤ c.len.toNat) then
    some { c with base := c.addr, len := n, offset := 0 }
  else none

/-- Sealing with an authority that covers `otype`. -/
def withSeal (c : Cap) (otype : Nat) : Option Cap :=
  if c.tag && !c.isSealed then some { c with isSealed := true, otype := otype } else none

/-- Unsealing with an authority that covers `otype`. -/
def withoutSeal (c : Cap) (otype : Nat) : Option Cap :=
  if c.tag && c.isSealed && c.otype == otype then some { c with isSealed := false, otype := 0 } else none

/-- The byte at index `i` is inside the bounds. -/
def inBounds (c : Cap) (i : BitVec 64) : Bool := decide ((c.offset + i).toNat < c.len.toNat)

/-- `VCAP` of `cheric.h`: a valid unsealed capability of at least `n` bytes with the permissions `p`. -/
def vcap (c : Cap) (n : BitVec 64) (p : BitVec 32) : Bool :=
  c.tag && !c.isSealed && decide (n.toNat ≤ c.len.toNat) && c.hasPerms p

/-! ## The kernel's roots -/

/-- The default capability: everything but execute. -/
def ddc : Cap := ⟨true, false, 0, permAll &&& ~~~permExecute, 0, 0xffffffffffffffff, 0⟩

/-- The program counter capability: everything but store. -/
def pcc : Cap := ⟨true, false, 0, permAll &&& ~~~(permStore ||| permStoreCap), 0, 0xffffffffffffffff, 0⟩

end Cap
end CheriOS
