import CheriOS.Kernel.Msg
/-!
# Act — activations (`act.c`)

References are capabilities to the record of an activation, sealed with its id; control references are sealed with
`otypeCtrl`.  A register frame and a name come from user memory, so reading them may trap.
-/
namespace CheriOS
namespace Kernel

/-- What user memory holds at the moment of a system call: bytes, the register frame `cf_c3` points at when it can be
read whole, and whether the string at `cf_c3` can be read to its end. -/
structure UserMem where
  byte : BitVec 64 → BitVec 8
  frame : Option RegFrame
  stringReadable : Bool

/-! ## Sealing (`kutils.h`) -/

def kernelSeal (p : Cap) (otype : Nat) : Except Stop Cap :=
  match p.withSeal otype with
  | some c => .ok c
  | none => .error .trap

def kernelUnseal (p : Cap) (otype : Nat) : Except Stop Cap :=
  match p.withoutSeal otype with
  | some c => .ok c
  | none => .error .trap

def kernelCapToExec (p : Cap) : Cap := (Cap.pcc.setOffset p.base).incOffset p.offset

/-- The record a pointer to an `act_t` points at. -/
def derefAct (b : Build) (p : Cap) : Except Stop Aid :=
  match actAt b p.addr with
  | some aid => .ok aid
  | none => .error (.outOfBounds .kernelActs)

def actCreateRef (b : Build) (aid : Aid) : Except Stop Cap :=
  kernelSeal (kernelCapToExec (Cap.ddc.setOffset (actPtr b aid))) aid

def actCreateCtrlRef (b : Build) (aid : Aid) : Except Stop Cap :=
  kernelSeal (Cap.ddc.setOffset (actPtr b aid)) otypeCtrl

/-- `kernel_skip_instr`; the program counter of an activation that trapped is not sealed. -/
def kernelSkipInstr (act : Aid) (s : State) : State :=
  let f := s.kernelExceptionFramep act
  s.setFrame act ((f.setMf .pc (f.mf .pc + 4)).setCf .pcc ((f.cf .pcc).incOffset 4))

/-! ## Registering -/

def load8 (mem : BitVec 64 → BitVec 8) (c : Cap) (i : Nat) : Except Stop (BitVec 8) :=
  if c.inBounds (BitVec.ofNat 64 i) then .ok (mem (c.addr + BitVec.ofNat 64 i)) else .error .trap

/-- The loop that copies `name[0..n)`. -/
def copyName (mem : BitVec 64 → BitVec 8) (name : Cap) : Nat → (Nat → BitVec 8) → Except Stop (Nat → BitVec 8)
  | 0, field => .ok field
  | n + 1, field => do
    let field ← copyName mem name n field
    let c ← load8 mem name n
    return Function.update field n c

/-- `imin(cheri_getlen(name), ACT_NAME_MAX_LEN-1)`: the length is cut to an `int` first. -/
def nameLen (name : Cap) : Int :=
  if name.vcap 1 Cap.permLoad then min (name.len.setWidth 32).toInt (actNameMaxLen - 1) else 0

/-- How far below `name` a record's own fields reach that `act_register` sets after the name, or that are zero in a
record never used: everything down to `status`, sixty bytes. -/
def nameSlack : Int := 60

/-- The name that `act_register` stores.  A negative `name_len` copies nothing and puts the terminating NUL before the
field: within `nameSlack` nothing is left of it when `act_register` returns, below that it is in memory this record
does not own. -/
def actSetName (mem : UserMem) (name : Cap) (field : Nat → BitVec 8) : Except Stop (Nat → BitVec 8) :=
  if 0 ≤ nameLen name then do
    let field ← copyName mem.byte name (nameLen name).toNat field
    return Function.update field (nameLen name).toNat 0
  else if -nameSlack ≤ nameLen name then .ok field
  else .error (.outOfBounds .actName)

/-- The name field of the new record; `__LITE__` builds have none. -/
def actName (b : Build) (mem : UserMem) (name : Cap) (field : Nat → BitVec 8) : Except Stop (Nat → BitVec 8) :=
  if b.lite then .ok field else actSetName mem name field

def loadFrame (mem : UserMem) : Except Stop RegFrame :=
  match mem.frame with
  | some frame => .ok frame
  | none => .error .trap

/-- `act_register`: the control reference of the new activation.  `act` is `kernel_acts[aid]` as it is filled in. -/
def actRegister (b : Build) (mem : UserMem) (name : Cap) (s : State) : Except Stop (Cap × State) :=
  if h : s.kernelNextAct < maxActivations then do
    let aid : Aid := ⟨s.kernelNextAct, h⟩
    let act := { s.kernelActs aid with aid := aid }
    let field ← actName b mem name act.name
    let act := { act with name := field, status := .alive }
    let frame ← loadFrame mem
    let s := s.setFrame aid frame
    let s := msgQueueInit aid s
    let act := { act with queueMask := maxMsg - 1 }
    let ref ← actCreateRef b aid
    let id ← kernelSeal s.actDefaultId aid
    let s := s.setAct aid { act with actReference := ref, actDefaultId := id }
    let s := schedCreate aid s
    let s := { s with kernelNextAct := s.kernelNextAct + 1 }
    let ctrl ← actCreateCtrlRef b aid
    return (ctrl, s)
  else .error (.panic .noActSlot)

/-! ## Control -/

/-- `ctrl = kernel_unseal(ctrl, 42001); aid = ctrl->aid`. -/
def ctrlAid (b : Build) (ctrl : Cap) (s : State) : Except Stop Aid := do
  let ctrl ← kernelUnseal ctrl otypeCtrl
  let rec_ ← derefAct b ctrl
  return (s.kernelActs rec_).aid

def actRevoke (b : Build) (ctrl : Cap) (s : State) : Except Stop (Int × State) := do
  let aid ← ctrlAid b ctrl s
  if s.status aid = .terminated then return (-1, s)
  else return (0, s.setStatus aid .revoked)

/-- `act_terminate`: 1 when the activation terminated itself. -/
def actTerminate (b : Build) (ctrl : Cap) (s : State) : Except Stop (Int × State) := do
  let act ← ctrlAid b ctrl s
  let s := s.setStatus act .terminated
  let s ← schedDelete b act s
  let s := s.setSchedStatus act .terminated
  return (if act = s.kernelCurrAct then 1 else 0, s)

def actGetRef (b : Build) (ctrl : Cap) (s : State) : Except Stop Cap := do
  let aid ← ctrlAid b ctrl s
  return (s.kernelActs aid).actReference

def actGetId (b : Build) (ctrl : Cap) (s : State) : Except Stop Cap := do
  let aid ← ctrlAid b ctrl s
  return (s.kernelActs aid).actDefaultId

/-- The number of a status in its enumeration. -/
def Status.toInt : Status → Int
  | .alive => 0
  | .revoked => 1
  | .terminated => 2

def actGetStatus (b : Build) (ctrl : Cap) (s : State) : Except Stop Int := do
  let aid ← ctrlAid b ctrl s
  return (s.status aid).toInt

def actWait (b : Build) (act nextHint : Aid) (s : State) : Except Stop State := do
  kernelAssert b (s.schedStatus act == .runnable) .actWait
  let s ← if msgQueueEmpty act s then schedA2d b act .waiting s else .ok (s.setSchedStatus act .schedulable)
  schedReschedule b nextHint s

def actSealIdentifier (identifier : Cap) (s : State) : Except Stop Cap :=
  match identifier.andPerm 0b111100011111101 with
  | some c => kernelSeal c s.kernelCurrAct
  | none => .error .trap

/-! ## Boot -/

/-- The parts of `boot_info_t` that `act_init` reads. -/
structure BootInfo where
  initFrame : RegFrame

/-- A string literal of the kernel: with `-cheri-no-global-bounds` the whole default capability. -/
def literal : Cap := Cap.ddc

def actInit (b : Build) (bi : BootInfo) : Except Stop State := do
  let s := State.zero
  let id ← match Cap.ddc.setBounds 0x1000 with
    | some c => .ok c
    | none => .error .trap
  let s := { s with actDefaultId := id }
  -- the kernel's own activation, never scheduled
  let s := { s with kernelNextAct := 0 }
  let (_, s) ← actRegister b ⟨fun _ => 0, some RegFrame.zero, false⟩ literal s
  let s := s.setStatus 0 .terminated
  let s := s.setSchedStatus 0 .terminated
  -- the activation of init
  let s := { s with kernelCurrAct := 1, kernelNextAct := 1 }
  let (_, s) ← actRegister b ⟨fun _ => 0, some bi.initFrame, false⟩ literal s
  let s := { s with kernelExceptionFramepPtr := s.kernelCurrAct }
  schedD2a b s.kernelCurrAct .runnable s

/-- `cherios_main`, from `act_init` to the return to user code. -/
def cheriosMain (b : Build) (bi : BootInfo) : Except Stop State := do
  let s ← actInit b bi
  schedReschedule b 1 s

end Kernel
end CheriOS
