import CheriOS.Kernel.Ccall
/-!
# Exception — interrupts, the timer, system calls and the exception demux

(`interrupts.c`, `timer.c`, `syscalls.c`, `kernel_exceptions.c`, `exception.S`.)  One kernel entry saves the registers
of the current activation through `kernel_exception_framep_ptr`, runs `kernel_exception` and returns to whichever
activation `kernel_curr_act` names by then.
-/
namespace CheriOS
namespace Kernel

/-! ## The timer -/

def timerInterval : BitVec 64 := 40000000
def timerIntervalMin : BitVec 64 := 20000000

/-- `TMOD`. -/
def tmod (count : BitVec 64) : BitVec 64 := count &&& 0xFFFFFFFF

/-- The loop of `kernel_timer` that moves the next tick past `count`.  Steps of `timerInterval` modulo `2^32` come back
to where they started after `2^23` turns. -/
def nextTimer (count : BitVec 64) : Nat → BitVec 64 → Option (BitVec 64)
  | 0, _ => none
  | fuel + 1, next =>
    if next < tmod (count + timerIntervalMin) then nextTimer count fuel (tmod (next + timerInterval)) else some next

/-- `kernel_timer`, with the count register read as `count` throughout. -/
def kernelTimer (b : Build) (count : BitVec 64) (s : State) : Except Stop State := do
  let s ← schedReschedule b 0 s
  match nextTimer count (2 ^ 23) (tmod (s.kernelLastTimer + timerInterval)) with
  | some next => return { s with kernelLastTimer := next }
  | none => .error .hang

/-! ## Interrupts -/

/-- One turn of the loop of `kernel_interrupt_others`. -/
def kernelInterruptOther (b : Build) (pending : BitVec 8) (i : Nat) (s : State) : Except Stop State :=
  if pending.getLsbD i then
    if s.intChild i = 0 then .ok s
    else do
      let s := { s with statusIm := s.statusIm &&& ~~~((1 : BitVec 8) <<< i) }
      let s := s.setFrame 0 (((s.kernelExceptionFramep 0).setMf .v0 (-3)).setMf .a0 (BitVec.ofNat 64 i))
      let (ret, s) ← msgPush b (s.intChild i) 0 Cap.null Cap.null s
      if ret ≠ 0 then .error (.panic .queueFullInt) else return s
  else .ok s

/-- `kernel_interrupt_others`: the lines `0 .. n - 1`. -/
def kernelInterruptOthers (b : Build) (pending : BitVec 8) : Nat → State → Except Stop State
  | 0, s => .ok s
  | n + 1, s => do
    let s ← kernelInterruptOthers b pending n s
    kernelInterruptOther b pending n s

/-- `get_others_interrupts_mask`. -/
def othersInterruptsMask (s : State) : BitVec 8 := s.statusIm &&& 0x7F

/-- `kernel_interrupt`; bit 7 of `ipending` is the timer. -/
def kernelInterrupt (b : Build) (ipending : BitVec 8) (count : BitVec 64) (s : State) : Except Stop State := do
  let toprocess := ipending &&& othersInterruptsMask s
  let s ← if ipending.getLsbD 7 then kernelTimer b count s else .ok s
  if toprocess ≠ 0 then kernelInterruptOthers b toprocess 7 s else return s

/-- `validate_number`: a line from 0 to 7, where `int_child` has entries for 0 to 6. -/
def validateNumber (number : Int) : Option Nat := if number < 0 ∨ number > 7 then none else some number.toNat

def intChildAt (number : Nat) (s : State) : Except Stop Aid :=
  if number < 7 then .ok (s.intChild number) else .error (.outOfBounds .intChild)

def kernelInterruptEnable (number : Int) (s : State) : Except Stop (Int × State) :=
  match validateNumber number with
  | none => .ok (-1, s)
  | some number => do
    let child ← intChildAt number s
    if child ≠ s.kernelCurrAct then return (-1, s)
    else return (0, { s with statusIm := s.statusIm ||| ((1 : BitVec 8) <<< number) })

def kernelInterruptRegister (number : Int) (s : State) : Except Stop (Int × State) :=
  match validateNumber number with
  | none => .ok (-1, s)
  | some number => do
    let child ← intChildAt number s
    if child ≠ 0 then return (-1, s)
    else return (0, { s with intChild := Function.update s.intChild number s.kernelCurrAct })

/-! ## System calls -/

def intArg (v : BitVec 64) : Int := (v.setWidth 32).toInt

def intRes (n : Int) : BitVec 64 := BitVec.ofInt 64 n

def setV0 (n : Int) (s : State) : State := s.modifyFrame (fun f => f.setMf .v0 (intRes n))

def setC3 (c : Cap) (s : State) : State := s.modifyFrame (fun f => f.setCf .c3 c)

def syscallSleep (b : Build) (s : State) : Except Stop State :=
  if intArg (s.frame.mf .a0) ≠ 0 then .ok s else schedReschedule b 0 s

def syscallActRegister (b : Build) (mem : UserMem) (s : State) : Except Stop State := do
  let (ctrl, s) ← actRegister b mem (s.frame.cf .c4) s
  return setC3 ctrl s

def syscallActCtrlGetRef (b : Build) (s : State) : Except Stop State := do
  let ref ← actGetRef b (s.frame.cf .c3) s
  return setC3 ref s

def syscallActCtrlGetId (b : Build) (s : State) : Except Stop State := do
  let id ← actGetId b (s.frame.cf .c3) s
  return setC3 id s

def syscallActCtrlGetStatus (b : Build) (s : State) : Except Stop State := do
  let status ← actGetStatus b (s.frame.cf .c3) s
  return setV0 status s

def syscallActRevoke (b : Build) (s : State) : Except Stop State := do
  let (ret, s) ← actRevoke b (s.frame.cf .c3) s
  return setV0 ret s

def syscallActTerminate (b : Build) (s : State) : Except Stop State := do
  let (ret, s) ← actTerminate b (s.frame.cf .c3) s
  if ret = 1 then schedReschedule b 0 s else return setV0 ret s

def syscallActSealIdentifier (s : State) : Except Stop State := do
  let id ← actSealIdentifier (s.frame.cf .c3) s
  return setC3 id s

/-- `syscall_puts`: what it prints is not modelled, that it reads user memory is. -/
def syscallPuts (mem : UserMem) (s : State) : Except Stop State :=
  if mem.stringReadable then .ok s else .error .trap

def syscallInterruptRegister (s : State) : Except Stop State := do
  let (ret, s) ← kernelInterruptRegister (intArg (s.frame.mf .a0)) s
  return setV0 ret s

def syscallInterruptEnable (s : State) : Except Stop State := do
  let (ret, s) ← kernelInterruptEnable (intArg (s.frame.mf .a0)) s
  return setV0 ret s

/-- The system calls, by their number in `mf_v0`. -/
inductive Sysn where
  | sleep | actRegister | actCtrlGetRef | actCtrlGetId | actCtrlGetStatus | actRevoke | actTerminate
  | actSealIdentifier | puts | panic | interruptRegister | interruptEnable
  deriving DecidableEq, Repr

def sysnOf (v0 : BitVec 64) : Option Sysn :=
  if v0 = 13 then some .sleep
  else if v0 = 20 then some .actRegister
  else if v0 = 21 then some .actCtrlGetRef
  else if v0 = 22 then some .actCtrlGetId
  else if v0 = 23 then some .actCtrlGetStatus
  else if v0 = 25 then some .actRevoke
  else if v0 = 26 then some .actTerminate
  else if v0 = 29 then some .actSealIdentifier
  else if v0 = 34 then some .puts
  else if v0 = 42 then some .panic
  else if v0 = 50 then some .interruptRegister
  else if v0 = 51 then some .interruptEnable
  else none

/-- The `switch` of `kernel_exception_syscall`. -/
def syscallDemux (b : Build) (mem : UserMem) (sysn : Sysn) (s : State) : Except Stop State :=
  match sysn with
  | .sleep => syscallSleep b s
  | .actRegister => syscallActRegister b mem s
  | .actCtrlGetRef => syscallActCtrlGetRef b s
  | .actCtrlGetId => syscallActCtrlGetId b s
  | .actCtrlGetStatus => syscallActCtrlGetStatus b s
  | .actRevoke => syscallActRevoke b s
  | .actTerminate => syscallActTerminate b s
  | .actSealIdentifier => syscallActSealIdentifier s
  | .puts => syscallPuts mem s
  | .panic => .error (.freeze .syscallPanic)
  | .interruptRegister => syscallInterruptRegister s
  | .interruptEnable => syscallInterruptEnable s

def kernelExceptionSyscall (b : Build) (mem : UserMem) (s : State) : Except Stop State := do
  let kca := s.kernelCurrAct
  match sysnOf (s.frame.mf .v0) with
  | some sysn =>
    let s ← syscallDemux b mem sysn s
    return kernelSkipInstr kca s
  | none => .error (.freeze .unknownSyscall)

/-! ## Entries -/

/-- What the hardware checks before it raises the CCall trap on `$c1`, `$c2`: two capabilities sealed with one type,
the first executable and the second not. -/
def ccallTraps (c1 c2 : Cap) : Bool :=
  c1.tag && c2.tag && c1.isSealed && c2.isSealed && c1.otype == c2.otype && c1.hasPerms Cap.permExecute &&
    !c2.hasPerms Cap.permExecute

/-- Why the kernel is entered: an interrupt with its pending lines and the count register, a system call with the
memory of its caller, the instructions `ccall` and `creturn`, or any other exception. -/
inductive Cause where
  | interrupt (ipending : BitVec 8) (count : BitVec 64)
  | syscall (mem : UserMem)
  | ccall
  | creturn
  | fault

/-- One kernel entry: the registers of the current activation when it trapped, and the cause. -/
structure Entry where
  regs : RegFrame
  cause : Cause

def kernelException (b : Build) (cause : Cause) (s : State) : Except Stop State :=
  match cause with
  | .interrupt ipending count => kernelInterrupt b ipending count s
  | .syscall mem => kernelExceptionSyscall b mem s
  | .ccall => if ccallTraps (s.frame.cf .c1) (s.frame.cf .c2) then kernelCcall b s else .error (.freeze .exception)
  | .creturn => kernelCreturn b s
  | .fault => .error (.freeze .exception)

/-- `kernel_cp2_exception_handler`: save the context, handle the exception. -/
def kernelEntry (b : Build) (e : Entry) (s : State) : Except Stop State :=
  kernelException b e.cause (s.setFrame s.kernelExceptionFramepPtr e.regs)

end Kernel
end CheriOS
