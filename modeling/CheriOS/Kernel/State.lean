import Mathlib.Data.BitVec
import Mathlib.Logic.Function.Basic
import Mathlib.Tactic.Simps.Basic
import CheriOS.Cap
import CheriOS.Lib.Outcome
/-!
# State — the kernel's data (`activations.h`, `queue.h`, `cheric.h`)

The statics of one source file are one structure here.  Two things are not in the source: `Stop`, the ways in which a
kernel entry does not come back to user code, and `State.hist`, a history the functions append to and never read.
-/
namespace CheriOS
namespace Kernel

/-! ## Sizes -/

abbrev maxActivations : Nat := 32

instance : NeZero maxActivations := ⟨by decide⟩
abbrev maxMsg : Nat := 16
abbrev actNameMaxLen : Nat := 16

/-- An activation id that indexes `kernel_acts`. -/
abbrev Aid := Fin maxActivations

/-- The object types of synchronous tokens and of control references; a reference has its activation's id. -/
abbrev otypeSyncToken : Nat := 42000
abbrev otypeCtrl : Nat := 42001

/-! ## Register frames -/

inductive Gpr where
  | atReg | v0 | v1 | a0 | a1 | a2 | a3 | a4 | a5 | a6 | a7 | t0 | t1 | t2 | t3
  | s0 | s1 | s2 | s3 | s4 | s5 | s6 | s7 | t8 | t9 | gp | sp | fp | ra | hi | lo | pc
  deriving DecidableEq, Repr

inductive CapReg where
  | c0 | c1 | c2 | c3 | c4 | c5 | c6 | c7 | c8 | c9 | c10 | c11 | c12 | c13 | c14 | c15 | c16 | c17 | c18 | c19
  | c20 | c21 | c22 | c23 | c24 | c25 | idc | pcc
  deriving DecidableEq, Repr

/-- `reg_frame_t`. -/
@[ext] structure RegFrame where
  mf : Gpr → BitVec 64
  cf : CapReg → Cap

namespace RegFrame

def zero : RegFrame := ⟨fun _ => 0, fun _ => Cap.null⟩

def setMf (f : RegFrame) (r : Gpr) (v : BitVec 64) : RegFrame := { f with mf := Function.update f.mf r v }

def setCf (f : RegFrame) (r : CapReg) (c : Cap) : RegFrame := { f with cf := Function.update f.cf r c }

@[simp] theorem setMf_mf (f : RegFrame) (r q : Gpr) (v : BitVec 64) :
    (f.setMf r v).mf q = if q = r then v else f.mf q := Function.update_apply _ _ _ _

@[simp] theorem setMf_cf (f : RegFrame) (r : Gpr) (v : BitVec 64) : (f.setMf r v).cf = f.cf := rfl

@[simp] theorem setCf_cf (f : RegFrame) (r q : CapReg) (c : Cap) :
    (f.setCf r c).cf q = if q = r then c else f.cf q := Function.update_apply _ _ _ _

@[simp] theorem setCf_mf (f : RegFrame) (r : CapReg) (c : Cap) : (f.setCf r c).mf = f.mf := rfl

end RegFrame

/-! ## Activations -/

/-- `status_e`. -/
inductive Status where
  | alive | revoked | terminated
  deriving DecidableEq, Repr

/-- `sched_status_e`. -/
inductive SchedStatus where
  | waiting | schedulable | runnable | syncBlock | terminated
  deriving DecidableEq, Repr

/-- `act_t`; `expectedReply` is `sync_token.expected_reply`. -/
structure Act where
  aid : Aid
  status : Status
  queueMask : Nat
  schedStatus : SchedStatus
  expectedReply : BitVec 32
  actReference : Cap
  actDefaultId : Cap
  name : Nat → BitVec 8

/-- A slot of `kernel_acts` as the zeroed BSS leaves it: the zeros of both enumerations are `alive` and `waiting`. -/
def Act.zero : Act := ⟨0, .alive, 0, .waiting, 0, Cap.null, Cap.null, fun _ => 0⟩

/-! ## Messages -/

/-- `msg_t`. -/
@[ext] structure Msg where
  a0 : BitVec 64
  a1 : BitVec 64
  a2 : BitVec 64
  c3 : Cap
  c4 : Cap
  c5 : Cap
  v0 : BitVec 64
  idc : Cap
  c1 : Cap

def Msg.zero : Msg := ⟨0, 0, 0, Cap.null, Cap.null, Cap.null, 0, Cap.null, Cap.null⟩

/-- `queue_t`; `end_` is the source's `end`. -/
structure Queue where
  start : Nat
  end_ : Nat
  len : Nat
  msg : Nat → Msg

def Queue.zero : Queue := ⟨0, 0, 0, fun _ => Msg.zero⟩

/-! ## The statics of `sched.c` -/

structure Sched where
  aqueue : Aid → Nat
  squeueA : Nat → Aid
  squeueAIdx : Nat
  squeueAEnd : Nat

def Sched.zero : Sched := ⟨fun _ => 0, fun _ => 0, 0, 0⟩

/-! ## The kernel state -/

/-- What the history records. -/
inductive Obs where
  /-- `QADD` of an activation. -/
  | qadd (act : Aid)
  /-- `QDEL` of an activation. -/
  | qdel (act : Aid)
  /-- A call of `sched_picknext` and what it returned. -/
  | picknext (act : Aid)
  /-- `msg_push` stored a message for `dest`. -/
  | pushed (dest : Aid) (m : Msg)
  /-- `msg_pop` loaded a message into the frame of `act`. -/
  | popped (act : Aid) (m : Msg)
  /-- `get_sync_token` made a token for `ccaller`. -/
  | token (ccaller : Aid) (unique : BitVec 32)

/-- `kernel_exception_framep_ptr` is kept as its index in `kernel_exception_framep`.  `statusIm` are the interrupt mask
bits of the CP0 status register. -/
structure State where
  kernelExceptionFramep : Aid → RegFrame
  kernelExceptionFramepPtr : Aid
  kernelActs : Aid → Act
  kernelCurrAct : Aid
  kernelNextAct : Nat
  actDefaultId : Cap
  msgQueues : Aid → Queue
  sched : Sched
  unique : BitVec 32
  intChild : Nat → Aid
  statusIm : BitVec 8
  kernelLastTimer : BitVec 64
  hist : List Obs

def State.zero : State :=
  ⟨fun _ => RegFrame.zero, 0, fun _ => Act.zero, 0, 0, Cap.null, fun _ => Queue.zero, Sched.zero, 0, fun _ => 0, 0, 0,
    []⟩

/-! ## How an entry stops -/

/-- The assertions of the modelled functions, by the function they stand in. -/
inductive Site where
  | schedSchedule | qdel | schedD2a | schedA2d | full | msgPush | msgPopStatus | msgPopEmpty | actWait | kernelCreturn
  deriving DecidableEq, Repr

/-- The calls of `kernel_freeze`. -/
inductive Freeze where
  | nothingToRun | badSyncCreturn | exception | unknownSyscall | syscallPanic
  deriving DecidableEq, Repr

/-- The texts of `kernel_panic`. -/
inductive Panic where
  | noActSlot | queueFullCsync | queueFullInt
  deriving DecidableEq, Repr

/-- The objects that an index or a pointer can leave. -/
inductive Object where
  | squeueA | intChild | actName | kernelActs
  deriving DecidableEq, Repr

/-- `assertion`, `freeze` and `panic` end in `hw_reboot`.  `trap` is an exception taken inside the kernel: its handler
re-enters `kernel_exception` and freezes there.  `outOfBounds` is an access outside its object, after which the C
program has no defined behaviour.  `hang` is a loop that never ends. -/
inductive Stop where
  | assertion (site : Site)
  | freeze (why : Freeze)
  | panic (text : Panic)
  | trap
  | outOfBounds (object : Object)
  | hang
  deriving DecidableEq, Repr

/-! ## Builds -/

/-- `sizeof(act_t)` with 128-bit capabilities; `__LITE__` leaves the name out. -/
def sizeofAct (lite : Bool) : Nat := if lite then 64 else 80

/-- What the build fixes: `__LITE__`, and the address the linker gives `kernel_acts`. -/
structure Build where
  lite : Bool
  kernelActs : BitVec 64
  fits : kernelActs.toNat + sizeofAct lite * maxActivations ≤ 2 ^ 64

/-- `kernel_assert`: nothing in a `__LITE__` build. -/
def kernelAssert (b : Build) (e : Bool) (site : Site) : Except Stop Unit :=
  if b.lite || e then .ok () else .error (.assertion site)

def actPtr (b : Build) (aid : Aid) : BitVec 64 := b.kernelActs + BitVec.ofNat 64 (sizeofAct b.lite * aid)

def actAt (b : Build) (p : BitVec 64) : Option Aid := (List.finRange maxActivations).find? (fun aid => actPtr b aid == p)

/-! ## Updates -/

namespace State

@[simps] def setFrame (s : State) (aid : Aid) (f : RegFrame) : State :=
  { s with kernelExceptionFramep := Function.update s.kernelExceptionFramep aid f }

@[simps] def setAct (s : State) (aid : Aid) (a : Act) : State := { s with kernelActs := Function.update s.kernelActs aid a }

@[simps] def setQueue (s : State) (aid : Aid) (q : Queue) : State :=
  { s with msgQueues := Function.update s.msgQueues aid q }

@[simps! kernelExceptionFramep kernelExceptionFramepPtr kernelCurrAct kernelNextAct actDefaultId msgQueues sched unique
  intChild hist]
def setStatus (s : State) (aid : Aid) (st : Status) : State := s.setAct aid { s.kernelActs aid with status := st }

@[simps! kernelExceptionFramep kernelExceptionFramepPtr kernelCurrAct kernelNextAct actDefaultId msgQueues sched unique
  intChild hist]
def setSchedStatus (s : State) (aid : Aid) (st : SchedStatus) : State :=
  s.setAct aid { s.kernelActs aid with schedStatus := st }

@[simps] def observe (s : State) (o : Obs) : State := { s with hist := o :: s.hist }

def frame (s : State) : RegFrame := s.kernelExceptionFramep s.kernelExceptionFramepPtr

def modifyFrame (s : State) (g : RegFrame → RegFrame) : State := s.setFrame s.kernelExceptionFramepPtr (g s.frame)

def status (s : State) (aid : Aid) : Status := (s.kernelActs aid).status

def schedStatus (s : State) (aid : Aid) : SchedStatus := (s.kernelActs aid).schedStatus

end State
end Kernel
end CheriOS
