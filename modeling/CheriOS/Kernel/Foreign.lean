import CheriOS.Kernel.Reach
/-!
# Foreign — calls through a pointer that is not the kernel's

`kernel_ccall_core` unseals `$c1` with whatever type the caller presents and reads the `act_t` behind it.  When the type
is not one of the kernel's own, so is the pointer, and what is read is user memory.  The entries here take that memory as
an argument; where the pointer is the reference of an activation they are the entries of `kernel_exception`.
-/
namespace CheriOS
namespace Kernel

open Outcome

variable {b : Build} {e : Entry} {c callee : Aid} {s s' : State} {cs : Cap}

/-- What user memory holds at `$c1`, read as an `act_t`: its `status` and its `aid`. -/
structure ForeignAct where
  status : BitVec 32
  aid : BitVec 32

def statusAlive : BitVec 32 := 0

/-- `cb->status != status_alive`, negated. -/
def cbAlive (b : Build) (mem : Option ForeignAct) (cb : Cap) (s : State) : Except Stop Bool :=
  match actAt b cb.addr, mem with
  | some act, _ => .ok (decide (s.status act = .alive))
  | none, some act => .ok (act.status == statusAlive)
  | none, none => .error .trap

/-- `cb->aid`, as an index of `msg_queues` and `kernel_acts`. -/
def cbAid (b : Build) (mem : Option ForeignAct) (cb : Cap) (s : State) : Except Stop Aid :=
  match actAt b cb.addr, mem with
  | some act, _ => .ok (s.kernelActs act).aid
  | none, some act => if h : act.aid.toNat < maxActivations then .ok ⟨_, h⟩ else .error (.outOfBounds .kernelActs)
  | none, none => .error .trap

/-- `kernel_ccall_core`, for any pointer in `$c1`. -/
def openCcallCore (b : Build) (mem : Option ForeignAct) (cflags : Nat) (s : State) : Except Stop State := do
  let cs := s.frame.cf .c2
  let cb := s.frame.cf .c1
  let otype := cb.otype
  let cs ← kernelUnseal cs otype
  let cb ← kernelUnseal cb otype
  if !cs.hasPerms Cap.permStore then
    return s
  else
    let alive ← cbAlive b mem cb s
    if !alive then
      return s
    else
      let (syncToken, s) ← if cflags &&& 2 ≠ 0 then getSyncToken s.kernelCurrAct s else .ok (Cap.null, s)
      let aid ← cbAid b mem cb s
      let (ret, s) ← msgPush b aid s.kernelCurrAct cs syncToken s
      let s ← if ret ≠ 0 then
          if cflags &&& 2 ≠ 0 then .error (.panic .queueFullCsync)
          else .ok (s.modifyFrame (fun f => f.setMf .v0 0))
        else .ok s
      if cflags &&& 2 ≠ 0 then do
        let s ← schedA2d b s.kernelCurrAct .syncBlock s
        let aid ← cbAid b mem cb s
        schedReschedule b aid s
      else if cflags &&& 1 ≠ 0 then do
        let aid ← cbAid b mem cb s
        actWait b s.kernelCurrAct aid s
      else
        return s

/-- `kernel_ccall`, for any pointer in `$c1`. -/
def openCcall (b : Build) (mem : Option ForeignAct) (s : State) : Except Stop State :=
  let ccallSelector := s.frame.mf .v1
  let s := kernelSkipInstr s.kernelCurrAct s
  if ccallSelector = 1 then openCcallCore b mem 0 s
  else if ccallSelector = 2 then openCcallCore b mem 1 s
  else if ccallSelector = 4 then openCcallCore b mem 2 s
  else .ok s

/-- `kernel_exception`, for any pointer in `$c1` of a `ccall`. -/
def openException (b : Build) (mem : Option ForeignAct) (cause : Cause) (s : State) : Except Stop State :=
  match cause with
  | .ccall => if ccallTraps (s.frame.cf .c1) (s.frame.cf .c2) then openCcall b mem s else .error (.freeze .exception)
  | cause => kernelException b cause s

/-- `kernel_cp2_exception_handler`, for any pointer in `$c1` of a `ccall`. -/
def openEntry (b : Build) (mem : Option ForeignAct) (e : Entry) (s : State) : Except Stop State :=
  openException b mem e.cause (s.setFrame s.kernelExceptionFramepPtr e.regs)

/-! ## The kernel's own pointers -/

theorem actAt_of_deref {cb : Cap} (hd : derefAct b cb = .ok callee) : actAt b cb.addr = some callee := by
  unfold derefAct at hd
  split at hd
  · rename_i a ha
    rw [ha, Except.ok.inj hd]
  · cases hd

/-- **Through the reference of an activation the core is `kernel_ccall_core`.** -/
theorem openCcallCore_eq {cb : Cap} (hcb : kernelUnseal (s.frame.cf .c1) (s.frame.cf .c1).otype = .ok cb)
    (hd : derefAct b cb = .ok callee) (mem : Option ForeignAct) (cflags : Nat) :
    openCcallCore b mem cflags s = kernelCcallCore b cflags s := by
  have hat := actAt_of_deref hd
  have halive : ∀ k : State, cbAlive b mem cb k = .ok (decide (k.status callee = .alive)) := fun k => by
    unfold cbAlive
    rw [hat]
  have haid : ∀ k : State, cbAid b mem cb k = .ok (k.kernelActs callee).aid := fun k => by
    unfold cbAid
    rw [hat]
  unfold openCcallCore kernelCcallCore
  simp only [hcb, hd, halive, haid, ok_bind]
  by_cases hst : s.status callee = .alive
  · simp [hst]
  · simp [hst]

/-- **With what the kernel unseals its own, the entry is `kernel_exception`'s.** -/
theorem openEntry_eq (hB : Base s) (hA : Unseals b e s) (mem : Option ForeignAct) :
    openEntry b mem e s = kernelEntry b e s := by
  have hframe : (saved e s).frame = e.regs := saved_frame hB
  rw [kernelEntry_eq hB]
  unfold openEntry
  rw [hB.ptr_eq]
  show openException b mem e.cause (saved e s) = _
  cases hc : e.cause with
  | ccall =>
    unfold openException kernelException
    dsimp only
    rw [hframe]
    split
    · obtain ⟨callee, cs, -, ho⟩ := ccall_operands hA hc ‹_›
      obtain ⟨-, cb, hcb, hd⟩ := ho.unseal hB
      have hskip : kernelSkipInstr (saved e s).kernelCurrAct (saved e s) = returning e s := rfl
      unfold openCcall kernelCcall
      rw [hskip]
      simp only [openCcallCore_eq hcb hd mem]
    · rfl
  | interrupt ipending count => rfl
  | syscall m => rfl
  | creturn => rfl
  | fault => rfl

end Kernel
end CheriOS
