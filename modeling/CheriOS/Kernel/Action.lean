import Mathlib.Logic.Relation
import CheriOS.Kernel.Exception
import CheriOS.Lib.DenseSet
import CheriOS.Lib.RingBuffer
/-!
# Action — the kernel's steps as updates of the state

Every kernel entry is a sequence of a few updates: a message is stored, an activation enters or leaves the run queue, a
token is made, the scheduler picks, loads a message or switches.  Here each update is a function on states of its own,
with what the source functions compute written through them.
-/
namespace CheriOS
namespace Kernel

/-! ## The abstractions of the two arrays -/

def Sched.dense (q : Sched) : DenseSet Aid := ⟨q.squeueA, q.aqueue, q.squeueAEnd⟩

/-- A message queue as a ring. -/
def Queue.ring (q : Queue) : RingBuffer Msg := ⟨q.start, q.end_, q.msg⟩

namespace State

/-- The activation occurs in `squeue_a[0..squeue_a_end)`. -/
def Queued (s : State) (act : Aid) : Prop := DenseSet.Mem act s.sched.dense

/-- The test of `sched_delete` and of the assertion in `QDEL`. -/
def SlotTest (s : State) (act : Aid) : Prop := s.sched.squeueA (s.sched.aqueue act) = act

instance (s : State) (act : Aid) : Decidable (s.SlotTest act) := inferInstanceAs (Decidable (_ = _))

/-- The messages waiting for an activation, oldest first. -/
def pending (s : State) (act : Aid) : List Msg := RingBuffer.contents maxMsg (s.msgQueues act).ring

/-- `kernel_acts[act]` has been handed out by `act_register`. -/
def Registered (s : State) (act : Aid) : Prop := act.val < s.kernelNextAct

/-! ## The updates -/

/-- `QADD`. -/
@[simps] def addQueue (s : State) (act : Aid) : State :=
  { s with
    sched := { s.sched with
      aqueue := Function.update s.sched.aqueue act s.sched.squeueAEnd
      squeueA := Function.update s.sched.squeueA s.sched.squeueAEnd act
      squeueAEnd := s.sched.squeueAEnd + 1 }
    hist := .qadd act :: s.hist }

/-- `QDEL`. -/
@[simps] def delQueue (s : State) (act : Aid) : State :=
  { s with
    sched := { s.sched with
      squeueAEnd := s.sched.squeueAEnd - 1
      squeueA := Function.update s.sched.squeueA (s.sched.aqueue act) (s.sched.squeueA (s.sched.squeueAEnd - 1))
      aqueue := Function.update s.sched.aqueue (s.sched.squeueA (s.sched.squeueAEnd - 1)) (s.sched.aqueue act) }
    hist := .qdel act :: s.hist }

/-- `sched_d2a`. -/
def activate (s : State) (act : Aid) (status : SchedStatus) : State := (s.addQueue act).setSchedStatus act status

/-- `sched_a2d`. -/
def deactivate (s : State) (act : Aid) (status : SchedStatus) : State := (s.delQueue act).setSchedStatus act status

/-- A message written to the slot at `end`. -/
def store (s : State) (dest : Aid) (m : Msg) : State :=
  (s.setQueue dest { s.msgQueues dest with
    msg := Function.update (s.msgQueues dest).msg (s.msgQueues dest).end_ m
    end_ := safe ((s.msgQueues dest).end_ + 1) (s.kernelActs dest).queueMask }).observe (.pushed dest m)

/-- A message accepted: stored, and its receiver woken if it waits. -/
def accept (s : State) (dest : Aid) (m : Msg) : State :=
  if s.schedStatus dest = .waiting then (s.store dest m).activate dest .schedulable else s.store dest m

/-- The oldest message loaded into the frame of its receiver. -/
def load (s : State) (act : Aid) : State :=
  ((s.setFrame act (loadMsg (s.kernelExceptionFramep act) ((s.msgQueues act).msg (s.msgQueues act).start))).setQueue act
    { s.msgQueues act with start := safe ((s.msgQueues act).start + 1) (s.kernelActs act).queueMask }).observe
    (.popped act ((s.msgQueues act).msg (s.msgQueues act).start))

/-- `sched_schedule`. -/
def dispatch (s : State) (act : Aid) : State := (s.load act).setSchedStatus act .runnable

def picked (s : State) : State := (schedPicknext s).2

/-- The end of `sched_reschedule`. -/
@[simps] def switchTo (s : State) (act : Aid) : State := { s with kernelCurrAct := act, kernelExceptionFramepPtr := act }

/-- A token made for `ccaller`. -/
def issue (s : State) (ccaller : Aid) : State :=
  ({ s with unique := s.unique + 1 }.setAct ccaller
    { s.kernelActs ccaller with expectedReply := s.unique + 1 }).observe (.token ccaller (s.unique + 1))

/-- A caller unblocked, with the reply in its frame. -/
def answer (s : State) (ccaller : Aid) : State :=
  (s.activate ccaller .runnable).setFrame ccaller (copyReply (s.kernelExceptionFramep ccaller) s.frame)

def revoke (s : State) (act : Aid) : State := s.setStatus act .revoked

/-- `act_terminate`. -/
def terminate (s : State) (act : Aid) : State :=
  let s' := if s.SlotTest act then (s.setStatus act .terminated).delQueue act else s.setStatus act .terminated
  (s'.setStatus act .terminated).setSchedStatus act .terminated

/-- `act_register`, with the name, the frame and the two capabilities of the new activation. -/
@[simps kernelExceptionFramepPtr kernelCurrAct kernelNextAct sched unique intChild hist]
def register (s : State) (aid : Aid) (name : Nat → BitVec 8) (frame : RegFrame) (ref id : Cap) : State :=
  { s with
    kernelActs := Function.update s.kernelActs aid { s.kernelActs aid with
      aid := aid, status := .alive, queueMask := maxMsg - 1, schedStatus := .waiting, actReference := ref
      actDefaultId := id, name := name }
    kernelExceptionFramep := Function.update s.kernelExceptionFramep aid frame
    msgQueues := Function.update s.msgQueues aid { s.msgQueues aid with start := 0, end_ := 0, len := maxMsg }
    kernelNextAct := s.kernelNextAct + 1 }

/-! ## What an update leaves in the records of activations

Each lemma gives the whole record, so that every field of it is read off by `simp`. -/

@[simp] theorem setStatus_kernelActs (s : State) (act x : Aid) (st : Status) :
    (s.setStatus act st).kernelActs x =
      { s.kernelActs x with status := if x = act then st else (s.kernelActs x).status } := by
  by_cases hx : x = act
  · subst hx; simp [setStatus]
  · simp [setStatus, hx]

@[simp] theorem setSchedStatus_kernelActs (s : State) (act x : Aid) (st : SchedStatus) :
    (s.setSchedStatus act st).kernelActs x =
      { s.kernelActs x with schedStatus := if x = act then st else (s.kernelActs x).schedStatus } := by
  by_cases hx : x = act
  · subst hx; simp [setSchedStatus]
  · simp [setSchedStatus, hx]

@[simp] theorem setFrame_status (s : State) (act x : Aid) (f : RegFrame) : (s.setFrame act f).status x = s.status x := rfl

@[simp] theorem setFrame_schedStatus (s : State) (act x : Aid) (f : RegFrame) :
    (s.setFrame act f).schedStatus x = s.schedStatus x := rfl

@[simp] theorem setStatus_status (s : State) (act x : Aid) (st : Status) :
    (s.setStatus act st).status x = if x = act then st else s.status x := by
  simp [status]

@[simp] theorem setStatus_schedStatus (s : State) (act x : Aid) (st : Status) :
    (s.setStatus act st).schedStatus x = s.schedStatus x := by
  simp [schedStatus]

@[simp] theorem setSchedStatus_status (s : State) (act x : Aid) (st : SchedStatus) :
    (s.setSchedStatus act st).status x = s.status x := by
  simp [status]

@[simp] theorem setSchedStatus_schedStatus (s : State) (act x : Aid) (st : SchedStatus) :
    (s.setSchedStatus act st).schedStatus x = if x = act then st else s.schedStatus x := by
  simp [schedStatus]

@[simp] theorem addQueue_schedStatus (s : State) (act x : Aid) : (s.addQueue act).schedStatus x = s.schedStatus x := rfl

@[simp] theorem delQueue_schedStatus (s : State) (act x : Aid) : (s.delQueue act).schedStatus x = s.schedStatus x := rfl

@[simp] theorem addQueue_status (s : State) (act x : Aid) : (s.addQueue act).status x = s.status x := rfl

@[simp] theorem delQueue_status (s : State) (act x : Aid) : (s.delQueue act).status x = s.status x := rfl

@[simp] theorem addQueue_dense (s : State) (act : Aid) : (s.addQueue act).sched.dense = s.sched.dense.add act := rfl

@[simp] theorem delQueue_dense (s : State) (act : Aid) : (s.delQueue act).sched.dense = s.sched.dense.remove act := rfl

/-! ### A message accepted -/

@[simp] theorem accept_kernelActs (s : State) (dest x : Aid) (m : Msg) :
    (s.accept dest m).kernelActs x = { s.kernelActs x with
      schedStatus := if x = dest ∧ s.schedStatus dest = .waiting then .schedulable else s.schedStatus x } := by
  unfold accept
  split
  · rename_i hw
    by_cases hx : x = dest
    · subst hx; simp [activate, store, hw]
    · simp [activate, store, hx, schedStatus]
  · rename_i hw
    simp [store, hw]; rfl

@[simp] theorem accept_status (s : State) (dest x : Aid) (m : Msg) : (s.accept dest m).status x = s.status x := by
  simp [status]

@[simp] theorem accept_schedStatus (s : State) (dest x : Aid) (m : Msg) :
    (s.accept dest m).schedStatus x =
      if x = dest ∧ s.schedStatus dest = .waiting then .schedulable else s.schedStatus x := by
  rw [schedStatus, accept_kernelActs]

theorem accept_msgQueues (s : State) (dest x : Aid) (m : Msg) :
    (s.accept dest m).msgQueues x = (s.store dest m).msgQueues x := by
  unfold accept; split <;> rfl

theorem accept_dense (s : State) (dest : Aid) (m : Msg) :
    (s.accept dest m).sched.dense =
      if s.schedStatus dest = .waiting then s.sched.dense.add dest else s.sched.dense := by
  unfold accept; split <;> rfl

theorem accept_hist (s : State) (dest : Aid) (m : Msg) :
    (s.accept dest m).hist =
      if s.schedStatus dest = .waiting then .qadd dest :: .pushed dest m :: s.hist else .pushed dest m :: s.hist := by
  unfold accept; split <;> rfl

@[simp] theorem accept_curr (s : State) (dest : Aid) (m : Msg) : (s.accept dest m).kernelCurrAct = s.kernelCurrAct := by
  unfold accept; split <;> rfl

@[simp] theorem accept_ptr (s : State) (dest : Aid) (m : Msg) :
    (s.accept dest m).kernelExceptionFramepPtr = s.kernelExceptionFramepPtr := by
  unfold accept; split <;> rfl

@[simp] theorem accept_framep (s : State) (dest : Aid) (m : Msg) :
    (s.accept dest m).kernelExceptionFramep = s.kernelExceptionFramep := by
  unfold accept; split <;> rfl

@[simp] theorem accept_next (s : State) (dest : Aid) (m : Msg) : (s.accept dest m).kernelNextAct = s.kernelNextAct := by
  unfold accept; split <;> rfl

@[simp] theorem accept_unique (s : State) (dest : Aid) (m : Msg) : (s.accept dest m).unique = s.unique := by
  unfold accept; split <;> rfl

@[simp] theorem accept_intChild (s : State) (dest : Aid) (m : Msg) : (s.accept dest m).intChild = s.intChild := by
  unfold accept; split <;> rfl

/-! ### A message loaded -/

@[simp] theorem dispatch_kernelActs (s : State) (act x : Aid) :
    (s.dispatch act).kernelActs x =
      { s.kernelActs x with schedStatus := if x = act then .runnable else s.schedStatus x } := by
  simp [dispatch, load, schedStatus]

@[simp] theorem dispatch_status (s : State) (act x : Aid) : (s.dispatch act).status x = s.status x := by
  simp [status]

@[simp] theorem dispatch_schedStatus (s : State) (act x : Aid) :
    (s.dispatch act).schedStatus x = if x = act then .runnable else s.schedStatus x := by
  rw [schedStatus, dispatch_kernelActs]

@[simp] theorem dispatch_sched (s : State) (act : Aid) : (s.dispatch act).sched = s.sched := rfl

@[simp] theorem dispatch_curr (s : State) (act : Aid) : (s.dispatch act).kernelCurrAct = s.kernelCurrAct := rfl

@[simp] theorem dispatch_ptr (s : State) (act : Aid) :
    (s.dispatch act).kernelExceptionFramepPtr = s.kernelExceptionFramepPtr := rfl

@[simp] theorem dispatch_next (s : State) (act : Aid) : (s.dispatch act).kernelNextAct = s.kernelNextAct := rfl

@[simp] theorem dispatch_unique (s : State) (act : Aid) : (s.dispatch act).unique = s.unique := rfl

@[simp] theorem dispatch_intChild (s : State) (act : Aid) : (s.dispatch act).intChild = s.intChild := rfl

@[simp] theorem dispatch_hist (s : State) (act : Aid) :
    (s.dispatch act).hist = .popped act ((s.msgQueues act).msg (s.msgQueues act).start) :: s.hist := rfl

theorem dispatch_msgQueues (s : State) (act x : Aid) :
    (s.dispatch act).msgQueues x = if x = act then
      { s.msgQueues act with start := safe ((s.msgQueues act).start + 1) (s.kernelActs act).queueMask }
    else s.msgQueues x := by
  simp [dispatch, load, Function.update_apply]

/-! ### A pick -/

theorem picked_eq (s : State) :
    s.picked = { s with sched := s.picked.sched, hist := .picknext (schedPicknext s).1 :: s.hist } := by
  unfold picked schedPicknext
  split <;> rfl

@[simp] theorem picked_kernelActs (s : State) : s.picked.kernelActs = s.kernelActs := by rw [picked_eq]

@[simp] theorem picked_status (s : State) (x : Aid) : s.picked.status x = s.status x := by simp [status]

@[simp] theorem picked_schedStatus (s : State) (x : Aid) : s.picked.schedStatus x = s.schedStatus x := by
  simp [schedStatus]

@[simp] theorem picked_msgQueues (s : State) : s.picked.msgQueues = s.msgQueues := by rw [picked_eq]

@[simp] theorem picked_curr (s : State) : s.picked.kernelCurrAct = s.kernelCurrAct := by rw [picked_eq]

@[simp] theorem picked_ptr (s : State) : s.picked.kernelExceptionFramepPtr = s.kernelExceptionFramepPtr := by
  rw [picked_eq]

@[simp] theorem picked_framep (s : State) : s.picked.kernelExceptionFramep = s.kernelExceptionFramep := by
  rw [picked_eq]

@[simp] theorem picked_next (s : State) : s.picked.kernelNextAct = s.kernelNextAct := by rw [picked_eq]

@[simp] theorem picked_unique (s : State) : s.picked.unique = s.unique := by rw [picked_eq]

@[simp] theorem picked_intChild (s : State) : s.picked.intChild = s.intChild := by rw [picked_eq]

@[simp] theorem picked_hist (s : State) : s.picked.hist = .picknext (schedPicknext s).1 :: s.hist := by rw [picked_eq]

@[simp] theorem picked_dense (s : State) : s.picked.sched.dense = s.sched.dense := by
  unfold picked schedPicknext
  split <;> rfl

/-! ### A switch, a token, an answer -/

@[simp] theorem switchTo_status (s : State) (act x : Aid) : (s.switchTo act).status x = s.status x := rfl

@[simp] theorem switchTo_schedStatus (s : State) (act x : Aid) : (s.switchTo act).schedStatus x = s.schedStatus x := rfl

@[simp] theorem issue_kernelActs (s : State) (ccaller x : Aid) :
    (s.issue ccaller).kernelActs x = { s.kernelActs x with
      expectedReply := if x = ccaller then s.unique + 1 else (s.kernelActs x).expectedReply } := by
  by_cases hx : x = ccaller
  · subst hx; simp [issue]
  · simp [issue, hx]

@[simp] theorem issue_status (s : State) (ccaller x : Aid) : (s.issue ccaller).status x = s.status x := by
  simp [status]

@[simp] theorem issue_schedStatus (s : State) (ccaller x : Aid) : (s.issue ccaller).schedStatus x = s.schedStatus x := by
  simp [schedStatus]

@[simp] theorem issue_curr (s : State) (ccaller : Aid) : (s.issue ccaller).kernelCurrAct = s.kernelCurrAct := rfl

@[simp] theorem answer_kernelActs (s : State) (ccaller x : Aid) :
    (s.answer ccaller).kernelActs x =
      { s.kernelActs x with schedStatus := if x = ccaller then .runnable else s.schedStatus x } := by
  simp [answer, activate, schedStatus]

@[simp] theorem answer_status (s : State) (ccaller x : Aid) : (s.answer ccaller).status x = s.status x := by
  simp [status]

@[simp] theorem answer_schedStatus (s : State) (ccaller x : Aid) :
    (s.answer ccaller).schedStatus x = if x = ccaller then .runnable else s.schedStatus x := by
  rw [schedStatus, answer_kernelActs]

@[simp] theorem deactivate_kernelActs (s : State) (act x : Aid) (st : SchedStatus) :
    (s.deactivate act st).kernelActs x =
      { s.kernelActs x with schedStatus := if x = act then st else s.schedStatus x } := by
  simp [deactivate, schedStatus]

@[simp] theorem deactivate_status (s : State) (act x : Aid) (st : SchedStatus) :
    (s.deactivate act st).status x = s.status x := by
  simp [status]

@[simp] theorem deactivate_schedStatus (s : State) (act x : Aid) (st : SchedStatus) :
    (s.deactivate act st).schedStatus x = if x = act then st else s.schedStatus x := by
  rw [schedStatus, deactivate_kernelActs]

/-! ### A termination -/

@[simp] theorem terminate_kernelActs (s : State) (act x : Aid) :
    (s.terminate act).kernelActs x = { s.kernelActs x with
      status := if x = act then .terminated else s.status x
      schedStatus := if x = act then .terminated else s.schedStatus x } := by
  by_cases ht : s.SlotTest act <;> by_cases hx : x = act <;> simp [terminate, ht, hx, status, schedStatus]

@[simp] theorem terminate_status (s : State) (act x : Aid) :
    (s.terminate act).status x = if x = act then .terminated else s.status x := by
  rw [status, terminate_kernelActs]

@[simp] theorem terminate_schedStatus (s : State) (act x : Aid) :
    (s.terminate act).schedStatus x = if x = act then .terminated else s.schedStatus x := by
  rw [schedStatus, terminate_kernelActs]

theorem terminate_dense (s : State) (act : Aid) :
    (s.terminate act).sched.dense = if s.SlotTest act then s.sched.dense.remove act else s.sched.dense := by
  by_cases ht : s.SlotTest act <;> simp [terminate, ht]

theorem terminate_eq (s : State) (act : Aid) :
    s.terminate act = { s with
      kernelActs := (s.terminate act).kernelActs, sched := (s.terminate act).sched, hist := (s.terminate act).hist } := by
  unfold terminate
  split <;> rfl

/-! ### A registration -/

@[simp] theorem register_kernelActs (s : State) (aid x : Aid) (name : Nat → BitVec 8) (frame : RegFrame)
    (ref id : Cap) : (s.register aid name frame ref id).kernelActs x = if x = aid then
      { s.kernelActs aid with
        aid := aid, status := .alive, queueMask := maxMsg - 1, schedStatus := .waiting, actReference := ref
        actDefaultId := id, name := name }
    else s.kernelActs x := by
  simp [register, Function.update_apply]

@[simp] theorem register_msgQueues (s : State) (aid x : Aid) (name : Nat → BitVec 8) (frame : RegFrame)
    (ref id : Cap) : (s.register aid name frame ref id).msgQueues x =
      if x = aid then { s.msgQueues aid with start := 0, end_ := 0, len := maxMsg } else s.msgQueues x := by
  simp [register, Function.update_apply]

end State
end Kernel
end CheriOS
