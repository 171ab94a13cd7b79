import CheriOS.Kernel.Sched
/-!
# Msg — the message queues (`msg.c`) and the dispatch of a message (`sched.c`)

Every activation has a ring of `maxMsg` slots.  `msg_push` copies from the saved frame of the sender, `msg_pop` into the
saved frame of the receiver.
-/
namespace CheriOS
namespace Kernel

def safe (n qmask : Nat) : Nat := n &&& qmask

def full (b : Build) (queue : Queue) (qmask : Nat) : Except Stop Bool := do
  kernelAssert b (decide (qmask > 0)) .full
  return safe (queue.end_ + 1) qmask == queue.start

def empty (queue : Queue) : Bool := queue.start == queue.end_

def mkMsg (f : RegFrame) (identifier syncToken : Cap) : Msg :=
  { a0 := f.mf .a0, a1 := f.mf .a1, a2 := f.mf .a2
    c3 := f.cf .c3, c4 := f.cf .c4, c5 := f.cf .c5
    v0 := f.mf .v0, idc := identifier, c1 := syncToken }

/-- `msg_push`: 0 when the message was stored, -1 when the queue is full. -/
def msgPush (b : Build) (dest src : Aid) (identifier syncToken : Cap) (s : State) : Except Stop (Int × State) := do
  let queue := s.msgQueues dest
  let qmask := (s.kernelActs dest).queueMask
  kernelAssert b (decide (qmask > 0)) .msgPush
  let isFull ← full b queue qmask
  if isFull then
    return (-1, s)
  else
    let m := mkMsg (s.kernelExceptionFramep src) identifier syncToken
    let s := (s.setQueue dest { queue with
      msg := Function.update queue.msg queue.end_ m
      end_ := safe (queue.end_ + 1) qmask }).observe (.pushed dest m)
    let s ← if s.schedStatus dest = .waiting then schedD2a b dest .schedulable s else .ok s
    return (0, s)

/-- The registers `msg_pop` loads, the others as they were. -/
def loadMsg (f : RegFrame) (m : Msg) : RegFrame :=
  ((((((((f.setMf .a0 m.a0).setMf .a1 m.a1).setMf .a2 m.a2).setCf .c3 m.c3).setCf .c4 m.c4).setCf .c5 m.c5).setMf
    .v0 m.v0).setCf .idc m.idc).setCf .c1 m.c1

def msgPop (b : Build) (act : Aid) (s : State) : Except Stop State := do
  let queue := s.msgQueues act
  let qmask := (s.kernelActs act).queueMask
  kernelAssert b (s.schedStatus act == .schedulable) .msgPopStatus
  kernelAssert b (!empty queue) .msgPopEmpty
  let m := queue.msg queue.start
  return ((s.setFrame act (loadMsg (s.kernelExceptionFramep act) m)).setQueue act
    { queue with start := safe (queue.start + 1) qmask }).observe (.popped act m)

def msgQueueEmpty (act : Aid) (s : State) : Bool := empty (s.msgQueues act)

/-- `msg_queue_init`: the slots keep what they held. -/
def msgQueueInit (act : Aid) (s : State) : State :=
  s.setQueue act { s.msgQueues act with start := 0, end_ := 0, len := maxMsg }

def schedSchedule (b : Build) (act : Aid) (s : State) : Except Stop State := do
  kernelAssert b (s.schedStatus act == .schedulable) .schedSchedule
  let s ← msgPop b act s
  return s.setSchedStatus act .runnable

/-- `sched_reschedule` from the choice of `hint` on: the loop goes on with `sched_picknext` until the choice may run.
`fuel` counts the turns left; after one turn for each entry of the run queue the loop only repeats itself. -/
def tryRun (b : Build) : Nat → Aid → State → Except Stop State
  | fuel, hint, s =>
    if hint = 0 then
      .error (.freeze .nothingToRun)
    else do
      let s ← if s.schedStatus hint = .schedulable then schedSchedule b hint s else .ok s
      if s.schedStatus hint ≠ .runnable then
        match fuel with
        | 0 => .error .hang
        | fuel + 1 => tryRun b fuel (schedPicknext s).1 (schedPicknext s).2
      else
        return { s with kernelCurrAct := hint, kernelExceptionFramepPtr := hint }

def schedReschedule (b : Build) (hint : Aid) (s : State) : Except Stop State :=
  if hint = 0 then tryRun b s.sched.squeueAEnd (schedPicknext s).1 (schedPicknext s).2
  else tryRun b (s.sched.squeueAEnd + 1) hint s

end Kernel
end CheriOS
