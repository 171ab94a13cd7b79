import CheriOS.Kernel.State
/-!
# Sched — the run queue (`sched.c`)

`squeue_a[0..squeue_a_end)` lists the activations that may run and `aqueue` maps each of them to its slot.  Additions
append; a deletion moves the last entry into the hole.  `squeue_a_end` is a `u32`: lowering it at 0 makes the next read
`squeue_a[2^32 - 1]`.
-/
namespace CheriOS
namespace Kernel

/-- `QADD(act, squeue_a, aqueue)`. -/
def qadd (act : Aid) (s : State) : Except Stop State :=
  if s.sched.squeueAEnd < maxActivations then
    .ok { s with
      sched := { s.sched with
        aqueue := Function.update s.sched.aqueue act s.sched.squeueAEnd
        squeueA := Function.update s.sched.squeueA s.sched.squeueAEnd act
        squeueAEnd := s.sched.squeueAEnd + 1 }
      hist := .qadd act :: s.hist }
  else .error (.outOfBounds .squeueA)

/-- `QDEL(act, squeue_a, aqueue)`. -/
def qdel (b : Build) (act : Aid) (s : State) : Except Stop State := do
  kernelAssert b (s.sched.squeueA (s.sched.aqueue act) == act) .qdel
  if s.sched.squeueAEnd = 0 then
    .error (.outOfBounds .squeueA)
  else
    let last := s.sched.squeueAEnd - 1
    let replacement := s.sched.squeueA last
    .ok { s with
      sched := { s.sched with
        squeueAEnd := last
        squeueA := Function.update s.sched.squeueA (s.sched.aqueue act) replacement
        aqueue := Function.update s.sched.aqueue replacement (s.sched.aqueue act) }
      hist := .qdel act :: s.hist }

def schedCreate (act : Aid) (s : State) : State := s.setSchedStatus act .waiting

def schedDelete (b : Build) (act : Aid) (s : State) : Except Stop State := do
  let s ← if s.sched.squeueA (s.sched.aqueue act) == act then qdel b act s else .ok s
  return s.setStatus act .terminated

def schedD2a (b : Build) (act : Aid) (status : SchedStatus) (s : State) : Except Stop State := do
  let s ← qadd act s
  kernelAssert b (status == .runnable || status == .schedulable) .schedD2a
  return s.setSchedStatus act status

def schedA2d (b : Build) (act : Aid) (status : SchedStatus) (s : State) : Except Stop State := do
  let s ← qdel b act s
  kernelAssert b (status == .syncBlock || status == .waiting) .schedA2d
  return s.setSchedStatus act status

def schedPicknext (s : State) : Aid × State :=
  if s.sched.squeueAEnd = 0 then
    (0, s.observe (.picknext 0))
  else
    let idx := (s.sched.squeueAIdx + 1) % s.sched.squeueAEnd
    (s.sched.squeueA idx, { s with
      sched := { s.sched with squeueAIdx := idx }
      hist := .picknext (s.sched.squeueA idx) :: s.hist })

end Kernel
end CheriOS
