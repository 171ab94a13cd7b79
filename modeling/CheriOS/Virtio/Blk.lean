import CheriOS.Cap
import CheriOS.Lib.Outcome
import CheriOS.Lib.Run
import Mathlib.Logic.Function.Basic
/-!
# Blk — the block driver and its devices (`virtio_blk.c`)

`vblk_read` and `vblk_write` park the token of their caller in a request slot, hand a chain of three descriptors to the
device of the session and return with a `NULL` token.  `vblk_interrupt` answers later, for the session and the slot in
two globals.  The sessions are those that `vblk_init` has set up, each with a device of its own behind `mmio_cap`.
-/
namespace CheriOS
namespace Virtio

/-! ## Data -/

/-- The address of a descriptor: the low 32 bits of a pointer to a part of a request, or to the buffer of the caller. -/
inductive DescAddr where
  | null
  | outhdr (i : Nat)
  | inhdr (i : Nat)
  | buf (addr : BitVec 32)
  deriving DecidableEq, Repr

/-- `struct virtq_desc`. -/
structure Desc where
  addr : DescAddr
  len : BitVec 32
  flags : BitVec 16
  next : BitVec 16
  deriving DecidableEq, Repr

def Desc.zero : Desc := ⟨.null, 0, 0, 0⟩

/-- `struct virtq_avail`. -/
structure Avail where
  idx : BitVec 16
  ring : Nat → BitVec 16

/-- `struct virtq_used_elem`. -/
structure UsedElem where
  id : BitVec 32
  len : BitVec 32
  deriving DecidableEq, Repr

/-- `struct virtq_used`. -/
structure Used where
  idx : BitVec 16
  ring : Nat → UsedElem

/-- `struct virtq`. -/
structure Virtq where
  num : Nat
  desc : Nat → Desc
  avail : Avail
  used : Used
  lastUsedIdx : BitVec 16

/-- `struct virtio_blk_outhdr`. -/
structure Outhdr where
  type : BitVec 32
  sector : BitVec 64
  deriving DecidableEq, Repr

/-- `req_t`; `status` is its `inhdr`. -/
structure Req where
  used : BitVec 32
  outhdr : Outhdr
  status : BitVec 8
  syncToken : Cap

def Req.zero : Req := ⟨0, ⟨0, 0⟩, 0, Cap.null⟩

/-- `session_t`. -/
structure Session where
  queue : Virtq
  reqNb : Nat
  reqs : Nat → Req

/-- The registers of a device, and how far it has come in the avail ring: up to where it has been notified, and which
requests it has completed. -/
structure Device where
  status : BitVec 32
  interruptStatus : BitVec 32
  notified : BitVec 16
  seen : BitVec 16
  deriving DecidableEq, Repr

abbrev virtioBlkTIn : BitVec 32 := 0
abbrev virtioBlkTOut : BitVec 32 := 1
abbrev virtioBlkSOk : BitVec 8 := 0
abbrev virtqDescFNext : BitVec 16 := 1
abbrev virtqDescFWrite : BitVec 16 := 2
abbrev statusDeviceNeedsReset : BitVec 32 := 64

/-- The assertions. -/
inductive Site where
  | needsReset | freeReq | usedId | usedLen | status | interruptStatus | interruptAck
  deriving DecidableEq, Repr

/-- How the driver stops: an assertion, a `NULL` session, a store past the end of the avail ring. -/
inductive Stop where
  | assertion (site : Site)
  | trap
  | outOfBounds
  deriving DecidableEq, Repr

def assert (e : Bool) (site : Site) : Except Stop Unit := if e then .ok () else .error (.assertion site)

variable {S : Type} [DecidableEq S]

/-- The driver: `$c26`, the global of the message loop, its own globals, the sessions by their addresses; then the
devices, how many interrupts have been raised and not delivered, and whether interrupt line 4 is open. -/
structure State (S : Type) where
  cookie : Option S
  syncToken : Cap
  session : Option S
  expectedSession : Option S
  expectedI : Nat
  sessions : S → Session
  devices : S → Device
  raised : Nat
  lineEnabled : Bool

namespace State

def setSession (s : State S) (sid : S) (x : Session) : State S := { s with sessions := Function.update s.sessions sid x }

def setDevice (s : State S) (sid : S) (d : Device) : State S := { s with devices := Function.update s.devices sid d }

end State

def deref (p : Option S) : Except Stop S :=
  match p with
  | some sid => .ok sid
  | none => .error .trap

/-! ## The driver -/

/-- The session after `vblk_init`: one request, and a queue for its three descriptors. -/
def vblkInit : Session :=
  let reqNb := 1
  { queue := ⟨3 * reqNb, fun _ => Desc.zero, ⟨0, fun _ => 0⟩, ⟨0, fun _ => ⟨0, 0⟩⟩, 0⟩
    reqNb := reqNb
    reqs := fun _ => Req.zero }

def deviceInit : Device := ⟨1 ||| 2 ||| 4, 0, 0, 0⟩

def vblkRwRet (i : Nat) (s : State S) : Except Stop (BitVec 64 × State S) := do
  let s := { s with session := s.cookie }
  let sid ← deref s.session
  let x := s.sessions sid
  let elem := x.queue.used.ring (x.queue.lastUsedIdx.toNat % x.queue.num)
  assert (elem.id.toNat == i) .usedId
  assert (decide (0 < elem.len.toNat)) .usedLen
  assert ((x.reqs i).status == virtioBlkSOk) .status
  let x := { x with
    queue := { x.queue with lastUsedIdx := x.queue.lastUsedIdx + 1 }
    reqs := Function.update x.reqs i { x.reqs i with used := 0 } }
  let s := s.setSession sid x
  let d := s.devices sid
  assert (d.interruptStatus == 1) .interruptStatus
  let d := { d with interruptStatus := d.interruptStatus &&& ~~~1 }
  assert (d.interruptStatus == 0) .interruptAck
  return (0, s.setDevice sid d)

def interruptEnable (s : State S) : State S := { s with lineEnabled := true }

def vblkInterrupt (s : State S) : Except Stop (BitVec 64 × State S) := do
  let s := { s with cookie := s.expectedSession }
  let (ret, s) ← vblkRwRet s.expectedI s
  let sid ← deref s.expectedSession
  let s := { s with syncToken := ((s.sessions sid).reqs s.expectedI).syncToken }
  return (ret, interruptEnable s)

def vblkSendDone (i : Nat) (s : State S) : BitVec 64 × State S :=
  (0, { s with expectedSession := s.session, expectedI := i, syncToken := Cap.null })

/-- The search for a free slot: the first from `i` on, in at most `fuel` steps. -/
def freeReq (reqs : Nat → Req) : Nat → Nat → Nat
  | 0, i => i
  | fuel + 1, i => if (reqs i).used == 0 then i else freeReq reqs fuel (i + 1)

/-- The three descriptors of request `i`. -/
def chain (desc : Nat → Desc) (i : Nat) (bufFlags : BitVec 16) (buf : BitVec 64) : Nat → Desc :=
  let desc := Function.update desc (3 * i + 0) ⟨.outhdr i, 16, virtqDescFNext, 1⟩
  let desc := Function.update desc (3 * i + 1) ⟨.buf (buf.setWidth 32), 512, bufFlags ||| virtqDescFNext, 2⟩
  Function.update desc (3 * i + 2) ⟨.inhdr i, 1, virtqDescFWrite, 0⟩

/-- `avail->ring[avail->idx] = head`; the ring has been allocated with `6 + 2 * num` bytes, which is one entry more than
`num`. -/
def pushAvail (q : Virtq) (head : BitVec 16) : Except Stop Virtq :=
  if q.avail.idx.toNat ≤ q.num then
    .ok { q with avail := ⟨q.avail.idx + 1, Function.update q.avail.ring q.avail.idx.toNat head⟩ }
  else .error .outOfBounds

/-- The body of `vblk_read` and `vblk_write`. -/
def vblkRw (type : BitVec 32) (bufFlags : BitVec 16) (buf sector : BitVec 64) (s : State S) :
    Except Stop (BitVec 64 × State S) := do
  let s := { s with session := s.cookie }
  let sid ← deref s.session
  let d := s.devices sid
  assert (d.status &&& statusDeviceNeedsReset == 0) .needsReset
  let x := s.sessions sid
  let i := freeReq x.reqs x.reqNb 0
  assert (decide (i < x.reqNb)) .freeReq
  let req := { x.reqs i with used := 1, syncToken := s.syncToken, outhdr := ⟨type, sector⟩ }
  let queue := { x.queue with desc := chain x.queue.desc i bufFlags buf }
  let queue ← pushAvail queue (BitVec.ofNat 16 (3 * i))
  let s := s.setSession sid { x with queue := queue, reqs := Function.update x.reqs i req }
  -- the write to `VIRTIO_MMIO_QUEUE_NOTIFY`
  let s := s.setDevice sid { d with notified := queue.avail.idx }
  return vblkSendDone i s

def vblkRead (buf sector : BitVec 64) (s : State S) : Except Stop (BitVec 64 × State S) :=
  vblkRw virtioBlkTIn virtqDescFWrite buf sector s

def vblkWrite (buf sector : BitVec 64) (s : State S) : Except Stop (BitVec 64 × State S) :=
  vblkRw virtioBlkTOut 0 buf sector s

/-! ## The devices -/

/-- The total length of the writable descriptors of a chain. -/
def written (ds : List Desc) : BitVec 32 :=
  ((ds.filter fun d => d.flags &&& virtqDescFWrite ≠ 0).map (·.len)).sum

/-- **A device completes its next request** with a status: it follows the chain from the avail ring, writes the status
where the last descriptor says, puts an element into the used ring and raises its interrupt. -/
def complete (sid : S) (status : BitVec 8) (s : State S) : State S :=
  let x := s.sessions sid
  let q := x.queue
  let d := s.devices sid
  let head := q.avail.ring (d.seen.toNat % q.num)
  let first := q.desc head.toNat
  let second := q.desc first.next.toNat
  let third := q.desc second.next.toNat
  let reqs := match third.addr with
    | .inhdr i => Function.update x.reqs i { x.reqs i with status := status }
    | _ => x.reqs
  let elem := ⟨head.setWidth 32, written [first, second, third]⟩
  let used := ⟨q.used.idx + 1, Function.update q.used.ring (q.used.idx.toNat % q.num) elem⟩
  let s := s.setSession sid { x with queue := { q with used := used }, reqs := reqs }
  let s := s.setDevice sid { d with seen := d.seen + 1, interruptStatus := d.interruptStatus ||| 1 }
  { s with raised := s.raised + 1 }

/-! ## The message loop -/

/-- The end of a message: the token and the value of `creturn`, unless the token is `NULL`. -/
abbrev Reply := Option (Cap × BitVec 64)

/-- `msg_entry`: the identifier and the token of the message, the method, and `creturn` with the global token. -/
def msgEntry (idc : Option S) (c1 : Cap) (method : State S → Except Stop (BitVec 64 × State S)) (s : State S) :
    Except Stop (Reply × State S) := do
  let (v0, s) ← method { s with cookie := idc, syncToken := c1 }
  return (if s.syncToken.isNull then none else some (s.syncToken, v0), s)

/-- What happens: a message for a session, with the token of its caller; a device completes its next request; the
interrupt of a completion is delivered. -/
inductive Event (S : Type) where
  | read (sid : S) (token : Cap) (buf sector : BitVec 64)
  | write (sid : S) (token : Cap) (buf sector : BitVec 64)
  | complete (sid : S) (status : BitVec 8)
  | interrupt

/-- What can happen: a device completes what it has been notified of, and each completion interrupts once. -/
def Enabled (e : Event S) (s : State S) : Prop :=
  match e with
  | .read .. | .write .. => True
  | .complete sid _ => (s.devices sid).seen ≠ (s.devices sid).notified
  | .interrupt => 0 < s.raised ∧ s.lineEnabled = true

/-- **What an event does**, and what it answers.  The kernel closes the line when it delivers an interrupt. -/
def exec (e : Event S) (s : State S) : Except Stop (Reply × State S) :=
  match e with
  | .read sid token buf sector => msgEntry (some sid) token (vblkRead buf sector) s
  | .write sid token buf sector => msgEntry (some sid) token (vblkWrite buf sector) s
  | .complete sid status => .ok (none, complete sid status s)
  | .interrupt => msgEntry none Cap.null vblkInterrupt { s with raised := s.raised - 1, lineEnabled := false }

/-- The driver in its message loop, with its sessions set up and nothing asked for. -/
structure Starts (s : State S) : Prop where
  sessions : s.sessions = fun _ => vblkInit
  devices : s.devices = fun _ => deviceInit
  expected : s.expectedSession = none ∧ s.expectedI = 0
  quiet : s.raised = 0 ∧ s.lineEnabled = true

def blkStep (s : State S) (i : Event S × Reply) (s' : State S) : Prop := Enabled i.1 s ∧ exec i.1 s = .ok (i.2, s')

abbrev BlkRun := Transition.Run (Starts (S := S)) blkStep

end Virtio
end CheriOS
