import CheriOS.Cap
import CheriOS.Lib.Outcome
import Mathlib.Logic.Function.Basic
/-!
# Table — the socket service (`sockets.c`)

Two tables of one activation: what is bound to each port, and the sockets, each with the socket its messages go to and
with room for one message.  The entries of the socket table that `socket` has not handed out are zero.
-/
namespace CheriOS
namespace Sockets

abbrev maxSocket : Int := 0x10
abbrev maxPort : Int := 0x10

/-- `socket_t`. -/
structure Socket where
  status : Int
  oid : Int
  socksend : Int
  msg : Cap
  deriving DecidableEq, Repr

def Socket.zero : Socket := ⟨0, 0, 0, Cap.null⟩

structure State where
  ports : Int → Int
  sockets : Int → Socket
  nextSocket : Int

/-- The assertions, by the function they stand in. -/
inductive Site where
  | socketObj | socketNext | socketStatus | recfromObj | sendtoObj
  deriving DecidableEq, Repr

inductive Table where
  | ports | sockets
  deriving DecidableEq, Repr

inductive Stop where
  | assertion (site : Site)
  | outOfBounds (table : Table)
  deriving DecidableEq, Repr

def assert (e : Bool) (site : Site) : Except Stop Unit := if e then .ok () else .error (.assertion site)

/-- `*get_curr_cookie()`, where it is not NULL. -/
def cookie (obj : Option Int) (site : Site) : Except Stop Int :=
  match obj with
  | some oid => .ok oid
  | none => .error (.assertion site)

/-! ## Table entries -/

def socketAt (socket : Int) (s : State) : Except Stop Socket :=
  if 0 ≤ socket ∧ socket ≤ maxSocket then .ok (s.sockets socket) else .error (.outOfBounds .sockets)

def portAt (port : Int) (s : State) : Except Stop Int :=
  if 0 ≤ port ∧ port ≤ maxPort then .ok (s.ports port) else .error (.outOfBounds .ports)

namespace State

def setSocket (s : State) (socket : Int) (k : Socket) : State :=
  { s with sockets := Function.update s.sockets socket k }

def setPort (s : State) (port socket : Int) : State := { s with ports := Function.update s.ports port socket }

@[simp] theorem setSocket_sockets (s : State) (socket x : Int) (k : Socket) :
    (s.setSocket socket k).sockets x = if x = socket then k else s.sockets x := Function.update_apply _ _ _ _

@[simp] theorem setSocket_ports (s : State) (socket : Int) (k : Socket) : (s.setSocket socket k).ports = s.ports := rfl

@[simp] theorem setSocket_nextSocket (s : State) (socket : Int) (k : Socket) :
    (s.setSocket socket k).nextSocket = s.nextSocket := rfl

@[simp] theorem setPort_ports (s : State) (port x socket : Int) :
    (s.setPort port socket).ports x = if x = port then socket else s.ports x := Function.update_apply _ _ _ _

@[simp] theorem setPort_sockets (s : State) (port socket : Int) : (s.setPort port socket).sockets = s.sockets := rfl

@[simp] theorem setPort_nextSocket (s : State) (port socket : Int) :
    (s.setPort port socket).nextSocket = s.nextSocket := rfl

end State

/-! ## The methods -/

/-- The statics after `socket_init`. -/
def socketInit : State := ⟨fun _ => -1, fun _ => Socket.zero, 0⟩

def socket (obj : Option Int) (s : State) : Except Stop (Int × State) := do
  let oid ← cookie obj .socketObj
  assert (decide (s.nextSocket ≤ maxSocket)) .socketNext
  let k ← socketAt s.nextSocket s
  assert (k.status == 0) .socketStatus
  let ret := s.nextSocket
  return (ret, { s.setSocket ret ⟨1, oid, -1, Cap.null⟩ with nextSocket := s.nextSocket + 1 })

/-- `socket > MAX_SOCKET || sockets[socket].status == 0`. -/
def isOff (socket : Int) (s : State) : Except Stop Bool :=
  if socket > maxSocket then .ok true
  else do
    let k ← socketAt socket s
    return k.status == 0

def bind (socket port : Int) (s : State) : Except Stop (Int × State) := do
  let off ← isOff socket s
  if off then return (-1, s)
  else
    let bound ← portAt port s
    if bound ≥ 0 then return (-1, s)
    else return (0, s.setPort port socket)

def connect (socket port : Int) (s : State) : Except Stop (Int × State) := do
  let off ← isOff socket s
  if off then return (-1, s)
  else if port > maxPort then return (-1, s)
  else
    let csocket ← portAt port s
    if csocket < 0 then return (-1, s)
    else
      let c ← socketAt csocket s
      if c.status = 0 ∨ c.socksend ≥ 0 then return (-1, s)
      else
        let s := s.setSocket csocket { s.sockets csocket with socksend := socket }
        return (0, s.setSocket socket { s.sockets socket with socksend := csocket })

def recfrom (obj : Option Int) (socket : Int) (s : State) : Except Stop (Cap × State) := do
  let off ← isOff socket s
  if off then return (Cap.null, s)
  else
    let oid ← cookie obj .recfromObj
    let k ← socketAt socket s
    if k.oid = oid then return (k.msg, s.setSocket socket { k with msg := Cap.null })
    else return (Cap.null, s)

def sendto (obj : Option Int) (socket : Int) (msg : Cap) (s : State) : Except Stop (Int × State) := do
  if socket > maxSocket then return (-2, s)
  else
    let k ← socketAt socket s
    if k.status = 0 then return (-3, s)
    else if k.socksend < 0 then return (-4, s)
    else
      let oid ← cookie obj .sendtoObj
      if k.oid = oid then
        let peer ← socketAt k.socksend s
        if peer.msg.isNull then return (0, s.setSocket k.socksend { peer with msg := msg }) else return (-1, s)
      else return (-1, s)

end Sockets
end CheriOS
