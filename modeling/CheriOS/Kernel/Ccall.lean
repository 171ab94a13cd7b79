import CheriOS.Kernel.Act
/-!
# Ccall — message calls and replies (`ccall.c`)

A synchronous call blocks its caller and hands the callee a token; `kernel_creturn` unseals the token it is given,
finds the caller in its high half and compares its low half with what the caller expects.
-/
namespace CheriOS
namespace Kernel

/-- The offset of a token: the caller in the high word, the counter in the low one. -/
def tokenOffset (ccaller : Aid) (unique : BitVec 32) : BitVec 64 :=
  (BitVec.ofNat 64 ccaller <<< 32) + unique.setWidth 64

def syncTokenCap (ccaller : Aid) (unique : BitVec 32) : Except Stop Cap :=
  match Cap.ddc.andPerm 0 with
  | some c => kernelSeal (c.setOffset (tokenOffset ccaller unique)) otypeSyncToken
  | none => .error .trap

def getSyncToken (ccaller : Aid) (s : State) : Except Stop (Cap × State) := do
  let unique := s.unique + 1
  let s := { s with unique := unique }
  let s := s.setAct ccaller { s.kernelActs ccaller with expectedReply := unique }
  let token ← syncTokenCap ccaller unique
  return (token, s.observe (.token ccaller unique))

/-- `kernel_ccall_core`; bit 0 of `cflags` switches to the callee, bit 1 waits for its answer. -/
def kernelCcallCore (b : Build) (cflags : Nat) (s : State) : Except Stop State := do
  let cs := s.frame.cf .c2
  let cb := s.frame.cf .c1
  let otype := cb.otype
  let cs ← kernelUnseal cs otype
  let cb ← kernelUnseal cb otype
  if !cs.hasPerms Cap.permStore then
    return s
  else
    let callee ← derefAct b cb
    if s.status callee ≠ .alive then
      return s
    else
      let (syncToken, s) ← if cflags &&& 2 ≠ 0 then getSyncToken s.kernelCurrAct s else .ok (Cap.null, s)
      let aid := (s.kernelActs callee).aid
      let (ret, s) ← msgPush b aid s.kernelCurrAct cs syncToken s
      let s ← if ret ≠ 0 then
          if cflags &&& 2 ≠ 0 then .error (.panic .queueFullCsync)
          else .ok (s.modifyFrame (fun f => f.setMf .v0 0))
        else .ok s
      if cflags &&& 2 ≠ 0 then do
        let s ← schedA2d b s.kernelCurrAct .syncBlock s
        schedReschedule b (s.kernelActs callee).aid s
      else if cflags &&& 1 ≠ 0 then
        actWait b s.kernelCurrAct (s.kernelActs callee).aid s
      else
        return s

def kernelCcall (b : Build) (s : State) : Except Stop State :=
  let ccallSelector := s.frame.mf .v1
  let s := kernelSkipInstr s.kernelCurrAct s
  if ccallSelector = 1 then kernelCcallCore b 0 s
  else if ccallSelector = 2 then kernelCcallCore b 1 s
  else if ccallSelector = 4 then kernelCcallCore b 2 s
  else .ok s

/-- The caller a token names: `sync_offset >> 32`. -/
def tokenCaller (syncOffset : BitVec 64) : BitVec 32 := (syncOffset >>> 32).setWidth 32

/-- The counter value a token carries: `sync_offset & 0xFFFFFFF`. -/
def tokenUnique (syncOffset : BitVec 64) : BitVec 64 := syncOffset &&& 0xFFFFFFF

/-- The check of `kernel_creturn` on the offset of an unsealed token. -/
def replyExpected (ccaller : Aid) (syncOffset : BitVec 64) (s : State) : Bool :=
  (s.kernelActs ccaller).expectedReply.setWidth 64 == tokenUnique syncOffset

def copyReply (caller replier : RegFrame) : RegFrame :=
  ((caller.setCf .c3 (replier.cf .c3)).setMf .v0 (replier.mf .v0)).setMf .v1 (replier.mf .v1)

def kernelCreturn (b : Build) (s : State) : Except Stop State := do
  let s := kernelSkipInstr s.kernelCurrAct s
  let syncToken := s.frame.cf .c1
  if syncToken.isNull then
    actWait b s.kernelCurrAct s.kernelCurrAct s
  else
    let syncToken ← kernelUnseal syncToken otypeSyncToken
    let syncOffset := syncToken.offset
    if h : (tokenCaller syncOffset).toNat < maxActivations then
      let ccaller : Aid := ⟨(tokenCaller syncOffset).toNat, h⟩
      if !replyExpected ccaller syncOffset s then
        .error (.freeze .badSyncCreturn)
      else
        kernelAssert b (s.schedStatus ccaller == .syncBlock) .kernelCreturn
        let s ← schedD2a b ccaller .runnable s
        let s := s.setFrame ccaller (copyReply (s.kernelExceptionFramep ccaller) s.frame)
        actWait b s.kernelCurrAct ccaller s
    else .error (.outOfBounds .kernelActs)

end Kernel
end CheriOS
