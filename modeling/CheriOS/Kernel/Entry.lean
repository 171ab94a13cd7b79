import CheriOS.Kernel.Opening
import CheriOS.Lib.Run
/-!
# Entry — what one kernel entry does, and the runs of the kernel

`kernelEntry_opens` is the specification of a kernel entry: the one update its cause asks for, then routine updates up
to the return to user code, or a stop whose reason the state there gives.  Everything proved about runs is proved from
it, one update at a time.
-/
namespace CheriOS
namespace Kernel

open Outcome
open Relation (ReflTransGen)

variable {b : Build} {e : Entry} {c act dest src : Aid} {s m : State} {mem : UserMem}

/-! ## The saved state -/

/-- The state an entry starts with: the registers are saved. -/
def saved (e : Entry) (s : State) : State := s.setFrame s.kernelCurrAct e.regs

theorem saved_quiet : Quiet s.kernelCurrAct s (saved e s) := .setFrame _ (.inl rfl)

theorem saved_ptr (h : Base s) : (saved e s).kernelExceptionFramepPtr = s.kernelCurrAct := h.ptr_eq

theorem saved_frame (h : Base s) : (saved e s).frame = e.regs := by
  simp [State.frame, saved, h.ptr_eq]

theorem kernelEntry_eq (hB : Base s) : kernelEntry b e s = kernelException b e.cause (saved e s) := by
  rw [kernelEntry, hB.ptr_eq]
  rfl

theorem kernelEntry_ccall (hB : Base s) (hc : e.cause = .ccall) : kernelEntry b e s =
    if ccallTraps (e.regs.cf .c1) (e.regs.cf .c2) = true then kernelCcall b (saved e s)
    else .error (.freeze .exception) := by
  rw [kernelEntry_eq hB, hc, kernelException, saved_frame hB]

theorem kernelEntry_syscall {mem : UserMem} (hB : Base s) (hc : e.cause = .syscall mem) : kernelEntry b e s =
    match sysnOf (e.regs.mf .v0) with
    | some sysn => syscallDemux b mem sysn (saved e s) >>= fun m => .ok (kernelSkipInstr s.kernelCurrAct m)
    | none => .error (.freeze .unknownSyscall) := by
  rw [kernelEntry_eq hB, hc, kernelException, kernelExceptionSyscall, saved_frame hB]
  rfl

theorem kernelCcall_eq (hB : Base s) : kernelCcall b (saved e s) =
    if e.regs.mf .v1 = 1 then kernelCcallCore b 0 (returning e s)
    else if e.regs.mf .v1 = 2 then kernelCcallCore b 1 (returning e s)
    else if e.regs.mf .v1 = 4 then kernelCcallCore b 2 (returning e s)
    else .ok (returning e s) := by
  rw [kernelCcall, saved_frame hB]
  rfl

theorem returning_quiet : Quiet s.kernelCurrAct s (returning e s) := saved_quiet.trans .skip

theorem returning_frame (h : Base s) : (returning e s).frame =
    (e.regs.setMf .pc (e.regs.mf .pc + 4)).setCf .pcc ((e.regs.cf .pcc).incOffset 4) := by
  simp [State.frame, returning, kernelSkipInstr, h.ptr_eq]

theorem returning_cf (h : Base s) {r : CapReg} (hr : r ≠ .pcc) : (returning e s).frame.cf r = e.regs.cf r := by
  simp [returning_frame h, hr]

theorem returning_mf (h : Base s) {r : Gpr} (hr : r ≠ .pc) : (returning e s).frame.mf r = e.regs.mf r := by
  simp [returning_frame h, hr]

theorem setV0_quiet (hp : m.kernelExceptionFramepPtr = c) (n : Int) : Quiet c m (setV0 n m) := .modifyFrame hp

theorem setC3_quiet (hp : m.kernelExceptionFramepPtr = c) (cap : Cap) : Quiet c m (setC3 cap m) := .modifyFrame hp

theorem Quiet.ptr (h : Quiet c s m) : m.kernelExceptionFramepPtr = s.kernelExceptionFramepPtr := by
  obtain ⟨framep, child, im, timer, rfl, -⟩ := h
  rfl

theorem Unseals.saved (h : Unseals b e s) : Unseals b e (saved e s) := ⟨h.ctrl, h.token, h.ref⟩

/-- A stop right after the registers are saved. -/
theorem Opens.stop_saved {st : Stop} (hh : Halts b s.kernelCurrAct (saved e s) st) : Opens b e s (.error st) :=
  .stop saved_quiet hh

theorem Opens.quiet_after {k k' : State} (ho : Opening b e s k) (hq : Quiet s.kernelCurrAct k k') (hr : Runs k) :
    Opens b e s (.ok k') :=
  .of_leads ho (.step (.quiet hq) (.ok (hr.quiet hq)))

/-! ## Control calls, written with the updates -/

theorem actRevoke_eq {ctrl : Cap} (h : ctrlAid b ctrl s = .ok act) :
    actRevoke b ctrl s = if s.status act = .terminated then .ok (-1, s) else .ok (0, s.revoke act) := by
  unfold actRevoke
  rw [h, ok_bind]
  rfl

theorem actTerminate_eq {ctrl : Cap} (h : ctrlAid b ctrl s = .ok act) :
    actTerminate b ctrl s =
      if s.SlotTest act ∧ s.sched.squeueAEnd = 0 then .error (.outOfBounds .squeueA)
      else .ok (if act = s.kernelCurrAct then 1 else 0, s.terminate act) := by
  have htest : (s.setStatus act .terminated).SlotTest act ↔ s.SlotTest act := Iff.rfl
  have hend : (s.setStatus act .terminated).sched.squeueAEnd = s.sched.squeueAEnd := rfl
  unfold actTerminate
  simp only [h, ok_bind, schedDelete_eq, htest, hend]
  by_cases ht : s.SlotTest act
  · by_cases h0 : s.sched.squeueAEnd = 0
    · simp [ht, h0]
    · simp [ht, h0, State.terminate]
  · simp [ht, State.terminate]

/-! ## The interrupt lines -/

theorem validateNumber_bound {number : Int} {i : Nat} (h : validateNumber number = some i) : number = i ∧ i ≤ 7 := by
  unfold validateNumber at h
  split at h
  · cases h
  · have hi := Option.some.inj h
    omega

theorem intChildAt_sat {number : Int} {i : Nat} (h : validateNumber number = some i) :
    Sat (intChildAt i s) (fun child => i < 7 ∧ number = i ∧ child = s.intChild i)
      (fun st => number = 7 ∧ st = .outOfBounds .intChild) := by
  obtain ⟨hn, hle⟩ := validateNumber_bound h
  unfold intChildAt
  split
  · exact sat_ok.2 ⟨‹_›, hn, rfl⟩
  · exact sat_error.2 ⟨by omega, rfl⟩

/-- **`kernel_interrupt_register`** hands out a free line, to the current activation. -/
theorem kernelInterruptRegister_sat (number : Int) : Sat (kernelInterruptRegister number s)
    (fun p => p.2 = s ∨ ∃ i : Nat, i < 7 ∧ number = i ∧ s.intChild i = 0 ∧
      p.2 = { s with intChild := Function.update s.intChild i s.kernelCurrAct })
    (fun st => number = 7 ∧ st = .outOfBounds .intChild) := by
  unfold kernelInterruptRegister
  split
  · exact sat_ok.2 (.inl rfl)
  · refine .bind (intChildAt_sat ‹_›) fun child ⟨hlt, hn, hchild⟩ => ?_
    split
    · exact sat_ok.2 (.inl rfl)
    · rename_i hfree
      exact sat_ok.2 (.inr ⟨_, hlt, hn, hchild ▸ Decidable.not_not.1 hfree, rfl⟩)

/-- **`kernel_interrupt_enable`** opens a line for the activation it was handed out to. -/
theorem kernelInterruptEnable_sat (number : Int) : Sat (kernelInterruptEnable number s)
    (fun p => p.2 = s ∨ ∃ i : Nat, i < 7 ∧ number = i ∧ s.intChild i = s.kernelCurrAct ∧
      p.2 = { s with statusIm := s.statusIm ||| ((1 : BitVec 8) <<< i) })
    (fun st => number = 7 ∧ st = .outOfBounds .intChild) := by
  unfold kernelInterruptEnable
  split
  · exact sat_ok.2 (.inl rfl)
  · refine .bind (intChildAt_sat ‹_›) fun child ⟨hlt, hn, hchild⟩ => ?_
    split
    · exact sat_ok.2 (.inl rfl)
    · rename_i howner
      exact sat_ok.2 (.inr ⟨_, hlt, hn, hchild ▸ Decidable.not_not.1 howner, rfl⟩)

theorem Quiet.child (i : Nat) : Quiet c s { s with intChild := Function.update s.intChild i c } := by
  refine ⟨_, _, _, _, rfl, fun _ _ _ => rfl, fun j => ?_⟩
  by_cases hj : j = i
  · exact .inr (by simp [hj])
  · exact .inl (by simp [hj])

/-! ## System calls -/

section Syscalls

variable (hB : Base s) (hR : Runs s) (hA : Unseals b e s) (hc : e.cause = .syscall mem)
include hB hR

theorem syscallSleep_opens : Opens b e s (syscallSleep b (saved e s)) := by
  unfold syscallSleep
  split
  · exact .ok (.quiet saved_quiet) (hR.quiet saved_quiet)
  · exact .of_leads (.quiet saved_quiet) (schedReschedule_leads ((Ready.of_base hB).quiet saved_quiet) 0)

omit hB in
theorem result_opens {α : Type} {r : Except Stop α} {f : α → State → State} (hr : ∀ st, r = .error st → st = .trap)
    (hf : ∀ x, Quiet s.kernelCurrAct (saved e s) (f x (saved e s))) :
    Opens b e s (r >>= fun x => .ok (f x (saved e s))) := by
  have hs : Quiet s.kernelCurrAct s (saved e s) := saved_quiet
  cases r with
  | error st =>
    obtain rfl := hr st rfl
    exact .stop_saved .trap
  | ok x => exact .ok (.quiet (hs.trans (hf x))) (hR.quiet (hs.trans (hf x)))

omit hR in
include hA in
theorem ctrlAid_saved : ctrlAid b (e.regs.cf .c3) (saved e s) = .error .trap ∨
    ∃ a, s.Registered a ∧ ctrlAid b (e.regs.cf .c3) (saved e s) = .ok a :=
  ctrlAid_cases ((Ready.of_base hB).quiet saved_quiet).base hA.saved

include hA in
theorem getter_opens {α : Type} {g : Aid → α} {f : α → State → State}
    (hf : ∀ x, Quiet s.kernelCurrAct (saved e s) (f x (saved e s))) :
    Opens b e s ((ctrlAid b (e.regs.cf .c3) (saved e s) >>= fun a => .ok (g a)) >>= fun x => .ok (f x (saved e s))) := by
  refine result_opens hR (fun st hst => ?_) hf
  rcases ctrlAid_saved hB hA with ht | ⟨a, -, ha⟩
  · rw [ht] at hst
    cases hst
    rfl
  · rw [ha] at hst
    cases hst

include hA in
theorem syscallActCtrlGetRef_opens : Opens b e s (syscallActCtrlGetRef b (saved e s)) := by
  unfold syscallActCtrlGetRef actGetRef
  rw [saved_frame hB]
  exact getter_opens hB hR hA (fun x => setC3_quiet (saved_ptr hB) x)

include hA in
theorem syscallActCtrlGetId_opens : Opens b e s (syscallActCtrlGetId b (saved e s)) := by
  unfold syscallActCtrlGetId actGetId
  rw [saved_frame hB]
  exact getter_opens hB hR hA (fun x => setC3_quiet (saved_ptr hB) x)

include hA in
theorem syscallActCtrlGetStatus_opens : Opens b e s (syscallActCtrlGetStatus b (saved e s)) := by
  unfold syscallActCtrlGetStatus actGetStatus
  rw [saved_frame hB]
  exact getter_opens hB hR hA (fun x => setV0_quiet (saved_ptr hB) x)

theorem syscallActSealIdentifier_opens : Opens b e s (syscallActSealIdentifier (saved e s)) := by
  unfold syscallActSealIdentifier
  refine result_opens hR (fun st hst => ?_) (fun x => setC3_quiet (saved_ptr hB) x)
  unfold actSealIdentifier at hst
  split at hst
  · exact kernelSeal_stop hst
  · cases hst
    rfl

omit hB in
theorem syscallPuts_opens : Opens b e s (syscallPuts mem (saved e s)) := by
  unfold syscallPuts
  split
  · exact .ok (.quiet saved_quiet) (hR.quiet saved_quiet)
  · exact .stop_saved .trap

theorem lineCall_opens {r : Except Stop (Int × State)}
    (hr : Sat r (fun p => Quiet s.kernelCurrAct s p.2) (fun st => st = .outOfBounds .intChild)) :
    Opens b e s (r >>= fun p => .ok (setV0 p.1 p.2)) := by
  cases r with
  | error st =>
    obtain rfl : st = .outOfBounds .intChild := hr
    exact .stop_saved .intChild
  | ok p =>
    have hq : Quiet s.kernelCurrAct s p.2 := hr
    have hq' : Quiet s.kernelCurrAct s (setV0 p.1 p.2) := hq.trans (setV0_quiet (hq.ptr.trans hB.ptr_eq) p.1)
    exact .ok (.quiet hq') (hR.quiet hq')

theorem syscallInterruptRegister_opens : Opens b e s (syscallInterruptRegister (saved e s)) := by
  refine lineCall_opens hB hR ((kernelInterruptRegister_sat _).mono (fun p hp => ?_) (fun _ => And.right))
  rcases hp with hp | ⟨i, -, -, -, hp⟩ <;> rw [hp]
  · exact saved_quiet
  · exact saved_quiet.trans (.child i)

theorem syscallInterruptEnable_opens : Opens b e s (syscallInterruptEnable (saved e s)) := by
  refine lineCall_opens hB hR ((kernelInterruptEnable_sat _).mono (fun p hp => ?_) (fun _ => And.right))
  rcases hp with hp | ⟨i, -, -, -, hp⟩ <;> rw [hp]
  · exact saved_quiet
  · exact saved_quiet.trans (.mask _)

/-! ### Registering, revoking, terminating -/

include hc in
theorem syscallActRegister_opens : Opens b e s (syscallActRegister b mem (saved e s)) := by
  unfold syscallActRegister
  cases hreg : actRegister b mem ((saved e s).frame.cf .c4) (saved e s) with
  | error st =>
    rcases actRegister_sat.error hreg with rfl | rfl | rfl
    · exact .stop_saved .trap
    · exact .stop_saved .actName
    · exact .stop_saved (.panic _)
  | ok p =>
    obtain ⟨hlt, field, frame, ref, id, -, href, -, -, hk⟩ := actRegister_sat.ok hreg
    have ho : Opening b e s p.2 := hk ▸ .register hlt field frame ref id saved_quiet ⟨mem, hc⟩ href
    have hptr : p.2.kernelExceptionFramepPtr = s.kernelCurrAct := by
      rw [hk]
      exact hB.ptr_eq
    have hrun : Runs p.2 := by
      have hne : s.kernelCurrAct ≠ ⟨s.kernelNextAct, hlt⟩ := fun he => by
        have hreg := hB.curr_reg
        rw [he] at hreg
        exact Nat.lt_irrefl _ hreg
      rw [hk, Runs, State.schedStatus, State.register_kernelActs]
      exact (congrArg Act.schedStatus (if_neg hne)).trans hR
    exact .quiet_after ho (setC3_quiet hptr p.1) hrun

include hA hc in
theorem syscallActRevoke_opens : Opens b e s (syscallActRevoke b (saved e s)) := by
  unfold syscallActRevoke
  rw [saved_frame hB]
  rcases ctrlAid_saved hB hA with ht | ⟨a, hreg, ha⟩
  · unfold actRevoke
    rw [ht]
    exact .stop_saved .trap
  rw [actRevoke_eq ha]
  split
  · have hq : Quiet s.kernelCurrAct s (setV0 (-1) (saved e s)) := saved_quiet.trans (setV0_quiet (saved_ptr hB) _)
    exact .ok (.quiet hq) (hR.quiet hq)
  · rename_i hst
    have hptr : ((saved e s).revoke a).kernelExceptionFramepPtr = s.kernelCurrAct := hB.ptr_eq
    have hrun : Runs ((saved e s).revoke a) := (State.setStatus_schedStatus (saved e s) a _ _).trans hR
    exact .quiet_after (.revoke a saved_quiet ⟨mem, hc⟩ hreg hst) (setV0_quiet hptr 0) hrun

include hR in
/-- From the termination on, an `act_terminate` is routine. -/
theorem syscallActTerminate_leads {a : Aid} (ha : ctrlAid b (e.regs.cf .c3) (saved e s) = .ok a)
    (ho : Opening b e s ((saved e s).terminate a)) (hst : ¬ (s.SlotTest a ∧ s.sched.squeueAEnd = 0)) :
    Leads (Routine b e s.kernelCurrAct) (Halts b s.kernelCurrAct) ((saved e s).terminate a)
      (syscallActTerminate b (saved e s)) Runs := by
  have hcurr : ((saved e s).terminate a).kernelCurrAct = s.kernelCurrAct := ho.curr
  have hst' : ¬ ((saved e s).SlotTest a ∧ (saved e s).sched.squeueAEnd = 0) := hst
  unfold syscallActTerminate
  rw [saved_frame hB, actTerminate_eq ha, if_neg hst', ok_bind]
  by_cases hself : a = s.kernelCurrAct
  · rw [if_pos (by simp [hself, saved])]
    exact schedReschedule_leads (ho.ready hB) 0
  · rw [if_neg (by simp [hself, saved])]
    have hptr : ((saved e s).terminate a).kernelExceptionFramepPtr = s.kernelCurrAct := by
      rw [State.terminate_eq]
      exact hB.ptr_eq
    have hrun : Runs ((saved e s).terminate a) := by
      rw [Runs, hcurr, State.terminate_schedStatus, if_neg (Ne.symm hself)]
      exact hR
    have hq := setV0_quiet hptr 0
    exact .step (.quiet hq) (.ok (hrun.quiet hq))

include hA hc in
theorem syscallActTerminate_opens (hsys : sysnOf (e.regs.mf .v0) = some .actTerminate) :
    Opens b e s (syscallActTerminate b (saved e s)) := by
  rcases ctrlAid_saved hB hA with ht | ⟨a, hreg, ha⟩
  · unfold syscallActTerminate actTerminate
    rw [saved_frame hB, ht]
    exact .stop_saved .trap
  have hterm : Terminates b e s a := ⟨⟨mem, hc⟩, hsys, ha⟩
  by_cases hst : s.SlotTest a ∧ s.sched.squeueAEnd = 0
  · have hst' : (saved e s).SlotTest a ∧ (saved e s).sched.squeueAEnd = 0 := hst
    have hstop : syscallActTerminate b (saved e s) = .error (.outOfBounds .squeueA) := by
      unfold syscallActTerminate
      rw [saved_frame hB, actTerminate_eq ha, if_pos hst', error_bind]
    rw [hstop]
    exact Stuck.terminate a hterm hst.1 hst.2
  · have hpos : s.SlotTest a → 0 < s.sched.squeueAEnd := fun ht => Nat.pos_of_ne_zero (fun h0 => hst ⟨ht, h0⟩)
    have ho : Opening b e s ((saved e s).terminate a) := .terminate a saved_quiet hterm hreg hpos
    exact .of_leads ho (syscallActTerminate_leads hB hR ha ho hst)

/-! ### The demux -/

include hA hc in
theorem syscallDemux_opens {sysn : Sysn} (hsys : sysnOf (e.regs.mf .v0) = some sysn) :
    Opens b e s (syscallDemux b mem sysn (saved e s)) := by
  cases sysn with
  | sleep => exact syscallSleep_opens hB hR
  | actRegister => exact syscallActRegister_opens hB hR hc
  | actCtrlGetRef => exact syscallActCtrlGetRef_opens hB hR hA
  | actCtrlGetId => exact syscallActCtrlGetId_opens hB hR hA
  | actCtrlGetStatus => exact syscallActCtrlGetStatus_opens hB hR hA
  | actRevoke => exact syscallActRevoke_opens hB hR hA hc
  | actTerminate => exact syscallActTerminate_opens hB hR hA hc hsys
  | actSealIdentifier => exact syscallActSealIdentifier_opens hB hR
  | puts => exact syscallPuts_opens hR
  | panic => exact .stop_saved (.freeze _ (by decide))
  | interruptRegister => exact syscallInterruptRegister_opens hB hR
  | interruptEnable => exact syscallInterruptEnable_opens hB hR

include hA hc in
theorem kernelExceptionSyscall_opens : Opens b e s (kernelExceptionSyscall b mem (saved e s)) := by
  unfold kernelExceptionSyscall
  rw [saved_frame hB]
  split
  · rename_i sysn hsys
    exact (syscallDemux_opens hB hR hA hc hsys).bind_quiet (fun m => .skip)
  · exact .stop_saved (.freeze _ (by decide))

end Syscalls

/-! ## Message calls -/

/-- The pair a `ccall` presents: the reference of an activation, and an identifier with what it unseals to. -/
structure Operands (b : Build) (e : Entry) (callee : Aid) (cs : Cap) : Prop where
  ref : actCreateRef b callee = .ok (e.regs.cf .c1)
  identifier : kernelUnseal (e.regs.cf .c2) (e.regs.cf .c1).otype = .ok cs

theorem ccall_operands (hA : Unseals b e s) (hc : e.cause = .ccall)
    (ht : ccallTraps (e.regs.cf .c1) (e.regs.cf .c2) = true) :
    ∃ callee cs, s.Registered callee ∧ Operands b e callee cs := by
  simp only [ccallTraps, Bool.and_eq_true, beq_iff_eq, and_assoc] at ht
  obtain ⟨ht1, ht2, hs1, hs2, ho, hp, -⟩ := ht
  obtain ⟨a, hreg, href⟩ := hA.ref hc ht1 hs1 hp
  exact ⟨a, { e.regs.cf .c2 with isSealed := false, otype := 0 }, hreg, href,
    by simp [kernelUnseal, Cap.withoutSeal, ht2, hs2, ho]⟩

theorem Operands.unseal {callee : Aid} {cs : Cap} (hB : Base s) (ho : Operands b e callee cs) :
    kernelUnseal ((returning e s).frame.cf .c2) ((returning e s).frame.cf .c1).otype = .ok cs ∧
      ∃ cb, kernelUnseal ((returning e s).frame.cf .c1) ((returning e s).frame.cf .c1).otype = .ok cb ∧
        derefAct b cb = .ok callee := by
  rw [returning_cf hB (by decide), returning_cf (r := .c1) hB (by decide)]
  exact ⟨ho.identifier, _, actCreateRef_unseal ho.ref, derefAct_ref callee⟩

section Ccall

variable {callee : Aid} {cs cb : Cap} (hcs : kernelUnseal (s.frame.cf .c2) (s.frame.cf .c1).otype = .ok cs)
  (hcb : kernelUnseal (s.frame.cf .c1) (s.frame.cf .c1).otype = .ok cb) (hd : derefAct b cb = .ok callee)
include hcs hcb

theorem kernelCcallCore_refused (hp : cs.hasPerms Cap.permStore = false) (cflags : Nat) :
    kernelCcallCore b cflags s = .ok s := by
  unfold kernelCcallCore
  simp only [hcs, hcb, ok_bind, hp]
  rfl

include hd

theorem kernelCcallCore_dead (hp : cs.hasPerms Cap.permStore = true) (hst : s.status callee ≠ .alive) (cflags : Nat) :
    kernelCcallCore b cflags s = .ok s := by
  unfold kernelCcallCore
  simp only [hcs, hcb, ok_bind, hp, hd, hst, Bool.not_true, ne_eq, not_false_eq_true, if_true]
  rfl

variable (hp : cs.hasPerms Cap.permStore = true) (hst : s.status callee = .alive)
include hp hst

/-- The state an asynchronous send leaves, with the sender told when the queue was full. -/
def sendResult (r : Int × State) : State := if r.1 = 0 then r.2 else r.2.modifyFrame (fun f => f.setMf .v0 0)

/-- **Selector 1.** -/
theorem kernelCcallCore_send : kernelCcallCore b 0 s =
    msgPush b (s.kernelActs callee).aid s.kernelCurrAct cs Cap.null s >>= fun r => .ok (sendResult r) := by
  unfold kernelCcallCore sendResult
  simp only [hcs, hcb, ok_bind, hp, hd, hst]
  simp
  refine congrArg _ (funext fun r => ?_)
  split <;> rfl

/-- **Selector 2.** -/
theorem kernelCcallCore_sendSwitch : kernelCcallCore b 1 s =
    msgPush b (s.kernelActs callee).aid s.kernelCurrAct cs Cap.null s >>= fun r =>
      actWait b (sendResult r).kernelCurrAct ((sendResult r).kernelActs callee).aid (sendResult r) := by
  unfold kernelCcallCore sendResult
  simp only [hcs, hcb, ok_bind, hp, hd, hst]
  simp
  refine congrArg _ (funext fun r => ?_)
  split <;> rfl

/-- **Selector 4.** -/
theorem kernelCcallCore_call : kernelCcallCore b 2 s =
    msgPush b (s.kernelActs callee).aid s.kernelCurrAct cs (tokenCap s.kernelCurrAct (s.unique + 1))
      (s.issue s.kernelCurrAct) >>= fun r =>
        if r.1 = 0 then
          schedA2d b r.2.kernelCurrAct .syncBlock r.2 >>= fun m => schedReschedule b (m.kernelActs callee).aid m
        else .error (.panic .queueFullCsync) := by
  unfold kernelCcallCore
  simp only [hcs, hcb, ok_bind, hp, hd, hst, getSyncToken_eq]
  simp

end Ccall

theorem send_leads (b : Build) {callee : Aid} (cs : Cap) (hB : Base s) (hR : Runs s) (hcause : e.cause = .ccall)
    (hreg : s.Registered callee) (hst : s.status callee = .alive) :
    Leads (Routine b e s.kernelCurrAct) (Halts b s.kernelCurrAct) s
      (msgPush b (s.kernelActs callee).aid s.kernelCurrAct cs Cap.null s >>= fun r => .ok (sendResult r))
      (fun m => Runs m ∧ m.kernelCurrAct = s.kernelCurrAct) := by
  rw [hB.aid_eq callee hreg, msgPush_eq hB hreg]
  split
  · rename_i hroom
    split
    · rename_i hov
      exact .stop (.overflow _ hov.1 (Nat.le_of_not_lt hov.2))
    · rename_i hov
      have hlt : s.schedStatus callee = .waiting → s.sched.squeueAEnd < maxActivations :=
        fun hw => by_contra fun hn => hov ⟨hw, hn⟩
      exact .step (.accept callee _ _ _ hreg hroom hlt (.inl ⟨hst, rfl, hcause⟩))
        (.ok ⟨hR.accept, State.accept_curr _ _ _⟩)
  · have hq : Quiet s.kernelCurrAct s (s.modifyFrame (fun f => f.setMf .v0 0)) := .modifyFrame hB.ptr_eq
    exact .step (.quiet hq) (.ok ⟨hR.quiet hq, rfl⟩)

/-- **A synchronous call** sends its message, blocks its caller and reschedules. -/
theorem call_opens {s₀ : State} {callee : Aid} {cs : Cap} (hB : Base s) (hR : Runs s) (hq : Quiet s.kernelCurrAct s s₀)
    (hcurr : s₀.kernelCurrAct = s.kernelCurrAct) (hcause : e.cause = .ccall) (hsel : e.regs.mf .v1 = 4)
    (hreg : s₀.Registered callee) (hst : s₀.status callee = .alive) :
    Opens b e s (msgPush b (s₀.kernelActs callee).aid s₀.kernelCurrAct cs (tokenCap s₀.kernelCurrAct (s₀.unique + 1))
      (s₀.issue s₀.kernelCurrAct) >>= fun r =>
        if r.1 = 0 then
          schedA2d b r.2.kernelCurrAct .syncBlock r.2 >>= fun m => schedReschedule b (m.kernelActs callee).aid m
        else .error (.panic .queueFullCsync)) := by
  have hr : Ready s.kernelCurrAct s₀ := (Ready.of_base hB).quiet hq
  have hi : Base (s₀.issue s₀.kernelCurrAct) := by
    rw [hcurr]
    exact hr.base.issue hB.curr_ne hr.reg
  have hroom : ∀ x, (s₀.issue s₀.kernelCurrAct).pending x = s₀.pending x := fun _ => rfl
  rw [hr.base.aid_eq callee hreg, msgPush_eq hi hreg, hroom]
  split
  · rename_i hfree
    split
    · rename_i hov
      refine .stop hq (.overflow callee ?_ (Nat.le_of_not_lt hov.2))
      simpa using hov.1
    rename_i hov
    have hlt : s₀.schedStatus callee = .waiting → s₀.sched.squeueAEnd < maxActivations :=
      fun hw => by_contra fun hn => hov ⟨by simpa using hw, hn⟩
    rw [hcurr, ok_bind, if_pos rfl]
    set m := (s₀.issue s.kernelCurrAct).accept callee
      (mkMsg ((s₀.issue s.kernelCurrAct).kernelExceptionFramep s.kernelCurrAct) cs
        (tokenCap s.kernelCurrAct (s₀.unique + 1))) with hm
    have hsent : Sent e s.kernelCurrAct s₀ m := .mk callee cs hcause hsel hreg hst hfree hlt
    have hmc : m.kernelCurrAct = s.kernelCurrAct := by rw [hm, State.accept_curr, State.issue_curr, hcurr]
    have hrun : m.schedStatus s.kernelCurrAct = .runnable := by
      have h0 : s₀.schedStatus s.kernelCurrAct = .runnable := hcurr ▸ hR.quiet hq
      have hne : ¬ (s.kernelCurrAct = callee ∧ s₀.schedStatus callee = .waiting) := by
        rintro ⟨he, hw⟩
        rw [← he, h0] at hw
        cases hw
      rw [hm, State.accept_schedStatus, State.issue_schedStatus, if_neg hne, State.issue_schedStatus, h0]
    rw [hmc, schedA2d_eq (.inl rfl)]
    split
    · rename_i hstale
      exact Stuck.call hq hsent (.stale hstale.1 hrun hstale.2)
    rename_i hstale
    split
    · rename_i h0
      exact Stuck.call hq hsent (.underflow hrun h0)
    rename_i h0
    have hslot : b.lite = false → m.SlotTest s.kernelCurrAct := fun hl => by_contra fun ht => hstale ⟨hl, ht⟩
    have ho : Opening b e s (m.deactivate s.kernelCurrAct .syncBlock) :=
      .call hq hsent hslot (Nat.pos_of_ne_zero h0)
    exact .of_leads ho (schedReschedule_leads (ho.ready hB) _)
  · exact .stop hq (.panic _)

theorem kernelCcall_opens (hB : Base s) (hR : Runs s) (hA : Unseals b e s) (hcause : e.cause = .ccall)
    (ht : ccallTraps (e.regs.cf .c1) (e.regs.cf .c2) = true) : Opens b e s (kernelCcall b (saved e s)) := by
  have hq : Quiet s.kernelCurrAct s (returning e s) := returning_quiet
  have hr : Ready s.kernelCurrAct (returning e s) := (Ready.of_base hB).quiet hq
  have hcurr : (returning e s).kernelCurrAct = s.kernelCurrAct := rfl
  have hRr : Runs (returning e s) := hR.quiet hq
  obtain ⟨callee, cs, hreg, ho⟩ := ccall_operands hA hcause ht
  obtain ⟨hcs, cb, hcb, hd⟩ := ho.unseal hB
  have hdone : Opens b e s (.ok (returning e s)) := .ok (.quiet hq) hRr
  -- what every selector refuses leaves only the registers saved
  have hrefused : ∀ cflags, ¬ (cs.hasPerms Cap.permStore = true ∧ (returning e s).status callee = .alive) →
      kernelCcallCore b cflags (returning e s) = .ok (returning e s) := fun cflags hn => by
    cases hp : cs.hasPerms Cap.permStore with
    | false => exact kernelCcallCore_refused hcs hcb hp cflags
    | true => exact kernelCcallCore_dead hcs hcb hd hp (fun hst => hn ⟨hp, hst⟩) cflags
  rw [kernelCcall_eq hB]
  by_cases hok : cs.hasPerms Cap.permStore = true ∧ (returning e s).status callee = .alive
  · obtain ⟨hp, hst⟩ := hok
    have hsend := send_leads b cs hr.base hRr hcause hreg hst
    split
    · rw [kernelCcallCore_send hcs hcb hd hp hst]
      exact .of_leads (.quiet hq) (hsend.mono (fun _ _ h => h.1))
    split
    · rw [kernelCcallCore_sendSwitch hcs hcb hd hp hst]
      rw [← bind_ok_bind _ sendResult fun m => actWait b m.kernelCurrAct (m.kernelActs callee).aid m]
      refine .of_leads (.quiet hq) ?_
      refine hsend.bind (fun m hm hrun => ?_)
      rw [hrun.2]
      exact actWait_leads (hr.path hm) (hrun.2 ▸ hrun.1) _
    split
    · rename_i hsel4
      rw [kernelCcallCore_call hcs hcb hd hp hst]
      exact call_opens hB hR hq hcurr hcause hsel4 hreg hst
    · exact hdone
  · split
    · rw [hrefused 0 hok]; exact hdone
    split
    · rw [hrefused 1 hok]; exact hdone
    split
    · rw [hrefused 2 hok]; exact hdone
    · exact hdone

/-! ## Replies -/

theorem kernelCreturn_null (hB : Base s) (hn : (e.regs.cf .c1).isNull = true) :
    kernelCreturn b (saved e s) = actWait b s.kernelCurrAct s.kernelCurrAct (returning e s) := by
  have hskip : kernelSkipInstr (saved e s).kernelCurrAct (saved e s) = returning e s := rfl
  unfold kernelCreturn
  rw [hskip]
  dsimp only
  rw [returning_cf hB (by decide), if_pos hn]
  rfl

theorem kernelCreturn_unseal {st : Stop} (hB : Base s) (hn : (e.regs.cf .c1).isNull = false)
    (hu : kernelUnseal (e.regs.cf .c1) otypeSyncToken = .error st) : kernelCreturn b (saved e s) = .error st := by
  have hskip : kernelSkipInstr (saved e s).kernelCurrAct (saved e s) = returning e s := rfl
  unfold kernelCreturn
  rw [hskip]
  dsimp only
  rw [returning_cf hB (by decide), hn, if_neg Bool.false_ne_true, hu]
  rfl

/-- **A `creturn` with a token**: the check, the assertion, the answer, the wait. -/
theorem kernelCreturn_token {C : Aid} {u : BitVec 32} (hB : Base s) (htok : syncTokenCap C u = .ok (e.regs.cf .c1)) :
    kernelCreturn b (saved e s) =
      if replyExpected C (tokenOffset C u) s = false then .error (.freeze .badSyncCreturn)
      else if b.lite = false ∧ s.schedStatus C ≠ .syncBlock then .error (.assertion .kernelCreturn)
      else if s.sched.squeueAEnd < maxActivations then actWait b s.kernelCurrAct C ((returning e s).answer C)
      else .error (.outOfBounds .squeueA) := by
  have hskip : kernelSkipInstr (saved e s).kernelCurrAct (saved e s) = returning e s := rfl
  have hc1 : tokenCap C u = e.regs.cf .c1 := by
    rw [syncTokenCap_eq] at htok
    exact Except.ok.inj htok
  obtain ⟨cap, hcap, hoff⟩ := tokenCap_unseal C u
  have hlt : (tokenCaller (tokenOffset C u)).toNat < maxActivations := by
    rw [tokenCaller_tokenOffset]
    exact C.isLt
  have hC : (⟨_, hlt⟩ : Aid) = C := Fin.ext (tokenCaller_tokenOffset C u)
  have hexp : replyExpected C (tokenOffset C u) (returning e s) = replyExpected C (tokenOffset C u) s := rfl
  have hst : (returning e s).schedStatus C = s.schedStatus C := rfl
  have hend : (returning e s).sched.squeueAEnd = s.sched.squeueAEnd := rfl
  unfold kernelCreturn
  rw [hskip]
  dsimp only
  rw [returning_cf hB (by decide), ← hc1, tokenCap_not_null, if_neg Bool.false_ne_true, hcap, ok_bind, hoff, dif_pos hlt]
  simp only [hC, hexp, schedD2a_eq (.inl rfl), hst, hend]
  cases replyExpected C (tokenOffset C u) s with
  | false => rfl
  | true =>
    simp only [Bool.not_true, Bool.false_eq_true, Bool.true_eq_false, if_false]
    by_cases hl : b.lite = false ∧ s.schedStatus C ≠ .syncBlock
    · rw [if_pos hl]
      simp [kernelAssert, hl.1, hl.2]
    · have hassert : kernelAssert b (s.schedStatus C == .syncBlock) .kernelCreturn = .ok () := by
        cases hb : b.lite with
        | true => simp [kernelAssert, hb]
        | false => simp [kernelAssert, not_and.1 hl hb]
      rw [if_neg hl, hassert, ok_bind]
      split <;> rfl

theorem kernelCreturn_opens (hB : Base s) (hR : Runs s) (hA : Unseals b e s) (hcause : e.cause = .creturn) :
    Opens b e s (kernelCreturn b (saved e s)) := by
  have hq : Quiet s.kernelCurrAct s (returning e s) := returning_quiet
  have hr : Ready s.kernelCurrAct (returning e s) := (Ready.of_base hB).quiet hq
  cases hn : (e.regs.cf .c1).isNull with
  | true =>
    rw [kernelCreturn_null hB hn]
    exact .of_leads (.quiet hq) (actWait_leads hr hR _)
  | false =>
    cases hu : kernelUnseal (e.regs.cf .c1) otypeSyncToken with
    | error st =>
      rw [kernelCreturn_unseal hB hn hu, kernelUnseal_stop hu]
      exact .stop_saved .trap
    | ok cap =>
      obtain ⟨htag, hsealed, hotype⟩ := kernelUnseal_ok hu
      obtain ⟨C, u, hissued, htok⟩ := hA.token htag hsealed hotype
      rw [kernelCreturn_token hB htok]
      split
      · exact .stop_saved (.freeze _ (by decide))
      rename_i hexp
      have hp : Presents e s C u := ⟨hcause, htok, hissued, by simpa using hexp⟩
      split
      · rename_i hreplay
        exact Stuck.replay C u hreplay.1 hp hreplay.2
      rename_i hreplay
      have hblocked : b.lite = false → s.schedStatus C = .syncBlock :=
        fun hl => by_contra fun hst => hreplay ⟨hl, hst⟩
      split
      · have ho : Opening b e s ((returning e s).answer C) := .reply C u hp hblocked ‹_›
        have hrun : ((returning e s).answer C).schedStatus s.kernelCurrAct = .runnable := by
          rw [State.answer_schedStatus]
          split
          · rfl
          · exact hR
        exact .of_leads ho (actWait_leads (ho.ready hB) hrun C)
      · rename_i hfull
        exact Stuck.reply C u hp hblocked (Nat.le_of_not_lt hfull)

/-! ## Entries -/

/-- **Every kernel entry** opens as its cause says and goes on with routine updates, up to the return to a runnable
activation or to a stop. -/
theorem kernelEntry_opens (hB : Base s) (hR : Runs s) (hA : Unseals b e s) :
    Opens b e s (kernelEntry b e s) := by
  cases hc : e.cause with
  | interrupt ipending count =>
    rw [kernelEntry_eq hB, hc]
    exact .of_leads (.quiet saved_quiet)
      (kernelInterrupt_leads ((Ready.of_base hB).quiet saved_quiet) hR ⟨_, _, hc⟩ ipending count)
  | syscall mem =>
    rw [kernelEntry_eq hB, hc]
    exact kernelExceptionSyscall_opens hB hR hA hc
  | ccall =>
    rw [kernelEntry_ccall hB hc]
    split
    · exact kernelCcall_opens hB hR hA hc ‹_›
    · exact .stop_saved (.freeze _ (by decide))
  | creturn =>
    rw [kernelEntry_eq hB, hc]
    exact kernelCreturn_opens hB hR hA hc
  | fault =>
    rw [kernelEntry_eq hB, hc]
    exact .stop_saved (.freeze _ (by decide))

end Kernel
end CheriOS
