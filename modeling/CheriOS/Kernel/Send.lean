import CheriOS.Kernel.Plain
import CheriOS.Kernel.Script
/-!
# Send — what a sender is told

A send that finds no room writes 0 to the sender's `$v0`.  A send that is refused writes nothing there, and neither does
one that succeeds, so that the method number of the sender stays in the register either way; a refused synchronous call
comes back at once, with the caller's own `$v0` and `$c3` where the reply would be.
-/
namespace CheriOS
namespace Kernel

open Outcome

variable {b : Build} {e : Entry} {c callee : Aid} {s s' m k : State} {cs : Cap} {tr : List (Transition.Step State Entry)}

/-! ## The core of a call -/

/-- What `kernel_ccall_core` turns away before it pushes anything. -/
def Refused (callee : Aid) (cs : Cap) (s : State) : Prop :=
  cs.hasPerms Cap.permStore = false ∨ s.status callee ≠ .alive

instance (callee : Aid) (cs : Cap) (s : State) : Decidable (Refused callee cs s) := inferInstanceAs (Decidable (_ ∨ _))

def Full (callee : Aid) (s : State) : Prop := maxMsg - 1 ≤ (s.pending callee).length

instance (callee : Aid) (s : State) : Decidable (Full callee s) := inferInstanceAs (Decidable (_ ≤ _))

section Core

variable (hB : Base s) (ho : Operands b e callee cs)
include hB ho

theorem kernelCcallCore_turned (hr : Refused callee cs s) (cflags : Nat) :
    kernelCcallCore b cflags (returning e s) = .ok (returning e s) := by
  obtain ⟨hcs, cb, hcb, hd⟩ := ho.unseal hB
  cases hp : cs.hasPerms Cap.permStore with
  | false => exact kernelCcallCore_refused hcs hcb hp cflags
  | true =>
    have hst : (returning e s).status callee ≠ .alive := hr.resolve_left (by simp [hp])
    exact kernelCcallCore_dead hcs hcb hd hp hst cflags

variable (hreg : s.Registered callee) (hn : ¬ Refused callee cs s)
include hreg hn

/-- **An asynchronous send that is not turned away.** -/
theorem kernelCcallCore_async : kernelCcallCore b 0 (returning e s) =
    if Full callee s then .ok ((returning e s).modifyFrame (fun f => f.setMf .v0 0))
    else if s.schedStatus callee = .waiting ∧ ¬ s.sched.squeueAEnd < maxActivations then .error (.outOfBounds .squeueA)
    else .ok ((returning e s).accept callee
      (mkMsg ((returning e s).kernelExceptionFramep s.kernelCurrAct) cs Cap.null)) := by
  obtain ⟨hcs, cb, hcb, hd⟩ := ho.unseal hB
  obtain ⟨hp, hst⟩ := not_or.1 hn
  have hr : Ready s.kernelCurrAct (returning e s) := (Ready.of_base hB).quiet returning_quiet
  have hpush : msgPush b callee s.kernelCurrAct cs Cap.null (returning e s) =
      if (s.pending callee).length < maxMsg - 1 then
        if s.schedStatus callee = .waiting ∧ ¬ s.sched.squeueAEnd < maxActivations then
          .error (.outOfBounds .squeueA)
        else .ok (0, (returning e s).accept callee
          (mkMsg ((returning e s).kernelExceptionFramep s.kernelCurrAct) cs Cap.null))
      else .ok (-1, returning e s) := msgPush_eq hr.base hreg _ _
  rw [kernelCcallCore_send hcs hcb hd (Bool.not_eq_false _ ▸ hp) (Decidable.not_not.1 hst), hr.base.aid_eq callee hreg]
  show (msgPush b callee s.kernelCurrAct cs Cap.null (returning e s) >>= _) = _
  rw [hpush]
  by_cases hfull : Full callee s
  · rw [if_pos hfull, if_neg (Nat.not_lt.2 hfull)]
    rfl
  · rw [if_neg hfull, if_pos (Nat.lt_of_not_le hfull)]
    split <;> rfl

/-- **A synchronous call that is not turned away** has its message in the queue, or does not come back. -/
theorem kernelCcallCore_sync (h : kernelCcallCore b 2 (returning e s) = .ok s') :
    ∃ msg, msg.idc = cs ∧ ∀ D, s'.accepted D = if D = callee then s.accepted D ++ [msg] else s.accepted D := by
  obtain ⟨hcs, cb, hcb, hd⟩ := ho.unseal hB
  obtain ⟨hp, hst⟩ := not_or.1 hn
  have hr : Ready s.kernelCurrAct (returning e s) := (Ready.of_base hB).quiet returning_quiet
  have hi : Ready s.kernelCurrAct ((returning e s).issue s.kernelCurrAct) :=
    ⟨hr.base.issue hB.curr_ne hr.reg, hr.reg⟩
  have hcaller : (returning e s).kernelCurrAct = s.kernelCurrAct := rfl
  rw [kernelCcallCore_call hcs hcb hd (Bool.not_eq_false _ ▸ hp) (Decidable.not_not.1 hst),
    hr.base.aid_eq callee hreg, hcaller] at h
  obtain ⟨r, hpush, h⟩ := bind_eq_ok.1 h
  rw [msgPush_eq hi.base hreg] at hpush
  split at hpush
  case isFalse =>
    obtain rfl := Except.ok.inj hpush
    cases h
  split at hpush
  · cases hpush
  obtain rfl := Except.ok.inj hpush
  rename_i hroom _
  set msg := mkMsg (((returning e s).issue s.kernelCurrAct).kernelExceptionFramep s.kernelCurrAct) cs
    (tokenCap s.kernelCurrAct ((returning e s).unique + 1)) with hmsg
  set m := ((returning e s).issue s.kernelCurrAct).accept callee msg with hm
  have hma : Base m := hi.base.accept hreg hroom
  have hcurr : m.kernelCurrAct = s.kernelCurrAct := State.accept_curr _ _ _
  obtain ⟨k, hk, h⟩ := bind_eq_ok.1 h
  have hrk : Ready s.kernelCurrAct k ∧ ∀ D, k.accepted D = m.accepted D := by
    rw [hcurr, schedA2d_eq (.inl rfl)] at hk
    split at hk
    · cases hk
    split at hk
    · cases hk
    obtain rfl := Except.ok.inj hk
    have hregm : m.Registered s.kernelCurrAct := hcurr ▸ hma.curr_reg
    exact ⟨⟨hma.deactivate hB.curr_ne hregm (by simp) (by simp), hregm⟩, deactivate_accepted⟩
  refine ⟨msg, rfl, fun D => ?_⟩
  rw [schedReschedule_accepted hrk.1 _ h D, hrk.2, hm, accept_accepted, issue_accepted, returning_quiet.accepted]

end Core

/-! ## What the sender sees -/

def Unsent (s s' : State) : Prop := ∀ D, s'.accepted D = s.accepted D

/-- **The report of a send**: the sender has 0 in `$v0` if and only if its message was not put into a queue. -/
def Reports (s s' : State) : Prop := (s'.kernelExceptionFramep s.kernelCurrAct).mf .v0 = 0 ↔ Unsent s s'

/-- **A call that comes back without an answer**: nothing was sent, and the caller goes on with its own `$v0` and `$c3`
where the reply would be. -/
def Unanswered (e : Entry) (s s' : State) : Prop :=
  Unsent s s' ∧ s'.kernelCurrAct = s.kernelCurrAct ∧
    (s'.kernelExceptionFramep s.kernelCurrAct).mf .v0 = e.regs.mf .v0 ∧
    (s'.kernelExceptionFramep s.kernelCurrAct).cf .c3 = e.regs.cf .c3

theorem returning_unsent : Unsent s (returning e s) := fun D => returning_quiet.accepted D

theorem returning_framep : (returning e s).kernelExceptionFramep s.kernelCurrAct =
    (e.regs.setMf .pc (e.regs.mf .pc + 4)).setCf .pcc ((e.regs.cf .pcc).incOffset 4) := by
  simp [returning, kernelSkipInstr]

theorem async_accepted (hB : Base s) (ho : Operands b e callee cs) (hreg : s.Registered callee)
    (hn : ¬ Refused callee cs s) (h : kernelCcallCore b 0 (returning e s) = .ok s') (D : Aid) :
    s'.accepted D = s.accepted D ∨ D = callee ∧ ∃ msg, msg.idc = cs ∧ s'.accepted D = s.accepted D ++ [msg] := by
  rw [kernelCcallCore_async hB ho hreg hn] at h
  split at h
  · obtain rfl := Except.ok.inj h
    have hq : Quiet s.kernelCurrAct (returning e s) ((returning e s).modifyFrame fun f => f.setMf .v0 0) :=
      .modifyFrame hB.ptr_eq
    exact .inl ((hq.accepted D).trans (returning_unsent D))
  split at h
  · cases h
  obtain rfl := Except.ok.inj h
  rw [accept_accepted, returning_unsent]
  split
  · exact .inr ⟨‹_›, _, rfl, rfl⟩
  · exact .inl rfl

/-- **What a call puts into the queues**: one message for its callee, with the identifier it presents, or none. -/
theorem kernelCcallCore_accepted (hB : Base s) (hR : Runs s) (hc : e.cause = .ccall) (ho : Operands b e callee cs)
    (hreg : s.Registered callee) {cflags : Nat} (hf : cflags < 3)
    (h : kernelCcallCore b cflags (returning e s) = .ok s') (D : Aid) :
    s'.accepted D = s.accepted D ∨ D = callee ∧ ∃ msg, msg.idc = cs ∧ s'.accepted D = s.accepted D ++ [msg] := by
  by_cases hr : Refused callee cs s
  · rw [kernelCcallCore_turned hB ho hr] at h
    obtain rfl := Except.ok.inj h
    exact .inl (returning_unsent D)
  have hrdy : Ready s.kernelCurrAct (returning e s) := (Ready.of_base hB).quiet returning_quiet
  obtain rfl | rfl | rfl : cflags = 0 ∨ cflags = 1 ∨ cflags = 2 := by omega
  · exact async_accepted hB ho hreg hr h D
  · obtain ⟨hcs, cb, hcb, hd⟩ := ho.unseal hB
    obtain ⟨hp, hst⟩ := not_or.1 hr
    have hp' : cs.hasPerms Cap.permStore = true := Bool.not_eq_false _ ▸ hp
    have hst' : (returning e s).status callee = .alive := Decidable.not_not.1 hst
    have hsend := send_leads b cs hrdy.base (hR.quiet returning_quiet) hc hreg hst'
    rw [← kernelCcallCore_send hcs hcb hd hp' hst'] at hsend
    rw [kernelCcallCore_sendSwitch hcs hcb hd hp' hst',
      ← bind_ok_bind _ sendResult fun m => actWait b m.kernelCurrAct (m.kernelActs callee).aid m,
      ← kernelCcallCore_send hcs hcb hd hp' hst'] at h
    obtain ⟨m, hm, h⟩ := bind_eq_ok.1 h
    obtain ⟨hpath, hRm, hcm⟩ := Sat.ok hsend hm
    rw [hcm] at h
    rw [actWait_accepted (hrdy.path hpath) (hcm ▸ hRm) _ h D]
    exact async_accepted hB ho hreg hr hm D
  · obtain ⟨msg, hidc, hmsg⟩ := kernelCcallCore_sync hB ho hreg hr h
    rw [hmsg]
    split
    · exact .inr ⟨‹_›, msg, hidc, rfl⟩
    · exact .inl rfl

theorem not_unsent {msg : Msg} (h : s'.accepted callee = s.accepted callee ++ [msg]) : ¬ Unsent s s' := fun hu => by
  have hlen := congrArg List.length (h.symm.trans (hu callee))
  simp at hlen

/-- **When an asynchronous send is reported rightly**: turned away, if its method number is 0; otherwise, if there was no
room or the method number is another. -/
def ToldAsync (e : Entry) (callee : Aid) (cs : Cap) (s : State) : Prop :=
  if Refused callee cs s then e.regs.mf .v0 = 0 else Full callee s ∨ e.regs.mf .v0 ≠ 0

theorem reports_async (hB : Base s) (ho : Operands b e callee cs) (hreg : s.Registered callee)
    (h : kernelCcallCore b 0 (returning e s) = .ok s') : Reports s s' ↔ ToldAsync e callee cs s := by
  have hv0 : ((returning e s).kernelExceptionFramep s.kernelCurrAct).mf .v0 = e.regs.mf .v0 := by
    simp [returning_framep]
  unfold Reports ToldAsync
  split
  case isTrue hr =>
    rw [kernelCcallCore_turned hB ho hr] at h
    obtain rfl := Except.ok.inj h
    rw [hv0, iff_true_right returning_unsent]
  case isFalse hn =>
    rw [kernelCcallCore_async hB ho hreg hn] at h
    split at h
    · rename_i hfull
      obtain rfl := Except.ok.inj h
      have hq : Quiet s.kernelCurrAct (returning e s) ((returning e s).modifyFrame fun f => f.setMf .v0 0) :=
        .modifyFrame hB.ptr_eq
      have hu : Unsent s ((returning e s).modifyFrame fun f => f.setMf .v0 0) := fun D =>
        (hq.accepted D).trans (returning_unsent D)
      have hptr : (returning e s).kernelExceptionFramepPtr = s.kernelCurrAct := hB.ptr_eq
      have hzero : (((returning e s).modifyFrame fun f => f.setMf .v0 0).kernelExceptionFramep s.kernelCurrAct).mf .v0 =
          0 := by
        simp [State.modifyFrame, hptr]
      exact iff_of_true (iff_of_true hzero hu) (.inl hfull)
    rename_i hfull
    split at h
    · cases h
    obtain rfl := Except.ok.inj h
    have hsent : ∀ msg, ((returning e s).accept callee msg).accepted callee = s.accepted callee ++ [msg] := fun msg => by
      rw [accept_accepted, if_pos rfl, returning_unsent callee]
    rw [State.accept_framep, hv0, iff_false_right (not_unsent (hsent _)), or_iff_right hfull]

theorem unanswered_sync (hB : Base s) (ho : Operands b e callee cs) (hreg : s.Registered callee)
    (h : kernelCcallCore b 2 (returning e s) = .ok s') : ¬ Unanswered e s s' ↔ ¬ Refused callee cs s := by
  refine not_congr ⟨fun hu => ?_, fun hr => ?_⟩
  · by_contra hn
    obtain ⟨msg, -, hmsg⟩ := kernelCcallCore_sync hB ho hreg hn h
    exact not_unsent ((hmsg callee).trans (if_pos rfl)) hu.1
  · rw [kernelCcallCore_turned hB ho hr] at h
    obtain rfl := Except.ok.inj h
    exact ⟨returning_unsent, rfl, by simp [returning_framep], by simp [returning_framep]⟩

/-- **What a sender is told**, in every state of every run: a `ccall` that comes back reports an asynchronous send rightly
just where `ToldAsync` says, and does not resume the caller of a synchronous call with its own registers just where the
call is not turned away. -/
theorem sender_told (hr : KernelRun b tr s) (hst : kernelStep b s e s') (hc : e.cause = .ccall) :
    ∃ callee cs, s.Registered callee ∧ Operands b e callee cs ∧
      (e.regs.mf .v1 = 1 → (Reports s s' ↔ ToldAsync e callee cs s)) ∧
      (e.regs.mf .v1 = 4 → (¬ Unanswered e s s' ↔ ¬ Refused callee cs s)) := by
  obtain ⟨hB, -⟩ := hr.base
  obtain ⟨hA, h⟩ := hst
  rw [kernelEntry_ccall hB hc] at h
  split at h
  case isFalse => cases h
  obtain ⟨callee, cs, hreg, ho⟩ := ccall_operands hA hc ‹_›
  rw [kernelCcall_eq hB] at h
  refine ⟨callee, cs, hreg, ho, fun h1 => ?_, fun h4 => ?_⟩
  · rw [if_pos h1] at h
    exact reports_async hB ho hreg h
  · have hne1 : e.regs.mf .v1 ≠ 1 := by rw [h4]; decide
    have hne2 : e.regs.mf .v1 ≠ 2 := by rw [h4]; decide
    rw [if_neg hne1, if_neg hne2, if_pos h4] at h
    exact unanswered_sync hB ho hreg h

theorem scriptSat_step (es : List Entry) (e : Entry) (p : State → State → Bool)
    (h : scriptSat debugBuild es (fun s => (checkedEntry debugBuild s e).any (p s)) = true) :
    ∃ tr s s', KernelRun debugBuild tr s ∧ kernelStep debugBuild s e s' ∧ p s s' = true := by
  obtain ⟨tr, s, hr, -, hp⟩ := scriptSat_run _ _ _ h
  obtain ⟨s', hs', hp⟩ := (Option.any_eq_true _ _).1 hp
  exact ⟨tr, s, s', hr, checkedEntry_step hs', hp⟩

/-- Init sends method 1 to an activation that is alive and gets a report that is right. -/
theorem sender_told_one : ∃ s s', kernelStep debugBuild s (callEntry debugBuild 1 1 2) s' ∧
    ∃ callee cs, Operands debugBuild (callEntry debugBuild 1 1 2) callee cs ∧
      (Reports s s' ↔ ToldAsync (callEntry debugBuild 1 1 2) callee cs s) := by
  obtain ⟨tr, s, s', hr, hst, -⟩ := scriptSat_step [registerEntry] (callEntry debugBuild 1 1 2)
    (fun _ _ => true) (by decide +kernel)
  obtain ⟨callee, cs, -, ho, h1, -⟩ := sender_told hr hst rfl
  exact ⟨s, s', hst, callee, cs, ho, h1 rfl⟩

theorem unsent_of_length (hr : KernelRun b tr s) (hst : kernelStep b s e s')
    (hl : ∀ D, (s.accepted D).length = (s'.accepted D).length) : Unsent s s' := fun D =>
  ((accepted_extends (hst.mid hr.base.1 hr.base.2).1.grows D).eq_of_length (hl D)).symm

def sameLengths (s s' : State) : Bool :=
  (List.finRange maxActivations).all fun D => (s.accepted D).length == (s'.accepted D).length

theorem sameLengths_sound (h : sameLengths s s' = true) (D : Aid) : (s.accepted D).length = (s'.accepted D).length := by
  simpa using List.all_eq_true.1 h D (List.mem_finRange D)

/-- **Senders that are misled**: method 0 sent to an activation that takes it reads as a failure; method 1 sent to a
terminated activation reads as a success; a call to it comes back as if it had been answered. -/
theorem sender_misled :
    (∃ tr s s', KernelRun debugBuild tr s ∧ kernelStep debugBuild s (callEntry debugBuild 1 0 2) s' ∧ ¬ Reports s s') ∧
    (∃ tr s s', KernelRun debugBuild tr s ∧ kernelStep debugBuild s (callEntry debugBuild 1 1 2) s' ∧ ¬ Reports s s') ∧
    ∃ tr s s', KernelRun debugBuild tr s ∧ kernelStep debugBuild s (callEntry debugBuild 4 1 2) s' ∧
      Unanswered (callEntry debugBuild 4 1 2) s s' := by
  refine ⟨?_, ?_, ?_⟩
  · obtain ⟨tr, s, s', hr, hst, hp⟩ := scriptSat_step [registerEntry] (callEntry debugBuild 1 0 2)
      (fun s s' => (s'.kernelExceptionFramep s.kernelCurrAct).mf .v0 == 0 && !sameLengths s s') (by decide +kernel)
    rw [Bool.and_eq_true, beq_iff_eq, Bool.not_eq_true'] at hp
    refine ⟨tr, s, s', hr, hst, fun hrep => Bool.eq_false_iff.1 hp.2 ?_⟩
    exact List.all_eq_true.2 fun D _ => beq_iff_eq.2 (congrArg List.length (hrep.1 hp.1 D)).symm
  · obtain ⟨tr, s, s', hr, hst, hp⟩ := scriptSat_step [registerEntry, terminateEntry debugBuild 2]
      (callEntry debugBuild 1 1 2)
      (fun s s' => (s'.kernelExceptionFramep s.kernelCurrAct).mf .v0 == 1 && sameLengths s s') (by decide +kernel)
    rw [Bool.and_eq_true, beq_iff_eq] at hp
    refine ⟨tr, s, s', hr, hst, fun hrep => ?_⟩
    have hzero := hrep.2 (unsent_of_length hr hst (sameLengths_sound hp.2))
    exact absurd (hp.1.symm.trans hzero) (by decide)
  · obtain ⟨tr, s, s', hr, hst, hp⟩ := scriptSat_step [registerEntry, terminateEntry debugBuild 2]
      (callEntry debugBuild 4 1 2)
      (fun s s' => sameLengths s s' && s'.kernelCurrAct == s.kernelCurrAct &&
        (s'.kernelExceptionFramep s.kernelCurrAct).mf .v0 == 1 &&
        (s'.kernelExceptionFramep s.kernelCurrAct).cf .c3 == Cap.null) (by decide +kernel)
    simp only [Bool.and_eq_true, beq_iff_eq] at hp
    obtain ⟨⟨⟨hlen, hcurr⟩, hv0⟩, hc3⟩ := hp
    exact ⟨tr, s, s', hr, hst, unsent_of_length hr hst (sameLengths_sound hlen), hcurr, hv0, hc3⟩

end Kernel
end CheriOS
