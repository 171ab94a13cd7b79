import Mathlib.Algebra.BigOperators.Fin
import Mathlib.Algebra.Order.BigOperators.Group.Finset
import CheriOS.Kernel.Plain
import CheriOS.Kernel.Script
/-!
# Baton — synchronous traffic alone, from boot

The work in the system is what may run and what waits in a queue.  A synchronous call turns its caller into a message,
`sched_schedule` turns a message into an activation that runs, and a `creturn` gives up its own activation for the one
it answers: none of them adds to the work.  Boot leaves one unit, so that whoever runs holds all of it.
-/
namespace CheriOS
namespace Kernel

open Outcome
open Relation (ReflTransGen)

variable {b : Build} {e : Entry} {c act : Aid} {s s' m k : State} {mem : UserMem}
  {tr : List (Transition.Step State Entry)}

/-! ## Work -/

def State.share (s : State) (a : Aid) : Nat := (if s.schedStatus a = .runnable then 1 else 0) + (s.pending a).length

/-- **The work in the system.** -/
def State.work (s : State) : Nat := ∑ a, s.share a

theorem work_le (h : ∀ a, m.share a ≤ s.share a) : m.work ≤ s.work := Finset.sum_le_sum fun a _ => h a

theorem work_point {x : Aid} (h : ∀ a, a ≠ x → m.share a = s.share a) : m.work + s.share x = s.work + m.share x := by
  have hrest : ∑ a ∈ Finset.univ.erase x, m.share a = ∑ a ∈ Finset.univ.erase x, s.share a :=
    Finset.sum_congr rfl fun a ha => h a (Finset.ne_of_mem_erase ha)
  have hm : m.work = m.share x + ∑ a ∈ Finset.univ.erase x, m.share a :=
    (Finset.add_sum_erase _ _ (Finset.mem_univ x)).symm
  have hs : s.work = s.share x + ∑ a ∈ Finset.univ.erase x, s.share a :=
    (Finset.add_sum_erase _ _ (Finset.mem_univ x)).symm
  rw [hm, hs, hrest]
  omega

theorem share_zero (hw : s.work ≤ 1) (hrun : s.schedStatus c = .runnable) {a : Aid} (ha : a ≠ c) : s.share a = 0 := by
  have hc : 1 ≤ s.share c := by simp [State.share, hrun]
  have hs : s.work = s.share c + ∑ a ∈ Finset.univ.erase c, s.share a :=
    (Finset.add_sum_erase _ _ (Finset.mem_univ c)).symm
  have hz : ∑ a ∈ Finset.univ.erase c, s.share a = 0 := by omega
  exact Finset.sum_eq_zero_iff.1 hz a (Finset.mem_erase.2 ⟨ha, Finset.mem_univ a⟩)

theorem share_self (hw : s.work ≤ 1) (hrun : s.schedStatus c = .runnable) : s.pending c = [] := by
  have hle : s.share c ≤ s.work := Finset.single_le_sum (fun _ _ => Nat.zero_le _) (Finset.mem_univ c)
  have hc : s.share c = 1 + (s.pending c).length := by simp [State.share, hrun]
  exact List.eq_nil_of_length_eq_zero (by omega)

/-! ### The updates -/

theorem Quiet.work (h : Quiet c s m) : m.work = s.work := by
  obtain ⟨framep, child, im, timer, rfl, -⟩ := h
  rfl

theorem picked_work : s.picked.work = s.work := by
  have hp : ∀ a, s.picked.pending a = s.pending a := fun a => by simp [State.pending]
  unfold State.work State.share
  simp only [State.picked_schedStatus, hp]

theorem park_work {st : SchedStatus} (hrun : s.schedStatus c = .runnable) (hne : st ≠ .runnable)
    (hst : ∀ a, m.schedStatus a = if a = c then st else s.schedStatus a) (hp : ∀ a, m.pending a = s.pending a) :
    m.work + 1 = s.work := by
  have hpt := work_point (x := c) (s := s) (m := m) fun a ha => by simp [State.share, hst, hp, ha]
  have hs : s.share c = 1 + (s.pending c).length := by simp [State.share, hrun]
  have hm : m.share c = (s.pending c).length := by simp [State.share, hst, hp, hne]
  omega

theorem wake_work {st : SchedStatus} (hst : ∀ a, m.schedStatus a = if a = c then st else s.schedStatus a)
    (hp : ∀ a, m.pending a = s.pending a) : m.work ≤ s.work + 1 := by
  have hpt := work_point (x := c) (s := s) (m := m) fun a ha => by simp [State.share, hst, hp, ha]
  have hm : m.share c ≤ s.share c + 1 := by
    simp only [State.share, hp]
    split <;> omega
  omega

theorem dispatch_work (hB : Base s) (ha : s.schedStatus act = .schedulable) : (s.dispatch act).work = s.work := by
  have hreg : s.Registered act := hB.registered (by rw [ha]; decide)
  have hload := State.dispatch_pending (hB.mask_eq act hreg) (hB.ring_wf act) (hB.schedulable_pending act ha)
  have hpt := work_point (x := act) (s := s) (m := s.dispatch act) fun a hne => by
    simp [State.share, hne, State.dispatch_pending_ne hne]
  have hs : s.share act = (s.pending act).length := by simp [State.share, ha]
  have hm : (s.dispatch act).share act = 1 + ((s.dispatch act).pending act).length := by simp [State.share]
  rw [hload, List.length_cons] at hs
  omega

theorem accept_work (hB : Base s) (hd : s.Registered act) (hr : (s.pending act).length < maxMsg - 1) {msg : Msg} :
    (s.accept act msg).work = s.work + 1 := by
  have hpend : ∀ a, (s.accept act msg).pending a = if a = act then s.pending act ++ [msg] else s.pending a :=
    fun a => State.accept_pending (hB.mask_eq act hd) (hB.ring_wf act) hr
  have hrun : ∀ a, (s.accept act msg).schedStatus a = .runnable ↔ s.schedStatus a = .runnable := fun a => by
    rw [State.accept_schedStatus]
    split
    · rename_i hw
      simp [hw.1, hw.2]
    · rfl
  have hpt := work_point (x := act) (s := s) (m := s.accept act msg) fun a hne => by
    simp only [State.share, hrun, hpend, if_neg hne]
  have hm : (s.accept act msg).share act = s.share act + 1 := by
    simp only [State.share, hrun, hpend, if_true, List.length_append, List.length_cons, List.length_nil]
    omega
  omega

/-! ### The routine part -/

theorem Routine.work (h : Routine b e c s m) (hr : Ready c s) (hc : e.cause ≠ .ccall)
    (hi : ∀ p n, e.cause ≠ .interrupt p n) : m.work ≤ s.work := by
  cases h with
  | quiet hq => exact hq.work.le
  | accept dest src identifier token _ _ _ hfrom =>
    rcases hfrom with ⟨-, -, he⟩ | ⟨-, p, n, he⟩
    · exact absurd he hc
    · exact absurd he (hi p n)
  | block hrun _ _ _ =>
    have hw := park_work (m := s.deactivate c .waiting) hrun (by decide) (fun a => State.deactivate_schedStatus s c a _)
      (fun _ => rfl)
    omega
  | yield hrun _ =>
    have hw := park_work (m := s.setSchedStatus c .schedulable) hrun (by decide)
      (fun a => State.setSchedStatus_schedStatus s c a _) (fun _ => rfl)
    omega
  | pick => exact picked_work.le
  | dispatch act ha => exact (dispatch_work hr.base ha).le
  | switchTo act _ => exact le_rfl

theorem work_path (hm : ReflTransGen (Routine b e c) s m) (hr : Ready c s) (hc : e.cause ≠ .ccall)
    (hi : ∀ p n, e.cause ≠ .interrupt p n) : m.work ≤ s.work :=
  (inv_path (I := fun m => Ready c m ∧ m.work ≤ s.work)
    (fun _ _ h hst => ⟨h.1.routine hst, (hst.work h.1 hc hi).trans h.2⟩) ⟨hr, le_rfl⟩ hm).2

theorem schedReschedule_work (hr : Ready c s) (hint : Aid) (h : schedReschedule b hint s = .ok m) : m.work ≤ s.work :=
  work_path (Sat.ok (schedReschedule_leads (e := idle) hr hint) h).1 hr nofun nofun

/-- **A wait gives up the unit of work of whoever waits.** -/
theorem actWait_work (hr : Ready c s) (hrun : s.schedStatus c = .runnable) (hint : Aid)
    (h : actWait b c hint s = .ok m) : m.work + 1 ≤ s.work := by
  rw [actWait_eq hrun] at h
  obtain ⟨k, hk, h⟩ := bind_eq_ok.1 h
  have hrk : Ready c k := hr.path (Sat.ok (park_leads (e := idle) hr hrun) hk).1
  have hparked : k.work + 1 = s.work := by
    unfold park at hk
    split at hk
    · rw [schedA2d_eq (.inr rfl)] at hk
      split at hk
      · cases hk
      split at hk
      · cases hk
      obtain rfl := Except.ok.inj hk
      exact park_work hrun (by decide) (fun a => State.deactivate_schedStatus s c a _) (fun _ => rfl)
    · obtain rfl := Except.ok.inj hk
      exact park_work hrun (by decide) (fun a => State.setSchedStatus_schedStatus s c a _) (fun _ => rfl)
  have hle := schedReschedule_work hrk hint h
  omega

/-! ## Entries -/

/-- **A synchronous call with room for its message** trades its caller for the message. -/
theorem syncCall_work {callee : Aid} {cs : Cap} (hB : Base s) (hR : Runs s) (hreg : s.Registered callee)
    (hroom : (s.pending callee).length < maxMsg - 1) :
    Sat (msgPush b (s.kernelActs callee).aid s.kernelCurrAct cs (tokenCap s.kernelCurrAct (s.unique + 1))
        (s.issue s.kernelCurrAct) >>= fun r =>
          if r.1 = 0 then
            schedA2d b r.2.kernelCurrAct .syncBlock r.2 >>= fun m => schedReschedule b (m.kernelActs callee).aid m
          else .error (.panic .queueFullCsync))
      (fun s' => s'.work ≤ s.work) (fun st => st ≠ .panic .queueFullCsync) := by
  have hi : Base (s.issue s.kernelCurrAct) := hB.issue hB.curr_ne hB.curr_reg
  have hroomi : ((s.issue s.kernelCurrAct).pending callee).length < maxMsg - 1 := hroom
  rw [hB.aid_eq callee hreg, msgPush_eq hi hreg, if_pos hroomi]
  split
  · exact sat_error.2 (by decide)
  rw [ok_bind, if_pos rfl]
  set msg := mkMsg ((s.issue s.kernelCurrAct).kernelExceptionFramep s.kernelCurrAct) cs
    (tokenCap s.kernelCurrAct (s.unique + 1)) with hmsg
  set m := (s.issue s.kernelCurrAct).accept callee msg with hm
  have hma : Base m := hi.accept hreg hroomi
  have hcurr : m.kernelCurrAct = s.kernelCurrAct := by rw [hm, State.accept_curr, State.issue_curr]
  have hrun : m.schedStatus s.kernelCurrAct = .runnable := by
    have hRi : Runs (s.issue s.kernelCurrAct) := (State.issue_schedStatus s _ _).trans hR
    have hRm : Runs m := hRi.accept
    rwa [Runs, hcurr] at hRm
  have hsent : m.work = s.work + 1 := by
    have hiw : (s.issue s.kernelCurrAct).work = s.work := by
      unfold State.work State.share
      simp only [State.issue_schedStatus]
      rfl
    rw [hm, accept_work hi hreg hroomi, hiw]
  rw [hcurr, schedA2d_eq (.inl rfl)]
  split
  · exact sat_error.2 (by decide)
  split
  · exact sat_error.2 (by decide)
  have hregm : m.Registered s.kernelCurrAct := hcurr ▸ hma.curr_reg
  have hblocked := park_work (m := m.deactivate s.kernelCurrAct .syncBlock) hrun (by decide)
    (fun a => State.deactivate_schedStatus m _ a _) (fun _ => rfl)
  have hready : Ready s.kernelCurrAct (m.deactivate s.kernelCurrAct .syncBlock) :=
    ⟨hma.deactivate hB.curr_ne hregm (by simp) (by simp), hregm⟩
  refine .intro (fun s' hs' => ?_) (fun st hst => (schedReschedule_plain _).stop hst |>.1)
  have hle := schedReschedule_work hready _ hs'
  omega

/-- **`kernel_ccall` without the asynchronous selectors.** -/
theorem kernelCcall_work (hB : Base s) (hR : Runs s) (hA : Unseals b e s) (hcause : e.cause = .ccall)
    (ht : ccallTraps (e.regs.cf .c1) (e.regs.cf .c2) = true) (h1 : e.regs.mf .v1 ≠ 1) (h2 : e.regs.mf .v1 ≠ 2)
    (hempty : ∀ a, s.pending a = []) (h : kernelCcall b (saved e s) = .ok s') : s'.work ≤ s.work := by
  have hq : Quiet s.kernelCurrAct s (returning e s) := returning_quiet
  have hr : Ready s.kernelCurrAct (returning e s) := (Ready.of_base hB).quiet hq
  obtain ⟨callee, cs, hreg, ho⟩ := ccall_operands hA hcause ht
  obtain ⟨hcs, cb, hcb, hd⟩ := ho.unseal hB
  have hdone : (returning e s).work ≤ s.work := hq.work.le
  rw [kernelCcall_eq hB, if_neg h1, if_neg h2] at h
  split at h
  case isFalse => exact Except.ok.inj h ▸ hdone
  cases hp : cs.hasPerms Cap.permStore with
  | false =>
    rw [kernelCcallCore_refused hcs hcb hp] at h
    exact Except.ok.inj h ▸ hdone
  | true =>
    by_cases hst : (returning e s).status callee = .alive
    · have hroom : ((returning e s).pending callee).length < maxMsg - 1 := by
        have hnone : (returning e s).pending callee = [] := hempty callee
        simp [hnone]
      rw [kernelCcallCore_call hcs hcb hd hp hst] at h
      exact (syncCall_work hr.base (hR.quiet hq) hreg hroom).ok h
    · rw [kernelCcallCore_dead hcs hcb hd hp hst] at h
      exact Except.ok.inj h ▸ hdone

/-- **A `creturn`** brings back the caller it answers and gives up its own activation. -/
theorem kernelCreturn_work (hB : Base s) (hR : Runs s) (hA : Unseals b e s)
    (h : kernelCreturn b (saved e s) = .ok s') : s'.work ≤ s.work := by
  have hq : Quiet s.kernelCurrAct s (returning e s) := returning_quiet
  have hr : Ready s.kernelCurrAct (returning e s) := (Ready.of_base hB).quiet hq
  cases hn : (e.regs.cf .c1).isNull with
  | true =>
    rw [kernelCreturn_null hB hn] at h
    have hle := actWait_work hr hR _ h
    rw [hq.work] at hle
    omega
  | false =>
    cases hu : kernelUnseal (e.regs.cf .c1) otypeSyncToken with
    | error st =>
      rw [kernelCreturn_unseal hB hn hu] at h
      cases h
    | ok cap =>
      obtain ⟨htag, hsealed, hotype⟩ := kernelUnseal_ok hu
      obtain ⟨C, u, hissued, htok⟩ := hA.token htag hsealed hotype
      rw [kernelCreturn_token hB htok] at h
      split at h
      · cases h
      split at h
      · cases h
      split at h
      · obtain ⟨h0, hC⟩ := hB.token_caller C u hissued
        have hrm : Ready s.kernelCurrAct ((returning e s).answer C) := ⟨hr.base.answer h0 hC, hB.curr_reg⟩
        have hrun : ((returning e s).answer C).schedStatus s.kernelCurrAct = .runnable := by
          rw [State.answer_schedStatus]
          split
          · rfl
          · exact hR
        have hwake : ((returning e s).answer C).work ≤ (returning e s).work + 1 :=
          wake_work (fun a => State.answer_schedStatus _ C a) (fun _ => rfl)
        have hle := actWait_work hrm hrun C h
        rw [hq.work] at hwake
        omega
      · cases h

theorem kernelInterrupt_work {pending : BitVec 8} {count : BitVec 64} (hB : Base s)
    (hn : ∀ i, i < 7 → (pending &&& othersInterruptsMask s).getLsbD i = true → s.intChild i = 0)
    (h : kernelInterrupt b pending count (saved e s) = .ok s') : s'.work ≤ s.work := by
  have hq : Quiet s.kernelCurrAct s (saved e s) := saved_quiet
  have hr : Ready s.kernelCurrAct (saved e s) := (Ready.of_base hB).quiet hq
  have hrest : ∀ m : State, m.intChild = s.intChild →
      kernelInterruptOthers b (pending &&& othersInterruptsMask s) 7 m = .ok m := fun m hm =>
    kernelInterruptOthers_none (by rw [hm]; exact hn)
  have hmask : othersInterruptsMask (saved e s) = othersInterruptsMask s := rfl
  rw [kernelInterrupt_others, hmask] at h
  obtain ⟨m, hm, h⟩ := bind_eq_ok.1 h
  split at hm
  · have hlines : m.lines = (saved e s).lines := (kernelTimer_plain count).lines.eq hm
    rw [hrest m (congrArg Prod.fst hlines)] at h
    obtain rfl := Except.ok.inj h
    obtain ⟨k, hk, hm⟩ := bind_eq_ok.1 hm
    have hle := schedReschedule_work hr 0 hk
    rw [hq.work] at hle
    split at hm
    · obtain rfl := Except.ok.inj hm
      exact hle
    · cases hm
  · obtain rfl := Except.ok.inj hm
    rw [hrest (saved e s) rfl] at h
    obtain rfl := Except.ok.inj h
    exact hq.work.le

/-- **The opening of a system call** brings no work. -/
theorem Opening.work (hB : Base s) (h : Opening b e s k) (hc : e.cause = .syscall mem) : k.work ≤ s.work := by
  cases h with
  | quiet hq => exact hq.work.le
  | call hq hs _ _ =>
    cases hs with
    | mk dest identifier hcall _ _ _ _ _ =>
      rw [hc] at hcall
      cases hcall
  | reply C u hp _ _ =>
    have hret := hp.cause
    rw [hc] at hret
    cases hret
  | register hlt name frame ref id hq _ _ =>
    rw [← hq.work]
    have hm := (Ready.of_base hB).quiet hq
    refine work_le fun a => ?_
    unfold State.share
    rw [State.register_pending, State.schedStatus, State.register_kernelActs]
    split
    · simp
    · exact le_rfl
  | revoke act hq _ _ _ =>
    rw [← hq.work]
    refine work_le fun a => ?_
    unfold State.share
    rw [State.revoke, State.setStatus_schedStatus]
    exact le_rfl
  | @terminate s₀ act hq _ _ _ =>
    rw [← hq.work]
    refine work_le fun a => ?_
    have hp : (s₀.terminate act).pending a = s₀.pending a := by rw [State.terminate_eq]; rfl
    unfold State.share
    rw [State.terminate_schedStatus, hp]
    split
    · simp
    · exact le_rfl

/-- **The entry sends nothing asynchronously**: no `ccall` with selector 1 or 2, no interrupt on a registered line.
System calls, the timer and everything else may happen. -/
def SyncOnly (e : Entry) (s : State) : Prop :=
  match e.cause with
  | .ccall => e.regs.mf .v1 ≠ 1 ∧ e.regs.mf .v1 ≠ 2
  | .interrupt pending _ => ∀ i, i < 7 → (pending &&& othersInterruptsMask s).getLsbD i = true → s.intChild i = 0
  | _ => True

theorem queues_empty (hR : Runs s) (hw : s.work ≤ 1) (a : Aid) : s.pending a = [] := by
  by_cases ha : a = s.kernelCurrAct
  · rw [ha]
    exact share_self hw hR
  · have hz := share_zero hw hR ha
    exact List.eq_nil_of_length_eq_zero (by unfold State.share at hz; omega)

/-- **A step of synchronous traffic brings no work.** -/
theorem kernelStep.work (h : kernelStep b s e s') (hB : Base s) (hR : Runs s) (hS : SyncOnly e s) (hw : s.work ≤ 1) :
    s'.work ≤ s.work := by
  obtain ⟨hA, h⟩ := h
  cases hc : e.cause with
  | syscall mem =>
    obtain ⟨⟨k, ho, hm⟩, -⟩ := kernelStep.mid ⟨hA, h⟩ hB hR
    exact (work_path hm (ho.ready hB) (by rw [hc]; nofun) (by rw [hc]; nofun)).trans (ho.work hB hc)
  | interrupt pending count =>
    rw [kernelEntry_eq hB, hc] at h
    rw [SyncOnly, hc] at hS
    exact kernelInterrupt_work hB hS h
  | ccall =>
    rw [kernelEntry_ccall hB hc] at h
    rw [SyncOnly, hc] at hS
    split at h
    · exact kernelCcall_work hB hR hA hc ‹_› hS.1 hS.2 (queues_empty hR hw) h
    · cases h
  | creturn =>
    rw [kernelEntry_eq hB, hc] at h
    exact kernelCreturn_work hB hR hA h
  | fault =>
    rw [kernelEntry_eq hB, hc] at h
    cases h

theorem Booted.work (h : Booted s) : s.work ≤ 1 := by
  have hz : ∀ a, a ≠ 1 → s.share a = 0 := fun a ha => by
    have hne : s.schedStatus a ≠ .runnable := by
      by_cases h0 : a = 0
      · rw [h0, h.kernel.2]
        decide
      · have hlt : ¬ a.val < 2 := fun hlt => by
          rcases Nat.lt_succ_iff_lt_or_eq.1 hlt with hl | hl
          · exact h0 (Fin.ext (by simpa using hl))
          · exact ha (Fin.ext hl)
        rw [State.schedStatus, h.unused a (Nat.le_of_not_lt hlt)]
        decide
    simp [State.share, hne, h.pending]
  have hsum : s.work = s.share 1 := Finset.sum_eq_single 1 (fun a _ ha => hz a ha) (by simp)
  rw [hsum]
  simp [State.share, h.init.2, h.pending]

/-- **Along a run of synchronous traffic there is one unit of work.** -/
theorem KernelRun.work (hr : KernelRun b tr s) (hS : ∀ st ∈ tr, SyncOnly st.ev st.pre) : s.work ≤ 1 := by
  refine (Transition.Run.inv_of (I := fun s => (Base s ∧ Runs s) ∧ s.work ≤ 1) (C := fun st => SyncOnly st.ev st.pre)
    ?_ ?_ hr hS).2
  · rintro s ⟨bi, hbi⟩
    have hb := cheriosMain_booted hbi
    exact ⟨⟨hb.base, hb.runs⟩, hb.work⟩
  · rintro s e s' ⟨⟨hB, hR⟩, hw⟩ hst hSe
    obtain ⟨hm, hR'⟩ := hst.mid hB hR
    exact ⟨⟨(hm.ready hB).base, hR'⟩, (hst.work hB hR hSe hw).trans hw⟩

/-- **Synchronous traffic from boot on leaves nothing waiting**: after any run of it every queue is empty, and nobody but
the current activation may run. -/
theorem KernelRun.idle (hr : KernelRun b tr s) (hS : ∀ st ∈ tr, SyncOnly st.ev st.pre) :
    (∀ a, s.pending a = []) ∧ ∀ a, s.schedStatus a = .runnable ↔ a = s.kernelCurrAct := by
  have hR := hr.base.2
  have hw := hr.work hS
  refine ⟨queues_empty hR hw, fun a => ⟨fun ha => ?_, fun ha => ha ▸ hR⟩⟩
  by_contra hne
  have hz := share_zero hw hR hne
  simp [State.share, ha] at hz

end Kernel
end CheriOS
