import CheriOS.Kernel.Lines
import CheriOS.Kernel.Send
import CheriOS.Kernel.Stranded
/-!
# Mail — what a step loads, and what it puts into the queues

A step loads a message for an activation at most once, and for the activation that made it only where that activation
gives itself up to a message: at a `creturn`, and at a send that switches to its callee.  A message that a step puts into
a queue carries the token the step made, or none; so the token of a message leads back to one call.
-/
namespace CheriOS
namespace Kernel

open Outcome
open Relation (ReflTransGen)

variable {b : Build} {e : Entry} {c act D : Aid} {s s' m k : State} {l : List Msg} {mem : UserMem}

/-! ## A frame with a message -/

/-- **A frame that starts with a message**: the nine fields `msg_pop` loads. -/
structure Starts (f : RegFrame) (msg : Msg) : Prop where
  ints : f.mf .a0 = msg.a0 ∧ f.mf .a1 = msg.a1 ∧ f.mf .a2 = msg.a2 ∧ f.mf .v0 = msg.v0
  caps : f.cf .c3 = msg.c3 ∧ f.cf .c4 = msg.c4 ∧ f.cf .c5 = msg.c5 ∧ f.cf .idc = msg.idc ∧ f.cf .c1 = msg.c1

theorem Holds.starts {f f' : RegFrame} {msg : Msg} (h : Holds f f' msg) : Starts f' msg := ⟨h.ints, h.caps⟩

/-- **What has been loaded for an activation after `l`**: nothing, or one message, which its frame starts with. -/
def Taken (D : Aid) (l : List Msg) (m : State) : Prop :=
  m.loaded D = l ∨ ∃ msg, m.loaded D = l ++ [msg] ∧ Starts (m.kernelExceptionFramep D) msg ∧ m.schedStatus D = .runnable

/-! ## Routine updates -/

theorem Quiet.loaded (h : Quiet c s m) : m.loaded D = s.loaded D := by
  rw [State.loaded, h.hist, State.loaded]

theorem Routine.loaded (h : Routine b e c s m) (hs : s.schedStatus D ≠ .schedulable) : m.loaded D = s.loaded D := by
  cases h with
  | quiet hq => exact hq.loaded
  | accept dest src identifier token _ _ _ _ => exact accept_loaded D
  | block _ _ _ _ => exact deactivate_loaded D
  | yield _ _ => rfl
  | pick => exact picked_loaded D
  | dispatch act ha =>
    rw [dispatch_loaded, if_neg]
    rintro rfl
    exact hs ha
  | switchTo act _ => rfl

theorem Taken.routine (h : Taken D l s) (hc : D ≠ c) (h0 : D ≠ 0) (hm : Routine b e c s m) : Taken D l m := by
  rcases h with hl | ⟨msg, hl, hstarts, hrun⟩
  · by_cases hs : s.schedStatus D = .schedulable
    · -- only a dispatch of `D` itself is new
      cases hm with
      | quiet hq => exact .inl (hq.loaded.trans hl)
      | accept dest src identifier token _ _ _ _ => exact .inl ((accept_loaded D).trans hl)
      | block _ _ _ _ => exact .inl ((deactivate_loaded D).trans hl)
      | yield _ _ => exact .inl hl
      | pick => exact .inl ((picked_loaded D).trans hl)
      | dispatch act ha =>
        by_cases hD : D = act
        · subst hD
          refine .inr ⟨_, by rw [dispatch_loaded, if_pos rfl, hl], ?_, by simp⟩
          simpa [State.dispatch, State.load] using (loadMsg_holds (s.kernelExceptionFramep D) _).starts
        · exact .inl (by rw [dispatch_loaded, if_neg hD, hl])
      | switchTo act _ => exact .inl hl
    · exact .inl ((hm.loaded hs).trans hl)
  · have hs : s.schedStatus D ≠ .schedulable := by
      rw [hrun]
      decide
    refine .inr ⟨msg, (hm.loaded hs).trans hl, ?_, hm.runnable hc hrun⟩
    rw [hm.frame hc h0 hs]
    exact hstarts

theorem Taken.path (h : Taken D l s) (hc : D ≠ c) (h0 : D ≠ 0) (hm : ReflTransGen (Routine b e c) s m) : Taken D l m :=
  inv_path (fun _ _ ht hr => ht.routine hc h0 hr) h hm

/-- **An activation that is not there for a message**: it has loaded `l`, and runs, waits for an answer or is
terminated. -/
structure Busy (D : Aid) (l : List Msg) (m : State) : Prop where
  loaded : m.loaded D = l
  status : m.schedStatus D ≠ .schedulable ∧ m.schedStatus D ≠ .waiting

namespace Busy

theorem same (h : Busy D l s) (hl : m.loaded D = s.loaded D) (hs : m.schedStatus D = s.schedStatus D) : Busy D l m :=
  ⟨hl.trans h.loaded, by rw [hs]; exact h.status⟩

theorem of_status (st : SchedStatus) (hl : m.loaded D = l) (hs : m.schedStatus D = st) (h1 : st ≠ .schedulable)
    (h2 : st ≠ .waiting) : Busy D l m := ⟨hl, by rw [hs]; exact ⟨h1, h2⟩⟩

theorem quiet (h : Busy D l s) (hq : Quiet c s m) : Busy D l m := h.same hq.loaded (hq.schedStatus D)

theorem accept (h : Busy D l s) {dest : Aid} {msg : Msg} : Busy D l (s.accept dest msg) := by
  refine h.same (accept_loaded D) ?_
  rw [State.accept_schedStatus, if_neg]
  rintro ⟨rfl, hw⟩
  exact h.status.2 hw

theorem deactivate (h : Busy D l s) (hc : D ≠ c) {st : SchedStatus} : Busy D l (s.deactivate c st) :=
  h.same (deactivate_loaded D) (by rw [State.deactivate_schedStatus, if_neg hc])

theorem routine (h : Busy D l s) (hc : D ≠ c) (hm : Routine b e c s m) : Busy D l m := by
  cases hm with
  | quiet hq => exact h.quiet hq
  | accept dest src identifier token _ _ _ _ => exact h.accept
  | block _ _ _ _ => exact h.deactivate hc
  | yield _ _ => exact h.same rfl (by rw [State.setSchedStatus_schedStatus, if_neg hc])
  | pick => exact h.same (picked_loaded D) (State.picked_schedStatus s D)
  | dispatch act ha =>
    have hne : D ≠ act := by
      rintro rfl
      exact h.status.1 ha
    exact h.same (by rw [dispatch_loaded, if_neg hne]) (by rw [State.dispatch_schedStatus, if_neg hne])
  | switchTo act _ => exact h.same rfl rfl

theorem path (h : Busy D l s) (hc : D ≠ c) (hm : ReflTransGen (Routine b e c) s m) : Busy D l m :=
  inv_path (fun _ _ ht hr => ht.routine hc hr) h hm

end Busy

theorem Runs.busy (h : Runs s) : Busy s.kernelCurrAct (s.loaded s.kernelCurrAct) s :=
  .of_status .runnable rfl h nofun nofun

/-! ## The activation that made the entry

Its entry parks it, or everything after the opening is routine that the kernel's own activation could do. -/

theorem Base.ready_zero (h : Base s) : Ready 0 s := ⟨h, h.zero_reg⟩

theorem schedReschedule_busy (hB : Base s) (h0 : D ≠ 0) (hb : Busy D l s) {hint : Aid}
    (h : schedReschedule b hint s = .ok m) : Busy D l m :=
  hb.path h0 (Sat.ok (schedReschedule_leads (b := b) (e := idle) hB.ready_zero hint) h).1

theorem schedReschedule_taken (hB : Base s) (h0 : D ≠ 0) {hint : Aid} (h : schedReschedule b hint s = .ok m) :
    Taken D (s.loaded D) m :=
  Taken.path (.inl rfl) h0 h0 (Sat.ok (schedReschedule_leads (b := b) (e := idle) hB.ready_zero hint) h).1

theorem actWait_taken (hr : Ready c s) (hrun : s.schedStatus c = .runnable) (h0 : D ≠ 0) {hint : Aid}
    (h : actWait b c hint s = .ok m) : Taken D (s.loaded D) m := by
  rw [actWait_eq hrun] at h
  obtain ⟨k, hk, h⟩ := bind_eq_ok.1 h
  have hBk : Base k := (hr.path (Sat.ok (park_leads (b := b) (e := idle) hr hrun) hk).1).base
  have hl : k.loaded D = s.loaded D := by
    unfold park at hk
    split at hk
    · rw [schedA2d_eq (.inr rfl)] at hk
      split at hk
      · cases hk
      split at hk
      · cases hk
      obtain rfl := Except.ok.inj hk
      exact deactivate_loaded D
    · obtain rfl := Except.ok.inj hk
      rfl
  exact hl ▸ schedReschedule_taken hBk h0 h

/-- What has happened, and what `D` is doing. -/
def State.doing (D : Aid) (s : State) : List Obs × SchedStatus := (s.hist, s.schedStatus D)

theorem Busy.doing (h : Busy D l s) (hd : m.doing D = s.doing D) : Busy D l m :=
  h.same (by rw [State.loaded, show m.hist = s.hist from congrArg Prod.fst hd, State.loaded]) (congrArg Prod.snd hd)

/-- **A system call that neither reschedules nor terminates** leaves everybody in what they do. -/
theorem syscallDemux_doing {sysn : Sysn} (hB : Base s) (hs : sysn ≠ .sleep) (ht : sysn ≠ .actTerminate) :
    Keeps (State.doing D) (fun _ => True) s (syscallDemux b mem sysn s) := by
  have hany : ∀ {α : Type} {r : Except Stop α}, Sat r (fun _ => True) (fun _ => True) := fun {α r} => by
    cases r <;> trivial
  cases sysn with
  | sleep => exact absurd rfl hs
  | actTerminate => exact absurd rfl ht
  | actRegister =>
    refine .bind_pair (actRegister_sat.mono (fun p hp => ?_) fun _ _ => trivial) fun p => .ok rfl
    obtain ⟨hlt, field, frame, ref, id, -, -, -, -, hp⟩ := hp
    rw [hp]
    exact Prod.ext rfl (hB.register_schedStatus hlt D)
  | actCtrlGetRef => exact .after hany fun _ => .ok rfl
  | actCtrlGetId => exact .after hany fun _ => .ok rfl
  | actCtrlGetStatus => exact .after hany fun _ => .ok rfl
  | actRevoke =>
    refine .bind_pair (.bind hany fun aid _ => ?_) fun _ => .ok rfl
    split
    · exact sat_ok.2 rfl
    · exact sat_ok.2 (Prod.ext rfl (State.setStatus_schedStatus s aid D .revoked))
  | actSealIdentifier => exact .after hany fun _ => .ok rfl
  | puts =>
    unfold syscallDemux syscallPuts
    dsimp only
    split
    · exact .ok rfl
    · exact .error trivial
  | panic => exact .error trivial
  | interruptRegister =>
    refine .bind_pair ((kernelInterruptRegister_sat _).mono (fun p hp => ?_) fun _ _ => trivial) fun _ => .ok rfl
    rcases hp with hp | ⟨i, -, -, -, hp⟩ <;> rw [hp]
    rfl
  | interruptEnable =>
    refine .bind_pair ((kernelInterruptEnable_sat _).mono (fun p hp => ?_) fun _ _ => trivial) fun _ => .ok rfl
    rcases hp with hp | ⟨i, -, -, -, hp⟩ <;> rw [hp]
    rfl

/-- **Where the activation that made an entry gives itself up to a message.** -/
def Parks (e : Entry) : Prop := e.cause = .creturn ∨ (e.cause = .ccall ∧ e.regs.mf .v1 = 2)

section Own

variable (hB : Base s) (hR : Runs s)

include hR in
theorem saved_busy : Busy s.kernelCurrAct (s.loaded s.kernelCurrAct) (saved e s) :=
  hR.busy.quiet saved_quiet

include hR in
theorem returning_busy : Busy s.kernelCurrAct (s.loaded s.kernelCurrAct) (returning e s) :=
  hR.busy.quiet returning_quiet

include hB hR

theorem kernelInterrupt_busy (hc : ∃ p n, e.cause = .interrupt p n) {pending : BitVec 8} {count : BitVec 64}
    (h : kernelInterrupt b pending count (saved e s) = .ok s') : Busy s.kernelCurrAct (s.loaded s.kernelCurrAct) s' := by
  have hr : Ready 0 (saved e s) := ((Ready.of_base hB).quiet saved_quiet).base.ready_zero
  have hpath := (Sat.ok (kernelInterrupt_leads (b := b) hr (hR.quiet saved_quiet) hc pending count) h).1
  exact (saved_busy hR).path hB.curr_ne hpath

/-- **A system call** loads nothing for its caller: two of them reschedule, and leave it busy. -/
theorem syscallDemux_busy {sysn : Sysn} (h : syscallDemux b mem sysn (saved e s) = .ok s') :
    Busy s.kernelCurrAct (s.loaded s.kernelCurrAct) s' := by
  have hBs : Base (saved e s) := ((Ready.of_base hB).quiet saved_quiet).base
  have hb := saved_busy (e := e) hR
  by_cases hsleep : sysn = .sleep
  · subst hsleep
    unfold syscallDemux syscallSleep at h
    dsimp only at h
    split at h
    · obtain rfl := Except.ok.inj h
      exact hb
    · exact schedReschedule_busy hBs hB.curr_ne hb h
  by_cases hterm : sysn = .actTerminate
  · subst hterm
    unfold syscallDemux syscallActTerminate at h
    obtain ⟨⟨ret, m⟩, hm, h⟩ := bind_eq_ok.1 h
    cases ha : ctrlAid b ((saved e s).frame.cf .c3) (saved e s) with
    | error st =>
      unfold actTerminate at hm
      rw [ha] at hm
      cases hm
    | ok a =>
      rw [actTerminate_eq ha] at hm
      split at hm
      · cases hm
      obtain ⟨rfl, rfl⟩ := Prod.mk.inj (Except.ok.inj hm)
      have hl : ((saved e s).terminate a).loaded s.kernelCurrAct = s.loaded s.kernelCurrAct :=
        (terminate_loaded _).trans hb.loaded
      dsimp only at h
      by_cases hself : a = (saved e s).kernelCurrAct
      · rw [if_pos hself, if_pos rfl] at h
        have hst : ((saved e s).terminate a).schedStatus s.kernelCurrAct = .terminated := by
          rw [State.terminate_schedStatus, if_pos]
          exact hself.symm
        exact schedReschedule_busy (hBs.terminate (hself ▸ hB.curr_reg)) hB.curr_ne (.of_status .terminated hl hst nofun nofun) h
      · rw [if_neg hself, if_neg (by decide)] at h
        obtain rfl := Except.ok.inj h
        have hst : ((saved e s).terminate a).schedStatus s.kernelCurrAct = (saved e s).schedStatus s.kernelCurrAct := by
          rw [State.terminate_schedStatus, if_neg]
          exact fun he => hself he.symm
        exact (hb.same (terminate_loaded _) hst).same rfl rfl
  exact hb.doing ((syscallDemux_doing hBs hsleep hterm).eq h)

omit hR in
/-- **A synchronous call that comes back** has put its message into the queue and blocked its caller. -/
theorem kernelCcallCore_sent {callee : Aid} {cs : Cap} (ho : Operands b e callee cs) (hreg : s.Registered callee)
    (hn : ¬ Refused callee cs s) (h : kernelCcallCore b 2 (returning e s) = .ok s') :
    ∃ hint, Base ((((returning e s).issue s.kernelCurrAct).accept callee (mkMsg ((returning e s).kernelExceptionFramep
        s.kernelCurrAct) cs (tokenCap s.kernelCurrAct (s.unique + 1)))).deactivate s.kernelCurrAct .syncBlock) ∧
      schedReschedule b hint ((((returning e s).issue s.kernelCurrAct).accept callee
        (mkMsg ((returning e s).kernelExceptionFramep s.kernelCurrAct) cs
          (tokenCap s.kernelCurrAct (s.unique + 1)))).deactivate s.kernelCurrAct .syncBlock) = .ok s' := by
  obtain ⟨hcs, cb, hcb, hd⟩ := ho.unseal hB
  obtain ⟨hp, hst⟩ := not_or.1 hn
  have hr : Ready s.kernelCurrAct (returning e s) := (Ready.of_base hB).quiet returning_quiet
  have hi : Base ((returning e s).issue s.kernelCurrAct) := hr.base.issue hB.curr_ne hr.reg
  have hcaller : (returning e s).kernelCurrAct = s.kernelCurrAct := rfl
  rw [kernelCcallCore_call hcs hcb hd (Bool.not_eq_false _ ▸ hp) (Decidable.not_not.1 hst),
    hr.base.aid_eq callee hreg, hcaller] at h
  obtain ⟨r, hpush, h⟩ := bind_eq_ok.1 h
  rw [msgPush_eq hi hreg] at hpush
  split at hpush
  case isFalse =>
    obtain rfl := Except.ok.inj hpush
    cases h
  split at hpush
  · cases hpush
  obtain rfl := Except.ok.inj hpush
  rename_i hroom _
  obtain ⟨k, hk, h⟩ := bind_eq_ok.1 h
  dsimp only at hk
  rw [State.accept_curr, State.issue_curr, hcaller, schedA2d_eq (.inl rfl)] at hk
  split at hk
  · cases hk
  split at hk
  · cases hk
  obtain rfl := Except.ok.inj hk
  have hm : Base (((returning e s).issue s.kernelCurrAct).accept callee (mkMsg ((returning e s).kernelExceptionFramep
      s.kernelCurrAct) cs (tokenCap s.kernelCurrAct (s.unique + 1)))) := hi.accept hreg hroom
  have hregm := hm.curr_reg
  rw [State.accept_curr, State.issue_curr, hcaller] at hregm
  exact ⟨_, hm.deactivate hB.curr_ne hregm (by simp) (by simp), h⟩

omit hR in
theorem kernelCcall_turned {callee : Aid} {cs : Cap} (ho : Operands b e callee cs) (hr : Refused callee cs s)
    (h : kernelCcall b (saved e s) = .ok s') : s' = returning e s := by
  rw [kernelCcall_eq hB] at h
  simp only [kernelCcallCore_turned hB ho hr] at h
  split at h
  · exact (Except.ok.inj h).symm
  split at h
  · exact (Except.ok.inj h).symm
  split at h <;> exact (Except.ok.inj h).symm

/-- **A call** other than a send that switches leaves its caller as it was, or blocks it. -/
theorem kernelCcall_busy (hA : Unseals b e s) (hc : e.cause = .ccall)
    (ht : ccallTraps (e.regs.cf .c1) (e.regs.cf .c2) = true) (hn : e.regs.mf .v1 ≠ 2)
    (h : kernelCcall b (saved e s) = .ok s') : Busy s.kernelCurrAct (s.loaded s.kernelCurrAct) s' := by
  obtain ⟨callee, cs, hreg, ho⟩ := ccall_operands hA hc ht
  have hb := returning_busy (e := e) hR
  by_cases hr : Refused callee cs s
  · exact kernelCcall_turned hB ho hr h ▸ hb
  rw [kernelCcall_eq hB, if_neg hn] at h
  split at h
  · rw [kernelCcallCore_async hB ho hreg hr] at h
    split at h
    · obtain rfl := Except.ok.inj h
      have hq : Quiet s.kernelCurrAct (returning e s) ((returning e s).modifyFrame fun f => f.setMf .v0 0) :=
        .modifyFrame hB.ptr_eq
      exact hb.quiet hq
    split at h
    · cases h
    obtain rfl := Except.ok.inj h
    exact hb.accept
  split at h
  · obtain ⟨hint, hBk, hk⟩ := kernelCcallCore_sent hB ho hreg hr h
    refine schedReschedule_busy hBk hB.curr_ne (.of_status .syncBlock ?_ (by simp) nofun nofun) hk
    rw [deactivate_loaded, accept_loaded, issue_loaded]
    exact hb.loaded
  · obtain rfl := Except.ok.inj h
    exact hb

/-- **What an entry leaves of the activation that made it**, unless it parks it. -/
theorem kernelEntry_busy (hA : Unseals b e s) (hn : ¬ Parks e) (h : kernelEntry b e s = .ok s') :
    Busy s.kernelCurrAct (s.loaded s.kernelCurrAct) s' := by
  cases hc : e.cause with
  | interrupt pending count =>
    rw [kernelEntry_eq hB, hc] at h
    exact kernelInterrupt_busy hB hR ⟨_, _, hc⟩ h
  | syscall mem =>
    rw [kernelEntry_syscall hB hc] at h
    split at h
    · obtain ⟨m, hm, h⟩ := bind_eq_ok.1 h
      obtain rfl := Except.ok.inj h
      exact (syscallDemux_busy hB hR hm).same rfl rfl
    · cases h
  | ccall =>
    rw [kernelEntry_ccall hB hc] at h
    split at h
    · exact kernelCcall_busy hB hR hA hc ‹_› (fun hv => hn (.inr ⟨hc, hv⟩)) h
    · cases h
  | creturn => exact absurd (.inl hc) hn
  | fault =>
    rw [kernelEntry_eq hB, hc] at h
    cases h

/-- **A `creturn`** loads one message for the activation that made it, or none. -/
theorem kernelCreturn_taken (hA : Unseals b e s) (hc : e.cause = .creturn) (h : kernelCreturn b (saved e s) = .ok s') :
    Taken s.kernelCurrAct (s.loaded s.kernelCurrAct) s' := by
  have hr : Ready s.kernelCurrAct (returning e s) := (Ready.of_base hB).quiet returning_quiet
  have hl : (returning e s).loaded s.kernelCurrAct = s.loaded s.kernelCurrAct := returning_quiet.loaded
  cases hn : (e.regs.cf .c1).isNull with
  | true =>
    rw [kernelCreturn_null hB hn] at h
    exact hl ▸ actWait_taken hr (hR.quiet returning_quiet) hB.curr_ne h
  | false =>
    cases hu : kernelUnseal (e.regs.cf .c1) otypeSyncToken with
    | error st =>
      rw [kernelCreturn_unseal hB hn hu] at h
      cases h
    | ok cap =>
      obtain ⟨htag, hsealed, hotype⟩ := kernelUnseal_ok hu
      obtain ⟨C, u, hissued, htok⟩ := hA.token htag hsealed hotype
      rw [kernelCreturn_token hB htok] at h
      split at h
      · cases h
      rename_i hexp
      split at h
      · cases h
      rename_i hreplay
      split at h
      · have hp : Presents e s C u := ⟨hc, htok, hissued, by simpa using hexp⟩
        have ho : Opening b e s ((returning e s).answer C) :=
          .reply C u hp (fun hb => by_contra fun hst => hreplay ⟨hb, hst⟩) ‹_›
        have hrun : ((returning e s).answer C).schedStatus s.kernelCurrAct = .runnable := by
          rw [State.answer_schedStatus]
          split
          · rfl
          · exact hR
        have ht := actWait_taken (ho.ready hB) hrun hB.curr_ne h
        rwa [answer_loaded, hl] at ht
      · cases h

end Own

/-! ## One step -/

theorem Opening.loaded (h : Opening b e s k) : k.loaded D = s.loaded D := by
  cases h with
  | quiet hq => exact hq.loaded
  | call hq hs _ _ =>
    cases hs with
    | mk dest identifier _ _ _ _ _ _ => rw [deactivate_loaded, accept_loaded, issue_loaded, hq.loaded]
  | reply C u _ _ _ => rw [answer_loaded, returning_quiet.loaded]
  | register hlt name frame ref id hq _ _ => exact hq.loaded
  | revoke act hq _ _ _ => exact hq.loaded
  | terminate act hq _ _ _ => exact (terminate_loaded D).trans hq.loaded

theorem Opening.busy (h : Opening b e s k) (hB : Base s) (hb : Busy D l s) (hD : D ≠ s.kernelCurrAct) : Busy D l k := by
  cases h with
  | quiet hq => exact hb.quiet hq
  | call hq hs _ _ =>
    cases hs with
    | mk dest identifier _ _ _ _ _ _ =>
      have hi := (hb.quiet hq).same (issue_loaded D) (State.issue_schedStatus _ s.kernelCurrAct _)
      exact hi.accept.deactivate hD
  | reply C u _ _ _ =>
    have hr := hb.quiet (returning_quiet (e := e))
    by_cases hC : D = C
    · exact .of_status .runnable ((answer_loaded D).trans hr.loaded) (by rw [State.answer_schedStatus, if_pos hC]) nofun nofun
    · exact hr.same (answer_loaded D) (by rw [State.answer_schedStatus, if_neg hC])
  | register hlt name frame ref id hq _ _ =>
    exact (hb.quiet hq).same rfl (((Ready.of_base hB).quiet hq).base.register_schedStatus hlt D)
  | revoke act hq _ _ _ => exact (hb.quiet hq).same rfl (State.setStatus_schedStatus _ _ _ _)
  | terminate act hq _ _ _ =>
    by_cases hact : D = act
    · exact .of_status .terminated ((terminate_loaded D).trans (hb.quiet hq).loaded)
        (by rw [State.terminate_schedStatus, if_pos hact]) nofun nofun
    · exact (hb.quiet hq).same (terminate_loaded D) (by rw [State.terminate_schedStatus, if_neg hact])

/-- **An activation that is not there for a message** loads none in a step, unless its own entry parks it. -/
theorem kernelStep.busy (h : kernelStep b s e s') (hB : Base s) (hR : Runs s) (hb : Busy D l s)
    (hp : D = s.kernelCurrAct → ¬ Parks e) : Busy D l s' := by
  by_cases hD : D = s.kernelCurrAct
  · subst hD
    exact hb.loaded ▸ kernelEntry_busy hB hR h.1 (hp rfl) h.2
  · obtain ⟨k, ho, hpath⟩ := (h.mid hB hR).1
    exact (ho.busy hB hb hD).path hD hpath

/-- **What one step loads for an activation**: one message at most, which its frame then starts with. -/
theorem kernelStep.taken (h : kernelStep b s e s') (hB : Base s) (hR : Runs s) (h0 : D ≠ 0)
    (hp : D = s.kernelCurrAct → e.cause = .creturn ∨ ¬ Parks e) : Taken D (s.loaded D) s' := by
  by_cases hD : D = s.kernelCurrAct
  · subst hD
    rcases hp rfl with hc | hn
    · have hent := h.2
      rw [kernelEntry_eq hB, hc] at hent
      exact kernelCreturn_taken hB hR h.1 hc hent
    · exact .inl (kernelEntry_busy hB hR h.1 hn h.2).loaded
  · obtain ⟨k, ho, hpath⟩ := (h.mid hB hR).1
    exact Taken.path (.inl ho.loaded) hD h0 hpath

/-- An activation that runs, or never will, with this frame. -/
def Rests (D : Aid) (f : RegFrame) (m : State) : Prop :=
  (m.schedStatus D = .runnable ∨ m.schedStatus D = .terminated) ∧ m.kernelExceptionFramep D = f

theorem Rests.routine {f : RegFrame} (h : Rests D f s) (hc : D ≠ c) (h0 : D ≠ 0) (hm : Routine b e c s m) : Rests D f m := by
  have hs : s.schedStatus D ≠ .schedulable := by rcases h.1 with hs | hs <;> simp [hs]
  refine ⟨h.1.imp (fun hs => hm.runnable hc hs) (fun hs => ?_), (hm.frame hc h0 hs).trans h.2⟩
  exact (hs ▸ hm.moved D).terminated

theorem Opening.rests {f : RegFrame} (h : Opening b e s k) (hB : Base s) (hb : b.lite = false) (hr : Rests D f s)
    (hD : D ≠ s.kernelCurrAct) (h0 : D ≠ 0) : Rests D f k := by
  have hquiet : ∀ {m : State}, Quiet s.kernelCurrAct s m → Rests D f m := fun {m} hq => by
    refine ⟨by rw [hq.schedStatus]; exact hr.1, ?_⟩
    obtain ⟨framep, child, im, timer, rfl, hf, -⟩ := hq
    exact (hf D hD h0).trans hr.2
  cases h with
  | quiet hq => exact hquiet hq
  | @call s₀ m hq hs _ _ =>
    have hr₀ := hquiet hq
    cases hs with
    | mk dest identifier _ _ _ _ _ _ =>
      have hne : ¬ (D = dest ∧ (s₀.issue s.kernelCurrAct).schedStatus dest = .waiting) := by
        rintro ⟨rfl, hw⟩
        rw [State.issue_schedStatus] at hw
        rcases hr₀.1 with hs | hs <;> rw [hs] at hw <;> cases hw
      refine ⟨?_, ?_⟩
      · rw [State.deactivate_schedStatus, if_neg hD, State.accept_schedStatus, if_neg hne, State.issue_schedStatus]
        exact hr₀.1
      · show ((s₀.issue s.kernelCurrAct).accept dest _).kernelExceptionFramep D = f
        rw [State.accept_framep]
        exact hr₀.2
  | reply C u hp hblocked _ =>
    have hr₀ := hquiet (returning_quiet (e := e))
    have hC : D ≠ C := by
      rintro rfl
      rcases hr.1 with hs | hs <;> rw [hblocked hb] at hs <;> cases hs
    refine ⟨by rw [State.answer_schedStatus, if_neg hC]; exact hr₀.1, ?_⟩
    exact (Function.update_of_ne hC _ _).trans hr₀.2
  | register hlt name frame ref id hq _ _ =>
    have hr₀ := hquiet hq
    have hne : D ≠ ⟨_, hlt⟩ := by
      rintro rfl
      have hw : s.schedStatus ⟨_, hlt⟩ ≠ .waiting := by rcases hr.1 with hs | hs <;> simp [hs]
      have hreg := hB.registered hw
      rw [State.Registered, ← hq.next] at hreg
      exact Nat.lt_irrefl _ hreg
    refine ⟨?_, ?_⟩
    · rw [((Ready.of_base hB).quiet hq).base.register_schedStatus hlt]
      exact hr₀.1
    · exact (Function.update_of_ne hne _ _).trans hr₀.2
  | revoke act hq _ _ _ =>
    have hr₀ := hquiet hq
    exact ⟨by rw [State.revoke, State.setStatus_schedStatus]; exact hr₀.1, hr₀.2⟩
  | terminate act hq _ _ _ =>
    have hr₀ := hquiet hq
    refine ⟨?_, by rw [State.terminate_eq]; exact hr₀.2⟩
    rw [State.terminate_schedStatus]
    split
    · exact .inr rfl
    · exact hr₀.1

/-- **An activation that runs is left alone by the entries of others**, where the kernel checks that whoever is answered
waits for it. -/
theorem kernelStep.rests {f : RegFrame} (h : kernelStep b s e s') (hB : Base s) (hR : Runs s) (hb : b.lite = false)
    (hr : Rests D f s) (hD : D ≠ s.kernelCurrAct) (h0 : D ≠ 0) : Rests D f s' := by
  obtain ⟨k, ho, hpath⟩ := (h.mid hB hR).1
  exact inv_path (fun _ _ hr hm => hr.routine hD h0 hm) (ho.rests hB hb hr hD h0) hpath

/-! ## The tokens of messages -/

variable {C : Aid} {u : BitVec 32} {tr newer older : List (Transition.Step State Entry)}
  {call : Transition.Step State Entry}

/-- **What a synchronous call puts into the queues**: its message, which `kernelStep.carries` is about. -/
theorem sync_delivers {callee : Aid} {cs : Cap} (h : kernelStep b s e s') (hB : Base s) (hR : Runs s) (hT : Tokens s)
    (ho : Operands b e callee cs) (hreg : s.Registered callee) (hn : ¬ Refused callee cs s)
    (hent : kernelCcallCore b 2 (returning e s) = .ok s') :
    ∃ msg, Carries s.kernelCurrAct callee msg ⟨s, e, s'⟩ ∧
      ∀ D, s'.accepted D = if D = callee then s.accepted D ++ [msg] else s.accepted D := by
  obtain ⟨hint, hBk, hk⟩ := kernelCcallCore_sent hB ho hreg hn hent
  have hblocked : s'.schedStatus s.kernelCurrAct = .syncBlock :=
    syncBlock_path (Sat.ok (schedReschedule_leads (b := b) (e := idle) hBk.ready_zero hint) hk).1 (by simp)
  have hrun : s.schedStatus s.kernelCurrAct ≠ .syncBlock := by
    rw [show s.schedStatus s.kernelCurrAct = .runnable from hR]
    decide
  obtain ⟨D', msg, hc⟩ := h.carries hB hR hT hblocked hrun
  have hacc : ∀ D, s'.accepted D = if D = callee then s.accepted D ++ [mkMsg ((returning e s).kernelExceptionFramep
      s.kernelCurrAct) cs (tokenCap s.kernelCurrAct (s.unique + 1))] else s.accepted D := fun D => by
    rw [schedReschedule_accepted hBk.ready_zero hint hk D, deactivate_accepted, accept_accepted, issue_accepted,
      returning_quiet.accepted]
  -- the message of `carries` is in the queue of the callee, where there is one new message
  have hpre : s.accepted D' ++ [msg] <+: s'.accepted D' := hc.enqueued
  have hD' : D' = callee := by
    by_contra hne
    rw [hacc, if_neg hne] at hpre
    have hlen := hpre.length_le
    simp only [List.length_append, List.length_singleton] at hlen
    omega
  subst hD'
  rw [hacc, if_pos rfl] at hpre
  have hmsg := hpre.eq_of_length (by simp)
  refine ⟨msg, hc, fun D => ?_⟩
  rw [hacc]
  split
  · rename_i hD
    rw [hD, hmsg]
  · rfl

/-- **What a call puts into the queues**: one message without a token, or the message of a synchronous call. -/
theorem kernelCcall_accepts (h : kernelStep b s e s') (hB : Base s) (hR : Runs s) (hT : Tokens s) (hc : e.cause = .ccall) :
    s'.accepted D = s.accepted D ∨ ∃ msg, s'.accepted D = s.accepted D ++ [msg] ∧
      (msg.c1 = Cap.null ∨ ∃ C, Carries C D msg ⟨s, e, s'⟩) := by
  have hent := h.2
  rw [kernelEntry_ccall hB hc] at hent
  split at hent
  case isFalse => cases hent
  obtain ⟨callee, cs, hreg, ho⟩ := ccall_operands h.1 hc ‹_›
  have hrdy : Ready s.kernelCurrAct (returning e s) := (Ready.of_base hB).quiet returning_quiet
  by_cases hr : Refused callee cs s
  · obtain rfl := kernelCcall_turned hB ho hr hent
    exact .inl (returning_unsent D)
  rw [kernelCcall_eq hB] at hent
  have hasync : ∀ {m : State}, kernelCcallCore b 0 (returning e s) = .ok m →
      m.accepted D = s.accepted D ∨ ∃ msg, m.accepted D = s.accepted D ++ [msg] ∧
        (msg.c1 = Cap.null ∨ ∃ C, Carries C D msg ⟨s, e, s'⟩) := fun {m} hm => by
    rw [kernelCcallCore_async hB ho hreg hr] at hm
    split at hm
    · obtain rfl := Except.ok.inj hm
      have hq : Quiet s.kernelCurrAct (returning e s) ((returning e s).modifyFrame fun f => f.setMf .v0 0) :=
        .modifyFrame hB.ptr_eq
      exact .inl ((hq.accepted D).trans (returning_unsent D))
    split at hm
    · cases hm
    obtain rfl := Except.ok.inj hm
    rw [accept_accepted, returning_unsent]
    split
    · exact .inr ⟨_, rfl, .inl rfl⟩
    · exact .inl rfl
  split at hent
  · exact hasync hent
  split at hent
  · obtain ⟨hcs, cb, hcb, hd⟩ := ho.unseal hB
    obtain ⟨hp, hst⟩ := not_or.1 hr
    have hp' : cs.hasPerms Cap.permStore = true := Bool.not_eq_false _ ▸ hp
    have hst' : (returning e s).status callee = .alive := Decidable.not_not.1 hst
    have hsend := send_leads b cs hrdy.base (hR.quiet returning_quiet) hc hreg hst'
    rw [← kernelCcallCore_send hcs hcb hd hp' hst'] at hsend
    rw [kernelCcallCore_sendSwitch hcs hcb hd hp' hst',
      ← bind_ok_bind _ sendResult fun m => actWait b m.kernelCurrAct (m.kernelActs callee).aid m,
      ← kernelCcallCore_send hcs hcb hd hp' hst'] at hent
    obtain ⟨m, hm, hwait⟩ := bind_eq_ok.1 hent
    obtain ⟨hpath, hRm, hcm⟩ := Sat.ok hsend hm
    rw [hcm] at hwait
    rw [actWait_accepted (hrdy.path hpath) (hcm ▸ hRm) _ hwait D]
    exact hasync hm
  split at hent
  · obtain ⟨msg, hC, hacc⟩ := sync_delivers h hB hR hT ho hreg hr hent
    rw [hacc]
    split
    · rename_i hD
      exact .inr ⟨msg, rfl, .inr ⟨_, hD ▸ hC⟩⟩
    · exact .inl rfl
  · obtain rfl := Except.ok.inj hent
    exact .inl (returning_unsent D)

theorem lineMsgs_null {lines : List Nat} {ms : List Msg} (h : List.Forall₂ LineMsg lines ms) :
    ∀ msg ∈ ms, msg.c1 = Cap.null := by
  induction h with
  | nil => simp
  | cons hline _ ih => exact List.forall_mem_cons.2 ⟨hline.c1, ih⟩

/-- **What a step puts into a queue** carries no token, or is the message of the call that the step is. -/
theorem kernelStep.accepts (h : kernelStep b s e s') (hB : Base s) (hR : Runs s) (hT : Tokens s) (D : Aid) :
    ∃ ms, s'.accepted D = s.accepted D ++ ms ∧
      ((∀ msg ∈ ms, msg.c1 = Cap.null) ∨ ∃ C msg, ms = [msg] ∧ Carries C D msg ⟨s, e, s'⟩) := by
  by_cases hc : e.cause = .ccall
  · rcases kernelCcall_accepts (D := D) h hB hR hT hc with hs | ⟨msg, hs, hnull | ⟨C, hC⟩⟩
    · exact ⟨[], by simp [hs], .inl (by simp)⟩
    · exact ⟨[msg], hs, .inl (by simpa using hnull)⟩
    · exact ⟨[msg], hs, .inr ⟨C, msg, rfl, hC⟩⟩
  by_cases hi : ∃ p n, e.cause = .interrupt p n
  · obtain ⟨p, n, hi⟩ := hi
    obtain ⟨ms, hms, hlines⟩ := ((kernelEntry_interrupt hB hR hi).ok h.2).delivery p n D hi
    exact ⟨ms, hms, .inl (lineMsgs_null hlines)⟩
  · obtain ⟨k, ho, hpath⟩ := (h.mid hB hR).1
    refine ⟨[], ?_, .inl (by simp)⟩
    rw [List.append_nil, accepted_path hpath hc (fun p n he => hi ⟨p, n, he⟩)]
    rcases ho.accepted D with hs | ⟨-, he⟩
    · exact hs
    · exact absurd he hc

/-- **Where a message with a token comes from**: the call that made the token, when as many messages had been accepted as
stand before it. -/
theorem KernelRun.carried (hr : KernelRun b tr s) {n : Nat} {msg : Msg} (hm : (s.accepted D)[n]? = some msg)
    (hc : msg.c1 ≠ Cap.null) : ∃ C, ∃ call ∈ tr, Carries C D msg call ∧ (call.pre.accepted D).length = n := by
  induction hr with
  | nil hboot =>
    obtain ⟨bi, hbi⟩ := hboot
    simp [State.accepted, (cheriosMain_booted hbi).hist, Obs.pushedTo, List.filterMap_cons] at hm
  | @cons tr s s' e hr hst ih =>
    obtain ⟨hB, hR⟩ := KernelRun.base hr
    obtain ⟨ms, hms, hnew⟩ := hst.accepts hB hR (KernelRun.tokens hr) D
    rw [hms] at hm
    by_cases hn : n < (s.accepted D).length
    · rw [List.getElem?_append_left hn] at hm
      obtain ⟨C, call, hmem, hC⟩ := ih hm
      exact ⟨C, call, List.mem_cons_of_mem _ hmem, hC⟩
    rw [List.getElem?_append_right (Nat.le_of_not_lt hn)] at hm
    rcases hnew with hnull | ⟨C, msg', rfl, hC⟩
    · exact absurd (hnull msg (List.mem_of_getElem? hm)) hc
    · obtain ⟨h0, rfl⟩ : n - (s.accepted D).length = 0 ∧ msg' = msg := by
        rw [List.getElem?_singleton] at hm
        split at hm
        · exact ⟨‹_›, Option.some.inj hm⟩
        · cases hm
      exact ⟨C, _, List.mem_cons_self, hC, by dsimp only; omega⟩

end Kernel
end CheriOS
