import CheriOS.Kernel.Bypass
import CheriOS.Kernel.Send
/-!
# Uptime — tokens after many calls

`get_sync_token` puts all 32 bits of the counter into a token and into `expected_reply`; `kernel_creturn` takes 28 of
them out again.  The two agree until the counter reaches `2^28`: the reply to that call is refused, however well the
calls before it were answered.
-/
namespace CheriOS
namespace Kernel

open Outcome

variable {b : Build} {e : Entry} {C act : Aid} {u : BitVec 32} {s s' : State} {n : Nat}
  {tr newer older : List (Transition.Step State Entry)} {call : Transition.Step State Entry}

/-! ## Decoding -/

/-- **Decoding gives the counter back** where it fits in the mask. -/
theorem tokenUnique_eq_iff (C : Aid) (u : BitVec 32) :
    tokenUnique (tokenOffset C u) = u.setWidth 64 ↔ u.toNat < 2 ^ 28 := by
  have hu := u.isLt
  rw [← BitVec.toNat_inj, tokenUnique_tokenOffset, BitVec.toNat_setWidth, Nat.mod_eq_of_lt (by omega : u.toNat < 2 ^ 64)]
  omega

/-- **The check on the token of the last call** looks at the size of its number only. -/
theorem replyExpected_last (h : s.expected C = u) :
    replyExpected C (tokenOffset C u) s = true ↔ u.toNat < 2 ^ 28 := by
  have hexp : (s.kernelActs C).expectedReply = u := h
  rw [replyExpected_iff, hexp]
  omega

/-! ## The first reply -/

/-- **A call that nothing has ended** is its caller's last, and has it blocked. -/
theorem KernelRun.waits (h : KernelRun b (newer ++ call :: older) s) (hi : Issues C u call)
    (he : ∀ x ∈ newer, ¬ Ends b C u x) :
    s.schedStatus C = .syncBlock ∧ ∀ x ∈ newer, ∀ v, ¬ Issues C v x := by
  induction newer generalizing s with
  | nil => exact ⟨Transition.Run.post_eq h ▸ hi.blocked, by simp⟩
  | cons x newer ih =>
    cases h with
    | @cons _ s₀ _ e hr hstep =>
      obtain ⟨hpre, hn⟩ := ih hr (fun y hy => he y (List.mem_cons_of_mem _ hy))
      have hx : ∀ v, ¬ Issues C v ⟨s₀, e, s⟩ := fun v hv => by
        have hrun : s₀.schedStatus s₀.kernelCurrAct = .runnable := (KernelRun.base hr).2
        rw [hv.caller, hpre] at hrun
        cases hrun
      have hall : ∀ y ∈ ⟨s₀, e, s⟩ :: newer, ∀ v, ¬ Issues C v y := List.forall_mem_cons.2 ⟨hx, hn⟩
      exact ⟨KernelRun.stays_blocked (.cons hr hstep) hi hall he, hall⟩

/-- **A `creturn` that is accepted**: it is not refused as a bad one, no check on its caller fails, and when it comes back
the caller may run and has the reply. -/
structure Accepted (b : Build) (C : Aid) (e : Entry) (s : State) : Prop where
  good : kernelEntry b e s ≠ .error (.freeze .badSyncCreturn)
  asserted : kernelEntry b e s ≠ .error (.assertion .kernelCreturn)
  answers : ∀ s', kernelStep b s e s' →
    s'.schedStatus C = .runnable ∧ Replied e.regs (s.kernelExceptionFramep C) (s'.kernelExceptionFramep C)

theorem kernelEntry_refused (hB : Base s) (hc : e.cause = .creturn) (ht : syncTokenCap C u = .ok (e.regs.cf .c1))
    (hexp : s.expected C = u) (hu : 2 ^ 28 ≤ u.toNat) : kernelEntry b e s = .error (.freeze .badSyncCreturn) := by
  have hno : replyExpected C (tokenOffset C u) s = false :=
    Bool.eq_false_iff.2 fun hyes => Nat.not_lt.2 hu ((replyExpected_last hexp).1 hyes)
  rw [kernelEntry_eq hB, hc]
  exact (kernelCreturn_token hB ht).trans (if_pos hno)

theorem accepted_of_lt (hB : Base s) (hR : Runs s) (hc : e.cause = .creturn)
    (ht : syncTokenCap C u = .ok (e.regs.cf .c1)) (hissued : .token C u ∈ s.hist) (hexp : s.expected C = u)
    (hs : s.schedStatus C = .syncBlock) (hu : u.toNat < 2 ^ 28) : Accepted b C e s := by
  have hyes := (replyExpected_last hexp).2 hu
  have hent : kernelEntry b e s =
      if s.sched.squeueAEnd < maxActivations then actWait b s.kernelCurrAct C ((returning e s).answer C)
      else .error (.outOfBounds .squeueA) := by
    rw [kernelEntry_eq hB, hc]
    refine (kernelCreturn_token hB ht).trans ?_
    rw [if_neg (by simp [hyes]), if_neg fun hn => hn.2 hs]
  have hstop : ∀ st, kernelEntry b e s = .error st → st ≠ .freeze .badSyncCreturn ∧ st ≠ .assertion .kernelCreturn :=
    fun st hst => by
      rw [hent] at hst
      split at hst
      · exact (actWait_gives C).stop hst
      · obtain rfl := Except.error.inj hst
        decide
  have hne : C ≠ s.kernelCurrAct := by
    rintro rfl
    rw [hR] at hs
    cases hs
  exact ⟨fun h => (hstop _ h).1 rfl, fun h => (hstop _ h).2 rfl,
    fun s' hst => Presents.replied ⟨hc, ht, hissued, hyes⟩ hst hB hR hne⟩

/-- **First replies.**  The caller of a token is always decoded; its number, and the reply to the call it was made for, in
every state of every run in which nothing has ended that call, go through exactly when the number is below `2^28`. -/
theorem replies_decoded (hr : KernelRun b tr s) :
    (∀ C u, (tokenCaller (tokenOffset C u)).toNat = C ∧
      (tokenUnique (tokenOffset C u) = u.setWidth 64 ↔ u.toNat < 2 ^ 28)) ∧
    ∀ newer call older C u, tr = newer ++ call :: older → Issues C u call → (∀ x ∈ newer, ¬ Ends b C u x) →
      s.expected C = u ∧ s.schedStatus C = .syncBlock ∧
      ∀ e, e.cause = .creturn → syncTokenCap C u = .ok (e.regs.cf .c1) →
        (Accepted b C e s ↔ u.toNat < 2 ^ 28) ∧
        (kernelEntry b e s = .error (.freeze .badSyncCreturn) ↔ 2 ^ 28 ≤ u.toNat) := by
  refine ⟨fun C u => ⟨tokenCaller_tokenOffset C u, tokenUnique_eq_iff C u⟩, ?_⟩
  rintro newer call older C u rfl hi he
  obtain ⟨hB, hR⟩ := KernelRun.base hr
  obtain ⟨hs, hn⟩ := KernelRun.waits hr hi he
  have hexp := KernelRun.expected_of_last hr hi hn
  have hissued : .token C u ∈ s.hist := KernelRun.token_stays hr hi.issued
  refine ⟨hexp, hs, fun e hc ht => ?_⟩
  have hno : 2 ^ 28 ≤ u.toNat → kernelEntry b e s = .error (.freeze .badSyncCreturn) :=
    kernelEntry_refused hB hc ht hexp
  have hyes : u.toNat < 2 ^ 28 → Accepted b C e s := accepted_of_lt hB hR hc ht hissued hexp hs
  refine ⟨⟨fun ha => ?_, hyes⟩, fun hbad => ?_, hno⟩
  · by_contra hu
    exact ha.good (hno (Nat.le_of_not_lt hu))
  · by_contra hu
    exact (hyes (Nat.lt_of_not_le hu)).good hbad

/-- **A step after which an activation expects another number** is its call. -/
theorem kernelStep.issues_last (h : kernelStep b s e s') (hr : KernelRun b tr s) (hne : s'.expected C ≠ s.expected C) :
    Issues C (s'.expected C) ⟨s, e, s'⟩ := by
  obtain ⟨hB, hR⟩ := KernelRun.base hr
  rcases h.issues hB hR (KernelRun.tokens hr) C with ⟨hsame, -⟩ | ⟨u, hi, hexp, -⟩
  · exact absurd hsame hne
  · exact hexp ▸ hi

/-- Init calls an activation, which has not answered yet. -/
theorem replies_decoded_call : ∃ s, Accepted debugBuild 1 (creturnEntry (tokenCap 1 1)) s := by
  obtain ⟨tr, s, s', hr, hst, hp⟩ := scriptSat_step [registerEntry] (callEntry debugBuild 4 1 2)
    (fun s s' => s.expected 1 == 0 && s'.expected 1 == 1) (by decide +kernel)
  simp only [Bool.and_eq_true, beq_iff_eq] at hp
  have hi := hst.issues_last hr (C := 1) (by rw [hp.1, hp.2]; decide)
  rw [hp.2] at hi
  obtain ⟨-, -, hall⟩ := (replies_decoded (.cons hr hst)).2 [] _ tr 1 1 rfl hi (by simp)
  exact ⟨s', (hall (creturnEntry (tokenCap 1 1)) rfl (syncTokenCap_eq 1 1)).1.2 (by decide)⟩

/-! ## A run of many calls

Init calls activation 2, which answers and waits; and again.
-/

def answerEntry (s : State) : Entry := creturnEntry (tokenCap 1 s.unique)

def askEntry : Entry := callEntry debugBuild 4 1 2

def askIdentifier : Cap := ⟨true, false, 0, Cap.ddc.perms, 0, 0x1000, 0⟩

/-- Init runs alone, and activation 2 waits. -/
structure Resting (s : State) : Prop where
  curr : s.kernelCurrAct = 1
  next : s.kernelNextAct = 3
  alive : s.status 2 = .alive
  two : s.schedStatus 2 = .waiting
  size : s.sched.squeueAEnd = 1
  slot : s.sched.squeueA 0 = 1 ∧ s.sched.aqueue 1 = 0

/-- Activation 2 runs, with the message of init loaded and no other. -/
structure Asked (s : State) : Prop where
  curr : s.kernelCurrAct = 2
  next : s.kernelNextAct = 3
  alive : s.status 2 = .alive
  one : s.schedStatus 1 = .syncBlock
  size : s.sched.squeueAEnd = 1
  slot : s.sched.squeueA 0 = 2 ∧ s.sched.aqueue 2 = 0
  none : s.pending 2 = []

/-- The message that carries the call. -/
def question (s : State) : Msg :=
  mkMsg (((returning askEntry s).issue 1).kernelExceptionFramep 1) askIdentifier (tokenCap 1 (s.unique + 1))

def blocked (s : State) : State :=
  (((returning askEntry s).issue 1).accept 2 (question s)).deactivate 1 .syncBlock

def asked (s : State) : State := ((blocked s).dispatch 2).switchTo 2

def answered (s : State) : State := (((returning (answerEntry s) s).answer 1).deactivate 2 .waiting).switchTo 1

theorem asked_unique (s : State) : (asked s).unique = s.unique + 1 := by
  show (((returning askEntry s).issue 1).accept 2 (question s)).unique = _
  rw [State.accept_unique]
  rfl

theorem asked_expected (s : State) : (asked s).expected 1 = s.unique + 1 := by
  unfold State.expected asked blocked
  simp
  rfl

theorem answer_sched (s : State) : ((returning (answerEntry s) s).answer 1).sched = s.sched.after (.qadd 1) := rfl

theorem answer_runs (s : State) : ((returning (answerEntry s) s).answer 1).schedStatus 2 = s.schedStatus 2 := by
  rw [State.answer_schedStatus, if_neg (by decide)]
  rfl

theorem answered_sched (s : State) : (answered s).sched = (s.sched.after (.qadd 1)).after (.qdel 2) := rfl

namespace Resting

theorem registered (h : Resting s) : s.Registered 2 := by
  rw [State.Registered, h.next]
  decide

theorem ask_operands : Operands debugBuild askEntry 2 askIdentifier := ⟨rfl, by decide⟩

theorem issued (hB : Base s) (h : Resting s) : Base ((returning askEntry s).issue 1) := by
  have hr := (Ready.of_base hB).quiet (returning_quiet (e := askEntry))
  rw [h.curr] at hr
  exact hr.base.issue (by decide) hr.reg

theorem none (hB : Base s) (h : Resting s) : ((returning askEntry s).issue 1).pending 2 = [] := hB.waiting_pending 2 h.two

/-- The run queue when the message is in: init's slot, and the slot after it. -/
theorem accepted_sched (h : Resting s) :
    (((returning askEntry s).issue 1).accept 2 (question s)).sched = s.sched.after (.qadd 2) := by
  have hw : ((returning askEntry s).issue 1).schedStatus 2 = .waiting := by
    rw [State.issue_schedStatus]
    exact h.two
  unfold State.accept
  rw [if_pos hw]
  rfl

theorem blocked_sched (h : Resting s) : (blocked s).sched = (s.sched.after (.qadd 2)).after (.qdel 1) := by
  rw [← h.accepted_sched]
  rfl

theorem blocked_schedStatus (h : Resting s) (a : Aid) : (blocked s).schedStatus a =
    if a = 1 then .syncBlock else if a = 2 then .schedulable else s.schedStatus a := by
  have hw : (returning askEntry s).schedStatus 2 = .waiting := h.two
  unfold blocked
  rw [State.deactivate_schedStatus, State.accept_schedStatus]
  simp only [State.issue_schedStatus, hw, and_true]
  rfl

theorem blocked_next (h : Resting s) : (blocked s).kernelNextAct = 3 := by
  show (((returning askEntry s).issue 1).accept 2 (question s)).kernelNextAct = 3
  rw [State.accept_next]
  exact h.next

theorem blocked_base (hB : Base s) (h : Resting s) : Base (blocked s) := by
  have hreg : ((returning askEntry s).issue 1).Registered 2 := h.registered
  have hm : Base (((returning askEntry s).issue 1).accept 2 (question s)) :=
    (h.issued hB).accept hreg (by rw [h.none hB]; decide)
  refine hm.deactivate (by decide) ?_ (by simp) (by simp)
  have hnext : (((returning askEntry s).issue 1).accept 2 (question s)).kernelNextAct = 3 := h.blocked_next
  rw [State.Registered, hnext]
  decide

theorem block (hB : Base s) (h : Resting s) : kernelCcallCore debugBuild 2 (returning askEntry s) =
    schedReschedule debugBuild ((blocked s).kernelActs 2).aid (blocked s) := by
  obtain ⟨hcs, cb, hcb, hd⟩ := ask_operands.unseal hB
  have hcurr : (returning askEntry s).kernelCurrAct = 1 := h.curr
  have haid : ((returning askEntry s).kernelActs 2).aid = 2 := hB.aid_eq 2 h.registered
  have hreg : ((returning askEntry s).issue 1).Registered 2 := h.registered
  have hsize : ((returning askEntry s).issue 1).sched.squeueAEnd = 1 := h.size
  have hpush : msgPush debugBuild 2 1 askIdentifier (tokenCap 1 ((returning askEntry s).unique + 1))
      ((returning askEntry s).issue 1) = .ok (0, ((returning askEntry s).issue 1).accept 2 (question s)) := by
    rw [msgPush_eq (h.issued hB) hreg, if_pos (by rw [h.none hB]; decide), if_neg fun hn => hn.2 (by rw [hsize]; decide)]
    rfl
  have hslot : (((returning askEntry s).issue 1).accept 2 (question s)).SlotTest 1 := by
    rw [State.SlotTest, h.accepted_sched]
    simp [Sched.after, h.size, h.slot]
  have hend : (((returning askEntry s).issue 1).accept 2 (question s)).sched.squeueAEnd ≠ 0 := by
    rw [h.accepted_sched]
    simp [Sched.after]
  have hdel : schedA2d debugBuild 1 .syncBlock (((returning askEntry s).issue 1).accept 2 (question s)) =
      .ok (blocked s) := by
    rw [schedA2d_eq (.inl rfl), if_neg fun hn => hn.2 hslot, if_neg hend]
    rfl
  have hcurr' : (((returning askEntry s).issue 1).accept 2 (question s)).kernelCurrAct = 1 :=
    (State.accept_curr _ _ _).trans hcurr
  have hcore := kernelCcallCore_call (b := debugBuild) hcs hcb hd (by decide) h.alive
  rw [haid, hcurr, hpush, ok_bind, if_pos rfl, hcurr', hdel, ok_bind] at hcore
  exact hcore

/-- **Init calls.** -/
theorem ask (hB : Base s) (h : Resting s) : kernelEntry debugBuild askEntry s = .ok (asked s) := by
  have hBb := h.blocked_base hB
  have hreg : (blocked s).Registered 2 := by
    rw [State.Registered, h.blocked_next]
    decide
  have hready : (blocked s).schedStatus 2 = .schedulable := by
    rw [h.blocked_schedStatus, if_neg (by decide), if_pos rfl]
  have hrun : schedReschedule debugBuild 2 (blocked s) = .ok (asked s) := by
    unfold schedReschedule
    rw [if_neg (by decide)]
    exact tryRun_schedulable hBb (by decide) hready _
  rw [kernelEntry_ccall hB rfl, if_pos (by decide), kernelCcall_eq hB, if_neg (by decide), if_neg (by decide),
    if_pos (by decide), h.block hB, hBb.aid_eq 2 hreg]
  exact hrun

theorem asked_asked (hB : Base s) (h : Resting s) : Asked (asked s) where
  curr := rfl
  next := h.blocked_next
  alive := by
    show ((blocked s).dispatch 2).status 2 = .alive
    rw [State.dispatch_status]
    unfold blocked
    rw [State.deactivate_status, State.accept_status, State.issue_status]
    exact h.alive
  one := by
    show ((blocked s).dispatch 2).schedStatus 1 = .syncBlock
    rw [State.dispatch_schedStatus, h.blocked_schedStatus, if_neg (by decide), if_pos rfl]
  size := by
    show (blocked s).sched.squeueAEnd = 1
    rw [h.blocked_sched]
    simp [Sched.after, h.size]
  slot := by
    show (blocked s).sched.squeueA 0 = 2 ∧ (blocked s).sched.aqueue 2 = 0
    rw [h.blocked_sched]
    simp [Sched.after, h.size, h.slot]
  none := by
    have hi := h.issued hB
    have hreg : ((returning askEntry s).issue 1).Registered 2 := h.registered
    have hroom : (((returning askEntry s).issue 1).pending 2).length < maxMsg - 1 := by
      rw [h.none hB]
      decide
    have hone : (blocked s).pending 2 = [question s] := by
      show (((returning askEntry s).issue 1).accept 2 (question s)).pending 2 = _
      rw [State.accept_pending (hi.mask_eq 2 hreg) (hi.ring_wf 2) hroom, if_pos rfl, h.none hB]
      rfl
    have hBb := h.blocked_base hB
    have hregb : (blocked s).Registered 2 := by
      rw [State.Registered, h.blocked_next]
      decide
    have hpop := State.dispatch_pending (hBb.mask_eq 2 hregb) (hBb.ring_wf 2) (by rw [hone]; simp)
    rw [hone] at hpop
    exact (List.cons.inj hpop).2.symm

end Resting

namespace Asked

variable (hB : Base s) (h : Asked s)
include hB h

theorem answer_base : Base ((returning (answerEntry s) s).answer 1) := by
  have hr := (Ready.of_base hB).quiet (returning_quiet (e := answerEntry s))
  have h1 : (returning (answerEntry s) s).Registered 1 := by
    show (1 : Aid).val < s.kernelNextAct
    rw [h.next]
    decide
  exact hr.base.answer (by decide) h1

theorem parked : park debugBuild 2 ((returning (answerEntry s) s).answer 1) =
    .ok (((returning (answerEntry s) s).answer 1).deactivate 2 .waiting) := by
  have hemp : msgQueueEmpty 2 ((returning (answerEntry s) s).answer 1) = true :=
    (h.answer_base hB).empty_iff.2 h.none
  have hslot : ((returning (answerEntry s) s).answer 1).SlotTest 2 := by
    rw [State.SlotTest, answer_sched]
    simp [Sched.after, h.size, h.slot]
  have hend : ((returning (answerEntry s) s).answer 1).sched.squeueAEnd ≠ 0 := by
    rw [answer_sched]
    simp [Sched.after]
  unfold park
  rw [if_pos hemp, schedA2d_eq (.inr rfl), if_neg fun hn => hn.2 hslot, if_neg hend]

/-- **Activation 2 answers**, where the number of the call fits. -/
theorem answer (hR : Runs s) (hexp : s.expected 1 = s.unique) (hu : s.unique.toNat < 2 ^ 28) :
    kernelEntry debugBuild (answerEntry s) s = .ok (answered s) := by
  have hyes := (replyExpected_last hexp).2 hu
  have hrun : ((returning (answerEntry s) s).answer 1).schedStatus 2 = .runnable := by
    rw [answer_runs, ← h.curr]
    exact hR
  have hwait : actWait debugBuild 2 1 ((returning (answerEntry s) s).answer 1) = .ok (answered s) := by
    rw [actWait_eq hrun, h.parked hB, ok_bind]
    unfold schedReschedule
    rw [if_neg (by decide)]
    refine tryRun_runnable (by decide) ?_ _
    rw [State.deactivate_schedStatus, State.answer_schedStatus]
    rfl
  rw [kernelEntry_eq hB]
  refine (kernelCreturn_token (u := s.unique) hB (syncTokenCap_eq 1 _)).trans ?_
  rw [if_neg (by simp [hyes]), if_neg fun hn => hn.2 h.one, if_pos (by rw [h.size]; decide), h.curr]
  exact hwait

omit hB in
theorem answered_resting : Resting (answered s) where
  curr := rfl
  next := h.next
  alive := by
    show (((returning (answerEntry s) s).answer 1).deactivate 2 .waiting).status 2 = .alive
    rw [State.deactivate_status, State.answer_status]
    exact h.alive
  two := by
    show (((returning (answerEntry s) s).answer 1).deactivate 2 .waiting).schedStatus 2 = .waiting
    rw [State.deactivate_schedStatus, if_pos rfl]
  size := by
    rw [answered_sched]
    simp [Sched.after, h.size]
  slot := by
    rw [answered_sched]
    simp [Sched.after, h.size, h.slot]

end Asked

/-! ### Rounds up to the mask -/

/-- A call, and its answer brings the counter one further. -/
theorem Resting.asks (h : Resting s) (hr : KernelRun debugBuild tr s) :
    kernelStep debugBuild s askEntry (asked s) ∧ Issues 1 (s.unique + 1) ⟨s, askEntry, asked s⟩ := by
  have hstep : kernelStep debugBuild s askEntry (asked s) := ⟨(admissible_call h.registered).unseals, h.ask (KernelRun.base hr).1⟩
  have hcount := (KernelRun.tokens hr).counted 1
  have hsucc := (KernelRun.tokens hr).toNat_succ
  have hexp := asked_expected s
  refine ⟨hstep, hexp ▸ hstep.issues_last hr fun he => ?_⟩
  rw [← he, hexp] at hcount
  omega

theorem Resting.round (h : Resting s) (hr : KernelRun debugBuild tr s) (hu : (s.unique + 1).toNat < 2 ^ 28) :
    ∃ tr s', KernelRun debugBuild tr s' ∧ Resting s' ∧ s'.unique = s.unique + 1 := by
  obtain ⟨hask, hi⟩ := h.asks hr
  have hr' : KernelRun debugBuild _ (asked s) := .cons hr hask
  obtain ⟨hB, hR⟩ := KernelRun.base hr'
  have hA := h.asked_asked (KernelRun.base hr).1
  have huniq := asked_unique s
  have hstep : kernelStep debugBuild (asked s) (answerEntry (asked s)) (answered (asked s)) :=
    ⟨(admissible_creturn (huniq ▸ hi.issued)).unseals, hA.answer hB hR ((asked_expected s).trans huniq.symm) (huniq ▸ hu)⟩
  exact ⟨_, _, .cons hr' hstep, hA.answered_resting, huniq⟩

theorem Resting.rounds (n : Nat) (hn : s.unique.toNat + n < 2 ^ 28) (h : Resting s) (hr : KernelRun debugBuild tr s) :
    ∃ tr s', KernelRun debugBuild tr s' ∧ Resting s' ∧ s'.unique.toNat = s.unique.toNat + n := by
  induction n with
  | zero => exact ⟨tr, s, hr, h, rfl⟩
  | succ n ih =>
    obtain ⟨tr', s', hr', h', hu'⟩ := ih (by omega)
    have hsucc := (KernelRun.tokens hr').toNat_succ
    obtain ⟨tr'', s'', hr'', h'', hu''⟩ := h'.round hr' (by omega)
    exact ⟨tr'', s'', hr'', h'', by rw [hu'', hsucc, hu', Nat.add_assoc]⟩

/-- **A reply that is refused**: init has made `2^28 - 1` calls and had them answered, makes one more, and the first reply
to that one is a bad `creturn`. -/
theorem replies_decoded_fails : ∃ tr s s', KernelRun debugBuild tr s ∧ kernelStep debugBuild s askEntry s' ∧
    Issues 1 (2 ^ 28) ⟨s, askEntry, s'⟩ ∧ s'.kernelCurrAct = 2 ∧ s'.expected 1 = 2 ^ 28 ∧
    tokenUnique (tokenOffset 1 (2 ^ 28)) = 0 ∧
    Admissible debugBuild s' (creturnEntry (tokenCap 1 (2 ^ 28))).regs ∧
    kernelEntry debugBuild (creturnEntry (tokenCap 1 (2 ^ 28))) s' = .error (.freeze .badSyncCreturn) := by
  obtain ⟨tr₀, s₀, hr₀, -, hp⟩ := scriptSat_run debugBuild [registerEntry]
    (fun s => s.kernelCurrAct == 1 && (s.kernelNextAct == 3 && (s.status 2 == .alive && (s.schedStatus 2 == .waiting &&
      (s.sched.squeueAEnd == 1 && (s.sched.squeueA 0 == 1 && (s.sched.aqueue 1 == 0 && s.unique == 0)))))))
    (by decide +kernel)
  simp only [Bool.and_eq_true, beq_iff_eq] at hp
  obtain ⟨hcurr, hnext, halive, htwo, hsize, hslot, hslot', hzero⟩ := hp
  have h₀ : Resting s₀ := ⟨hcurr, hnext, halive, htwo, hsize, hslot, hslot'⟩
  obtain ⟨tr, s, hr, h, hu⟩ := h₀.rounds (2 ^ 28 - 1) (by rw [hzero]; decide) hr₀
  have hfull : s.unique + 1 = 2 ^ 28 := by
    apply BitVec.eq_of_toNat_eq
    rw [(KernelRun.tokens hr).toNat_succ, hu, hzero]
    decide
  obtain ⟨hstep, hi⟩ := h.asks hr
  rw [hfull] at hi
  have hexp : (asked s).expected 1 = 2 ^ 28 := (asked_expected s).trans hfull
  exact ⟨tr, s, asked s, hr, hstep, hi, rfl, hexp, by decide, admissible_creturn hi.issued,
    kernelEntry_refused (KernelRun.base (.cons hr hstep)).1 rfl (syncTokenCap_eq 1 _) hexp (by decide)⟩

end Kernel
end CheriOS
