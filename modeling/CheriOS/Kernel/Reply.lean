import CheriOS.Kernel.RunQueue
import CheriOS.Kernel.Token
/-!
# Reply — synchronous calls and their answers

A synchronous call blocks its caller until the token is presented in a `creturn` or the caller is terminated, and
nothing else does.  What the check of `kernel_creturn` does not see is whether that has happened already: it compares
numbers, and the number of the last call stays where it is after the answer.
-/
namespace CheriOS
namespace Kernel

open Outcome
open Relation (ReflTransGen)

variable {b : Build} {e : Entry} {c act C : Aid} {u : BitVec 32} {s s' m k : State}
  {tr newer older : List (Transition.Step State Entry)} {st call : Transition.Step State Entry}

/-! ## One step -/

def Returns (C : Aid) (u : BitVec 32) (st : Transition.Step State Entry) : Prop :=
  st.ev.cause = .creturn ∧ syncTokenCap C u = .ok (st.ev.regs.cf .c1)

/-- **What ends a call**: its token is presented, or its caller is terminated. -/
def Ends (b : Build) (C : Aid) (u : BitVec 32) (st : Transition.Step State Entry) : Prop :=
  Returns C u st ∨ Terminates b st.ev st.pre C

/-- **A `creturn` that comes back has passed the check, and the assertion where it is on**, and goes on from the
answer. -/
theorem kernelStep.returns (h : kernelStep b s e s') (hB : Base s) (hR : Runs s) (hc : e.cause = .creturn)
    (hu : .token C u ∈ s.hist) (ht : syncTokenCap C u = .ok (e.regs.cf .c1)) :
    Presents e s C u ∧ (b.lite = false → s.schedStatus C = .syncBlock) ∧
      ReflTransGen (Routine b e s.kernelCurrAct) ((returning e s).answer C) s' := by
  have hent : kernelCreturn b (saved e s) = .ok s' := by
    rw [← h.2, kernelEntry_eq hB, hc]
    rfl
  rw [kernelCreturn_token hB ht] at hent
  split at hent
  · cases hent
  rename_i hexp
  split at hent
  · cases hent
  rename_i hreplay
  split at hent
  · have hp : Presents e s C u := ⟨hc, ht, hu, by simpa using hexp⟩
    have hblocked : b.lite = false → s.schedStatus C = .syncBlock :=
      fun hl => by_contra fun hst => hreplay ⟨hl, hst⟩
    have ho : Opening b e s ((returning e s).answer C) := .reply C u hp hblocked ‹_›
    have hrun : ((returning e s).answer C).schedStatus s.kernelCurrAct = .runnable := by
      rw [State.answer_schedStatus]
      split
      · rfl
      · exact hR
    have hwait := actWait_leads (b := b) (e := e) (ho.ready hB) hrun C
    rw [hent] at hwait
    exact ⟨hp, hblocked, hwait.1⟩
  · cases hent

/-- **An `act_terminate` that comes back leaves its activation terminated.** -/
theorem kernelStep.terminates (h : kernelStep b s e s') (hB : Base s) (hR : Runs s) (ht : Terminates b e s C) :
    s'.schedStatus C = .terminated := by
  obtain ⟨⟨mem, hc⟩, hsys, ha⟩ := id ht
  have ha' : ctrlAid b (e.regs.cf .c3) (saved e s) = .ok C := ha
  have hreg : s.Registered C := by
    rcases ctrlAid_cases hB h.1 with htrap | ⟨a, hreg, hok⟩
    · rw [ha] at htrap
      cases htrap
    · rw [ha] at hok
      exact Except.ok.inj hok ▸ hreg
  have hent : (syscallActTerminate b (saved e s) >>= fun m => .ok (kernelSkipInstr s.kernelCurrAct m)) = .ok s' := by
    rw [← h.2, kernelEntry_syscall hB hc, hsys]
    rfl
  by_cases hst : s.SlotTest C ∧ s.sched.squeueAEnd = 0
  · have hst' : (saved e s).SlotTest C ∧ (saved e s).sched.squeueAEnd = 0 := hst
    unfold syscallActTerminate at hent
    rw [saved_frame hB, actTerminate_eq ha', if_pos hst'] at hent
    cases hent
  · have hpos : s.SlotTest C → 0 < s.sched.squeueAEnd := fun ht => Nat.pos_of_ne_zero (fun h0 => hst ⟨ht, h0⟩)
    have ho : Opening b e s ((saved e s).terminate C) := .terminate C saved_quiet ht hreg hpos
    obtain ⟨m, hm, hend⟩ := bind_eq_ok.1 hent
    have hlead := syscallActTerminate_leads hB hR ha' ho hst
    rw [hm] at hlead
    have hmC : m.schedStatus C = .terminated := terminated_path hlead.1 (by simp)
    obtain rfl := Except.ok.inj hend
    exact hmC

/-- **A caller is unblocked by an answer that passes the check, or terminated.** -/
theorem Mid.unblocked (h : Mid b e s m) (hB : Base s) (hR : Runs s) (hs : s.schedStatus C = .syncBlock)
    (hm : m.schedStatus C ≠ .syncBlock) : (∃ u, Presents e s C u) ∨ Terminates b e s C := by
  obtain ⟨k, ho, hp⟩ := h
  rcases ho.moved hB hR C with hmv | ⟨-, hrun, -⟩ | ⟨hpres, -, -⟩ | ⟨hterm, -⟩
  · rw [hs] at hmv
    exact absurd (syncBlock_path hp hmv.syncBlock) hm
  · rw [hs] at hrun
    cases hrun
  · exact .inl hpres
  · exact .inr hterm

/-- **A caller is blocked by its own synchronous call only.** -/
theorem kernelStep.blocks (h : kernelStep b s e s') (hB : Base s) (hR : Runs s) (hT : Tokens s)
    (hs' : s'.schedStatus C = .syncBlock) (hs : s.schedStatus C ≠ .syncBlock) : ∃ u, Issues C u ⟨s, e, s'⟩ := by
  obtain ⟨k, ho, hp⟩ := (h.mid hB hR).1
  have hk : k.schedStatus C = .syncBlock := by_contra fun hk => not_syncBlock_path hp hk hs'
  obtain ⟨rfl, s₀, m, hq, hsent, rfl⟩ := ho.blocks hB hs hk
  have hc := Calls.of_sent hq hsent
  have hcs : Calls e s s' := ⟨hc.cause, hc.selector, hc.issued.trans (sameTokens_path hp), hs'⟩
  exact ⟨_, hcs.issues hT⟩

/-- **What ends a call unblocks its caller.** -/
theorem kernelStep.ends (h : kernelStep b s e s') (hB : Base s) (hR : Runs s) (hu : .token C u ∈ s.hist)
    (he : Ends b C u ⟨s, e, s'⟩) : s'.schedStatus C ≠ .syncBlock := by
  rcases he with ⟨hc, ht⟩ | hterm
  · obtain ⟨-, -, hp⟩ := h.returns hB hR hc hu ht
    exact not_syncBlock_path hp (by simp)
  · rw [h.terminates hB hR hterm]
    decide

/-! ## From a call to its end -/

theorem KernelRun.stays_unblocked (h : KernelRun b (newer ++ st :: older) s) (hst : st.post.schedStatus C ≠ .syncBlock)
    (hn : ∀ x ∈ newer, ∀ v, ¬ Issues C v x) : s.schedStatus C ≠ .syncBlock := by
  induction newer generalizing s with
  | nil => exact Transition.Run.post_eq h ▸ hst
  | cons x newer ih =>
    cases h with
    | cons hr hstep =>
      obtain ⟨hB, hR⟩ := KernelRun.base hr
      have hpre := ih hr (fun y hy => hn y (List.mem_cons_of_mem _ hy))
      intro hs
      obtain ⟨v, hv⟩ := hstep.blocks hB hR (KernelRun.tokens hr) hs hpre
      exact hn _ List.mem_cons_self v hv

theorem Mid.blocked (hm : Mid b e s m) (hB : Base s) (hR : Runs s) (hT : Tokens s) (hs : s.schedStatus C = .syncBlock)
    (hu : s.expected C = u) (he : ¬ Ends b C u ⟨s, e, s'⟩) : m.schedStatus C = .syncBlock := by
  by_contra hn
  rcases hm.unblocked hB hR hs hn with ⟨v, hp⟩ | ht
  · have hv := (hT.replyExpected hp.issued).1 hp.expected
    rw [hu] at hv
    exact he (.inl ⟨hp.cause, hv.1 ▸ hp.token⟩)
  · exact he (.inr ht)

/-- **A caller stays blocked until something ends its call.** -/
theorem KernelRun.stays_blocked (h : KernelRun b (newer ++ call :: older) s) (hi : Issues C u call)
    (hn : ∀ x ∈ newer, ∀ v, ¬ Issues C v x) (he : ∀ x ∈ newer, ¬ Ends b C u x) : s.schedStatus C = .syncBlock := by
  induction newer generalizing s with
  | nil => exact Transition.Run.post_eq h ▸ hi.blocked
  | cons x newer ih =>
    cases h with
    | cons hr hstep =>
      obtain ⟨hB, hR⟩ := KernelRun.base hr
      have hn' : ∀ y ∈ newer, ∀ v, ¬ Issues C v y := fun y hy => hn y (List.mem_cons_of_mem _ hy)
      have hpre := ih hr hn' (fun y hy => he y (List.mem_cons_of_mem _ hy))
      exact (hstep.mid hB hR).1.blocked hB hR (KernelRun.tokens hr) hpre (KernelRun.expected_of_last hr hi hn')
        (he _ List.mem_cons_self)

/-- **Nothing has ended the call of a caller that is blocked.** -/
theorem KernelRun.not_ended (h : KernelRun b (newer ++ call :: older) s) (hi : Issues C u call)
    (hn : ∀ x ∈ newer, ∀ v, ¬ Issues C v x) (hs : s.schedStatus C = .syncBlock) : ∀ x ∈ newer, ¬ Ends b C u x := by
  intro x hx he
  obtain ⟨newest, between, rfl⟩ := List.append_of_mem hx
  rw [List.append_assoc, List.cons_append] at h
  obtain ⟨hpre, hstep, -⟩ := h.cut
  obtain ⟨hB, hR⟩ := KernelRun.base hpre
  have hpost := hstep.ends hB hR (KernelRun.token_stays hpre hi.issued) he
  exact KernelRun.stays_unblocked h hpost (fun y hy => hn y (List.mem_append_left _ hy)) hs

/-- **A caller that is blocked has been since its call**, at every update. -/
theorem KernelRun.blocked_since (h : KernelRun b (newer ++ call :: older) s) (hi : Issues C u call)
    (hn : ∀ x ∈ newer, ∀ v, ¬ Issues C v x) (hs : s.schedStatus C = .syncBlock) :
    ∀ x ∈ newer, x.pre.schedStatus C = .syncBlock ∧ ∀ m, Mid b x.ev x.pre m → m.schedStatus C = .syncBlock := by
  intro x hx
  have hends := KernelRun.not_ended h hi hn hs
  obtain ⟨newest, between, rfl⟩ := List.append_of_mem hx
  rw [List.append_assoc, List.cons_append] at h
  obtain ⟨hpre, -, -⟩ := h.cut
  obtain ⟨hB, hR⟩ := KernelRun.base hpre
  have hn' : ∀ y ∈ between, ∀ v, ¬ Issues C v y :=
    fun y hy => hn y (List.mem_append_right _ (List.mem_cons_of_mem _ hy))
  have hblocked : x.pre.schedStatus C = .syncBlock :=
    KernelRun.stays_blocked hpre hi hn' (fun y hy => hends y (List.mem_append_right _ (List.mem_cons_of_mem _ hy)))
  exact ⟨hblocked, fun m hm => hm.blocked hB hR (KernelRun.tokens hpre) hblocked
    (KernelRun.expected_of_last hpre hi hn') (hends x hx)⟩

/-! ## Replies are safe -/

def Unblocks (C : Aid) (st : Transition.Step State Entry) : Prop :=
  st.ev.cause = .creturn ∧ st.pre.schedStatus C = .syncBlock ∧ st.post.schedStatus C ≠ .syncBlock

/-- **A reply in a caller's frame**: three registers of the replier, and nothing else. -/
structure Replied (replier f f' : RegFrame) : Prop where
  reply : f'.cf .c3 = replier.cf .c3 ∧ f'.mf .v0 = replier.mf .v0 ∧ f'.mf .v1 = replier.mf .v1
  otherInts : ∀ r, r ≠ .v0 → r ≠ .v1 → f'.mf r = f.mf r
  otherCaps : ∀ r, r ≠ .c3 → f'.cf r = f.cf r

theorem Unblocks.presents (h : Unblocks C ⟨s, e, s'⟩) (hst : kernelStep b s e s') (hB : Base s) (hR : Runs s) :
    ∃ u, Presents e s C u := by
  rcases (hst.mid hB hR).1.unblocked hB hR h.2.1 h.2.2 with hp | ⟨⟨mem, hc⟩, -, -⟩
  · exact hp
  · have hcause := h.1
    rw [hc] at hcause
    cases hcause

/-- **An accepted token gets its caller the reply**, which keeps everything else in its frame and may run. -/
theorem Presents.replied (hp : Presents e s C u) (hst : kernelStep b s e s') (hB : Base s) (hR : Runs s)
    (hne : C ≠ s.kernelCurrAct) :
    s'.schedStatus C = .runnable ∧ Replied e.regs (s.kernelExceptionFramep C) (s'.kernelExceptionFramep C) := by
  obtain ⟨-, -, hpath⟩ := hst.returns hB hR hp.cause hp.issued hp.token
  have h0 : C ≠ 0 := (hB.token_caller C u hp.issued).1
  obtain ⟨hrun, hframe⟩ := runnable_path hpath hne h0 (by simp)
  refine ⟨hrun, ?_⟩
  have hother : (returning e s).kernelExceptionFramep C = s.kernelExceptionFramep C := by
    obtain ⟨framep, child, im, timer, hq, hf, -⟩ : Quiet s.kernelCurrAct s (returning e s) := returning_quiet
    rw [hq]
    exact hf C hne h0
  have hcopy : ((returning e s).answer C).kernelExceptionFramep C =
      copyReply (s.kernelExceptionFramep C) (returning e s).frame := by
    simp [State.answer, hother]
  have hc3 : (returning e s).frame.cf .c3 = e.regs.cf .c3 := returning_cf hB (by decide)
  have hv0 : (returning e s).frame.mf .v0 = e.regs.mf .v0 := returning_mf hB (by decide)
  have hv1 : (returning e s).frame.mf .v1 = e.regs.mf .v1 := returning_mf hB (by decide)
  rw [hframe, hcopy]
  exact ⟨by simp [copyReply, hc3, hv0, hv1], fun r h0 h1 => by simp [copyReply, h0, h1], fun r h3 => by
    simp [copyReply, h3]⟩

theorem Unblocks.replied (h : Unblocks C ⟨s, e, s'⟩) (hst : kernelStep b s e s') (hB : Base s) (hR : Runs s) :
    Replied e.regs (s.kernelExceptionFramep C) (s'.kernelExceptionFramep C) := by
  obtain ⟨u, hp⟩ := h.presents hst hB hR
  have hne : C ≠ s.kernelCurrAct := by
    rintro rfl
    have hs := h.2.1
    rw [hR] at hs
    cases hs
  exact (hp.replied hst hB hR hne).2

/-- **Synchronous calls and their replies.**  A `creturn` of a run that unblocks `C` presents the token of the last call
of `C`, and `C` has been blocked in that call since, at every update; between two of them `C` has called again, so that
each call is answered once at most; and exactly three registers of the frame of `C` change, to the replier's. -/
theorem reply_safe (hr : KernelRun b (newer ++ st :: older) s) (hC : Unblocks C st) :
    (∃ u waited call before, older = waited ++ call :: before ∧ Issues C u call ∧ Returns C u st ∧
      (∀ x ∈ waited, ∀ v, ¬ Issues C v x) ∧
      ∀ x ∈ waited, x.pre.schedStatus C = .syncBlock ∧ ∀ m, Mid b x.ev x.pre m → m.schedStatus C = .syncBlock) ∧
    (∀ between first before, older = between ++ first :: before → Unblocks C first →
      ∃ call ∈ between, ∃ u, Issues C u call) ∧
    Replied st.ev.regs (st.pre.kernelExceptionFramep C) (st.post.kernelExceptionFramep C) := by
  obtain ⟨hpre, hstep, -⟩ := hr.cut
  obtain ⟨hB, hR⟩ := KernelRun.base hpre
  refine ⟨?_, fun between first before hold hfirst => ?_, hC.replied hstep hB hR⟩
  · obtain ⟨u, hp⟩ := hC.presents hstep hB hR
    obtain ⟨waited, call, before, rfl, hi⟩ := KernelRun.issued hpre hp.issued
    have hexp := ((KernelRun.tokens hpre).replyExpected hp.issued).1 hp.expected
    have hlast := KernelRun.last_of_expected hpre hi hexp.1
    exact ⟨u, waited, call, before, rfl, hi, ⟨hp.cause, hp.token⟩, hlast,
      KernelRun.blocked_since hpre hi hlast hC.2.1⟩
  · by_contra hno
    rw [hold] at hpre
    exact KernelRun.stays_unblocked hpre hfirst.2.2 (fun x hx v hv => hno ⟨x, hx, v, hv⟩) hC.2.1

/-- Init calls an activation, which answers. -/
theorem reply_safe_answer : ∃ s s', kernelStep debugBuild s (creturnEntry (tokenCap 1 1)) s' ∧ Unblocks 1
    ⟨s, creturnEntry (tokenCap 1 1), s'⟩ ∧
    Replied (creturnEntry (tokenCap 1 1)).regs (s.kernelExceptionFramep 1) (s'.kernelExceptionFramep 1) := by
  obtain ⟨tr, s, hr, -, hp⟩ := scriptSat_run debugBuild [registerEntry, callEntry debugBuild 4 1 2]
    (fun s => s.schedStatus 1 == .syncBlock &&
      (checkedEntry debugBuild s (creturnEntry (tokenCap 1 1))).any (fun s' => s'.schedStatus 1 == .runnable))
    (by decide +kernel)
  obtain ⟨hs, hs'⟩ := Bool.and_eq_true_iff.1 hp
  rw [beq_iff_eq] at hs
  obtain ⟨s', hs', hrun⟩ := Option.any_eq_true _ _ |>.1 hs'
  rw [beq_iff_eq] at hrun
  have hstep := checkedEntry_step hs'
  have hr' : KernelRun debugBuild ([] ++ ⟨s, creturnEntry (tokenCap 1 1), s'⟩ :: tr) s' := .cons hr hstep
  have hC : Unblocks 1 ⟨s, creturnEntry (tokenCap 1 1), s'⟩ := ⟨rfl, hs, by simp [hrun]⟩
  exact ⟨s, s', hstep, hC, (reply_safe hr' hC).2.2⟩

/-! ## What the check does not see -/

/-- **The token of a call that is over**: it has been presented since, or its caller has been terminated, and its caller
has made no new call. -/
def Spent (b : Build) (C : Aid) (u : BitVec 32) (tr : List (Transition.Step State Entry)) : Prop :=
  ∃ since call before, tr = since ++ call :: before ∧ Issues C u call ∧ (∀ x ∈ since, ∀ v, ¬ Issues C v x) ∧
    ∃ x ∈ since, Ends b C u x

/-- **The check passes for a caller that is not blocked exactly when the token is spent** and its number fits. -/
theorem KernelRun.spent_iff (h : KernelRun b tr s) (hu : .token C u ∈ s.hist) :
    (replyExpected C (tokenOffset C u) s = true ∧ s.schedStatus C ≠ .syncBlock) ↔
      u.toNat < 2 ^ 28 ∧ Spent b C u tr := by
  rw [(KernelRun.tokens h).replyExpected hu]
  constructor
  · rintro ⟨⟨he, hlt⟩, hs⟩
    obtain ⟨since, call, before, rfl, hi⟩ := KernelRun.issued h hu
    have hlast := KernelRun.last_of_expected h hi he
    refine ⟨hlt, since, call, before, rfl, hi, hlast, ?_⟩
    by_contra hno
    exact hs (KernelRun.stays_blocked h hi hlast (fun x hx hx' => hno ⟨x, hx, hx'⟩))
  · rintro ⟨hlt, since, call, before, rfl, hi, hlast, x, hx, he⟩
    exact ⟨⟨KernelRun.expected_of_last h hi hlast, hlt⟩, fun hs => KernelRun.not_ended h hi hlast hs x hx he⟩

/-- The assertion, where the check passes for a caller that is not blocked. -/
theorem kernelEntry_replay (hB : Base s) (hb : b.lite = false) (hc : e.cause = .creturn)
    (ht : syncTokenCap C u = .ok (e.regs.cf .c1)) (hexp : replyExpected C (tokenOffset C u) s = true)
    (hst : s.schedStatus C ≠ .syncBlock) : kernelEntry b e s = .error (.assertion .kernelCreturn) := by
  rw [kernelEntry_eq hB, hc]
  show kernelCreturn b (saved e s) = _
  rw [kernelCreturn_token hB ht, hexp, if_neg (by decide), if_pos ⟨hb, hst⟩]

/-- A run in which every token presented is good. -/
def Unspent (b : Build) (tr : List (Transition.Step State Entry)) : Prop :=
  ∀ newer st older, tr = newer ++ st :: older → ∀ C u, Returns C u st → ¬ Spent b C u older

theorem Sound.presents (hs : Sound s) (h : KernelRun b tr s) (hp : Presents e s C u) (hn : ¬ Spent b C u tr) :
    s.schedStatus C = .syncBlock ∧ ¬ s.Queued C := by
  have hblocked : s.schedStatus C = .syncBlock := by
    by_contra hst
    exact hn ((KernelRun.spent_iff h hp.issued).1 ⟨hp.expected, hst⟩).2
  refine ⟨hblocked, fun hq => ?_⟩
  rcases hs.canRun C hq with hr | hr <;> rw [hblocked] at hr <;> cases hr

theorem sound_of_unspent (h : KernelRun b tr s) (hf : Unspent b tr) : Sound s := by
  induction h with
  | nil hboot =>
    obtain ⟨bi, hbi⟩ := hboot
    exact sound_kept (b := b) |>.boot _ (cheriosMain_booted hbi)
  | @cons tr s s' e hr hst ih =>
    have hf' : Unspent b tr := fun newer st older he => hf (⟨s, e, s'⟩ :: newer) st older (by rw [he]; rfl)
    obtain ⟨hB, hR⟩ := KernelRun.base hr
    refine sound_kept.mid hB hR (ih hf') (fun _ C u hp => ?_) (hst.mid hB hR).1
    exact ((ih hf').presents hr hp (hf [] _ tr rfl C u ⟨hp.cause, hp.token⟩)).2

/-- **When the check implies the assertion.**  In every state of every run and for every token made in it, the check
implies that the caller is blocked exactly when the token is not spent or its number does not fit.  So, where it is
compiled in, the assertion fails for the spent tokens exactly; and where it is not, a run that presents no spent token
never puts an activation into the run queue that is in it or terminated. -/
theorem reply_check (hr : KernelRun b tr s) :
    (∀ C u, .token C u ∈ s.hist →
      ((replyExpected C (tokenOffset C u) s = true → s.schedStatus C = .syncBlock) ↔
        ¬ (u.toNat < 2 ^ 28 ∧ Spent b C u tr))) ∧
    (b.lite = false → ∀ e, Unseals b e s → (kernelEntry b e s = .error (.assertion .kernelCreturn) ↔
      ∃ C u, e.cause = .creturn ∧ .token C u ∈ s.hist ∧ syncTokenCap C u = .ok (e.regs.cf .c1) ∧ u.toNat < 2 ^ 28 ∧
        Spent b C u tr)) ∧
    (Unspent b tr → ∀ e C u, Presents e s C u → ¬ Spent b C u tr → s.schedStatus C = .syncBlock ∧ ¬ s.Queued C) := by
  obtain ⟨hB, hR⟩ := KernelRun.base hr
  refine ⟨fun C u hu => ?_, fun hb e hA => ⟨fun hstop => ?_, ?_⟩, fun hf e C u hp hn => ?_⟩
  · rw [← KernelRun.spent_iff hr hu, not_and_not_right]
  · have hstuck := stuck_of_stop hA hstop hB hR
    cases hstuck with
    | routine _ _ hh => cases hh
    | call _ _ hh => cases hh
    | replay C u _ hp hst =>
      obtain ⟨hlt, hspent⟩ := (KernelRun.spent_iff hr hp.issued).1 ⟨hp.expected, hst⟩
      exact ⟨C, u, hp.cause, hp.issued, hp.token, hlt, hspent⟩
  · rintro ⟨C, u, hc, hu, ht, hspent⟩
    obtain ⟨hexp, hst⟩ := (KernelRun.spent_iff hr hu).2 hspent
    exact kernelEntry_replay hB hb hc ht hexp hst
  · exact (sound_of_unspent hr hf).presents hr hp hn

/-- Init calls an activation: the token is not spent. -/
theorem reply_check_call : ∃ tr s, KernelRun debugBuild tr s ∧ .token 1 1 ∈ s.hist ∧
    ¬ ((1 : BitVec 32).toNat < 2 ^ 28 ∧ Spent debugBuild 1 1 tr) := by
  obtain ⟨tr, s, hr, -, hp⟩ := scriptSat_run debugBuild [registerEntry, callEntry debugBuild 4 1 2]
    (fun s => s.schedStatus 1 == .syncBlock && tokenMade 1 1 s) (by decide +kernel)
  obtain ⟨hs, htok⟩ := Bool.and_eq_true_iff.1 hp
  rw [beq_iff_eq] at hs
  exact ⟨tr, s, hr, tokenMade_sound htok, ((reply_check hr).1 1 1 (tokenMade_sound htok)).1 (fun _ => hs)⟩

/-- Init calls an activation, which answers; init sends it another message and sleeps. -/
def replayScript : List Entry :=
  [registerEntry, callEntry debugBuild 4 1 2, creturnEntry (tokenCap 1 1), callEntry debugBuild 1 1 2, sleepEntry]

/-- **A token used twice**: the activation that answered presents the token again; the check passes for a caller that
runs, and the assertion stops the kernel. -/
theorem reply_check_fails : ∃ tr s, KernelRun debugBuild tr s ∧ s.kernelCurrAct = 2 ∧
    Admissible debugBuild s (creturnEntry (tokenCap 1 1)).regs ∧ .token 1 1 ∈ s.hist ∧
    replyExpected 1 (tokenOffset 1 1) s = true ∧ s.schedStatus 1 = .runnable ∧
    kernelEntry debugBuild (creturnEntry (tokenCap 1 1)) s = .error (.assertion .kernelCreturn) := by
  obtain ⟨tr, s, hr, -, hp⟩ := scriptSat_run debugBuild replayScript
    (fun s => s.kernelCurrAct == 2 && (admissible debugBuild s (creturnEntry (tokenCap 1 1)).regs &&
      (tokenMade 1 1 s && (replyExpected 1 (tokenOffset 1 1) s && s.schedStatus 1 == .runnable))))
    (by decide +kernel)
  simp only [Bool.and_eq_true, beq_iff_eq] at hp
  obtain ⟨hcurr, hA, htok, hexp, hs⟩ := hp
  exact ⟨tr, s, hr, hcurr, admissible_sound hA, tokenMade_sound htok, hexp, hs,
    kernelEntry_replay (KernelRun.base hr).1 rfl rfl (syncTokenCap_eq 1 1) hexp (by rw [hs]; decide)⟩

end Kernel
end CheriOS
