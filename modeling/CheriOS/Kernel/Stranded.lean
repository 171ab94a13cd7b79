import CheriOS.Kernel.Fifo
import CheriOS.Kernel.Lifecycle
import CheriOS.Kernel.Reply
import CheriOS.Kernel.Script
/-!
# Stranded — who holds the token of a blocked caller

The token of a call is in the message that the call enqueued for its callee, and there it stays, in the queue or in what
the callee has loaded.  `act_terminate` does not look at the callers of the activation it ends: they stay blocked.
-/
namespace CheriOS
namespace Kernel

open Relation (ReflTransGen)

variable {b : Build} {e : Entry} {C D : Aid} {s s' : State} {tr newer older : List (Transition.Step State Entry)}
  {call : Transition.Step State Entry}

/-- **The message of a call**: the step makes the token of `C` and enqueues it, in a message, for the living `D`. -/
structure Carries (C D : Aid) (msg : Msg) (call : Transition.Step State Entry) : Prop where
  token : msg.c1 = tokenCap C (call.post.expected C)
  issues : Issues C (call.post.expected C) call
  registered : call.pre.Registered D
  alive : call.post.status D = .alive
  enqueued : call.pre.accepted D ++ [msg] <+: call.post.accepted D

theorem kernelStep.carries (h : kernelStep b s e s') (hB : Base s) (hR : Runs s) (hT : Tokens s)
    (hs' : s'.schedStatus C = .syncBlock) (hs : s.schedStatus C ≠ .syncBlock) : ∃ D msg, Carries C D msg ⟨s, e, s'⟩ := by
  obtain ⟨k, ho, hp⟩ := (h.mid hB hR).1
  have hk : k.schedStatus C = .syncBlock := by_contra fun hk => not_syncBlock_path hp hk hs'
  obtain ⟨rfl, s₀, m, hq, hsent, rfl⟩ := ho.blocks hB hs hk
  have hc := Calls.of_sent hq hsent
  have hcs : Calls e s s' := ⟨hc.cause, hc.selector, hc.issued.trans (sameTokens_path hp), hs'⟩
  have hexp : s'.expected s.kernelCurrAct = s.unique + 1 := by
    rw [hcs.issued.expected, Tokens.issue_expected, if_pos rfl]
  have huniq : s₀.unique = s.unique := (SameTokens.quiet hq).unique
  cases hsent with
  | mk dest identifier _ _ hd hst _ _ =>
    refine ⟨dest, mkMsg (s₀.kernelExceptionFramep s.kernelCurrAct) identifier (tokenCap s.kernelCurrAct (s₀.unique + 1)),
      ?_, ?_, ?_, ?_, ?_⟩
    · show tokenCap s.kernelCurrAct (s₀.unique + 1) = _
      rw [hexp, huniq]
    · rw [hexp]
      exact hcs.issues hT
    · rw [State.Registered, ← hq.next]
      exact hd
    · have hpath : s'.status dest = _ :=
        Outcome.inv_path (I := fun m => m.status dest = s₀.status dest) (fun _ _ h hr => (hr.status dest).trans h)
          (by simp) hp
      exact hpath.trans hst
    · have hgrows := Outcome.inv_path (R := Routine b e s.kernelCurrAct) (I := fun m => _ <:+ m.hist)
        (fun _ _ hm hr => hm.trans hr.grows) (List.suffix_refl _) hp
      refine List.IsPrefix.trans ?_ (accepted_extends hgrows dest)
      rw [deactivate_accepted, accept_accepted, if_pos rfl, issue_accepted, hq.accepted]

/-- **Who ends an activation.** -/
theorem kernelStep.ended (h : kernelStep b s e s') (hB : Base s) (hR : Runs s) (hD : s.status D ≠ .terminated)
    (hD' : s'.status D = .terminated) : Terminates b e s D := by
  obtain ⟨k, ho, hp⟩ := (h.mid hB hR).1
  have hk : s'.status D = k.status D :=
    Outcome.inv_path (I := fun m => m.status D = k.status D) (fun _ _ h hr => (hr.status D).trans h) rfl hp
  rw [hk] at hD'
  rcases ho.status hB D with hst | ⟨hst, -⟩ | ⟨ht, -⟩
  · rw [hst] at hD'
    exact absurd hD' hD
  · rw [hst] at hD'
    cases hD'
  · exact ht

/-- **Where the token of a blocked caller is.**  In every state of every run, the token that a blocked activation `C`
waits for is in the message of its last call, which is still in the queue of its callee `D` or has been loaded by it;
and `D`, which was alive at the call, is not terminated, unless an `act_terminate` has named it since. -/
theorem KernelRun.token_waits (hr : KernelRun b tr s) (hC : s.schedStatus C = .syncBlock) :
    ∃ newer call older D msg, tr = newer ++ call :: older ∧ Carries C D msg call ∧
      (∀ x ∈ newer, ∀ v, ¬ Issues C v x) ∧ msg.c1 = tokenCap C (s.expected C) ∧
      (msg ∈ s.pending D ∨ msg ∈ s.loaded D) ∧
      (s.status D ≠ .terminated ∨ ∃ x ∈ newer, Terminates b x.ev x.pre D) := by
  suffices hmain : ∃ newer call older D msg, tr = newer ++ call :: older ∧ Carries C D msg call ∧
      (∀ x ∈ newer, ∀ v, ¬ Issues C v x) ∧ msg.c1 = tokenCap C (s.expected C) ∧ msg ∈ s.accepted D ∧
      (s.status D ≠ .terminated ∨ ∃ x ∈ newer, Terminates b x.ev x.pre D) by
    obtain ⟨newer, call, older, D, msg, htr, hc, hn, htok, hacc, hend⟩ := hmain
    rw [conserved_kept.run_all hr D, List.mem_append] at hacc
    exact ⟨newer, call, older, D, msg, htr, hc, hn, htok, hacc.symm, hend⟩
  induction hr with
  | nil hboot =>
    obtain ⟨bi, hbi⟩ := hboot
    rcases (cheriosMain_booted hbi).schedStatus C with hs | hs | hs <;> rw [hC] at hs <;> cases hs
  | @cons tr s s' e hr hst ih =>
    obtain ⟨hB, hR⟩ := KernelRun.base hr
    have hT := KernelRun.tokens hr
    have hgrows := (hst.mid hB hR).1.grows
    by_cases hs : s.schedStatus C = .syncBlock
    · obtain ⟨newer, call, older, D, msg, rfl, hc, hn, htok, hacc, hend⟩ := ih hs
      have hno : ∀ v, ¬ Issues C v ⟨s, e, s'⟩ := fun v hi => by
        have hcurr : s.kernelCurrAct = C := hi.caller
        rw [← hcurr, hR] at hs
        cases hs
      have hexp : s'.expected C = s.expected C := by
        rcases hst.issues hB hR hT C with ⟨he, -⟩ | ⟨u, hi, -⟩
        · exact he
        · exact absurd hi (hno u)
      refine ⟨⟨s, e, s'⟩ :: newer, call, older, D, msg, rfl, hc, fun x hx v => ?_, by rw [hexp, htok],
        (accepted_extends hgrows D).subset hacc, ?_⟩
      · rcases List.mem_cons.1 hx with rfl | hx
        · exact hno v
        · exact hn x hx v
      · rcases hend with hend | ⟨x, hx, ht⟩
        · by_cases hD : s'.status D = .terminated
          · exact .inr ⟨_, List.mem_cons_self, hst.ended hB hR hend hD⟩
          · exact .inl hD
        · exact .inr ⟨x, List.mem_cons_of_mem _ hx, ht⟩
    · obtain ⟨D, msg, hc⟩ := hst.carries hB hR hT hC hs
      refine ⟨[], _, tr, D, msg, rfl, hc, fun x hx => (List.not_mem_nil hx).elim, hc.token,
        hc.enqueued.subset (List.mem_append_right _ List.mem_cons_self), .inl ?_⟩
      have halive : s'.status D = .alive := hc.alive
      rw [halive]
      decide

/-- **Where the token of a blocked caller is**, along every run in which sealed capabilities of the kernel's types come
from the kernel and every `ccall` presents a `$c1` of one of these types: in the message of its last call, still in the
queue of the callee or loaded by it, and the callee is not terminated unless an `act_terminate` has named it since. -/
theorem caller_waits {tr : List OpenStep} (hr : OpenRun b tr s)
    (hU : ∀ newer st older, tr = newer ++ st :: older → Unforged b older st)
    (hT : ∀ st ∈ tr, st.ev.1.cause = .ccall → KernelType (st.ev.1.regs.cf .c1).otype)
    (hC : s.schedStatus C = .syncBlock) :
    ∃ newer call older D msg, tr = newer ++ call :: older ∧ Carries C D msg (entryOf call) ∧
      (∀ x ∈ newer, ∀ v, ¬ Issues C v (entryOf x)) ∧ msg.c1 = tokenCap C (s.expected C) ∧
      (msg ∈ s.pending D ∨ msg ∈ s.loaded D) ∧
      (s.status D ≠ .terminated ∨ ∃ x ∈ newer, Terminates b x.ev.1 x.pre D) := by
  obtain ⟨newer, call, older, D, msg, htr, hc, hn, htok, hmem, hend⟩ := (OpenRun.kernel hr hU hT).token_waits hC
  obtain ⟨newer, rest, rfl, rfl, hrest⟩ := List.map_eq_append_iff.1 htr
  obtain ⟨call, older, rfl, rfl, rfl⟩ := List.map_eq_cons_iff.1 hrest
  refine ⟨newer, call, older, D, msg, rfl, hc, fun x hx => hn _ (List.mem_map_of_mem hx), htok, hmem, ?_⟩
  refine hend.imp_right fun ⟨x, hx, ht⟩ => ?_
  obtain ⟨y, hy, rfl⟩ := List.mem_map.1 hx
  exact ⟨y, hy, ht⟩

/-- Init calls an activation, which has loaded the message. -/
theorem caller_waits_call : ∃ s : State, s.schedStatus 1 = .syncBlock ∧ ∃ D msg, msg.c1 = tokenCap 1 (s.expected 1) ∧
    (msg ∈ s.pending D ∨ msg ∈ s.loaded D) := by
  obtain ⟨tr, s, hr, hU, hev, hp⟩ := openScript_run (b := debugBuild)
    [(registerEntry, none), (callEntry debugBuild 4 1 2, none)] (fun s => s.schedStatus 1 == .syncBlock)
    (by decide +kernel)
  have hs : s.schedStatus 1 = .syncBlock := by simpa using hp
  have hT := typed_run (by decide +kernel) hev
  obtain ⟨-, -, -, D, msg, -, -, -, htok, hmem, -⟩ := caller_waits hr hU hT hs
  exact ⟨s, hs, D, msg, htok, hmem⟩

/-! ## A caller left behind -/

def Msg.caps (m : Msg) : List Cap := [m.c1, m.c3, m.c4, m.c5, m.idc]

/-- The capability is in the saved registers of an activation, or in a message that it has loaded or will load. -/
def State.inReach (s : State) (D : Aid) (cap : Cap) : Bool :=
  CapReg.all.any (fun r => (s.kernelExceptionFramep D).cf r == cap) ||
    (s.pending D ++ s.loaded D).any (fun m => m.caps.contains cap)

theorem inReach_of_msg {cap : Cap} {msg : Msg} (hc : msg.c1 = cap) (hm : msg ∈ s.pending D ∨ msg ∈ s.loaded D) :
    s.inReach D cap = true := by
  have hmem : msg ∈ s.pending D ++ s.loaded D := List.mem_append.2 hm
  have hcap : msg.caps.contains cap = true := by simp [Msg.caps, hc]
  rw [State.inReach, Bool.or_eq_true, List.any_eq_true (p := fun m : Msg => m.caps.contains cap)]
  exact .inr ⟨msg, hmem, hcap⟩

/-- **A callee that terminates itself** leaves init blocked, with its token in reach of nobody who is alive. -/
theorem caller_stranded : ∃ tr s, KernelRun debugBuild tr s ∧ s.schedStatus 1 = .syncBlock ∧
    (∀ D, s.status D ≠ .terminated → s.inReach D (tokenCap 1 (s.expected 1)) = false) ∧
    ¬ ∃ D msg, s.status D ≠ .terminated ∧ msg.c1 = tokenCap 1 (s.expected 1) ∧
      (msg ∈ s.pending D ∨ msg ∈ s.loaded D) := by
  obtain ⟨tr, s, hr, -, hp⟩ := scriptSat_run debugBuild
    [registerEntry, registerEntry, callEntry debugBuild 1 1 3, callEntry debugBuild 4 1 2, terminateEntry debugBuild 2]
    (fun s => s.schedStatus 1 == .syncBlock && (List.finRange maxActivations).all (fun D =>
      s.status D == .terminated || !s.inReach D (tokenCap 1 (s.expected 1)))) (by decide +kernel)
  obtain ⟨hs, hall⟩ := Bool.and_eq_true_iff.1 hp
  have hout : ∀ D, s.status D ≠ .terminated → s.inReach D (tokenCap 1 (s.expected 1)) = false := fun D hD => by
    have hD' := List.all_eq_true.1 hall D (List.mem_finRange D)
    simpa [hD] using hD'
  refine ⟨tr, s, hr, by simpa using hs, hout, ?_⟩
  rintro ⟨D, msg, hD, htok, hmem⟩
  have hin := inReach_of_msg htok hmem
  rw [hout D hD] at hin
  cases hin

end Kernel
end CheriOS
