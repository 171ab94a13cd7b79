import CheriOS.Kernel.Plain
/-!
# Frames — the saved registers of the others

An entry writes the frame of the activation that trapped and, besides the kernel's own, the frames of those it wakes
with a message, answers or registers.
-/
namespace CheriOS
namespace Kernel

open Outcome
open Relation (ReflTransGen)

variable {b : Build} {e : Entry} {c act : Aid} {s s' m k : State} {mem : UserMem}
  {tr : List (Transition.Step State Entry)}

/-! ## Frames -/

/-- **What an entry does to the frame of another activation.**  The frame stays as it is, and then the entry has neither
woken nor answered that activation; or the oldest of its messages is loaded, which an entry that wakes it from
`sched_waiting` has just stored; or it gets a reply; or it is the slot that `act_register` fills. -/
inductive FrameEnd (b : Build) (e : Entry) (s s' : State) (B : Aid) : Prop where
  | unchanged : s'.kernelExceptionFramep B = s.kernelExceptionFramep B →
      (s'.schedStatus B = .runnable → s.schedStatus B = .runnable) → (∀ u, ¬ Presents e s B u) → FrameEnd b e s s' B
  | loaded (msg : Msg) (new : List Msg) : s.schedStatus B = .schedulable ∨ s.schedStatus B = .waiting →
      s'.schedStatus B = .runnable → s'.accepted B = s.accepted B ++ new → s.pending B ++ new = msg :: s'.pending B →
      Holds (s.kernelExceptionFramep B) (s'.kernelExceptionFramep B) msg → FrameEnd b e s s' B
  | answered (u : BitVec 32) : Presents e s B u → (b.lite = false → s.schedStatus B = .syncBlock) →
      s'.schedStatus B = .runnable → Replied e.regs (s.kernelExceptionFramep B) (s'.kernelExceptionFramep B) →
      FrameEnd b e s s' B
  | registered (mem : UserMem) : Registers e mem → B.val = s.kernelNextAct →
      mem.frame = some (s'.kernelExceptionFramep B) → FrameEnd b e s s' B

/-- **What an entry that does not answer `B` has done to it so far**: nothing but messages added and a waiting `B` made
schedulable, or a message loaded. -/
inductive Tracked (s m : State) (B : Aid) : Prop where
  | unchanged (new : List Msg) : m.kernelExceptionFramep B = s.kernelExceptionFramep B →
      m.accepted B = s.accepted B ++ new → m.pending B = s.pending B ++ new →
      m.schedStatus B = s.schedStatus B ∨ (s.schedStatus B = .waiting ∧ m.schedStatus B = .schedulable) ∨
        m.schedStatus B = .terminated → Tracked s m B
  | loaded (msg : Msg) (new : List Msg) : s.schedStatus B = .schedulable ∨ s.schedStatus B = .waiting →
      m.schedStatus B = .runnable → m.accepted B = s.accepted B ++ new → s.pending B ++ new = msg :: m.pending B →
      Holds (s.kernelExceptionFramep B) (m.kernelExceptionFramep B) msg → Tracked s m B

section Tracking

variable {B : Aid}

theorem Tracked.same (h : Tracked s m B) (hf : k.kernelExceptionFramep B = m.kernelExceptionFramep B)
    (ha : k.accepted B = m.accepted B) (hp : k.pending B = m.pending B) (hs : k.schedStatus B = m.schedStatus B) :
    Tracked s k B := by
  cases h with
  | unchanged new h₁ h₂ h₃ h₄ => exact .unchanged new (hf.trans h₁) (ha.trans h₂) (hp.trans h₃) (by rwa [hs])
  | loaded msg new h₁ h₂ h₃ h₄ h₅ =>
    exact .loaded msg new h₁ (hs.trans h₂) (ha.trans h₃) (by rw [hp, h₄]) (by rw [hf]; exact h₅)

theorem Tracked.refl : Tracked s s B := .unchanged [] rfl (List.append_nil _).symm (List.append_nil _).symm (.inl rfl)

theorem Tracked.quiet (h : Tracked s m B) (hq : Quiet c m k) (hc : B ≠ c) (h0 : B ≠ 0) : Tracked s k B := by
  obtain ⟨framep, child, im, timer, rfl, hf, -⟩ := hq
  exact h.same (hf B hc h0) rfl rfl rfl

theorem Tracked.accept (h : Tracked s m B) (hM : Base m) {dest : Aid} {msg : Msg} (hd : m.Registered dest)
    (hroom : (m.pending dest).length < maxMsg - 1) : Tracked s (m.accept dest msg) B := by
  have hpend := State.accept_pending (x := B) (m := msg) (hM.mask_eq dest hd) (hM.ring_wf dest) hroom
  by_cases hB : B = dest
  · subst hB
    rw [if_pos rfl] at hpend
    have hacc : (m.accept B msg).accepted B = m.accepted B ++ [msg] := by rw [accept_accepted, if_pos rfl]
    cases h with
    | unchanged new h₁ h₂ h₃ h₄ =>
      refine .unchanged (new ++ [msg]) ?_ (by rw [hacc, h₂, List.append_assoc]) (by rw [hpend, h₃, List.append_assoc]) ?_
      · rw [State.accept_framep, h₁]
      · rw [State.accept_schedStatus]
        split
        · rename_i hw
          rcases h₄ with h₄ | h₄ | h₄
          · exact .inr (.inl ⟨h₄ ▸ hw.2, rfl⟩)
          · exact .inr (.inl ⟨h₄.1, rfl⟩)
          · rw [h₄] at hw
            cases hw.2
        · exact h₄
    | loaded msg' new h₁ h₂ h₃ h₄ h₅ =>
      refine .loaded msg' (new ++ [msg]) h₁ ?_ (by rw [hacc, h₃, List.append_assoc])
        (by rw [hpend, ← List.append_assoc, h₄]; rfl) ?_
      · rw [State.accept_schedStatus, if_neg, h₂]
        rintro ⟨-, hw⟩
        rw [h₂] at hw
        cases hw
      · rw [State.accept_framep]
        exact h₅
  · rw [if_neg hB] at hpend
    refine h.same (by rw [State.accept_framep]) ?_ hpend ?_
    · rw [accept_accepted, if_neg hB]
    · rw [State.accept_schedStatus, if_neg (fun hx => hB hx.1)]

/-- **One routine update.** -/
theorem Tracked.routine (h : Tracked s m B) (hr : Ready c m) (hc : B ≠ c) (h0 : B ≠ 0) (hm : Routine b e c m k) :
    Tracked s k B := by
  cases hm with
  | quiet hq => exact h.quiet hq hc h0
  | accept dest src identifier token hd hroom _ _ => exact h.accept hr.base hd hroom
  | block _ _ _ _ =>
    exact h.same rfl (deactivate_accepted B) rfl (by rw [State.deactivate_schedStatus, if_neg hc])
  | yield _ _ => exact h.same rfl rfl rfl (by rw [State.setSchedStatus_schedStatus, if_neg hc])
  | pick =>
    exact h.same (by rw [State.picked_framep]) (picked_accepted B) (State.pending_congr (by simp))
      (State.picked_schedStatus m B)
  | dispatch act ha =>
    by_cases hB : B = act
    · subst hB
      have hload := hr.base.dispatch_loads ha
      cases h with
      | unchanged new h₁ h₂ h₃ h₄ =>
        refine .loaded ((m.msgQueues B).msg (m.msgQueues B).start) new ?_ (by simp)
          (by rw [dispatch_accepted, h₂]) (by rw [← h₃]; exact hload.1) (by rw [← h₁]; exact hload.2)
        rcases h₄ with h₄ | h₄ | h₄
        · exact .inl (h₄ ▸ ha)
        · exact .inr h₄.1
        · rw [h₄] at ha
          cases ha
      | loaded msg new _ hrun _ _ _ =>
        rw [hrun] at ha
        cases ha
    · refine h.same ?_ (dispatch_accepted B) (State.dispatch_pending_ne hB) ?_
      · simp [State.dispatch, State.load, hB]
      · rw [State.dispatch_schedStatus, if_neg hB]
  | switchTo act _ => exact h.same rfl rfl rfl rfl

/-- **An opening** that neither answers `B` nor fills its slot. -/
theorem Tracked.opening (hB : Base s) (ho : Opening b e s k) (hc : B ≠ s.kernelCurrAct) (h0 : B ≠ 0)
    (hp : ∀ u, ¬ Presents e s B u) (hslot : B.val = s.kernelNextAct → k.kernelNextAct = s.kernelNextAct) :
    Tracked s k B := by
  have hr := Ready.of_base hB
  cases ho with
  | quiet hq => exact Tracked.refl.quiet hq hc h0
  | @call s₀ m hq hs _ _ =>
    cases hs with
    | mk dest identifier _ _ hd _ hroom _ =>
      have hr₀ := hr.quiet hq
      have hI : Base (s₀.issue s.kernelCurrAct) := hr₀.base.issue hB.curr_ne hr₀.reg
      have hi : Tracked s (s₀.issue s.kernelCurrAct) B :=
        (Tracked.refl.quiet hq hc h0).same rfl (issue_accepted B) rfl (State.issue_schedStatus _ _ _)
      refine (hi.accept hI hd hroom).same rfl (deactivate_accepted B) rfl ?_
      rw [State.deactivate_schedStatus, if_neg hc]
  | reply C u hpr _ _ =>
    have hne : B ≠ C := by
      rintro rfl
      exact hp u hpr
    have hq : Tracked s (returning e s) B := Tracked.refl.quiet returning_quiet hc h0
    refine hq.same ?_ (answer_accepted B) rfl ?_
    · simp [State.answer, State.activate, hne]
    · rw [State.answer_schedStatus, if_neg hne]
  | @register s₀ hlt name frame ref id hq _ _ =>
    have hnext := hq.next
    have hne : B ≠ ⟨_, hlt⟩ := by
      intro he
      have hsl : s₀.kernelNextAct + 1 = s.kernelNextAct := hslot (by rw [he, ← hnext])
      omega
    have hq' : Tracked s s₀ B := Tracked.refl.quiet hq hc h0
    have hB₀ := (hr.quiet hq).base
    refine hq'.same ?_ rfl ?_ (hB₀.register_schedStatus hlt B)
    · simp [State.register, hne]
    · rw [State.register_pending, if_neg hne]
  | @revoke s₀ act hq _ _ _ =>
    have hq' : Tracked s s₀ B := Tracked.refl.quiet hq hc h0
    exact hq'.same rfl rfl rfl (State.setStatus_schedStatus _ _ _ _)
  | @terminate s₀ act hq _ _ _ =>
    have hq' : Tracked s s₀ B := Tracked.refl.quiet hq hc h0
    have hframe : (s₀.terminate act).kernelExceptionFramep = s₀.kernelExceptionFramep := by rw [State.terminate_eq]
    have hpend : (s₀.terminate act).pending B = s₀.pending B := State.pending_congr (by rw [State.terminate_eq])
    by_cases hBa : B = act
    · cases hq' with
      | unchanged new h₁ h₂ h₃ h₄ =>
        refine .unchanged new (by rw [hframe, h₁]) ((terminate_accepted B).trans h₂) (hpend.trans h₃) (.inr (.inr ?_))
        rw [State.terminate_schedStatus, if_pos hBa]
      | loaded msg new h₁ h₂ h₃ h₄ h₅ =>
        -- nothing has been loaded before the opening
        have hs := hq.schedStatus B
        rw [h₂] at hs
        rcases h₁ with h₁ | h₁ <;> rw [h₁] at hs <;> cases hs
    · refine hq'.same (by rw [hframe]) (terminate_accepted B) hpend ?_
      rw [State.terminate_schedStatus, if_neg hBa]

end Tracking

/-- **The frame of another activation**, at the end of an entry. -/
theorem kernelStep.frameEnd (h : kernelStep b s e s') (hB : Base s) (hR : Runs s) {B : Aid} (hc : B ≠ s.kernelCurrAct)
    (h0 : B ≠ 0) : FrameEnd b e s s' B := by
  by_cases hp : ∃ u, Presents e s B u
  · obtain ⟨u, hp⟩ := hp
    obtain ⟨-, hblocked, -⟩ := h.returns hB hR hp.cause hp.issued hp.token
    obtain ⟨hrun, hreply⟩ := hp.replied h hB hR hc
    exact .answered u hp hblocked hrun hreply
  have hp' : ∀ u, ¬ Presents e s B u := fun u hu => hp ⟨u, hu⟩
  by_cases hreg : (∃ mem, Registers e mem) ∧ B.val = s.kernelNextAct
  · obtain ⟨⟨mem, hm⟩, hslot⟩ := hreg
    obtain ⟨hlt, name, frame, ref, id, ctrl, hframe, -, rfl⟩ := kernelEntry_register hB h.2 hm
    have hne : (⟨s.kernelNextAct, hlt⟩ : Aid) ≠ s.kernelCurrAct := fun he => hc (by rw [← he]; exact Fin.ext hslot)
    refine .registered mem hm hslot ?_
    obtain rfl : B = ⟨s.kernelNextAct, hlt⟩ := Fin.ext hslot
    have hptr : (saved e s).kernelExceptionFramepPtr = s.kernelCurrAct := hB.ptr_eq
    simp [kernelSkipInstr, setC3, State.modifyFrame, hptr, hne, State.register, hframe]
  -- the others are tracked along the path of the entry
  obtain ⟨k, ho, hpath⟩ := (h.mid hB hR).1
  have hnext : ∀ k', ReflTransGen (Routine b e s.kernelCurrAct) k k' → k'.kernelNextAct = k.kernelNextAct := fun k' hk =>
    inv_path (I := fun m => m.kernelNextAct = k.kernelNextAct) (fun _ _ hm hst => hst.next.trans hm) rfl hk
  have hslot : B.val = s.kernelNextAct → k.kernelNextAct = s.kernelNextAct := fun hsl => by
    have hpts := kernelEntry_points hB h.2 (fun mem hm => hreg ⟨⟨mem, hm⟩, hsl⟩)
    rw [← hnext s' hpath]
    exact congrArg (fun p => p.2.1) hpts
  have htrack : Ready s.kernelCurrAct s' ∧ Tracked s s' B := by
    refine inv_path (I := fun m => Ready s.kernelCurrAct m ∧ Tracked s m B) ?_ ?_ hpath
    · rintro m m' ⟨hr, ht⟩ hst
      exact ⟨hr.routine hst, ht.routine hr hc h0 hst⟩
    · exact ⟨ho.ready hB, .opening hB ho hc h0 hp' hslot⟩
  cases htrack.2 with
  | unchanged new h₁ _ _ h₄ =>
    refine .unchanged h₁ (fun hrun => ?_) hp'
    rcases h₄ with h₄ | h₄ | h₄
    · rw [← h₄, hrun]
    · rw [h₄.2] at hrun
      cases hrun
    · rw [h₄] at hrun
      cases hrun
  | loaded msg new h₁ h₂ h₃ h₄ h₅ => exact .loaded msg new h₁ h₂ h₃ h₄ h₅

/-- **Saved register frames are isolated.**  For every step of every run, made by an activation `A`: the frame of
another activation stays as it is, but for the one message loaded, the reply to its call, or its registration;
`A` goes on past its `ccall`, `creturn` or system call, also where it is switched away from or terminated; and no other
program counter moves, but for the slot that `act_register` fills. -/
theorem frames_isolated (hr : KernelRun b tr s) (h : kernelStep b s e s') :
    (∀ B, B ≠ s.kernelCurrAct → B ≠ 0 → FrameEnd b e s s' B) ∧ s'.points.1 s.kernelCurrAct = resumed e ∧
      ∀ B, B ≠ s.kernelCurrAct → (∃ mem, Registers e mem) ∧ B.val = s.kernelNextAct ∨ s'.points.1 B = s.points.1 B := by
  obtain ⟨hB, hR⟩ := KernelRun.base hr
  refine ⟨fun B hc h0 => h.frameEnd hB hR hc h0, ?_⟩
  by_cases hreg : ∃ mem, Registers e mem
  · obtain ⟨mem, hm⟩ := hreg
    obtain ⟨hlt, name, frame, ref, id, ctrl, -, -, rfl⟩ := kernelEntry_register hB h.2 hm
    have hne : s.kernelCurrAct ≠ ⟨s.kernelNextAct, hlt⟩ := fun he => by
      have hreg := hB.curr_reg
      rw [he] at hreg
      exact Nat.lt_irrefl _ hreg
    have hadv : e.cause.advance = 4 := by rw [hm.1]; rfl
    set k := (saved e s).register ⟨s.kernelNextAct, hlt⟩ name frame ref id with hk
    have hkept : ∀ B, B ≠ ⟨s.kernelNextAct, hlt⟩ → k.points.1 B =
        Function.update s.points.1 s.kernelCurrAct (e.regs.mf .pc, e.regs.cf .pcc) B := fun B hB => by
      have hsaved : (saved e s).points.1 B =
          Function.update s.points.1 s.kernelCurrAct (e.regs.mf .pc, e.regs.cf .pcc) B :=
        congrArg (fun p => p.1 B) saved_points
      rw [← hsaved]
      simp [hk, State.points, State.register, hB]
    rw [skip_points, setC3_points]
    dsimp only
    refine ⟨?_, fun B hc => ?_⟩
    · rw [Function.update_self, hkept _ hne, resumed, hadv, Function.update_self]
    · by_cases hBs : B = ⟨s.kernelNextAct, hlt⟩
      · exact .inl ⟨⟨mem, hm⟩, by rw [hBs]⟩
      · refine .inr ?_
        rw [Function.update_of_ne hc, hkept B hBs, Function.update_of_ne hc]
  · have hpts := kernelEntry_points hB h.2 (fun mem hm => hreg ⟨mem, hm⟩)
    rw [hpts]
    exact ⟨Function.update_self .., fun B hc => .inr (Function.update_of_ne hc ..)⟩

/-- Init calls an activation, which gets the message and the processor. -/
theorem frames_isolated_call : ∃ s s', kernelStep debugBuild s (callEntry debugBuild 4 7 2) s' ∧
    s.kernelCurrAct = 1 ∧ s'.kernelCurrAct = 2 ∧ FrameEnd debugBuild (callEntry debugBuild 4 7 2) s s' 2 ∧
    s'.points.1 1 = resumed (callEntry debugBuild 4 7 2) := by
  obtain ⟨tr, s, hr, -, hp⟩ := scriptSat_run debugBuild [registerEntry]
    (fun s => s.kernelCurrAct == 1 &&
      (checkedEntry debugBuild s (callEntry debugBuild 4 7 2)).any (fun s' => s'.kernelCurrAct == 2))
    (by decide +kernel)
  obtain ⟨hc, hs'⟩ := Bool.and_eq_true_iff.1 hp
  rw [beq_iff_eq] at hc
  obtain ⟨s', hs', hc'⟩ := (Option.any_eq_true _ _).1 hs'
  have hstep := checkedEntry_step hs'
  have hiso := frames_isolated hr hstep
  rw [hc] at hiso
  exact ⟨s, s', hstep, hc, by simpa using hc', hiso.1 2 (by decide) (by decide), hiso.2.1⟩

end Kernel
end CheriOS
