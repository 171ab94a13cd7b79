import Mathlib.Data.Fintype.Card
import CheriOS.Kernel.Moves
/-!
# Token — the tokens of a run and the counters behind them

One counter numbers the synchronous calls of all activations, and each activation keeps the number of its last call.
A token shows 28 bits of its number; a caller whose number no longer fits is never answered again, so that at most one
call for each activation follows, and the counter never wraps.
-/
namespace CheriOS
namespace Kernel

open Relation (ReflTransGen)

variable {b : Build} {e : Entry} {c act C : Aid} {u : BitVec 32} {s s' m k : State}
  {tr newer older : List (Transition.Step State Entry)} {st call : Transition.Step State Entry}

/-! ## What an entry does to them -/

def State.expected (s : State) (a : Aid) : BitVec 32 := (s.kernelActs a).expectedReply

/-- Two states with the same counters and tokens. -/
structure SameTokens (s m : State) : Prop where
  expected : ∀ a, m.expected a = s.expected a
  unique : m.unique = s.unique
  issued : ∀ C u, .token C u ∈ m.hist ↔ .token C u ∈ s.hist

namespace SameTokens

theorem refl (s : State) : SameTokens s s := ⟨fun _ => rfl, rfl, fun _ _ => .rfl⟩

theorem trans (h : SameTokens s m) (h' : SameTokens m k) : SameTokens s k :=
  ⟨fun a => (h'.expected a).trans (h.expected a), h'.unique.trans h.unique,
    fun C u => (h'.issued C u).trans (h.issued C u)⟩

theorem quiet (h : Quiet c s m) : SameTokens s m := by
  obtain ⟨framep, child, im, timer, rfl, -⟩ := h
  exact ⟨fun _ => rfl, rfl, fun _ _ => .rfl⟩

theorem accept {dest : Aid} {msg : Msg} : SameTokens s (s.accept dest msg) where
  expected a := by simp [State.expected]
  unique := by simp
  issued C u := by
    rw [State.accept_hist]
    split <;> simp

theorem deactivate {st : SchedStatus} : SameTokens s (s.deactivate act st) :=
  ⟨fun a => by simp [State.expected], rfl, fun C u => by simp [State.deactivate]⟩

theorem answer : SameTokens s (s.answer act) :=
  ⟨fun a => by simp [State.expected], rfl, fun C u => by simp [State.answer, State.activate]⟩

theorem setSchedStatus {st : SchedStatus} : SameTokens s (s.setSchedStatus act st) :=
  ⟨fun a => by simp [State.expected], rfl, fun C u => by simp⟩

theorem setStatus {st : Status} : SameTokens s (s.setStatus act st) :=
  ⟨fun a => by simp [State.expected], rfl, fun C u => by simp⟩

theorem picked : SameTokens s s.picked :=
  ⟨fun a => by simp [State.expected], State.picked_unique s, fun C u => by simp⟩

theorem dispatch : SameTokens s (s.dispatch act) :=
  ⟨fun a => by simp [State.expected], rfl, fun C u => by simp⟩

theorem switchTo : SameTokens s (s.switchTo act) := ⟨fun _ => rfl, rfl, fun _ _ => .rfl⟩

theorem terminate : SameTokens s (s.terminate act) where
  expected a := by simp [State.expected]
  unique := by rw [State.terminate_eq]
  issued C u := by by_cases ht : s.SlotTest act <;> simp [State.terminate, ht]

theorem register {aid : Aid} {name : Nat → BitVec 8} {frame : RegFrame} {ref id : Cap} :
    SameTokens s (s.register aid name frame ref id) where
  expected a := by
    unfold State.expected
    rw [State.register_kernelActs]
    split
    · rename_i ha
      rw [ha]
    · rfl
  unique := rfl
  issued _ _ := .rfl

theorem issue (h : SameTokens s m) : SameTokens (s.issue c) (m.issue c) where
  expected a := by
    have ha := h.expected a
    unfold State.expected at ha ⊢
    rw [State.issue_kernelActs, State.issue_kernelActs, h.unique]
    dsimp only
    rw [ha]
  unique := by simp [State.issue, h.unique]
  issued C u := by simp [State.issue, h.unique, h.issued]

end SameTokens

theorem Routine.sameTokens (h : Routine b e c s m) : SameTokens s m := by
  cases h with
  | quiet hq => exact .quiet hq
  | accept dest src identifier token _ _ _ _ => exact .accept
  | block _ _ _ _ => exact .deactivate
  | yield _ _ => exact .setSchedStatus
  | pick => exact .picked
  | dispatch act _ => exact .dispatch
  | switchTo act _ => exact .switchTo

theorem sameTokens_path (h : ReflTransGen (Routine b e c) s m) : SameTokens s m :=
  Outcome.inv_path (fun _ _ hs hr => hs.trans hr.sameTokens) (.refl s) h

/-- A synchronous call issues one token, to the current activation, and blocks it. -/
structure Calls (e : Entry) (s k : State) : Prop where
  cause : e.cause = .ccall
  selector : e.regs.mf .v1 = 4
  issued : SameTokens (s.issue s.kernelCurrAct) k
  blocked : k.schedStatus s.kernelCurrAct = .syncBlock

theorem Calls.of_sent {s₀ : State} (hq : Quiet s.kernelCurrAct s s₀) (hs : Sent e s.kernelCurrAct s₀ m) :
    Calls e s (m.deactivate s.kernelCurrAct .syncBlock) := by
  cases hs with
  | mk dest identifier hc hv _ _ _ _ =>
    exact ⟨hc, hv, (((SameTokens.quiet hq).issue.trans .accept).trans .deactivate), by simp⟩

/-- **Only a synchronous call makes a token.** -/
theorem Opening.tokens (h : Opening b e s k) : SameTokens s k ∨ Calls e s k := by
  cases h with
  | quiet hq => exact .inl (.quiet hq)
  | call hq hs _ _ => exact .inr (.of_sent hq hs)
  | reply C u _ _ _ =>
    have hq : Quiet s.kernelCurrAct s (returning e s) := returning_quiet
    exact .inl ((SameTokens.quiet hq).trans .answer)
  | register hlt name frame ref id hq _ _ => exact .inl ((SameTokens.quiet hq).trans .register)
  | revoke act hq _ _ _ => exact .inl ((SameTokens.quiet hq).trans .setStatus)
  | terminate act hq _ _ _ => exact .inl ((SameTokens.quiet hq).trans .terminate)

/-! ## The counter never wraps -/

/-- The activations whose last number does not fit in the 28 bits of a token. -/
def high (s : State) : Finset Aid := Finset.univ.filter (fun C => 2 ^ 28 ≤ (s.expected C).toNat)

/-- **The counters and the tokens of a run.** -/
structure Tokens (s : State) : Prop where
  latest : ∀ C u, .token C u ∈ s.hist → u.toNat ≤ (s.expected C).toNat
  counted : ∀ C, (s.expected C).toNat ≤ s.unique.toNat
  lost : ∀ C, 2 ^ 28 ≤ (s.expected C).toNat → s.schedStatus C = .syncBlock ∨ s.schedStatus C = .terminated
  bounded : s.unique.toNat < 2 ^ 28 + (high s).card

namespace Tokens

theorem same (h : Tokens s) (ht : SameTokens s m)
    (hl : ∀ C, 2 ^ 28 ≤ (s.expected C).toNat → m.schedStatus C = .syncBlock ∨ m.schedStatus C = .terminated) :
    Tokens m where
  latest C u hC := by
    rw [ht.expected]
    exact h.latest C u ((ht.issued C u).1 hC)
  counted C := by
    rw [ht.expected, ht.unique]
    exact h.counted C
  lost C hC := hl C (by rwa [ht.expected] at hC)
  bounded := by
    have he : high m = high s := by
      unfold high
      simp only [ht.expected]
    rw [he, ht.unique]
    exact h.bounded

theorem high_le (s : State) : (high s).card ≤ 32 := by
  have := Finset.card_le_univ (high s)
  simpa using this

theorem toNat_succ (h : Tokens s) : (s.unique + 1).toNat = s.unique.toNat + 1 := by
  have hlt := h.bounded
  have hle := high_le s
  have hone : (1 : BitVec 32).toNat = 1 := rfl
  rw [BitVec.toNat_add, hone]
  exact Nat.mod_eq_of_lt (by omega)

theorem fits (h : Tokens s) (hr : s.schedStatus c = .runnable) : (s.expected c).toNat < 2 ^ 28 := by
  by_contra hn
  rcases h.lost c (Nat.le_of_not_lt hn) with hl | hl <;> rw [hr] at hl <;> cases hl

theorem issue_expected (s : State) (c a : Aid) :
    (s.issue c).expected a = if a = c then s.unique + 1 else s.expected a := by
  unfold State.expected
  rw [State.issue_kernelActs]

theorem issue (h : Tokens s) (hr : s.schedStatus c = .runnable) (ht : SameTokens (s.issue c) m)
    (hc : m.schedStatus c = .syncBlock)
    (hl : ∀ C, 2 ^ 28 ≤ (s.expected C).toNat → m.schedStatus C = .syncBlock ∨ m.schedStatus C = .terminated) :
    Tokens m := by
  have hsucc := h.toNat_succ
  have hfits := h.fits hr
  have hexp : ∀ a, m.expected a = if a = c then s.unique + 1 else s.expected a := fun a =>
    (ht.expected a).trans (issue_expected s c a)
  have huniq : m.unique = s.unique + 1 := ht.unique
  constructor
  case latest =>
    intro C u hC
    have hcase : (C = c ∧ u = s.unique + 1) ∨ .token C u ∈ s.hist := by
      simpa [State.issue] using (ht.issued C u).1 hC
    rw [hexp]
    rcases hcase with ⟨rfl, rfl⟩ | hold
    · rw [if_pos rfl]
    · have hle := h.latest C u hold
      have hle' := h.counted C
      split <;> omega
  case counted =>
    intro C
    have hle := h.counted C
    rw [hexp, huniq]
    split <;> omega
  case lost =>
    intro C hC
    by_cases hCc : C = c
    · exact .inl (hCc ▸ hc)
    · rw [hexp, if_neg hCc] at hC
      exact hl C hC
  case bounded =>
    rw [huniq, hsucc]
    have hb := h.bounded
    by_cases hbig : 2 ^ 28 ≤ (s.unique + 1).toNat
    · -- the caller's own number is the first of its numbers that does not fit
      have hins : high m = insert c (high s) := by
        ext a
        simp only [high, Finset.mem_filter, Finset.mem_univ, true_and, Finset.mem_insert, hexp]
        by_cases ha : a = c
        · simp only [ha, if_true, hbig, true_or]
        · simp only [ha, if_false, false_or]
      have hnot : c ∉ high s := by
        simp only [high, Finset.mem_filter, Finset.mem_univ, true_and, Nat.not_le]
        exact hfits
      rw [hins, Finset.card_insert_of_notMem hnot]
      omega
    · omega

/-- **Who is lost stays lost**: the check compares with numbers below `2 ^ 28` only. -/
theorem opening_lost (h : Tokens s) (hB : Base s) (hR : Runs s) (ho : Opening b e s k)
    (hC : 2 ^ 28 ≤ (s.expected C).toNat) : k.schedStatus C = .syncBlock ∨ k.schedStatus C = .terminated := by
  rcases ho.moved hB hR C with hm | ⟨-, -, hk⟩ | ⟨⟨u, hp⟩, -, -⟩ | ⟨-, hk⟩
  · rcases h.lost C hC with hl | hl <;> rw [hl] at hm
    · exact .inl hm.syncBlock
    · exact .inr hm.terminated
  · exact .inl hk
  · have hexp : (s.expected C).toNat = u.toNat % 2 ^ 28 := (replyExpected_iff C u).1 hp.expected
    omega
  · exact .inr hk

end Tokens

theorem tokens_kept : Kept b (fun _ _ => True) Tokens where
  boot s hs := by
    have hexp : ∀ a, s.expected a = 0 := hs.expected
    refine ⟨fun C u hC => by simp [hs.hist] at hC, fun C => by simp [hexp], fun C hC => ?_, ?_⟩
    · rw [hexp] at hC
      exact absurd hC (by decide)
    · rw [hs.unique]
      exact Nat.lt_of_lt_of_le (by decide) (Nat.le_add_right _ _)
  opening e s k hB hR h _ ho := by
    have hkeep := fun C => h.opening_lost hB hR ho (C := C)
    rcases ho.tokens with ht | hc
    · exact h.same ht hkeep
    · exact h.issue hR hc.issued hc.blocked hkeep
  routine e c s m hr h hm := by
    refine h.same hm.sameTokens (fun C hC => ?_)
    have hmv := hm.moved C
    rcases h.lost C hC with hl | hl <;> rw [hl] at hmv
    · exact .inl hmv.syncBlock
    · exact .inr hmv.terminated

/-! ## The check -/

/-- **The check accepts the token of the last call, if its number fits, and no other.** -/
theorem Tokens.replyExpected (h : Tokens s) (hu : .token C u ∈ s.hist) :
    replyExpected C (tokenOffset C u) s = true ↔ s.expected C = u ∧ u.toNat < 2 ^ 28 := by
  have hle := h.latest C u hu
  rw [replyExpected_iff, ← BitVec.toNat_inj]
  unfold State.expected at hle ⊢
  omega

/-! ## Steps -/

/-- **The step in which the kernel makes a token**: a synchronous call by the activation the token is for. -/
structure Issues (C : Aid) (u : BitVec 32) (st : Transition.Step State Entry) : Prop where
  caller : st.pre.kernelCurrAct = C
  cause : st.ev.cause = .ccall
  selector : st.ev.regs.mf .v1 = 4
  fresh : .token C u ∉ st.pre.hist
  issued : .token C u ∈ st.post.hist
  blocked : st.post.schedStatus C = .syncBlock

/-- **Only a synchronous call blocks**, and its caller only. -/
theorem Opening.blocks (h : Opening b e s k) (hB : Base s) (hs : s.schedStatus C ≠ .syncBlock)
    (hk : k.schedStatus C = .syncBlock) : C = s.kernelCurrAct ∧ ∃ s₀ m, Quiet s.kernelCurrAct s s₀ ∧
      Sent e s.kernelCurrAct s₀ m ∧ k = m.deactivate s.kernelCurrAct .syncBlock := by
  cases h with
  | quiet hq => exact absurd ((hq.schedStatus C).symm.trans hk) hs
  | @call s₀ m hq hsent _ _ =>
    have hm : m.schedStatus C ≠ .syncBlock := fun hm =>
      hs ((hq.schedStatus C).symm.trans (hm ▸ hsent.moved C).to_syncBlock)
    rw [State.deactivate_schedStatus] at hk
    split at hk
    · rename_i hC
      exact ⟨hC, s₀, m, hq, hsent, rfl⟩
    · exact absurd hk hm
  | reply A u _ _ _ =>
    rw [State.answer_schedStatus] at hk
    split at hk
    · cases hk
    · exact absurd hk hs
  | register hlt name frame ref id hq _ _ =>
    have hB₀ := ((Ready.of_base hB).quiet hq).base
    exact absurd ((hB₀.register_schedStatus hlt C).trans (hq.schedStatus C) ▸ hk) hs
  | revoke act hq _ _ _ => exact absurd ((hq.schedStatus C) ▸ (State.setStatus_schedStatus _ _ _ _) ▸ hk) hs
  | terminate act hq _ _ _ =>
    rw [State.terminate_schedStatus] at hk
    split at hk
    · cases hk
    · exact absurd ((hq.schedStatus C).symm.trans hk) hs

theorem Mid.tokens (h : Mid b e s m) : SameTokens s m ∨ Calls e s m := by
  obtain ⟨k, ho, hp⟩ := h
  have hkm := sameTokens_path hp
  rcases ho.tokens with ht | hc
  · exact .inl (ht.trans hkm)
  · refine .inr ⟨hc.cause, hc.selector, hc.issued.trans hkm, ?_⟩
    exact Outcome.inv_path (I := fun m => m.schedStatus s.kernelCurrAct = .syncBlock)
      (fun _ _ hs hr => Moved.syncBlock (hs ▸ hr.moved s.kernelCurrAct)) hc.blocked hp

theorem Calls.issues (h : Calls e s s') (hT : Tokens s) :
    Issues s.kernelCurrAct (s.unique + 1) ⟨s, e, s'⟩ := by
  refine ⟨rfl, h.cause, h.selector, fun hin => ?_, ?_, h.blocked⟩
  · have hle := hT.latest _ _ hin
    have hle' := hT.counted s.kernelCurrAct
    rw [hT.toNat_succ] at hle
    omega
  · rw [h.issued.issued]
    simp [State.issue]

theorem kernelStep.issues (h : kernelStep b s e s') (hB : Base s) (hR : Runs s) (hT : Tokens s) (C : Aid) :
    (s'.expected C = s.expected C ∧ ∀ u, .token C u ∈ s'.hist ↔ .token C u ∈ s.hist) ∨
    ∃ u, Issues C u ⟨s, e, s'⟩ ∧ s'.expected C = u ∧ ∀ v, .token C v ∈ s'.hist ↔ v = u ∨ .token C v ∈ s.hist := by
  rcases (h.mid hB hR).1.tokens with ht | hc
  · exact .inl ⟨ht.expected C, ht.issued C⟩
  have hhist : ∀ v, .token C v ∈ s'.hist ↔ (C = s.kernelCurrAct ∧ v = s.unique + 1) ∨ .token C v ∈ s.hist := fun v => by
    rw [hc.issued.issued]
    simp [State.issue]
  by_cases hC : C = s.kernelCurrAct
  · right
    refine ⟨s.unique + 1, hC ▸ hc.issues hT, ?_, fun v => ?_⟩
    · rw [hc.issued.expected, Tokens.issue_expected, if_pos hC]
    · rw [hhist]
      simp [hC]
  · left
    refine ⟨?_, fun v => ?_⟩
    · rw [hc.issued.expected, Tokens.issue_expected, if_neg hC]
    · rw [hhist]
      simp [hC]

/-! ## Runs -/

theorem KernelRun.tokens (h : KernelRun b tr s) : Tokens s := tokens_kept.run_all h

/-- **Every token of a run was made in one of its steps.** -/
theorem KernelRun.issued (h : KernelRun b tr s) (hu : .token C u ∈ s.hist) :
    ∃ newer call older, tr = newer ++ call :: older ∧ Issues C u call := by
  induction h with
  | nil hboot =>
    obtain ⟨bi, hbi⟩ := hboot
    simp [(cheriosMain_booted hbi).hist] at hu
  | @cons tr s s' e hr hst ih =>
    obtain ⟨hB, hR⟩ := KernelRun.base hr
    have hold : .token C u ∈ s.hist → ∃ newer call older, ⟨s, e, s'⟩ :: tr = newer ++ call :: older ∧ Issues C u call :=
      fun hin => by
        obtain ⟨newer, call, older, rfl, hi⟩ := ih hin
        exact ⟨⟨s, e, s'⟩ :: newer, call, older, rfl, hi⟩
    rcases hst.issues hB hR (KernelRun.tokens hr) C with ⟨-, hiff⟩ | ⟨v, hi, -, hiff⟩
    · exact hold ((hiff u).1 hu)
    · rcases (hiff u).1 hu with rfl | hin
      · exact ⟨[], _, tr, rfl, hi⟩
      · exact hold hin

theorem KernelRun.token_stays (h : KernelRun b (newer ++ st :: older) s) (hu : .token C u ∈ st.post.hist) :
    .token C u ∈ s.hist := by
  induction newer generalizing s with
  | nil => exact Transition.Run.post_eq h ▸ hu
  | cons x newer ih =>
    cases h with
    | cons hr hst =>
      have hin := ih hr
      obtain ⟨hB, hR⟩ := KernelRun.base hr
      rcases hst.issues hB hR (KernelRun.tokens hr) C with ⟨-, hiff⟩ | ⟨v, -, -, hiff⟩
      · exact (hiff u).2 hin
      · exact (hiff u).2 (.inr hin)

/-- **The number an activation expects is that of its last call.** -/
theorem KernelRun.expected_of_last (h : KernelRun b (newer ++ call :: older) s) (hi : Issues C u call)
    (hn : ∀ st ∈ newer, ∀ v, ¬ Issues C v st) : s.expected C = u := by
  induction newer generalizing s with
  | nil =>
    cases h with
    | cons hr hst =>
      obtain ⟨hB, hR⟩ := KernelRun.base hr
      rcases hst.issues hB hR (KernelRun.tokens hr) C with ⟨-, hiff⟩ | ⟨v, -, hexp, hiff⟩
      · exact absurd ((hiff u).1 hi.issued) hi.fresh
      · rcases (hiff u).1 hi.issued with rfl | hin
        · exact hexp
        · exact absurd hin hi.fresh
  | cons x newer ih =>
    cases h with
    | cons hr hst =>
      obtain ⟨hB, hR⟩ := KernelRun.base hr
      rcases hst.issues hB hR (KernelRun.tokens hr) C with ⟨hexp, -⟩ | ⟨v, hv, -, -⟩
      · rw [hexp]
        exact ih hr (fun st hst => hn st (List.mem_cons_of_mem _ hst))
      · exact absurd hv (hn _ List.mem_cons_self v)

theorem KernelRun.last_of_expected (h : KernelRun b (newer ++ call :: older) s) (hi : Issues C u call)
    (he : s.expected C = u) : ∀ st ∈ newer, ∀ v, ¬ Issues C v st := by
  intro st hst v hv
  obtain ⟨newest, between, rfl⟩ := List.append_of_mem hst
  rw [List.append_assoc, List.cons_append] at h
  obtain ⟨hpre, -, hpost⟩ := h.cut
  have hcall : .token C u ∈ st.pre.hist := KernelRun.token_stays hpre hi.issued
  have huv : u.toNat ≤ v.toNat := by
    have hfirst : KernelRun b ([] ++ st :: (between ++ call :: older)) st.post := hpost
    have hsince : KernelRun b ((st :: between) ++ call :: older) st.post := hpost
    rw [← KernelRun.expected_of_last hfirst hv (by simp)]
    exact (KernelRun.tokens hpost).latest C u (KernelRun.token_stays hsince hi.issued)
  have hvu : v.toNat ≤ u.toNat := by
    rw [← he]
    exact (KernelRun.tokens h).latest C v (KernelRun.token_stays h hv.issued)
  exact hv.fresh (BitVec.eq_of_toNat_eq (Nat.le_antisymm huv hvu) ▸ hcall)

end Kernel
end CheriOS
