import CheriOS.Kernel.Routine
/-!
# Opening — how a kernel entry opens

An entry saves the registers and opens with the one update its cause asks for (`Opening`); what follows is routine.
The sealed capabilities an entry unseals are the kernel's own (`Unseals`), so that what it finds behind them is an
activation it has registered or a token it has issued.
-/
namespace CheriOS
namespace Kernel

open Outcome
open Relation (ReflTransGen)

variable {b : Build} {e : Entry} {c act dest src : Aid} {s m : State}

/-! ## References -/

theorem actPtr_inj {a a' : Aid} (h : actPtr b a = actPtr b a') : a = a' := by
  have hfits := b.fits
  have hsize : 0 < sizeofAct b.lite := by unfold sizeofAct; split <;> decide
  have hle : ∀ x : Aid, sizeofAct b.lite * x.val < sizeofAct b.lite * maxActivations :=
    fun x => Nat.mul_lt_mul_of_pos_left x.isLt hsize
  have hval : ∀ x : Aid, (actPtr b x).toNat = b.kernelActs.toNat + sizeofAct b.lite * x.val := fun x => by
    have := hle x
    unfold actPtr
    rw [BitVec.toNat_add, BitVec.toNat_ofNat, Nat.mod_eq_of_lt (a := sizeofAct b.lite * x.val) (by omega),
      Nat.mod_eq_of_lt (by omega)]
  have hn := congrArg BitVec.toNat h
  rw [hval, hval] at hn
  exact Fin.ext (Nat.eq_of_mul_eq_mul_left hsize (Nat.add_left_cancel hn))

theorem actAt_actPtr (a : Aid) : actAt b (actPtr b a) = some a := by
  unfold actAt
  cases hf : (List.finRange maxActivations).find? (fun aid => actPtr b aid == actPtr b a) with
  | none =>
    have := List.find?_eq_none.1 hf a (List.mem_finRange a)
    simp at this
  | some x =>
    have := List.find?_some hf
    have he : x = a := actPtr_inj (b := b) (by simpa using this)
    rw [he]

theorem actCreateCtrlRef_unseal {ctrl : Cap} {a : Aid} (h : actCreateCtrlRef b a = .ok ctrl) :
    kernelUnseal ctrl otypeCtrl = .ok (Cap.ddc.setOffset (actPtr b a)) := by
  simp only [actCreateCtrlRef, kernelSeal, Cap.withSeal, Cap.setOffset, Cap.ddc, Bool.not_false, Bool.and_self,
    if_true, Except.ok.injEq] at h
  subst h
  rfl

theorem actCreateRef_unseal {ref : Cap} {a : Aid} (h : actCreateRef b a = .ok ref) :
    kernelUnseal ref ref.otype = .ok (kernelCapToExec (Cap.ddc.setOffset (actPtr b a))) := by
  simp only [actCreateRef, kernelSeal, kernelCapToExec, Cap.withSeal, Cap.setOffset, Cap.incOffset, Cap.ddc, Cap.pcc,
    Bool.not_false, Bool.and_self, if_true, Except.ok.injEq] at h
  subst h
  simp [kernelUnseal, Cap.withoutSeal, kernelCapToExec, Cap.setOffset, Cap.incOffset, Cap.pcc, Cap.ddc]

theorem derefAct_ctrl (a : Aid) : derefAct b (Cap.ddc.setOffset (actPtr b a)) = .ok a := by
  have haddr : (Cap.ddc.setOffset (actPtr b a)).addr = actPtr b a := by
    simp [Cap.addr, Cap.setOffset, Cap.ddc]
  unfold derefAct
  rw [haddr, actAt_actPtr]

theorem derefAct_ref (a : Aid) : derefAct b (kernelCapToExec (Cap.ddc.setOffset (actPtr b a))) = .ok a := by
  have haddr : (kernelCapToExec (Cap.ddc.setOffset (actPtr b a))).addr = actPtr b a := by
    simp [kernelCapToExec, Cap.addr, Cap.setOffset, Cap.incOffset, Cap.ddc, Cap.pcc]
  unfold derefAct
  rw [haddr, actAt_actPtr]

/-! ## Tokens -/

/-- The token of a call, as `get_sync_token` makes it. -/
def tokenCap (C : Aid) (unique : BitVec 32) : Cap :=
  ⟨true, true, otypeSyncToken, 0, 0, 0xffffffffffffffff, tokenOffset C unique⟩

theorem syncTokenCap_eq (C : Aid) (unique : BitVec 32) : syncTokenCap C unique = .ok (tokenCap C unique) := by
  simp [syncTokenCap, Cap.andPerm, Cap.ddc, kernelSeal, Cap.withSeal, Cap.setOffset, tokenCap]

theorem getSyncToken_eq : getSyncToken c s = .ok (tokenCap c (s.unique + 1), s.issue c) := by
  unfold getSyncToken
  simp only [syncTokenCap_eq, ok_bind]
  rfl

theorem tokenCap_unseal (C : Aid) (unique : BitVec 32) : ∃ cap, kernelUnseal (tokenCap C unique) otypeSyncToken = .ok cap ∧
    cap.offset = tokenOffset C unique := by
  refine ⟨_, rfl, rfl⟩

theorem tokenCap_not_null (C : Aid) (unique : BitVec 32) : (tokenCap C unique).isNull = false := rfl

theorem toNat_tokenOffset (C : Aid) (unique : BitVec 32) :
    (tokenOffset C unique).toNat = C.val * 2 ^ 32 + unique.toNat := by
  have hC : C.val < 32 := C.isLt
  have hu := unique.isLt
  unfold tokenOffset
  rw [BitVec.toNat_add, BitVec.toNat_shiftLeft, BitVec.toNat_ofNat, BitVec.toNat_setWidth, Nat.shiftLeft_eq,
    Nat.mod_eq_of_lt (a := C.val) (by omega), Nat.mod_eq_of_lt (a := C.val * 2 ^ 32) (by omega),
    Nat.mod_eq_of_lt (a := unique.toNat) (by omega), Nat.mod_eq_of_lt (by omega)]

theorem tokenCap_inj {C C' : Aid} {u u' : BitVec 32} (h : tokenCap C u = tokenCap C' u') : C = C' ∧ u = u' := by
  have hoff : tokenOffset C u = tokenOffset C' u' := congrArg Cap.offset h
  have hn := congrArg BitVec.toNat hoff
  rw [toNat_tokenOffset, toNat_tokenOffset] at hn
  have hu := u.isLt
  have hu' := u'.isLt
  exact ⟨Fin.ext (by omega), BitVec.eq_of_toNat_eq (by omega)⟩

/-- **Decoding the caller of a token undoes its encoding.** -/
theorem tokenCaller_tokenOffset (C : Aid) (unique : BitVec 32) :
    (tokenCaller (tokenOffset C unique)).toNat = C.val := by
  have hC : C.val < 32 := C.isLt
  have hu := unique.isLt
  unfold tokenCaller
  rw [BitVec.toNat_setWidth, BitVec.toNat_ushiftRight, toNat_tokenOffset, Nat.shiftRight_eq_div_pow]
  omega

/-- What a token carries of the counter: its low 28 bits. -/
theorem tokenUnique_tokenOffset (C : Aid) (unique : BitVec 32) :
    (tokenUnique (tokenOffset C unique)).toNat = unique.toNat % 2 ^ 28 := by
  have hmask : (0xFFFFFFF : BitVec 64).toNat = 2 ^ 28 - 1 := rfl
  unfold tokenUnique
  rw [BitVec.toNat_and, hmask, Nat.and_two_pow_sub_one_eq_mod, toNat_tokenOffset]
  omega

/-- **The check of `kernel_creturn`** compares the counter of the last call with 28 bits of the token's. -/
theorem replyExpected_iff (C : Aid) (unique : BitVec 32) :
    replyExpected C (tokenOffset C unique) s = true ↔
      (s.kernelActs C).expectedReply.toNat = unique.toNat % 2 ^ 28 := by
  have hlt := (s.kernelActs C).expectedReply.isLt
  unfold replyExpected
  rw [beq_iff_eq, ← BitVec.toNat_inj, tokenUnique_tokenOffset, BitVec.toNat_setWidth, Nat.mod_eq_of_lt (by omega)]

/-! ## Registering -/

theorem kernelSeal_stop {p : Cap} {o : Nat} {st : Stop} (h : kernelSeal p o = .error st) : st = .trap := by
  unfold kernelSeal at h
  split at h <;> cases h
  rfl

theorem actCreateRef_ok (a : Aid) : ∃ ref, actCreateRef b a = .ok ref := ⟨_, rfl⟩

theorem actCreateCtrlRef_ok (a : Aid) : ∃ ref, actCreateCtrlRef b a = .ok ref := ⟨_, rfl⟩

theorem copyName_stop {mem : BitVec 64 → BitVec 8} {name : Cap} {n : Nat} {field : Nat → BitVec 8} {st : Stop}
    (h : copyName mem name n field = .error st) : st = .trap := by
  induction n with
  | zero => cases h
  | succ n ih =>
    unfold copyName at h
    cases hc : copyName mem name n field with
    | error st' =>
      rw [hc] at h
      cases h
      exact ih hc
    | ok f =>
      rw [hc, ok_bind] at h
      unfold load8 at h
      split at h <;> cases h
      rfl

theorem actName_stop {mem : UserMem} {name : Cap} {field : Nat → BitVec 8} {st : Stop}
    (h : actName b mem name field = .error st) : st = .trap ∨ st = .outOfBounds .actName := by
  unfold actName at h
  split at h
  · cases h
  unfold actSetName at h
  split at h
  · cases hc : copyName mem.byte name (nameLen name).toNat field with
    | error st' =>
      rw [hc] at h
      cases h
      exact .inl (copyName_stop hc)
    | ok f => rw [hc] at h; cases h
  split at h <;> cases h
  exact .inr rfl

/-- **A registration that succeeds fills in its whole record.** -/
theorem actRegister_eq {mem : UserMem} {name ref id ctrl : Cap} {field : Nat → BitVec 8} {frame : RegFrame}
    (h : s.kernelNextAct < maxActivations) (hn : actName b mem name (s.kernelActs ⟨_, h⟩).name = .ok field)
    (hf : mem.frame = some frame) (href : actCreateRef b ⟨_, h⟩ = .ok ref)
    (hid : kernelSeal s.actDefaultId s.kernelNextAct = .ok id) (hctrl : actCreateCtrlRef b ⟨_, h⟩ = .ok ctrl) :
    actRegister b mem name s = .ok (ctrl, s.register ⟨_, h⟩ field frame ref id) := by
  unfold actRegister
  rw [dif_pos h]
  simp only [hn, loadFrame, hf, href, msgQueueInit, State.setQueue_actDefaultId, State.setFrame_actDefaultId, hid,
    hctrl, ok_bind]
  refine congrArg (fun s' => Except.ok (ctrl, s')) ?_
  simp [schedCreate, State.setSchedStatus, State.setAct, State.setQueue, State.setFrame, State.register]

theorem actRegister_sat {mem : UserMem} {name : Cap} :
    Sat (actRegister b mem name s)
      (fun p => ∃ (h : s.kernelNextAct < maxActivations) (field : Nat → BitVec 8) (frame : RegFrame) (ref id : Cap),
        mem.frame = some frame ∧ actCreateRef b ⟨_, h⟩ = .ok ref ∧ actCreateCtrlRef b ⟨_, h⟩ = .ok p.1 ∧
        kernelSeal s.actDefaultId s.kernelNextAct = .ok id ∧ p.2 = s.register ⟨_, h⟩ field frame ref id)
      (fun st => st = .trap ∨ st = .outOfBounds .actName ∨ st = .panic .noActSlot) := by
  by_cases h : s.kernelNextAct < maxActivations
  · obtain ⟨ref, href⟩ := actCreateRef_ok (b := b) ⟨_, h⟩
    obtain ⟨ctrl, hctrl⟩ := actCreateCtrlRef_ok (b := b) ⟨_, h⟩
    cases hn : actName b mem name (s.kernelActs ⟨_, h⟩).name with
    | error st =>
      have hst := actName_stop hn
      simp only [actRegister, h, dif_pos, hn, error_bind, sat_error]
      exact hst.imp_right .inl
    | ok field =>
    cases hf : mem.frame with
    | none => simp [actRegister, h, hn, loadFrame, hf]
    | some frame =>
    cases hid : kernelSeal s.actDefaultId s.kernelNextAct with
    | error st => simp [actRegister, h, hn, loadFrame, hf, href, hid, msgQueueInit, kernelSeal_stop hid]
    | ok id =>
      rw [actRegister_eq h hn hf href hid hctrl]
      exact ⟨h, field, frame, ref, id, rfl, href, hctrl, rfl, rfl⟩
  · simp [actRegister, h]
/-! ## Unforgeability -/

theorem kernelUnseal_ok {p cap : Cap} {otype : Nat} (h : kernelUnseal p otype = .ok cap) :
    p.tag = true ∧ p.isSealed = true ∧ p.otype = otype := by
  unfold kernelUnseal Cap.withoutSeal at h
  split at h
  · rename_i heq
    split at heq
    · rename_i hc
      simpa [Bool.and_eq_true, and_assoc] using hc
    · cases heq
  · cases h

theorem kernelUnseal_stop {p : Cap} {otype : Nat} {st : Stop} (h : kernelUnseal p otype = .error st) : st = .trap := by
  unfold kernelUnseal at h
  split at h <;> cases h
  rfl

/-- **What an entry unseals is the kernel's own**: `$c3` as a control reference of an activation it has registered, `$c1`
as a token it has issued, and the `$c1` of a `ccall` as a reference.  They may be old, copied or passed on.  Pairs that a
user has sealed with a type of its own are outside. -/
structure Unseals (b : Build) (e : Entry) (s : State) : Prop where
  ctrl : (e.regs.cf .c3).tag = true → (e.regs.cf .c3).isSealed = true → (e.regs.cf .c3).otype = otypeCtrl →
    ∃ a, s.Registered a ∧ actCreateCtrlRef b a = .ok (e.regs.cf .c3)
  token : (e.regs.cf .c1).tag = true → (e.regs.cf .c1).isSealed = true → (e.regs.cf .c1).otype = otypeSyncToken →
    ∃ C u, .token C u ∈ s.hist ∧ syncTokenCap C u = .ok (e.regs.cf .c1)
  ref : e.cause = .ccall → (e.regs.cf .c1).tag = true → (e.regs.cf .c1).isSealed = true →
    (e.regs.cf .c1).hasPerms Cap.permExecute = true → ∃ a, s.Registered a ∧ actCreateRef b a = .ok (e.regs.cf .c1)

/-- A control reference names a registered activation, or unsealing it traps. -/
theorem ctrlAid_cases (hB : Base s) (hA : Unseals b e s) :
    ctrlAid b (e.regs.cf .c3) s = .error .trap ∨ ∃ a, s.Registered a ∧ ctrlAid b (e.regs.cf .c3) s = .ok a := by
  unfold ctrlAid
  cases hu : kernelUnseal (e.regs.cf .c3) otypeCtrl with
  | error st => exact .inl (by rw [kernelUnseal_stop hu]; rfl)
  | ok cap =>
    obtain ⟨htag, hsealed, hotype⟩ := kernelUnseal_ok hu
    obtain ⟨a, hreg, hctrl⟩ := hA.ctrl htag hsealed hotype
    rw [actCreateCtrlRef_unseal hctrl] at hu
    cases hu
    refine .inr ⟨a, hreg, ?_⟩
    rw [ok_bind, derefAct_ctrl, ok_bind, hB.aid_eq a hreg]
    rfl

/-! ## The opening of an entry -/

/-- **A synchronous call, sent**: the token is made and the message is in the queue of the callee. -/
inductive Sent (e : Entry) (c : Aid) (s : State) : State → Prop where
  | mk (dest : Aid) (identifier : Cap) : e.cause = .ccall → e.regs.mf .v1 = 4 → s.Registered dest →
      s.status dest = .alive → (s.pending dest).length < maxMsg - 1 →
      (s.schedStatus dest = .waiting → s.sched.squeueAEnd < maxActivations) →
      Sent e c s ((s.issue c).accept dest (mkMsg (s.kernelExceptionFramep c) identifier (tokenCap c (s.unique + 1))))

/-- **A `creturn` with a token that the check accepts**: the token the kernel made for `C` with the counter at `u`. -/
structure Presents (e : Entry) (s : State) (C : Aid) (u : BitVec 32) : Prop where
  cause : e.cause = .creturn
  token : syncTokenCap C u = .ok (e.regs.cf .c1)
  issued : .token C u ∈ s.hist
  expected : replyExpected C (tokenOffset C u) s = true

def Terminates (b : Build) (e : Entry) (s : State) (act : Aid) : Prop :=
  (∃ mem, e.cause = .syscall mem) ∧ sysnOf (e.regs.mf .v0) = some .actTerminate ∧
    ctrlAid b (e.regs.cf .c3) s = .ok act

/-- The state in which a `creturn` looks at its token: the registers are saved, the program counter is past it. -/
def returning (e : Entry) (s : State) : State :=
  kernelSkipInstr s.kernelCurrAct (s.setFrame s.kernelCurrAct e.regs)

/-- **How an entry opens**: what its cause alone can do, before the routine updates. -/
inductive Opening (b : Build) (e : Entry) (s : State) : State → Prop where
  | quiet {k : State} : Quiet s.kernelCurrAct s k → Opening b e s k
  | call {s₀ m : State} : Quiet s.kernelCurrAct s s₀ → Sent e s.kernelCurrAct s₀ m →
      (b.lite = false → m.SlotTest s.kernelCurrAct) → 0 < m.sched.squeueAEnd →
      Opening b e s (m.deactivate s.kernelCurrAct .syncBlock)
  | reply (C : Aid) (u : BitVec 32) : Presents e s C u → (b.lite = false → s.schedStatus C = .syncBlock) →
      s.sched.squeueAEnd < maxActivations → Opening b e s ((returning e s).answer C)
  | register {s₀ : State} (h : s₀.kernelNextAct < maxActivations) (name : Nat → BitVec 8) (frame : RegFrame)
      (ref id : Cap) : Quiet s.kernelCurrAct s s₀ → (∃ mem, e.cause = .syscall mem) → actCreateRef b ⟨_, h⟩ = .ok ref →
      Opening b e s (s₀.register ⟨_, h⟩ name frame ref id)
  | revoke {s₀ : State} (act : Aid) : Quiet s.kernelCurrAct s s₀ → (∃ mem, e.cause = .syscall mem) → s.Registered act →
      s.status act ≠ .terminated → Opening b e s (s₀.revoke act)
  | terminate {s₀ : State} (act : Aid) : Quiet s.kernelCurrAct s s₀ → Terminates b e s act → s.Registered act →
      (s.SlotTest act → 0 < s.sched.squeueAEnd) → Opening b e s (s₀.terminate act)

/-- **Where an entry stops**: at a state on its path, or at the update it would open with. -/
inductive Stuck (b : Build) (e : Entry) (s : State) : Stop → Prop where
  | routine {k m : State} {st : Stop} : Opening b e s k → ReflTransGen (Routine b e s.kernelCurrAct) k m →
      Halts b s.kernelCurrAct m st → Stuck b e s st
  | call {s₀ m : State} {st : Stop} : Quiet s.kernelCurrAct s s₀ → Sent e s.kernelCurrAct s₀ m →
      Halts b s.kernelCurrAct m st → Stuck b e s st
  | reply (C : Aid) (u : BitVec 32) : Presents e s C u → (b.lite = false → s.schedStatus C = .syncBlock) →
      maxActivations ≤ s.sched.squeueAEnd → Stuck b e s (.outOfBounds .squeueA)
  | replay (C : Aid) (u : BitVec 32) : b.lite = false → Presents e s C u → s.schedStatus C ≠ .syncBlock →
      Stuck b e s (.assertion .kernelCreturn)
  | terminate (act : Aid) : Terminates b e s act → s.SlotTest act → s.sched.squeueAEnd = 0 →
      Stuck b e s (.outOfBounds .squeueA)

/-- **A part of an entry**: from a state of the entry `e` it returns to user code or stops, as `Opening`, `Routine` and
`Stuck` say. -/
def Opens (b : Build) (e : Entry) (s : State) (r : Except Stop State) : Prop :=
  Sat r (fun s' => (∃ k, Opening b e s k ∧ ReflTransGen (Routine b e s.kernelCurrAct) k s') ∧ Runs s') (Stuck b e s)

theorem Opens.of_leads {r : Except Stop State} {k : State} (ho : Opening b e s k)
    (h : Leads (Routine b e s.kernelCurrAct) (Halts b s.kernelCurrAct) k r Runs) : Opens b e s r :=
  Sat.mono h (fun _ hs' => ⟨⟨k, ho, hs'.1⟩, hs'.2⟩) (fun _ ⟨_, hm, hh⟩ => .routine ho hm hh)

theorem Opens.ok {k : State} (ho : Opening b e s k) (hr : Runs k) : Opens b e s (.ok k) := .of_leads ho (.ok hr)

theorem Opens.stop {k : State} {st : Stop} (hq : Quiet s.kernelCurrAct s k) (hh : Halts b s.kernelCurrAct k st) :
    Opens b e s (.error st) :=
  .of_leads (.quiet hq) (.stop hh)

theorem Opens.bind_quiet {r : Except Stop State} {f : State → State} (h : Opens b e s r)
    (hf : ∀ m, Quiet s.kernelCurrAct m (f m)) : Opens b e s (r >>= fun m => .ok (f m)) :=
  Sat.bind h (fun m ⟨⟨k, ho, hk⟩, hr⟩ => ⟨⟨k, ho, hk.tail (.quiet (hf m))⟩, hr.quiet (hf m)⟩)

/-! ### What an opening leaves -/

theorem Quiet.next (h : Quiet c s m) : m.kernelNextAct = s.kernelNextAct := by
  obtain ⟨framep, child, im, timer, rfl, -⟩ := h
  rfl

theorem Ready.quiet (h : Ready c s) (hq : Quiet c s m) : Ready c m :=
  ⟨h.base.quiet h.reg hq, by rw [State.Registered, hq.next]; exact h.reg⟩

theorem Ready.sent (h : Ready c s) (h0 : c ≠ 0) (hm : Sent e c s m) : Ready c m := by
  cases hm with
  | mk dest identifier _ _ hd _ hr _ =>
    have hi : Base (s.issue c) := h.base.issue h0 h.reg
    exact ⟨hi.accept hd hr, by simpa [State.Registered, State.issue] using h.reg⟩

theorem Ready.of_base (h : Base s) : Ready s.kernelCurrAct s := ⟨h, h.curr_reg⟩

theorem Opening.ready (h : Base s) (ho : Opening b e s m) : Ready s.kernelCurrAct m := by
  have hr := Ready.of_base h
  cases ho with
  | quiet hq => exact hr.quiet hq
  | call hq hs _ _ =>
    have hm := (hr.quiet hq).sent h.curr_ne hs
    exact ⟨hm.base.deactivate h.curr_ne hm.reg (by simp) (by simp), hm.reg⟩
  | reply C u hp _ _ =>
    have hq : Quiet s.kernelCurrAct s (returning e s) := Quiet.trans (.setFrame _ (.inl rfl)) .skip
    obtain ⟨h0, hC⟩ := h.token_caller C u hp.issued
    exact ⟨(hr.quiet hq).base.answer h0 hC, h.curr_reg⟩
  | register hlt name frame ref id hq _ _ =>
    have hm := hr.quiet hq
    exact ⟨hm.base.register hlt, Nat.lt_succ_of_lt hm.reg⟩
  | revoke act hq _ hact hst =>
    have hm := hr.quiet hq
    have h0 : act ≠ 0 := by
      rintro rfl
      exact hst h.zero_status
    exact ⟨hm.base.revoke (by rw [State.Registered, hq.next]; exact hact) h0, hm.reg⟩
  | terminate act hq _ hact _ =>
    have hm := hr.quiet hq
    refine ⟨hm.base.terminate (by rw [State.Registered, hq.next]; exact hact), ?_⟩
    rw [State.terminate_eq]
    exact hm.reg

theorem Opening.curr (h : Opening b e s k) : k.kernelCurrAct = s.kernelCurrAct := by
  cases h with
  | quiet hq => obtain ⟨framep, child, im, timer, rfl, -⟩ := hq; rfl
  | call hq hs _ _ =>
    obtain ⟨framep, child, im, timer, rfl, -⟩ := hq
    cases hs with
    | mk dest identifier _ _ _ _ _ _ => exact State.accept_curr _ _ _
  | reply C u _ _ _ => rfl
  | register hlt name frame ref id hq _ _ => obtain ⟨framep, child, im, timer, rfl, -⟩ := hq; rfl
  | revoke act hq _ _ _ => obtain ⟨framep, child, im, timer, rfl, -⟩ := hq; rfl
  | terminate act hq _ _ _ =>
    obtain ⟨framep, child, im, timer, rfl, -⟩ := hq
    rw [State.terminate_eq]

end Kernel
end CheriOS
