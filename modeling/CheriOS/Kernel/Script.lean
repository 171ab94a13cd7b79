import CheriOS.Kernel.Reach
/-!
# Script — runs that compute

A script is a list of entries.  `script` boots and makes them one after the other, checks at each that its sealed
capabilities are the kernel's, and gives the state reached; `script_run` turns what it computes into a run.
-/
namespace CheriOS
namespace Kernel

variable {b : Build} {bi : BootInfo} {s : State} {e : Entry} {es : List Entry}

/-! ## Checking an entry -/

/-- **The sealed capabilities in a user's registers were made by the kernel**: control references and references of
activations it has registered, and tokens it has issued.  They may be old, copied or passed on. -/
structure Admissible (b : Build) (s : State) (regs : RegFrame) : Prop where
  ctrl : ∀ r, (regs.cf r).tag = true → (regs.cf r).isSealed = true → (regs.cf r).otype = otypeCtrl →
    ∃ a, s.Registered a ∧ actCreateCtrlRef b a = .ok (regs.cf r)
  token : ∀ r, (regs.cf r).tag = true → (regs.cf r).isSealed = true → (regs.cf r).otype = otypeSyncToken →
    ∃ C u, .token C u ∈ s.hist ∧ syncTokenCap C u = .ok (regs.cf r)
  ref : ∀ r, (regs.cf r).tag = true → (regs.cf r).isSealed = true → (regs.cf r).hasPerms Cap.permExecute = true →
    ∃ a, s.Registered a ∧ actCreateRef b a = .ok (regs.cf r)

theorem Admissible.unseals (h : Admissible b s e.regs) : Unseals b e s := ⟨h.ctrl .c3, h.token .c1, fun _ => h.ref .c1⟩

def CapReg.all : List CapReg :=
  [.c0, .c1, .c2, .c3, .c4, .c5, .c6, .c7, .c8, .c9, .c10, .c11, .c12, .c13, .c14, .c15, .c16, .c17, .c18, .c19, .c20,
    .c21, .c22, .c23, .c24, .c25, .idc, .pcc]

theorem CapReg.mem_all (r : CapReg) : r ∈ CapReg.all := by cases r <;> decide

def gives (r : Except Stop Cap) (cap : Cap) : Bool :=
  match r with
  | .ok c => c == cap
  | .error _ => false

theorem gives_iff {r : Except Stop Cap} {cap : Cap} : gives r cap = true ↔ r = .ok cap := by
  cases r <;> simp [gives]

/-- A capability the kernel has made, where it is sealed as the kernel seals. -/
def capAdmissible (b : Build) (s : State) (cap : Cap) : Bool :=
  !(cap.tag && cap.isSealed) ||
    ((cap.otype != otypeCtrl ||
        (List.finRange maxActivations).any (fun a => a.val < s.kernelNextAct && gives (actCreateCtrlRef b a) cap)) &&
      (cap.otype != otypeSyncToken ||
        s.hist.any (fun o => match o with
          | .token C u => gives (syncTokenCap C u) cap
          | _ => false)) &&
      (!cap.hasPerms Cap.permExecute ||
        (List.finRange maxActivations).any (fun a => a.val < s.kernelNextAct && gives (actCreateRef b a) cap)))

def admissible (b : Build) (s : State) (regs : RegFrame) : Bool :=
  CapReg.all.all (fun r => capAdmissible b s (regs.cf r))

theorem admissible_sound {regs : RegFrame} (h : admissible b s regs = true) : Admissible b s regs := by
  have hcap : ∀ r, (regs.cf r).tag = true → (regs.cf r).isSealed = true → _ := fun r ht hs => by
    have hr := List.all_eq_true.1 h r (CapReg.mem_all r)
    simp only [capAdmissible, ht, hs, Bool.and_self, Bool.not_true, Bool.false_or, Bool.and_eq_true] at hr
    exact hr
  refine ⟨fun r ht hs ho => ?_, fun r ht hs ho => ?_, fun r ht hs hp => ?_⟩
  · have hr := (hcap r ht hs).1.1
    simp only [ho, bne_self_eq_false, Bool.false_or, List.any_eq_true, Bool.and_eq_true, decide_eq_true_eq,
      gives_iff] at hr
    obtain ⟨a, -, hlt, ha⟩ := hr
    exact ⟨a, hlt, ha⟩
  · have hr := (hcap r ht hs).1.2
    simp only [ho, bne_self_eq_false, Bool.false_or, List.any_eq_true] at hr
    obtain ⟨o, ho, ha⟩ := hr
    cases o with
    | token C u => exact ⟨C, u, ho, gives_iff.1 ha⟩
    | _ => cases ha
  · have hr := (hcap r ht hs).2
    simp only [hp, Bool.not_true, Bool.false_or, List.any_eq_true, Bool.and_eq_true, decide_eq_true_eq,
      gives_iff] at hr
    obtain ⟨a, -, hlt, ha⟩ := hr
    exact ⟨a, hlt, ha⟩

/-! ## Scripts -/

theorem Boots.of_toOption (h : (cheriosMain b bi).toOption = some s) : Boots b s := by
  refine ⟨bi, ?_⟩
  cases hc : cheriosMain b bi with
  | ok k => rw [hc] at h; cases h; rfl
  | error st => rw [hc] at h; cases h

def checkedEntry (b : Build) (s : State) (e : Entry) : Option State :=
  if admissible b s e.regs then (kernelEntry b e s).toOption else none

/-- **The state a script reaches**, if every entry passes the check and comes back. -/
def script (b : Build) (bi : BootInfo) (es : List Entry) : Option State :=
  (cheriosMain b bi).toOption.bind (fun s => es.foldlM (checkedEntry b) s)

theorem checkedEntry_step {s' : State} (h : checkedEntry b s e = some s') : kernelStep b s e s' := by
  unfold checkedEntry at h
  split at h
  · rename_i hA
    refine ⟨(admissible_sound hA).unseals, ?_⟩
    cases hk : kernelEntry b e s with
    | ok k => rw [hk] at h; cases h; rfl
    | error st => rw [hk] at h; cases h
  · cases h

/-- **A script that computes is a run.** -/
theorem script_run (h : script b bi es = some s) : ∃ tr, KernelRun b tr s ∧ tr.map (·.ev) = es.reverse := by
  obtain ⟨s₀, h₀, h⟩ := Option.bind_eq_some_iff.1 h
  have hnext : ∀ s e s', checkedEntry b s e = some s' → kernelStep b s e s' ∧ True :=
    fun _ _ _ hk => ⟨checkedEntry_step hk, trivial⟩
  obtain ⟨tr, hr, hev, -⟩ := Transition.Run.of_foldlM hnext (.nil (Boots.of_toOption h₀)) h
  exact ⟨tr, by simpa using hr, hev⟩

/-! ## The entries of user programs -/

/-- A register frame with a method number, a selector and four capabilities. -/
def userRegs (v0 v1 : BitVec 64) (c1 c2 c3 c4 : Cap) : RegFrame :=
  (((((RegFrame.zero.setMf .v0 v0).setMf .v1 v1).setCf .c1 c1).setCf .c2 c2).setCf .c3 c3).setCf .c4 c4

def capOf (r : Except Stop Cap) : Cap := r.toOption.getD Cap.null

def sleepEntry : Entry := ⟨userRegs 13 0 Cap.null Cap.null Cap.null Cap.null, .syscall ⟨fun _ => 0, none, false⟩⟩

def registerEntry : Entry :=
  ⟨userRegs 20 0 Cap.null Cap.null Cap.null Cap.null, .syscall ⟨fun _ => 0, some RegFrame.zero, false⟩⟩

def terminateEntry (b : Build) (act : Aid) : Entry :=
  ⟨userRegs 26 0 Cap.null Cap.null (capOf (actCreateCtrlRef b act)) Cap.null, .syscall ⟨fun _ => 0, none, false⟩⟩

/-- `ccall` of method `v0` of an activation with its default identifier. -/
def callEntry (b : Build) (selector v0 : BitVec 64) (act : Aid) : Entry :=
  ⟨userRegs v0 selector (capOf (actCreateRef b act)) ⟨true, true, act, Cap.ddc.perms, 0, 0x1000, 0⟩ Cap.null Cap.null,
    .ccall⟩

def creturnEntry (token : Cap) : Entry := ⟨userRegs 0 0 token Cap.null Cap.null Cap.null, .creturn⟩

def interruptEntry (ipending : BitVec 8) : Entry :=
  ⟨userRegs 0 0 Cap.null Cap.null Cap.null Cap.null, .interrupt ipending 0⟩

/-! ### Their registers -/

theorem userRegs_cf {v0 v1 : BitVec 64} {c1 c2 c3 c4 : Cap} (r : CapReg) : (userRegs v0 v1 c1 c2 c3 c4).cf r =
    if r = .c1 then c1 else if r = .c2 then c2 else if r = .c3 then c3 else if r = .c4 then c4 else Cap.null := by
  cases r <;> rfl

theorem admissible_null {v0 v1 : BitVec 64} :
    Admissible b s (userRegs v0 v1 Cap.null Cap.null Cap.null Cap.null) := by
  have hnull : ∀ r, (userRegs v0 v1 Cap.null Cap.null Cap.null Cap.null).cf r = Cap.null := fun r => by
    rw [userRegs_cf]
    simp
  constructor <;> intro r ht <;> rw [hnull] at ht <;> cases ht

theorem admissible_call {selector v0 : BitVec 64} {act : Aid} (h : s.Registered act) :
    Admissible b s (callEntry b selector v0 act).regs := by
  have hother : ∀ r, r ≠ .c1 → r ≠ .c2 → (callEntry b selector v0 act).regs.cf r = Cap.null := fun r h1 h2 => by
    refine (userRegs_cf r).trans ?_
    rw [if_neg h1, if_neg h2]
    simp
  have hcase : ∀ r, ((callEntry b selector v0 act).regs.cf r).tag = true → r = .c1 ∨ r = .c2 := fun r ht => by
    by_contra hn
    rw [hother r (fun h1 => hn (.inl h1)) (fun h2 => hn (.inr h2))] at ht
    cases ht
  have hlow : act.val < 32 := act.isLt
  have hotype : ∀ r, ((callEntry b selector v0 act).regs.cf r).tag = true →
      ((callEntry b selector v0 act).regs.cf r).otype = act.val := fun r ht => by
    rcases hcase r ht with rfl | rfl <;> rfl
  constructor
  case ctrl =>
    intro r ht _ ho
    have hn : act.val = 42001 := (hotype r ht).symm.trans ho
    omega
  case token =>
    intro r ht _ ho
    have hn : act.val = 42000 := (hotype r ht).symm.trans ho
    omega
  case ref =>
    intro r ht _ hp
    rcases hcase r ht with rfl | rfl
    · exact ⟨act, h, rfl⟩
    · have hno : (Cap.ddc.perms &&& Cap.permExecute == Cap.permExecute) = false := by decide
      exact absurd (hp.symm.trans hno) (by decide)

theorem admissible_creturn {C : Aid} {u : BitVec 32} (h : .token C u ∈ s.hist) :
    Admissible b s (creturnEntry (tokenCap C u)).regs := by
  have hcase : ∀ r, ((creturnEntry (tokenCap C u)).regs.cf r).tag = true → r = .c1 := fun r ht => by
    by_contra hn
    have hnull : (creturnEntry (tokenCap C u)).regs.cf r = Cap.null := by
      refine (userRegs_cf r).trans ?_
      rw [if_neg hn]
      simp
    rw [hnull] at ht
    cases ht
  constructor
  case ctrl =>
    intro r ht _ ho
    rw [hcase r ht] at ho
    exact absurd (show otypeSyncToken = otypeCtrl from ho) (by decide)
  case token =>
    intro r ht _ _
    obtain rfl := hcase r ht
    exact ⟨C, u, h, syncTokenCap_eq C u⟩
  case ref =>
    intro r ht _ hp
    rw [hcase r ht] at hp
    have hno : ((0 : BitVec 32) &&& Cap.permExecute == Cap.permExecute) = false := by decide
    exact absurd (hp.symm.trans hno) (by decide)

def tokenMade (C : Aid) (u : BitVec 32) (s : State) : Bool :=
  s.hist.any (fun o => match o with
    | .token C' u' => C' == C && u' == u
    | _ => false)

theorem tokenMade_sound {C : Aid} {u : BitVec 32} (h : tokenMade C u s = true) : .token C u ∈ s.hist := by
  obtain ⟨o, ho, he⟩ := List.any_eq_true.1 h
  cases o with
  | token C' u' =>
    simp only [Bool.and_eq_true, beq_iff_eq] at he
    obtain ⟨rfl, rfl⟩ := he
    exact ho
  | _ => cases he

def debugBuild : Build := ⟨false, 0xffffffff80100000, by decide⟩

def zeroBoot : BootInfo := ⟨RegFrame.zero⟩

def scriptSat (b : Build) (es : List Entry) (p : State → Bool) : Bool := (script b zeroBoot es).any p

theorem scriptSat_run (b : Build) (es : List Entry) (p : State → Bool) (h : scriptSat b es p = true) :
    ∃ tr s, KernelRun b tr s ∧ tr.map (·.ev) = es.reverse ∧ p s = true := by
  unfold scriptSat at h
  cases hs : script b zeroBoot es with
  | none => rw [hs] at h; cases h
  | some s =>
    rw [hs] at h
    obtain ⟨tr, hr, hev⟩ := script_run hs
    exact ⟨tr, s, hr, hev, h⟩

end Kernel
end CheriOS
