import CheriOS.Kernel.Foreign
import CheriOS.Kernel.Lines
import CheriOS.Kernel.Send
/-!
# Identifier — where the identifiers of messages come from

The kernel seals with the ids of the activations, with `otypeSyncToken` and with `otypeCtrl`, and nobody else can.  What
a run has sealed can be read off its steps (`Made`); a message carries the unsealed form of the identifier its sender
presented, so that its receiver has made it, as long as `$c1` is sealed with a type of the kernel.
-/
namespace CheriOS
namespace Kernel

open Outcome
open Relation (ReflTransGen)

variable {b : Build} {e : Entry} {c a D : Aid} {s s' m k : State} {cap p : Cap}

/-! ## Runs with any pointer in `$c1` -/

/-- A step of a run: an entry, with what user memory holds at `$c1`, that comes back. -/
def openStep (b : Build) (s : State) (i : Entry × Option ForeignAct) (s' : State) : Prop := openEntry b i.2 i.1 s = .ok s'

abbrev OpenRun (b : Build) := Transition.Run (Boots b) (openStep b)

abbrev OpenStep := Transition.Step State (Entry × Option ForeignAct)

variable {st : OpenStep} {tr : List OpenStep}

/-! ## What has been sealed -/

def KernelType (o : Nat) : Prop := o < maxActivations ∨ o = otypeSyncToken ∨ o = otypeCtrl

/-- In this step `D` has a capability sealed by `act_seal_identifier`. -/
structure Seals (st : OpenStep) (D : Aid) (cap : Cap) : Prop where
  curr : st.pre.kernelCurrAct = D
  call : (∃ mem, st.ev.1.cause = .syscall mem) ∧ sysnOf (st.ev.1.regs.mf .v0) = some .actSealIdentifier
  sealed : actSealIdentifier (st.ev.1.regs.cf .c3) st.pre = .ok cap

/-- **The identifiers of `D`**: those it has had sealed, and its default one. -/
inductive Identifies (tr : List OpenStep) (s : State) (D : Aid) (cap : Cap) : Prop where
  | seals (st : OpenStep) : st ∈ tr → Seals st D cap → Identifies tr s D cap
  | default : s.Registered D → (s.kernelActs D).actDefaultId = cap → Identifies tr s D cap

/-- **What the kernel has sealed** by the time the run reaches `s`. -/
inductive Made (b : Build) (tr : List OpenStep) (s : State) (cap : Cap) : Prop where
  | ref (a : Aid) : s.Registered a → actCreateRef b a = .ok cap → Made b tr s cap
  | ctrl (a : Aid) : s.Registered a → actCreateCtrlRef b a = .ok cap → Made b tr s cap
  | token (C : Aid) (u : BitVec 32) : .token C u ∈ s.hist → syncTokenCap C u = .ok cap → Made b tr s cap
  | identifier (D : Aid) : Identifies tr s D cap → Made b tr s cap

/-- **Unforgeability at one step**, after the steps `tr`: a sealed capability of one of the kernel's types in a register
was sealed by the kernel.  Capabilities of any other type are the users' own affair. -/
def Unforged (b : Build) (tr : List OpenStep) (st : OpenStep) : Prop :=
  ∀ r, (st.ev.1.regs.cf r).tag = true → (st.ev.1.regs.cf r).isSealed = true → KernelType (st.ev.1.regs.cf r).otype →
    Made b tr st.pre (st.ev.1.regs.cf r)

/-! ## Types and permissions -/

theorem kernelSeal_ok {o : Nat} (h : kernelSeal p o = .ok cap) : cap = { p with isSealed := true, otype := o } := by
  unfold kernelSeal Cap.withSeal at h
  split at h
  · rename_i hs
    split at hs
    · rw [← Except.ok.inj h, Option.some.inj hs]
    · cases hs
  · cases h

theorem actCreateRef_ref (h : actCreateRef b a = .ok cap) :
    cap.otype = a ∧ cap.hasPerms Cap.permExecute = true := by
  have hpcc : Cap.pcc.hasPerms Cap.permExecute = true := by decide
  rw [kernelSeal_ok h]
  exact ⟨rfl, hpcc⟩

theorem actCreateCtrlRef_ctrl (h : actCreateCtrlRef b a = .ok cap) :
    cap.otype = otypeCtrl ∧ cap.hasPerms Cap.permExecute = false := by
  have hddc : Cap.ddc.hasPerms Cap.permExecute = false := by decide
  rw [kernelSeal_ok h]
  exact ⟨rfl, hddc⟩

theorem syncTokenCap_token {C : Aid} {u : BitVec 32} (h : syncTokenCap C u = .ok cap) :
    cap.otype = otypeSyncToken ∧ cap.hasPerms Cap.permExecute = false := by
  rw [syncTokenCap_eq] at h
  have hnull : Cap.null.hasPerms Cap.permExecute = false := by decide
  rw [← Except.ok.inj h]
  exact ⟨rfl, hnull⟩

/-- **`act_seal_identifier`** seals with the id of its caller and takes the execute permission away. -/
theorem Seals.sealed_as (h : Seals st D cap) : cap.otype = D ∧ cap.hasPerms Cap.permExecute = false := by
  obtain ⟨hcurr, -, hs⟩ := h
  unfold actSealIdentifier at hs
  split at hs
  · rename_i q hq
    rw [kernelSeal_ok hs, ← hcurr]
    refine ⟨rfl, ?_⟩
    unfold Cap.andPerm at hq
    split at hq
    · rw [← Option.some.inj hq]
      have hmask : (0b111100011111101 : BitVec 32) &&& Cap.permExecute = 0 := rfl
      unfold Cap.hasPerms
      dsimp only
      rw [BitVec.and_assoc, hmask]
      simp [Cap.permExecute]
    · cases hq
  · cases hs

/-- **The default identifiers** are sealed with the ids of their activations and are not executable. -/
structure Defaults (s : State) : Prop where
  root : s.actDefaultId.hasPerms Cap.permExecute = false
  sealed : ∀ a, s.Registered a →
    (s.kernelActs a).actDefaultId.otype = a ∧ (s.kernelActs a).actDefaultId.hasPerms Cap.permExecute = false

theorem Identifies.sealed_as (h : Identifies tr s D cap) (hd : Defaults s) :
    cap.otype = D ∧ cap.hasPerms Cap.permExecute = false := by
  cases h with
  | seals _ _ hs => exact hs.sealed_as
  | default hreg he => exact he ▸ hd.sealed D hreg

theorem aid_ne_ctrl (a : Aid) : a.val ≠ otypeCtrl := (Nat.lt_trans a.isLt (by decide)).ne

theorem aid_ne_token (a : Aid) : a.val ≠ otypeSyncToken := (Nat.lt_trans a.isLt (by decide)).ne

section Made

variable (h : Made b tr s cap) (hd : Defaults s)
include h hd

theorem Made.ctrl_of (ho : cap.otype = otypeCtrl) : ∃ a, s.Registered a ∧ actCreateCtrlRef b a = .ok cap := by
  cases h with
  | ref a _ hr => exact absurd ((actCreateRef_ref hr).1.symm.trans ho) (aid_ne_ctrl a)
  | ctrl a hreg hc => exact ⟨a, hreg, hc⟩
  | token C u _ ht => exact absurd ((syncTokenCap_token ht).1.symm.trans ho) (by decide)
  | identifier D hi => exact absurd ((hi.sealed_as hd).1.symm.trans ho) (aid_ne_ctrl D)

theorem Made.token_of (ho : cap.otype = otypeSyncToken) : ∃ C u, .token C u ∈ s.hist ∧ syncTokenCap C u = .ok cap := by
  cases h with
  | ref a _ hr => exact absurd ((actCreateRef_ref hr).1.symm.trans ho) (aid_ne_token a)
  | ctrl a _ hc => exact absurd ((actCreateCtrlRef_ctrl hc).1.symm.trans ho) (by decide)
  | token C u hm ht => exact ⟨C, u, hm, ht⟩
  | identifier D hi => exact absurd ((hi.sealed_as hd).1.symm.trans ho) (aid_ne_token D)

theorem Made.ref_of (hx : cap.hasPerms Cap.permExecute = true) : ∃ a, s.Registered a ∧ actCreateRef b a = .ok cap := by
  cases h with
  | ref a hreg hr => exact ⟨a, hreg, hr⟩
  | ctrl a _ hc => exact absurd ((actCreateCtrlRef_ctrl hc).2.symm.trans hx) Bool.false_ne_true
  | token C u _ ht => exact absurd ((syncTokenCap_token ht).2.symm.trans hx) Bool.false_ne_true
  | identifier D hi => exact absurd ((hi.sealed_as hd).2.symm.trans hx) Bool.false_ne_true

theorem Made.identifier_of (ho : cap.otype = D) (hx : cap.hasPerms Cap.permExecute = false) : Identifies tr s D cap := by
  cases h with
  | ref a _ hr => exact absurd ((actCreateRef_ref hr).2.symm.trans hx) (by decide)
  | ctrl a _ hc => exact absurd (ho.symm.trans (actCreateCtrlRef_ctrl hc).1) (aid_ne_ctrl D)
  | token C u _ ht => exact absurd (ho.symm.trans (syncTokenCap_token ht).1) (aid_ne_token D)
  | identifier D' hi =>
    obtain rfl : D' = D := Fin.ext ((hi.sealed_as hd).1.symm.trans ho)
    exact hi

end Made

/-! ## The default identifiers -/

theorem Defaults.of_members (hd : Defaults s) (h : s'.members = s.members) : Defaults s' := by
  obtain ⟨hnext, hroot, hids⟩ : s'.kernelNextAct = s.kernelNextAct ∧ s'.actDefaultId = s.actDefaultId ∧ _ :=
    ⟨congrArg (·.1) h, congrArg (·.2.1) h, congrArg (·.2.2) h⟩
  have hid : ∀ a, (s'.kernelActs a).actDefaultId = (s.kernelActs a).actDefaultId := fun a => congrFun hids a
  refine ⟨hroot ▸ hd.root, fun a ha => ?_⟩
  rw [State.Registered, hnext] at ha
  rw [hid]
  exact hd.sealed a ha

theorem Boots.defaults (h : Boots b s) : Defaults s := by
  obtain ⟨bi, h⟩ := h
  obtain ⟨s₀, h₀, h⟩ := Outcome.bind_eq_ok.1 h
  have hmembers : s.members = s₀.members := congrArg Prod.snd ((schedReschedule_plain 1).points.eq h)
  refine Defaults.of_members ?_ hmembers
  obtain ⟨root, name, ref, id, name', frame', ref', id', hroot, hid, hid', rfl⟩ := actInit_ok h₀
  have hperms : root.hasPerms Cap.permExecute = false := by
    unfold Cap.setBounds at hroot
    split at hroot
    · rw [← Option.some.inj hroot]
      decide
    · cases hroot
  refine ⟨hperms, fun a ha => ?_⟩
  have hlt : a.val < 2 := ha
  obtain rfl | rfl : a = 0 ∨ a = 1 := by
    rw [Fin.ext_iff, Fin.ext_iff]
    simp only [Fin.val_zero, Fin.val_one]
    omega
  · have he : ((initSlot (kernelSlot root name ref id) name' frame' ref' id').kernelActs 0).actDefaultId = id := by
      simp [initSlot, kernelSlot, State.activate]
    rw [he, kernelSeal_ok hid]
    exact ⟨rfl, hperms⟩
  · have he : ((initSlot (kernelSlot root name ref id) name' frame' ref' id').kernelActs 1).actDefaultId = id' := by
      simp [initSlot, kernelSlot, State.activate]
    rw [he, kernelSeal_ok hid']
    exact ⟨rfl, hperms⟩

/-- **Only a registration changes them**, and it adds one. -/
theorem kernelEntry_members (hB : Base s) (h : kernelEntry b e s = .ok s') : s'.members = s.members ∨
    ∃ (hlt : s.kernelNextAct < maxActivations) (id : Cap), kernelSeal s.actDefaultId s.kernelNextAct = .ok id ∧
      s'.members = (s.kernelNextAct + 1, s.actDefaultId, Function.update s.members.2.2 ⟨_, hlt⟩ id) := by
  by_cases hn : ∃ mem, Registers e mem
  · obtain ⟨mem, hn⟩ := hn
    obtain ⟨hlt, name, frame, ref, id, ctrl, -, hid, rfl⟩ := kernelEntry_register hB h hn
    refine .inr ⟨hlt, id, hid, ?_⟩
    have hskip : (kernelSkipInstr s.kernelCurrAct (setC3 ctrl ((saved e s).register ⟨_, hlt⟩ name frame ref id))).members =
        ((saved e s).register ⟨_, hlt⟩ name frame ref id).members :=
      (congrArg Prod.snd skip_points).trans (congrArg Prod.snd (setC3_points ctrl))
    rw [hskip]
    refine Prod.ext rfl (Prod.ext rfl (funext fun a => ?_))
    by_cases ha : a = ⟨_, hlt⟩
    · subst ha
      simp [State.members]
    · simp [State.members, ha, saved]
  · exact .inl (congrArg Prod.snd (kernelEntry_points hB h (not_exists.1 hn)))

theorem Defaults.step (hd : Defaults s) (hB : Base s) (h : kernelEntry b e s = .ok s') : Defaults s' := by
  rcases kernelEntry_members hB h with hm | ⟨hlt, id, hid, hm⟩
  · exact hd.of_members hm
  have hnext : s'.kernelNextAct = s.kernelNextAct + 1 := congrArg (·.1) hm
  have hroot : s'.actDefaultId = s.actDefaultId := congrArg (·.2.1) hm
  have hids : ∀ a, (s'.kernelActs a).actDefaultId = Function.update s.members.2.2 ⟨_, hlt⟩ id a :=
    congrFun (congrArg (·.2.2) hm)
  refine ⟨hroot ▸ hd.root, fun a ha => ?_⟩
  rw [State.Registered, hnext] at ha
  rw [hids]
  by_cases hn : a = ⟨_, hlt⟩
  · subst hn
    rw [Function.update_self, kernelSeal_ok hid]
    exact ⟨rfl, hd.root⟩
  · rw [Function.update_of_ne hn]
    exact hd.sealed a (Nat.lt_of_le_of_ne (Nat.le_of_lt_succ ha) fun he => hn (Fin.ext he))

theorem Identifies.step (h : Identifies tr s D cap) (hB : Base s) (hk : kernelEntry b e s = .ok s') (st : OpenStep) :
    Identifies (st :: tr) s' D cap := by
  cases h with
  | seals x hx hs => exact .seals x (List.mem_cons_of_mem _ hx) hs
  | default hreg he =>
    rw [State.Registered] at hreg
    rcases kernelEntry_members hB hk with hm | ⟨hlt, id, -, hm⟩
    · have hnext : s'.kernelNextAct = s.kernelNextAct := congrArg (·.1) hm
      refine .default ?_ ((congrFun (congrArg (·.2.2) hm) D).trans he)
      rw [State.Registered, hnext]
      exact hreg
    · have hnext : s'.kernelNextAct = s.kernelNextAct + 1 := congrArg (·.1) hm
      have hD : D ≠ ⟨_, hlt⟩ := fun hD => absurd (congrArg Fin.val hD) (Nat.ne_of_lt hreg)
      refine .default ?_ ((congrFun (congrArg (·.2.2) hm) D).trans ((Function.update_of_ne hD _ _).trans he))
      rw [State.Registered, hnext]
      exact Nat.lt_succ_of_lt hreg

/-! ## Messages -/

theorem exists_lineMsg {is : List Nat} {ms : List Msg} {msg : Msg} (h : List.Forall₂ LineMsg is ms) (hm : msg ∈ ms) :
    ∃ i, LineMsg i msg := by
  induction h with
  | nil => cases hm
  | cons hl _ ih =>
    rcases List.mem_cons.1 hm with rfl | hm
    · exact ⟨_, hl⟩
    · exact ih hm

/-- **What an entry accepts**: notices of lines, and what a `ccall` presents. -/
theorem kernelEntry_accepted (hB : Base s) (hR : Runs s) (hA : Unseals b e s) (h : kernelEntry b e s = .ok s') {msg : Msg}
    (hm : msg ∈ s'.accepted D) : msg ∈ s.accepted D ∨ (∃ i, LineMsg i msg) ∨
      (e.cause = .ccall ∧ ccallTraps (e.regs.cf .c1) (e.regs.cf .c2) = true ∧ Operands b e D msg.idc) := by
  by_cases hi : ∃ p n, e.cause = .interrupt p n
  · obtain ⟨p, n, hi⟩ := hi
    obtain ⟨ms, hms, hall⟩ := (Sat.ok (kernelEntry_interrupt hB hR hi) h).delivery p n D hi
    rw [hms] at hm
    refine (List.mem_append.1 hm).imp_right fun hm => .inl ?_
    exact exists_lineMsg hall hm
  by_cases hc : e.cause = .ccall
  · rw [kernelEntry_ccall hB hc] at h
    split at h
    case isFalse => cases h
    rename_i ht
    obtain ⟨callee, cs, hreg, ho⟩ := ccall_operands hA hc ht
    have hcore : ∀ cflags, cflags < 3 → kernelCcallCore b cflags (returning e s) = .ok s' →
        msg ∈ s.accepted D ∨ (∃ i, LineMsg i msg) ∨
          (e.cause = .ccall ∧ ccallTraps (e.regs.cf .c1) (e.regs.cf .c2) = true ∧ Operands b e D msg.idc) := by
      intro cflags hf hk
      rcases kernelCcallCore_accepted hB hR hc ho hreg hf hk D with hacc | ⟨rfl, msg', hidc, hacc⟩
      · exact .inl (hacc ▸ hm)
      · rw [hacc] at hm
        refine (List.mem_append.1 hm).imp_right fun hm => .inr ⟨hc, ht, ?_⟩
        rw [List.mem_singleton.1 hm, hidc]
        exact ho
    rw [kernelCcall_eq hB] at h
    split at h
    · exact hcore 0 (by decide) h
    split at h
    · exact hcore 1 (by decide) h
    split at h
    · exact hcore 2 (by decide) h
    · obtain rfl := Except.ok.inj h
      exact .inl (returning_unsent D ▸ hm)
  · have hent := kernelEntry_opens hB hR hA
    rw [h] at hent
    obtain ⟨⟨k, ho, hp⟩, -⟩ := hent
    rcases ho.accepted D with hk | ⟨-, hc'⟩
    · rw [accepted_path hp hc (fun p n hpn => hi ⟨p, n, hpn⟩) D, hk] at hm
      exact .inl hm
    · exact absurd hc' hc

theorem Unforged.unseals (hU : Unforged b tr st) (hd : Defaults st.pre)
    (ht : st.ev.1.cause = .ccall → KernelType (st.ev.1.regs.cf .c1).otype) : Unseals b st.ev.1 st.pre where
  ctrl htag hs ho := (hU .c3 htag hs (.inr (.inr ho))).ctrl_of hd ho
  token htag hs ho := (hU .c1 htag hs (.inr (.inl ho))).token_of hd ho
  ref hc htag hs hx := (hU .c1 htag hs (ht hc)).ref_of hd hx

def Known (tr : List OpenStep) (s : State) (D : Aid) (msg : Msg) : Prop :=
  (∃ i, LineMsg i msg) ∨ ∃ cap, Identifies tr s D cap ∧ kernelUnseal cap D = .ok msg.idc

theorem Unforged.presented {msg : Msg} (hU : Unforged b tr st) (hd : Defaults st.pre)
    (ht : ccallTraps (st.ev.1.regs.cf .c1) (st.ev.1.regs.cf .c2) = true) (ho : Operands b st.ev.1 D msg.idc) :
    ∃ cap, Identifies tr st.pre D cap ∧ kernelUnseal cap D = .ok msg.idc := by
  have htype : (st.ev.1.regs.cf .c1).otype = D := (actCreateRef_ref ho.ref).1
  simp only [ccallTraps, Bool.and_eq_true, beq_iff_eq, and_assoc, Bool.not_eq_true'] at ht
  obtain ⟨-, htag, -, hs, heq, -, hx⟩ := ht
  have htype2 : (st.ev.1.regs.cf .c2).otype = D := heq.symm.trans htype
  exact ⟨_, (hU .c2 htag hs (.inl (htype2 ▸ D.isLt))).identifier_of hd htype2 hx, htype ▸ ho.identifier⟩

/-- What holds along a run. -/
structure Accounted (tr : List OpenStep) (s : State) : Prop where
  base : Base s
  runs : Runs s
  defaults : Defaults s
  conserved : Conserved s
  known : ∀ D, ∀ msg ∈ s.accepted D, Known tr s D msg

theorem Accounted.step (hI : Accounted tr st.pre) (hst : openStep b st.pre st.ev st.post) (hU : Unforged b tr st)
    (hT : st.ev.1.cause = .ccall → KernelType (st.ev.1.regs.cf .c1).otype) : Accounted (st :: tr) st.post := by
  have hA := hU.unseals hI.defaults hT
  have hk : kernelEntry b st.ev.1 st.pre = .ok st.post := (openEntry_eq hI.base hA st.ev.2).symm.trans hst
  have hent := kernelEntry_opens hI.base hI.runs hA
  rw [hk] at hent
  obtain ⟨hm, hR⟩ : Mid b st.ev.1 st.pre st.post ∧ Runs st.post := hent
  refine ⟨(hm.ready hI.base).base, hR, hI.defaults.step hI.base hk,
    conserved_kept.mid hI.base hI.runs hI.conserved trivial hm, fun D msg hmsg => ?_⟩
  rcases kernelEntry_accepted hI.base hI.runs hA hk hmsg with hmsg | hl | ⟨-, ht, ho⟩
  · exact (hI.known D msg hmsg).imp_right fun ⟨cap, hi, hu⟩ => ⟨cap, hi.step hI.base hk st, hu⟩
  · exact .inl hl
  · obtain ⟨cap, hi, hu⟩ := hU.presented hI.defaults ht ho
    exact .inr ⟨cap, hi.step hI.base hk st, hu⟩

theorem Boots.accounted (h : Boots b s) : Accounted [] s := by
  obtain ⟨bi, hbi⟩ := id h
  have hb := cheriosMain_booted hbi
  refine ⟨hb.base, hb.runs, h.defaults, (conserved_kept (b := b)).boot _ hb, fun D msg hmsg => ?_⟩
  simp [State.accepted, hb.hist, List.filterMap_cons, Obs.pushedTo] at hmsg

theorem OpenRun.accounted (hr : OpenRun b tr s) (hU : ∀ newer st older, tr = newer ++ st :: older → Unforged b older st)
    (hT : ∀ st ∈ tr, st.ev.1.cause = .ccall → KernelType (st.ev.1.regs.cf .c1).otype) : Accounted tr s := by
  induction hr with
  | nil hboot => exact hboot.accounted
  | cons hr hst ih =>
    have hI := ih (fun newer st older he => hU (_ :: newer) st older (congrArg _ he))
      (fun st hm => hT st (List.mem_cons_of_mem _ hm))
    exact hI.step hst (hU [] _ _ rfl) (hT _ List.mem_cons_self)

/-- The step without the memory behind `$c1`. -/
def entryOf (st : OpenStep) : Transition.Step State Entry := ⟨st.pre, st.ev.1, st.post⟩

/-- **Where every `$c1` has a type of the kernel, nothing is read through a pointer that is not the kernel's**: the run is
one of `kernel_exception`. -/
theorem OpenRun.kernel (hr : OpenRun b tr s) (hU : ∀ newer st older, tr = newer ++ st :: older → Unforged b older st)
    (hT : ∀ st ∈ tr, st.ev.1.cause = .ccall → KernelType (st.ev.1.regs.cf .c1).otype) :
    KernelRun b (tr.map entryOf) s := by
  induction hr with
  | nil hboot => exact .nil hboot
  | @cons tr s s' i hr hst ih =>
    have hU' : ∀ newer st older, tr = newer ++ st :: older → Unforged b older st :=
      fun newer st older he => hU (_ :: newer) st older (congrArg _ he)
    have hT' : ∀ st ∈ tr, st.ev.1.cause = .ccall → KernelType (st.ev.1.regs.cf .c1).otype :=
      fun st hm => hT st (List.mem_cons_of_mem _ hm)
    have hI := OpenRun.accounted hr hU' hT'
    have hA : Unseals b i.1 s := (hU [] _ _ rfl).unseals hI.defaults (hT _ List.mem_cons_self)
    exact .cons (ih hU' hT') ⟨hA, (openEntry_eq hI.base hA i.2).symm.trans hst⟩

/-- **The identifiers of messages are made by their receivers**, along every run in which sealed capabilities of the
kernel's types come from the kernel and every `ccall` presents a `$c1` of one of these types: a message that `D` has
loaded, or will load, is the notice of a line, or carries an unsealed identifier of `D`'s own. -/
theorem identifiers_made (hr : OpenRun b tr s)
    (hU : ∀ newer st older, tr = newer ++ st :: older → Unforged b older st)
    (hT : ∀ st ∈ tr, st.ev.1.cause = .ccall → KernelType (st.ev.1.regs.cf .c1).otype) (D : Aid) (msg : Msg)
    (hm : msg ∈ s.loaded D ∨ msg ∈ s.pending D) :
    (msg.idc = Cap.null ∧ ∃ i, LineMsg i msg) ∨ ∃ cap, Identifies tr s D cap ∧ kernelUnseal cap D = .ok msg.idc := by
  have hI : Accounted tr s := OpenRun.accounted hr hU hT
  have hmsg : msg ∈ s.accepted D := by rwa [hI.conserved D, List.mem_append]
  exact (hI.known D msg hmsg).imp_left fun ⟨i, hl⟩ => ⟨hl.idc, i, hl⟩

/-! ## Runs that compute -/

instance (o : Nat) : Decidable (KernelType o) := inferInstanceAs (Decidable (_ ∨ _ ∨ _))

/-- A capability that is not sealed as the kernel seals, or is a reference, a control reference or the default identifier
of an activation. -/
def capUnforged (b : Build) (s : State) (cap : Cap) : Bool :=
  !(cap.tag && cap.isSealed && decide (KernelType cap.otype)) ||
    (List.finRange maxActivations).any fun a => a.val < s.kernelNextAct &&
      (gives (actCreateRef b a) cap || gives (actCreateCtrlRef b a) cap || (s.kernelActs a).actDefaultId == cap)

theorem capUnforged_sound (h : capUnforged b s cap = true) (htag : cap.tag = true) (hs : cap.isSealed = true)
    (ho : KernelType cap.otype) : Made b tr s cap := by
  simp only [capUnforged, htag, hs, ho, decide_true, Bool.and_self, Bool.not_true, Bool.false_or, List.any_eq_true,
    Bool.and_eq_true, decide_eq_true_eq, Bool.or_eq_true, gives_iff, beq_iff_eq] at h
  obtain ⟨a, -, hreg, (href | hctrl) | hid⟩ := h
  · exact .ref a hreg href
  · exact .ctrl a hreg hctrl
  · exact .identifier a (.default hreg hid)

def checkedOpen (b : Build) (s : State) (i : Entry × Option ForeignAct) : Option State :=
  if CapReg.all.all (fun r => capUnforged b s (i.1.regs.cf r)) then (openEntry b i.2 i.1 s).toOption else none

theorem checkedOpen_step {i : Entry × Option ForeignAct} (h : checkedOpen b s i = some s') :
    openStep b s i s' ∧ ∀ tr post, Unforged b tr ⟨s, i, post⟩ := by
  unfold checkedOpen at h
  split at h
  · rename_i hall
    refine ⟨?_, fun tr post r => capUnforged_sound (List.all_eq_true.1 hall r (CapReg.mem_all r))⟩
    unfold openStep
    cases hk : openEntry b i.2 i.1 s with
    | ok k => rw [hk] at h; cases h; rfl
    | error st => rw [hk] at h; cases h
  · cases h

theorem Unforged.cons (hU : Unforged b tr st)
    (h : ∀ newer st older, tr = newer ++ st :: older → Unforged b older st) (newer : List OpenStep) (x : OpenStep)
    (older : List OpenStep) (he : st :: tr = newer ++ x :: older) : Unforged b older x := by
  cases newer with
  | nil =>
    obtain ⟨rfl, rfl⟩ := List.cons.inj he
    exact hU
  | cons y newer => exact h newer x older (List.cons.inj he).2

/-- **A script that computes is a run without forgery.** -/
theorem openScript_run (is : List (Entry × Option ForeignAct)) (p : State → Bool)
    (h : ((cheriosMain b zeroBoot).toOption.bind fun s => is.foldlM (checkedOpen b) s).any p = true) :
    ∃ tr s, OpenRun b tr s ∧ (∀ newer st older, tr = newer ++ st :: older → Unforged b older st) ∧
      (∀ st ∈ tr, st.ev ∈ is) ∧ p s = true := by
  obtain ⟨s, hs, hp⟩ := (Option.any_eq_true _ _).1 h
  obtain ⟨s₀, h₀, hs⟩ := Option.bind_eq_some_iff.1 hs
  obtain ⟨tr, hr, hev, hall⟩ := Transition.Run.of_foldlM (fun _ _ _ => checkedOpen_step) (.nil (Boots.of_toOption h₀)) hs
  refine ⟨tr, s, by simpa using hr, fun newer st older he => ?_, fun st hm => ?_, hp⟩
  · exact hall st (he ▸ List.mem_append_right _ List.mem_cons_self) older st.post
  · have hm : st.ev ∈ tr.map (·.ev) := List.mem_map_of_mem hm
    rwa [hev, List.mem_reverse] at hm

/-- Of an item that is a `ccall`, `$c1` has one of the kernel's types. -/
def typed (i : Entry × Option ForeignAct) : Bool :=
  match i.1.cause with
  | .ccall => decide ((i.1.regs.cf .c1).otype < maxActivations ∨ (i.1.regs.cf .c1).otype = otypeSyncToken ∨
      (i.1.regs.cf .c1).otype = otypeCtrl)
  | _ => true

theorem typed_run {is : List (Entry × Option ForeignAct)} (h : is.all typed = true) (hev : ∀ st ∈ tr, st.ev ∈ is) :
    ∀ st ∈ tr, st.ev.1.cause = .ccall → KernelType (st.ev.1.regs.cf .c1).otype := by
  intro st hm hc
  have ht := List.all_eq_true.1 h st.ev (hev st hm)
  rw [typed, hc] at ht
  exact of_decide_eq_true ht

/-- Init sends a message to an activation it has registered, with its default identifier. -/
theorem identifiers_made_one : ∃ tr s msg, msg ∈ s.pending 2 ∧ ((msg.idc = Cap.null ∧ ∃ i, LineMsg i msg) ∨
    ∃ cap, Identifies tr s 2 cap ∧ kernelUnseal cap (2 : Aid) = .ok msg.idc) := by
  obtain ⟨tr, s, hr, hU, hev, hp⟩ := openScript_run (b := debugBuild)
    [(registerEntry, none), (callEntry debugBuild 1 1 2, none)] (fun s => !(s.pending 2).isEmpty)
    (by decide +kernel)
  have hT := typed_run (by decide +kernel) hev
  cases hl : s.pending 2 with
  | nil => simp [hl] at hp
  | cons msg rest =>
    have hm : msg ∈ s.pending 2 := by simp [hl]
    exact ⟨tr, s, msg, hm, identifiers_made hr hU hT 2 msg (.inr hm)⟩

/-! ## A forged identifier -/

/-- A capability sealed with type 100, which is no business of the kernel's. -/
def foreignCap (perms : BitVec 32) (base : BitVec 64) : Cap := ⟨true, true, 100, perms, base, 0x1000, 0⟩

/-- A `ccall` whose `$c1` points at user memory that looks like the activation 2. -/
def forgeEntry : Entry × Option ForeignAct :=
  (⟨userRegs 1 1 (foreignCap Cap.pcc.perms 0x4000) (foreignCap Cap.ddc.perms 0x5000) Cap.null Cap.null, .ccall⟩,
    some ⟨statusAlive, 2⟩)

/-- **An identifier that its receiver has not made**: with types of its own, init makes activation 2 see what it likes. -/
theorem identifier_forged : ∃ tr s, OpenRun debugBuild tr s ∧
    (∀ newer st older, tr = newer ++ st :: older → Unforged debugBuild older st) ∧
    ∃ msg, msg ∈ s.pending 2 ∧ msg.idc ≠ Cap.null ∧
      ¬ ∃ cap, Identifies tr s 2 cap ∧ kernelUnseal cap (2 : Aid) = .ok msg.idc := by
  obtain ⟨tr, s, hr, hU, hev, hp⟩ := openScript_run (b := debugBuild) [(registerEntry, none), forgeEntry]
    (fun s => (s.pending 2).any fun msg => msg.idc != Cap.null &&
      !gives (kernelUnseal (s.kernelActs 2).actDefaultId (2 : Aid)) msg.idc) (by decide +kernel)
  obtain ⟨msg, hm, hmsg⟩ := List.any_eq_true.1 hp
  rw [Bool.and_eq_true, bne_iff_ne, Bool.not_eq_true'] at hmsg
  refine ⟨tr, s, hr, hU, msg, hm, hmsg.1, ?_⟩
  rintro ⟨cap, hi, hu⟩
  cases hi with
  | seals st hst hs =>
    obtain ⟨⟨mem, hc⟩, hsys⟩ := hs.call
    rcases List.mem_pair.1 (hev st hst) with he | he
    · rw [he] at hsys
      exact absurd hsys (by decide)
    · rw [he] at hc
      cases hc
  | default _ he =>
    rw [he, gives_iff.2 hu] at hmsg
    exact absurd hmsg.2 (by decide)

end Kernel
end CheriOS
