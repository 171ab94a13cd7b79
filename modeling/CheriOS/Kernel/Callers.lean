import CheriOS.Kernel.Baton
import CheriOS.Kernel.Mail
/-!
# Callers — how many calls can wait at one callee

A caller stays blocked in its call, so that among the messages of synchronous traffic no two are of one activation.  A
queue holds fifteen of them.  With sixteen activations that call, one callee can have them all against it, and the last
one stops the kernel; from boot on it takes messages of another kind to let so many run.
-/
namespace CheriOS
namespace Kernel

open Outcome
open Relation (ReflTransGen)

variable {b : Build} {e : Entry} {C D callee : Aid} {cs : Cap} {s s' m k : State}
  {tr : List (Transition.Step State Entry)}

/-! ## A call that finds no room -/

/-- **A synchronous call that is not turned away**, to this callee. -/
structure Asks (b : Build) (e : Entry) (callee : Aid) (s : State) : Prop where
  cause : e.cause = .ccall
  traps : ccallTraps (e.regs.cf .c1) (e.regs.cf .c2) = true
  selector : e.regs.mf .v1 = 4
  pair : ∃ cs, Operands b e callee cs ∧ ¬ Refused callee cs s

theorem kernelCcallCore_full (hB : Base s) (hR : Runs s) (ho : Operands b e callee cs) (hreg : s.Registered callee)
    (hn : ¬ Refused callee cs s) :
    kernelCcallCore b 2 (returning e s) = .error (.panic .queueFullCsync) ↔ Full callee s := by
  obtain ⟨hcs, cb, hcb, hd⟩ := ho.unseal hB
  obtain ⟨hp, hst⟩ := not_or.1 hn
  have hr : Ready s.kernelCurrAct (returning e s) := (Ready.of_base hB).quiet returning_quiet
  rw [kernelCcallCore_call hcs hcb hd (Bool.not_eq_false _ ▸ hp) (Decidable.not_not.1 hst)]
  by_cases hroom : ((returning e s).pending callee).length < maxMsg - 1
  · exact ⟨fun h => absurd rfl ((syncCall_work hr.base (hR.quiet returning_quiet) hreg hroom).error h),
      fun h => absurd hroom (Nat.not_lt.2 h)⟩
  · have hi : Base ((returning e s).issue (returning e s).kernelCurrAct) := hr.base.issue hB.curr_ne hr.reg
    have hroomi : ¬ (((returning e s).issue (returning e s).kernelCurrAct).pending callee).length < maxMsg - 1 := hroom
    rw [hr.base.aid_eq callee hreg, msgPush_eq hi hreg, if_neg hroomi]
    exact ⟨fun _ => Nat.not_lt.1 hroom, fun _ => rfl⟩

/-- **The panic of a synchronous call**: it is not turned away, and the queue of its callee is full. -/
theorem kernelEntry_full (hB : Base s) (hR : Runs s) (hA : Unseals b e s) :
    kernelEntry b e s = .error (.panic .queueFullCsync) ↔ ∃ callee, Asks b e callee s ∧ Full callee s := by
  constructor
  · intro h
    rcases kernelEntry_stop hB h with hord | ⟨-, hc, hsel⟩ | ⟨hne, -⟩ | ⟨hne, -⟩
    · exact absurd rfl hord.1
    · rw [kernelEntry_ccall hB hc] at h
      split at h
      case isFalse => cases h
      obtain ⟨callee, cs, hreg, ho⟩ := ccall_operands hA hc ‹_›
      rw [kernelCcall_eq hB, hsel, if_neg (by decide), if_neg (by decide), if_pos rfl] at h
      by_cases hr : Refused callee cs s
      · rw [kernelCcallCore_turned hB ho hr] at h
        cases h
      · exact ⟨callee, ⟨hc, ‹_›, hsel, cs, ho, hr⟩, (kernelCcallCore_full hB hR ho hreg hr).1 h⟩
    · cases hne
    · cases hne
  · rintro ⟨callee, ⟨hc, ht, hsel, cs, ho, hr⟩, hfull⟩
    obtain ⟨callee', cs', hreg, ho'⟩ := ccall_operands hA hc ht
    obtain rfl : callee' = callee := Fin.ext ((actCreateRef_ref ho'.ref).1.symm.trans (actCreateRef_ref ho.ref).1)
    rw [kernelEntry_ccall hB hc, if_pos ht, kernelCcall_eq hB, hsel, if_neg (by decide), if_neg (by decide), if_pos rfl]
    exact (kernelCcallCore_full hB hR ho hreg hr).2 hfull

/-! ## What a step of synchronous traffic sends -/

theorem SyncOnly.deliveredTo {p : BitVec 8} {n : BitVec 64} (hS : SyncOnly e s) (hc : e.cause = .interrupt p n) (D : Aid) :
    deliveredTo p s D = [] := by
  rw [SyncOnly, hc] at hS
  refine List.filter_eq_nil_iff.2 fun i _ hi => ?_
  obtain ⟨hi, hbit, hchild⟩ := delivers_iff.1 (of_decide_eq_true hi).1
  exact hchild (hS i hi hbit)

/-- **One step sends at most one message**, that of its own synchronous call. -/
theorem kernelStep.sync_sends (h : kernelStep b s e s') (hB : Base s) (hR : Runs s) (hT : Tokens s) (hS : SyncOnly e s) :
    (∀ D, s'.accepted D = s.accepted D) ∨ ∃ callee msg, Carries s.kernelCurrAct callee msg ⟨s, e, s'⟩ ∧
      ∀ D, s'.accepted D = if D = callee then s.accepted D ++ [msg] else s.accepted D := by
  by_cases hc : e.cause = .ccall
  · have hent := h.2
    rw [kernelEntry_ccall hB hc] at hent
    split at hent
    case isFalse => cases hent
    obtain ⟨callee, cs, hreg, ho⟩ := ccall_operands h.1 hc ‹_›
    rw [SyncOnly, hc] at hS
    by_cases hr : Refused callee cs s
    · obtain rfl := kernelCcall_turned hB ho hr hent
      exact .inl returning_unsent
    rw [kernelCcall_eq hB, if_neg hS.1, if_neg hS.2] at hent
    split at hent
    · exact .inr ⟨callee, sync_delivers h hB hR hT ho hreg hr hent⟩
    · obtain rfl := Except.ok.inj hent
      exact .inl returning_unsent
  by_cases hi : ∃ p n, e.cause = .interrupt p n
  · obtain ⟨p, n, hi⟩ := hi
    refine .inl fun D => ?_
    obtain ⟨ms, hms, hlines⟩ := ((kernelEntry_interrupt hB hR hi).ok h.2).delivery p n D hi
    rw [hS.deliveredTo hi] at hlines
    cases hlines
    rw [hms, List.append_nil]
  · obtain ⟨k, ho, hpath⟩ := (h.mid hB hR).1
    refine .inl fun D => ?_
    rw [accepted_path hpath hc (fun p n he => hi ⟨p, n, he⟩)]
    exact (ho.accepted D).resolve_right fun hs => hc hs.2

/-- What waits after a step waited before it, or was accepted in it. -/
theorem pending_after {ms : List Msg} (hc : Conserved s) (hc' : Conserved s') (hl : s.loaded D <+: s'.loaded D)
    (ha : s'.accepted D = s.accepted D ++ ms) : s'.pending D <:+ s.pending D ++ ms := by
  obtain ⟨taken, ht⟩ := hl
  refine ⟨taken, List.append_cancel_left (?_ : s.loaded D ++ _ = s.loaded D ++ _)⟩
  rw [← List.append_assoc, ht, ← hc' D, ha, hc D, List.append_assoc]

/-! ## One call of each activation -/

/-- **At most one call of each activation is outstanding**: a message that waits is that of the last call of an activation
which is blocked in it, or terminated, and no two of them are of one activation. -/
structure Outstanding (s : State) : Prop where
  caller : ∀ D, ∀ msg ∈ s.pending D, ∃ C, C ≠ 0 ∧ msg.c1 = tokenCap C (s.expected C) ∧
    (s.schedStatus C = .syncBlock ∨ s.schedStatus C = .terminated)
  once : ∀ D, ((s.pending D).map (·.c1)).Nodup
  apart : ∀ D D', D ≠ D' → ∀ msg ∈ s.pending D, ∀ msg' ∈ s.pending D', msg.c1 ≠ msg'.c1

/-- **The token that is presented has been received**: it is not in a message that waits. -/
def Received (e : Entry) (s : State) : Prop :=
  e.cause = .creturn → (e.regs.cf .c1).tag = true → ∀ D, ∀ msg ∈ s.pending D, msg.c1 ≠ e.regs.cf .c1

/-- **A caller whose message waits stays where it is.** -/
theorem kernelStep.stays_out (h : kernelStep b s e s') (hB : Base s) (hR : Runs s)
    (hC : s.schedStatus C = .syncBlock ∨ s.schedStatus C = .terminated) (hn : ∀ u, ¬ Presents e s C u) :
    s'.schedStatus C = .syncBlock ∨ s'.schedStatus C = .terminated := by
  obtain ⟨k, ho, hp⟩ := (h.mid hB hR).1
  have hk : k.schedStatus C = .syncBlock ∨ k.schedStatus C = .terminated := by
    rcases ho.moved hB hR C with hm | ⟨-, -, hk⟩ | ⟨⟨u, hpres⟩, -, -⟩ | ⟨-, hk⟩
    · rcases hC with hC | hC <;> rw [hC] at hm
      · exact .inl hm.syncBlock
      · exact .inr hm.terminated
    · exact .inl hk
    · exact absurd hpres (hn u)
    · exact .inr hk
  exact hk.imp (syncBlock_path hp) (terminated_path hp)

theorem ne_running (hR : Runs s) (hC : s.schedStatus C = .syncBlock ∨ s.schedStatus C = .terminated) :
    C ≠ s.kernelCurrAct := by
  rintro rfl
  have hrun : s.schedStatus s.kernelCurrAct = .runnable := hR
  rcases hC with hC | hC <;> rw [hrun] at hC <;> cases hC

/-- **The caller of a message stays in its call** in a step that is not its own. -/
structure StaysOut (s s' : State) (msg : Msg) (C : Aid) : Prop where
  kernel : C ≠ 0
  other : C ≠ s.kernelCurrAct
  token : msg.c1 = tokenCap C (s.expected C)
  expected : s'.expected C = s.expected C
  out : s'.schedStatus C = .syncBlock ∨ s'.schedStatus C = .terminated

theorem StaysOut.token_after {msg : Msg} (h : StaysOut s s' msg C) : msg.c1 = tokenCap C (s'.expected C) := by
  rw [h.expected]
  exact h.token

/-- The caller of a message that waits has made no call since, and is answered by nobody. -/
theorem Outstanding.keeps (hO : Outstanding s) (h : kernelStep b s e s') (hB : Base s) (hR : Runs s) (hT : Tokens s)
    (hd : Received e s) {msg : Msg} (hm : msg ∈ s.pending D) : ∃ C, StaysOut s s' msg C := by
  obtain ⟨C, h0, htok, hC⟩ := hO.caller D msg hm
  have hne : C ≠ s.kernelCurrAct := ne_running hR hC
  refine ⟨C, h0, hne, htok, ?_, h.stays_out hB hR hC fun u hp => ?_⟩
  · rcases h.issues hB hR hT C with ⟨he, -⟩ | ⟨u, hi, -⟩
    · exact he
    · exact absurd hi.caller.symm hne
  · -- the token that the check accepts is the one in the message
    have hu := ((hT.replyExpected hp.issued).1 hp.expected).1
    have hc1 : tokenCap C u = e.regs.cf .c1 := by
      have hcap := hp.token
      rw [syncTokenCap_eq] at hcap
      exact Except.ok.inj hcap
    refine hd hp.cause (hc1 ▸ rfl) D msg hm ?_
    rw [htok, hu, hc1]

/-- **A step that sends nothing**: what waits waited before. -/
theorem Outstanding.shrink (hO : Outstanding s) (hold : ∀ D, ∀ msg ∈ s.pending D, ∃ C, StaysOut s s' msg C)
    (hp : ∀ D, s'.pending D <:+ s.pending D) : Outstanding s' := by
  refine ⟨fun D msg hm => ?_, fun D => ?_, fun D D' hne msg hm msg' hm' => ?_⟩
  · obtain ⟨C, hC⟩ := hold D msg ((hp D).subset hm)
    exact ⟨C, hC.kernel, hC.token_after, hC.out⟩
  · exact (hO.once D).sublist ((hp D).sublist.map _)
  · exact hO.apart D D' hne msg ((hp D).subset hm) msg' ((hp D').subset hm')

/-- **A step that sends the message of a call**: it is of the current activation, which had no other. -/
theorem Outstanding.send (hO : Outstanding s) (hB : Base s) (hold : ∀ D, ∀ msg ∈ s.pending D, ∃ C, StaysOut s s' msg C)
    {new : Msg} (hcar : Carries s.kernelCurrAct callee new ⟨s, e, s'⟩)
    (hp : ∀ D, s'.pending D <:+ s.pending D ++ if D = callee then [new] else []) : Outstanding s' := by
  have hcases : ∀ {D msg}, msg ∈ s'.pending D → msg ∈ s.pending D ∨ (D = callee ∧ msg = new) := fun {D msg} hm => by
    refine (List.mem_append.1 ((hp D).subset hm)).imp_right fun hnew => ?_
    split at hnew
    · exact ⟨‹_›, List.mem_singleton.1 hnew⟩
    · cases hnew
  have hnew : ∀ {D msg}, msg ∈ s.pending D → msg.c1 ≠ new.c1 := fun {D msg} hm he => by
    obtain ⟨C, hC⟩ := hold D msg hm
    exact hC.other (tokenCap_inj (hC.token.symm.trans (he.trans hcar.token))).1
  refine ⟨fun D msg hm => ?_, fun D => ?_, fun D D' hne msg hm msg' hm' => ?_⟩
  · rcases hcases hm with hm | ⟨-, rfl⟩
    · obtain ⟨C, hC⟩ := hold D msg hm
      exact ⟨C, hC.kernel, hC.token_after, hC.out⟩
    · exact ⟨s.kernelCurrAct, hB.curr_ne, hcar.token, .inl hcar.issues.blocked⟩
  · refine List.Nodup.sublist ((hp D).sublist.map _) ?_
    rw [List.map_append]
    refine List.Nodup.append (hO.once D) ?_ ?_
    · split <;> simp
    · intro tok hin hin'
      obtain ⟨msg, hm, rfl⟩ := List.mem_map.1 hin
      split at hin'
      · exact hnew hm (by simpa using hin')
      · cases hin'
  · rcases hcases hm with hm | ⟨hD, rfl⟩ <;> rcases hcases hm' with hm' | ⟨hD', rfl⟩
    · exact hO.apart D D' hne msg hm msg' hm'
    · exact hnew hm
    · exact (hnew hm').symm
    · exact absurd (hD.trans hD'.symm) hne

theorem Outstanding.step (hO : Outstanding s) (h : kernelStep b s e s') (hB : Base s) (hR : Runs s) (hT : Tokens s)
    (hc : Conserved s) (hc' : Conserved s') (hS : SyncOnly e s) (hd : Received e s) : Outstanding s' := by
  have hgrows := (h.mid hB hR).1.grows
  have hold : ∀ D, ∀ msg ∈ s.pending D, ∃ C, StaysOut s s' msg C := fun D msg hm => hO.keeps h hB hR hT hd hm
  rcases h.sync_sends hB hR hT hS with hnone | ⟨callee, new, hcar, hacc⟩
  · refine hO.shrink hold fun D => ?_
    have hsuf : s'.pending D <:+ s.pending D ++ [] :=
      pending_after hc hc' (loaded_extends hgrows D) (by rw [hnone, List.append_nil])
    rwa [List.append_nil] at hsuf
  · refine hO.send hB hold hcar fun D => pending_after hc hc' (loaded_extends hgrows D) ?_
    rw [hacc]
    split
    · rfl
    · exact (List.append_nil _).symm

/-- The activations that may be in a call: neither the kernel's nor the one that runs. -/
def State.callers (s : State) : Finset Aid :=
  Finset.univ.filter fun C => C ≠ 0 ∧ C ≠ s.kernelCurrAct ∧ C.val < s.kernelNextAct

theorem mem_callers : C ∈ s.callers ↔ C ≠ 0 ∧ C ≠ s.kernelCurrAct ∧ s.Registered C := by
  rw [State.callers, Finset.mem_filter]
  exact and_iff_right (Finset.mem_univ C)

theorem callers_card (hB : Base s) : s.callers.card + 2 ≤ s.kernelNextAct := by
  have hcurr : s.kernelCurrAct ∉ s.callers := fun h => (mem_callers.1 h).2.1 rfl
  have hzero : (0 : Aid) ∉ insert s.kernelCurrAct s.callers := fun h => by
    rcases Finset.mem_insert.1 h with h | h
    · exact hB.curr_ne h.symm
    · exact (mem_callers.1 h).1 rfl
  have hall : (insert 0 (insert s.kernelCurrAct s.callers)).card ≤ (Finset.range s.kernelNextAct).card := by
    refine Finset.card_le_card_of_injOn Fin.val (fun C hC => ?_) Fin.val_injective.injOn
    rw [Finset.mem_coe, Finset.mem_range]
    rcases Finset.mem_insert.1 hC with rfl | hC
    · exact hB.zero_reg
    rcases Finset.mem_insert.1 hC with rfl | hC
    · exact hB.curr_reg
    · exact (mem_callers.1 hC).2.2
  rwa [Finset.card_insert_of_notMem hzero, Finset.card_insert_of_notMem hcurr, Finset.card_range] at hall

/-- The activation whose call a waiting message is. -/
theorem Outstanding.mem_callers (hO : Outstanding s) (hB : Base s) (hR : Runs s) {msg : Msg} (hm : msg ∈ s.pending D) :
    ∃ C ∈ s.callers, tokenCap C (s.expected C) = msg.c1 := by
  obtain ⟨C, h0, htok, hC⟩ := hO.caller D msg hm
  have hreg : s.Registered C := hB.registered (by rcases hC with hC | hC <;> rw [hC] <;> decide)
  exact ⟨C, Kernel.mem_callers.2 ⟨h0, ne_running hR hC, hreg⟩, htok.symm⟩

/-- **So many calls can wait at one callee** as there are activations beside the kernel's and the one that runs. -/
theorem Outstanding.length_le (hO : Outstanding s) (hB : Base s) (hR : Runs s) (D : Aid) :
    (s.pending D).length + 2 ≤ s.kernelNextAct := by
  have htokens : ((s.pending D).map (·.c1)).toFinset ⊆ s.callers.image fun C => tokenCap C (s.expected C) :=
    fun tok htok => by
      obtain ⟨msg, hm, rfl⟩ := List.mem_map.1 (List.mem_toFinset.1 htok)
      exact Finset.mem_image.2 (hO.mem_callers hB hR hm)
  have hcard := (Finset.card_le_card htokens).trans Finset.card_image_le
  rw [List.toFinset_card_of_nodup (hO.once D), List.length_map] at hcard
  exact (Nat.add_le_add_right hcard 2).trans (callers_card hB)

/-! ## Stretches of synchronous traffic -/

/-- A state of some run in which no message waits. -/
def Idle (b : Build) (s : State) : Prop := (∃ tr, KernelRun b tr s) ∧ ∀ a, s.pending a = []

/-- **A stretch**: a run that goes on from an idle state. -/
abbrev Stretch (b : Build) : List (Transition.Step State Entry) → State → Prop :=
  Transition.Run (Idle b) (kernelStep b)

/-- **Synchronous traffic**: no asynchronous message, and a token is presented by who has received it. -/
def Traffic (tr : List (Transition.Step State Entry)) : Prop :=
  ∀ st ∈ tr, SyncOnly st.ev st.pre ∧ Received st.ev st.pre

theorem Outstanding.of_idle (h : ∀ a, s.pending a = []) : Outstanding s := by
  refine ⟨fun D msg hm => ?_, fun D => ?_, fun D D' _ msg hm => ?_⟩
  · rw [h D] at hm
    cases hm
  · rw [h D]
    exact List.nodup_nil
  · rw [h D] at hm
    cases hm

theorem Stretch.outstanding (hr : Stretch b tr s) (hT : Traffic tr) : (∃ tr', KernelRun b tr' s) ∧ Outstanding s := by
  refine Transition.Run.inv_of (I := fun s => (∃ tr', KernelRun b tr' s) ∧ Outstanding s)
    (C := fun st => SyncOnly st.ev st.pre ∧ Received st.ev st.pre) ?_ ?_ hr hT
  · exact fun s h => ⟨h.1, .of_idle h.2⟩
  · rintro s e s' ⟨⟨tr', hr'⟩, hO⟩ hst ⟨hS, hd⟩
    have hnext : KernelRun b (⟨s, e, s'⟩ :: tr') s' := .cons hr' hst
    exact ⟨⟨_, hnext⟩, hO.step hst hr'.base.1 hr'.base.2 hr'.tokens (conserved_kept.run_all hr') (conserved_kept.run_all hnext) hS hd⟩

/-- **When synchronous traffic finds a queue full**: each activation has at most one call outstanding, so that two fewer
calls wait at a callee than slots are in use; a call stops the kernel exactly where fifteen wait before it; and that
cannot be while sixteen slots are in use, nor when no other message was ever sent. -/
theorem sync_full_iff (hr : Stretch b tr s) (hT : Traffic tr) :
    Outstanding s ∧ (∀ D, (s.pending D).length + 2 ≤ s.kernelNextAct) ∧
    (∀ e, Unseals b e s → (kernelEntry b e s = .error (.panic .queueFullCsync) ↔
      ∃ callee, Asks b e callee s ∧ Full callee s)) ∧
    (s.kernelNextAct ≤ maxMsg ∨ (∃ tr', KernelRun b tr' s ∧ ∀ st ∈ tr', SyncOnly st.ev st.pre) →
      ∀ e, Unseals b e s → kernelEntry b e s ≠ .error (.panic .queueFullCsync)) := by
  obtain ⟨⟨tr', hr'⟩, hO⟩ := hr.outstanding hT
  obtain ⟨hB, hR⟩ := hr'.base
  refine ⟨hO, hO.length_le hB hR, fun e hA => kernelEntry_full hB hR hA, fun hroom e hA hpanic => ?_⟩
  obtain ⟨callee, -, hfull⟩ := (kernelEntry_full hB hR hA).1 hpanic
  rcases hroom with hfew | ⟨tr', hr', hS⟩
  · have hle := (hO.length_le hB hR callee).trans hfew
    unfold Full at hfull
    omega
  · rw [Full, (hr'.idle hS).1 callee] at hfull
    exact absurd hfull (by decide)

/-! ### Callers of one callee -/

/-- As init starts other activations: it registers them and sends each a message, and all wait for the next one. -/
def startScript (n : Nat) : List Entry :=
  List.replicate n registerEntry ++ (List.range n).map (fun i => callEntry debugBuild 1 1 (Fin.ofNat maxActivations (i + 2)))
    ++ List.replicate (n + 1) sleepEntry

/-- A call of activation 2 by whoever runs, then so many waits, for each number of the list. -/
def crowdScript (waits : List Nat) : List Entry :=
  waits.flatMap fun n => callEntry debugBuild 4 1 2 :: List.replicate n sleepEntry

def State.isIdle (s : State) : Bool := (List.finRange maxActivations).all fun a => (s.pending a).isEmpty

theorem isIdle_pending (h : s.isIdle = true) (a : Aid) : s.pending a = [] :=
  List.isEmpty_iff.1 (List.all_eq_true.1 h a (List.mem_finRange a))

theorem crowdScript_mem {waits : List Nat} (h : e ∈ crowdScript waits) :
    e = callEntry debugBuild 4 1 2 ∨ e = sleepEntry := by
  obtain ⟨n, -, hn⟩ := List.mem_flatMap.1 h
  exact (List.mem_cons.1 hn).imp_right List.eq_of_mem_replicate

theorem crowdScript_traffic {waits : List Nat} (h : e ∈ crowdScript waits) (s : State) : SyncOnly e s ∧ Received e s := by
  rcases crowdScript_mem h with rfl | rfl
  · exact ⟨⟨by decide, by decide⟩, nofun⟩
  · exact ⟨trivial, nofun⟩

theorem crowd_run (n : Nat) (waits : List Nat) (p : State → Bool)
    (h : scriptSat debugBuild (startScript n)
      (fun s => s.isIdle && ((crowdScript waits).foldlM (checkedEntry debugBuild) s).any p) = true) :
    ∃ tr s, Stretch debugBuild tr s ∧ Traffic tr ∧ p s = true := by
  obtain ⟨tr₀, s₀, hr, -, hp⟩ := scriptSat_run debugBuild (startScript n) _ h
  obtain ⟨hidle, hp⟩ := Bool.and_eq_true_iff.1 hp
  obtain ⟨s, hs, hp⟩ := (Option.any_eq_true _ _).1 hp
  have hstart : Stretch debugBuild [] s₀ := .nil ⟨⟨tr₀, hr⟩, isIdle_pending hidle⟩
  have hnext : ∀ s e s', checkedEntry debugBuild s e = some s' → kernelStep debugBuild s e s' ∧ True :=
    fun _ _ _ hk => ⟨checkedEntry_step hk, trivial⟩
  obtain ⟨tr, hst, hev, -⟩ := Transition.Run.of_foldlM hnext hstart hs
  refine ⟨tr, s, by simpa using hst, fun st hm => ?_, hp⟩
  have hin : st.ev ∈ crowdScript waits := by
    rw [← List.mem_reverse, ← hev]
    exact List.mem_map_of_mem hm
  exact crowdScript_traffic hin st.pre

/-- Three of four activations call one of them, itself among them, and nobody can stop the kernel. -/
theorem sync_full_iff_three : ∃ tr s, Stretch debugBuild tr s ∧ Traffic tr ∧ (s.pending 2).length = 3 ∧
    s.kernelNextAct = 5 ∧ Outstanding s ∧
    ∀ e, Unseals debugBuild e s → kernelEntry debugBuild e s ≠ .error (.panic .queueFullCsync) := by
  obtain ⟨tr, s, hr, hT, hp⟩ := crowd_run 3 [2, 1, 1]
    (fun s => (s.pending 2).length == 3 && s.kernelNextAct == 5) (by decide +kernel)
  simp only [Bool.and_eq_true, beq_iff_eq] at hp
  obtain ⟨hO, -, -, hnever⟩ := sync_full_iff hr hT
  exact ⟨tr, s, hr, hT, hp.1, hp.2, hO, hnever (.inl (by rw [hp.2]; decide))⟩

def fifteenWaits : List Nat := [2, 1, 1, 1, 1, 1, 1, 2, 1, 1, 1, 2, 1, 2, 0]

/-- **Sixteen activations call one of them**: fifteen calls wait, and the callee's own call, to itself, stops the kernel. -/
theorem sync_full_fails : ∃ tr s, Stretch debugBuild tr s ∧ Traffic tr ∧ (s.pending 2).length = maxMsg - 1 ∧
    kernelEntry debugBuild (callEntry debugBuild 4 1 2) s = .error (.panic .queueFullCsync) := by
  obtain ⟨tr, s, hr, hT, hp⟩ := crowd_run 15 fifteenWaits (fun s => (s.pending 2).length == maxMsg - 1 &&
    match kernelEntry debugBuild (callEntry debugBuild 4 1 2) s with
    | .error (.panic .queueFullCsync) => true
    | _ => false) (by decide +kernel)
  obtain ⟨hlen, hp⟩ := Bool.and_eq_true_iff.1 hp
  refine ⟨tr, s, hr, hT, by simpa using hlen, ?_⟩
  split at hp
  · assumption
  · cases hp

end Kernel
end CheriOS
