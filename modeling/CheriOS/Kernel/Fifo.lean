import CheriOS.Kernel.RunQueue
/-!
# Fifo — the message queues as bounded FIFO queues

The ring of an activation stands for the list of its pending messages.  `msg_push` appends to it, `msg_pop` takes its
head, nothing else touches it; so what was loaded, followed by what is pending, is what was accepted.
-/
namespace CheriOS
namespace Kernel

open Outcome
open Relation (ReflTransGen)

variable {b : Build} {e : Entry} {c act dest src : Aid} {s m k : State}

/-! ## The two operations -/

def messageOf (f : RegFrame) (identifier token : Cap) : Msg :=
  ⟨f.mf .a0, f.mf .a1, f.mf .a2, f.cf .c3, f.cf .c4, f.cf .c5, f.mf .v0, identifier, token⟩

/-- **A frame with a message loaded**: the nine fields, and nothing else. -/
structure Holds (f f' : RegFrame) (msg : Msg) : Prop where
  ints : f'.mf .a0 = msg.a0 ∧ f'.mf .a1 = msg.a1 ∧ f'.mf .a2 = msg.a2 ∧ f'.mf .v0 = msg.v0
  caps : f'.cf .c3 = msg.c3 ∧ f'.cf .c4 = msg.c4 ∧ f'.cf .c5 = msg.c5 ∧ f'.cf .idc = msg.idc ∧ f'.cf .c1 = msg.c1
  otherInts : ∀ r, r ≠ .a0 → r ≠ .a1 → r ≠ .a2 → r ≠ .v0 → f'.mf r = f.mf r
  otherCaps : ∀ r, r ≠ .c3 → r ≠ .c4 → r ≠ .c5 → r ≠ .idc → r ≠ .c1 → f'.cf r = f.cf r

theorem loadMsg_holds (f : RegFrame) (msg : Msg) : Holds f (loadMsg f msg) msg where
  ints := by simp [loadMsg]
  caps := by simp [loadMsg]
  otherInts r h0 h1 h2 h3 := by simp [loadMsg, h0, h1, h2, h3]
  otherCaps r h0 h1 h2 h3 h4 := by simp [loadMsg, h0, h1, h2, h3, h4]

/-- **`msg_push` appends where there is room**; in a build without assertions a run queue that has been overfilled may
stop it from waking its receiver. -/
theorem msgPush_room (hB : Base s) (hs : b.lite = false → Sound s) (hd : s.Registered dest) (identifier token : Cap)
    (hr : (s.pending dest).length < maxMsg - 1) :
    (∃ m, msgPush b dest src identifier token s = .ok (0, m) ∧
      m.pending dest = s.pending dest ++ [messageOf (s.kernelExceptionFramep src) identifier token] ∧
      ∀ x, x ≠ dest → m.pending x = s.pending x) ∨
    (b.lite = true ∧ maxActivations ≤ s.sched.squeueAEnd ∧
      msgPush b dest src identifier token s = .error (.outOfBounds .squeueA)) := by
  have hp : ∀ x, _ = _ := fun x => State.accept_pending (x := x)
    (m := messageOf (s.kernelExceptionFramep src) identifier token) (hB.mask_eq dest hd) (hB.ring_wf dest) hr
  rw [msgPush_eq hB hd, if_pos hr]
  split
  · rename_i hov
    have hle : maxActivations ≤ s.sched.squeueAEnd := Nat.le_of_not_lt hov.2
    cases hb : b.lite with
    | true => exact .inr ⟨rfl, hle, rfl⟩
    | false => exact absurd ((hs hb).size_lt hB) hov.2
  · exact .inl ⟨_, rfl, (hp dest).trans (if_pos rfl), fun x hx => (hp x).trans (if_neg hx)⟩

/-- **`msg_push` refuses a full queue** and changes nothing. -/
theorem msgPush_full (hB : Base s) (hd : s.Registered dest) (identifier token : Cap)
    (hr : ¬ (s.pending dest).length < maxMsg - 1) : msgPush b dest src identifier token s = .ok (-1, s) := by
  rw [msgPush_eq hB hd, if_neg hr]

/-- **A dispatch loads the oldest message.** -/
theorem Base.dispatch_loads (hB : Base s) (ha : s.schedStatus act = .schedulable) :
    s.pending act = (s.msgQueues act).msg (s.msgQueues act).start :: (s.dispatch act).pending act ∧
      Holds (s.kernelExceptionFramep act) ((s.dispatch act).kernelExceptionFramep act)
        ((s.msgQueues act).msg (s.msgQueues act).start) := by
  have hreg : s.Registered act := hB.registered (by rw [ha]; decide)
  refine ⟨State.dispatch_pending (hB.mask_eq act hreg) (hB.ring_wf act) (hB.schedulable_pending act ha), ?_⟩
  have hf : (s.dispatch act).kernelExceptionFramep act =
      loadMsg (s.kernelExceptionFramep act) ((s.msgQueues act).msg (s.msgQueues act).start) := by
    simp [State.dispatch, State.load]
  rw [hf]
  exact loadMsg_holds _ _

/-- **`msg_pop` takes the oldest message** and loads exactly its fields. -/
theorem msgPop_spec (hB : Base s) (ha : s.schedStatus act = .schedulable) :
    ∃ msg m, s.pending act = msg :: m.pending act ∧ msgPop b act s = .ok m ∧
      Holds (s.kernelExceptionFramep act) (m.kernelExceptionFramep act) msg ∧
      (∀ x, x ≠ act → m.kernelExceptionFramep x = s.kernelExceptionFramep x) ∧
      ∀ x, x ≠ act → m.pending x = s.pending x := by
  have hemp : empty (s.msgQueues act) = false := by
    rw [Bool.eq_false_iff]
    exact fun he => hB.schedulable_pending act ha (hB.empty_iff.1 he)
  have hpop : msgPop b act s = .ok (s.load act) := by
    simp [msgPop, kernelAssert, ha, hemp, State.load]
  obtain ⟨hpend, hloads⟩ := hB.dispatch_loads ha
  refine ⟨_, s.load act, hpend, hpop, hloads, fun x hx => ?_, fun x hx => ?_⟩
  · simp [State.load, hx]
  · exact State.dispatch_pending_ne (s := s) hx

/-! ## Whole runs -/

/-- **Nothing lost, duplicated or altered**: what was loaded, then what is pending, is what was accepted. -/
def Conserved (s : State) : Prop := ∀ a, s.accepted a = s.loaded a ++ s.pending a

namespace Conserved

theorem same (h : Conserved s) (ha : ∀ a, m.accepted a = s.accepted a) (hl : ∀ a, m.loaded a = s.loaded a)
    (hp : ∀ a, m.pending a = s.pending a) : Conserved m := fun a => by rw [ha, hl, hp, h]

theorem accept (h : Conserved s) (hB : Base s) (hd : s.Registered dest) (hr : (s.pending dest).length < maxMsg - 1)
    {msg : Msg} : Conserved (s.accept dest msg) := by
  intro a
  rw [accept_accepted, accept_loaded, State.accept_pending (hB.mask_eq dest hd) (hB.ring_wf dest) hr]
  split
  · rename_i hae
    rw [hae, h dest, List.append_assoc]
  · exact h a

theorem dispatch (h : Conserved s) (hB : Base s) (ha : s.schedStatus act = .schedulable) : Conserved (s.dispatch act) := by
  have hreg : s.Registered act := hB.registered (by rw [ha]; decide)
  intro a
  rw [dispatch_accepted, dispatch_loaded, h a]
  split
  · rename_i hae
    rw [hae, State.dispatch_pending (hB.mask_eq act hreg) (hB.ring_wf act) (hB.schedulable_pending act ha),
      List.append_assoc]
    rfl
  · rename_i hae
    rw [State.dispatch_pending_ne hae]

theorem quiet (h : Conserved s) (hq : Quiet c s m) : Conserved m := by
  obtain ⟨framep, child, im, timer, rfl, -⟩ := hq
  exact h

theorem deactivate (h : Conserved s) {st : SchedStatus} : Conserved (s.deactivate act st) :=
  h.same (fun a => deactivate_accepted a) (fun a => deactivate_loaded a) (fun _ => rfl)

theorem routine (h : Conserved s) (hr : Ready c s) (hm : Routine b e c s m) : Conserved m := by
  cases hm with
  | quiet hq => exact h.quiet hq
  | accept dest src identifier token hd hroom _ _ => exact h.accept hr.base hd hroom
  | block _ _ _ _ => exact h.deactivate
  | yield _ _ => exact h.same (fun _ => rfl) (fun _ => rfl) (fun _ => rfl)
  | pick => exact h.same picked_accepted picked_loaded (fun a => State.pending_congr (by simp))
  | dispatch act ha => exact h.dispatch hr.base ha
  | switchTo act _ => exact h.same (fun _ => rfl) (fun _ => rfl) (fun _ => rfl)

theorem issue (h : Conserved s) : Conserved (s.issue act) :=
  h.same issue_accepted issue_loaded (fun _ => rfl)

theorem opening (h : Conserved s) (hB : Base s) (ho : Opening b e s k) : Conserved k := by
  have hr := Ready.of_base hB
  cases ho with
  | quiet hq => exact h.quiet hq
  | call hq hs _ _ =>
    cases hs with
    | mk dest identifier _ _ hd _ hroom _ =>
      have hr₀ := hr.quiet hq
      exact ((h.quiet hq).issue.accept (hr₀.base.issue hB.curr_ne hr₀.reg) hd hroom).deactivate
  | reply C u _ _ _ =>
    have hq : Quiet s.kernelCurrAct s (returning e s) := returning_quiet
    exact (h.quiet hq).same answer_accepted answer_loaded (fun _ => rfl)
  | @register s₀ hlt name frame ref id hq _ _ =>
    have hB₀ := (hr.quiet hq).base
    refine (h.quiet hq).same (fun _ => rfl) (fun _ => rfl) (fun a => ?_)
    rw [State.register_pending]
    split
    · rename_i hae
      have hw : s₀.schedStatus a = .waiting := by
        rw [State.schedStatus, hae, hB₀.fresh_next hlt]
        rfl
      exact (hB₀.waiting_pending a hw).symm
    · rfl
  | revoke act hq _ _ _ => exact (h.quiet hq).same (fun _ => rfl) (fun _ => rfl) (fun _ => rfl)
  | terminate act hq _ _ _ =>
    refine (h.quiet hq).same terminate_accepted terminate_loaded (fun a => State.pending_congr ?_)
    rw [State.terminate_eq]

end Conserved

theorem conserved_kept : Kept b (fun _ _ => True) Conserved where
  boot s hs a := by
    rw [hs.pending a]
    simp [State.accepted, State.loaded, hs.hist, List.filterMap_cons, Obs.pushedTo, Obs.poppedBy]
  opening e s k hB hR h _ ho := h.opening hB ho
  routine e c s m hr h hm := h.routine hr hm

/-! ## The refinement -/

/-- **`msg_push` and `msg_pop` on the list of pending messages**, in the state `m`: an append within the bound, a refusal
at it, and the removal of the head. -/
structure FifoOps (b : Build) (m : State) : Prop where
  push : ∀ dest src identifier token, m.Registered dest → (m.pending dest).length < maxMsg - 1 →
    (∃ m', msgPush b dest src identifier token m = .ok (0, m') ∧
      m'.pending dest = m.pending dest ++ [messageOf (m.kernelExceptionFramep src) identifier token] ∧
      ∀ x, x ≠ dest → m'.pending x = m.pending x) ∨
    (b.lite = true ∧ maxActivations ≤ m.sched.squeueAEnd ∧
      msgPush b dest src identifier token m = .error (.outOfBounds .squeueA))
  full : ∀ dest src identifier token, m.Registered dest → ¬ (m.pending dest).length < maxMsg - 1 →
    msgPush b dest src identifier token m = .ok (-1, m)
  pop : ∀ act, m.schedStatus act = .schedulable →
    ∃ msg m', m.pending act = msg :: m'.pending act ∧ msgPop b act m = .ok m' ∧
      Holds (m.kernelExceptionFramep act) (m'.kernelExceptionFramep act) msg ∧
      (∀ x, x ≠ act → m'.kernelExceptionFramep x = m.kernelExceptionFramep x) ∧
      ∀ x, x ≠ act → m'.pending x = m.pending x

theorem fifoOps_of (hB : Base m) (hs : b.lite = false → Sound m) : FifoOps b m where
  push _ _ identifier token hd hr := msgPush_room hB hs hd identifier token hr
  full _ _ identifier token hd hr := msgPush_full hB hd identifier token hr
  pop _ ha := msgPop_spec hB ha

/-- **The message queues refine bounded FIFO queues.**  At every update of every entry of every run, each ring is a list
of at most `MAX_MSG - 1` messages, what an activation has loaded followed by that list is what was accepted for it, and
the two operations act on the list, also where a synchronous call has just made its token. -/
theorem queues_refine_fifo {tr : List (Transition.Step State Entry)} (hr : KernelRun b tr s) (hm : Mid b e s m) :
    (∀ a, (m.pending a).length ≤ maxMsg - 1) ∧ (∀ a, m.accepted a = m.loaded a ++ m.pending a) ∧ FifoOps b m ∧
      FifoOps b (m.issue s.kernelCurrAct) := by
  obtain ⟨hB, hR⟩ := KernelRun.base hr
  have hready := hm.ready hB
  have hI : Base (m.issue s.kernelCurrAct) := hready.base.issue hB.curr_ne hready.reg
  have hsound : b.lite = false → Sound m := fun hb =>
    sound_kept.mid hB hR (sound_kept.run hr fun st _ => noRequeue_of_debug hb) (noRequeue_of_debug hb) hm
  refine ⟨fun a => ?_, conserved_kept.mid hB hR (conserved_kept.run_all hr) trivial hm, fifoOps_of hready.base hsound,
    fifoOps_of hI fun hb => (hsound hb).issue⟩
  exact RingBuffer.contents_length_le (hready.base.ring_wf a)

/-- Init registers an activation and sends it two messages: both wait in order. -/
theorem queues_refine_fifo_send : ∃ s : State, (s.pending 2).length = 2 ∧ s.accepted 2 = s.loaded 2 ++ s.pending 2 := by
  obtain ⟨tr, s, hr, -, hp⟩ := scriptSat_run debugBuild
    [registerEntry, callEntry debugBuild 1 1 2, callEntry debugBuild 1 3 2] (fun s => (s.pending 2).length == 2)
    (by decide +kernel)
  have hm : Mid debugBuild sleepEntry s s := ⟨s, .quiet .refl, .refl⟩
  exact ⟨s, by simpa using hp, (queues_refine_fifo hr hm).2.1 2⟩

end Kernel
end CheriOS
