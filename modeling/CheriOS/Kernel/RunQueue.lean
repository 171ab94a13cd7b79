import CheriOS.Kernel.Moves
import CheriOS.Kernel.Script
/-!
# RunQueue — who is in the run queue

The run queue never holds an activation twice and never one that may not run (`Sound`): no order of entries breaks
that.  That everyone who may run is in it (`Complete`) rests on the slot test of `sched_delete` being right, and
`act_terminate` of an activation that left the queue from its last slot makes that test pass when it should not.
-/
namespace CheriOS
namespace Kernel

open Outcome
open Relation (ReflTransGen)

variable {b : Build} {e : Entry} {c act : Aid} {s s' m k : State}

def CanRun (s : State) (a : Aid) : Prop := s.schedStatus a = .runnable ∨ s.schedStatus a = .schedulable

/-! ## Soundness -/

/-- **The prefix of `squeue_a` is a set, `aqueue` is its index, and only who may run is in it.** -/
structure Sound (s : State) : Prop where
  live : s.sched.dense.Live
  canRun : ∀ a, s.Queued a → CanRun s a

/-- An entry that does not put a queued caller into the queue again: with its assertions on, the kernel checks that. -/
def NoRequeue (b : Build) (e : Entry) (s : State) : Prop := b.lite = true → ∀ C u, Presents e s C u → ¬ s.Queued C

theorem CanRun.ne_waiting (h : CanRun s act) : s.schedStatus act ≠ .waiting := by
  rcases h with h | h <;> rw [h] <;> decide

namespace Sound

theorem same (h : Sound s) (hd : m.sched.dense = s.sched.dense) (hr : ∀ a, CanRun s a → CanRun m a) : Sound m :=
  ⟨hd ▸ h.live, fun a ha => hr a (h.canRun a (by rw [State.Queued, ← hd]; exact ha))⟩

theorem quiet (h : Sound s) (hq : Quiet c s m) : Sound m := by
  obtain ⟨framep, child, im, timer, rfl, -⟩ := hq
  exact h.same rfl (fun _ ha => ha)

theorem accept (h : Sound s) {dest : Aid} {msg : Msg} : Sound (s.accept dest msg) := by
  by_cases hw : s.schedStatus dest = .waiting
  · have hnot : ¬ s.Queued dest := fun hq => (h.canRun dest hq).ne_waiting hw
    have hd : (s.accept dest msg).sched.dense = s.sched.dense.add dest := by rw [State.accept_dense, if_pos hw]
    refine ⟨hd ▸ h.live.add hnot, fun a ha => ?_⟩
    rw [State.Queued, hd, DenseSet.mem_add] at ha
    unfold CanRun
    rw [State.accept_schedStatus]
    rcases ha with rfl | ha
    · rw [if_pos ⟨rfl, hw⟩]
      exact .inr rfl
    · rw [if_neg (fun hx : a = dest ∧ _ => hnot (hx.1 ▸ ha))]
      exact h.canRun a ha
  · refine h.same (by rw [State.accept_dense, if_neg hw]) (fun a ha => ?_)
    unfold CanRun
    rw [State.accept_schedStatus, if_neg (fun hx : a = dest ∧ _ => hw hx.2)]
    exact ha

theorem deactivate (h : Sound s) {st : SchedStatus} : Sound (s.deactivate act st) := by
  have hd : (s.deactivate act st).sched.dense = s.sched.dense.remove act := rfl
  refine ⟨hd ▸ h.live.remove, fun a ha => ?_⟩
  rw [State.Queued, hd] at ha
  have hne : a ≠ act := by
    rintro rfl
    exact DenseSet.not_mem_remove_self h.live ha
  unfold CanRun
  rw [State.deactivate_schedStatus, if_neg hne]
  exact h.canRun a (DenseSet.mem_of_mem_remove ha)

theorem routine (h : Sound s) (hm : Routine b e c s m) : Sound m := by
  cases hm with
  | quiet hq => exact h.quiet hq
  | accept dest src identifier token _ _ _ _ => exact h.accept
  | block _ _ _ _ => exact h.deactivate
  | yield hrun _ =>
    refine h.same rfl (fun a ha => ?_)
    unfold CanRun
    rw [State.setSchedStatus_schedStatus]
    split
    · exact .inr rfl
    · exact ha
  | pick => exact h.same (State.picked_dense s) (fun a ha => by simpa [CanRun] using ha)
  | dispatch act _ =>
    refine h.same rfl (fun a ha => ?_)
    unfold CanRun
    rw [State.dispatch_schedStatus]
    split
    · exact .inl rfl
    · exact ha
  | switchTo act _ => exact h.same rfl (fun _ ha => ha)

theorem issue (h : Sound s) : Sound (s.issue act) := h.same rfl (fun a ha => by simpa [CanRun] using ha)

theorem sent (h : Sound s) (hm : Sent e c s m) : Sound m := by
  cases hm with
  | mk dest identifier _ _ _ _ _ _ => exact h.issue.accept

theorem answer (h : Sound s) (hC : ¬ s.Queued act) : Sound (s.answer act) := by
  have hd : (s.answer act).sched.dense = s.sched.dense.add act := rfl
  refine ⟨hd ▸ h.live.add hC, fun a ha => ?_⟩
  rw [State.Queued, hd, DenseSet.mem_add] at ha
  unfold CanRun
  rw [State.answer_schedStatus]
  split
  · exact .inl rfl
  · rename_i hne
    exact h.canRun a (ha.resolve_left hne)

theorem terminate (h : Sound s) : Sound (s.terminate act) := by
  have hsub : ∀ a, (s.terminate act).Queued a → a ≠ act ∧ s.Queued a := fun a ha => by
    rw [State.Queued, State.terminate_dense] at ha
    split at ha
    · refine ⟨?_, DenseSet.mem_of_mem_remove ha⟩
      rintro rfl
      exact DenseSet.not_mem_remove_self h.live ha
    · rename_i ht
      refine ⟨?_, ha⟩
      rintro rfl
      exact ht (h.live.slotTest ha)
  refine ⟨?_, fun a ha => ?_⟩
  · rw [State.terminate_dense]
    split
    · exact h.live.remove
    · exact h.live
  · obtain ⟨hne, hq⟩ := hsub a ha
    unfold CanRun
    rw [State.terminate_schedStatus, if_neg hne]
    exact h.canRun a hq

theorem opening (h : Sound s) (hB : Base s) (hC : NoRequeue b e s) (ho : Opening b e s k) : Sound k := by
  cases ho with
  | quiet hq => exact h.quiet hq
  | call hq hs _ _ => exact ((h.quiet hq).sent hs).deactivate
  | reply C u hp hst _ =>
    have hq : Quiet s.kernelCurrAct s (returning e s) := returning_quiet
    have hnot : ¬ s.Queued C := by
      cases hb : b.lite with
      | true => exact hC hb C u hp
      | false =>
        intro hqd
        rcases h.canRun C hqd with hr | hr <;> rw [hst hb] at hr <;> cases hr
    exact (h.quiet hq).answer hnot
  | register hlt name frame ref id hq _ _ =>
    have hB₀ := ((Ready.of_base hB).quiet hq).base
    refine (h.quiet hq).same rfl (fun a ha => ?_)
    unfold CanRun
    rw [hB₀.register_schedStatus hlt]
    exact ha
  | revoke act hq _ _ _ =>
    refine (h.quiet hq).same rfl (fun a ha => ?_)
    unfold CanRun
    rw [State.revoke, State.setStatus_schedStatus]
    exact ha
  | terminate act hq _ _ _ => exact (h.quiet hq).terminate

end Sound

theorem sound_kept : Kept b (NoRequeue b) Sound where
  boot s hs := by
    have hq : ∀ i, i < s.sched.squeueAEnd → i = 0 := fun i hi => by rw [hs.size] at hi; omega
    refine ⟨fun i hi => ?_, ?_⟩
    · obtain rfl := hq i hi
      show s.sched.aqueue (s.sched.squeueA 0) = 0
      rw [hs.slot.1, hs.slot.2]
    · rintro a ⟨i, hi, rfl⟩
      obtain rfl := hq i hi
      show CanRun s (s.sched.squeueA 0)
      rw [hs.slot.1]
      exact .inl hs.init.2
  opening e s k hB hR h hC ho := h.opening hB hC ho
  routine e c s m hr h hm := h.routine hm

/-- With its assertions on, the kernel never requeues: the run queue is sound in every run. -/
theorem noRequeue_of_debug (hb : b.lite = false) : NoRequeue b e s := fun hl => by
  rw [hb] at hl
  cases hl

/-- **The run queue never overflows**: the kernel's own activation is not in it. -/
theorem Sound.size_lt (h : Sound s) (hB : Base s) : s.sched.squeueAEnd < maxActivations := by
  have hle : s.sched.dense.size ≤ ((List.finRange maxActivations).erase 0).length := by
    refine h.live.size_le (fun a ha => ?_)
    have hne : a ≠ 0 := by
      rintro rfl
      rcases h.canRun 0 ha with hr | hr <;> rw [hB.zero_terminated] at hr <;> cases hr
    exact (List.mem_erase_of_ne hne).2 (List.mem_finRange a)
  have hlen : ((List.finRange maxActivations).erase 0).length = 31 := by decide
  rw [hlen] at hle
  exact Nat.lt_succ_of_le hle

/-! ## Completeness -/

/-- **Everyone who may run is in the run queue.** -/
def Complete (s : State) : Prop := ∀ a, CanRun s a → s.Queued a

/-- **An entry the slot test is right for**: `act_terminate` finds an activation in its slot only if that may run. -/
def Clean (b : Build) (e : Entry) (s : State) : Prop :=
  (∀ X, Terminates b e s X → s.SlotTest X → CanRun s X) ∧ NoRequeue b e s

namespace Complete

theorem same (h : Complete s) (hd : m.sched.dense = s.sched.dense) (hr : ∀ a, CanRun m a → CanRun s a) : Complete m :=
  fun a ha => by
    rw [State.Queued, hd]
    exact h a (hr a ha)

theorem quiet (h : Complete s) (hq : Quiet c s m) : Complete m := by
  obtain ⟨framep, child, im, timer, rfl, -⟩ := hq
  exact h.same rfl (fun _ ha => ha)

theorem accept (h : Complete s) {dest : Aid} {msg : Msg} : Complete (s.accept dest msg) := by
  intro a ha
  unfold CanRun at ha
  rw [State.accept_schedStatus] at ha
  rw [State.Queued, State.accept_dense]
  by_cases hw : s.schedStatus dest = .waiting
  · rw [if_pos hw, DenseSet.mem_add]
    by_cases hae : a = dest
    · exact .inl hae
    · rw [if_neg (fun hx : a = dest ∧ _ => hae hx.1)] at ha
      exact .inr (h a ha)
  · rw [if_neg hw]
    rw [if_neg (fun hx : a = dest ∧ _ => hw hx.2)] at ha
    exact h a ha

theorem deactivate (h : Complete s) (hs : Sound s) (hr : CanRun s act) {st : SchedStatus} (hst : st ≠ .runnable)
    (hst' : st ≠ .schedulable) : Complete (s.deactivate act st) := by
  intro a ha
  unfold CanRun at ha
  rw [State.deactivate_schedStatus] at ha
  have hd : (s.deactivate act st).sched.dense = s.sched.dense.remove act := rfl
  rw [State.Queued, hd, DenseSet.mem_remove hs.live (h act hr)]
  by_cases hae : a = act
  · rw [if_pos hae] at ha
    exact absurd ha (by simp [hst, hst'])
  · rw [if_neg hae] at ha
    exact ⟨hae, h a ha⟩

theorem routine (h : Complete s) (hs : Sound s) (hm : Routine b e c s m) : Complete m := by
  cases hm with
  | quiet hq => exact h.quiet hq
  | accept dest src identifier token _ _ _ _ => exact h.accept
  | block hrun _ _ _ => exact h.deactivate hs (.inl hrun) (by decide) (by decide)
  | yield hrun _ =>
    refine h.same rfl (fun a ha => ?_)
    unfold CanRun at ha ⊢
    rw [State.setSchedStatus_schedStatus] at ha
    split at ha
    · rename_i hae
      exact .inl (hae ▸ hrun)
    · exact ha
  | pick => exact h.same (State.picked_dense s) (fun a ha => by simpa [CanRun] using ha)
  | dispatch act hst =>
    refine h.same rfl (fun a ha => ?_)
    unfold CanRun at ha ⊢
    rw [State.dispatch_schedStatus] at ha
    split at ha
    · rename_i hae
      exact .inr (hae ▸ hst)
    · exact ha
  | switchTo act _ => exact h.same rfl (fun _ ha => ha)

theorem issue (h : Complete s) : Complete (s.issue act) := h.same rfl (fun a ha => by simpa [CanRun] using ha)

theorem sent (h : Complete s) (hm : Sent e c s m) : Complete m := by
  cases hm with
  | mk dest identifier _ _ _ _ _ _ => exact h.issue.accept

theorem answer (h : Complete s) : Complete (s.answer act) := by
  intro a ha
  unfold CanRun at ha
  rw [State.answer_schedStatus] at ha
  have hd : (s.answer act).sched.dense = s.sched.dense.add act := rfl
  rw [State.Queued, hd, DenseSet.mem_add]
  by_cases hae : a = act
  · exact .inl hae
  · rw [if_neg hae] at ha
    exact .inr (h a ha)

/-- **`act_terminate` removes exactly the activation it names**, where the slot test is right. -/
theorem terminate_mem (h : Complete s) (hs : Sound s) (hX : s.SlotTest act → CanRun s act) (a : Aid) :
    (s.terminate act).Queued a ↔ a ≠ act ∧ s.Queued a := by
  rw [State.Queued, State.terminate_dense]
  split
  · rename_i ht
    exact DenseSet.mem_remove hs.live (h act (hX ht))
  · rename_i ht
    refine ⟨fun ha => ⟨?_, ha⟩, fun ha => ha.2⟩
    rintro rfl
    exact ht (hs.live.slotTest ha)

theorem terminate (h : Complete s) (hs : Sound s) (hX : s.SlotTest act → CanRun s act) : Complete (s.terminate act) := by
  intro a ha
  rw [h.terminate_mem hs hX]
  unfold CanRun at ha
  rw [State.terminate_schedStatus] at ha
  by_cases hae : a = act
  · rw [if_pos hae] at ha
    rcases ha with ha | ha <;> cases ha
  · rw [if_neg hae] at ha
    exact ⟨hae, h a ha⟩

theorem opening (h : Complete s) (hs : Sound s) (hB : Base s) (hR : Runs s) (hC : Clean b e s) (ho : Opening b e s k) :
    Complete k := by
  cases ho with
  | quiet hq => exact h.quiet hq
  | call hq hsent _ _ =>
    have hrun := hsent.runnable (hR.quiet_eq hq)
    exact ((h.quiet hq).sent hsent).deactivate ((hs.quiet hq).sent hsent) (.inl hrun) (by decide) (by decide)
  | reply C u hp hst _ =>
    have hq : Quiet s.kernelCurrAct s (returning e s) := returning_quiet
    exact (h.quiet hq).answer
  | register hlt name frame ref id hq _ _ =>
    have hB₀ := ((Ready.of_base hB).quiet hq).base
    refine (h.quiet hq).same rfl (fun a ha => ?_)
    unfold CanRun at ha
    rw [hB₀.register_schedStatus hlt] at ha
    exact ha
  | revoke act hq _ _ _ =>
    refine (h.quiet hq).same rfl (fun a ha => ?_)
    unfold CanRun at ha
    rw [State.revoke, State.setStatus_schedStatus] at ha
    exact ha
  | @terminate s₀ act hq ht _ _ =>
    refine (h.quiet hq).terminate (hs.quiet hq) (fun hslot => ?_)
    have hcan : CanRun s act := hC.1 act ht (by rwa [State.SlotTest, ← hq.sched])
    unfold CanRun
    rw [hq.schedStatus]
    exact hcan

end Complete

theorem complete_kept : Kept b (Clean b) (fun s => Sound s ∧ Complete s) where
  boot s hs := by
    refine ⟨sound_kept (b := b) |>.boot s hs, fun a ha => ?_⟩
    have h1 : a = 1 := by
      by_contra h1
      have hst : s.schedStatus a = .terminated ∨ s.schedStatus a = .waiting := by
        by_cases h0 : a = 0
        · exact .inl (h0 ▸ hs.kernel.2)
        · have hge : 2 ≤ a.val := by
            rw [Fin.ext_iff] at h0 h1
            simp only [Fin.val_zero, Fin.val_one] at h0 h1
            omega
          exact .inr (by rw [State.schedStatus, hs.unused a hge]; rfl)
      rcases ha with ha | ha <;> rcases hst with hst | hst <;> rw [hst] at ha <;> cases ha
    refine ⟨0, ?_, ?_⟩
    · show 0 < s.sched.squeueAEnd
      rw [hs.size]
      decide
    · show s.sched.squeueA 0 = a
      rw [hs.slot.1, h1]
  opening e s k hB hR h hC ho := ⟨h.1.opening hB hC.2 ho, h.2.opening h.1 hB hR hC ho⟩
  routine e c s m hr h hm := ⟨h.1.routine hm, h.2.routine h.1 hm⟩

/-! ## The invariant, field by field -/

/-- **The representation invariant of the run queue.** -/
structure QueueOk (s : State) : Prop where
  nodup : ∀ i < s.sched.squeueAEnd, ∀ j < s.sched.squeueAEnd, s.sched.squeueA i = s.sched.squeueA j → i = j
  bound : s.sched.squeueAEnd ≤ maxActivations
  inverse : ∀ i < s.sched.squeueAEnd, s.sched.aqueue (s.sched.squeueA i) = i
  mem_iff : ∀ a, (∃ i < s.sched.squeueAEnd, s.sched.squeueA i = a) ↔
    s.schedStatus a = .runnable ∨ s.schedStatus a = .schedulable

theorem queueOk_of (hB : Base s) (hs : Sound s) (hc : Complete s) : QueueOk s where
  nodup _ hi _ hj he := hs.live.inj hi hj he
  bound := (hs.size_lt hB).le
  inverse := hs.live
  mem_iff a := ⟨hs.canRun a, hc a⟩

theorem QueueOk.sound (h : QueueOk s) : Sound s := ⟨h.inverse, fun a ha => (h.mem_iff a).1 ha⟩

theorem QueueOk.complete (h : QueueOk s) : Complete s := fun a ha => (h.mem_iff a).2 ha

/-! ## Picking -/

theorem schedPicknext_queued (h : 0 < s.sched.squeueAEnd) : s.Queued (schedPicknext s).1 := by
  unfold schedPicknext
  rw [if_neg (by omega)]
  exact ⟨_, Nat.mod_lt _ h, rfl⟩

/-- **`sched_reschedule(0)` finds someone to run** whenever anyone may. -/
theorem schedReschedule_finds (hB : Base s) (hs : Sound s) (hc : Complete s) (hr : ∃ a, CanRun s a) :
    ∃ m, schedReschedule b 0 s = .ok m := by
  obtain ⟨a, ha⟩ := hr
  have hpick := hs.canRun _ (schedPicknext_queued (DenseSet.pos_of_mem (hc a ha)))
  unfold schedReschedule
  rw [if_pos rfl]
  show ∃ m, tryRun b _ _ s.picked = .ok m
  rcases hpick with hrun | hsch
  · have h0 : (schedPicknext s).1 ≠ 0 := hB.ne_zero (by rw [hrun]; decide)
    exact ⟨_, tryRun_runnable h0 (by rw [State.picked_schedStatus, hrun]) _⟩
  · have h0 : (schedPicknext s).1 ≠ 0 := hB.ne_zero (by rw [hsch]; decide)
    exact ⟨_, tryRun_schedulable hB.picked h0 (by rw [State.picked_schedStatus, hsch]) _⟩

/-! ## Stops -/

/-- Where the routine part stops on a sound and complete queue: nobody is left to run, or the queue is not the cause. -/
theorem Halts.queue {st : Stop} (h : Halts b c m st) (hB : Base m) (hs : Sound m) (hc : Complete m) :
    st ≠ .outOfBounds .squeueA ∧ st ≠ .assertion .qdel ∧ (st = .freeze .nothingToRun → ∀ a, ¬ CanRun m a) := by
  have hlt := hs.size_lt hB
  cases h with
  | overflow act _ hle => exact absurd hlt (Nat.not_lt_of_le hle)
  | underflow hrun h0 =>
    have hpos : 0 < m.sched.squeueAEnd := DenseSet.pos_of_mem (hc c (.inl hrun))
    omega
  | stale _ hrun ht => exact absurd (hs.live.slotTest (hc c (.inl hrun))) ht
  | nothingToRun hp =>
    refine ⟨by decide, by decide, fun _ a ha => ?_⟩
    have hpos : 0 < m.sched.squeueAEnd := DenseSet.pos_of_mem (hc a ha)
    rcases hp with ⟨h0, -⟩ | ⟨hidx, h0⟩
    · omega
    · rcases hs.canRun 0 ⟨_, hidx, h0⟩ with hr | hr <;> rw [hB.zero_terminated] at hr <;> cases hr
  | unrunnable act _ _ _ _ => exact ⟨by decide, by decide, fun he => by cases he⟩
  | freeze why hne => exact ⟨by simp, by simp, fun he => absurd (Stop.freeze.inj he) hne⟩
  | timer | trap | panic _ | intChild | actName => exact ⟨by simp, by simp, fun he => by cases he⟩

theorem Stuck.queue {st : Stop} (h : Stuck b e s st) (hB : Base s) (hR : Runs s) (hs : Sound s) (hc : Complete s)
    (hC : Clean b e s) :
    st ≠ .outOfBounds .squeueA ∧ st ≠ .assertion .qdel ∧
      (st = .freeze .nothingToRun → ∃ m, Mid b e s m ∧ ∀ a, ¬ CanRun m a) := by
  cases h with
  | routine ho hp hh =>
    have hm : Mid b e s _ := ⟨_, ho, hp⟩
    obtain ⟨hsm, hcm⟩ := complete_kept.mid hB hR ⟨hs, hc⟩ hC hm
    obtain ⟨h1, h2, h3⟩ := hh.queue (hm.ready hB).base hsm hcm
    exact ⟨h1, h2, fun he => ⟨_, hm, h3 he⟩⟩
  | call hq hsent hh =>
    have hr := ((Ready.of_base hB).quiet hq).sent hB.curr_ne hsent
    have hrun := hsent.runnable (hR.quiet_eq hq)
    obtain ⟨h1, h2, h3⟩ := hh.queue hr.base ((hs.quiet hq).sent hsent) ((hc.quiet hq).sent hsent)
    exact ⟨h1, h2, fun he => absurd (.inl hrun) (h3 he _)⟩
  | reply C u _ _ hle => exact absurd (hs.size_lt hB) (Nat.not_lt_of_le hle)
  | replay C u _ _ _ => exact ⟨by simp, by simp, fun he => by cases he⟩
  | terminate act ht hslot h0 =>
    have hpos : 0 < s.sched.squeueAEnd := DenseSet.pos_of_mem (hc act (hC.1 act ht hslot))
    omega

/-! ## What goes wrong otherwise -/

theorem kernelEntry_terminate (hB : Base s) (ht : Terminates b e s act) (hne : act ≠ s.kernelCurrAct)
    (h0 : 0 < s.sched.squeueAEnd) :
    kernelEntry b e s = .ok (kernelSkipInstr s.kernelCurrAct (setV0 0 ((saved e s).terminate act))) := by
  obtain ⟨⟨mem, hc⟩, hsys, ha⟩ := ht
  have ha' : ctrlAid b (e.regs.cf .c3) (saved e s) = .ok act := ha
  have hslot : ¬ ((saved e s).SlotTest act ∧ (saved e s).sched.squeueAEnd = 0) := fun h => by
    have h' : s.sched.squeueAEnd = 0 := h.2
    omega
  have hcurr : ¬ act = (saved e s).kernelCurrAct := hne
  rw [kernelEntry_syscall hB hc]
  simp only [saved_frame hB, hsys, syscallDemux, syscallActTerminate, actTerminate_eq ha', if_neg hslot, ok_bind,
    if_neg hcurr]
  rfl

/-- **The slot test gone stale**: terminating an activation that is not queued takes the last entry of the queue out,
which still may run. -/
theorem unclean_breaks (hb : b.lite = false) (hB : Base s) (hR : Runs s) (hq : QueueOk s) (hst : kernelStep b s e s')
    (hC : ¬ Clean b e s) : ¬ QueueOk s' := by
  have hX : ∃ X, Terminates b e s X ∧ s.SlotTest X ∧ ¬ CanRun s X := by
    by_contra hno
    refine hC ⟨fun X ht hslot => by_contra fun hn => hno ⟨X, ht, hslot, hn⟩, noRequeue_of_debug hb⟩
  obtain ⟨X, ht, hslot, hn⟩ := hX
  have hpos : 0 < s.sched.squeueAEnd := DenseSet.pos_of_mem (hq.complete _ (.inl hR))
  have hne : X ≠ s.kernelCurrAct := by
    rintro rfl
    exact hn (.inl hR)
  have hs' := kernelEntry_terminate hB ht hne hpos
  rw [hst.2] at hs'
  obtain rfl := Except.ok.inj hs'
  have hd : (kernelSkipInstr s.kernelCurrAct (setV0 0 ((saved e s).terminate X))).sched.dense = s.sched.dense.remove X :=
    (State.terminate_dense (saved e s) X).trans (if_pos hslot)
  have hlast : s.Queued (s.sched.squeueA (s.sched.squeueAEnd - 1)) := DenseSet.last_mem hpos
  have hcan := hq.sound.canRun _ hlast
  set L := s.sched.squeueA (s.sched.squeueAEnd - 1) with hL
  have hLX : L ≠ X := fun he => hn (he ▸ hcan)
  intro hq'
  have hcan' : CanRun (kernelSkipInstr s.kernelCurrAct (setV0 0 ((saved e s).terminate X))) L := by
    show CanRun ((saved e s).terminate X) L
    unfold CanRun
    rw [State.terminate_schedStatus, if_neg hLX]
    exact hcan
  have hmem := hq'.complete L hcan'
  rw [State.Queued, hd] at hmem
  have hgone := (DenseSet.mem_remove_stale hq.sound.live hpos hslot (fun hm => hn (hq.sound.canRun X hm))).1 hmem
  exact hgone.1 rfl

/-- **The run queue along runs.**  In every run whose entries are clean the run queue satisfies its representation
invariant, at every return to user code and at every update of the clean entry that comes next; there
`sched_reschedule(0)` finds someone to run whenever anyone may, `act_terminate` takes out exactly the activation it
names, and the entry neither leaves `squeue_a` nor fails the assertion of `QDEL`, nor reports that nothing is left to
run while anyone may.  With the assertions on, a run in which the invariant lasts has only clean entries. -/
theorem queueOk_runs {tr : List (Transition.Step State Entry)} (hr : KernelRun b tr s) :
    ((∀ st ∈ tr, Clean b st.ev st.pre) → QueueOk s ∧ ∀ e, Unseals b e s → Clean b e s →
      (∀ m, Mid b e s m → QueueOk m ∧ ((∃ a, CanRun m a) → ∃ m', schedReschedule b 0 m = .ok m')) ∧
      (∀ X, Terminates b e s X → ∃ ret k, actTerminate b (e.regs.cf .c3) s = .ok (ret, k) ∧
        ∀ a, k.Queued a ↔ a ≠ X ∧ s.Queued a) ∧
      (∀ st, kernelEntry b e s = .error st → st ≠ .outOfBounds .squeueA ∧ st ≠ .assertion .qdel ∧
        (st = .freeze .nothingToRun → ∃ m, Mid b e s m ∧ ∀ a, ¬ CanRun m a))) ∧
    (b.lite = false → (∀ st ∈ tr, QueueOk st.post) → ∀ st ∈ tr, Clean b st.ev st.pre) := by
  obtain ⟨hB, hR⟩ := KernelRun.base hr
  refine ⟨fun hC => ?_, fun hb hok st hst => ?_⟩
  · obtain ⟨hs, hc⟩ := complete_kept.run hr hC
    refine ⟨queueOk_of hB hs hc, fun e hA hCe => ⟨fun m hm => ?_, fun X hX => ?_, fun st hst => ?_⟩⟩
    · have hBm := (hm.ready hB).base
      obtain ⟨hsm, hcm⟩ := complete_kept.mid hB hR ⟨hs, hc⟩ hCe hm
      exact ⟨queueOk_of hBm hsm hcm, schedReschedule_finds hBm hsm hcm⟩
    · have hslot : ¬ (s.SlotTest X ∧ s.sched.squeueAEnd = 0) := fun h => by
        have hpos : 0 < s.sched.squeueAEnd := DenseSet.pos_of_mem (hc X (hCe.1 X hX h.1))
        omega
      exact ⟨_, _, by rw [actTerminate_eq hX.2.2, if_neg hslot], hc.terminate_mem hs (hCe.1 X hX)⟩
    · exact (stuck_of_stop hA hst hB hR).queue hB hR hs hc hCe
  · obtain ⟨newer, older, rfl, hpre, hstep⟩ := hr.cut_of_mem hst
    obtain ⟨hBp, hRp⟩ := KernelRun.base hpre
    have hqpre : QueueOk st.pre := by
      cases hpre with
      | nil hboot =>
        obtain ⟨bi, hbi⟩ := hboot
        have hk := complete_kept (b := b) |>.boot _ (cheriosMain_booted hbi)
        exact queueOk_of hBp hk.1 hk.2
      | cons hr' hst' => exact hok _ (List.mem_append_right _ (List.mem_cons_of_mem _ List.mem_cons_self))
    exact by_contra fun hn => unclean_breaks hb hBp hRp hqpre hstep hn (hok st hst)

/-- An entry that is not `act_terminate` is clean where the assertions are on. -/
theorem clean_of_sysn (hb : b.lite = false) (h : sysnOf (e.regs.mf .v0) ≠ some .actTerminate) : Clean b e s :=
  ⟨fun _ ht => absurd ht.2.1 h, noRequeue_of_debug hb⟩

/-- Init registers an activation, sends it a message and sleeps: the activation that was woken runs, and is queued. -/
theorem queueOk_runs_send : ∃ s, s.kernelCurrAct = 2 ∧ QueueOk s := by
  obtain ⟨tr, s, hr, hev, hp⟩ := scriptSat_run debugBuild [registerEntry, callEntry debugBuild 1 1 2, sleepEntry]
    (fun s => s.kernelCurrAct == 2) (by decide +kernel)
  have hclean : ∀ st ∈ tr, Clean debugBuild st.ev st.pre := fun st hst => by
    have hmem : st.ev ∈ tr.map (·.ev) := List.mem_map_of_mem hst
    rw [hev] at hmem
    simp only [List.reverse_cons, List.reverse_nil, List.nil_append, List.cons_append, List.mem_cons,
      List.not_mem_nil, or_false] at hmem
    apply clean_of_sysn rfl
    rcases hmem with he | he | he <;> rw [he] <;> decide
  exact ⟨s, by simpa using hp, ((queueOk_runs hr).1 hclean).1⟩

/-- Init registers an activation, sends it a message and sleeps; the activation answers and waits; init terminates it. -/
def staleScript (b : Build) : List Entry :=
  [registerEntry, callEntry b 1 1 2, sleepEntry, creturnEntry Cap.null, terminateEntry b 2]

/-- After that script init runs but is not in the run queue, and `sched_reschedule(0)` has nothing to run. -/
theorem queueOk_fails : ∃ tr s, KernelRun debugBuild tr s ∧ s.schedStatus 1 = .runnable ∧ ¬ s.Queued 1 ∧ ¬ QueueOk s ∧
    schedReschedule debugBuild 0 s = .error (.freeze .nothingToRun) := by
  obtain ⟨tr, s, hr, -, hp⟩ := scriptSat_run debugBuild (staleScript debugBuild)
    (fun s => s.schedStatus 1 == .runnable && s.sched.squeueAEnd == 0) (by decide +kernel)
  obtain ⟨hrun, hend⟩ := Bool.and_eq_true_iff.1 hp
  rw [beq_iff_eq] at hrun hend
  have hnot : ¬ s.Queued 1 := fun ⟨i, hi, _⟩ => by
    have hi' : i < s.sched.squeueAEnd := hi
    omega
  refine ⟨tr, s, hr, hrun, hnot, fun hq => hnot (hq.complete 1 (.inl hrun)), ?_⟩
  unfold schedReschedule schedPicknext
  rw [if_pos rfl, if_pos hend]
  exact tryRun_zero _

end Kernel
end CheriOS
