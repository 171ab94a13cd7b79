import CheriOS.Kernel.Script
import CheriOS.Kernel.Moves
/-!
# Wakeup — scheduling status and message queues agree

Who waits has nothing to read, and who has something to read and is off the processor is in the run queue.  The
assertions that say so in `msg_pop`, `sched_schedule` and `act_wait` never fail.
-/
namespace CheriOS
namespace Kernel

open Outcome

variable {b : Build} {e : Entry} {c act : Aid} {s m : State}

/-! ## The termination mark -/

/-- **Both marks of a termination**: with its assertions on, the kernel never takes a terminated activation back into
scheduling. -/
def MarkedTerminated (s : State) : Prop := ∀ a, s.status a = .terminated → s.schedStatus a = .terminated

theorem markedTerminated_kept (hb : b.lite = false) : Kept b (fun _ _ => True) MarkedTerminated where
  boot s hs a ha := by
    by_cases h0 : a = 0
    · exact h0 ▸ hs.kernel.2
    by_cases h1 : a = 1
    · rw [h1, hs.init.1] at ha
      cases ha
    · have hge : 2 ≤ a.val := by
        rw [Fin.ext_iff] at h0 h1
        simp only [Fin.val_zero, Fin.val_one] at h0 h1
        omega
      rw [State.status, hs.unused a hge] at ha
      cases ha
  opening e s k hB hR h _ ho a ha := by
    rcases ho.status hB a with hst | ⟨hst, -⟩ | ⟨-, -, hst⟩
    · have hs := h a (hst ▸ ha)
      rcases ho.moved hB hR a with hm | ⟨-, hrun, -⟩ | ⟨-, hsync, -⟩ | ⟨-, hk⟩
      · exact (hs ▸ hm).terminated
      · rw [hs] at hrun
        cases hrun
      · rw [hs] at hsync
        cases hsync hb
      · exact hk
    · rw [ha] at hst
      cases hst
    · exact hst
  routine e c s m _ h hm a ha := (h a (hm.status a ▸ ha) ▸ hm.moved a).terminated

/-! ## The assertions -/

/-- Stops that say the scheduling status and the queue of an activation disagree. -/
def StatusStop (st : Stop) : Prop :=
  st = .assertion .msgPopStatus ∨ st = .assertion .msgPopEmpty ∨ st = .assertion .schedSchedule ∨
    st = .assertion .actWait

theorem Halts.not_statusStop {st : Stop} (h : Halts b c m st) : ¬ StatusStop st := by
  rintro (rfl | rfl | rfl | rfl) <;> cases h

theorem Stuck.not_statusStop {st : Stop} (h : Stuck b e s st) : ¬ StatusStop st := by
  cases h with
  | routine _ _ hh => exact hh.not_statusStop
  | call _ _ hh => exact hh.not_statusStop
  | reply C u _ _ _ => rintro (h | h | h | h) <;> cases h
  | replay C u _ _ _ => rintro (h | h | h | h) <;> cases h
  | terminate act _ _ _ => rintro (h | h | h | h) <;> cases h

/-! ## No lost wake-up -/

def StatusAgrees (s : State) : Prop :=
  ∀ a, (s.schedStatus a = .waiting → msgQueueEmpty a s = true) ∧
    (s.schedStatus a = .schedulable → msgQueueEmpty a s = false)

theorem Base.statusAgrees (h : Base s) : StatusAgrees s := fun a =>
  ⟨fun ha => h.empty_iff.2 (h.waiting_pending a ha), fun ha => by
    rw [Bool.eq_false_iff]
    exact fun he => h.schedulable_pending a ha (h.empty_iff.1 he)⟩

/-- **No lost wake-up.**  In every run, whatever is interleaved: whoever waits has an empty queue and whoever is
schedulable has a message, at every return to user code and at every update inside the entry that comes next; the
kernel returns to a runnable activation that is not terminated, through its own frame; and no entry fails the assertions
of `msg_pop`, `sched_schedule` and `act_wait`. -/
theorem status_agrees (hb : b.lite = false) {tr : List (Transition.Step State Entry)} (hr : KernelRun b tr s) :
    StatusAgrees s ∧ s.schedStatus s.kernelCurrAct = .runnable ∧ s.status s.kernelCurrAct ≠ .terminated ∧
      s.kernelExceptionFramepPtr = s.kernelCurrAct ∧
      ∀ e, Unseals b e s →
        (∀ m, Mid b e s m → StatusAgrees m) ∧ ∀ st, kernelEntry b e s = .error st → ¬ StatusStop st := by
  obtain ⟨hB, hR⟩ := hr.base
  have hmark : MarkedTerminated s := (markedTerminated_kept hb).run_all hr
  refine ⟨hB.statusAgrees, hR, fun ht => ?_, hB.ptr_eq, fun e hA => ⟨fun m hm => ?_, fun st hst => ?_⟩⟩
  · have hterm := hmark _ ht
    rw [hR] at hterm
    cases hterm
  · exact (hm.ready hB).base.statusAgrees
  · exact (stuck_of_stop hA hst hB hR).not_statusStop

/-- Init sends a message to an activation that waits, sleeps, and the message is there. -/
theorem status_agrees_send : ∃ s, s.kernelCurrAct = 2 ∧ StatusAgrees s := by
  obtain ⟨tr, s, hr, -, hp⟩ := scriptSat_run debugBuild [registerEntry, callEntry debugBuild 1 1 2, sleepEntry]
    (fun s => s.kernelCurrAct == 2) (by decide +kernel)
  exact ⟨s, by simpa using hp, (status_agrees rfl hr).1⟩

end Kernel
end CheriOS
