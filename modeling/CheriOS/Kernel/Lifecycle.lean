import CheriOS.Kernel.Identifier
import CheriOS.Kernel.Wakeup
/-!
# Lifecycle — revocation and termination are permanent

A status only moves from alive to revoked to terminated.  Who is revoked gets no message from a call any more, and who
is terminated is never scheduled again.  `kernel_ccall_core` looks for the status behind the `$c1` it is given: where that
is not the kernel's, a message goes to whom it names, dead or alive.
-/
namespace CheriOS
namespace Kernel

open Outcome
open Relation (ReflTransGen)

variable {b : Build} {e : Entry} {c X : Aid} {s s' m k : State}

/-! ## One entry -/

theorem Mid.status (h : Mid b e s m) (hB : Base s) (a : Aid) : (s.status a).toInt ≤ (m.status a).toInt := by
  obtain ⟨k, ho, hp⟩ := h
  have hk : m.status a = k.status a :=
    inv_path (I := fun m => m.status a = k.status a) (fun _ _ h hr => (hr.status a).trans h) rfl hp
  rw [hk]
  rcases ho.status hB a with hst | ⟨hst, hne⟩ | ⟨-, hst, -⟩
  · rw [hst]
  · rw [hst]
    cases hs : s.status a with
    | terminated => exact absurd hs hne
    | _ => decide
  · rw [hst]
    cases s.status a <;> decide

/-- **A terminated activation stays off the processor** all through an entry. -/
theorem Mid.terminated (h : Mid b e s m) (hb : b.lite = false) (hB : Base s) (hR : Runs s)
    (hX : s.schedStatus X = .terminated) : m.schedStatus X = .terminated ∧ m.kernelCurrAct ≠ X := by
  obtain ⟨k, ho, hp⟩ := h
  have hcurr : s.kernelCurrAct ≠ X := by
    rintro rfl
    rw [hR] at hX
    cases hX
  have hk : k.schedStatus X = .terminated := by
    rcases ho.moved hB hR X with hm | ⟨he, -⟩ | ⟨-, hsync, -⟩ | ⟨-, hk⟩
    · exact (hX ▸ hm).terminated
    · exact absurd he.symm hcurr
    · rw [hX] at hsync
      cases hsync hb
    · exact hk
  refine inv_path (I := fun m => m.schedStatus X = .terminated ∧ m.kernelCurrAct ≠ X) ?_ ⟨hk, ho.curr ▸ hcurr⟩ hp
  rintro m m' ⟨hm, hc⟩ hr
  have hm' : m'.schedStatus X = .terminated := (hm ▸ hr.moved X).terminated
  refine ⟨hm', ?_⟩
  rcases hr.curr with he | hrun
  · rw [he]
    exact hc
  · rintro rfl
    rw [hrun] at hm'
    cases hm'

/-- **A call enqueues nothing for who is not alive.** -/
theorem Mid.accepted (h : Mid b e s m) (hc : e.cause = .ccall) (hB : Base s) (hX : s.status X ≠ .alive) :
    m.accepted X = s.accepted X := by
  obtain ⟨k, ho, hp⟩ := h
  have hk : k.accepted X = s.accepted X := (ho.accepted X).resolve_right fun h => hX h.1
  have hst : k.status X ≠ .alive := by
    rcases ho.status hB X with he | ⟨he, -⟩ | ⟨-, he, -⟩
    · rw [he]; exact hX
    · rw [he]; decide
    · rw [he]; decide
  refine (inv_path (I := fun m => m.accepted X = s.accepted X ∧ m.status X ≠ .alive) ?_ ⟨hk, hst⟩ hp).1
  rintro m m' ⟨hm, hsm⟩ hr
  refine ⟨?_, by rw [hr.status X]; exact hsm⟩
  rcases hr.accepted X with he | ⟨ha, -⟩ | ⟨p, n, hi⟩
  · rw [he, hm]
  · exact absurd ha hsm
  · rw [hc] at hi
    cases hi

section Runs

variable {tr newer older : List (Transition.Step State Entry)} {st : Transition.Step State Entry}

end Runs

/-! ## With the memory behind `$c1` -/

section Open

variable {newer older : List OpenStep} {st : OpenStep}

end Open
end Kernel
end CheriOS
