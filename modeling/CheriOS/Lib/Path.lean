import Mathlib.Logic.Relation
import CheriOS.Lib.Outcome
/-!
# Path — programs as paths of small updates

A program on states of a type `σ` that strings small updates together follows a path of the relation `R` of these
updates; it ends with a result at the end of the path, or it stops somewhere on the way for a reason that the state
there gives (`H`).  An invariant of the updates holds all along the path, at the stop as well.
-/
namespace Outcome

open Relation (ReflTransGen)

variable {ε σ : Type} {R : σ → σ → Prop} {H : σ → ε → Prop} {s m : σ} {Q Q' : σ → Prop}

/-- **A program that follows `R` from `s`**: its result is reached and satisfies `Q`, its stop has a reason where it
happens. -/
def Leads (R : σ → σ → Prop) (H : σ → ε → Prop) (s : σ) (r : Except ε σ) (Q : σ → Prop) : Prop :=
  Sat r (fun s' => ReflTransGen R s s' ∧ Q s') (fun e => ∃ m, ReflTransGen R s m ∧ H m e)

theorem Leads.ok (hQ : Q s) : Leads R H s (.ok s) Q := ⟨.refl, hQ⟩

theorem Leads.stop {e : ε} (hH : H s e) : Leads R H s (.error e) Q := ⟨s, .refl, hH⟩

theorem Leads.after {r : Except ε σ} (hm : ReflTransGen R s m) (h : Leads R H m r Q) : Leads R H s r Q :=
  Sat.mono h (fun _ ha => ⟨hm.trans ha.1, ha.2⟩) (fun _ ⟨k, hk, he⟩ => ⟨k, hm.trans hk, he⟩)

theorem Leads.step {r : Except ε σ} (hm : R s m) (h : Leads R H m r Q) : Leads R H s r Q := h.after (.single hm)

theorem Leads.mono {r : Except ε σ} (h : Leads R H s r Q) (hQ : ∀ s', ReflTransGen R s s' → Q s' → Q' s') :
    Leads R H s r Q' :=
  Sat.mono h (fun _ ha => ⟨ha.1, hQ _ ha.1 ha.2⟩) (fun _ he => he)

/-- **Programs in sequence**: the second starts anywhere the first may end. -/
theorem Leads.bind {r : Except ε σ} {f : σ → Except ε σ} (h : Leads R H s r Q)
    (hf : ∀ m, ReflTransGen R s m → Q m → Leads R H m (f m) Q') : Leads R H s (r >>= f) Q' :=
  Sat.bind h (fun m hm => (hf m hm.1 hm.2).after hm.1)

/-- **An invariant of the updates holds along every path.** -/
theorem inv_path {I : σ → Prop} (hs : ∀ s m, I s → R s m → I m) (h : I s) (hm : ReflTransGen R s m) : I m := by
  induction hm with
  | refl => exact h
  | tail _ hstep ih => exact hs _ _ ih hstep

end Outcome
