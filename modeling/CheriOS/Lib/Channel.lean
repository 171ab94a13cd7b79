import CheriOS.Lib.Run
/-!
# Channel — what goes in comes out, in order

A system holds a list of what it has taken and not yet given.  Where each step adds what it takes at the end and gives
from the front, all that a run has taken is all that it has given and what it holds.
-/
namespace Channel

open Transition

variable {σ ι α : Type} {tr : List (Step σ ι)}

/-- **What the steps of a run say**, the oldest first. -/
def history (f : Step σ ι → List α) : List (Step σ ι) → List α
  | [] => []
  | st :: tr => history f tr ++ f st

/-- **Nothing is lost, doubled or overtaken.** -/
theorem conserved {init : σ → Prop} {step : σ → ι → σ → Prop} {taken given : Step σ ι → List α}
    (held : σ → List α) {I : σ → Prop} (hI : ∀ {tr s}, Run init step tr s → I s) (h0 : ∀ s, init s → held s = [])
    (hs : ∀ s i s', I s → step s i s' → held s ++ taken ⟨s, i, s'⟩ = given ⟨s, i, s'⟩ ++ held s') {s : σ}
    (h : Run init step tr s) : history taken tr = history given tr ++ held s := by
  induction h with
  | nil hi => exact (h0 _ hi).symm
  | @cons tr s s' i hr hst ih =>
    calc history taken tr ++ taken ⟨s, i, s'⟩
      _ = history given tr ++ (held s ++ taken ⟨s, i, s'⟩) := by rw [ih, List.append_assoc]
      _ = history given tr ++ (given ⟨s, i, s'⟩ ++ held s') := by rw [hs s i s' (hI hr) hst]
      _ = history given tr ++ given ⟨s, i, s'⟩ ++ held s' := (List.append_assoc ..).symm

end Channel
