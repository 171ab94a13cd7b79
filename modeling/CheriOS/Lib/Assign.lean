import Mathlib.Logic.Function.Basic
/-!
# Assign — a list of assignments to a memory

The assignments are made in order.  A place that none of them names keeps its value, and one that is named has the value
of the last that names it.
-/
namespace Assign

variable {κ β : Type} [DecidableEq κ] {f : κ → β} {k x : κ} {v : β}

/-- `f` after the assignments, the first one first. -/
def assign (f : κ → β) : List (κ × β) → κ → β
  | [] => f
  | (k, v) :: l => assign (Function.update f k v) l

theorem assign_append : ∀ (f : κ → β) (l m : List (κ × β)), assign f (l ++ m) = assign (assign f l) m
  | _, [], _ => rfl
  | f, (k, v) :: l, m => assign_append (Function.update f k v) l m

theorem assign_other : ∀ (l : List (κ × β)) (f : κ → β), (∀ p ∈ l, p.1 ≠ x) → assign f l x = f x
  | [], _, _ => rfl
  | (k, v) :: l, f, h => by
    have hx : x ≠ k := (h (k, v) List.mem_cons_self).symm
    rw [assign, assign_other l _ (fun p hp => h p (List.mem_cons_of_mem _ hp))]
    simp [hx]

/-- **The last assignment to a place wins.** -/
theorem assign_last (f : κ → β) (older newer : List (κ × β)) (h : ∀ p ∈ newer, p.1 ≠ k) :
    assign f (older ++ (k, v) :: newer) k = v := by
  rw [assign_append, assign, assign_other newer _ h]
  exact Function.update_self ..

end Assign
