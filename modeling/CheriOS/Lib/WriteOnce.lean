import CheriOS.Lib.Run
import Mathlib.Logic.Function.Basic
/-!
# WriteOnce — tables whose first entry stays

A table gives each key its value, or none.  Publishing a value for a key that has one changes nothing, so a table only
grows; and over the runs of a system that does nothing else to a table, every value in it is that of the one step that
published it.
-/
namespace WriteOnce

variable {κ β : Type} {t t' t'' : κ → Option β} {k x : κ} {v w : β}

/-- **A table that has grown**: what was there is still there. -/
def Extends (t t' : κ → Option β) : Prop := ∀ k v, t k = some v → t' k = some v

theorem Extends.refl (t : κ → Option β) : Extends t t := fun _ _ h => h

theorem Extends.trans (h : Extends t t') (h' : Extends t' t'') : Extends t t'' := fun k v hk => h' k v (h k v hk)

variable [DecidableEq κ]

/-- The first value published for a key stays. -/
def publish (t : κ → Option β) (k : κ) (v : β) : κ → Option β := Function.update t k (some ((t k).getD v))

theorem publish_eq_some : publish t k v x = some w ↔ t x = some w ∨ (t x = none ∧ x = k ∧ w = v) := by
  rcases eq_or_ne x k with rfl | hx
  · cases ht : t x with
    | none => simp [publish, ht, eq_comm]
    | some u => simp [publish, ht]
  · simp [publish, hx]

theorem publish_extends (t : κ → Option β) (k : κ) (v : β) : Extends t (publish t k v) :=
  fun _ _ h => publish_eq_some.2 (.inl h)

theorem publish_of_some (h : t k = some w) : publish t k v = t := by
  rw [publish, h]
  exact Function.update_eq_self_iff.2 h.symm

/-! ## Runs -/

section Runs

open Transition

variable {σ ι : Type} {init : σ → Prop} {step : σ → ι → σ → Prop} {pub : ι → Option (κ × β)}
  {tr : List (Step σ ι)} {s : σ}

/-- The table after a step that publishes `p`, or nothing. -/
def after (t : κ → Option β) : Option (κ × β) → κ → Option β
  | none => t
  | some (k, v) => publish t k v

theorem after_extends (t : κ → Option β) : ∀ (p : Option (κ × β)), Extends t (after t p)
  | none => Extends.refl t
  | some (k, v) => publish_extends t k v

/-- **What is published stays**, from any step of a run to its end. -/
theorem run_extends (view : σ → κ → Option β)
    (hs : ∀ s i s', step s i s' → view s' = after (view s) (pub i)) {newer older : List (Step σ ι)}
    {st : Step σ ι} (h : Run init step (newer ++ st :: older) s) : Extends (view st.pre) (view s) :=
  Run.between (R := fun s s' => Extends (view s) (view s')) (fun _ _ _ => Extends.trans)
    (fun _ s i s' _ hst => hs s i s' hst ▸ after_extends (view s) (pub i)) h

/-- **What is in the table was published**, by a step that found nothing there. -/
theorem run_published (view : σ → κ → Option β) (h0 : ∀ s, init s → view s = fun _ => none)
    (hs : ∀ s i s', step s i s' → view s' = after (view s) (pub i)) (h : Run init step tr s) (hk : view s k = some v) :
    ∃ st ∈ tr, pub st.ev = some (k, v) ∧ view st.pre k = none := by
  induction h with
  | nil hi => rw [h0 _ hi] at hk; cases hk
  | @cons tr s s' i hr hst ih =>
    rw [hs _ _ _ hst] at hk
    cases hp : pub i with
    | none =>
      rw [hp] at hk
      obtain ⟨st, hm, hst⟩ := ih hk
      exact ⟨st, List.mem_cons_of_mem _ hm, hst⟩
    | some p =>
      rw [hp] at hk
      rcases publish_eq_some.1 hk with hk | ⟨hnone, rfl, rfl⟩
      · obtain ⟨st, hm, hst⟩ := ih hk
        exact ⟨st, List.mem_cons_of_mem _ hm, hst⟩
      · exact ⟨_, List.mem_cons_self, hp, hnone⟩

end Runs
end WriteOnce
