import Mathlib.Tactic.Common
/-!
# Run — runs of a transition system, with their history

A run is the list of its steps, newest first.  An invariant of the steps is an invariant of the runs; a condition that
every step of a run meets may be used on the way; and a run can be cut at any of its steps.
-/
namespace Transition

variable {σ ι : Type}

/-- One step: the state before it, what it was, the state after it. -/
structure Step (σ ι : Type) where
  pre : σ
  ev : ι
  post : σ

/-- **A run**: its steps, newest first, and the state it reaches. -/
inductive Run (init : σ → Prop) (step : σ → ι → σ → Prop) : List (Step σ ι) → σ → Prop where
  | nil {s : σ} : init s → Run init step [] s
  | cons {tr : List (Step σ ι)} {s s' : σ} {i : ι} : Run init step tr s → step s i s' →
      Run init step (⟨s, i, s'⟩ :: tr) s'

namespace Run

variable {init : σ → Prop} {step : σ → ι → σ → Prop}

/-- **Invariants by steps**, for runs whose steps all meet `C`. -/
theorem inv_of {I : σ → Prop} {C : Step σ ι → Prop} (h0 : ∀ s, init s → I s)
    (hs : ∀ s i s', I s → step s i s' → C ⟨s, i, s'⟩ → I s') {tr : List (Step σ ι)} {s : σ} (h : Run init step tr s)
    (hC : ∀ st ∈ tr, C st) : I s := by
  induction h with
  | nil hi => exact h0 _ hi
  | cons hr hst ih =>
    exact hs _ _ _ (ih (fun st hst => hC st (List.mem_cons_of_mem _ hst))) hst (hC _ List.mem_cons_self)

/-- **Invariants by steps.** -/
theorem inv {I : σ → Prop} (h0 : ∀ s, init s → I s) (hs : ∀ s i s', I s → step s i s' → I s') {tr : List (Step σ ι)}
    {s : σ} (h : Run init step tr s) : I s :=
  inv_of (C := fun _ => True) h0 (fun s i s' hI hst _ => hs s i s' hI hst) h (fun _ _ => trivial)

/-- **Cutting a run at one of its steps.** -/
theorem cut {newer older : List (Step σ ι)} {st : Step σ ι} {s : σ} (h : Run init step (newer ++ st :: older) s) :
    Run init step older st.pre ∧ step st.pre st.ev st.post ∧ Run init step (st :: older) st.post := by
  induction newer generalizing s with
  | nil =>
    cases h with
    | cons hr hst => exact ⟨hr, hst, .cons hr hst⟩
  | cons x newer ih =>
    cases h with
    | cons hr hst => exact ih hr

theorem cut_of_mem {tr : List (Step σ ι)} {st : Step σ ι} {s : σ} (h : Run init step tr s) (hm : st ∈ tr) :
    ∃ newer older, tr = newer ++ st :: older ∧ Run init step older st.pre ∧ step st.pre st.ev st.post := by
  obtain ⟨newer, older, rfl⟩ := List.append_of_mem hm
  exact ⟨newer, older, rfl, (cut h).1, (cut h).2.1⟩

/-- **From an earlier state to a later one**: a relation that every step of the run makes, and that chains. -/
theorem between {R : σ → σ → Prop} (htrans : ∀ s t u, R s t → R t u → R s u)
    (hstep : ∀ tr s i s', Run init step tr s → step s i s' → R s s') {newer older : List (Step σ ι)} {st : Step σ ι}
    {s : σ} (h : Run init step (newer ++ st :: older) s) : R st.pre s := by
  induction newer generalizing s with
  | nil =>
    cases h with
    | cons hr hst => exact hstep _ _ _ _ hr hst
  | cons x newer ih =>
    cases h with
    | cons hr hst => exact htrans _ _ _ (ih hr) (hstep _ _ _ _ hr hst)

/-- **A run without the steps that change nothing** is a run to the same state. -/
theorem filter {p : Step σ ι → Bool} {tr : List (Step σ ι)} {s : σ} (h : Run init step tr s)
    (hp : ∀ st ∈ tr, p st = false → st.post = st.pre) : Run init step (tr.filter p) s := by
  induction h with
  | nil hi => exact .nil hi
  | @cons tr s s' i hr hst ih =>
    have hrest := ih (fun st hm => hp st (List.mem_cons_of_mem _ hm))
    cases hps : p ⟨s, i, s'⟩ with
    | true =>
      rw [List.filter_cons_of_pos hps]
      exact .cons hrest hst
    | false =>
      rw [List.filter_cons_of_neg (by simp [hps])]
      have hsame : s' = s := hp _ List.mem_cons_self hps
      exact hsame ▸ hrest

/-- **A run seen through a map** that takes steps to steps. -/
theorem map {τ κ : Type} {init' : τ → Prop} {step' : τ → κ → τ → Prop} {f : σ → τ} {g : ι → κ}
    (h0 : ∀ s, init s → init' (f s)) (hs : ∀ s i s', step s i s' → step' (f s) (g i) (f s')) {tr : List (Step σ ι)}
    {s : σ} (h : Run init step tr s) :
    Run init' step' (tr.map (fun st => ⟨f st.pre, g st.ev, f st.post⟩)) (f s) := by
  induction h with
  | nil hi => exact .nil (h0 _ hi)
  | cons hr hst ih => exact .cons ih (hs _ _ _ hst)

theorem post_eq {st : Step σ ι} {tr : List (Step σ ι)} {s : σ} (h : Run init step (st :: tr) s) : st.post = s := by
  cases h; rfl

/-- **What computes is a run**: steps made one after the other, each of which meets `C`. -/
theorem of_foldlM {next : σ → ι → Option σ} {C : σ → ι → Prop} (hnext : ∀ s i s', next s i = some s' → step s i s' ∧ C s i)
    {is : List ι} {tr : List (Step σ ι)} {s s' : σ} (h : Run init step tr s) (hs : is.foldlM next s = some s') :
    ∃ tr', Run init step (tr' ++ tr) s' ∧ tr'.map (·.ev) = is.reverse ∧ ∀ st ∈ tr', C st.pre st.ev := by
  induction is generalizing s tr with
  | nil =>
    obtain rfl : s = s' := Option.some.inj hs
    exact ⟨[], h, rfl, fun st hst => (List.not_mem_nil hst).elim⟩
  | cons i is ih =>
    rw [List.foldlM_cons] at hs
    obtain ⟨k, hk, hs⟩ := Option.bind_eq_some_iff.1 hs
    obtain ⟨hstep, hC⟩ := hnext s i k hk
    obtain ⟨tr', hr', hev, hall⟩ := ih (.cons h hstep) hs
    refine ⟨tr' ++ [⟨s, i, k⟩], by simpa using hr', by simp [hev], fun st hst => ?_⟩
    rcases List.mem_append.1 hst with hst | hst
    · exact hall st hst
    · rw [List.mem_singleton.1 hst]
      exact hC

end Run
end Transition
