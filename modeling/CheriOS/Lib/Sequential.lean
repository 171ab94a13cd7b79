import CheriOS.Lib.Outcome
import Mathlib.Data.List.Forall2
/-!
# Sequential — an object that is used one request at a time

A sequential object answers a request and changes with it.  What it answers depends on the requests before, in their
order, and on nothing else; so a system that answers as the object does is told by the order it puts its requests in.
-/
namespace Sequential

variable {ι ο σ : Type}

/-- **A sequential object**: the answer to a request in a state, and the state after it. -/
abbrev Object (ι ο σ : Type) := ι → σ → ο × σ

variable (f : Object ι ο σ) {s : σ} {is js : List ι} {i : ι}

/-- The state after a history of requests, the oldest first. -/
def after (s : σ) (is : List ι) : σ := is.foldl (fun s i => (f i s).2) s

/-- The answer to the request that follows a history. -/
def answer (s : σ) (is : List ι) (i : ι) : ο := (f i (after f s is)).1

/-- The answers to a history of requests, the oldest first. -/
def answers (s : σ) : List ι → List ο
  | [] => []
  | i :: is => (f i s).1 :: answers (f i s).2 is

@[simp] theorem after_nil : after f s [] = s := rfl

theorem after_append : after f s (is ++ js) = after f (after f s is) js := List.foldl_append

@[simp] theorem after_concat : after f s (is ++ [i]) = (f i (after f s is)).2 := by
  rw [after_append]
  rfl

/-- **The last answer is the one to the last request.** -/
theorem answers_concat (s : σ) : ∀ (is : List ι) (i : ι), answers f s (is ++ [i]) = answers f s is ++ [answer f s is i]
  | [], i => rfl
  | j :: is, i => by
    have h := answers_concat (f j s).2 is i
    simp only [List.cons_append, answers, h]
    rfl

theorem answers_length (s : σ) : ∀ is : List ι, (answers f s is).length = is.length
  | [] => rfl
  | i :: is => congrArg (· + 1) (answers_length (f i s).2 is)

/-! ## Programs that serve requests -/

open Outcome

variable {ε τ : Type} {f} {run : ι → τ → Except ε (ο × τ)} {R : τ → σ → Prop} {P : ι → Prop} {t : τ}

/-- A program that computes its answers, one request after the other. -/
def serve (run : ι → τ → Except ε (ο × τ)) : τ → List ι → Except ε (List ο × τ)
  | t, [] => .ok ([], t)
  | t, i :: is => do
    let (o, t) ← run i t
    let (os, t) ← serve run t is
    return (o :: os, t)

/-- A request that is answered, and those behind it. -/
theorem serve_cons {p : ο × τ} (h : run i t = .ok p) :
    serve run t (i :: is) = serve run p.2 is >>= fun q => .ok (p.1 :: q.1, q.2) := by
  rw [serve, h]
  rfl

/-- **A program that follows the object at each request, up to `A`, answers as the object does.** -/
theorem serve_agrees {ω : Type} {run : ι → τ → Except ε (ω × τ)} {A : ω → ο → Prop}
    (hrun : ∀ i t s, P i → R t s → Returns (run i t) (fun p => A p.1 (f i s).1 ∧ R p.2 (f i s).2))
    (hP : ∀ i ∈ is, P i) (hR : R t s) :
    Returns (serve run t is) (fun p => List.Forall₂ A p.1 (answers f s is) ∧ R p.2 (after f s is)) := by
  induction is generalizing t s with
  | nil => exact ⟨.nil, hR⟩
  | cons i is ih =>
    refine Sat.bind (hrun i t s (hP i List.mem_cons_self) hR) ?_
    rintro ⟨o, t'⟩ ⟨ho, hR'⟩
    refine Sat.bind (ih (fun j hj => hP j (List.mem_cons_of_mem _ hj)) hR') ?_
    rintro ⟨os, t''⟩ ⟨hos, hR''⟩
    exact ⟨.cons ho hos, hR''⟩

/-- The same, where the answers are those of the object. -/
theorem serve_returns (hrun : ∀ i t s, P i → R t s → Returns (run i t) (fun p => p.1 = (f i s).1 ∧ R p.2 (f i s).2))
    (hP : ∀ i ∈ is, P i) (hR : R t s) :
    Returns (serve run t is) (fun p => p.1 = answers f s is ∧ R p.2 (after f s is)) := by
  refine Sat.mono (serve_agrees hrun hP hR) (fun p hp => ⟨?_, hp.2⟩) (fun _ => id)
  rw [← List.forall₂_eq_eq_eq]
  exact hp.1

/-- **What every request keeps is kept.** -/
theorem serve_inv {I : τ → Prop} (hrun : ∀ i t, I t → Returns (run i t) (fun p => I p.2)) (hI : I t) :
    Returns (serve run t is) (fun p => I p.2) := by
  induction is generalizing t with
  | nil => exact hI
  | cons i is ih =>
    refine Sat.bind (hrun i t hI) ?_
    rintro ⟨o, t'⟩ hI'
    refine Sat.bind (ih hI') ?_
    rintro ⟨os, t''⟩ hI''
    exact hI''

end Sequential
