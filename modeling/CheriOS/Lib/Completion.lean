import Mathlib.Data.List.Basic
import Mathlib.Logic.Function.Basic
/-!
# Completion — requests that are answered when they complete

A service takes requests from several sessions.  The requests of a session complete in order, each with a result, and the
completions are processed in the order in which they happened.  The ledger says what is to be answered when; nothing is
lost or answered twice, and every session gets its answers in the order of its requests.
-/
namespace Completion

variable {σ τ κ : Type} [DecidableEq σ]

/-- What happens: a request of a session, with what is needed to answer it; the next request of a session completes,
with a result; a completion is processed. -/
inductive Event (σ τ κ : Type) where
  | request (x : σ) (t : τ)
  | complete (x : σ) (k : κ)
  | process

/-- An answer: whose request, what came with it, and its result. -/
structure Answer (σ τ κ : Type) where
  session : σ
  token : τ
  result : κ
  deriving DecidableEq

/-- The requests that have not completed, and the completions that have not been processed. -/
structure Ledger (σ τ κ : Type) where
  waiting : σ → List τ
  done : List (Answer σ τ κ)

namespace Ledger

def empty : Ledger σ τ κ := ⟨fun _ => [], []⟩

/-- **What is to be answered at an event**, and the ledger after it. -/
def next (l : Ledger σ τ κ) : Event σ τ κ → Option (Option (Answer σ τ κ) × Ledger σ τ κ)
  | .request x t => some (none, { l with waiting := Function.update l.waiting x (l.waiting x ++ [t]) })
  | .complete x k =>
    match l.waiting x with
    | [] => none
    | t :: rest => some (none, ⟨Function.update l.waiting x rest, l.done ++ [⟨x, t, k⟩]⟩)
  | .process =>
    match l.done with
    | [] => none
    | a :: rest => some (some a, { l with done := rest })

def owed (l : Ledger σ τ κ) (x : σ) : List τ := (l.done.filter (·.session = x)).map (·.token) ++ l.waiting x

variable {l l' : Ledger σ τ κ} {e : Event σ τ κ} {r : Option (Answer σ τ κ)}

def requested (x : σ) : Event σ τ κ → List τ
  | .request y t => if y = x then [t] else []
  | _ => []

def answered (x : σ) (r : Option (Answer σ τ κ)) : List τ := (r.toList.filter (·.session = x)).map (·.token)

/-- **One event**: what is owed is answered from the front and grows at the back. -/
theorem next_owed (h : l.next e = some (r, l')) (x : σ) :
    l.owed x ++ requested x e = answered x r ++ l'.owed x := by
  cases e with
  | request y t =>
    obtain ⟨rfl, rfl⟩ := Prod.mk.inj (Option.some.inj h)
    by_cases hy : y = x
    · subst hy
      simp [owed, requested, answered]
    · simp [owed, requested, answered, hy, Function.update_of_ne (Ne.symm hy)]
  | complete y k =>
    unfold next at h
    dsimp only at h
    split at h
    · cases h
    · rename_i t rest hw
      obtain ⟨rfl, rfl⟩ := Prod.mk.inj (Option.some.inj h)
      by_cases hy : y = x
      · subst hy
        simp [owed, requested, answered, hw]
      · simp [owed, requested, answered, hy, Function.update_of_ne (Ne.symm hy)]
  | process =>
    unfold next at h
    dsimp only at h
    split at h
    · cases h
    · rename_i a rest hd
      obtain ⟨rfl, rfl⟩ := Prod.mk.inj (Option.some.inj h)
      by_cases ha : a.session = x
      · simp [owed, requested, answered, hd, ha]
      · simp [owed, requested, answered, hd, ha]

/-- **The histories of a service**: its events with their answers, newest first, and the ledger they lead to. -/
inductive History : List (Event σ τ κ × Option (Answer σ τ κ)) → Ledger σ τ κ → Prop where
  | nil : History [] empty
  | cons {es : List (Event σ τ κ × Option (Answer σ τ κ))} {l l' : Ledger σ τ κ} {e : Event σ τ κ}
      {r : Option (Answer σ τ κ)} : History es l → l.next e = some (r, l') → History ((e, r) :: es) l'

/-- **The answers are determined by the events.** -/
theorem History.unique {es es' : List (Event σ τ κ × Option (Answer σ τ κ))} (h : History es l) (h' : History es' l')
    (he : es.map Prod.fst = es'.map Prod.fst) : es = es' ∧ l = l' := by
  induction h generalizing es' l' with
  | nil =>
    obtain rfl := List.map_eq_nil_iff.1 he.symm
    cases h'
    exact ⟨rfl, rfl⟩
  | cons _ hn ih =>
    cases h' with
    | nil => cases he
    | cons h' hn' =>
      obtain ⟨heq, htail⟩ := List.cons.inj he
      obtain ⟨rfl, rfl⟩ := ih h' htail
      dsimp only at heq
      subst heq
      obtain ⟨rfl, rfl⟩ := Prod.mk.inj (Option.some.inj (hn.symm.trans hn'))
      exact ⟨rfl, rfl⟩

/-- The requests of `x`, oldest first. -/
def requests (x : σ) (es : List (Event σ τ κ × Option (Answer σ τ κ))) : List τ :=
  es.reverse.flatMap fun i => requested x i.1

/-- The answers to `x`, oldest first. -/
def answers (x : σ) (es : List (Event σ τ κ × Option (Answer σ τ κ))) : List τ :=
  es.reverse.flatMap fun i => answered x i.2

/-- **Every request is answered once, in order, or still owed.** -/
theorem History.conserved {es : List (Event σ τ κ × Option (Answer σ τ κ))} (h : History es l) (x : σ) :
    requests x es = answers x es ++ l.owed x := by
  induction h with
  | nil => rfl
  | @cons es l l' e r _ hn ih =>
    have hreq : requests x ((e, r) :: es) = requests x es ++ requested x e := by simp [requests]
    have hans : answers x ((e, r) :: es) = answers x es ++ answered x r := by simp [answers]
    rw [hreq, hans, ih, List.append_assoc, List.append_assoc, next_owed hn x]

end Ledger
end Completion
