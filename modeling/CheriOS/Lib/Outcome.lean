import Mathlib.Tactic.Common
/-!
# Outcome — computations that may stop

A computation that continues with a value or stops with a reason is an `Except`.  `Sat r Q E` holds when a result that
continues satisfies `Q` and a reason to stop satisfies `E`.  The rules below follow how such computations are built, so
that one proof about a program covers both of its ends.
-/
namespace Outcome

variable {ε α β : Type}

/-- **The two ends of a computation**: `Q` where it continues, `E` where it stops. -/
def Sat (r : Except ε α) (Q : α → Prop) (E : ε → Prop) : Prop :=
  match r with
  | .ok a => Q a
  | .error e => E e

@[simp] theorem sat_ok {a : α} {Q : α → Prop} {E : ε → Prop} : Sat (.ok a) Q E ↔ Q a := Iff.rfl

@[simp] theorem sat_error {e : ε} {Q : α → Prop} {E : ε → Prop} : Sat (.error e : Except ε α) Q E ↔ E e := Iff.rfl

theorem Sat.mono {r : Except ε α} {Q Q' : α → Prop} {E E' : ε → Prop} (h : Sat r Q E) (hQ : ∀ a, Q a → Q' a)
    (hE : ∀ e, E e → E' e) : Sat r Q' E' := by
  cases r with
  | ok a => exact hQ a h
  | error e => exact hE e h

theorem Sat.bind {x : Except ε α} {f : α → Except ε β} {P : α → Prop} {Q : β → Prop} {E : ε → Prop} (hx : Sat x P E)
    (hf : ∀ a, P a → Sat (f a) Q E) : Sat (x >>= f) Q E := by
  cases x with
  | ok a => exact hf a hx
  | error e => exact hx

theorem Sat.ite {c : Prop} [Decidable c] {x y : Except ε α} {Q : α → Prop} {E : ε → Prop} (hx : c → Sat x Q E)
    (hy : ¬ c → Sat y Q E) : Sat (if c then x else y) Q E := by
  split
  · exact hx ‹_›
  · exact hy ‹_›

theorem Sat.ok {r : Except ε α} {Q : α → Prop} {E : ε → Prop} {a : α} (h : Sat r Q E) (hr : r = .ok a) : Q a := by
  subst hr; exact h

theorem Sat.error {r : Except ε α} {Q : α → Prop} {E : ε → Prop} {e : ε} (h : Sat r Q E) (hr : r = .error e) : E e := by
  subst hr; exact h

/-- **What holds of every result holds**: the two ends from the two equations. -/
theorem Sat.intro {r : Except ε α} {Q : α → Prop} {E : ε → Prop} (hQ : ∀ a, r = .ok a → Q a)
    (hE : ∀ e, r = .error e → E e) : Sat r Q E := by
  cases r with
  | ok a => exact hQ a rfl
  | error e => exact hE e rfl

/-- **Total correctness**: it continues, and with `Q`. -/
abbrev Returns (r : Except ε α) (Q : α → Prop) : Prop := Sat r Q (fun _ => False)

theorem Returns.and {r : Except ε α} {Q Q' : α → Prop} (h : Returns r Q) (h' : Returns r Q') :
    Returns r (fun a => Q a ∧ Q' a) := by
  cases r with
  | ok a => exact ⟨h, h'⟩
  | error e => exact h

theorem Returns.exists {r : Except ε α} {Q : α → Prop} (h : Returns r Q) : ∃ a, r = .ok a ∧ Q a := by
  cases r with
  | ok a => exact ⟨a, rfl, h⟩
  | error e => exact h.elim

theorem bind_eq_ok {x : Except ε α} {f : α → Except ε β} {b : β} :
    (x >>= f) = .ok b ↔ ∃ a, x = .ok a ∧ f a = .ok b := by
  cases x with
  | ok a => simp [Bind.bind, Except.bind]
  | error e => simp [Bind.bind, Except.bind]

@[simp] theorem ok_bind {a : α} {f : α → Except ε β} : ((Except.ok a : Except ε α) >>= f) = f a := rfl

@[simp] theorem error_bind {e : ε} {f : α → Except ε β} : ((Except.error e : Except ε α) >>= f) = .error e := rfl

theorem bind_ok_bind {γ : Type} (x : Except ε α) (f : α → β) (g : β → Except ε γ) :
    ((x >>= fun a => .ok (f a)) >>= g) = x >>= fun a => g (f a) := by
  cases x <;> rfl

/-! ## Views of a state -/

section Keeps

variable {σ γ : Type} {g : σ → γ} {E E' : ε → Prop} {s m : σ} {r : Except ε σ}

/-- **A view of the state that a computation leaves as it was**, where it continues; `E` where it stops. -/
def Keeps (g : σ → γ) (E : ε → Prop) (s : σ) (r : Except ε σ) : Prop := Sat r (fun s' => g s' = g s) E

theorem Keeps.ok (h : g m = g s) : Keeps g E s (.ok m) := h

theorem Keeps.error {e : ε} (h : E e) : Keeps g E s (.error e) := h

theorem Keeps.eq (h : Keeps g E s r) (hr : r = .ok m) : g m = g s := by
  subst hr; exact h

theorem Keeps.stop {e : ε} (h : Keeps g E s r) (hr : r = .error e) : E e := Sat.error h hr

theorem Keeps.map {δ : Type} (f : γ → δ) (h : Keeps g E s r) : Keeps (fun a => f (g a)) E s r :=
  Sat.mono h (fun _ ha => congrArg f ha) (fun _ => id)

theorem Keeps.of_eq (h : g m = g s) (hr : Keeps g E m r) : Keeps g E s r :=
  Sat.mono hr (fun _ ha => ha.trans h) (fun _ => id)

theorem Keeps.weaken (h : Keeps g E s r) (hE : ∀ e, E e → E' e) : Keeps g E' s r := Sat.mono h (fun _ => id) hE

theorem Keeps.bind {f : σ → Except ε σ} (hx : Keeps g E s r) (hf : ∀ m, Keeps g E m (f m)) : Keeps g E s (r >>= f) :=
  Sat.bind hx (fun m hm => (hf m).of_eq hm)

theorem Keeps.after {x : Except ε α} {f : α → Except ε σ} (hx : Sat x (fun _ => True) E) (hf : ∀ a, Keeps g E s (f a)) :
    Keeps g E s (x >>= f) :=
  Sat.bind hx (fun a _ => hf a)

theorem Keeps.bind_pair {x : Except ε (α × σ)} {f : α × σ → Except ε σ} (hx : Sat x (fun p => g p.2 = g s) E)
    (hf : ∀ p, Keeps g E p.2 (f p)) : Keeps g E s (x >>= f) :=
  Sat.bind hx (fun p hp => (hf p).of_eq hp)

end Keeps
end Outcome
