import CheriOS.Lib.Outcome
/-!
# Stateful — computations on a state that may stop

A computation reads and writes a state, and continues with a value or stops with a reason; what it wrote before a stop
stays written, so both ends come with a state.  `Ends x s Q E` is the triple of such a computation: from `s`, a value
and its state satisfy `Q`, a reason to stop and its state satisfy `E`.
-/
namespace Outcome

variable {ε σ α β : Type}

/-- **A computation on a state**: a stop keeps the state it happened in. -/
abbrev Stateful (ε σ α : Type) := StateT σ (Except (ε × σ)) α

def stop (e : ε) : Stateful ε σ α := fun s => .error (e, s)

def require (c : Bool) (e : ε) : Stateful ε σ Unit := if c then pure () else stop e

/-- **The triple of a computation.** -/
def Ends (x : Stateful ε σ α) (s : σ) (Q : α → σ → Prop) (E : ε → σ → Prop) : Prop :=
  Sat (x s) (fun p => Q p.1 p.2) (fun p => E p.1 p.2)

variable {x : Stateful ε σ α} {f : α → Stateful ε σ β} {s : σ} {Q Q' : α → σ → Prop} {E E' : ε → σ → Prop}

@[simp] theorem ends_pure {a : α} : Ends (pure a) s Q E ↔ Q a s := Iff.rfl

@[simp] theorem ends_stop {e : ε} : Ends (stop e) s Q E ↔ E e s := Iff.rfl

@[simp] theorem ends_set {s' : σ} {Q : PUnit → σ → Prop} : Ends (set s') s Q E ↔ Q ⟨⟩ s' := Iff.rfl

@[simp] theorem ends_modify {g : σ → σ} {Q : PUnit → σ → Prop} : Ends (modify g) s Q E ↔ Q ⟨⟩ (g s) := Iff.rfl

@[simp] theorem ends_get_bind {f : σ → Stateful ε σ α} : Ends (get >>= f) s Q E ↔ Ends (f s) s Q E := Iff.rfl

@[simp] theorem ends_modify_bind {g : σ → σ} {f : PUnit → Stateful ε σ α} :
    Ends (modify g >>= f) s Q E ↔ Ends (f ⟨⟩) (g s) Q E := Iff.rfl

theorem ends_require_bind {c : Bool} {e : ε} {f : Unit → Stateful ε σ α} (hok : c = true → Ends (f ()) s Q E)
    (hstop : c = false → E e s) : Ends (require c e >>= f) s Q E := by
  cases c with
  | true => exact hok rfl
  | false => exact hstop rfl

theorem Ends.mono (h : Ends x s Q E) (hQ : ∀ a s', Q a s' → Q' a s') (hE : ∀ e s', E e s' → E' e s') :
    Ends x s Q' E' :=
  Sat.mono h (fun p => hQ p.1 p.2) (fun p => hE p.1 p.2)

/-- **In sequence**: the second starts where the first ends. -/
theorem Ends.bind {Q' : β → σ → Prop} (hx : Ends x s Q E) (hf : ∀ a s', Q a s' → Ends (f a) s' Q' E) :
    Ends (x >>= f) s Q' E :=
  Sat.bind hx (fun p hp => hf p.1 p.2 hp)

theorem Ends.after {a : α} {s' : σ} {Q : β → σ → Prop} (h : x s = .ok (a, s')) (hf : Ends (f a) s' Q E) :
    Ends (x >>= f) s Q E := by
  have hbind : (x >>= f) s = f a s' := by
    show (x s >>= fun p => f p.1 p.2) = f a s'
    rw [h]
    rfl
  unfold Ends
  rw [hbind]
  exact hf

theorem Ends.ite {c : Prop} [Decidable c] {y : Stateful ε σ α} (hx : c → Ends x s Q E) (hy : ¬ c → Ends y s Q E) :
    Ends (if c then x else y) s Q E := by
  split
  · exact hx ‹_›
  · exact hy ‹_›

theorem Ends.of_eq_ok {a : α} {s' : σ} (h : x s = .ok (a, s')) (hQ : Q a s') : Ends x s Q E := by
  unfold Ends
  rw [h]
  exact hQ

theorem Ends.ok {a : α} {s' : σ} (h : Ends x s Q E) (hr : x s = .ok (a, s')) : Q a s' := by
  unfold Ends at h
  exact h.ok hr

theorem Ends.error {e : ε} {s' : σ} (h : Ends x s Q E) (hr : x s = .error (e, s')) : E e s' := by
  unfold Ends at h
  exact h.error hr

end Outcome
