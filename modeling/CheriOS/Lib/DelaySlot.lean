import Mathlib.Tactic.Common
/-!
# DelaySlot — code whose branches take effect one instruction late

A machine with delay slots knows two places in its code, where it is and where it goes next.  A branch chooses the place
after those; a branch-likely that is not taken skips the one in between.  Runs compose, a loop that tests at its end
runs by induction on what is left to do, and a run that traps does not come to its end.
-/
namespace DelaySlot

variable {σ ι : Type}

/-- What an instruction does to the order of the code: nothing, a branch behind the next instruction, or a skip. -/
inductive Flow where
  | next
  | branch (target : Nat)
  | skip
  deriving DecidableEq, Repr

structure Config (σ : Type) where
  pc : Nat
  npc : Nat
  st : σ

/-- Where the machine is after an instruction at `pc`, with `npc` to follow. -/
def Flow.go (f : Flow) (npc : Nat) (st : σ) : Config σ :=
  match f with
  | .next => ⟨npc, npc + 1, st⟩
  | .branch target => ⟨npc, target, st⟩
  | .skip => ⟨npc + 1, npc + 2, st⟩

/-- One instruction; `none` where it traps and where the code has ended. -/
def step (exec : ι → σ → Option (σ × Flow)) (code : List ι) (c : Config σ) : Option (Config σ) :=
  (code[c.pc]?).bind fun i => (exec i c.st).map fun r => r.2.go c.npc r.1

/-- **Runs of the code.** -/
inductive Runs (exec : ι → σ → Option (σ × Flow)) (code : List ι) : Config σ → Config σ → Prop where
  | refl (c : Config σ) : Runs exec code c c
  | head {c d e : Config σ} : step exec code c = some d → Runs exec code d e → Runs exec code c e

/-- The code has ended. -/
def Halted (code : List ι) (c : Config σ) : Prop := code[c.pc]? = none

/-- The instruction to run next traps. -/
def Trapped (exec : ι → σ → Option (σ × Flow)) (code : List ι) (c : Config σ) : Prop :=
  ∃ i, code[c.pc]? = some i ∧ exec i c.st = none

/-- **The code ends in `st'`** when it is run from its start in `st`. -/
def Ends (exec : ι → σ → Option (σ × Flow)) (code : List ι) (st st' : σ) : Prop :=
  ∃ c, Runs exec code ⟨0, 1, st⟩ c ∧ Halted code c ∧ c.st = st'

variable {exec : ι → σ → Option (σ × Flow)} {code : List ι} {c d e : Config σ} {i : ι} {pc npc target : Nat}
  {st st' : σ}

theorem step_eq (hi : code[pc]? = some i) {f : Flow} (he : exec i st = some (st', f)) :
    step exec code ⟨pc, npc, st⟩ = some (f.go npc st') := by
  unfold step
  rw [hi, Option.bind_some, he, Option.map_some]

theorem step_none (h : Halted code c ∨ Trapped exec code c) : step exec code c = none := by
  unfold step
  rcases h with h | ⟨i, hi, he⟩
  · rw [show code[c.pc]? = none from h, Option.bind_none]
  · rw [hi, Option.bind_some, he, Option.map_none]

namespace Runs

theorem trans (h : Runs exec code c d) (h' : Runs exec code d e) : Runs exec code c e := by
  induction h with
  | refl => exact h'
  | head hs _ ih => exact .head hs (ih h')

/-! ## One instruction -/

theorem next (hi : code[pc]? = some i) (he : exec i st = some (st', .next)) (h : Runs exec code ⟨npc, npc + 1, st'⟩ e) :
    Runs exec code ⟨pc, npc, st⟩ e :=
  .head (step_eq hi he) h

theorem branch (hi : code[pc]? = some i) (he : exec i st = some (st', .branch target))
    (h : Runs exec code ⟨npc, target, st'⟩ e) : Runs exec code ⟨pc, npc, st⟩ e :=
  .head (step_eq hi he) h

theorem skip (hi : code[pc]? = some i) (he : exec i st = some (st', .skip))
    (h : Runs exec code ⟨npc + 1, npc + 2, st'⟩ e) : Runs exec code ⟨pc, npc, st⟩ e :=
  .head (step_eq hi he) h

/-- **A test and its delay slot**: on past both, or where the branch leads. -/
theorem test {p : Prop} [Decidable p] {j : ι} {st'' : σ} (hi : code[pc]? = some i)
    (he : exec i st = some (st', if p then .next else .branch target)) (hj : code[pc + 1]? = some j)
    (hslot : exec j st' = some (st'', .next)) :
    Runs exec code ⟨pc, pc + 1, st⟩ ⟨if p then pc + 2 else target, (if p then pc + 2 else target) + 1, st''⟩ := by
  by_cases hp : p
  · rw [if_pos hp] at he
    rw [if_pos hp]
    exact .next hi he (.next hj hslot (.refl _))
  · rw [if_neg hp] at he
    rw [if_neg hp]
    exact .branch hi he (.next hj hslot (.refl _))

/-! ## Loops -/

/-- **A loop that tests at its end**: a round from `k` goes on to `q` if it was the last of `n`, and back to `p` with
`k + 1` if it was not. -/
theorem loop {P : Nat → σ → Prop} {Q : σ → Prop} {n p q : Nat}
    (body : ∀ k st, k < n → P k st → ∃ st' pc, Runs exec code ⟨p, p + 1, st⟩ ⟨pc, pc + 1, st'⟩ ∧
      (k + 1 < n → pc = p ∧ P (k + 1) st') ∧ (k + 1 = n → pc = q ∧ Q st')) {k : Nat} (hk : k < n) (hP : P k st) :
    ∃ st', Runs exec code ⟨p, p + 1, st⟩ ⟨q, q + 1, st'⟩ ∧ Q st' := by
  induction hm : n - k generalizing k st with
  | zero => omega
  | succ m ih =>
    obtain ⟨st', pc, hrun, hon, hoff⟩ := body k st hk hP
    rcases Nat.lt_or_ge (k + 1) n with hlt | hge
    · obtain ⟨rfl, hP'⟩ := hon hlt
      obtain ⟨st'', hrun', hQ⟩ := ih hlt hP' (by omega)
      exact ⟨st'', hrun.trans hrun', hQ⟩
    · obtain ⟨rfl, hQ⟩ := hoff (Nat.le_antisymm hk hge)
      exact ⟨st', hrun, hQ⟩

/-- **The first rounds of a loop**, each of which leads back to its start. -/
theorem rounds {P : Nat → σ → Prop} {n p : Nat}
    (body : ∀ k st, k < n → P k st → ∃ st', Runs exec code ⟨p, p + 1, st⟩ ⟨p, p + 1, st'⟩ ∧ P (k + 1) st')
    (hP : P 0 st) : ∃ st', Runs exec code ⟨p, p + 1, st⟩ ⟨p, p + 1, st'⟩ ∧ P n st' := by
  induction n with
  | zero => exact ⟨st, .refl _, hP⟩
  | succ n ih =>
    obtain ⟨st', hrun, hP'⟩ := ih fun k st hk => body k st (Nat.lt_succ_of_lt hk)
    obtain ⟨st'', hrun', hP''⟩ := body n st' (Nat.lt_succ_self n) hP'
    exact ⟨st'', hrun.trans hrun', hP''⟩

/-! ## Where a run ends -/

/-- **The next step is the only one.** -/
theorem linear (h : Runs exec code c d) (h' : Runs exec code c e) : Runs exec code d e ∨ Runs exec code e d := by
  induction h with
  | refl => exact Or.inl h'
  | head hs hr ih =>
    cases h' with
    | refl => exact Or.inr (.head hs hr)
    | head hs' hr' =>
      rw [hs] at hs'
      cases hs'
      exact ih hr'

theorem eq_of_step_none (hs : step exec code c = none) (h : Runs exec code c d) : d = c := by
  cases h with
  | refl => rfl
  | head hs' _ =>
    rw [hs] at hs'
    cases hs'

end Runs

/-- **A run that traps does not end.** -/
theorem not_ends_of_trapped (h : Runs exec code ⟨0, 1, st⟩ c) (ht : Trapped exec code c) : ¬ Ends exec code st st' := by
  rintro ⟨d, hr, hh, -⟩
  have hend : d = c ∧ Halted code d := by
    rcases h.linear hr with hcd | hdc
    · exact ⟨Runs.eq_of_step_none (step_none (Or.inr ht)) hcd, hh⟩
    · exact ⟨(Runs.eq_of_step_none (step_none (Or.inl hh)) hdc).symm, hh⟩
  obtain ⟨i, hi, -⟩ := ht
  have hno := hend.2
  rw [hend.1] at hno
  unfold Halted at hno
  rw [hi] at hno
  cases hno

end DelaySlot
