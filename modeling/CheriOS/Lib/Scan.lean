import Mathlib.Tactic.Common
/-!
# Scan — how long a round-robin scan takes to reach a slot

A scan of an array prefix `[0..size)` in a table of `n` slots moves its index to `(idx + 1) % size`.  `rank` bounds the
moves left until the scan is at slot `i`.  A move that misses the slot lowers it, an append leaves it, and after any
other change it is `n` at most.
-/
namespace Scan

variable {n size idx i : Nat}

/-- **The moves left**: up to the slot, or over the end of the table and up again; `n` where the index has been left
behind by the prefix. -/
def rank (n size idx i : Nat) : Nat :=
  if idx < i then i - idx else if idx < size then n - idx + i else n

theorem rank_pos (idx : Nat) (hs : size ≤ n) (hi : i < size) : 0 < rank n size idx i := by
  unfold rank
  split
  · omega
  · split <;> omega

theorem rank_le (idx : Nat) (hs : size ≤ n) (hi : i < size) : rank n size idx i ≤ n := by
  unfold rank
  split
  · omega
  · split <;> omega

theorem rank_append (idx : Nat) (hs : size ≤ n) (hi : i < size) : rank n (size + 1) idx i ≤ rank n size idx i := by
  unfold rank
  split
  · exact Nat.le_refl _
  · split
    · split <;> omega
    · split <;> omega

theorem move_cases (idx : Nat) (hs : 0 < size) : (idx + 1) % size < size ∧
    (idx + 1 < size → (idx + 1) % size = idx + 1) ∧ (idx + 1 = size → (idx + 1) % size = 0) :=
  ⟨Nat.mod_lt _ hs, fun h => Nat.mod_eq_of_lt h, fun h => by rw [h, Nat.mod_self]⟩

/-- **A move that misses the slot.** -/
theorem rank_move (hs : size ≤ n) (hi : i < size) (hne : (idx + 1) % size ≠ i) :
    rank n size ((idx + 1) % size) i < rank n size idx i := by
  have hpos : 0 < size := by omega
  obtain ⟨hlt, hstep, hwrap⟩ := move_cases idx hpos
  unfold rank
  by_cases h1 : idx < i
  · -- below the slot: one step up
    rw [hstep (by omega)] at hne ⊢
    rw [if_pos h1, if_pos (by omega)]
    omega
  rw [if_neg h1]
  by_cases h2 : idx < size
  · rw [if_pos h2]
    by_cases h3 : idx + 1 < size
    · rw [hstep h3, if_neg (by omega), if_pos h3]
      omega
    · rw [hwrap (by omega)] at hne ⊢
      rw [if_pos (by omega)]
      omega
  · -- the index was left behind: wherever it lands, fewer than `n` moves are left
    rw [if_neg h2]
    split <;> omega

end Scan
