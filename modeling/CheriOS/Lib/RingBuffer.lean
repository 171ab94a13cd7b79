import Mathlib.Logic.Function.Basic
import Mathlib.Tactic.Common
/-!
# RingBuffer — a ring buffer as a bounded queue

`n` slots with a read and a write position, both below `n`; the buffer is full one message short of `n`, so that equal
positions mean empty.  `contents` walks from the read position to the write position; pushing appends to it and popping
removes its head.
-/

structure RingBuffer (α : Type) where
  start : Nat
  stop : Nat
  slot : Nat → α

namespace RingBuffer

variable {α : Type} {n : Nat} {r : RingBuffer α} {x : α}

structure Wf (n : Nat) (r : RingBuffer α) : Prop where
  start_lt : r.start < n
  stop_lt : r.stop < n

/-- How many messages the ring holds. -/
def count (n : Nat) (r : RingBuffer α) : Nat := (r.stop + n - r.start) % n

/-- **The queue a ring stands for**, oldest first. -/
def contents (n : Nat) (r : RingBuffer α) : List α := (List.range (count n r)).map (fun i => r.slot ((r.start + i) % n))

def push (n : Nat) (r : RingBuffer α) (x : α) : RingBuffer α :=
  { r with stop := (r.stop + 1) % n, slot := Function.update r.slot r.stop x }

def pop (n : Nat) (r : RingBuffer α) : RingBuffer α := { r with start := (r.start + 1) % n }

@[simp] theorem length_contents : (contents n r).length = count n r := by simp [contents]

theorem mod_cases {n k : Nat} (h : k < 2 * n) : k % n = if k < n then k else k - n := by
  split
  · exact Nat.mod_eq_of_lt ‹_›
  · rw [Nat.mod_eq_sub_mod (by omega), Nat.mod_eq_of_lt (by omega)]

theorem count_eq (h : Wf n r) : count n r = if r.start ≤ r.stop then r.stop - r.start else r.stop + n - r.start := by
  have := h.start_lt; have := h.stop_lt
  unfold count
  rw [mod_cases (by omega)]
  split <;> split <;> omega

theorem count_lt (h : Wf n r) : count n r < n := Nat.mod_lt _ (by have := h.start_lt; omega)

theorem contents_eq_nil_iff (h : Wf n r) : contents n r = [] ↔ r.start = r.stop := by
  rw [← List.length_eq_zero_iff, length_contents, count_eq h]
  have := h.start_lt; have := h.stop_lt
  split <;> omega

/-- **Full means one message short of the slots.** -/
theorem full_iff (h : Wf n r) : (r.stop + 1) % n = r.start ↔ (contents n r).length = n - 1 := by
  rw [length_contents, count_eq h]
  have := h.start_lt; have := h.stop_lt
  rw [mod_cases (by omega)]
  split <;> split <;> omega

theorem Wf.push (h : Wf n r) : Wf n (r.push n x) :=
  ⟨h.start_lt, Nat.mod_lt _ (by have := h.start_lt; omega)⟩

theorem Wf.pop (h : Wf n r) : Wf n (r.pop n) :=
  ⟨Nat.mod_lt _ (by have := h.start_lt; omega), h.stop_lt⟩

theorem count_push (h : Wf n r) (hf : (r.stop + 1) % n ≠ r.start) : count n (r.push n x) = count n r + 1 := by
  have hs := h.start_lt; have he := h.stop_lt
  have hnext := mod_cases (n := n) (k := r.stop + 1) (by omega)
  have hc : count n (r.push n x) = if r.start ≤ (r.stop + 1) % n then (r.stop + 1) % n - r.start
      else (r.stop + 1) % n + n - r.start := count_eq h.push
  rw [count_eq h, hc]
  split at hnext <;> split <;> split <;> omega

/-- **A push that finds room appends its message.** -/
theorem contents_push (h : Wf n r) (hf : (r.stop + 1) % n ≠ r.start) :
    contents n (r.push n x) = contents n r ++ [x] := by
  have hs := h.start_lt; have he := h.stop_lt
  unfold contents
  rw [count_push h hf, List.range_succ, List.map_append, List.map_singleton]
  have hlt := count_lt h
  have hlast : (r.start + count n r) % n = r.stop := by
    rw [count_eq h]
    split
    · rw [Nat.mod_eq_of_lt (by omega)]; omega
    · rw [mod_cases (by omega)]; split <;> omega
  congr 1
  · apply List.map_congr_left
    intro i hi
    rw [List.mem_range] at hi
    -- an older message lies at another slot than the one written
    have hne : (r.start + i) % n ≠ r.stop := by
      rw [← hlast, mod_cases (by omega), mod_cases (by omega)]
      split <;> split <;> omega
    simp [RingBuffer.push, hne]
  · simp [RingBuffer.push, hlast]

/-- **A pop that finds a message removes the oldest.** -/
theorem contents_pop (h : Wf n r) (hne : r.start ≠ r.stop) :
    contents n r = r.slot r.start :: contents n (r.pop n) := by
  have hs := h.start_lt; have he := h.stop_lt
  have hc : count n r = count n (r.pop n) + 1 := by
    have hnext := mod_cases (n := n) (k := r.start + 1) (by omega)
    have hp : count n (r.pop n) = if (r.start + 1) % n ≤ r.stop then r.stop - (r.start + 1) % n
        else r.stop + n - (r.start + 1) % n := count_eq h.pop
    rw [count_eq h, hp]
    split at hnext <;> split <;> split <;> omega
  have hlt := count_lt h
  unfold contents
  rw [hc, List.range_succ_eq_map, List.map_cons, List.map_map]
  congr 1
  · simp [Nat.mod_eq_of_lt hs]
  · apply List.map_congr_left
    intro i hi
    simp only [Function.comp_apply, RingBuffer.pop]
    congr 1
    rw [Nat.mod_add_mod]
    congr 1
    omega

theorem contents_length_le (h : Wf n r) : (contents n r).length ≤ n - 1 := by
  rw [length_contents]
  have := count_lt h
  omega

end RingBuffer
