import Mathlib.Data.List.Nodup
import Mathlib.Data.List.Perm.Subperm
/-!
# DenseSet — a set kept in an array prefix, with an index

`elems[0..size)` are the members and `index` maps a member to its slot.  `add` appends; `remove` moves the last member
into the hole.  Slots at or past `size` and indices of non-members keep what they held, so a slot test
(`elems (index a) = a`) is weaker than membership: `Live` says what holds of the prefix, and the lemmas say what each
operation does to membership when the slot test is right and when it is stale.
-/

structure DenseSet (α : Type) where
  elems : Nat → α
  index : α → Nat
  size : Nat

namespace DenseSet

variable {α : Type} [DecidableEq α] {d : DenseSet α} {a x : α}

def add (d : DenseSet α) (a : α) : DenseSet α :=
  ⟨Function.update d.elems d.size a, Function.update d.index a d.size, d.size + 1⟩

/-- Removal: the last member takes the slot of the removed one. -/
def remove (d : DenseSet α) (a : α) : DenseSet α :=
  ⟨Function.update d.elems (d.index a) (d.elems (d.size - 1)),
    Function.update d.index (d.elems (d.size - 1)) (d.index a), d.size - 1⟩

def Mem (a : α) (d : DenseSet α) : Prop := ∃ i < d.size, d.elems i = a

/-- **The index is the inverse of the prefix.** -/
def Live (d : DenseSet α) : Prop := ∀ i < d.size, d.index (d.elems i) = i

/-- **The slot test**, which looks at the array without the size. -/
def SlotTest (d : DenseSet α) (a : α) : Prop := d.elems (d.index a) = a

omit [DecidableEq α] in
theorem Live.inj (h : Live d) {i j : Nat} (hi : i < d.size) (hj : j < d.size) (he : d.elems i = d.elems j) : i = j := by
  rw [← h i hi, he, h j hj]

omit [DecidableEq α] in
theorem Live.mem_iff (h : Live d) : Mem a d ↔ d.index a < d.size ∧ SlotTest d a := by
  constructor
  · rintro ⟨i, hi, rfl⟩
    have hidx := h i hi
    exact ⟨by omega, by unfold SlotTest; rw [hidx]⟩
  · rintro ⟨hlt, ht⟩
    exact ⟨_, hlt, ht⟩

omit [DecidableEq α] in
theorem Live.slotTest (h : Live d) (ha : Mem a d) : SlotTest d a := (h.mem_iff.1 ha).2

omit [DecidableEq α] in
theorem pos_of_mem (ha : Mem a d) : 0 < d.size := by
  obtain ⟨i, hi, -⟩ := ha
  omega

omit [DecidableEq α] in
theorem last_mem (hs : 0 < d.size) : Mem (d.elems (d.size - 1)) d := ⟨d.size - 1, by omega, rfl⟩

/-! ## Adding -/

theorem mem_add : Mem x (d.add a) ↔ x = a ∨ Mem x d := by
  constructor
  · rintro ⟨i, hi, rfl⟩
    by_cases hie : i = d.size
    · subst hie; simp [add]
    · exact .inr ⟨i, by simp only [add] at hi; omega, by simp [add, hie]⟩
  · rintro (rfl | ⟨i, hi, rfl⟩)
    · exact ⟨d.size, by simp [add], by simp [add]⟩
    · exact ⟨i, by simp only [add]; omega, by simp [add, Nat.ne_of_lt hi]⟩

theorem Live.add (h : Live d) (ha : ¬ Mem a d) : Live (d.add a) := by
  intro i hi
  by_cases hie : i = d.size
  · subst hie; simp [DenseSet.add]
  · have hlt : i < d.size := by simp only [DenseSet.add] at hi; omega
    have hne : d.elems i ≠ a := fun he => ha ⟨i, hlt, he⟩
    simp [DenseSet.add, hie, hne, h i hlt]

/-! ## Removing -/

theorem elems_remove (i : Nat) :
    (d.remove a).elems i = if i = d.index a then d.elems (d.size - 1) else d.elems i := by
  simp [remove, Function.update_apply]

/-- **Removal keeps a live set live**, whether the slot it was told is in the prefix or not. -/
theorem Live.remove (h : Live d) : Live (d.remove a) := by
  intro i hi
  have hi' : i < d.size - 1 := hi
  rw [elems_remove]
  split
  · rename_i he
    simp [DenseSet.remove, he]
  · rename_i he
    have hne : d.elems i ≠ d.elems (d.size - 1) := fun heq => by
      have := h.inj (by omega : i < d.size) (by omega) heq
      omega
    simp [DenseSet.remove, hne, h i (by omega)]

/-- **Removing a member removes it and nothing else.** -/
theorem mem_remove (h : Live d) (ha : Mem a d) : Mem x (d.remove a) ↔ x ≠ a ∧ Mem x d := by
  obtain ⟨hlt, ht⟩ := h.mem_iff.1 ha
  have hsize : (d.remove a).size = d.size - 1 := rfl
  constructor
  · rintro ⟨i, hi, rfl⟩
    rw [hsize] at hi
    rw [elems_remove]
    split
    · rename_i he
      refine ⟨fun heq => ?_, last_mem (by omega)⟩
      have := h (d.size - 1) (by omega)
      rw [heq] at this
      omega
    · rename_i he
      refine ⟨fun heq => ?_, ⟨i, by omega, rfl⟩⟩
      have := h i (by omega)
      rw [heq] at this
      exact he this.symm
  · rintro ⟨hne, i, hi, rfl⟩
    by_cases hl : i = d.size - 1
    · have hidx : d.index a ≠ d.size - 1 := fun he => hne (by rw [hl, ← he]; exact ht)
      refine ⟨d.index a, by rw [hsize]; omega, ?_⟩
      rw [elems_remove, if_pos rfl, hl]
    · have hidx : i ≠ d.index a := fun he => hne (by rw [he]; exact ht)
      refine ⟨i, by rw [hsize]; omega, ?_⟩
      rw [elems_remove, if_neg hidx]

/-- **A stale slot test removes the last member instead**, and leaves the prefix before it alone. -/
theorem mem_remove_stale (h : Live d) (hs : 0 < d.size) (ht : SlotTest d a) (ha : ¬ Mem a d) :
    Mem x (d.remove a) ↔ x ≠ d.elems (d.size - 1) ∧ Mem x d := by
  have hge : d.size ≤ d.index a := Nat.le_of_not_lt (fun hlt => ha ⟨_, hlt, ht⟩)
  have hsize : (d.remove a).size = d.size - 1 := rfl
  have hel : ∀ i, i < d.size - 1 → (d.remove a).elems i = d.elems i := fun i hi => by
    rw [elems_remove, if_neg (by omega)]
  constructor
  · rintro ⟨i, hi, rfl⟩
    rw [hsize] at hi
    rw [hel i hi]
    refine ⟨fun heq => ?_, ⟨i, by omega, rfl⟩⟩
    have := h.inj (by omega : i < d.size) (by omega) heq
    omega
  · rintro ⟨hne, i, hi, rfl⟩
    have hl : i ≠ d.size - 1 := fun he => hne (by rw [he])
    exact ⟨i, by rw [hsize]; omega, hel i (by omega)⟩

theorem mem_of_mem_remove (hx : Mem x (d.remove a)) : Mem x d := by
  obtain ⟨i, hi, rfl⟩ := hx
  have hi' : i < d.size - 1 := hi
  rw [elems_remove]
  split
  · exact last_mem (by omega)
  · exact ⟨i, by omega, rfl⟩

theorem not_mem_remove_self (h : Live d) : ¬ Mem a (d.remove a) := fun hx =>
  ((mem_remove h (mem_of_mem_remove hx)).1 hx).1 rfl

/-! ## Sizes -/

omit [DecidableEq α] in
/-- **Pigeonhole**: a live set whose members satisfy `P` is no larger than any list that has every element of `P`. -/
theorem Live.size_le (h : Live d) {l : List α} (hl : ∀ a, Mem a d → a ∈ l) : d.size ≤ l.length := by
  have hnd : ((List.range d.size).map d.elems).Nodup := by
    refine List.Nodup.map_on (fun i hi j hj he => ?_) List.nodup_range
    exact h.inj (List.mem_range.1 hi) (List.mem_range.1 hj) he
  have hsub : (List.range d.size).map d.elems ⊆ l := by
    intro a ha
    obtain ⟨i, hi, rfl⟩ := List.mem_map.1 ha
    exact hl _ ⟨i, List.mem_range.1 hi, rfl⟩
  have := (List.subperm_of_subset hnd hsub).length_le
  simpa using this

end DenseSet
