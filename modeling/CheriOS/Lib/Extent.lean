import Mathlib.Data.List.Nodup
import Mathlib.Data.List.TakeDrop
/-!
# Extent — a string of cells in blocks

Blocks of `m` cells lie at addresses, and no two of them have a cell in common.  A list of blocks is a string of cells, the
`k`th of which is in the block `k / m` of the list.
-/
namespace Extent

variable {κ : Type} {m k j x : Nat} {addr : κ → Nat} {V : κ → Prop} {l r : List κ} {c d : κ}

/-- **The `k`th cell of the blocks `l`.** -/
def cell (m : Nat) (addr : κ → Nat) (l : List κ) (k : Nat) : Option Nat := (l[k / m]?).map fun c => addr c + k % m

/-- **No two blocks have a cell in common.** -/
def Apart (m : Nat) (addr : κ → Nat) (V : κ → Prop) : Prop :=
  ∀ c d, V c → V d → ∀ j < m, ∀ k < m, addr c + j = addr d + k → c = d

/-- The cell is one of the block. -/
def In (m : Nat) (addr : κ → Nat) (c : κ) (x : Nat) : Prop := addr c ≤ x ∧ x < addr c + m

theorem cell_eq_some : cell m addr l k = some x ↔ ∃ c, l[k / m]? = some c ∧ addr c + k % m = x := Option.map_eq_some_iff

theorem cell_of_block (hm : 0 < m) (hc : l[k / m]? = some c) : cell m addr l k = some (addr c + k % m) ∧ k % m < m :=
  ⟨cell_eq_some.2 ⟨c, hc, rfl⟩, Nat.mod_lt k hm⟩

theorem div_lt_length (h : cell m addr l k = some x) : k / m < l.length := by
  obtain ⟨c, hc, -⟩ := cell_eq_some.1 h
  exact (List.getElem?_eq_some_iff.1 hc).1

/-- Every position in front of the end has a cell. -/
theorem exists_block (hm : 0 < m) (hk : k < l.length * m) : ∃ c, l[k / m]? = some c := by
  have hlt := (Nat.div_lt_iff_lt_mul hm).2 hk
  exact ⟨l[k / m], List.getElem?_eq_some_iff.2 ⟨hlt, rfl⟩⟩

/-- **A cell is one of a block of the list.** -/
theorem mem_block (hm : 0 < m) (h : cell m addr l k = some x) : ∃ c ∈ l, In m addr c x := by
  obtain ⟨c, hc, rfl⟩ := cell_eq_some.1 h
  exact ⟨c, List.mem_of_getElem? hc, Nat.le_add_right .., Nat.add_lt_add_left (Nat.mod_lt k hm) _⟩

theorem Apart.in_unique (ha : Apart m addr V) (hc : V c) (hd : V d) (hx : In m addr c x) (hx' : In m addr d x) : c = d := by
  have h1 := hx.1
  have h2 := hx.2
  have h3 := hx'.1
  have h4 := hx'.2
  exact ha c d hc hd (x - addr c) (by omega) (x - addr d) (by omega) (by omega)

/-- **The string has every cell once.** -/
theorem cell_inj (ha : Apart m addr V) (hm : 0 < m) (hd : l.Nodup) (hv : ∀ c ∈ l, V c) (h : cell m addr l k = some x)
    (h' : cell m addr l j = some x) : k = j := by
  obtain ⟨c, hc, rfl⟩ := cell_eq_some.1 h
  obtain ⟨d, hd', he⟩ := cell_eq_some.1 h'
  have hcd := ha d c (hv d (List.mem_of_getElem? hd')) (hv c (List.mem_of_getElem? hc)) (j % m) (Nat.mod_lt j hm) (k % m)
    (Nat.mod_lt k hm) he
  subst hcd
  obtain ⟨hk, hkc⟩ := List.getElem?_eq_some_iff.1 hc
  obtain ⟨hj, hjc⟩ := List.getElem?_eq_some_iff.1 hd'
  have hdiv : k / m = j / m := hd.getElem_inj_iff.1 (hkc.trans hjc.symm)
  have hmod : j % m = k % m := Nat.add_left_cancel he
  rw [← Nat.div_add_mod k m, ← Nat.div_add_mod j m, hdiv, hmod]

/-- More blocks behind it leave a string as it is. -/
theorem cell_append (h : cell m addr l k = some x) : cell m addr (l ++ r) k = some x := by
  rw [cell, List.getElem?_append_left (div_lt_length h)]
  exact h

theorem cell_append_left (hk : k / m < l.length) : cell m addr (l ++ r) k = cell m addr l k := by
  rw [cell, List.getElem?_append_left hk]
  rfl

/-- The first blocks have the cells that they had. -/
theorem cell_of_take {n : Nat} (h : cell m addr (l.take n) k = some x) : cell m addr l k = some x := by
  rw [← List.take_append_drop n l]
  exact cell_append h

theorem cell_take {n : Nat} (hk : k / m < n) : cell m addr (l.take n) k = cell m addr l k := by
  rw [cell, List.getElem?_take_of_lt hk]
  rfl

/-- **The cells of a block follow each other.** -/
theorem cell_add (h : cell m addr l k = some x) (hj : k % m + j < m) : cell m addr l (k + j) = some (x + j) := by
  obtain ⟨c, hc, rfl⟩ := cell_eq_some.1 h
  have hm : 0 < m := by omega
  have hdiv : (k + j) / m = k / m := by
    rw [Nat.add_div hm, Nat.div_eq_of_lt (by omega : j < m), Nat.mod_eq_of_lt (by omega : j < m), if_neg (by omega)]
    rfl
  have hmod : (k + j) % m = k % m + j := by
    rw [Nat.add_mod, Nat.mod_eq_of_lt (by omega : j < m), Nat.mod_eq_of_lt hj]
  rw [cell, hdiv, hc, hmod]
  exact congrArg some (Nat.add_assoc ..).symm

end Extent
