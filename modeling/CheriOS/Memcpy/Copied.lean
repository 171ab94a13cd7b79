import CheriOS.Memcpy.Code
/-!
# Copied — what memory holds while it is being copied

The first bytes of the source are at the destination, the others are where they were.  The granules that have been
written whole, with their tags, are those between two bounds; every other granule that a byte has been written to has
lost its tag.
-/
namespace CheriOS
namespace Memcpy

variable {w : Nat} {m₀ m : Memory} {D S k h e n x g : Nat} {t : Bool}

/-- A byte of the `k` from `D` on is in the granule `g`. -/
def Touched (w D k g : Nat) : Prop := ∃ x, D ≤ x ∧ x < D + k ∧ x / w = g

/-- The granule `g` is one of those from `D + h` to `D + e`. -/
def Inside (w D h e g : Nat) : Prop := D + h ≤ g * w ∧ g * w + w ≤ D + e

/-- **`k` bytes have been copied** from `S` to `D`, those from `h` to `e` with the tags of their granules. -/
structure Copied (w : Nat) (m₀ m : Memory) (D S k h e : Nat) : Prop where
  byte : ∀ x, m.byte x = if D ≤ x ∧ x < D + k then m₀.byte (S + (x - D)) else m₀.byte x
  kept : ∀ g, Inside w D h e g → m.tag g = m₀.tag ((S + (g * w - D)) / w)
  cleared : ∀ g, Touched w D k g → ¬ Inside w D h e g → m.tag g = false
  frame : ∀ g, ¬ Touched w D k g → m.tag g = m₀.tag g

/-- The sizes that a capability can have. -/
def CapSize (w : Nat) : Prop := w = 8 ∨ w = 16 ∨ w = 32

theorem CapSize.pos (hw : CapSize w) : 0 < w := by
  rcases hw with rfl | rfl | rfl <;> decide

theorem CapSize.le (hw : CapSize w) : w ≤ 32 := by
  rcases hw with rfl | rfl | rfl <;> decide

theorem CapSize.mod_lt (hw : CapSize w) (x : Nat) : x % w < 2 ^ 64 := by
  have hmod := Nat.mod_lt x hw.pos
  have hle := hw.le
  omega

theorem not_inside_empty (hw : CapSize w) : ¬ Inside w D h h g := by
  unfold Inside
  rcases hw with rfl | rfl | rfl <;> omega

theorem Copied.start (hw : CapSize w) (m₀ : Memory) (D S h : Nat) : Copied w m₀ m₀ D S 0 h h where
  byte := fun x => by
    rw [if_neg]
    omega
  kept := fun g hg => (not_inside_empty hw hg).elim
  cleared := fun g ⟨x, hlo, hhi, _⟩ => absurd hhi (Nat.not_lt.2 hlo)
  frame := fun _ _ => rfl

theorem touched_add (hn : 0 < n) (hone : (D + k) / w = (D + k + (n - 1)) / w) :
    Touched w D (k + n) g ↔ Touched w D k g ∨ g = (D + k) / w := by
  constructor
  · rintro ⟨x, hlo, hhi, rfl⟩
    rcases Nat.lt_or_ge x (D + k) with hlt | hge
    · exact Or.inl ⟨x, hlo, hlt, rfl⟩
    · have h₁ : (D + k) / w ≤ x / w := Nat.div_le_div_right hge
      have h₂ : x / w ≤ (D + k + (n - 1)) / w := Nat.div_le_div_right (by omega)
      exact Or.inr (by omega)
  · rintro (⟨x, hlo, hhi, rfl⟩ | rfl)
    · exact ⟨x, hlo, by omega, rfl⟩
    · exact ⟨D + k, by omega, by omega, rfl⟩

theorem store_byte {bytes : Fin n → BitVec 8} (hC : Copied w m₀ m D S k h e)
    (hbytes : ∀ j : Fin n, bytes j = m₀.byte (S + k + j)) (x : Nat) :
    (m.store w (D + k) bytes t).byte x = if D ≤ x ∧ x < D + (k + n) then m₀.byte (S + (x - D)) else m₀.byte x := by
  unfold Memory.store
  simp only
  split
  case isTrue hx =>
    rw [hbytes, if_pos (by omega)]
    congr 1
    simp only
    omega
  case isFalse hx =>
    rw [hC.byte x]
    split
    · rw [if_pos (by omega)]
    · rw [if_neg (by omega)]

/-- **A store of bytes** goes on with the copy, and clears the tag of its granule. -/
theorem Copied.bytes (hw : CapSize w) {bytes : Fin n → BitVec 8} (hC : Copied w m₀ m D S k h e) (hout : e ≤ k ∨ e ≤ h)
    (hn : 0 < n) (hone : (D + k) / w = (D + k + (n - 1)) / w) (hbytes : ∀ j : Fin n, bytes j = m₀.byte (S + k + j)) :
    Copied w m₀ (m.store w (D + k) bytes false) D S (k + n) h e := by
  have hout' : ¬ Inside w D h e ((D + k) / w) := by
    unfold Inside
    rcases hw with rfl | rfl | rfl <;> omega
  have htag : ∀ g, (m.store w (D + k) bytes false).tag g = if g = (D + k) / w then false else m.tag g := fun _ => rfl
  refine ⟨store_byte hC hbytes, fun g hg => ?_, fun g ht hg => ?_, fun g ht => ?_⟩
  · have hne : g ≠ (D + k) / w := fun heq => hout' (heq ▸ hg)
    rw [htag, if_neg hne]
    exact hC.kept g hg
  · rw [htag]
    split
    · rfl
    · rename_i hne
      exact hC.cleared g (((touched_add hn hone).1 ht).resolve_right hne) hg
  · rw [touched_add hn hone, not_or] at ht
    rw [htag, if_neg ht.2]
    exact hC.frame g ht.1

/-- **A store of a capability** goes on with the copy of whole granules. -/
theorem Copied.cap (hw : CapSize w) {bytes : Fin w → BitVec 8} (hC : Copied w m₀ m D S k h k) (hk : h ≤ k)
    (hal : (D + k) % w = 0) (hbytes : ∀ j : Fin w, bytes j = m₀.byte (S + k + j)) (ht : t = m₀.tag ((S + k) / w)) :
    Copied w m₀ (m.store w (D + k) bytes t) D S (k + w) h (k + w) := by
  have hpos := hw.pos
  have hone : (D + k) / w = (D + k + (w - 1)) / w := by rcases hw with rfl | rfl | rfl <;> omega
  have hmul : (D + k) / w * w = D + k := Nat.div_mul_cancel (Nat.dvd_of_mod_eq_zero hal)
  have hin : ∀ g, Inside w D h (k + w) g ↔ Inside w D h k g ∨ g = (D + k) / w := fun g => by
    unfold Inside
    rcases hw with rfl | rfl | rfl <;> omega
  have htag : ∀ g, (m.store w (D + k) bytes t).tag g = if g = (D + k) / w then t else m.tag g := fun _ => rfl
  refine ⟨store_byte hC hbytes, fun g hg => ?_, fun g htch hg => ?_, fun g htch => ?_⟩
  · rw [htag]
    split
    case isTrue heq =>
      rw [ht, heq, hmul, Nat.add_sub_cancel_left]
    case isFalse hne => exact hC.kept g (((hin g).1 hg).resolve_right hne)
  · rw [hin, not_or] at hg
    rw [htag, if_neg hg.2]
    exact hC.cleared g (((touched_add hpos hone).1 htch).resolve_right hg.2) hg.1
  · rw [touched_add hpos hone, not_or] at htch
    rw [htag, if_neg htch.2]
    exact hC.frame g htch.1

/-! ## What has not been copied yet -/

/-- **The source is apart from the destination.** -/
def Disjoint (D S n : Nat) : Prop := D + n ≤ S ∨ S + n ≤ D

theorem Copied.unread (hC : Copied w m₀ m D S k h e) (hd : Disjoint D S n) (hkn : k ≤ n) (hx : S ≤ x)
    (hxn : x < S + n) : m.byte x = m₀.byte x := by
  unfold Disjoint at hd
  rw [hC.byte x, if_neg]
  omega

theorem Copied.unread_tag (hw : CapSize w) (hC : Copied w m₀ m D S k h e) (hd : Disjoint D S n) (hkn : k + w ≤ n)
    (hal : (S + k) % w = 0) : m.tag ((S + k) / w) = m₀.tag ((S + k) / w) := by
  refine hC.frame _ ?_
  rintro ⟨x, hlo, hhi, heq⟩
  unfold Disjoint at hd
  rcases hw with rfl | rfl | rfl <;> omega

end Memcpy
end CheriOS
