import Mathlib.Data.List.Pairwise
import Mathlib.Tactic.Common
/-!
# Tiling — an interval cut into pieces

A function `len` gives the length of the piece that starts at a point.  From `a`, piece after piece, the starts are a
list of *heads*; they tile `[a, b)` when every piece has a length and the last one ends at `b`.  What `len` says at any
other point does not matter.
-/
namespace Tiling

variable {len len' : Nat → Nat} {a b m h w : Nat} {hs xs ys : List Nat}

/-- **The heads of the pieces that tile `[a, b)`.** -/
inductive Tiles (len : Nat → Nat) : Nat → List Nat → Nat → Prop where
  | nil {a : Nat} : Tiles len a [] a
  | cons {a b : Nat} {hs : List Nat} : 0 < len a → Tiles len (a + len a) hs b → Tiles len a (a :: hs) b

namespace Tiles

theorem le (t : Tiles len a hs b) : a ≤ b := by
  induction t with
  | nil => exact Nat.le_refl _
  | cons _ _ ih => exact Nat.le_trans (Nat.le_add_right _ _) ih

theorem length_le (t : Tiles len a hs b) : a + hs.length ≤ b := by
  induction t with
  | nil => exact Nat.le_refl _
  | cons hpos _ ih =>
    rw [List.length_cons]
    omega

theorem one_piece (hpos : 0 < len a) : Tiles len a [a] (a + len a) := .cons hpos .nil

/-- **Only the lengths at the heads count.** -/
theorem congr (t : Tiles len a hs b) (heq : ∀ h ∈ hs, len' h = len h) : Tiles len' a hs b := by
  induction t with
  | nil => exact .nil
  | @cons a b hs hpos t ih =>
    have ha : len' a = len a := heq a List.mem_cons_self
    refine .cons (ha ▸ hpos) ?_
    rw [ha]
    exact ih (fun h hh => heq h (List.mem_cons_of_mem _ hh))

theorem append (t : Tiles len a xs m) (u : Tiles len m ys b) : Tiles len a (xs ++ ys) b := by
  induction t with
  | nil => exact u
  | cons hpos _ ih => exact .cons hpos (ih u)

theorem of_append (t : Tiles len a (xs ++ ys) b) : ∃ m, Tiles len a xs m ∧ Tiles len m ys b := by
  induction xs generalizing a with
  | nil => exact ⟨a, .nil, t⟩
  | cons x xs ih =>
    cases t with
    | cons hpos t =>
      obtain ⟨m, hx, hy⟩ := ih t
      exact ⟨m, .cons hpos hx, hy⟩

theorem bounds (t : Tiles len a hs b) (hh : h ∈ hs) : a ≤ h ∧ 0 < len h ∧ h + len h ≤ b := by
  induction t with
  | nil => cases hh
  | cons hpos t ih =>
    rcases List.mem_cons.1 hh with rfl | hh
    · exact ⟨Nat.le_refl _, hpos, t.le⟩
    · obtain ⟨hle, hlen, hb⟩ := ih hh
      exact ⟨Nat.le_trans (Nat.le_add_right _ _) hle, hlen, hb⟩

/-- **The pieces leave nothing out.** -/
theorem covers (t : Tiles len a hs b) {x : Nat} (hle : a ≤ x) (hlt : x < b) : ∃ h ∈ hs, h ≤ x ∧ x < h + len h := by
  induction t with
  | nil => omega
  | @cons a b hs _ t ih =>
    by_cases hx : x < a + len a
    · exact ⟨a, List.mem_cons_self, hle, hx⟩
    · obtain ⟨h, hh, hin⟩ := ih (Nat.le_of_not_lt hx) hlt
      exact ⟨h, List.mem_cons_of_mem _ hh, hin⟩

/-- **The pieces follow each other.** -/
theorem pairwise (t : Tiles len a hs b) : hs.Pairwise (fun x y => x + len x ≤ y) := by
  induction t with
  | nil => exact .nil
  | cons _ t ih => exact .cons (fun y hy => (t.bounds hy).1) ih

theorem nodup (t : Tiles len a hs b) : hs.Nodup := by
  induction t with
  | nil => exact .nil
  | @cons a b hs hpos t ih =>
    refine List.nodup_cons.2 ⟨fun hmem => ?_, ih⟩
    have hle := (t.bounds hmem).1
    omega

theorem apart (t : Tiles len a hs b) {x y : Nat} (hx : x ∈ hs) (hy : y ∈ hs) (hne : x ≠ y) :
    x + len x ≤ y ∨ y + len y ≤ x := by
  have hp : hs.Pairwise (fun x y => x + len x ≤ y ∨ y + len y ≤ x) := t.pairwise.imp Or.inl
  have hsymm : Std.Symm (fun x y => x + len x ≤ y ∨ y + len y ≤ x) := ⟨fun _ _ h => h.symm⟩
  exact hp.forall hx hy hne

theorem not_mem_inside (t : Tiles len a hs b) {x y : Nat} (hx : x ∈ hs) (hlt : x < y) (hy : y < x + len x) :
    y ∉ hs := by
  intro hmem
  have hlen := (t.bounds hmem).2.1
  rcases t.apart hx hmem (Nat.ne_of_lt hlt) with h | h <;> omega

/-- **The heads are determined by the lengths.** -/
theorem unique (t : Tiles len a xs b) (u : Tiles len a ys b) : xs = ys := by
  induction t generalizing ys with
  | nil =>
    cases u with
    | nil => rfl
    | cons hpos u =>
      have hle := u.le
      omega
  | cons hpos t ih =>
    cases u with
    | nil =>
      have hle := t.le
      omega
    | cons _ u => rw [ih u]

/-- **A search of the heads finds the lowest.** -/
theorem find?_lowest (t : Tiles len a hs b) {p : Nat → Bool} (hfind : hs.find? p = some h) :
    h ∈ hs ∧ p h = true ∧ ∀ k ∈ hs, k < h → p k = false := by
  obtain ⟨hp, xs, ys, rfl, hxs⟩ := List.find?_eq_some_iff_append.1 hfind
  refine ⟨List.mem_append_right _ List.mem_cons_self, hp, fun k hk hlt => ?_⟩
  rcases List.mem_append.1 hk with hk | hk
  · simpa using hxs k hk
  · -- the heads from `h` on are not below it
    obtain ⟨m, -, ty⟩ := t.of_append
    cases ty with
    | cons hpos ty =>
      rcases List.mem_cons.1 hk with rfl | hk
      · exact absurd hlt (Nat.lt_irrefl _)
      · have hle := (ty.bounds hk).1
        omega

/-- **Cutting a piece in two**: `w` points stay, the rest is a piece of its own. -/
theorem split (t : Tiles len a (xs ++ h :: ys) b) (hw : 0 < w) (hlt : w < len h) (h₁ : len' h = w)
    (h₂ : len' (h + w) = len h - w) (heq : ∀ k ∈ xs ++ ys, len' k = len k) :
    Tiles len' a (xs ++ h :: (h + w) :: ys) b := by
  obtain ⟨m, tx, tr⟩ := t.of_append
  cases tr with
  | cons hpos ty =>
    have hx : Tiles len' a xs h := tx.congr (fun k hk => heq k (List.mem_append_left _ hk))
    have hy : Tiles len' (h + len h) ys b := ty.congr (fun k hk => heq k (List.mem_append_right _ hk))
    have hend : h + w + len' (h + w) = h + len h := by omega
    refine hx.append (.cons (h₁ ▸ hw) ?_)
    rw [h₁]
    refine .cons (by omega) ?_
    rw [hend]
    exact hy

end Tiles
end Tiling
