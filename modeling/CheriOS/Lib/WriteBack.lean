import Mathlib.Data.Set.Basic
import Mathlib.Logic.Function.Basic
/-!
# WriteBack — one line of a store, held back

A line holds what one key of a store is to be, while the store may still have the old value.  `view` is the store as its
reader sees it, with the line in its place.  A cache of one line writes it back, drops it for another and changes it; the
first two leave the view.

Where a store is known only in part, `Meets` says what is known of it and of the line, and each of these steps keeps it.
-/
namespace WriteBack

/-- **A line of a store.** -/
structure Line (κ ν : Type) where
  key : κ
  val : ν
  dirty : Bool

variable {κ ν : Type} {S : Set κ} {l m : Line κ ν} {f g : κ → ν} {k : κ}

/-- **The store with the line in its place.** -/
def Line.view [DecidableEq κ] (l : Line κ ν) (f : κ → ν) : κ → ν := Function.update f l.key l.val

/-- **A line of the keys `S`**: clean, it is the store's own value; dirty, its key is one of these. -/
structure Coherent (S : Set κ) (l : Line κ ν) (f : κ → ν) : Prop where
  clean : l.dirty = false → l.key ∈ S → f l.key = l.val
  held : l.dirty = true → l.key ∈ S

namespace Coherent

theorem of_clean (hl : l.dirty = false) (hs : l.key ∈ S → f l.key = l.val) : Coherent S l f :=
  ⟨fun _ => hs, fun hd => absurd (hl.symm.trans hd) (by decide)⟩

theorem of_dirty (hl : l.dirty = true) (hk : l.key ∈ S) : Coherent S l f :=
  ⟨fun hf => absurd (hl.symm.trans hf) (by decide), fun _ => hk⟩

end Coherent

section Whole

variable [DecidableEq κ]

@[simp] theorem view_key (l : Line κ ν) (f : κ → ν) : l.view f l.key = l.val := Function.update_self ..

theorem view_ne (hk : k ≠ l.key) : l.view f k = f k := Function.update_of_ne hk ..

/-- A clean line is not seen. -/
theorem Coherent.view_clean (h : Coherent S l f) (hl : l.dirty = false) (hk : k ∈ S) : l.view f k = f k := by
  by_cases he : k = l.key
  · subst he
    rw [view_key]
    exact (h.clean hl hk).symm
  · exact view_ne he

/-- **Written back**: where the store has what was seen, the line no longer shows. -/
theorem flushed (hk : m.key = l.key) (hv : m.val = l.val) (hl : m.dirty = false)
    (hs : ∀ k ∈ S, g k = l.view f k) :
    Coherent S m g ∧ ∀ k ∈ S, m.view g k = l.view f k := by
  refine ⟨.of_clean hl fun hmem => ?_, fun k hmem => ?_⟩
  · rw [hs _ hmem, hk, view_key, hv]
  · by_cases he : k = m.key
    · subst he
      rw [view_key, hk, view_key, hv]
    · rw [view_ne he, hs k hmem]

/-- **Loaded**: a line read from the store does not show. -/
theorem loaded (hv : l.val = f l.key) (hl : l.dirty = false) :
    Coherent S l f ∧ l.view f = f := by
  refine ⟨.of_clean hl fun _ => hv.symm, ?_⟩
  rw [Line.view, hv, Function.update_eq_self]

/-- **Changed**: its key is seen with the new value. -/
theorem changed (hk : m.key = l.key) (hl : m.dirty = true) (hmem : l.key ∈ S) :
    Coherent S m f ∧ m.view f = Function.update (l.view f) l.key m.val := by
  refine ⟨.of_dirty hl (hk ▸ hmem), ?_⟩
  rw [Line.view, Line.view, hk, Function.update_idem]

end Whole

/-! ## Stores known in part -/

variable {P P' : κ → ν → Prop}

/-- **What is known of a store and its line**: `P` of the line's value, and of the store's except where a dirty line stands
for it. -/
structure Meets (P : κ → ν → Prop) (l : Line κ ν) (f : κ → ν) : Prop where
  line : P l.key l.val
  store : ∀ k, (l.dirty = true → k ≠ l.key) → P k (f k)

namespace Meets

theorem imp (h : Meets P l f) (hP : ∀ k v, P k v → P' k v) : Meets P' l f :=
  ⟨hP _ _ h.line, fun k hk => hP k _ (h.store k hk)⟩

/-- A store of which the same is known where it has changed. -/
theorem congr (h : Meets P l f) (hg : ∀ k, P k (f k) → P k (g k)) : Meets P l g :=
  ⟨h.line, fun k hk => hg k (h.store k hk)⟩

/-- **Written back.** -/
theorem flush [DecidableEq κ] (h : Meets P l f) (hk : m.key = l.key) (hv : m.val = l.val) (hg : g = Function.update f l.key l.val) :
    Meets P m g := by
  subst hg
  refine ⟨by rw [hk, hv]; exact h.line, fun k _ => ?_⟩
  by_cases he : k = l.key
  · subst he
    rw [Function.update_self]
    exact h.line
  · rw [Function.update_of_ne he]
    exact h.store k fun _ => he

/-- **Loaded**, when nothing was held back. -/
theorem load (h : Meets P l f) (hl : l.dirty = false) (hv : m.val = f m.key) : Meets P m f := by
  have hstore : ∀ k, P k (f k) := fun k => h.store k fun hd => absurd (hl.symm.trans hd) (by decide)
  exact ⟨hv ▸ hstore m.key, fun k _ => hstore k⟩

/-- **Changed**, or put in place of a line that was not held back: all that is known of its key is known of its value. -/
theorem edit (h : Meets P l f) (hl : l.dirty = true → m.key = l.key) (hm : m.dirty = true)
    (hP : ∀ k v, k ≠ m.key → P k v → P' k v) (hval : P' m.key m.val) : Meets P' m f :=
  ⟨hval, fun k hk => hP k _ (hk hm) (h.store k fun hd he => hk hm (he.trans (hl hd).symm))⟩

/-- **Written past the line**, when nothing was held back. -/
theorem past (h : Meets P l f) (hl : l.dirty = false) (hg : ∀ k, P k (f k) → P' k (g k)) (hval : P' m.key m.val) :
    Meets P' m g :=
  ⟨hval, fun k _ => hg k (h.store k fun hd => absurd (hl.symm.trans hd) (by decide))⟩

end Meets
end WriteBack
