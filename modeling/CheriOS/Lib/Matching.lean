import Mathlib.Logic.Function.Basic
import Mathlib.Data.Option.Basic
/-!
# Matching — partial matchings as functions

A partial matching gives each element its partner, or none; an element may be its own partner.  Linking two elements
overwrites what both had, and keeps a matching exactly when it takes nobody's partner away.
-/
namespace Matching

variable {α : Type} [DecidableEq α] {f : α → Option α} {a b x y : α}

/-- **A matching**: whoever is a partner has that partner. -/
def Symm (f : α → Option α) : Prop := ∀ ⦃a b⦄, f a = some b → f b = some a

/-- `a` and `b` become partners, whatever they were. -/
def link (f : α → Option α) (a b : α) : α → Option α := Function.update (Function.update f b (some a)) a (some b)

@[simp] theorem link_left : link f a b a = some b := Function.update_self ..

theorem link_right : link f a b b = some a := by
  by_cases h : b = a
  · subst h
    simp
  · simp [link, h]

theorem link_of_ne (ha : x ≠ a) (hb : x ≠ b) : link f a b x = f x := by simp [link, ha, hb]

omit [DecidableEq α] in
theorem Symm.inj (h : Symm f) (hx : f x = some a) (hy : f y = some a) : x = y :=
  Option.some.inj ((h hx).symm.trans (h hy))

/-- **Linking to a free element keeps a matching** exactly when the other one is free too, or its own partner. -/
theorem Symm.link_iff (h : Symm f) (hb : f b = none) : Symm (link f a b) ↔ f a = none ∨ f a = some a := by
  constructor
  · intro hl
    cases ha : f a with
    | none => exact .inl rfl
    | some t =>
      -- the old partner of `a` still points at it
      right
      have hta : f t = some a := h ha
      have htb : t ≠ b := by
        rintro rfl
        rw [hb] at hta
        cases hta
      by_contra hne
      have hne' : t ≠ a := fun he => hne (by rw [he])
      have hat := hl ((link_of_ne hne' htb).trans hta)
      rw [link_left] at hat
      exact htb (Option.some.inj hat).symm
  · intro hfree x y hxy
    by_cases hxa : x = a
    · subst hxa
      rw [link_left] at hxy
      rw [← Option.some.inj hxy, link_right]
    by_cases hxb : x = b
    · subst hxb
      rw [link_right] at hxy
      rw [← Option.some.inj hxy, link_left]
    rw [link_of_ne hxa hxb] at hxy
    have hyx : f y = some x := h hxy
    have hya : y ≠ a := by
      rintro rfl
      rcases hfree with hn | hs
      · rw [hn] at hyx
        cases hyx
      · rw [hs] at hyx
        exact hxa (Option.some.inj hyx).symm
    have hyb : y ≠ b := by
      rintro rfl
      rw [hb] at hyx
      cases hyx
    rw [link_of_ne hya hyb, hyx]

end Matching
