import Mathlib.Data.List.Chain
import Mathlib.Data.List.Nodup
import Mathlib.Data.Finset.Card
import Mathlib.Logic.Function.Basic
/-!
# Chain — chains in a table of successors

A table gives each cell the cell that follows it; some of its values end a chain, and one marks a free cell.  Owners hold
chains that have no cell in common.  Growing a chain by a free cell, cutting it and removing it keep this, and change only
the owner whose chain it is.
-/
namespace Chain

variable {α ι : Type} {t t' : α → α} {E V : α → Prop} {z n x a : α} {l m : List α} {own : ι → List α} {i j : ι}

/-- **A chain**: each cell is followed by the next, and the last by a value that ends. -/
structure Linked (t : α → α) (E : α → Prop) (l : List α) : Prop where
  link : l.IsChain (fun a b => t a = b)
  last : ∀ a ∈ l.getLast?, E (t a)

namespace Linked

theorem nil : Linked t E [] := ⟨.nil, fun a ha => by cases ha⟩

theorem single (h : E (t a)) : Linked t E [a] := ⟨.singleton a, fun b hb => by cases hb; exact h⟩

/-- A chain is told by the successors of its cells. -/
theorem congr (h : Linked t E l) (ht : ∀ a ∈ l, t' a = t a) : Linked t' E l where
  link := h.link.imp_of_mem_imp fun a b ha _ he => (ht a ha).trans he
  last := fun a ha => by rw [ht a (List.mem_of_mem_getLast? ha)]; exact h.last a ha

theorem right (h : Linked t E (l ++ m)) : Linked t E m where
  link := h.link.right_of_append
  last := fun a ha => h.last a (by rw [List.getLast?_append, ha]; rfl)

/-- The links up to a cell, with another value at the cell. -/
theorem cut (h : Linked t E (l ++ x :: m)) (ht : ∀ a, a ∈ l → t' a = t a) (he : E (t' x)) :
    Linked t' E (l ++ [x]) where
  link := by
    have hlink : (l ++ [x]).IsChain (fun a b => t a = b) := h.link.prefix ⟨m, by simp⟩
    rw [List.isChain_append] at hlink ⊢
    refine ⟨hlink.1.imp_of_mem_imp fun a b ha _ hab => (ht a ha).trans hab, .singleton x, fun a ha b hb => ?_⟩
    rw [ht a (List.mem_of_mem_getLast? ha)]
    exact hlink.2.2 a ha b hb
  last := fun a ha => by
    rw [List.getLast?_append] at ha
    cases ha
    exact he

theorem grow (h : Linked t E (l ++ [x])) (ht : ∀ a, a ∈ l → t' a = t a) (hx : t' x = n) (he : E (t' n)) :
    Linked t' E (l ++ [x, n]) where
  link := by
    have hlink := h.link
    rw [List.isChain_append] at hlink ⊢
    refine ⟨hlink.1.imp_of_mem_imp fun a b ha _ hab => (ht a ha).trans hab, by simpa using hx, fun a ha b hb => ?_⟩
    rw [ht a (List.mem_of_mem_getLast? ha)]
    exact hlink.2.2 a ha b hb
  last := fun a ha => by
    rw [List.getLast?_append] at ha
    cases ha
    exact he

/-- **The table leads from a cell to the next.** -/
theorem next (h : Linked t E (l ++ x :: n :: m)) : t x = n := by
  have hlink := h.link.right_of_append
  exact (List.isChain_cons_cons.1 hlink).1

theorem ends (h : Linked t E (l ++ [x])) : E (t x) := h.last x (by simp)

/-- **From one place of a chain to the next.** -/
theorem step {k : Nat} (h : Linked t E l) (hk : l[k]? = some a) : l[k + 1]? = some (t a) ∨ l[k + 1]? = none ∧ E (t a) := by
  obtain ⟨hlt, rfl⟩ := List.getElem?_eq_some_iff.1 hk
  rcases Nat.lt_or_ge (k + 1) l.length with hlt' | hge
  · exact .inl (List.getElem?_eq_some_iff.2 ⟨hlt', ((List.isChain_iff_getElem.1 h.link) k hlt').symm⟩)
  · refine .inr ⟨List.getElem?_eq_none_iff.2 hge, h.last _ ?_⟩
    rw [List.getLast?_eq_getElem?, show l.length - 1 = k by omega]
    exact hk

/-- **No cell of a chain is free.** -/
theorem used (h : Linked t E l) (hV : ∀ a ∈ l, V a) (hz : ¬ V z) (hE : ¬ E z) (ha : a ∈ l) : t a ≠ z := by
  obtain ⟨p, q, rfl⟩ := List.append_of_mem ha
  cases q with
  | nil => exact fun he => hE (he ▸ h.ends)
  | cons b q =>
    rw [h.next]
    rintro rfl
    exact hz (hV _ (by simp))

end Linked

/-- **Owners of chains**: cells are `V`, and no cell is in two chains or twice in one. -/
structure Owns (t : α → α) (E V : α → Prop) (own : ι → List α) : Prop where
  linked : ∀ i, Linked t E (own i)
  nodup : ∀ i, (own i).Nodup
  apart : ∀ i j, i ≠ j → (own i).Disjoint (own j)
  valid : ∀ i, ∀ a ∈ own i, V a

namespace Owns

variable (hz : ¬ V z) (hE : ¬ E z)

include hz hE in
/-- A free cell is in no chain. -/
theorem free (h : Owns t E V own) (hn : t n = z) (i : ι) : n ∉ own i :=
  fun ha => (h.linked i).used (h.valid i) hz hE ha hn

variable [DecidableEq ι]

/-- **The chain of one owner becomes another**, and the table stays on the chains of the others. -/
theorem replace (h : Owns t E V own) (hl : Linked t' E l) (hd : l.Nodup) (hv : ∀ a ∈ l, V a)
    (ho : ∀ j, j ≠ i → ∀ a ∈ own j, t' a = t a ∧ a ∉ l) : Owns t' E V (Function.update own i l) := by
  refine ⟨fun j => ?_, fun j => ?_, fun j k hjk => ?_, fun j => ?_⟩
  · by_cases hj : j = i
    · subst hj; rwa [Function.update_self]
    · rw [Function.update_of_ne hj]
      exact (h.linked j).congr fun a ha => (ho j hj a ha).1
  · by_cases hj : j = i
    · subst hj; rwa [Function.update_self]
    · rw [Function.update_of_ne hj]
      exact h.nodup j
  · by_cases hj : j = i
    · subst hj
      rw [Function.update_self, Function.update_of_ne (Ne.symm hjk)]
      exact fun a ha hk => (ho k (Ne.symm hjk) a hk).2 ha
    · rw [Function.update_of_ne hj]
      by_cases hk : k = i
      · subst hk
        rw [Function.update_self]
        exact fun a ha hl => (ho j hj a ha).2 hl
      · rw [Function.update_of_ne hk]
        exact h.apart j k hjk
  · by_cases hj : j = i
    · subst hj; rwa [Function.update_self]
    · rw [Function.update_of_ne hj]
      exact h.valid j

include hz hE in
/-- **A free cell becomes a chain.** -/
theorem create (h : Owns t E V own) (hn : t n = z) (hv : V n) (he : E (t' n)) (ht : ∀ a, a ≠ n → t' a = t a) (i : ι) :
    Owns t' E V (Function.update own i [n]) := by
  refine h.replace (.single he) (List.nodup_singleton n) (by simpa using hv) fun j _ a ha => ?_
  have hne : a ≠ n := by
    rintro rfl
    exact h.free hz hE hn j ha
  exact ⟨ht a hne, by simpa using hne⟩

include hz hE in
/-- **A chain grows by a free cell.** -/
theorem stretch (h : Owns t E V own) (ho : own i = l ++ [x]) (hn : t n = z) (hv : V n) (he : E (t' n)) (hx : t' x = n)
    (ht : ∀ a, a ≠ n → a ≠ x → t' a = t a) : Owns t' E V (Function.update own i (l ++ [x, n])) := by
  have hl := h.linked i
  have hd := h.nodup i
  have hf := h.free hz hE hn
  rw [ho] at hl hd
  have hfi := hf i
  rw [ho] at hfi
  have hxl : ∀ a ∈ l, a ≠ x := fun a ha he => (List.nodup_append.1 hd).2.2 a ha x (by simp) he
  refine h.replace (hl.grow (fun a ha => ht a ?_ (hxl a ha)) hx he) ?_ ?_ fun j hj a ha => ?_
  · rintro rfl
    exact hfi (by simp [ha])
  · rw [show l ++ [x, n] = (l ++ [x]) ++ [n] by simp]
    refine List.nodup_append.2 ⟨hd, List.nodup_singleton n, fun a ha b hb he => ?_⟩
    rw [List.mem_singleton.1 hb] at he
    exact hfi (he ▸ ha)
  · intro a ha
    rw [show l ++ [x, n] = own i ++ [n] by simp [ho], List.mem_append, List.mem_singleton] at ha
    rcases ha with ha | rfl
    · exact h.valid i a ha
    · exact hv
  · have hni : a ∉ own i := fun hi => h.apart j i hj ha hi
    rw [ho] at hni
    have hne : a ≠ n := by
      rintro rfl
      exact hf j ha
    refine ⟨ht a hne (by rintro rfl; exact hni (by simp)), fun hmem => ?_⟩
    rw [show l ++ [x, n] = (l ++ [x]) ++ [n] by simp, List.mem_append, List.mem_singleton] at hmem
    exact hmem.elim hni hne

/-- **A chain is cut behind a cell**, and the table stays on all other chains. -/
theorem cut (h : Owns t E V own) (ho : own i = l ++ x :: m) (he : E (t' x)) (ht : ∀ a, a ∉ m → a ≠ x → t' a = t a) :
    Owns t' E V (Function.update own i (l ++ [x])) := by
  have hl := h.linked i
  have hd := h.nodup i
  have hv := h.valid i
  rw [ho] at hl hd hv
  obtain ⟨hdl, -, hlm⟩ := List.nodup_append.1 hd
  have hsub : ∀ a, a ∈ l ++ [x] → a ∈ l ++ x :: m := fun a ha => by
    rw [List.mem_append, List.mem_singleton] at ha
    rcases ha with ha | rfl <;> simp [*]
  refine h.replace (hl.cut (fun a ha => ht a ?_ ?_) he) ?_
    (fun a ha => hv a (hsub a ha)) fun j hj a ha => ?_
  · exact fun hm => hlm a ha a (List.mem_cons_of_mem _ hm) rfl
  · exact fun hx => hlm a ha x (by simp) hx
  · exact hd.sublist (List.Sublist.append_left (by simp) l)
  · have hni : a ∉ own i := fun hi => h.apart j i hj ha hi
    rw [ho] at hni
    refine ⟨ht a (fun hm => hni (by simp [hm])) (by rintro rfl; exact hni (by simp)), fun hmem => hni (hsub a hmem)⟩

/-- **A chain is removed.** -/
theorem remove (h : Owns t E V own) (ht : ∀ a, a ∉ own i → t' a = t a) : Owns t' E V (Function.update own i []) :=
  h.replace .nil List.nodup_nil (fun _ ha => absurd ha (List.not_mem_nil)) fun j hj a ha =>
    ⟨ht a fun hi => h.apart j i hj ha hi, List.not_mem_nil⟩

end Owns

/-! ## Free cells -/

variable [DecidableEq α] {S : Finset α}

/-- **How many of the cells `S` are free.** -/
def freeCount (t : α → α) (z : α) (S : Finset α) : Nat := (S.filter (fun a => t a = z)).card

theorem freeCount_le (t : α → α) (z : α) (S : Finset α) : freeCount t z S ≤ S.card := Finset.card_filter_le ..

/-- **A free cell is taken.** -/
theorem freeCount_take (hn : n ∈ S) (hz : t n = z) (ht : ∀ a ∈ S, t' a = z ↔ a ≠ n ∧ t a = z) :
    freeCount t' z S + 1 = freeCount t z S := by
  have herase : S.filter (fun a => t' a = z) = (S.filter (fun a => t a = z)).erase n := by
    ext a
    rw [Finset.mem_filter, Finset.mem_erase, Finset.mem_filter]
    constructor
    · rintro ⟨hS, ha⟩
      obtain ⟨hne, hta⟩ := (ht a hS).1 ha
      exact ⟨hne, hS, hta⟩
    · rintro ⟨hne, hS, hta⟩
      exact ⟨hS, (ht a hS).2 ⟨hne, hta⟩⟩
  unfold freeCount
  rw [herase]
  exact Finset.card_erase_add_one (Finset.mem_filter.2 ⟨hn, hz⟩)

/-- **Cells are freed.** -/
theorem freeCount_release (hd : l.Nodup) (hS : ∀ a ∈ l, a ∈ S) (hu : ∀ a ∈ l, t a ≠ z)
    (ht : ∀ a ∈ S, t' a = z ↔ a ∈ l ∨ t a = z) : freeCount t' z S = freeCount t z S + l.length := by
  have hunion : S.filter (fun a => t' a = z) = S.filter (fun a => t a = z) ∪ l.toFinset := by
    ext a
    rw [Finset.mem_filter, Finset.mem_union, Finset.mem_filter, List.mem_toFinset]
    constructor
    · rintro ⟨haS, ha⟩
      exact ((ht a haS).1 ha).elim .inr fun h => .inl ⟨haS, h⟩
    · rintro (⟨haS, ha⟩ | ha)
      · exact ⟨haS, (ht a haS).2 (.inr ha)⟩
      · exact ⟨hS a ha, (ht a (hS a ha)).2 (.inl ha)⟩
  have hdisj : Disjoint (S.filter (fun a => t a = z)) l.toFinset := by
    rw [Finset.disjoint_left]
    intro a ha hl
    exact hu a (List.mem_toFinset.1 hl) (Finset.mem_filter.1 ha).2
  unfold freeCount
  rw [hunion, Finset.card_union_of_disjoint hdisj, List.toFinset_card_of_nodup hd]

end Chain
