import CheriOS.Memmgt.Mmap
/-!
# Bzero — what clearing a region writes

`bzero` stores upwards and stops at the first store that the capability refuses.  `wiped` is the number of bytes it has
stored by then; they are the first bytes from the address on, and the capability covers each of them.
-/
namespace CheriOS
namespace Memmgt

open Outcome

variable {c : Cap} {s : State} {mem : BitVec 64 → BitVec 8} {a x i : BitVec 64} {n k : Nat}

/-! ## Zeroed memory -/

@[simp] theorem zeroed_zero : zeroed mem a 0 = mem := by
  funext x
  simp [zeroed]

theorem zeroed_of_lt (h : (x - a).toNat < n) : zeroed mem a n x = 0 := if_pos h

theorem zeroed_of_ge (h : n ≤ (x - a).toNat) : zeroed mem a n x = mem x := if_neg (Nat.not_lt.2 h)

/-- **Zeroing on from where the last bytes ended.** -/
theorem zeroed_zeroed (h : n + k ≤ 2 ^ 64) : zeroed (zeroed mem a n) (a + BitVec.ofNat 64 n) k = zeroed mem a (n + k) := by
  funext x
  have hsub : x - (a + BitVec.ofNat 64 n) = x - a - BitVec.ofNat 64 n := by bv_omega
  have hiff : ((x - (a + BitVec.ofNat 64 n)).toNat < k ∨ (x - a).toNat < n) ↔ (x - a).toNat < n + k := by
    rw [hsub, BitVec.toNat_sub, BitVec.toNat_ofNat]
    have hd := (x - a).isLt
    omega
  unfold zeroed
  by_cases h₁ : (x - (a + BitVec.ofNat 64 n)).toNat < k
  · rw [if_pos h₁, if_pos (hiff.1 (Or.inl h₁))]
  · by_cases h₂ : (x - a).toNat < n
    · rw [if_neg h₁, if_pos h₂, if_pos (hiff.1 (Or.inr h₂))]
    · rw [if_neg h₁, if_neg h₂, if_neg (fun h₃ => (hiff.2 h₃).elim h₁ h₂)]

/-! ## The stores -/

/-- The bytes stored before the first store that is refused. -/
def stored (c : Cap) : List Nat → BitVec 64 → Nat
  | [], _ => 0
  | n :: ns, i => if fault c true i n = none then n + stored c ns (i + BitVec.ofNat 64 n) else 0

/-- **The bytes that `bzero(c, length)` stores to**, from the address of `c` on. -/
def wiped (c : Cap) (length : BitVec 64) : Nat := stored c (memsetStores c.addr length) 0

theorem stored_le (c : Cap) (ns : List Nat) (i : BitVec 64) : stored c ns i ≤ ns.sum := by
  induction ns generalizing i with
  | nil => exact Nat.le_refl _
  | cons n ns ih =>
    unfold stored
    split
    · exact Nat.add_le_add_left (ih _) _
    · exact Nat.zero_le _

theorem memsetStores_sum (dst length : BitVec 64) : (memsetStores dst length).sum = length.toNat := by
  unfold memsetStores
  split
  · simp
  · simp only [List.sum_append, List.sum_replicate_nat]
    omega

theorem wiped_le (c : Cap) (length : BitVec 64) : wiped c length ≤ length.toNat :=
  memsetStores_sum c.addr length ▸ stored_le c _ 0

theorem fault_inBounds {st : Bool} (h : fault c st i n = none) : (c.offset + i).toNat + n ≤ c.len.toNat := by
  unfold fault at h
  split_ifs at h
  omega

theorem fault_store (h : fault c true i n = none) : c.hasPerms Cap.permStore = true := by
  unfold fault at h
  split_ifs at h with _ _ hp
  simpa using hp

/-- **What is stored is in bounds.** -/
theorem stored_covered (ns : List Nat) (hsum : ns.sum < 2 ^ 64) (hx : (x - (c.addr + i)).toNat < stored c ns i) :
    (x - c.base).toNat < c.len.toNat := by
  induction ns generalizing i with
  | nil => cases hx
  | cons n ns ih =>
    unfold stored at hx
    rw [List.sum_cons] at hsum
    split at hx
    case isFalse => cases hx
    case isTrue hok =>
      have hb := fault_inBounds hok
      rcases Nat.lt_or_ge (x - (c.addr + i)).toNat n with hlt | hge
      · have heq : x - c.base = x - (c.addr + i) + (c.offset + i) := by
          unfold Cap.addr
          bv_omega
        have hlen := c.len.isLt
        rw [heq, BitVec.toNat_add]
        omega
      · refine ih (i := i + BitVec.ofNat 64 n) (by omega) ?_
        have heq : x - (c.addr + (i + BitVec.ofNat 64 n)) = x - (c.addr + i) - BitVec.ofNat 64 n := by bv_omega
        rw [heq, BitVec.toNat_sub_of_le]
        · rw [BitVec.toNat_ofNat, Nat.mod_eq_of_lt (by omega)]
          omega
        · rw [BitVec.le_def, BitVec.toNat_ofNat, Nat.mod_eq_of_lt (by omega)]
          exact hge

/-- **`bzero` stores only to what the capability covers.** -/
theorem wiped_covered {length : BitVec 64} (hx : (x - c.addr).toNat < wiped c length) :
    (x - c.base).toNat < c.len.toNat := by
  refine stored_covered (memsetStores c.addr length) (i := 0) ?_ ?_
  · rw [memsetStores_sum]
    exact length.isLt
  · rw [show c.addr + 0 = c.addr from BitVec.add_zero c.addr]
    exact hx

theorem stored_perms {ns : List Nat} (h : stored c ns i ≠ 0) : c.hasPerms Cap.permStore = true := by
  cases ns with
  | nil => exact absurd rfl h
  | cons n ns =>
    unfold stored at h
    split at h
    case isTrue hok => exact fault_store hok
    case isFalse => exact absurd rfl h

theorem stored_of_fits {ns : List Nat} (hc : c.tag = true) (hs : c.isSealed = false)
    (hp : c.hasPerms Cap.permStore = true) (hfit : c.offset.toNat + i.toNat + ns.sum ≤ c.len.toNat) :
    stored c ns i = ns.sum := by
  induction ns generalizing i with
  | nil => rfl
  | cons n ns ih =>
    rw [List.sum_cons] at hfit
    have hlen := c.len.isLt
    have hok : fault c true i n = none := by
      unfold fault
      have hle : ¬ c.len.toNat < (c.offset + i).toNat + n := by
        rw [BitVec.toNat_add]
        omega
      simp only [hc, hs, hp, if_neg hle]
      rfl
    have hi : (i + BitVec.ofNat 64 n).toNat = i.toNat + n := by
      rw [BitVec.toNat_add, BitVec.toNat_ofNat]
      omega
    rw [stored, if_pos hok, ih (by rw [hi]; omega), List.sum_cons]

/-! ## `bzero` -/

theorem access_bind {isStore : Bool} {α : Type} {f : Unit → Call α} {Q : α → State → Prop} {E : Stop → State → Prop}
    (hok : fault c isStore i n = none → Ends (f ()) s Q E)
    (hstop : ∀ cause, fault c isStore i n = some cause → E (.exception cause) s) :
    Ends (access c isStore i n >>= f) s Q E := by
  unfold access
  cases h : fault c isStore i n with
  | none => exact hok h
  | some cause => exact hstop cause h

theorem storeZeros_ends (c : Cap) (ns : List Nat) (i : BitVec 64) (s : State) (hsum : ns.sum < 2 ^ 64)
    (hpos : ∀ n ∈ ns, 0 < n) :
    Ends (storeZeros c ns i) s
      (fun _ s' => s' = s.wipe (c.addr + i) (stored c ns i) ∧ stored c ns i = ns.sum)
      (fun e s' => s' = s.wipe (c.addr + i) (stored c ns i) ∧ stored c ns i < ns.sum ∧ ∃ cause, e = .exception cause) := by
  induction ns generalizing i s with
  | nil => exact ⟨by simp [State.wipe, stored], rfl⟩
  | cons n ns ih =>
    rw [List.sum_cons] at hsum
    unfold storeZeros stored
    refine access_bind (fun hok => ?_) (fun cause hf => ⟨?_, ?_, cause, rfl⟩)
    · rw [if_pos hok]
      have hz := stored_le c ns (i + BitVec.ofNat 64 n)
      have hadd : c.addr + (i + BitVec.ofNat 64 n) = c.addr + i + BitVec.ofNat 64 n := by bv_omega
      have hwipe : (s.wipe (c.addr + i) n).wipe (c.addr + (i + BitVec.ofNat 64 n))
          (stored c ns (i + BitVec.ofNat 64 n)) = s.wipe (c.addr + i) (n + stored c ns (i + BitVec.ofNat 64 n)) := by
        unfold State.wipe
        rw [hadd, zeroed_zeroed (by omega)]
      refine ends_modify_bind.2 ((ih (i + BitVec.ofNat 64 n) (s.wipe (c.addr + i) n) (by omega)
        (fun k hk => hpos k (List.mem_cons_of_mem _ hk))).mono ?_ ?_)
      · rintro _ _ ⟨rfl, hall⟩
        exact ⟨hwipe, by rw [hall, List.sum_cons]⟩
      · rintro e _ ⟨rfl, hlt, he⟩
        exact ⟨hwipe, by rw [List.sum_cons]; omega, he⟩
    · rw [if_neg (by simp [hf])]
      simp [State.wipe]
    · rw [if_neg (by simp [hf]), List.sum_cons]
      have := hpos n List.mem_cons_self
      omega

theorem memsetStores_pos (dst length : BitVec 64) : ∀ n ∈ memsetStores dst length, 0 < n := by
  intro n hn
  unfold memsetStores at hn
  split at hn
  · rw [List.eq_of_mem_replicate hn]
    exact Nat.zero_lt_one
  · rcases List.mem_append.1 hn with hn | hn
    · rcases List.mem_append.1 hn with hn | hn <;> rw [List.eq_of_mem_replicate hn] <;> decide
    · rw [List.eq_of_mem_replicate hn]
      decide

/-- **`bzero` wipes what it stores to**, and returns exactly when that is all it was asked to. -/
theorem bzero_ends (c : Cap) (length : BitVec 64) (s : State) :
    Ends (bzero c length) s
      (fun _ s' => s' = s.wipe c.addr (wiped c length) ∧ wiped c length = length.toNat)
      (fun e s' => s' = s.wipe c.addr (wiped c length) ∧ wiped c length < length.toNat ∧ ∃ cause, e = .exception cause) := by
  have hsum : (memsetStores c.addr length).sum < 2 ^ 64 := by
    rw [memsetStores_sum]
    exact length.isLt
  have h := storeZeros_ends c (memsetStores c.addr length) 0 s hsum (memsetStores_pos _ _)
  rw [show c.addr + 0 = c.addr from BitVec.add_zero c.addr, memsetStores_sum] at h
  exact h

/-- **Within the bounds of a capability that may store, `bzero` clears all it was asked to.** -/
theorem wiped_of_fits {length : BitVec 64} (hc : c.tag = true) (hs : c.isSealed = false)
    (hp : c.hasPerms Cap.permStore = true) (hfit : c.offset.toNat + length.toNat ≤ c.len.toNat) :
    wiped c length = length.toNat := by
  have hsum : c.offset.toNat + (0 : BitVec 64).toNat + (memsetStores c.addr length).sum ≤ c.len.toNat := by
    rw [memsetStores_sum]
    exact hfit
  have h := stored_of_fits hc hs hp hsum
  rw [memsetStores_sum] at h
  exact h

end Memmgt
end CheriOS
