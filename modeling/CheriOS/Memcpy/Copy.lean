import CheriOS.Lib.Mask
import CheriOS.Memcpy.Loops
/-!
# Copy — the text from its start to its end

Between its loops the text computes how far each of them goes: the bytes before the first granule, the granules that the
rest of the length fills, and what is left.  A part of the text leads from one place to the next with the copy as far as
it has come, and the parts are put together at the end.
-/
namespace CheriOS
namespace Memcpy

open DelaySlot

/-! ## Masks -/

variable {z : Nat}

theorem and_mask (hz : CapSize z) (x : BitVec 64) : (x &&& (BitVec.ofNat 64 z - 1)).toNat = x.toNat % z := by
  rcases hz with rfl | rfl | rfl
  · exact Mask.toNat_and_low (k := 3) (by decide)
  · exact Mask.toNat_and_low (k := 4) (by decide)
  · exact Mask.toNat_and_low (k := 5) (by decide)

theorem and_neg (hz : CapSize z) (x : BitVec 64) : (x &&& -BitVec.ofNat 64 z).toNat = x.toNat / z * z := by
  rcases hz with rfl | rfl | rfl
  · exact Mask.toNat_and_not_low (k := 3)
  · exact Mask.toNat_and_not_low (k := 4)
  · exact Mask.toNat_and_not_low (k := 5)

variable {w D S n h : Nat} {decode : CapBits w → Cap} {s₀ s : State w} {load store : Instr}

/-! ## From the start to the test of the alignments -/

/-- The address of an argument is computed by an addition that traps. -/
def NoOverflow (c : Cap) : Prop := c.base.saddOverflow c.offset = false

theorem Points.addr_toNat {c : Cap} {p : BitVec 32} {A : Nat} (hP : Points c p A n) (hn : 0 < n) :
    (c.base + c.offset).toNat = A := by
  have hle := hP.le
  have hstart := hP.start
  rw [BitVec.toNat_add]
  omega

theorem aligned_eq {c : Cap} {p : BitVec 32} {A : Nat} (hz : CapSize z) (hP : Points c p A n) (hn : 0 < n) :
    (c.base + c.offset) &&& (BitVec.ofNat 64 z - 1) = BitVec.ofNat 64 (A % z) := by
  apply BitVec.eq_of_toNat_eq
  rw [and_mask hz, hP.addr_toNat hn, BitVec.toNat_ofNat, Nat.mod_eq_of_lt (hz.mod_lt A)]

theorem Args.le (hA : Args decode s₀ D S n) : n ≤ 2 ^ 63 := by
  have hd := hA.dst.le
  have hs := hA.src.le
  have hdis := hA.disjoint
  unfold Disjoint at hdis
  omega

theorem beq_nonempty (hA : Args decode s₀ D S n) (hn : 0 < n) :
    exec decode (.beq .a0 .zero 43) s₀ = some (s₀, .next) := by
  have hle := hA.le
  have hne : s₀.get .a0 ≠ s₀.get .zero := fun heq => by
    have h0 := congrArg BitVec.toNat (hA.len.symm.trans heq)
    rw [BitVec.toNat_ofNat, Nat.mod_eq_of_lt (by omega)] at h0
    exact absurd h0 (Nat.ne_of_gt hn)
  show some (s₀, if s₀.get .a0 = s₀.get .zero then Flow.branch 43 else .next) = _
  rw [if_neg hne]

theorem text_start (load store : Instr) (hz : CapSize z) (hA : Args decode s₀ D S n) (hn : 0 < n)
    (hD : NoOverflow (decode s₀.c3)) (hS : NoOverflow (decode s₀.c4)) :
    ∃ s, Runs (exec decode) (text (BitVec.ofNat 64 z) load store) ⟨0, 1, s₀⟩ ⟨12, 13, s⟩ ∧
      (∀ h, Head s₀ D S 0 h h s) ∧ s.regs.r12 = BitVec.ofNat 64 (D % z) ∧ s.regs.r13 = BitVec.ofNat 64 (S % z) := by
  have hptr : ((decode s₀.c3).tag && !(decode s₀.c3).isSealed) = true := by
    rw [hA.dst.tag, hA.dst.isSealed]
    rfl
  refine ⟨_, .next rfl (beq_nonempty hA hn) (.next rfl rfl (.next rfl rfl
    (.next rfl (exec_dadd hD) (.next rfl rfl (.next rfl rfl
    (.next rfl (exec_dadd hS) (.next rfl rfl (.next rfl rfl (.next rfl (if_pos hptr) (.next rfl rfl
    (.next rfl (exec_daddi rfl) (.refl _)))))))))))), fun h => ⟨rfl, rfl, rfl, rfl, ?_⟩, ?_, ?_⟩
  · exact .start hA.size s₀.mem D S h
  · exact aligned_eq hz hA.dst hn
  · exact aligned_eq hz hA.src hn

theorem bne_aligned (decode : CapBits w → Cap) (hz : CapSize z) (hr12 : s.regs.r12 = BitVec.ofNat 64 (D % z))
    (hr13 : s.regs.r13 = BitVec.ofNat 64 (S % z)) :
    exec decode (.bne .r12 .r13 45) s = some (s, if D % z = S % z then .next else .branch 45) :=
  exec_bne_ofNat hr12 hr13 (hz.mod_lt D) (hz.mod_lt S)

/-! ## To the return -/

theorem text_return (s : State w) (decode : CapBits w → Cap) :
    Runs (exec decode) (text (BitVec.ofNat 64 z) load store) ⟨43, 44, s⟩ ⟨caller, caller + 1, s⟩ :=
  .branch rfl rfl (.next rfl rfl (.refl _))

theorem slow_return (s : State w) (decode : CapBits w → Cap) :
    Runs (exec decode) (text (BitVec.ofNat 64 z) load store) ⟨49, 50, s⟩ ⟨caller, caller + 1, s⟩ :=
  .branch rfl rfl (.next rfl rfl (.refl _))

/-- **Byte by byte.** -/
theorem text_slow (hA : Args decode s₀ D S n) (hn : 0 < n) (hlt : n < 2 ^ 63) (hH : Head s₀ D S 0 h h s) :
    ∃ s', Runs (exec decode) (text (BitVec.ofNat 64 z) load store) ⟨45, 46, s⟩ ⟨caller, caller + 1, s'⟩ ∧
      Copied w s₀.mem s'.mem D S n h h := by
  have hloop : ByteLoop (text (BitVec.ofNat 64 z) load store) 45 .a0 := ⟨rfl, rfl, rfl, rfl, Or.inr rfl⟩
  obtain ⟨s', hrun, hH', -⟩ := byte_loop hloop hA hH (hH.a0.trans hA.len) (Or.inr (Nat.le_refl h)) hn
    (Nat.le_refl n) hlt
  exact ⟨s', hrun.trans (slow_return s' decode), hH'.copied⟩

/-! ## The fast path -/

/-- The bytes before the first granule that starts in the destination. -/
def headLen (z D : Nat) : Nat := (z - D % z) % z

theorem headLen_lt (hz : CapSize z) : headLen z D < z := Nat.mod_lt _ hz.pos

theorem text_headLen (decode : CapBits w → Cap) (load store : Instr) (hz : CapSize z)
    (hH : ∀ h, Head s₀ D S 0 h h s) (hr : s.regs.r12 = BitVec.ofNat 64 (D % z)) :
    ∃ s', Runs (exec decode) (text (BitVec.ofNat 64 z) load store) ⟨14, 15, s⟩ ⟨17, 18, s'⟩ ∧
      (∀ h, Head s₀ D S 0 h h s') ∧ s'.regs.v1 = BitVec.ofNat 64 (headLen z D) := by
  have hmod : D % z < z := Nat.mod_lt _ hz.pos
  have hz32 := hz.le
  have hhead := headLen_lt (D := D) hz
  have hr' : s.get .r12 = BitVec.ofInt 64 ((D % z : Nat) : Int) := hr
  have h14 : exec decode (.dsub .v1 .zero .r12) s = some (s.set .v1 (BitVec.ofInt 64 (0 - (D % z : Nat))), .next) := by
    have hov : (s.get .zero).ssubOverflow (s.get .r12) = false := by
      rw [hr']
      exact ssub_ofInt (a := 0) (by omega) (by omega) (by omega)
    rw [exec_dsub hov, hr', show s.get .zero = BitVec.ofInt 64 0 from rfl, ofInt_sub]
  let s₁ := s.set .v1 (BitVec.ofInt 64 (0 - (D % z : Nat)))
  have h15 : exec decode (.daddi .v1 .v1 (BitVec.ofNat 64 z)) s₁ =
      some (s₁.set .v1 (BitVec.ofInt 64 (0 - (D % z : Nat) + z)), .next) := by
    have hov : (s₁.get .v1).saddOverflow (BitVec.ofNat 64 z) = false :=
      sadd_ofInt (a := 0 - (D % z : Nat)) (b := z) (by omega) (by omega) (by omega)
    rw [exec_daddi hov, BitVec.ofInt_add]
    rfl
  let s₂ := s₁.set .v1 (BitVec.ofInt 64 (0 - (D % z : Nat) + z))
  have h16 : exec decode (.andi .v1 .v1 (BitVec.ofNat 64 z - 1)) s₂ =
      some (s₂.set .v1 (BitVec.ofInt 64 (headLen z D)), .next) := by
    have hv1 : BitVec.ofInt 64 (0 - (D % z : Nat) + z) = BitVec.ofNat 64 (z - D % z) := by
      rw [show (0 - (D % z : Nat) + z : Int) = ((z - D % z : Nat) : Int) by omega]
      rfl
    have hval : s₂.get .v1 &&& (BitVec.ofNat 64 z - 1) = BitVec.ofNat 64 (headLen z D) := by
      rw [show s₂.get .v1 = BitVec.ofNat 64 (z - D % z) from hv1]
      apply BitVec.eq_of_toNat_eq
      have hlt₁ : z - D % z < 2 ^ 64 := by omega
      have hlt₂ : headLen z D < 2 ^ 64 := by omega
      rw [and_mask hz, BitVec.toNat_ofNat, BitVec.toNat_ofNat, Nat.mod_eq_of_lt hlt₁, Nat.mod_eq_of_lt hlt₂]
      rfl
    show some (s₂.set .v1 (s₂.get .v1 &&& (BitVec.ofNat 64 z - 1)), Flow.next) = _
    rw [hval]
    rfl
  exact ⟨s₂.set .v1 (BitVec.ofInt 64 (headLen z D)), .next rfl h14 (.next rfl h15 (.next rfl h16 (.refl _))),
    fun h => ⟨(hH h).c3, (hH h).c4, (hH h).a0, (hH h).a1, (hH h).copied⟩, rfl⟩

theorem text_fast (load store : Instr) (hz : CapSize z) (hA : Args decode s₀ D S n) (hlt : n < 2 ^ 63)
    (hH : ∀ h, Head s₀ D S 0 h h s) (hv : s.regs.v1 = BitVec.ofNat 64 (headLen z D)) :
    ∃ s', Runs (exec decode) (text (BitVec.ofNat 64 z) load store) ⟨17, 18, s⟩
        ⟨if headLen z D + z ≤ n then 21 else 45, (if headLen z D + z ≤ n then 21 else 45) + 1, s'⟩ ∧
      (∀ h, Head s₀ D S 0 h h s') ∧ s'.regs.v1 = BitVec.ofNat 64 (headLen z D) := by
  have hz32 := hz.le
  have hhead := headLen_lt (D := D) hz
  have hneg : -BitVec.ofNat 64 z = BitVec.ofInt 64 (-(z : Int)) := (BitVec.ofInt_neg (n := (z : Int))).symm
  have ha0 : s.get .a0 = BitVec.ofInt 64 (n : Int) := (hH 0).a0.trans hA.len
  have hv1 : s.get .v1 = BitVec.ofInt 64 (headLen z D : Int) := hv
  have h17 : exec decode (.dsub .a2 .a0 .v1) s = some (s.set .a2 (BitVec.ofInt 64 (n - headLen z D)), .next) := by
    have hov : (s.get .a0).ssubOverflow (s.get .v1) = false := by
      rw [ha0, hv1]
      exact ssub_ofInt (by omega) (by omega) (by omega)
    rw [exec_dsub hov, ha0, hv1, ofInt_sub]
  let s₁ := s.set .a2 (BitVec.ofInt 64 (n - headLen z D))
  have h18 : exec decode (.daddi .a2 .a2 (-BitVec.ofNat 64 z)) s₁ =
      some (s₁.set .a2 (BitVec.ofInt 64 (n - headLen z D + -z)), .next) := by
    have ha2 : s₁.get .a2 = BitVec.ofInt 64 (n - headLen z D) := rfl
    have hov : (s₁.get .a2).saddOverflow (-BitVec.ofNat 64 z) = false := by
      rw [ha2, hneg]
      exact sadd_ofInt (by omega) (by omega) (by omega)
    rw [exec_daddi hov, ha2, hneg, ← BitVec.ofInt_add]
  let s₂ := s₁.set .a2 (BitVec.ofInt 64 (n - headLen z D + -z))
  have h19 : exec decode (.bltz .a2 45) s₂ = some (s₂, if headLen z D + z ≤ n then .next else .branch 45) := by
    have hsign : (s₂.get .a2).toInt < 0 ↔ ¬ headLen z D + z ≤ n := by
      rw [show s₂.get .a2 = BitVec.ofInt 64 (n - headLen z D + -z) from rfl, toInt_ofInt (by omega) (by omega)]
      omega
    show some (s₂, if (s₂.get .a2).toInt < 0 then Flow.branch 45 else .next) = _
    rw [if_congr hsign rfl rfl, ite_not]
  exact ⟨s₂, .next rfl h17 (.next rfl h18 (.test rfl h19 rfl rfl)),
    fun h => ⟨(hH h).c3, (hH h).c4, (hH h).a0, (hH h).a1, (hH h).copied⟩, hv⟩

variable {k e : Nat}

theorem Head.left (hA : Args decode s₀ D S n) (hlt : n < 2 ^ 63) (hH : Head s₀ D S k h e s) (hk : k ≤ n) :
    exec decode (.dsub .a2 .a0 .a1) s = some (s.set .a2 (BitVec.ofNat 64 (n - k)), .next) :=
  exec_dsub_ofNat (hH.a0.trans hA.len) hH.a1 hk hlt

theorem Head.set (hH : Head s₀ D S k h e s) {r : Reg} {x : BitVec 64} (hr : r ≠ .a0 ∧ r ≠ .a1) :
    Head s₀ D S k h e (s.set r x) := by
  obtain ⟨h0, h1⟩ := hr
  cases r <;> first
    | exact absurd rfl h0
    | exact absurd rfl h1
    | exact ⟨hH.c3, hH.c4, hH.a0, hH.a1, hH.copied⟩

/-- **The bytes before the first granule.** -/
theorem text_head (z : Nat) (load store : Instr) (hA : Args decode s₀ D S n) (hlt : n < 2 ^ 63)
    (hH : Head s₀ D S 0 h h s) (hv1 : s.regs.v1 = BitVec.ofNat 64 h) (hh : h ≤ n) :
    ∃ s', Runs (exec decode) (text (BitVec.ofNat 64 z) load store) ⟨21, 22, s⟩ ⟨28, 29, s'⟩ ∧
      Head s₀ D S h h h s' ∧ s'.regs.a2 = BitVec.ofNat 64 (n - h) := by
  have htest : exec decode (.beqzl .v1 28) s = some (s, if h = 0 then .branch 28 else .skip) :=
    exec_beqzl_ofNat hv1 (by omega)
  by_cases hzero : h = 0
  · subst hzero
    rw [if_pos rfl] at htest
    exact ⟨_, .branch rfl htest (.next rfl (hH.left hA hlt (Nat.zero_le n)) (.refl _)), hH.set (by decide), rfl⟩
  · rw [if_neg hzero] at htest
    have hloop : ByteLoop (text (BitVec.ofNat 64 z) load store) 23 .v1 := ⟨rfl, rfl, rfl, rfl, Or.inl rfl⟩
    obtain ⟨s', hrun, hH', -⟩ := byte_loop hloop hA hH hv1 (Or.inr (Nat.le_refl h)) (Nat.pos_of_ne_zero hzero) hh hlt
    exact ⟨_, .skip rfl htest (hrun.trans (.next rfl (hH'.left hA hlt hh) (.refl _))), hH'.set (by decide), rfl⟩

theorem addi_neg (hz : CapSize z) :
    ((0 : BitVec 64).setWidth 32).saddOverflow (-((BitVec.ofNat 64 z).setWidth 32)) = false ∧
      ((0 : BitVec 64).setWidth 32 + -((BitVec.ofNat 64 z).setWidth 32)).signExtend 64 = -BitVec.ofNat 64 z := by
  rcases hz with rfl | rfl | rfl <;> decide

/-- **How far whole granules go.** -/
theorem text_count (decode : CapBits w → Cap) (load store : Instr) (hz : CapSize z) (hlt : n < 2 ^ 63)
    (hH : Head s₀ D S h h h s) (ha2 : s.regs.a2 = BitVec.ofNat 64 (n - h)) (hh : h ≤ n) :
    ∃ s', Runs (exec decode) (text (BitVec.ofNat 64 z) load store) ⟨28, 29, s⟩ ⟨31, 32, s'⟩ ∧
      Head s₀ D S h h h s' ∧ s'.regs.a2 = BitVec.ofNat 64 (h + (n - h) / z * z) := by
  have haddi : exec decode (.addi .tmp .zero (-((BitVec.ofNat 64 z).setWidth 32))) s =
      some (s.set .tmp (-BitVec.ofNat 64 z), .next) := by
    obtain ⟨hov, hval⟩ := addi_neg hz
    refine (if_neg ?_).trans (congrArg (fun x => some (s.set .tmp x, Flow.next)) hval)
    exact fun h => Bool.false_ne_true (hov.symm.trans h)
  let s₁ := s.set .tmp (-BitVec.ofNat 64 z)
  have hand : exec decode (.and .a2 .a2 .tmp) s₁ = some (s₁.set .a2 (BitVec.ofNat 64 ((n - h) / z * z)), .next) := by
    have hval : s₁.get .a2 &&& s₁.get .tmp = BitVec.ofNat 64 ((n - h) / z * z) := by
      have hle := Nat.div_mul_le_self (n - h) z
      rw [show s₁.get .a2 = BitVec.ofNat 64 (n - h) from ha2, show s₁.get .tmp = -BitVec.ofNat 64 z from rfl]
      apply BitVec.eq_of_toNat_eq
      rw [and_neg hz, BitVec.toNat_ofNat, BitVec.toNat_ofNat, Nat.mod_eq_of_lt (a := n - h) (by omega),
        Nat.mod_eq_of_lt (by omega)]
    show some (s₁.set .a2 (s₁.get .a2 &&& s₁.get .tmp), Flow.next) = _
    rw [hval]
  let s₂ := s₁.set .a2 (BitVec.ofNat 64 ((n - h) / z * z))
  have hle := Nat.div_mul_le_self (n - h) z
  have hdadd : exec decode (.dadd .a2 .a2 .a1) s₂ =
      some (s₂.set .a2 (BitVec.ofNat 64 ((n - h) / z * z + h)), .next) := exec_dadd_ofNat rfl hH.a1 (by omega)
  rw [Nat.add_comm] at hdadd
  exact ⟨_, .next rfl haddi (.next rfl hand (.next rfl hdadd (.refl _))), ((hH.set (by decide)).set (by decide)).set
    (by decide), rfl⟩

/-- **The bytes after the last granule.** -/
theorem text_tail (z : Nat) (load store : Instr) (hA : Args decode s₀ D S n) (hlt : n < 2 ^ 63)
    (hH : Head s₀ D S k h e s) (ha2 : s.regs.a2 = BitVec.ofNat 64 k) (hout : e ≤ k ∨ e ≤ h) (hk : k ≤ n) :
    ∃ s', Runs (exec decode) (text (BitVec.ofNat 64 z) load store) ⟨35, 36, s⟩ ⟨caller, caller + 1, s'⟩ ∧
      Copied w s₀.mem s'.mem D S n h e := by
  have hsub : exec decode (.dsub .v1 .a0 .a2) s = some (s.set .v1 (BitVec.ofNat 64 (n - k)), .next) :=
    exec_dsub_ofNat (hH.a0.trans hA.len) ha2 hk hlt
  let s₁ := s.set .v1 (BitVec.ofNat 64 (n - k))
  have hH₁ : Head s₀ D S k h e s₁ := hH.set (by decide)
  have htest : exec decode (.beqzl .v1 43) s₁ = some (s₁, if n - k = 0 then .branch 43 else .skip) :=
    exec_beqzl_ofNat rfl (by omega)
  by_cases hend : k = n
  · subst hend
    rw [if_pos (Nat.sub_self k)] at htest
    exact ⟨s₁, .next rfl hsub (.branch rfl htest (.next rfl rfl (text_return s₁ decode))), hH.copied⟩
  · rw [if_neg (by omega)] at htest
    have hadd : exec decode (.dadd .v1 .a1 .v1) s₁ = some (s₁.set .v1 (BitVec.ofNat 64 (k + (n - k))), .next) :=
      exec_dadd_ofNat hH₁.a1 rfl (by omega)
    rw [Nat.add_sub_cancel' hk] at hadd
    have hloop : ByteLoop (text (BitVec.ofNat 64 z) load store) 39 .v1 := ⟨rfl, rfl, rfl, rfl, Or.inl rfl⟩
    obtain ⟨s', hrun, hH', -⟩ := byte_loop hloop hA (s := s₁.set .v1 (BitVec.ofNat 64 n)) (hH₁.set (by decide)) rfl hout
      (Nat.lt_of_le_of_ne hk hend) (Nat.le_refl n) hlt
    exact ⟨s', .next rfl hsub (.skip rfl htest (.next rfl hadd (hrun.trans (text_return s' decode)))), hH'.copied⟩

/-! ## The whole text -/

variable {keep : Bool} {ok : Nat → Prop}

/-- **Where the granules copied whole end**: nowhere, when the alignments differ or there is no whole one; else where
the last whole one ends, or nowhere if their tags are not kept. -/
def wholeEnd (z D S n : Nat) (keep : Bool) : Nat :=
  if D % z = S % z ∧ headLen z D + z ≤ n then
    keptTo keep (headLen z D) (headLen z D + (n - headLen z D) / z * z)
  else headLen z D

theorem keptTo_le (keep : Bool) (h k : Nat) : keptTo keep h k ≤ k ∨ keptTo keep h k ≤ h := by
  cases keep
  · exact Or.inr (Nat.le_refl h)
  · exact Or.inl (Nat.le_refl k)

/-- **Up to the granules**, where the alignments agree and there is a whole one. -/
theorem text_to_granules (load store : Instr) (hz : CapSize z) (hA : Args decode s₀ D S n) (hlt : n < 2 ^ 63)
    (hD : NoOverflow (decode s₀.c3)) (hS : NoOverflow (decode s₀.c4)) (halign : D % z = S % z)
    (hlong : headLen z D + z ≤ n) :
    ∃ s, Runs (exec decode) (text (BitVec.ofNat 64 z) load store) ⟨0, 1, s₀⟩ ⟨31, 32, s⟩ ∧
      Head s₀ D S (headLen z D) (headLen z D) (headLen z D) s ∧
      s.regs.a2 = BitVec.ofNat 64 (headLen z D + (n - headLen z D) / z * z) := by
  have hpos := hz.pos
  obtain ⟨s₁, hstart, hH₁, hr12, hr13⟩ := text_start load store hz hA (by omega) hD hS
  have htest := bne_aligned decode hz hr12 hr13
  rw [if_pos halign] at htest
  have ht8 : ∀ h, Head s₀ D S 0 h h (s₁.set .t8 (s₁.get .a0 &&& (BitVec.ofNat 64 z - 1))) := fun h =>
    (hH₁ h).set (by decide)
  obtain ⟨s₂, hlen, hH₂, hv₂⟩ := text_headLen decode load store hz ht8 hr12
  obtain ⟨s₃, hfast, hH₃, hv₃⟩ := text_fast load store hz hA hlt hH₂ hv₂
  rw [if_pos hlong] at hfast
  obtain ⟨s₄, hhead, hH₄, ha2⟩ := text_head z load store hA hlt (hH₃ _) hv₃ (by omega)
  obtain ⟨s₅, hcount, hH₅, ha2₅⟩ := text_count decode load store hz hlt hH₄ ha2 (by omega)
  exact ⟨s₅, hstart.trans (.next rfl htest (.next rfl rfl (hlen.trans (hfast.trans (hhead.trans hcount))))), hH₅, ha2₅⟩

/-- The first granule starts where both are aligned, if one is where the other is. -/
theorem headLen_aligned (hz : CapSize z) (halign : D % z = S % z) :
    (D + headLen z D) % z = 0 ∧ (S + headLen z D) % z = 0 := by
  unfold headLen
  rcases hz with rfl | rfl | rfl <;> omega

theorem granule_le {j : Nat} (hj : j < (n - h) / z) (hh : h ≤ n) : h + j * z + z ≤ n := by
  have hle := Nat.div_mul_le_self (n - h) z
  have hmul : (j + 1) * z ≤ (n - h) / z * z := Nat.mul_le_mul_right z hj
  rw [Nat.succ_mul] at hmul
  omega

theorem wholeLoop_text : WholeLoop (text (BitVec.ofNat 64 z) load store) 31 z load store := ⟨rfl, rfl, rfl, rfl⟩

/-- **The granules, and the bytes after the last.** -/
theorem text_granules (hz : CapSize z) (hA : Args decode s₀ D S n) (hlt : n < 2 ^ 63)
    (hR : Round decode s₀ D S n z keep ok load store)
    (hok : ∀ k, k + z ≤ n → (D + k) % z = 0 → (S + k) % z = 0 → ok k) (halign : D % z = S % z)
    (hlong : headLen z D + z ≤ n) (hH : Head s₀ D S (headLen z D) (headLen z D) (headLen z D) s)
    (ha2 : s.regs.a2 = BitVec.ofNat 64 (headLen z D + (n - headLen z D) / z * z)) :
    ∃ s', Runs (exec decode) (text (BitVec.ofNat 64 z) load store) ⟨31, 32, s⟩ ⟨caller, caller + 1, s'⟩ ∧
      Copied w s₀.mem s'.mem D S n (headLen z D)
        (keptTo keep (headLen z D) (headLen z D + (n - headLen z D) / z * z)) := by
  have hle := Nat.div_mul_le_self (n - headLen z D) z
  have hal := headLen_aligned hz halign
  have hpos : 0 < (n - headLen z D) / z := Nat.div_pos (by omega) hz.pos
  have hall : ∀ j, j < (n - headLen z D) / z → ok (headLen z D + j * z) := fun j hj => by
    refine hok _ (granule_le hj (by omega)) ?_ ?_
    · rw [← Nat.add_assoc, Nat.add_mul_mod_self_right, hal.1]
    · rw [← Nat.add_assoc, Nat.add_mul_mod_self_right, hal.2]
  obtain ⟨s₁, hwhole, hH₁, ha2₁⟩ := whole_loop hz wholeLoop_text hR hall hH ha2 hpos (by omega) hlt hal.1 hal.2
  obtain ⟨s₂, htail, hcopied⟩ := text_tail z load store hA hlt hH₁ ha2₁ (keptTo_le keep _ _) (by omega)
  exact ⟨s₂, hwhole.trans htail, hcopied⟩

/-- **The text ends, and has copied all the bytes.** -/
theorem text_ends (hz : CapSize z) (hA : Args decode s₀ D S n) (hn : 0 < n) (hlt : n < 2 ^ 63)
    (hR : Round decode s₀ D S n z keep ok load store)
    (hok : ∀ k, k + z ≤ n → (D + k) % z = 0 → (S + k) % z = 0 → ok k) (hD : NoOverflow (decode s₀.c3))
    (hS : NoOverflow (decode s₀.c4)) :
    ∃ s', Ends (exec decode) (text (BitVec.ofNat 64 z) load store) s₀ s' ∧
      Copied w s₀.mem s'.mem D S n (headLen z D) (wholeEnd z D S n keep) := by
  unfold wholeEnd
  by_cases hfast : D % z = S % z ∧ headLen z D + z ≤ n
  · rw [if_pos hfast]
    obtain ⟨s₁, hto, hH₁, ha2⟩ := text_to_granules load store hz hA hlt hD hS hfast.1 hfast.2
    obtain ⟨s₂, hgranules, hcopied⟩ := text_granules hz hA hlt hR hok hfast.1 hfast.2 hH₁ ha2
    exact ⟨s₂, ⟨_, hto.trans hgranules, rfl, rfl⟩, hcopied⟩
  · rw [if_neg hfast]
    obtain ⟨s, hstart, hH, hr12, hr13⟩ := text_start load store hz hA hn hD hS
    have hends : ∀ {s'}, Runs (exec decode) (text (BitVec.ofNat 64 z) load store) ⟨12, 13, s⟩ ⟨caller, caller + 1, s'⟩ →
        Ends (exec decode) (text (BitVec.ofNat 64 z) load store) s₀ s' := fun hrun => ⟨_, hstart.trans hrun, rfl, rfl⟩
    have htest := bne_aligned decode hz hr12 hr13
    have ht8 : ∀ h, Head s₀ D S 0 h h (s.set .t8 (s.get .a0 &&& (BitVec.ofNat 64 z - 1))) := fun h =>
      (hH h).set (by decide)
    by_cases halign : D % z = S % z
    · rw [if_pos halign] at htest
      obtain ⟨s', hlen, hH', hv'⟩ := text_headLen decode load store hz ht8 hr12
      obtain ⟨s₁, hshort, hH₁, -⟩ := text_fast load store hz hA hlt hH' hv'
      rw [if_neg fun hlong => hfast ⟨halign, hlong⟩] at hshort
      obtain ⟨s₂, hslow, hcopied⟩ := text_slow hA hn hlt (hH₁ (headLen z D))
      exact ⟨s₂, hends (.next rfl htest (.next rfl rfl (hlen.trans (hshort.trans hslow)))), hcopied⟩
    · rw [if_neg halign] at htest
      obtain ⟨s₁, hslow, hcopied⟩ := text_slow hA hn hlt (ht8 (headLen z D))
      exact ⟨s₁, hends (.branch rfl htest (.next rfl rfl hslow)), hcopied⟩

end Memcpy
end CheriOS
