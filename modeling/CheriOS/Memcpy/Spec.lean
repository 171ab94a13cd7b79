import CheriOS.Memcpy.Copy
/-!
# Spec — what `memcpy_c` and `memcpy_hack` leave

Both routines leave the bytes of the source at the destination, and `memcpy_c` leaves with them the tags of the granules
that it has copied whole.  They compute addresses and counts with additions that trap on a signed overflow; and
`memcpy_c` takes every whole granule as a capability, so that it traps where the arguments may not carry those.
-/
namespace CheriOS
namespace Memcpy

open DelaySlot

variable {w z D S n : Nat} {decode : CapBits w → Cap} {s₀ s s' : State w} {m₀ m : Memory} {load store : Instr}

/-! ## What a copy is -/

/-- **The bytes of the source are at the destination**, and no others have changed. -/
def BytesCopied (m₀ m : Memory) (D S n : Nat) : Prop :=
  ∀ x, m.byte x = if D ≤ x ∧ x < D + n then m₀.byte (S + (x - D)) else m₀.byte x

/-- The granule `g` is copied whole: it lies in the destination, and the source is aligned as the destination is. -/
def Whole (w D S n g : Nat) : Prop := D % w = S % w ∧ D ≤ g * w ∧ g * w + w ≤ D + n

/-- **A copy of capabilities**: the granules copied whole have the tags of the source, and the others that have been
written to have none. -/
structure CapsCopied (w : Nat) (m₀ m : Memory) (D S n : Nat) : Prop where
  bytes : BytesCopied m₀ m D S n
  kept : ∀ g, Whole w D S n g → m.tag g = m₀.tag ((S + (g * w - D)) / w)
  cleared : ∀ g, Touched w D n g → ¬ Whole w D S n g → m.tag g = false
  frame : ∀ g, ¬ Touched w D n g → m.tag g = m₀.tag g

theorem inside_iff_whole (hw : CapSize w) (g : Nat) :
    Inside w D (headLen w D) (wholeEnd w D S n true) g ↔ Whole w D S n g := by
  unfold Inside Whole wholeEnd keptTo headLen
  rw [if_pos rfl]
  rcases hw with rfl | rfl | rfl <;> split <;> omega

theorem Copied.caps (hw : CapSize w) (hC : Copied w m₀ m D S n (headLen w D) (wholeEnd w D S n true)) :
    CapsCopied w m₀ m D S n where
  bytes := hC.byte
  kept := fun g hg => hC.kept g ((inside_iff_whole hw g).2 hg)
  cleared := fun g ht hg => hC.cleared g ht (fun hin => hg ((inside_iff_whole hw g).1 hin))
  frame := hC.frame

/-! ## Where it traps -/

/-- **No overflow on the way**: neither address is computed with one, and the length is not negative. -/
def Plain (decode : CapBits w → Cap) (s : State w) (n : Nat) : Prop :=
  n = 0 ∨ (n < 2 ^ 63 ∧ NoOverflow (decode s.c3) ∧ NoOverflow (decode s.c4))

/-- **Every granule can be carried** that starts where both source and destination are aligned. -/
def Carries (decode : CapBits w → Cap) (s : State w) (D S n : Nat) : Prop :=
  ∀ k, k + w ≤ n → (D + k) % w = 0 → (S + k) % w = 0 → Carried decode s S k

theorem text_empty (z : Nat) (load store : Instr) (hA : Args decode s₀ D S n) (hn : n = 0) :
    ∃ s', Ends (exec decode) (text (BitVec.ofNat 64 z) load store) s₀ s' ∧ s'.mem = s₀.mem := by
  have hbeq : exec decode (.beq .a0 .zero 43) s₀ = some (s₀, .branch 43) := by
    have heq : s₀.get .a0 = s₀.get .zero := by
      show s₀.regs.a0 = 0
      rw [hA.len, hn]
      rfl
    show some (s₀, if s₀.get .a0 = s₀.get .zero then Flow.branch 43 else .next) = _
    rw [if_pos heq]
  exact ⟨_, ⟨_, .branch rfl hbeq (.next rfl rfl (text_return _ decode)), rfl, rfl⟩, rfl⟩

/-- **Half the address space is too much**: the length is negative, and what is left of it after a granule overflows. -/
theorem text_traps_big (hz : CapSize z) (hA : Args decode s₀ D S n) (hn : 2 ^ 63 ≤ n)
    (hD : NoOverflow (decode s₀.c3)) (hS : NoOverflow (decode s₀.c4)) :
    ¬ Ends (exec decode) (text (BitVec.ofNat 64 z) load store) s₀ s' := by
  have hle := hA.le
  obtain rfl : n = 2 ^ 63 := Nat.le_antisymm hle hn
  have hd := hA.dst.le
  have hs := hA.src.le
  have hdis := hA.disjoint
  unfold Disjoint at hdis
  have halign : D % z = S % z := by
    rcases hz with rfl | rfl | rfl <;> omega
  have hhead : headLen z D = 0 := by
    unfold headLen
    rcases hz with rfl | rfl | rfl <;> omega
  obtain ⟨s, hstart, hH, hr12, hr13⟩ := text_start load store hz hA (by decide) hD hS
  have htest := bne_aligned decode hz hr12 hr13
  rw [if_pos halign] at htest
  have ht8 : ∀ h, Head s₀ D S 0 h h (s.set .t8 (s.get .a0 &&& (BitVec.ofNat 64 z - 1))) := fun h =>
    (hH h).set (by decide)
  obtain ⟨s₁, hlen, hH₁, hv₁⟩ := text_headLen decode load store hz ht8 hr12
  have ha0 : s₁.get .a0 = BitVec.ofNat 64 (2 ^ 63) := (hH₁ 0).a0.trans hA.len
  have hv1 : s₁.get .v1 = 0 := hv₁.trans (by rw [hhead]; rfl)
  have hsub : exec decode (.dsub .a2 .a0 .v1) s₁ = some (s₁.set .a2 (BitVec.ofNat 64 (2 ^ 63)), .next) := by
    have hov : (s₁.get .a0).ssubOverflow (s₁.get .v1) = false := by
      rw [ha0, hv1]
      decide
    rw [exec_dsub hov, ha0, hv1]
    rfl
  have hadd : exec decode (.daddi .a2 .a2 (-BitVec.ofNat 64 z)) (s₁.set .a2 (BitVec.ofNat 64 (2 ^ 63))) = none := by
    have hov : (BitVec.ofNat 64 (2 ^ 63)).saddOverflow (-BitVec.ofNat 64 z) = true := by
      rcases hz with rfl | rfl | rfl <;> decide
    exact if_pos hov
  exact not_ends_of_trapped (hstart.trans (.next rfl htest (.next rfl rfl (hlen.trans (.next rfl hsub (.refl _))))))
    ⟨_, rfl, hadd⟩

/-- **Where an addition overflows the text does not end.** -/
theorem text_traps (hz : CapSize z) (hA : Args decode s₀ D S n) (hno : ¬ Plain decode s₀ n) :
    ¬ Ends (exec decode) (text (BitVec.ofNat 64 z) load store) s₀ s' := by
  unfold Plain at hno
  rw [not_or, not_and_or, not_and_or] at hno
  obtain ⟨hn, hno⟩ := hno
  have hpos : 0 < n := Nat.pos_of_ne_zero hn
  have hbeq := beq_nonempty hA hpos
  by_cases hD : NoOverflow (decode s₀.c3)
  · by_cases hS : NoOverflow (decode s₀.c4)
    · have hbig : 2 ^ 63 ≤ n := by
        rcases hno with h | h | h
        · omega
        · exact absurd hD h
        · exact absurd hS h
      exact text_traps_big hz hA hbig hD hS
    · have hS' : (decode s₀.c4).base.saddOverflow (decode s₀.c4).offset = true := by
        unfold NoOverflow at hS
        simpa using hS
      refine not_ends_of_trapped (.next rfl hbeq (.next rfl rfl (.next rfl rfl (.next rfl (exec_dadd hD)
        (.next rfl rfl (.next rfl rfl (.refl _))))))) ⟨_, rfl, exec_dadd_none hS'⟩
  · have hD' : (decode s₀.c3).base.saddOverflow (decode s₀.c3).offset = true := by
      unfold NoOverflow at hD
      simpa using hD
    exact not_ends_of_trapped (.next rfl hbeq (.next rfl rfl (.next rfl rfl (.refl _)))) ⟨_, rfl, exec_dadd_none hD'⟩

/-! ## The two routines -/

theorem memcpyC_eq (w : Nat) : memcpyC w =
    text (BitVec.ofNat 64 w) (.clc .c5 .a1 0 .c4) (.csc .c5 .a1 (-(BitVec.ofNat 64 w)) .c3) := rfl

theorem memcpyHack_eq : memcpyHack = text (BitVec.ofNat 64 8) (.cld .t3 .a1 0 .c4) (.csd .t3 .a1 (-8) .c3) := rfl

theorem memcpyC_ends (hA : Args decode s₀ D S n) (hp : Plain decode s₀ n) (hc : Carries decode s₀ D S n) :
    ∃ s, Ends (exec decode) (memcpyC w) s₀ s ∧ CapsCopied w s₀.mem s.mem D S n := by
  rw [memcpyC_eq]
  rcases Nat.eq_zero_or_pos n with hn | hn
  · obtain ⟨s, hends, hmem⟩ := text_empty w (.clc .c5 .a1 0 .c4) (.csc .c5 .a1 (-(BitVec.ofNat 64 w)) .c3)
      hA hn
    refine ⟨s, hends, Copied.caps hA.size ?_⟩
    have hpos := hA.size.pos
    rw [hmem, hn, wholeEnd, if_neg (by omega)]
    exact .start hA.size s₀.mem D S _
  · obtain ⟨hlt, hD, hS⟩ := hp.resolve_left (Nat.ne_of_gt hn)
    obtain ⟨s, hends, hcopied⟩ := text_ends hA.size hA hn hlt (round_cap hA) hc hD hS
    exact ⟨s, hends, hcopied.caps hA.size⟩

theorem memcpyHack_ends (hA : Args decode s₀ D S n) (hp : Plain decode s₀ n) :
    ∃ s, Ends (exec decode) memcpyHack s₀ s ∧ BytesCopied s₀.mem s.mem D S n := by
  rw [memcpyHack_eq]
  rcases Nat.eq_zero_or_pos n with hn | hn
  · obtain ⟨s, hends, hmem⟩ := text_empty 8 (.cld .t3 .a1 0 .c4) (.csd .t3 .a1 (-8) .c3) hA hn
    refine ⟨s, hends, fun x => ?_⟩
    rw [hmem, hn, if_neg (by omega)]
  · obtain ⟨hlt, hD, hS⟩ := hp.resolve_left (Nat.ne_of_gt hn)
    obtain ⟨s, hends, hcopied⟩ := text_ends (Or.inl rfl) hA hn hlt (round_double hA) (fun _ _ _ _ => trivial) hD hS
    exact ⟨s, hends, hcopied.byte⟩

/-- Where both are aligned there is a granule of the loop. -/
theorem aligned_granule (hw : CapSize w) {k : Nat} (hkn : k + w ≤ n) (hD : (D + k) % w = 0) (hS : (S + k) % w = 0) :
    D % w = S % w ∧ headLen w D + w ≤ n ∧ ∃ j, j < (n - headLen w D) / w ∧ k = headLen w D + j * w := by
  have hhead : headLen w D ≤ k := by
    unfold headLen
    rcases hw with rfl | rfl | rfl <;> omega
  refine ⟨?_, by omega, (k - headLen w D) / w, ?_, ?_⟩
  · rcases hw with rfl | rfl | rfl <;> omega
  · rcases hw with rfl | rfl | rfl <;> omega
  · unfold headLen at *
    rcases hw with rfl | rfl | rfl <;> omega

/-- **A granule that cannot be carried stops `memcpy_c`**: the rounds before the first of them end, and that one
traps. -/
theorem memcpyC_traps (hA : Args decode s₀ D S n) (hp : Plain decode s₀ n) (hno : ¬ Carries decode s₀ D S n) :
    ¬ Ends (exec decode) (memcpyC w) s₀ s' := by
  unfold Carries at hno
  push Not at hno
  obtain ⟨k, hkn, hDk, hSk, hk⟩ := hno
  obtain ⟨halign, hlong, j, hj, rfl⟩ := aligned_granule hA.size hkn hDk hSk
  have hpos := hA.size.pos
  obtain ⟨hlt, hD, hS⟩ := hp.resolve_left (by omega)
  set h := headLen w D
  classical
  let first := Nat.find (⟨j, hk⟩ : ∃ i, ¬ Carried decode s₀ S (h + i * w))
  have hfirst : ¬ Carried decode s₀ S (h + first * w) := Nat.find_spec (⟨j, hk⟩ : ∃ i, ¬ Carried decode s₀ S (h + i * w))
  have hbefore : ∀ i, i < first → Carried decode s₀ S (h + i * w) := fun i hi => not_not.1 (Nat.find_min _ hi)
  have hle : first ≤ j := Nat.find_min' _ hk
  have hal := headLen_aligned hA.size halign
  have hend := Nat.div_mul_le_self (n - h) w
  obtain ⟨s, hto, hH, ha2⟩ := text_to_granules (.clc .c5 .a1 0 .c4) (.csc .c5 .a1 (-(BitVec.ofNat 64 w)) .c3) hA.size hA
    hlt hD hS halign hlong
  have hrounds : ∀ i s, i < first → AtRound s₀ D S h w (h + (n - h) / w * w) true i s →
      ∃ s', Runs (exec decode) (memcpyC w) ⟨31, 32, s⟩ ⟨31, 32, s'⟩ ∧
        AtRound s₀ D S h w (h + (n - h) / w * w) true (i + 1) s' := fun i s hi hs => by
    obtain ⟨s', pc, hrun, hs', hon, -⟩ := hs.round hA.size wholeLoop_text (round_cap hA) (by omega) (hbefore i hi)
      (by omega) hlt hal.1 hal.2
    obtain rfl := hon (by omega)
    exact ⟨s', hrun, hs'⟩
  obtain ⟨s₁, hloop, hs₁⟩ := Runs.rounds hrounds (.first hH ha2)
  obtain ⟨c, hrun, htrap⟩ := hs₁.1.trapped wholeLoop_text hA hs₁.2 (granule_le (by omega) (by omega)) (by omega) hlt
    (by rw [← Nat.add_assoc, Nat.add_mul_mod_self_right, hal.2]) hfirst
  exact not_ends_of_trapped (hto.trans (hloop.trans hrun)) htrap

/-- **The optimised copy is the byte copy**: with a length below `2 ^ 63`, addresses that are computed without a signed
overflow, and arguments that may carry what the whole granules hold, `memcpy_c` ends, and what it leaves is the source's
bytes, with the tags of the granules copied whole and no others; `memcpy_hack` ends with the same bytes.  Without them
`memcpy_c` traps. -/
theorem memcpy_copies (hA : Args decode s₀ D S n) :
    (∃ s₁ s₂, Ends (exec decode) (memcpyC w) s₀ s₁ ∧ CapsCopied w s₀.mem s₁.mem D S n ∧
      Ends (exec decode) memcpyHack s₀ s₂ ∧ s₂.mem.byte = s₁.mem.byte) ↔
    Plain decode s₀ n ∧ Carries decode s₀ D S n := by
  constructor
  · rintro ⟨s₁, -, hends, -, -, -⟩
    have hp : Plain decode s₀ n := by
      by_contra hno
      exact text_traps hA.size hA hno hends
    refine ⟨hp, ?_⟩
    by_contra hno
    exact memcpyC_traps hA hp hno hends
  · rintro ⟨hp, hc⟩
    obtain ⟨s₁, hends₁, hcaps⟩ := memcpyC_ends hA hp hc
    obtain ⟨s₂, hends₂, hbytes⟩ := memcpyHack_ends hA hp
    exact ⟨s₁, s₂, hends₁, hcaps, hends₂, funext fun x => (hbytes x).trans (hcaps.bytes x).symm⟩

/-! ### A format, and two calls -/

/-- The `i`th double word of a capability of 256 bits. -/
def wordOf (x : CapBits 32) (i : Fin 4) : BitVec 64 :=
  doubleOf fun j => x.bytes ⟨8 * i.val + j.val, by omega⟩

/-- The format of 256 bits: object type, permissions and seal, then the address, the base and the length. -/
def decode256 (x : CapBits 32) : Cap where
  tag := x.tag
  isSealed := (wordOf x 0).getLsbD 0
  otype := ((wordOf x 0).extractLsb' 32 24).toNat
  perms := ((wordOf x 0).extractLsb' 1 31).setWidth 32
  base := wordOf x 2
  len := wordOf x 3
  offset := wordOf x 1 - wordOf x 2

def encode256 (perms : BitVec 31) (addr base len : BitVec 64) : CapBits 32 where
  tag := true
  bytes := fun i => byteOf ([perms.setWidth 64 <<< 1, addr, base, len].getD (i.val / 8) 0) ⟨i.val % 8, by omega⟩

/-- A call with nothing in the other registers. -/
def callOf (dst src : CapBits 32) (n : Nat) : State 32 where
  regs := ⟨0, 0, 0, BitVec.ofNat 64 n, 0, 0, 0, 0, 0, 0⟩
  c0 := encode256 0x787fd 0 0 0xffffffffffffffff
  c3 := dst
  c4 := src
  c5 := ⟨false, fun _ => 0⟩
  mem := ⟨fun x => BitVec.ofNat 8 x, fun _ => true⟩

def seventyBytes : State 32 := callOf (encode256 0x787fd 0x1010 0x1000 0x100) (encode256 0x787fd 0x2010 0x2000 0x100) 70

theorem seventyBytes_args : Args decode256 seventyBytes 0x1010 0x2010 70 :=
  ⟨Or.inr (Or.inr rfl), rfl, ⟨rfl, rfl, rfl, rfl, by decide, by decide⟩, ⟨rfl, rfl, rfl, rfl, by decide, by decide⟩,
    by unfold Disjoint; decide⟩

theorem memcpy_copies_seventy : ∃ s₁ s₂, Ends (exec decode256) (memcpyC 32) seventyBytes s₁ ∧
    CapsCopied 32 seventyBytes.mem s₁.mem 0x1010 0x2010 70 ∧ Ends (exec decode256) memcpyHack seventyBytes s₂ ∧
    s₂.mem.byte = s₁.mem.byte :=
  (memcpy_copies seventyBytes_args).2 ⟨Or.inr ⟨by decide, rfl, rfl⟩, fun _ _ _ _ => ⟨rfl, rfl, fun _ => Or.inr rfl⟩⟩

/-- One granule between two regions of `__mmap` with `PROT_NO_READ_CAP` and `PROT_NO_WRITE_CAP`, whose capabilities load
and store data alone. -/
def dataOnly : State 32 :=
  callOf (encode256 0x804c 0x4000 0x4000 0x1000) (encode256 0x804c 0x2000 0x2000 0x1000) 32

theorem dataOnly_args : Args decode256 dataOnly 0x4000 0x2000 32 :=
  ⟨Or.inr (Or.inr rfl), rfl, ⟨rfl, rfl, rfl, rfl, by decide, by decide⟩, ⟨rfl, rfl, rfl, rfl, by decide, by decide⟩,
    by unfold Disjoint; decide⟩

theorem dataOnly_plain : Plain decode256 dataOnly 32 := Or.inr ⟨by decide, rfl, rfl⟩

/-- **Where it goes wrong**: the granule is taken as a capability, and not one of its bytes is copied; `memcpy_hack`
copies them. -/
theorem memcpy_traps : Args decode256 dataOnly 0x4000 0x2000 32 ∧
    (∀ s', ¬ Ends (exec decode256) (memcpyC 32) dataOnly s') ∧
    ∃ s', Ends (exec decode256) memcpyHack dataOnly s' ∧ BytesCopied dataOnly.mem s'.mem 0x4000 0x2000 32 := by
  refine ⟨dataOnly_args, fun s' => memcpyC_traps dataOnly_args dataOnly_plain fun hc => ?_,
    memcpyHack_ends dataOnly_args dataOnly_plain⟩
  exact absurd (hc 0 (by decide) (by decide) (by decide)).load (by decide)

end Memcpy
end CheriOS
