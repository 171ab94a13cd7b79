import CheriOS.Memcpy.Copied
import CheriOS.Memcpy.Exec
/-!
# Loops — the three loops of the text

Each loop loads before it counts and stores in the delay slot of its test, one count behind.  A round goes on with the
copy by what it loads, and the loop is left when the count is the limit, so it is entered only below it.
-/
namespace CheriOS
namespace Memcpy

open DelaySlot

/-! ## Where the arguments point -/

/-- **A valid capability to `n` bytes from the address `A` on.** -/
structure Points (c : Cap) (p : BitVec 32) (A n : Nat) : Prop where
  tag : c.tag = true
  isSealed : c.isSealed = false
  perms : c.hasPerms p = true
  start : c.base.toNat + c.offset.toNat = A
  fits : c.offset.toNat + n ≤ c.len.toNat
  top : c.base.toNat + c.len.toNat ≤ 2 ^ 64

section

variable {c : Cap} {p q : BitVec 32} {i : BitVec 64} {A n k m : Nat}

theorem hasPerms_mono (hq : p &&& q = q) (h : c.hasPerms p = true) : c.hasPerms q = true := by
  unfold Cap.hasPerms at *
  rw [beq_iff_eq] at *
  calc c.perms &&& q = c.perms &&& (p &&& q) := by rw [hq]
    _ = (c.perms &&& p) &&& q := (BitVec.and_assoc _ _ _).symm
    _ = q := by rw [h, hq]

theorem hasPerms_or : c.hasPerms (p ||| q) = true ↔ c.hasPerms p = true ∧ c.hasPerms q = true := by
  have hleft : (p ||| q) &&& p = p := BitVec.eq_of_getElem_eq fun i hi => by
    rw [BitVec.getElem_and, BitVec.getElem_or]
    cases p[i] <;> cases q[i] <;> rfl
  have hright : (p ||| q) &&& q = q := BitVec.eq_of_getElem_eq fun i hi => by
    rw [BitVec.getElem_and, BitVec.getElem_or]
    cases p[i] <;> cases q[i] <;> rfl
  refine ⟨fun h => ⟨hasPerms_mono hleft h, hasPerms_mono hright h⟩, fun ⟨hp, hq⟩ => ?_⟩
  unfold Cap.hasPerms at *
  rw [beq_iff_eq] at *
  rw [BitVec.and_or_distrib_left, hp, hq]

theorem permits_perms (h : permits c q i m = true) : c.hasPerms q = true := by
  unfold permits at h
  simp only [Bool.and_eq_true] at h
  exact h.1.2

theorem Points.permits (hP : Points c p A n) (hq : c.hasPerms q = true) (h : k + m ≤ n) (hm : 0 < m) :
    permits c q (BitVec.ofNat 64 k) m = true := by
  have hfits := hP.fits
  have hlen := c.len.isLt
  have hoff : (c.offset + BitVec.ofNat 64 k).toNat = c.offset.toNat + k := by
    rw [BitVec.toNat_add, BitVec.toNat_ofNat]
    omega
  have hle : decide ((c.offset + BitVec.ofNat 64 k).toNat + m ≤ c.len.toNat) = true := decide_eq_true (by omega)
  unfold Memcpy.permits
  rw [hP.tag, hP.isSealed, hq, hle]
  rfl

theorem Points.reach (hP : Points c p A n) (h : k < n) : reach c (BitVec.ofNat 64 k) = A + k := by
  have hfits := hP.fits
  have htop := hP.top
  have hstart := hP.start
  unfold Memcpy.reach Cap.addr
  rw [BitVec.toNat_add, BitVec.toNat_add, BitVec.toNat_ofNat]
  omega

theorem Points.le (hP : Points c p A n) : A + n ≤ 2 ^ 64 := by
  have hfits := hP.fits
  have htop := hP.top
  have hstart := hP.start
  omega

end

/-- **What `memcpy` is called with**: a destination, a source and a length, apart from each other. -/
structure Args {w : Nat} (decode : CapBits w → Cap) (s : State w) (D S n : Nat) : Prop where
  size : CapSize w
  len : s.regs.a0 = BitVec.ofNat 64 n
  dst : Points (decode s.c3) Cap.permStore D n
  src : Points (decode s.c4) Cap.permLoad S n
  disjoint : Disjoint D S n

/-- **At the head of a loop**: the arguments, the count, and the copy as far as it has come. -/
structure Head {w : Nat} (s₀ : State w) (D S k h e : Nat) (s : State w) : Prop where
  c3 : s.c3 = s₀.c3
  c4 : s.c4 = s₀.c4
  a0 : s.regs.a0 = s₀.regs.a0
  a1 : s.regs.a1 = BitVec.ofNat 64 k
  copied : Copied w s₀.mem s.mem D S k h e

variable {w : Nat} {decode : CapBits w → Cap} {s₀ s : State w} {D S n k h e p L : Nat} {l : Reg} {code : List Instr}

/-! ## A loop over bytes -/

/-- The loop at `p` in the text, up to the count in the register `l`. -/
structure ByteLoop (code : List Instr) (p : Nat) (l : Reg) : Prop where
  load : code[p]? = some (.clb .a2 .a1 0 .c4)
  count : code[p + 1]? = some (.daddi .a1 .a1 1)
  test : code[p + 2]? = some (.bne l .a1 p)
  store : code[p + 3]? = some (.csb .a2 .a1 (-1) .c3)
  limit : l = .v1 ∨ l = .a0

theorem Head.clb (hA : Args decode s₀ D S n) (hH : Head s₀ D S k h e s) (hk : k < n) :
    exec decode (.clb .a2 .a1 0 .c4) s = some (s.set .a2 ((s.mem.byte (S + k)).signExtend 64), .next) := by
  have ha1 : s.get .a1 + 0 = BitVec.ofNat 64 k := hH.a1 ▸ BitVec.add_zero _
  have hc4 : s.getc .c4 = s₀.c4 := hH.c4
  rw [exec_clb, ha1, hc4, hA.src.reach hk]
  rw [ha1, hc4]
  exact hA.src.permits hA.src.perms hk Nat.one_pos

/-- The store is behind the count. -/
theorem csb_behind (hA : Args decode s₀ D S n) (hc3 : s.c3 = s₀.c3) (ha1 : s.regs.a1 = BitVec.ofNat 64 (k + 1))
    {b : BitVec 8} (ha2 : s.regs.a2 = b.signExtend 64) (hk : k < n) :
    exec decode (.csb .a2 .a1 (-1) .c3) s =
      some ({ s with mem := s.mem.store w (D + k) (fun _ : Fin 1 => b) false }, .next) := by
  have hpred : s.get .a1 + (-1) = BitVec.ofNat 64 k := by
    rw [show s.get .a1 = BitVec.ofNat 64 (k + 1) from ha1]
    exact ofNat_add_neg k 1
  have hc3' : s.getc .c3 = s₀.c3 := hc3
  have hval : (s.get .a2).setWidth 8 = b := by
    rw [show s.get .a2 = b.signExtend 64 from ha2, setWidth_signExtend]
  rw [exec_csb, hpred, hc3', hA.dst.reach hk, hval]
  rw [hpred, hc3']
  exact hA.dst.permits hA.dst.perms hk Nat.one_pos

theorem byte_round (hB : ByteLoop code p l) (hA : Args decode s₀ D S n) (hH : Head s₀ D S k h e s)
    (hl : s.get l = BitVec.ofNat 64 L) (hout : e ≤ k ∨ e ≤ h) (hk : k < L) (hL : L ≤ n) (hn : n < 2 ^ 63) :
    ∃ s' pc, Runs (exec decode) code ⟨p, p + 1, s⟩ ⟨pc, pc + 1, s'⟩ ∧ Head s₀ D S (k + 1) h e s' ∧
      s'.get l = BitVec.ofNat 64 L ∧ (k + 1 < L → pc = p) ∧ (k + 1 = L → pc = p + 4) := by
  let s₁ := s.set .a2 ((s.mem.byte (S + k)).signExtend 64)
  have hcount : exec decode (.daddi .a1 .a1 1) s₁ = some (s₁.set .a1 (BitVec.ofNat 64 (k + 1)), .next) :=
    exec_daddi_ofNat (b := 1) hH.a1 (by omega)
  let s₂ := s₁.set .a1 (BitVec.ofNat 64 (k + 1))
  have hl₂ : s₂.get l = BitVec.ofNat 64 L := by
    rcases hB.limit with rfl | rfl <;> exact hl
  have htest : exec decode (.bne l .a1 p) s₂ = some (s₂, if L = k + 1 then .next else .branch p) :=
    exec_bne_ofNat hl₂ rfl (by omega) (by omega)
  have hstore := csb_behind (s := s₂) (b := s.mem.byte (S + k)) hA hH.c3 rfl rfl (Nat.lt_of_lt_of_le hk hL)
  refine ⟨_, if L = k + 1 then p + 4 else p, .next hB.load (hH.clb hA (Nat.lt_of_lt_of_le hk hL))
    (.next hB.count hcount (.test hB.test htest hB.store hstore)), ⟨hH.c3, hH.c4, hH.a0, rfl, ?_⟩, ?_, fun hlt => ?_,
    fun heq => if_pos heq.symm⟩
  · show Copied w s₀.mem (s.mem.store w (D + k) (fun _ : Fin 1 => s.mem.byte (S + k)) false) D S (k + 1) h e
    refine hH.copied.bytes hA.size hout Nat.one_pos rfl (fun j => ?_)
    rw [hH.copied.unread hA.disjoint (by omega) (by omega) (by omega), show j.val = 0 by omega]
    rfl
  · rcases hB.limit with rfl | rfl <;> exact hl
  · exact if_neg (by omega)

/-- **A loop over bytes copies up to its limit.** -/
theorem byte_loop (hB : ByteLoop code p l) (hA : Args decode s₀ D S n) (hH : Head s₀ D S k h e s)
    (hl : s.get l = BitVec.ofNat 64 L) (hout : e ≤ k ∨ e ≤ h) (hk : k < L) (hL : L ≤ n) (hn : n < 2 ^ 63) :
    ∃ s', Runs (exec decode) code ⟨p, p + 1, s⟩ ⟨p + 4, p + 5, s'⟩ ∧ Head s₀ D S L h e s' ∧
      s'.get l = BitVec.ofNat 64 L := by
  have hbody : ∀ k s, k < L → Head s₀ D S k h e s ∧ s.get l = BitVec.ofNat 64 L ∧ (e ≤ k ∨ e ≤ h) →
      ∃ s' pc, Runs (exec decode) code ⟨p, p + 1, s⟩ ⟨pc, pc + 1, s'⟩ ∧
        (k + 1 < L → pc = p ∧ Head s₀ D S (k + 1) h e s' ∧ s'.get l = BitVec.ofNat 64 L ∧ (e ≤ k + 1 ∨ e ≤ h)) ∧
        (k + 1 = L → pc = p + 4 ∧ Head s₀ D S L h e s' ∧ s'.get l = BitVec.ofNat 64 L) := by
    rintro k s hk ⟨hH, hl, hout⟩
    obtain ⟨s', pc, hrun, hH', hl', hon, hoff⟩ := byte_round hB hA hH hl hout hk hL hn
    refine ⟨s', pc, hrun, fun hlt => ⟨hon hlt, hH', hl', by omega⟩, ?_⟩
    rintro rfl
    exact ⟨hoff rfl, hH', hl'⟩
  exact Runs.loop hbody hk ⟨hH, hl, hout⟩

/-! ## The loop over whole capabilities -/

variable {z c : Nat} {keep : Bool} {ok : Nat → Prop} {load store : Instr}

/-- Up to where the granules have been copied with their tags, by a loop that keeps tags or by one that does not. -/
def keptTo (keep : Bool) (h k : Nat) : Nat := if keep then k else h

/-- **What a round of the loop loads and stores**, from a count that is `ok`: the next `z` bytes, with nothing else
changed but the register that holds them. -/
def Round (decode : CapBits w → Cap) (s₀ : State w) (D S n z : Nat) (keep : Bool) (ok : Nat → Prop)
    (load store : Instr) : Prop :=
  ∀ s k h, Head s₀ D S k h (keptTo keep h k) s → h ≤ k → k + z ≤ n → (D + k) % z = 0 → (S + k) % z = 0 → ok k →
    ∃ s₁ m', exec decode load s = some (s₁, .next) ∧ s₁.regs = { s.regs with t3 := s₁.regs.t3 } ∧ s₁.c3 = s.c3 ∧
      s₁.c4 = s.c4 ∧
      exec decode store (s₁.set .a1 (BitVec.ofNat 64 (k + z))) =
        some ({ s₁.set .a1 (BitVec.ofNat 64 (k + z)) with mem := m' }, .next) ∧
      Copied w s₀.mem m' D S (k + z) h (keptTo keep h (k + z))

/-- The granule at `a`, as it would be in a register. -/
def Memory.capAt (m : Memory) (w a : Nat) : CapBits w := ⟨m.tag (a / w), fun j => m.byte (a + j)⟩

/-- **The granule at the count `k` can be carried**: the source may load capabilities and the destination may store
them, and where what it holds is a local one the destination may store these too. -/
structure Carried (decode : CapBits w → Cap) (s : State w) (S k : Nat) : Prop where
  load : (decode s.c4).hasPerms Cap.permLoadCap = true
  store : (decode s.c3).hasPerms Cap.permStoreCap = true
  stays : (s.mem.capAt w (S + k)).tag = true → (decode (s.mem.capAt w (S + k))).hasPerms Cap.permGlobal = true ∨
    (decode s.c3).hasPerms Cap.permStoreLocalCap = true

/-- The granules from the count on have not been written to. -/
theorem Head.capAt (hA : Args decode s₀ D S n) (hH : Head s₀ D S k h e s) (hkn : k + w ≤ n) (hS : (S + k) % w = 0) :
    s.mem.capAt w (S + k) = s₀.mem.capAt w (S + k) := by
  have hpos := hA.size.pos
  have htag := hH.copied.unread_tag hA.size hA.disjoint hkn hS
  have hbytes : (fun j : Fin w => s.mem.byte (S + k + j)) = fun j : Fin w => s₀.mem.byte (S + k + j) :=
    funext fun j => hH.copied.unread hA.disjoint (by omega) (by omega) (by omega)
  unfold Memory.capAt
  rw [htag, hbytes]

theorem Head.clc (hA : Args decode s₀ D S n) (hH : Head s₀ D S k h e s) (hkn : k + w ≤ n) (hS : (S + k) % w = 0)
    (hload : (decode s₀.c4).hasPerms Cap.permLoadCap = true) :
    exec decode (.clc .c5 .a1 0 .c4) s = some (s.setc (s₀.mem.capAt w (S + k)) .c5, .next) := by
  have hpos := hA.size.pos
  have ha1 : s.get .a1 + 0 = BitVec.ofNat 64 k := hH.a1 ▸ BitVec.add_zero _
  have hc4 : s.getc .c4 = s₀.c4 := hH.c4
  have hok : (permits (decode (s.getc .c4)) (Cap.permLoad ||| Cap.permLoadCap) (s.get .a1 + 0) w &&
      reach (decode (s.getc .c4)) (s.get .a1 + 0) % w == 0) = true := by
    rw [ha1, hc4, hA.src.reach (by omega), hA.src.permits (hasPerms_or.2 ⟨hA.src.perms, hload⟩) hkn hpos, hS]
    rfl
  refine (if_pos hok).trans ?_
  rw [ha1, hc4, hA.src.reach (by omega), ← hH.capAt hA hkn hS]
  rfl

theorem round_cap (hA : Args decode s₀ D S n) : Round decode s₀ D S n w true (Carried decode s₀ S)
    (.clc .c5 .a1 0 .c4) (.csc .c5 .a1 (-(BitVec.ofNat 64 w)) .c3) := by
  intro s k h hH hk hkn hD hS hcarried
  have hpos := hA.size.pos
  set x := s₀.mem.capAt w (S + k) with hx
  refine ⟨s.setc x .c5, s.mem.store w (D + k) x.bytes x.tag, hH.clc hA hkn hS hcarried.load, rfl, rfl, rfl, ?_, ?_⟩
  · let s₂ := (s.setc x .c5).set .a1 (BitVec.ofNat 64 (k + w))
    have ha1' : s₂.get .a1 + -(BitVec.ofNat 64 w) = BitVec.ofNat 64 k := ofNat_add_neg k w
    have hc3 : s₂.getc .c3 = s₀.c3 := hH.c3
    have hstays : (!x.tag || (decode x).hasPerms Cap.permGlobal || (decode s₀.c3).hasPerms Cap.permStoreLocalCap) =
        true := by
      cases ht : x.tag with
      | false => rfl
      | true =>
        rw [Bool.not_true, Bool.false_or, Bool.or_eq_true]
        exact hcarried.stays ht
    have hok : (permits (decode (s₂.getc .c3)) (Cap.permStore ||| Cap.permStoreCap)
          (s₂.get .a1 + -(BitVec.ofNat 64 w)) w &&
        reach (decode (s₂.getc .c3)) (s₂.get .a1 + -(BitVec.ofNat 64 w)) % w == 0 &&
        (!x.tag || (decode x).hasPerms Cap.permGlobal || (decode (s₂.getc .c3)).hasPerms Cap.permStoreLocalCap)) =
          true := by
      rw [ha1', hc3, hA.dst.reach (by omega), hstays,
        hA.dst.permits (hasPerms_or.2 ⟨hA.dst.perms, hcarried.store⟩) hkn hpos, hD]
      rfl
    refine (if_pos hok).trans ?_
    rw [ha1', hc3, hA.dst.reach (by omega)]
    rfl
  · exact hH.copied.cap hA.size hk hD (fun _ => rfl) rfl

theorem round_double (hA : Args decode s₀ D S n) : Round decode s₀ D S n 8 false (fun _ => True)
    (.cld .t3 .a1 0 .c4) (.csd .t3 .a1 (-8) .c3) := by
  intro s k h hH hk hkn hD hS _
  let b : Fin 8 → BitVec 8 := fun j => s.mem.byte (S + k + j)
  have ha1 : s.get .a1 + 0 = BitVec.ofNat 64 k := hH.a1 ▸ BitVec.add_zero _
  have hload : exec decode (.cld .t3 .a1 0 .c4) s = some (s.set .t3 (doubleOf b), .next) := by
    have hok : (permits (decode (s.getc .c4)) Cap.permLoad (s.get .a1 + 0) 8 &&
        reach (decode (s.getc .c4)) (s.get .a1 + 0) % 8 == 0) = true := by
      rw [ha1, show s.getc .c4 = s₀.c4 from hH.c4, hA.src.reach (by omega),
        hA.src.permits hA.src.perms hkn (by decide), hS]
      rfl
    refine (if_pos hok).trans ?_
    rw [ha1, show s.getc .c4 = s₀.c4 from hH.c4, hA.src.reach (by omega)]
  refine ⟨s.set .t3 (doubleOf b), s.mem.store w (D + k) b false, hload, rfl, rfl, rfl, ?_, ?_⟩
  · let s₂ := (s.set .t3 (doubleOf b)).set .a1 (BitVec.ofNat 64 (k + 8))
    have ha1' : s₂.get .a1 + (-8) = BitVec.ofNat 64 k := ofNat_add_neg k 8
    have hc3 : s₂.getc .c3 = s₀.c3 := hH.c3
    have hbytes : byteOf (s₂.get .t3) = b := funext (byteOf_doubleOf b)
    have hok : (permits (decode (s₂.getc .c3)) Cap.permStore (s₂.get .a1 + (-8)) 8 &&
        reach (decode (s₂.getc .c3)) (s₂.get .a1 + (-8)) % 8 == 0) = true := by
      rw [ha1', hc3, hA.dst.reach (by omega), hA.dst.permits hA.dst.perms hkn (by decide), hD]
      rfl
    refine (if_pos hok).trans ?_
    rw [ha1', hc3, hA.dst.reach (by omega), hbytes]
    rfl
  · have hone : (D + k) / w = (D + k + (8 - 1)) / w := by
      rcases hA.size with rfl | rfl | rfl <;> omega
    refine hH.copied.bytes hA.size (Or.inr (Nat.le_refl _)) (by decide) hone (fun j => ?_)
    exact hH.copied.unread hA.disjoint (by omega) (by omega) (by omega)

/-- The loop at `p` in the text, up to the count in `$a2`. -/
structure WholeLoop (code : List Instr) (p z : Nat) (load store : Instr) : Prop where
  load : code[p]? = some load
  count : code[p + 1]? = some (.daddi .a1 .a1 (BitVec.ofNat 64 z))
  test : code[p + 2]? = some (.bne .a1 .a2 p)
  store : code[p + 3]? = some store

theorem whole_round (hW : WholeLoop code p z load store) (hR : Round decode s₀ D S n z keep ok load store)
    (hH : Head s₀ D S k h (keptTo keep h k) s) (ha2 : s.regs.a2 = BitVec.ofNat 64 L) (hk : h ≤ k) (hkL : k + z ≤ L)
    (hL : L ≤ n) (hn : n < 2 ^ 63) (hD : (D + k) % z = 0) (hS : (S + k) % z = 0) (hok : ok k) :
    ∃ s' pc, Runs (exec decode) code ⟨p, p + 1, s⟩ ⟨pc, pc + 1, s'⟩ ∧ Head s₀ D S (k + z) h (keptTo keep h (k + z)) s' ∧
      s'.regs.a2 = BitVec.ofNat 64 L ∧ (k + z < L → pc = p) ∧ (k + z = L → pc = p + 4) := by
  obtain ⟨s₁, m', hload, hregs, hc3, hc4, hstore, hcopied⟩ := hR s k h hH hk (by omega) hD hS hok
  have ha1 : s₁.get .a1 = BitVec.ofNat 64 k := by
    show s₁.regs.a1 = _
    rw [hregs]
    exact hH.a1
  have hcount : exec decode (.daddi .a1 .a1 (BitVec.ofNat 64 z)) s₁ =
      some (s₁.set .a1 (BitVec.ofNat 64 (k + z)), .next) := exec_daddi_ofNat ha1 (by omega)
  let s₂ := s₁.set .a1 (BitVec.ofNat 64 (k + z))
  have ha2' : s₂.regs.a2 = BitVec.ofNat 64 L := by
    show s₁.regs.a2 = _
    rw [hregs]
    exact ha2
  have htest : exec decode (.bne .a1 .a2 p) s₂ = some (s₂, if k + z = L then .next else .branch p) :=
    exec_bne_ofNat rfl ha2' (by omega) (by omega)
  have ha0 : s₂.regs.a0 = s₀.regs.a0 := by
    show s₁.regs.a0 = _
    rw [hregs]
    exact hH.a0
  exact ⟨{ s₂ with mem := m' }, if k + z = L then p + 4 else p,
    .next hW.load hload (.next hW.count hcount (.test hW.test htest hW.store hstore)),
    ⟨hc3.trans hH.c3, hc4.trans hH.c4, ha0, rfl, hcopied⟩, ha2', fun hlt => if_neg (by omega), fun heq => if_pos heq⟩

/-- Round `j` of the loop over whole capabilities is about to start. -/
def AtRound (s₀ : State w) (D S h z L : Nat) (keep : Bool) (j : Nat) (s : State w) : Prop :=
  Head s₀ D S (h + j * z) h (keptTo keep h (h + j * z)) s ∧ s.regs.a2 = BitVec.ofNat 64 L

theorem AtRound.first (hH : Head s₀ D S h h h s) (ha2 : s.regs.a2 = BitVec.ofNat 64 L) :
    AtRound s₀ D S h z L keep 0 s := by
  refine ⟨?_, ha2⟩
  rw [Nat.zero_mul, Nat.add_zero]
  cases keep <;> exact hH

theorem AtRound.round (hz : CapSize z) (hW : WholeLoop code p z load store)
    (hR : Round decode s₀ D S n z keep ok load store) {j : Nat} (hs : AtRound s₀ D S h z (h + c * z) keep j s)
    (hj : j < c) (hok : ok (h + j * z)) (hL : h + c * z ≤ n) (hn : n < 2 ^ 63) (hD : (D + h) % z = 0)
    (hS : (S + h) % z = 0) :
    ∃ s' pc, Runs (exec decode) code ⟨p, p + 1, s⟩ ⟨pc, pc + 1, s'⟩ ∧ AtRound s₀ D S h z (h + c * z) keep (j + 1) s' ∧
      (j + 1 < c → pc = p) ∧ (j + 1 = c → pc = p + 4) := by
  have hsucc : h + j * z + z = h + (j + 1) * z := by rw [Nat.succ_mul, Nat.add_assoc]
  have hle : h + j * z + z ≤ h + c * z := by
    rw [hsucc]
    exact Nat.add_le_add_left (Nat.mul_le_mul_right z hj) h
  have hlt : j + 1 < c → h + j * z + z < h + c * z := fun hjc => by
    rcases hz with rfl | rfl | rfl <;> omega
  obtain ⟨s', pc, hrun, hH', ha2', hon, hoff⟩ := whole_round hW hR hs.1 hs.2 (Nat.le_add_right _ _) hle hL hn
    (by rw [← Nat.add_assoc, Nat.add_mul_mod_self_right, hD])
    (by rw [← Nat.add_assoc, Nat.add_mul_mod_self_right, hS]) hok
  rw [hsucc] at hH'
  exact ⟨s', pc, hrun, ⟨hH', ha2'⟩, fun hjc => hon (hlt hjc), fun hjc => hoff (by rw [hsucc, hjc])⟩

/-- **The loop over whole capabilities copies `c` of them.** -/
theorem whole_loop (hz : CapSize z) (hW : WholeLoop code p z load store)
    (hR : Round decode s₀ D S n z keep ok load store) (hok : ∀ j, j < c → ok (h + j * z)) (hH : Head s₀ D S h h h s)
    (ha2 : s.regs.a2 = BitVec.ofNat 64 (h + c * z)) (hc : 0 < c) (hL : h + c * z ≤ n) (hn : n < 2 ^ 63)
    (hD : (D + h) % z = 0) (hS : (S + h) % z = 0) :
    ∃ s', Runs (exec decode) code ⟨p, p + 1, s⟩ ⟨p + 4, p + 5, s'⟩ ∧
      Head s₀ D S (h + c * z) h (keptTo keep h (h + c * z)) s' ∧ s'.regs.a2 = BitVec.ofNat 64 (h + c * z) := by
  have hbody : ∀ j s, j < c → AtRound s₀ D S h z (h + c * z) keep j s →
      ∃ s' pc, Runs (exec decode) code ⟨p, p + 1, s⟩ ⟨pc, pc + 1, s'⟩ ∧
        (j + 1 < c → pc = p ∧ AtRound s₀ D S h z (h + c * z) keep (j + 1) s') ∧
        (j + 1 = c → pc = p + 4 ∧ AtRound s₀ D S h z (h + c * z) keep c s') := by
    intro j s hj hs
    obtain ⟨s', pc, hrun, hs', hon, hoff⟩ := hs.round hz hW hR hj (hok j hj) hL hn hD hS
    refine ⟨s', pc, hrun, fun hjc => ⟨hon hjc, hs'⟩, ?_⟩
    rintro rfl
    exact ⟨hoff rfl, hs'⟩
  exact Runs.loop hbody hc (.first hH ha2)

/-! ## Granules that cannot be carried -/

theorem exec_clc_none (h : (decode s.c4).hasPerms Cap.permLoadCap ≠ true) {imm : BitVec 64} :
    exec decode (.clc .c5 .a1 imm .c4) s = none := by
  refine if_neg fun hok => h ?_
  rw [Bool.and_eq_true] at hok
  exact (hasPerms_or.1 (permits_perms hok.1)).2

theorem exec_csc_none {imm : BitVec 64} (h : (decode s.c3).hasPerms Cap.permStoreCap = true →
    ¬ (s.c5.tag = true → (decode s.c5).hasPerms Cap.permGlobal = true ∨
      (decode s.c3).hasPerms Cap.permStoreLocalCap = true)) : exec decode (.csc .c5 .a1 imm .c3) s = none := by
  refine if_neg fun hok => ?_
  rw [Bool.and_eq_true, Bool.and_eq_true] at hok
  refine h (hasPerms_or.1 (permits_perms hok.1.1)).2 fun ht => ?_
  have hstays := hok.2
  simpa [State.getc, ht] using hstays

/-- **A granule that cannot be carried traps**, where it is loaded or where it is stored. -/
theorem Head.trapped (hW : WholeLoop code p w (.clc .c5 .a1 0 .c4) (.csc .c5 .a1 (-(BitVec.ofNat 64 w)) .c3))
    (hA : Args decode s₀ D S n) (hH : Head s₀ D S k h e s) (ha2 : s.regs.a2 = BitVec.ofNat 64 L) (hkn : k + w ≤ n)
    (hL : L ≤ n) (hn : n < 2 ^ 63) (hS : (S + k) % w = 0) (hno : ¬ Carried decode s₀ S k) :
    ∃ c, Runs (exec decode) code ⟨p, p + 1, s⟩ c ∧ Trapped (exec decode) code c := by
  by_cases hload : (decode s₀.c4).hasPerms Cap.permLoadCap = true
  · have hcount : exec decode (.daddi .a1 .a1 (BitVec.ofNat 64 w)) (s.setc (s₀.mem.capAt w (S + k)) .c5) =
        some ((s.setc (s₀.mem.capAt w (S + k)) .c5).set .a1 (BitVec.ofNat 64 (k + w)), .next) :=
      exec_daddi_ofNat hH.a1 (by omega)
    let s₂ := (s.setc (s₀.mem.capAt w (S + k)) .c5).set .a1 (BitVec.ofNat 64 (k + w))
    have htest : exec decode (.bne .a1 .a2 p) s₂ = some (s₂, if k + w = L then .next else .branch p) :=
      exec_bne_ofNat rfl ha2 (by omega) (by omega)
    have hstore : exec decode (.csc .c5 .a1 (-(BitVec.ofNat 64 w)) .c3) s₂ = none := by
      refine exec_csc_none fun hstore hstays => hno ⟨hload, ?_, ?_⟩
      · exact hH.c3 ▸ hstore
      · exact hH.c3 ▸ hstays
    -- the store is in the delay slot, wherever the test leads
    refine ⟨_, .next hW.load (hH.clc hA hkn hS hload) (.next hW.count hcount (.head (step_eq hW.test htest) (.refl _))),
      .csc .c5 .a1 (-(BitVec.ofNat 64 w)) .c3, ?_, ?_⟩
    · split <;> exact hW.store
    · split <;> exact hstore
  · exact ⟨_, .refl _, _, hW.load, exec_clc_none (hH.c4 ▸ hload)⟩

end Memcpy
end CheriOS
