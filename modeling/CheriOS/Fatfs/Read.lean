import CheriOS.Fatfs.Buffer
/-!
# Read — reading a file (`ff.c`)

A turn of `f_read` takes as many whole sectors of the cluster as are wanted past the buffer, or a part of one sector through
it.  Either way the bytes are those of the file, and the loop ends when it has all of them.
-/
namespace CheriOS
namespace Fatfs

open Outcome Chain

variable {D : Disk} {W : Set Nat} {v v' : Vol D} {s s' : Chains D} {g : Geometry} {l : List Nat} {i n : Nat}
  {E : Nat → Fin 512 → Prop} {fp fp' fp'' : Fil} {f : File} {data : Nat → Option (BitVec 8)}

/-! ## The sector in the cluster -/

/-- Sector offset in the cluster, as `f_read` computes it. -/
theorem csect_read {csize : BitVec 16} (hcs : ∃ k, csize.toNat = 2 ^ k) (fptr : BitVec 64) :
    ((fptr / 512 &&& (csize.setWidth 64 - 1)).setWidth 32).toNat = fptr.toNat / 512 % csize.toNat := by
  obtain ⟨k, hk⟩ := hcs
  have hpos := Nat.two_pow_pos k
  have hlt := csize.isLt
  have hk16 : k ≤ 16 := (Nat.pow_le_pow_iff_right (by decide)).1 (hk ▸ Nat.le_of_lt hlt)
  have hmask : csize.setWidth 64 - 1 = BitVec.ofNat 64 (2 ^ k - 1) := by
    apply BitVec.eq_of_toNat_eq
    rw [BitVec.toNat_sub, BitVec.toNat_ofNat, BitVec.toNat_setWidth, hk]
    show (2 ^ 64 - 1 + _) % _ = _
    omega
  have hmod := Nat.mod_lt (fptr / 512).toNat (Nat.two_pow_pos k)
  rw [hmask, BitVec.toNat_setWidth, Mask.toNat_and_low (by omega), Nat.mod_eq_of_lt (by omega), hk]
  rfl

/-! ## A turn -/

/-- What is on the drive where the file has its sectors is all that counts of the drive. -/
theorem Cached.congr (h : Good W s) (hc : Cached s.vol (s.own i) fp data) (hg : v.fs.toGeometry = s.vol.fs.toGeometry)
    (hstore : ∀ x, x ∉ W → ¬ s.vol.fs.IsCopy x → v.store x = s.vol.store x) : Cached v (s.own i) fp data := by
  refine ⟨by rw [hg]; exact hc.dirty, ?_⟩
  rw [hg]
  refine hc.known.congr fun x hx => hx.congr ?_
  rintro ⟨k, hk⟩
  obtain ⟨hmine, hlo, -⟩ := h.place hk
  exact (hstore x (h.aside i x hmine) (h.sound.mounted.fits.behind hlo).2.2.1).symm

theorem Cached.kept (h : Good W s) (hc : Cached s.vol (s.own i) fp data) (hk : Kept W s.vol v) :
    Cached v (s.own i) fp data :=
  hc.congr h hk.geometry hk.store

/-- **The cluster of the position**, where it is not the current one. -/
theorem follow_returns (h : Good W s) (ho : Opened s.vol (s.own i) fp f)
    (hp : f.pos < (s.own i).length * s.vol.fs.unit) (hbound : f.pos % s.vol.fs.unit = 0) :
    Returns (follow s.vol fp) (fun p => Kept W s.vol p.2 ∧ (s.own i)[f.pos / s.vol.fs.unit]? = some p.1.toNat) := by
  have hm := h.sound.mounted
  have hu := hm.fits.unit_pos
  have hpos := ho.object.pos
  have hlt := (Nat.div_lt_iff_lt_mul hu).2 hp
  rw [follow]
  by_cases h0 : fp.fptr = 0
  · rw [if_pos h0]
    have hp0 : f.pos = 0 := by rw [← hpos, h0]; rfl
    refine ⟨.refl hm, ?_⟩
    show _ = some fp.obj.sclust.toNat
    rw [hp0, Nat.zero_div] at hlt ⊢
    exact ho.object.first_of_ne (List.ne_nil_of_length_pos hlt)
  · rw [if_neg h0]
    have hp0 : 0 < f.pos := by
      rw [← hpos]
      exact Nat.pos_of_ne_zero fun he => h0 (BitVec.eq_of_toNat_eq he)
    have hcur := ho.current hp0
    have hc := h.sound.owns.valid i _ (List.mem_of_getElem? hcur)
    refine Sat.mono (getFat_returns hm hc) ?_ (fun _ => id)
    rintro ⟨clst, v⟩ ⟨hclst, hk⟩
    refine ⟨hk, ?_⟩
    have hq := div_pred hp0 hbound
    rcases (h.sound.owns.linked i).step hcur with hnext | ⟨hnone, -⟩
    · rw [← hq, hnext]
      exact congrArg some hclst.symm
    · rw [hq] at hnone
      exact absurd (List.getElem?_eq_none_iff.1 hnone) (Nat.not_le.2 hlt)

theorem cluster_ne {g : Geometry} (hfit : g.Fits n) {c : BitVec 64} (hc : g.Cluster c.toNat) :
    ¬ c < 2 ∧ c ≠ 0 ∧ c ≠ 1 ∧ c ≠ 0xFFFFFFFF := by
  have h1 := hc.1
  have h2 := hc.2
  have h3 := hfit.ends
  have h4 := width_le_28 g.fsType
  refine ⟨?_, fun he => ?_, fun he => ?_, fun he => ?_⟩
  · rw [BitVec.lt_def]
    show ¬ _ < 2
    omega
  · have h0 : c.toNat = 0 := congrArg BitVec.toNat he
    omega
  · have h0 : c.toNat = 1 := congrArg BitVec.toNat he
    omega
  · have h0 : c.toNat = 0xFFFFFFFF := congrArg BitVec.toNat he
    omega

theorem readCluster_returns (h : Good W s) (ho : Opened s.vol (s.own i) fp f)
    (hp : f.pos < (s.own i).length * s.vol.fs.unit) {csect : BitVec 32}
    (hcs : csect.toNat = f.pos / 512 % s.vol.fs.csize.toNat) (hsect : f.pos % 512 = 0) :
    Returns (readCluster s.vol fp csect) (fun p => p.1 = .buffered ∧ Kept W s.vol p.2.2 ∧
      ∃ c, p.2.1 = { fp with clust := c } ∧ (s.own i)[f.pos / s.vol.fs.unit]? = some c.toNat) := by
  have hm := h.sound.mounted
  have hmod := mod_unit s.vol.fs.toGeometry f.pos
  rw [readCluster]
  by_cases h0 : csect = 0
  · rw [if_pos h0]
    have hz : f.pos / 512 % s.vol.fs.csize.toNat = 0 := by rw [← hcs, h0]; rfl
    refine Sat.bind (follow_returns h ho hp (by rw [hmod, hz, hsect, Nat.zero_mul])) ?_
    rintro ⟨c, v⟩ ⟨hk, hc⟩
    replace hc : (s.own i)[f.pos / s.vol.fs.unit]? = some c.toNat := hc
    obtain ⟨h2, -, -, hF⟩ := cluster_ne hm.fits (h.sound.owns.valid i _ (List.mem_of_getElem? hc))
    simp only [h2, hF, if_false]
    exact ⟨rfl, hk, c, rfl, hc⟩
  · rw [if_neg h0]
    exact ⟨rfl, .refl hm, fp.clust, rfl, here_of_current (mod_unit_ne h0 hcs) ho.current⟩

/-- Whether the buffer's sector is one of `cc` from `x` on: below, the difference wraps. -/
theorem sub_lt_iff {a x : BitVec 64} {cc : BitVec 32} (hx : x.toNat ≤ 0xFFFFFFFF) :
    a - x < cc.setWidth 64 ↔ x.toNat ≤ a.toNat ∧ a.toNat < x.toNat + cc.toNat := by
  have hcc : (cc.setWidth 64).toNat = cc.toNat := BitVec.toNat_setWidth_of_le (by decide)
  have hlt := cc.isLt
  rw [BitVec.lt_def, BitVec.toNat_sub, hcc]
  omega

/-- The byte the sector `y` starts at, in a transfer from the sector `x`. -/
theorem sub_mul_512 {x y : BitVec 64} (hxy : x.toNat ≤ y.toNat) (hy : y.toNat < 2 ^ 55) :
    ((y - x) * 512).toNat = (y.toNat - x.toNat) * 512 := by
  rw [BitVec.toNat_mul, BitVec.toNat_sub_of_le (BitVec.le_def.2 hxy)]
  exact Nat.mod_eq_of_lt (show _ * 512 < 2 ^ 64 by omega)

/-- **Sectors read past the buffer**, with what is newer there. -/
theorem readDirect_returns (h : Good W s) (hc : Cached s.vol (s.own i) fp data) {q : Nat} {x : BitVec 64} {cc : BitVec 32}
    {rbuff : Bytes} (hx : s.vol.fs.place (s.own i) q = some x.toNat) (h0 : 0 < cc.toNat)
    (hcc : q % s.vol.fs.csize.toNat + cc.toNat ≤ s.vol.fs.csize.toNat) :
    Returns (readDirect s.vol fp rbuff x cc) (fun p => p.1 = .direct (512 * cc) ∧
      (∀ k < cc.toNat * 512, ∀ b, data (q * 512 + k) = some b → p.2 k = b) ∧
      ∀ k, cc.toNat * 512 ≤ k → p.2 k = rbuff k) := by
  have hm := h.sound.mounted
  have hmax := D.sectors_le
  have hplace : ∀ j < cc.toNat, s.vol.fs.place (s.own i) (q + j) = some (x.toNat + j) := fun j hj =>
    Extent.cell_add hx (by omega)
  have hlast := (h.place (hplace (cc.toNat - 1) (by omega))).2.2
  have hread := D.read_served rbuff x cc s.vol.disk (by omega)
  -- the byte `k` is byte `k % 512` of the sector `k / 512` behind `x`
  have hbyte : ∀ k < cc.toNat * 512, memcpy rbuff 0 (D.cells s.vol.disk) (x.toNat * 512) (cc.toNat * 512) k =
      s.vol.store (x.toNat + k / 512) ⟨k % 512, offset_lt k⟩ := by
    intro k hk
    simp only [memcpy]
    rw [if_pos (by omega)]
    have he : x.toNat * 512 + (k - 0) = (x.toNat + k / 512) * 512 + k % 512 := by omega
    exact congrArg (D.cells s.vol.disk) he
  have hin : ∀ k < cc.toNat * 512, ∀ b, data (q * 512 + k) = some b →
      data ((q + k / 512) * 512 + k % 512) = some b := by
    intro k _ b hb
    rwa [show (q + k / 512) * 512 + k % 512 = q * 512 + k by omega]
  rw [readDirect]
  simp only [hm.fits.drv, hread, ok_bind, ne_eq, not_true_eq_false, if_false]
  by_cases hover : ¬ fp.flag &&& faDirty = 0 ∧ fp.sect - x < cc.setWidth 64
  · obtain ⟨hd, hlt⟩ := hover
    rw [if_pos ⟨hd, hlt⟩]
    obtain ⟨k₀, hk₀⟩ := hc.dirty ((line_dirty fp).2 hd)
    have hkey : fp.sect.toNat < D.sectors := (h.place hk₀).2.2
    obtain ⟨hlo, hhi⟩ := (sub_lt_iff (by omega)).1 hlt
    have hoff := sub_mul_512 hlo (by omega)
    rw [hoff]
    refine ⟨rfl, fun k hk b hb => ?_, fun k hk => ?_⟩
    · show memcpy _ _ fp.buf 0 512 k = b
      have hb' := hin k hk b hb
      rw [memcpy]
      by_cases hkey' : x.toNat + k / 512 = fp.sect.toNat
      · rw [if_pos (by omega)]
        have hline := hc.known.line (q + k / 512) (by rw [hplace _ (by omega), hkey']; rfl) ⟨k % 512, offset_lt k⟩ b hb'
        refine Eq.trans ?_ hline
        show fp.buf _ = fp.buf (0 * 512 + k % 512)
        congr 1
        omega
      · rw [if_neg (by omega), hbyte k hk]
        exact hc.known.store _ (fun _ => hkey') (q + k / 512) (hplace _ (by omega)) ⟨k % 512, offset_lt k⟩ b hb'
    · show memcpy _ _ fp.buf 0 512 k = _
      simp only [memcpy]
      rw [if_neg (by omega), if_neg (by omega)]
  · rw [if_neg hover]
    refine ⟨rfl, fun k hk b hb => ?_, fun k hk => ?_⟩
    · show memcpy rbuff 0 (D.cells s.vol.disk) (x.toNat * 512) (cc.toNat * 512) k = b
      rw [hbyte k hk]
      refine hc.known.store _ (fun hd he => hover ⟨(line_dirty fp).1 hd, ?_⟩) (q + k / 512) (hplace _ (by omega))
        ⟨k % 512, offset_lt k⟩ b (hin k hk b hb)
      have hkey : fp.sect.toNat = x.toNat + k / 512 := he.symm
      exact (sub_lt_iff (by omega)).2 (by omega)
    · show memcpy rbuff 0 (D.cells s.vol.disk) (x.toNat * 512) (cc.toNat * 512) k = _
      simp only [memcpy]
      rw [if_neg (by omega)]

theorem contiguous_toNat (fs : FatFs) (csect cc : BitVec 32) (hcs : csect.toNat ≤ fs.csize.toNat)
    (hcc : cc.toNat < 2 ^ 24) : (contiguous fs csect cc).toNat = min cc.toNat (fs.csize.toNat - csect.toNat) := by
  have hlt := fs.csize.isLt
  have hw : (fs.csize.setWidth 32).toNat = fs.csize.toNat := BitVec.toNat_setWidth_of_le (by decide)
  unfold contiguous
  split
  · rename_i hgt
    rw [gt_iff_lt, BitVec.lt_def, BitVec.toNat_add, hw] at hgt
    rw [BitVec.toNat_sub, hw]
    omega
  · rename_i hle
    rw [gt_iff_lt, BitVec.lt_def, BitVec.toNat_add, hw] at hle
    omega

theorem rest_toNat (fptr : BitVec 64) (m : BitVec 32) : (rest fptr m).toNat = min m.toNat (512 - fptr.toNat % 512) := by
  have hmod : (fptr.setWidth 32 % 512).toNat = fptr.toNat % 512 := by
    rw [BitVec.toNat_umod, BitVec.toNat_setWidth]
    show fptr.toNat % 2 ^ 32 % 512 = _
    omega
  have hcnt : (512 - fptr.setWidth 32 % 512).toNat = 512 - fptr.toNat % 512 := by
    rw [BitVec.toNat_sub, hmod]
    show (2 ^ 32 - _ + 512) % _ = _
    omega
  unfold rest
  dsimp only
  split
  · rename_i hgt
    rw [gt_iff_lt, BitVec.lt_def, hcnt] at hgt
    omega
  · rename_i hle
    rw [gt_iff_lt, BitVec.lt_def, hcnt] at hle
    rw [hcnt]
    omega

/-- A multiple of the sector size, in bits. -/
theorem mod_512_iff (x : BitVec 64) : x % 512 = 0 ↔ x.toNat % 512 = 0 := by
  rw [← BitVec.toNat_inj, BitVec.toNat_umod]
  rfl

/-- **What `f_read` has at the sector boundary**, or in front of the rest of a sector: all sectors that were wanted as a whole
up to the end of the cluster, or the sector of the position in the buffer. -/
inductive ReadSector (v : Vol D) (l : List Nat) (f : File) (rbuff : Bytes) (btr : BitVec 32) (fp : Fil) :
    Turn → Bytes → Prop where
  | buffered : v.fs.place l (f.pos / 512) = some fp.line.key → ReadSector v l f rbuff btr fp .buffered rbuff
  | direct (cc : BitVec 32) (buff : Bytes) : f.pos % 512 = 0 → 0 < cc.toNat → cc.toNat * 512 ≤ btr.toNat →
      f.pos / 512 % v.fs.csize.toNat + cc.toNat ≤ v.fs.csize.toNat →
      (∀ k < cc.toNat * 512, ∀ b, f.data (f.pos + k) = some b → buff k = b) →
      (∀ k, cc.toNat * 512 ≤ k → buff k = rbuff k) → ReadSector v l f rbuff btr fp (.direct (512 * cc)) buff

theorem readSector_returns (h : Good W s) (ho : Opened s.vol (s.own i) fp f) {rbuff : Bytes} {btr : BitVec 32}
    (h0 : 0 < btr.toNat) (hle : btr.toNat ≤ f.size - f.pos) : Returns (readSector s.vol fp rbuff btr) (fun p =>
      Calm fp p.2.2.1 ∧ p.2.2.1.fptr = fp.fptr ∧ Moves W E i s { s with vol := p.2.2.2 } ∧
      Cached p.2.2.2 (s.own i) p.2.2.1 f.data ∧ (s.own i)[f.pos / s.vol.fs.unit]? = some p.2.2.1.clust.toNat ∧
      ReadSector s.vol (s.own i) f rbuff btr p.2.2.1 p.1 p.2.1) := by
  have hm := h.sound.mounted
  have hroom := ho.object.room
  have hpos := ho.object.pos
  have hmod := mod_unit s.vol.fs.toGeometry f.pos
  rw [readSector]
  by_cases h512 : fp.fptr % 512 = 0
  · have hsect : f.pos % 512 = 0 := hpos ▸ (mod_512_iff _).1 h512
    have hcs := csect_read hm.fits.csize fp.fptr
    rw [hpos] at hcs
    rw [if_pos h512]
    refine Sat.bind (readCluster_returns h ho (by omega) hcs hsect) ?_
    rintro ⟨t, fp₁, v₁⟩ ⟨rfl, hk, c, hfp, hc⟩
    replace hk : Kept W s.vol v₁ := hk
    replace hfp : fp₁ = { fp with clust := c } := hfp
    subst hfp
    have hmoves : Moves W E i s { s with vol := v₁ } := .of_kept h hk
    have hgood : Good W { s with vol := v₁ } := hmoves.good
    have hcached : Cached v₁ (s.own i) { fp with clust := c } f.data := (ho.cached.kept h hk).of_line rfl
    have hstep : Calm fp { fp with clust := c } := ⟨rfl, rfl, rfl, rfl, .inl rfl⟩
    have hg := hk.geometry
    have hlt := hm.fits.csize_pos
    have hmodlt := Nat.mod_lt (f.pos / 512) hlt
    generalize ((fp.fptr / 512 &&& (s.vol.fs.csize.setWidth 64 - 1)).setWidth 32) = csect at hcs ⊢
    obtain ⟨hnz, hplace⟩ := hgood.sect (p := f.pos) (c := c) (m := csect.setWidth 64) (by
      show (s.own i)[f.pos / v₁.fs.unit]? = _
      rw [hg]
      exact hc) (by
      show _ = f.pos / 512 % v₁.fs.csize.toNat
      rw [hg]
      exact hcs)
    replace hnz : clust2sect v₁.fs c ≠ 0 := hnz
    replace hplace : v₁.fs.place (s.own i) (f.pos / 512) = some (clust2sect v₁.fs c + csect.setWidth 64).toNat := hplace
    simp only [ne_eq, not_true_eq_false, if_false, hnz]
    by_cases hcc : btr / 512 = 0
    · -- less than a sector is wanted
      simp only [hcc, not_true_eq_false, if_false]
      refine Sat.bind (loadBuffer_returns (E := E) hgood hcached hplace) ?_
      rintro ⟨res, fp₂, v₂⟩ ⟨rfl, hcalm, hfptr, hclust, hsect₂, hfs, hmoves₂, hcached₂⟩
      replace hclust : fp₂.clust = c := hclust
      replace hsect₂ : fp₂.sect = _ := hsect₂
      refine ⟨hstep.trans hcalm, hfptr, hmoves.trans hmoves₂, hcached₂, hclust ▸ hc, ?_⟩
      rw [hg] at hplace
      refine .buffered (hplace.trans ?_)
      rw [← hsect₂]
      rfl
    · have hpos32 : 0 < (btr / 512).toNat := Nat.pos_of_ne_zero fun he => hcc (BitVec.eq_of_toNat_eq he)
      have hdiv : (btr / 512).toNat = btr.toNat / 512 := rfl
      have hbtr := btr.isLt
      have hcont := contiguous_toNat v₁.fs csect (btr / 512) (by rw [hg]; omega) (by omega)
      rw [hg] at hcont
      simp only [hcc, not_false_eq_true, if_true]
      generalize contiguous v₁.fs csect (btr / 512) = cc at hcont ⊢
      refine Sat.bind (readDirect_returns hgood hcached hplace (by omega) (by
        show f.pos / 512 % v₁.fs.csize.toNat + _ ≤ v₁.fs.csize.toNat
        rw [hg]
        omega)) ?_
      rintro ⟨t, buff⟩ ⟨rfl, hbytes, hrest⟩
      have hpe : f.pos / 512 * 512 = f.pos := by omega
      rw [hpe] at hbytes
      exact ⟨hstep, rfl, hmoves, hcached, hc, .direct cc buff hsect (by omega) (by omega) (by omega)
        hbytes hrest⟩
  · have hsect : f.pos % 512 ≠ 0 := hpos ▸ mt (mod_512_iff _).2 h512
    rw [if_neg h512]
    exact ⟨.refl fp, rfl, .refl h, ho.cached, here_of_current (by rw [hmod]; omega) ho.current, .buffered (ho.within hsect)⟩

/-- **A turn of the loop reads a part of the file.** -/
theorem readTurn_returns (h : Good W s) (ho : Opened s.vol (s.own i) fp f) {rbuff : Bytes} {btr : BitVec 32}
    (h0 : 0 < btr.toNat) (hle : btr.toNat ≤ f.size - f.pos) : Returns (readTurn s.vol fp rbuff btr) (fun p =>
      ∃ m : BitVec 32, p.1 = .direct m ∧ 0 < m.toNat ∧ m.toNat ≤ btr.toNat ∧
      (∀ k < m.toNat, ∀ b, f.data (f.pos + k) = some b → p.2.1 k = b) ∧ (∀ k, m.toNat ≤ k → p.2.1 k = rbuff k) ∧
      Calm fp p.2.2.1 ∧ Moves W E i s { s with vol := p.2.2.2 } ∧
      Opened p.2.2.2 (s.own i) { p.2.2.1 with fptr := p.2.2.1.fptr + m.setWidth 64 } { f with pos := f.pos + m.toNat }) := by
  have hposle := ho.object.pos_le
  have hmodlt := Nat.mod_lt (f.pos / 512) h.sound.mounted.fits.csize_pos
  rw [readTurn]
  refine Sat.bind (readSector_returns (E := E) h ho h0 hle) ?_
  rintro ⟨t, buff, fp₁, v₁⟩ ⟨hcalm, hfptr, hmoves, hcached, hhere, hsector⟩
  replace hcalm : Calm fp fp₁ := hcalm
  replace hfptr : fp₁.fptr = fp.fptr := hfptr
  replace hmoves : Moves W E i s { s with vol := v₁ } := hmoves
  replace hcached : Cached v₁ (s.own i) fp₁ f.data := hcached
  replace hhere : (s.own i)[f.pos / s.vol.fs.unit]? = some fp₁.clust.toNat := hhere
  replace hsector : ReadSector s.vol (s.own i) f rbuff btr fp₁ t buff := hsector
  have hg : v₁.fs.toGeometry = s.vol.fs.toGeometry := hmoves.geometry
  have hpos₁ : fp₁.fptr.toNat = f.pos := by rw [hfptr, ho.object.pos]
  -- the file object after `m` bytes
  have hafter : ∀ m : BitVec 32, 0 < m.toNat → m.toNat ≤ btr.toNat → f.pos % s.vol.fs.unit + m.toNat ≤ s.vol.fs.unit →
      ((f.pos + m.toNat) % 512 ≠ 0 → s.vol.fs.place (s.own i) ((f.pos + m.toNat) / 512) = some fp₁.line.key) →
      Opened v₁ (s.own i) { fp₁ with fptr := fp₁.fptr + m.setWidth 64 } { f with pos := f.pos + m.toNat } := by
    intro m hm0 hmle hmu hin
    have hroom := h.room_lt ho.object.room
    have hsum : (fp₁.fptr + m.setWidth 64).toNat = f.pos + m.toNat := by
      have hw : (m.setWidth 64).toNat = m.toNat := BitVec.toNat_setWidth_of_le (by decide)
      rw [BitVec.toNat_add, hpos₁, hw]
      omega
    have hcalm' : Calm fp { fp₁ with fptr := fp₁.fptr + m.setWidth 64 } :=
      ⟨hcalm.obj, hcalm.err, hcalm.dirSect, hcalm.dirPtr, hcalm.flag⟩
    refine ⟨?_, hcached.of_line rfl, fun _ => ?_, ?_⟩
    · rw [hg]
      exact ho.object.calm hcalm' hsum (by omega)
    · rw [hg]
      exact here_advance hhere hm0 hmu
    · rw [hg]
      exact hin
  cases hsector with
  | buffered hplace =>
    have hrest := rest_toNat fp₁.fptr btr
    rw [hpos₁] at hrest
    simp only [if_true]
    generalize rest fp₁.fptr btr = m at hrest ⊢
    refine ⟨m, rfl, by omega, by omega, fun k hk b hb => ?_, fun k hk => ?_, hcalm, hmoves,
      hafter m (by omega) (by omega) ?_ fun hne => ?_⟩
    · show memcpy rbuff 0 fp₁.buf (fp₁.fptr.toNat % 512) m.toNat k = b
      rw [hpos₁, memcpy, if_pos (by omega)]
      have hb' : f.data (f.pos / 512 * 512 + (f.pos % 512 + k)) = some b := by
        rwa [show f.pos / 512 * 512 + (f.pos % 512 + k) = f.pos + k by omega]
      refine Eq.trans (congrArg fp₁.buf ?_) (hcached.known.line (f.pos / 512) ?_ ⟨f.pos % 512 + k, by omega⟩ b hb')
      · show _ = 0 * 512 + (f.pos % 512 + k)
        omega
      · rw [hg]
        exact hplace
    · show memcpy rbuff 0 fp₁.buf (fp₁.fptr.toNat % 512) m.toNat k = _
      rw [memcpy, if_neg (by omega)]
    · exact in_unit (c := 1) hmodlt (by omega)
    · rw [show (f.pos + m.toNat) / 512 = f.pos / 512 by omega]
      exact hplace
  | direct cc buff hsect hcc0 hcc hclip hbytes hrest =>
    have hbtr := btr.isLt
    have hcnt : (512 * cc).toNat = cc.toNat * 512 := by
      rw [BitVec.toNat_mul]
      show 512 * cc.toNat % 2 ^ 32 = _
      omega
    simp only [reduceCtorEq, if_false]
    refine ⟨512 * cc, rfl, by omega, by omega, by rw [hcnt]; exact hbytes, by rw [hcnt]; exact hrest, hcalm, hmoves,
      hafter (512 * cc) (by omega) (by omega) ?_ fun hne => absurd hne (by omega)⟩
    exact in_unit hclip (by omega)

/-! ## The call -/

/-- **The loop reads the rest.** -/
theorem readLoop_returns {n : Nat} {buff : Bytes} {btr br : BitVec 32} (h : Good W s)
    (ho : Opened s.vol (s.own i) fp f) (hle : btr.toNat ≤ f.size - f.pos) (hn : btr.toNat < n)
    (hbr : br.toNat + btr.toNat < 2 ^ 32) : Returns (readLoop n s.vol fp buff btr br) (fun p =>
      p.1 = .ok ∧ p.2.2.1.toNat = br.toNat + btr.toNat ∧
      (∀ k < btr.toNat, ∀ b, f.data (f.pos + k) = some b → p.2.1 (br.toNat + k) = b) ∧
      (∀ k, k < br.toNat ∨ br.toNat + btr.toNat ≤ k → p.2.1 k = buff k) ∧
      Calm fp p.2.2.2.1 ∧ Moves W E i s { s with vol := p.2.2.2.2 } ∧
      Opened p.2.2.2.2 (s.own i) p.2.2.2.1 { f with pos := f.pos + btr.toNat }) := by
  induction n generalizing s fp f buff btr br with
  | zero => exact absurd hn (Nat.not_lt_zero _)
  | succ n ih =>
    rw [readLoop]
    by_cases h0 : btr = 0
    · subst h0
      rw [if_pos rfl]
      exact ⟨rfl, rfl, fun k hk => absurd hk (Nat.not_lt_zero k), fun _ _ => rfl, .refl fp, .refl h, ho⟩
    · have hpos : 0 < btr.toNat := Nat.pos_of_ne_zero fun he => h0 (BitVec.eq_of_toNat_eq he)
      rw [if_neg h0]
      refine Sat.bind (readTurn_returns (E := E) h ho hpos hle) ?_
      rintro ⟨t, rbuff, fp₁, v₁⟩ ⟨m, rfl, hm0, hmle, hbytes, hrest, hcalm, hmoves, ho₁⟩
      replace hbytes : ∀ k < m.toNat, ∀ b, f.data (f.pos + k) = some b → rbuff k = b := hbytes
      replace hrest : ∀ k, m.toNat ≤ k → rbuff k = buff (br.toNat + k) := hrest
      replace hcalm : Calm fp fp₁ := hcalm
      replace hmoves : Moves W E i s { s with vol := v₁ } := hmoves
      have hsub : (btr - m).toNat = btr.toNat - m.toNat := by
        rw [BitVec.toNat_sub]
        omega
      have hadd : (br + m).toNat = br.toNat + m.toNat := by
        rw [BitVec.toNat_add]
        omega
      have hgood : Good W { s with vol := v₁ } := hmoves.good
      refine Sat.mono (ih (s := { s with vol := v₁ }) hgood ho₁ ?_ (by omega) (by omega)) ?_ (fun _ => id)
      · rw [hsub]
        show _ ≤ f.size - (f.pos + m.toNat)
        omega
      rintro ⟨res, buff', br', fp₂, v₂⟩ ⟨rfl, hbr', hbytes', hrest', hcalm', hmoves', ho'⟩
      rw [hsub, hadd] at hbr' hrest'
      rw [hsub] at hbytes' ho'
      rw [hadd] at hbytes'
      replace hbytes' : ∀ k < btr.toNat - m.toNat, ∀ b, f.data (f.pos + m.toNat + k) = some b →
        buff' (br.toNat + m.toNat + k) = b := hbytes'
      replace hrest' : ∀ k, k < br.toNat + m.toNat ∨ br.toNat + m.toNat + (btr.toNat - m.toNat) ≤ k →
        buff' k = if k < br.toNat then buff k else rbuff (k - br.toNat) := hrest'
      replace hcalm' : Calm fp₁ fp₂ := ⟨hcalm'.obj, hcalm'.err, hcalm'.dirSect, hcalm'.dirPtr, hcalm'.flag⟩
      refine ⟨rfl, by show br'.toNat = _; rw [show br'.toNat = _ from hbr']; omega, fun k hk b hb => ?_, fun k hk => ?_,
        hcalm.trans hcalm', hmoves.trans hmoves', ?_⟩
      · show buff' (br.toNat + k) = b
        rcases Nat.lt_or_ge k m.toNat with hkm | hkm
        · rw [hrest' _ (.inl (by omega)), if_neg (by omega), Nat.add_sub_cancel_left]
          exact hbytes k hkm b hb
        · have hb' := hbytes' (k - m.toNat) (by omega) b (by rwa [show f.pos + m.toNat + (k - m.toNat) = f.pos + k by omega])
          rwa [show br.toNat + m.toNat + (k - m.toNat) = br.toNat + k by omega] at hb'
      · show buff' k = buff k
        rw [hrest' k (by omega)]
        split
        · rfl
        · rw [hrest _ (by omega)]
          exact congrArg buff (by omega)
      · have hp : f.pos + m.toNat + (btr.toNat - m.toNat) = f.pos + btr.toNat := by omega
        show Opened v₂ (s.own i) fp₂ { f with pos := f.pos + btr.toNat }
        rw [← hp]
        exact ho'

/-- **`f_read` reads the file**, from its position to as many bytes as are wanted or as there are. -/
theorem fRead_returns (h : Good W s) (ho : Opened s.vol (s.own i) fp f) (buff : Bytes) (btr : BitVec 32) (u free : Nat) :
    Returns (fRead s.vol fp buff btr) (fun p =>
      Reply.Agrees ⟨p.1, p.2.2.1.toNat, p.2.1⟩ (f.serve u free (.read i buff btr)).1 ∧
      Serves W E s i fp (f.serve u free (.read i buff btr)).2 s.own p.2.2.2.1 p.2.2.2.2) := by
  rw [fRead, checkValidity_opened h ho.object, ok_bind, if_neg (not_not.2 rfl)]
  simp only [File.serve]
  rw [if_neg (not_not.2 ho.object.opened)]
  by_cases hr : fp.flag &&& faRead = 0
  · have hnot : ¬ f.readable = true := fun hx => ho.object.readable.1 hx hr
    rw [if_pos hr, if_pos hnot]
    exact ⟨⟨rfl, rfl, fun k b hb => Option.some.inj hb⟩, .refl h, ho, rfl, rfl, .inr ⟨.refl fp, rfl⟩⟩
  · have hyes := ho.object.readable.2 hr
    have hle := ho.object.pos_le
    have hroom := h.room_lt ho.object.room
    have hremain : (fp.obj.objsize - fp.fptr).toNat = f.size - f.pos := by
      rw [BitVec.toNat_sub, ho.object.size, ho.object.pos]
      omega
    rw [if_neg hr, if_neg (not_not.2 hyes)]
    have hbtr : (if btr.setWidth 64 > fp.obj.objsize - fp.fptr then (fp.obj.objsize - fp.fptr).setWidth 32 else btr).toNat =
        min btr.toNat (f.size - f.pos) := by
      have hw : (btr.setWidth 64).toNat = btr.toNat := BitVec.toNat_setWidth_of_le (by decide)
      have hlt := btr.isLt
      split
      · rename_i hgt
        rw [gt_iff_lt, BitVec.lt_def, hremain, hw] at hgt
        rw [BitVec.toNat_setWidth, hremain]
        omega
      · rename_i hge
        rw [gt_iff_lt, BitVec.lt_def, hremain, hw] at hge
        omega
    dsimp only
    generalize (if btr.setWidth 64 > fp.obj.objsize - fp.fptr then (fp.obj.objsize - fp.fptr).setWidth 32 else btr) = m
      at hbtr ⊢
    refine Sat.mono (readLoop_returns (E := E) h ho (by omega) (Nat.lt_succ_self _) (by
      have := m.isLt
      show 0 + m.toNat < _
      omega)) ?_ (fun _ => id)
    rintro ⟨res, buff', br, fp', v'⟩ ⟨rfl, hbr, hbytes, hrest, hcalm, hmoves, ho'⟩
    replace hbr : br.toNat = 0 + m.toNat := hbr
    replace hbytes : ∀ k < m.toNat, ∀ b, f.data (f.pos + k) = some b → buff' (0 + k) = b := hbytes
    replace hrest : ∀ k, k < 0 ∨ 0 + m.toNat ≤ k → buff' k = buff k := hrest
    rw [hbtr] at hbr hbytes hrest ho'
    refine ⟨⟨rfl, by rw [Nat.zero_add] at hbr; exact hbr, fun k b hb => ?_⟩, hmoves, ho', hcalm.dirSect,
      hcalm.dirPtr, .inr ⟨hcalm, rfl⟩⟩
    replace hb : (if k < min btr.toNat (f.size - f.pos) then f.data (f.pos + k) else some (buff k)) = some b := hb
    show buff' k = b
    split at hb
    · rename_i hk
      have hk' := hbytes k hk b hb
      rwa [Nat.zero_add] at hk'
    · rw [hrest k (by omega)]
      exact Option.some.inj hb

end Fatfs
end CheriOS
