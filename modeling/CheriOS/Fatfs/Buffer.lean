import CheriOS.Fatfs.Place
import CheriOS.Lib.Mask
/-!
# Buffer — the buffer of a file object (`ff.c`)

The buffer is written back before it is loaded with another sector.  Neither changes what is known of the file, and the drive
changes only where the file has its sectors.
-/
namespace CheriOS
namespace Fatfs

open Outcome Chain

variable {D : Disk} {W : Set Nat} {v v' : Vol D} {s s' : Chains D} {g : Geometry} {l : List Nat} {i n : Nat}
  {E : Nat → Fin 512 → Prop} {fp fp' fp'' : Fil} {f : File} {data : Nat → Option (BitVec 8)}

/-! ## Flags -/

theorem and_clear {x m b : BitVec 8} (h : ~~~m &&& b = b) : (x &&& ~~~m) &&& b = x &&& b := by
  rw [BitVec.and_assoc, h]

theorem or_set {x m b : BitVec 8} (h : m &&& b = 0) : (x ||| m) &&& b = x &&& b := by
  apply BitVec.eq_of_getLsbD_eq
  intro k _
  have hk : (m &&& b).getLsbD k = false := by rw [h]; simp
  rw [BitVec.getLsbD_and] at hk
  rw [BitVec.getLsbD_and, BitVec.getLsbD_or, BitVec.getLsbD_and]
  revert hk
  cases x.getLsbD k <;> cases m.getLsbD k <;> cases b.getLsbD k <;> decide

theorem clear_self (x m : BitVec 8) : (x &&& ~~~m) &&& m = 0 := by
  have h : ~~~m &&& m = 0 := by
    apply BitVec.eq_of_getLsbD_eq
    intro k hk
    simp [hk]
  rw [BitVec.and_assoc, h]
  exact BitVec.and_zero

theorem set_self (x m : BitVec 8) : (x ||| m) &&& m = m := by
  apply BitVec.eq_of_getLsbD_eq
  intro k _
  rw [BitVec.getLsbD_and, BitVec.getLsbD_or]
  cases x.getLsbD k <;> cases m.getLsbD k <;> rfl

theorem clear_of_not {x m : BitVec 8} (h : x &&& m = 0) : x &&& ~~~m = x := by
  apply BitVec.eq_of_getLsbD_eq
  intro k hk
  have hx : (x &&& m).getLsbD k = false := by rw [h]; simp
  rw [BitVec.getLsbD_and] at hx
  rw [BitVec.getLsbD_and, BitVec.getLsbD_not, decide_eq_true hk]
  revert hx
  cases x.getLsbD k <;> cases m.getLsbD k <;> decide

theorem line_dirty (fp : Fil) : fp.line.dirty = true ↔ fp.flag &&& faDirty ≠ 0 := decide_eq_true_iff

/-- The file change flag is not the buffer's. -/
theorem line_modified (hs : fp'.sect = fp.sect) (hb : fp'.buf = fp.buf) (hf : fp'.flag = fp.flag ||| faModified) :
    fp'.line = fp.line := by
  unfold Fil.line
  rw [hs, hb, hf, or_set (by decide)]

/-- The buffer is not held back any more. -/
def Fil.clean (fp : Fil) : Fil := { fp with flag := fp.flag &&& ~~~faDirty }

@[simp] theorem clean_dirty (fp : Fil) : fp.clean.line.dirty = false := by
  rw [Bool.eq_false_iff, Ne, line_dirty, not_not]
  exact clear_self ..

theorem clean_of_not (h : fp.line.dirty = false) : fp.clean = fp := by
  have hflag : fp.flag &&& faDirty = 0 := by
    by_contra hne
    exact absurd ((line_dirty fp).2 hne) (by simp [h])
  unfold Fil.clean
  rw [clear_of_not hflag]

/-- **What goes on in the buffer only**: neither the size nor the mode of the file changes, nor whether it is modified. -/
structure Calm (fp fp' : Fil) : Prop where
  obj : fp'.obj = fp.obj
  err : fp'.err = fp.err
  dirSect : fp'.dirSect = fp.dirSect
  dirPtr : fp'.dirPtr = fp.dirPtr
  flag : fp'.flag = fp.flag ∨ fp'.flag = fp.flag &&& ~~~faDirty

namespace Calm

theorem refl (fp : Fil) : Calm fp fp := ⟨rfl, rfl, rfl, rfl, .inl rfl⟩

theorem clean (fp : Fil) : Calm fp fp.clean := ⟨rfl, rfl, rfl, rfl, .inr rfl⟩

theorem trans (h : Calm fp fp') (h' : Calm fp' fp'') : Calm fp fp'' where
  obj := h'.obj.trans h.obj
  err := h'.err.trans h.err
  dirSect := h'.dirSect.trans h.dirSect
  dirPtr := h'.dirPtr.trans h.dirPtr
  flag := by
    rcases h.flag with hf | hf <;> rcases h'.flag with hf' | hf' <;> rw [hf', hf]
    · exact .inl rfl
    · exact .inr rfl
    · exact .inr rfl
    · exact .inr (and_clear (by decide))

/-- Any flag but that of the buffer is as it was. -/
theorem and_flag (h : Calm fp fp') {b : BitVec 8} (hb : ~~~faDirty &&& b = b) : fp'.flag &&& b = fp.flag &&& b := by
  rcases h.flag with hf | hf <;> rw [hf]
  exact and_clear hb

theorem dirty (h : Calm fp fp') (hd : fp.line.dirty = false) : fp'.line.dirty = false := by
  rw [Bool.eq_false_iff, Ne, line_dirty, not_not] at hd ⊢
  rcases h.flag with hf | hf <;> rw [hf]
  · exact hd
  · exact clear_self ..

end Calm

/-- The object with another position. -/
theorem Object.calm (h : Object g l fp f) (hc : Calm fp fp') {p : Nat} (hp : fp'.fptr.toNat = p) (hle : p ≤ f.size) :
    Object g l fp' { f with pos := p } := by
  refine ⟨by rw [hc.obj]; exact h.fs, by rw [hc.obj]; exact h.id, by rw [hc.err]; exact h.err, h.opened, ?_, ?_,
    h.clusters, by rw [hc.obj]; exact h.first, by rw [hc.obj]; exact h.size, hp, hle, h.room, h.beyond⟩
  · rw [hc.and_flag (by decide)]
    exact h.readable
  · rw [hc.and_flag (by decide)]
    exact h.writable

/-- **What a call leaves of an open file**, that is `f'` now: if it is not marked as modified, only the buffer is another. -/
structure Serves (W : Set Nat) (E : Nat → Fin 512 → Prop) (s : Chains D) (i : Nat) (fp : Fil) (f' : File)
    (own : Nat → List Nat) (fp' : Fil) (v : Vol D) : Prop where
  moves : Moves W E i s ⟨own, v⟩
  opened : Opened v (own i) fp' f'
  dirSect : fp'.dirSect = fp.dirSect
  dirPtr : fp'.dirPtr = fp.dirPtr
  modified : fp'.flag &&& faModified ≠ 0 ∨ Calm fp fp' ∧ own i = s.own i

/-! ## Validity -/

theorem validate_opened (h : Good W s) (ho : Object s.vol.fs.toGeometry l fp f) : validate s.vol fp = .ok .ok := by
  have hfit := h.sound.mounted.fits
  have hstat : ¬ ((0 : BitVec 8) &&& staNoinit ≠ 0) := by decide
  have hid : s.vol.fs.id = fp.obj.id := ho.id.symm
  rw [validate, if_neg (by simp [ho.fs, hfit.type, hid]), hfit.drv, D.status_served, ok_bind, if_neg hstat]
  rfl

/-- **An open file is valid.** -/
theorem checkValidity_opened (h : Good W s) (ho : Object s.vol.fs.toGeometry l fp f) :
    checkValidity s.vol fp = .ok .ok := by
  rw [checkValidity, validate_opened h ho, ok_bind, if_neg (not_not.2 rfl), ho.err]
  rfl

theorem validate_closed (v : Vol D) (hf : fp.obj.fs = false) : validate v fp = .ok .invalidObject := by
  rw [validate, if_pos (.inl (by simp [hf]))]
  rfl

theorem checkValidity_closed (v : Vol D) (hf : fp.obj.fs = false) : checkValidity v fp = .ok .invalidObject := by
  rw [checkValidity, validate_closed v hf]
  rfl

/-! ## The buffer -/

theorem Cached.mine (hc : Cached s.vol (s.own i) fp data) (h : Good W s) (hd : fp.line.dirty = true) :
    Mine s i fp.line.key := by
  obtain ⟨k, hk⟩ := hc.dirty hd
  exact (h.place hk).1

/-- **The buffer is written back** to a sector of the file, or one that is free. -/
theorem writeBack_returns (h : Good W s) {P : Nat → Sector → Prop} (hd : fp.line.dirty = true → Mine s i fp.line.key)
    (hk : WriteBack.Meets P fp.line s.vol.store) : Returns (writeBack s.vol fp) (fun p => p.1 = .ok ∧ p.2.1 = fp.clean ∧
      p.2.2.fs = s.vol.fs ∧ Moves W E i s { s with vol := p.2.2 } ∧ WriteBack.Meets P fp.clean.line p.2.2.store ∧
      (fp.line.dirty = false → p.2.2 = s.vol)) := by
  rw [writeBack]
  by_cases hdirty : fp.line.dirty = true
  · have hmine := hd hdirty
    have hlt := (h.mine_database hmine).2
    rw [if_pos ((line_dirty fp).1 hdirty)]
    obtain ⟨d, hwrite, hcells⟩ := D.write_served fp.buf fp.sect 1 s.vol.disk hlt
    have hstore := write_store hcells
    have hmoves : Moves W E i s { s with vol := ⟨s.vol.fs, d⟩ } := by
      refine Moves.of_write h fun x hx => ?_
      rw [hstore, Function.update_of_ne]
      · rfl
      · rintro rfl
        exact hx hmine
    simp only [h.sound.mounted.fits.drv, hwrite, ok_bind, ne_eq, not_true_eq_false, if_false]
    exact ⟨rfl, rfl, rfl, hmoves, hk.flush rfl rfl hstore, fun hf => absurd (hdirty.symm.trans hf) (by decide)⟩
  · have hclean := clean_of_not (Bool.eq_false_iff.2 hdirty)
    rw [if_neg (mt (line_dirty fp).2 hdirty)]
    exact ⟨rfl, hclean.symm, rfl, .refl h, hclean.symm ▸ hk, fun _ => rfl⟩

/-- One sector read into the buffer. -/
theorem read_sector (d : D.State) (buf : Bytes) (x : BitVec 64) :
    sectorOf (memcpy buf 0 (D.cells d) (x.toNat * 512) ((1 : BitVec 32).toNat * 512)) 0 = sectorOf (D.cells d) x.toNat :=
  (sectorOf_memcpy_to ..).trans (if_pos (by decide))

/-- **The buffer is loaded** with a sector of the file. -/
theorem loadBuffer_returns (h : Good W s) (hc : Cached s.vol (s.own i) fp data) {k : Nat} {x : BitVec 64}
    (hx : s.vol.fs.place (s.own i) k = some x.toNat) : Returns (loadBuffer s.vol fp x) (fun p => p.1 = .ok ∧
      Calm fp p.2.1 ∧ p.2.1.fptr = fp.fptr ∧ p.2.1.clust = fp.clust ∧ p.2.1.sect = x ∧ p.2.2.fs = s.vol.fs ∧
      Moves W E i s { s with vol := p.2.2 } ∧ Cached p.2.2 (s.own i) p.2.1 data) := by
  rw [loadBuffer]
  by_cases hne : fp.sect = x
  · rw [if_neg (not_not.2 hne)]
    exact ⟨rfl, .refl fp, rfl, rfl, hne, rfl, .refl h, hc⟩
  · rw [if_pos hne]
    refine Sat.bind (writeBack_returns (E := E) h (fun hd => hc.mine h hd) hc.known) ?_
    rintro ⟨res, fp₁, v₁⟩ ⟨rfl, hfp, hfs, hmoves, hknown, -⟩
    replace hfp : fp₁ = fp.clean := hfp
    replace hfs : v₁.fs = s.vol.fs := hfs
    replace hknown : WriteBack.Meets _ fp.clean.line v₁.store := hknown
    subst hfp
    have hread := D.read_served fp.clean.buf x 1 v₁.disk (h.place hx).2.2
    simp only [ne_eq, not_true_eq_false, if_false, hfs, h.sound.mounted.fits.drv, hread, ok_bind]
    have hval := read_sector v₁.disk fp.clean.buf x
    generalize memcpy fp.clean.buf 0 (D.cells v₁.disk) _ _ = buf at hval ⊢
    exact ⟨rfl, ⟨rfl, rfl, rfl, rfl, .inr rfl⟩, rfl, rfl, rfl, hfs, hmoves,
      .of_clean (clean_dirty fp) (congrArg FatFs.toGeometry hfs) (hknown.load (clean_dirty fp) hval)⟩

/-! ## Where the position is -/

theorem mod_unit (g : Geometry) (p : Nat) : p % g.unit = p / 512 % g.csize.toNat * 512 + p % 512 := by
  rw [Geometry.unit, Nat.mul_comm, Nat.mod_mul]
  omega

/-- Bytes of `c` more sectors of the cluster are bytes of the cluster. -/
theorem in_unit {p m c : Nat} (hc : p / 512 % g.csize.toNat + c ≤ g.csize.toNat) (hm : p % 512 + m ≤ c * 512) :
    p % g.unit + m ≤ g.unit := by
  have hmul := Nat.mul_le_mul_right 512 hc
  rw [mod_unit, Geometry.unit]
  rw [Nat.add_mul] at hmul
  calc p / 512 % g.csize.toNat * 512 + p % 512 + m
      = p / 512 % g.csize.toNat * 512 + (p % 512 + m) := Nat.add_assoc ..
    _ ≤ p / 512 % g.csize.toNat * 512 + c * 512 := Nat.add_le_add_left hm _
    _ ≤ g.csize.toNat * 512 := hmul

theorem div_unit (g : Geometry) (p : Nat) : p / g.unit = p / 512 / g.csize.toNat := by
  rw [Geometry.unit, Nat.mul_comm, Nat.div_div_eq_div_mul]

/-- **The sector of a position** in the cluster where it is. -/
theorem place_of_here {p c : Nat} (h : l[p / g.unit]? = some c) :
    g.place l (p / 512) = some (g.sector c + p / 512 % g.csize.toNat) :=
  Extent.cell_eq_some.2 ⟨c, by rw [← div_unit]; exact h, rfl⟩

/-- Still the same cluster after `m` bytes of it. -/
theorem here_advance {p m c u : Nat} (h : l[p / u]? = some c) (h0 : 0 < m) (hm : p % u + m ≤ u) :
    l[(p + m - 1) / u]? = some c := by
  have hu : 0 < u := by omega
  have hdiv : (p + m - 1) / u = p / u := by
    have h1 := Nat.div_add_mod p u
    rw [Nat.div_eq_iff hu]
    have h2 : u * (p / u) = p / u * u := Nat.mul_comm ..
    constructor <;> omega
  rwa [hdiv]

/-- In the middle of a cluster, the current cluster is that of the position. -/
theorem here_of_current {p c u : Nat} (hp : p % u ≠ 0) (h : 0 < p → l[(p - 1) / u]? = some c) : l[p / u]? = some c := by
  have h0 : 0 < p := Nat.pos_of_ne_zero fun he => hp (he ▸ Nat.zero_mod u)
  have hdiv : (p - 1) / u = p / u := by
    obtain ⟨q, rfl⟩ : ∃ q, p = q + 1 := ⟨p - 1, by omega⟩
    rw [Nat.succ_div, if_neg (fun hdvd => hp (Nat.mod_eq_zero_of_dvd hdvd))]
    rfl
  rw [← hdiv]
  exact h h0

/-- In front of the boundary, and behind it. -/
theorem div_pred {p u : Nat} (h0 : 0 < p) (hbound : p % u = 0) : (p - 1) / u + 1 = p / u := by
  obtain ⟨q, rfl⟩ : ∃ q, p = q + 1 := ⟨p - 1, by omega⟩
  rw [Nat.succ_div, if_pos (Nat.dvd_of_mod_eq_zero hbound)]
  rfl

/-- Behind the first sector of a cluster, the position is in the middle of it. -/
theorem mod_unit_ne {p : Nat} {m : BitVec 32} (h0 : m ≠ 0) (hm : m.toNat = p / 512 % g.csize.toNat) : p % g.unit ≠ 0 := by
  rw [mod_unit]
  intro he
  have hmul := (Nat.mul_eq_zero.1 (Nat.add_eq_zero_iff.1 he).1).resolve_right (by decide)
  exact h0 (BitVec.eq_of_toNat_eq (hm.trans hmul))

/-- A file that has clusters begins in the first of them. -/
theorem Object.first_of_ne (h : Object g l fp f) (hl : l ≠ []) : l[0]? = some fp.obj.sclust.toNat := by
  rw [h.first]
  cases l with
  | nil => exact absurd rfl hl
  | cons c m => rfl

/-- A file is not longer than a drive. -/
theorem room_lt (hfit : g.Fits n) (hn : n ≤ 0xFFFFFFFF) (hl : l.length ≤ g.nFatent.toNat - 2) {p : Nat}
    (hp : p ≤ l.length * g.unit) : p ≤ 0xFFFFFFFF * 512 := by
  have hmul := Nat.mul_le_mul_right g.csize.toNat hl
  have hfits := hfit.fits
  have hunit : l.length * g.unit = l.length * g.csize.toNat * 512 := (Nat.mul_assoc ..).symm
  omega

theorem Good.room_lt (h : Good W s) {p : Nat} (hp : p ≤ (s.own i).length * s.vol.fs.unit) : p ≤ 0xFFFFFFFF * 512 :=
  Fatfs.room_lt h.sound.mounted.fits D.sectors_le (chain_length_le (h.sound.owns.nodup i) (h.sound.owns.valid i)) hp

/-- **The sector of a position**, as the code computes it from the current cluster. -/
theorem Good.sect (h : Good W s) {p : Nat} {c m : BitVec 64}
    (hc : (s.own i)[p / s.vol.fs.unit]? = some c.toNat) (hm : m.toNat = p / 512 % s.vol.fs.csize.toNat) :
    clust2sect s.vol.fs c ≠ 0 ∧ s.vol.fs.place (s.own i) (p / 512) = some (clust2sect s.vol.fs c + m).toNat := by
  have hfit := h.sound.mounted.fits
  have hmax := D.sectors_le
  have hcl := h.sound.owns.valid i _ (List.mem_of_getElem? hc)
  have hfirst := clust2sect_toNat hfit D.sectors_le hcl
  have hlow := hfit.inCluster hcl ⟨Nat.le_refl _, Nat.lt_add_of_pos_right hfit.csize_pos⟩
  have hplace := place_of_here hc
  obtain ⟨-, -, hhi⟩ := h.place hplace
  refine ⟨fun he => (hfit.behind hlow.1).1 (hfirst.symm.trans (congrArg BitVec.toNat he)), hplace.trans (congrArg some ?_)⟩
  rw [BitVec.toNat_add, hfirst, hm]
  omega

end Fatfs
end CheriOS
