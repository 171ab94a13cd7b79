import CheriOS.Fatfs.Space
import CheriOS.Lib.Extent
/-!
# Place — where the bytes of a file are (`ff.c`)

The sectors of a file are those of its clusters, one cluster behind the other.  A file object may hold one of them back, and
what it holds is newer than the drive's.  The calls of one file write to its own clusters and to free ones.
-/
namespace CheriOS
namespace Fatfs

open Outcome Chain WriteBack

variable {D : Disk} {W : Set Nat} {v v' v'' : Vol D} {s s' s'' : Chains D} {g : Geometry} {l : List Nat} {i n : Nat}

/-! ## Sectors of clusters -/

/-- Cluster size (byte). -/
def Geometry.unit (g : Geometry) : Nat := g.csize.toNat * 512

/-- The first sector of a cluster. -/
def Geometry.sector (g : Geometry) (c : Nat) : Nat := g.database.toNat + (c - 2) * g.csize.toNat

/-- **The `k`th sector of the chain `l`.** -/
def Geometry.place (g : Geometry) (l : List Nat) (k : Nat) : Option Nat := Extent.cell g.csize.toNat g.sector l k

def Geometry.InCluster (g : Geometry) (c x : Nat) : Prop := Extent.In g.csize.toNat g.sector c x

namespace Geometry

theorem Fits.csize_pos (h : g.Fits n) : 0 < g.csize.toNat := by
  obtain ⟨k, hk⟩ := h.csize
  rw [hk]
  exact Nat.two_pow_pos k

theorem Fits.unit_pos (h : g.Fits n) : 0 < g.unit := Nat.mul_pos h.csize_pos (by decide)

/-- **Clusters have no sector in common.** -/
theorem Fits.apart (h : g.Fits n) : Extent.Apart g.csize.toNat g.sector g.Cluster := by
  intro c d hc hd j hj k hk he
  have h1 := hc.1
  have h2 := hd.1
  have hjk : j = k := copy_inj (i := d - 2) (j := c - 2) hj hk (by unfold sector at he; omega)
  have hmul : (c - 2) * g.csize.toNat = (d - 2) * g.csize.toNat := by
    unfold sector at he
    omega
  have := Nat.eq_of_mul_eq_mul_right h.csize_pos hmul
  omega

/-- A sector of a cluster is on the drive, behind the FAT and all of its copies. -/
theorem Fits.inCluster (h : g.Fits n) {c x : Nat} (hc : g.Cluster c) (hx : g.InCluster c x) :
    g.database.toNat ≤ x ∧ x < n := by
  obtain ⟨h1, h2⟩ := hx
  have hlt := copy_lt (k := 0) (show c - 2 < g.nFatent.toNat - 2 by have := hc.1; have := hc.2; omega) h.csize_pos
  have hsucc : (c - 2 + 1) * g.csize.toNat ≤ (g.nFatent.toNat - 2) * g.csize.toNat :=
    Nat.mul_le_mul_right _ (by have := hc.1; have := hc.2; omega)
  rw [Nat.succ_mul] at hsucc
  have hfit := h.fits
  unfold sector at h1 h2
  omega

theorem Fits.behind (h : g.Fits n) {x : Nat} (hx : g.database.toNat ≤ x) :
    x ≠ 0 ∧ ¬ g.IsFat x ∧ ¬ g.IsCopy x ∧ ¬ g.IsInfo x := by
  have hdata := h.data
  have hbase := h.base
  have hmul := Nat.mul_le_mul_right g.fsize.toNat h.nFats
  refine ⟨by omega, fun hf => ?_, fun hc => ?_, fun hi => ?_⟩
  · have := hf.2
    omega
  · have := hc.2
    omega
  · have h1 := h.info hi.1
    have h2 := hi.2
    omega

end Geometry

/-- **The first sector of a cluster**, as the code computes it. -/
theorem clust2sect_toNat {fs : FatFs} (h : fs.Fits n) (hn : n ≤ 0xFFFFFFFF) {c : BitVec 64} (hc : fs.Cluster c.toNat) :
    (clust2sect fs c).toNat = fs.sector c.toNat := by
  have h1 := hc.1
  have h2 := hc.2
  have h2c : (c - 2).toNat = c.toNat - 2 := by
    rw [BitVec.toNat_sub]
    show (_ - 2 + _) % _ = _
    omega
  have h2n : (fs.nFatent - 2).toNat = fs.nFatent.toNat - 2 := by
    rw [BitVec.toNat_sub]
    show (_ - 2 + _) % _ = _
    omega
  have hin := (h.inCluster hc ⟨Nat.le_refl _, Nat.lt_add_of_pos_right h.csize_pos⟩).2
  unfold clust2sect
  dsimp only
  rw [if_neg]
  · unfold Geometry.sector at hin ⊢
    have hcs : (fs.csize.setWidth 64).toNat = fs.csize.toNat := BitVec.toNat_setWidth_of_le (by decide)
    rw [BitVec.toNat_add, BitVec.toNat_mul, h2c, hcs, Nat.mod_eq_of_lt (by omega), Nat.mod_eq_of_lt (by omega)]
    omega
  · rw [ge_iff_le, BitVec.le_def, h2c, h2n]
    omega

/-! ## What is known of a file -/

/-- **What is known of a sector `x`**: the bytes of the file that lie there. -/
def Known (g : Geometry) (l : List Nat) (data : Nat → Option (BitVec 8)) (x : Nat) (sect : Sector) : Prop :=
  ∀ k, g.place l k = some x → ∀ (j : Fin 512) (b : BitVec 8), data (k * 512 + j) = some b → sect j = b

/-- The buffer of a file object, as a line of the drive. -/
def Fil.line (fp : Fil) : Line Nat Sector := ⟨fp.sect.toNat, sectorOf fp.buf 0, fp.flag &&& faDirty ≠ 0⟩

/-- **The object of an open file**, and what its callers know of it. -/
structure Object (g : Geometry) (l : List Nat) (fp : Fil) (f : File) : Prop where
  fs : fp.obj.fs = true
  id : fp.obj.id = g.id
  err : fp.err = .ok
  opened : f.opened = true
  readable : f.readable = true ↔ fp.flag &&& faRead ≠ 0
  writable : f.writable = true ↔ fp.flag &&& faWrite ≠ 0
  clusters : f.clusters = l.length
  first : fp.obj.sclust.toNat = l.headD 0
  size : fp.obj.objsize.toNat = f.size
  pos : fp.fptr.toNat = f.pos
  pos_le : f.pos ≤ f.size
  room : f.size ≤ l.length * g.unit
  beyond : ∀ p, f.size ≤ p → f.data p = none

/-- **Its buffer**: what is held back is of the file, and what is known of the file is so. -/
structure Cached (v : Vol D) (l : List Nat) (fp : Fil) (data : Nat → Option (BitVec 8)) : Prop where
  dirty : fp.line.dirty = true → ∃ k, v.fs.place l k = some fp.line.key
  known : WriteBack.Meets (Known v.fs.toGeometry l data) fp.line v.store

theorem Cached.of_line {fp fp' : Fil} {data : Nat → Option (BitVec 8)} (h : Cached v l fp data) (hl : fp'.line = fp.line) :
    Cached v l fp' data :=
  ⟨by rw [hl]; exact h.dirty, by rw [hl]; exact h.known⟩

/-- A clean buffer holds nothing back. -/
theorem Cached.of_clean {fp : Fil} {data : Nat → Option (BitVec 8)} (hd : fp.line.dirty = false)
    (hg : v.fs.toGeometry = g) (h : WriteBack.Meets (Known g l data) fp.line v.store) : Cached v l fp data := by
  subst hg
  refine ⟨fun hx => ?_, h⟩
  rw [hd] at hx
  cases hx

/-- Between two calls, the current cluster has the byte in front of the position, and within a sector the buffer has it. -/
structure Opened (v : Vol D) (l : List Nat) (fp : Fil) (f : File) : Prop where
  object : Object v.fs.toGeometry l fp f
  cached : Cached v l fp f.data
  current : 0 < f.pos → l[(f.pos - 1) / v.fs.unit]? = some fp.clust.toNat
  within : f.pos % 512 ≠ 0 → v.fs.place l (f.pos / 512) = some fp.line.key

/-! ## What calls of a file leave alone -/

/-- The sectors of the clusters of file `i`, and of the free ones. -/
def Mine (s : Chains D) (i x : Nat) : Prop :=
  ∃ c, s.vol.fs.Cluster c ∧ (s.vol.table c = 0 ∨ c ∈ s.own i) ∧ s.vol.fs.InCluster c x

/-- **The files have their sectors for themselves**: the window is not moved there. -/
structure Good (W : Set Nat) (s : Chains D) : Prop where
  sound : Sound W s
  aside : ∀ i x, Mine s i x → x ∉ W

/-- **What a call of file `i` leaves alone**, where `E` are the bytes of the directories that it writes to. -/
structure Moves (W : Set Nat) (E : Nat → Fin 512 → Prop) (i : Nat) (s s' : Chains D) : Prop where
  good : Good W s'
  geometry : s'.vol.fs.toGeometry = s.vol.fs.toGeometry
  others : ∀ j, j ≠ i → s'.own j = s.own j
  foreign : Foreign s s'
  space : s'.vol.freeClusters + (s'.own i).length = s.vol.freeClusters + (s.own i).length
  look : ∀ x ∈ W, ¬ s.vol.fs.IsFat x → ¬ s.vol.fs.IsInfo x → ∀ j, ¬ E x j → s'.vol.look x j = s.vol.look x j
  store : ∀ x, x ∉ W → ¬ s.vol.fs.IsCopy x → ¬ Mine s i x → s'.vol.store x = s.vol.store x

variable {E E' : Nat → Fin 512 → Prop}

/-- **No cluster of others becomes one of the file.** -/
theorem mine_of_foreign (h' : Sound W s') (hg : s'.vol.fs.toGeometry = s.vol.fs.toGeometry)
    (ho : ∀ j, j ≠ i → s'.own j = s.own j) (hf : Foreign s s') {x : Nat} (hx : Mine s' i x) : Mine s i x := by
  obtain ⟨c, hc, hcm, hin⟩ := hx
  rw [hg] at hc hin
  refine ⟨c, hc, ?_, hin⟩
  by_contra hno
  rw [not_or] at hno
  by_cases hother : ∃ j, c ∈ s.own j
  · obtain ⟨j, hj⟩ := hother
    have hji : j ≠ i := by
      rintro rfl
      exact hno.2 hj
    have hj' : c ∈ s'.own j := ho j hji ▸ hj
    rcases hcm with h0 | hi
    · exact (h'.owns.linked j).used (h'.owns.valid j) not_cluster_zero h'.not_end_zero hj' h0
    · exact h'.owns.apart j i hji hj' hi
  · obtain ⟨hno', htab⟩ := hf c (fun j hj => hother ⟨j, hj⟩) hno.1
    rcases hcm with h0 | hi
    · exact hno.1 (htab ▸ h0)
    · exact hno' i hi

namespace Moves

theorem refl (h : Good W s) : Moves W E i s s :=
  ⟨h, rfl, fun _ _ => rfl, fun _ hc _ => ⟨hc, rfl⟩, rfl, fun _ _ _ _ _ _ => rfl, fun _ _ _ _ => rfl⟩

theorem mine (h : Moves W E i s s') {x : Nat} (hx : Mine s' i x) : Mine s i x :=
  mine_of_foreign h.good.sound h.geometry h.others h.foreign hx

theorem trans (h : Moves W E i s s') (h' : Moves W E i s' s'') : Moves W E i s s'' where
  good := h'.good
  geometry := h'.geometry.trans h.geometry
  others := fun j hj => (h'.others j hj).trans (h.others j hj)
  foreign := h.foreign.trans h'.foreign
  space := h'.space.trans h.space
  look := fun x hx hf hi j hj =>
    (h'.look x hx (h.geometry ▸ hf) (h.geometry ▸ hi) j hj).trans (h.look x hx hf hi j hj)
  store := fun x hx hc hm =>
    (h'.store x hx (h.geometry ▸ hc) fun hm' => hm (h.mine hm')).trans (h.store x hx hc hm)

theorem mono (h : Moves W E i s s') (hE : ∀ x j, E x j → E' x j) : Moves W E' i s s' :=
  { h with look := fun x hx hf hi j hj => h.look x hx hf hi j fun he => hj (hE x j he) }

end Moves

/-! ## Where the sectors of the files are -/

namespace Good

variable {j k x : Nat}

theorem place (h : Good W s) (hx : s.vol.fs.place (s.own j) k = some x) :
    Mine s j x ∧ s.vol.fs.database.toNat ≤ x ∧ x < D.sectors := by
  have hfit := h.sound.mounted.fits
  obtain ⟨c, hc, hin⟩ := Extent.mem_block hfit.csize_pos hx
  have hcl := h.sound.owns.valid j c hc
  exact ⟨⟨c, hcl, .inr hc, hin⟩, hfit.inCluster hcl hin⟩

/-- **No sector of a file is of another, or free.** -/
theorem not_mine (h : Good W s) (hij : j ≠ i) (hx : s.vol.fs.place (s.own j) k = some x) : ¬ Mine s i x := by
  rintro ⟨c, hc, hci, hin⟩
  have hfit := h.sound.mounted.fits
  obtain ⟨d, hd, hin'⟩ := Extent.mem_block hfit.csize_pos hx
  have hcd := hfit.apart.in_unique hc (h.sound.owns.valid j d hd) hin hin'
  subst hcd
  rcases hci with h0 | hi
  · exact (h.sound.owns.linked j).used (h.sound.owns.valid j) not_cluster_zero h.sound.not_end_zero hd h0
  · exact h.sound.owns.apart j i hij hd hi

theorem mine_database (h : Good W s) (hx : Mine s i x) : s.vol.fs.database.toNat ≤ x ∧ x < D.sectors := by
  obtain ⟨c, hc, -, hin⟩ := hx
  exact h.sound.mounted.fits.inCluster hc hin

end Good

/-- A call that changes the FAT for one file. -/
theorem Moves.of_steps (h : Good W s) (h' : Steps W s s') (ho : ∀ j, j ≠ i → s'.own j = s.own j)
    (hspace : s'.vol.freeClusters + (s'.own i).length = s.vol.freeClusters + (s.own i).length) : Moves W E i s s' where
  good := by
    refine ⟨h'.sound, fun j x hx => ?_⟩
    by_cases hj : j = i
    · subst hj
      exact h.aside j x (mine_of_foreign h'.sound h'.since.geometry ho h'.foreign hx)
    · -- the chain of another file is what it was
      obtain ⟨c, hc, hcj, hin⟩ := hx
      rcases hcj with h0 | hmem
      · exact h.aside i x (mine_of_foreign h'.sound h'.since.geometry ho h'.foreign ⟨c, hc, .inl h0, hin⟩)
      · rw [h'.since.geometry] at hc hin
        exact h.aside j x ⟨c, hc, .inr (ho j hj ▸ hmem), hin⟩
  geometry := h'.since.geometry
  others := ho
  foreign := h'.foreign
  space := hspace
  look := fun x hx hf hi j _ => congrFun (h'.since.look x hx hf hi) j
  store := fun x hx hc _ => h'.since.store x hx hc

/-- A call that only reads the FAT. -/
theorem Moves.of_kept (h : Good W s) {v : Vol D} (hk : Kept W s.vol v) : Moves W E i s { s with vol := v } := by
  refine .of_steps h (h.sound.kept hk) (fun _ _ => rfl) ?_
  exact congrArg (· + _) (freeClusters_congr hk.geometry (hk.table h.sound.mounted))

/-- **Writing past the window**, to sectors of the file. -/
theorem Moves.of_write (h : Good W s) {d : D.State} (hd : ∀ x, ¬ Mine s i x → sectorOf (D.cells d) x = s.vol.store x) :
    Moves W E i s { s with vol := ⟨s.vol.fs, d⟩ } := by
  have hm := h.sound.mounted
  have hstore : ∀ x ∈ W, sectorOf (D.cells d) x = s.vol.store x := fun x hx => hd x fun hmine => h.aside i x hmine hx
  have hlook : ∀ x ∈ W, (⟨s.vol.fs, d⟩ : Vol D).look x = s.vol.look x := by
    intro x hx
    by_cases hw : x = s.vol.fs.winsect.toNat
    · subst hw
      exact (Vol.look_self ⟨s.vol.fs, d⟩).trans s.vol.look_self.symm
    · exact (Vol.look_ne (v := ⟨s.vol.fs, d⟩) hw).trans ((hstore x hx).trans (Vol.look_ne hw).symm)
  have hmirror : ∀ k < s.vol.fs.fsize.toNat, ∀ j < s.vol.fs.nFats.toNat,
      sectorOf (D.cells d) (s.vol.fs.fatbase.toNat + j * s.vol.fs.fsize.toNat + k) =
        sectorOf (D.cells d) (s.vol.fs.fatbase.toNat + k) := by
    intro k hk j hj
    have hlow : ∀ x, x < s.vol.fs.database.toNat → sectorOf (D.cells d) x = s.vol.store x := fun x hx =>
      hd x fun hmine => Nat.not_le.2 hx (h.mine_database hmine).1
    have hdata := hm.fits.data
    have hj0 := copy_lt hj hk
    rw [hlow _ (by omega), hlow _ (by omega)]
    exact hm.mirror k hk j hj
  have hm' : Mounted W (⟨s.vol.fs, d⟩ : Vol D) :=
    ⟨hm.fits, hm.windows, ⟨fun hc hk => (hstore _ hk).trans (hm.coherent.clean hc hk), hm.coherent.held⟩, hmirror⟩
  have htab : (⟨s.vol.fs, d⟩ : Vol D).table = s.vol.table := by
    refine table_congr rfl hm.fits fun n hn => ?_
    unfold Vol.fat
    rw [hlook _ (hm.windows.fat _ (fat_sector hn))]
  have hsound : Sound W { s with vol := ⟨s.vol.fs, d⟩ } := by
    refine ⟨hm', ?_, ?_⟩
    · show NoError s.vol.fs.toGeometry (Vol.table _)
      rw [htab]
      exact h.sound.noError
    · show Owns (Vol.table _) s.vol.fs.IsEnd s.vol.fs.Cluster s.own
      rw [htab]
      exact h.sound.owns
  refine ⟨⟨hsound, ?_⟩, rfl, fun _ _ => rfl, fun c hc _ => ⟨hc, congrFun htab c⟩, ?_,
    fun x hx _ _ j _ => congrFun (hlook x hx) j, fun x _ _ hmine => hd x hmine⟩
  · rintro j x ⟨c, hc, hcj, hin⟩
    refine h.aside j x ⟨c, hc, ?_, hin⟩
    rw [← htab]
    exact hcj
  · exact congrArg (· + _) (freeClusters_congr rfl htab)

/-! ## The other files -/

theorem Known.congr {data : Nat → Option (BitVec 8)} {x : Nat} {a b : Sector} (h : Known g l data x a)
    (hab : (∃ k, g.place l k = some x) → a = b) : Known g l data x b :=
  fun k hk => hab ⟨k, hk⟩ ▸ h k hk

/-- **What is known of a file stays so**, whatever is done for another. -/
theorem Cached.other {fp : Fil} {data : Nat → Option (BitVec 8)} {j : Nat} (h : Good W s)
    (hc : Cached s.vol (s.own j) fp data) (hm : Moves W E i s s') (hj : j ≠ i) : Cached s'.vol (s'.own j) fp data := by
  have hg := hm.geometry
  refine ⟨fun hd => ?_, ?_⟩
  · rw [hg, hm.others j hj]
    exact hc.dirty hd
  · rw [hg, hm.others j hj]
    refine hc.known.congr fun x hx => hx.congr ?_
    rintro ⟨k, hk⟩
    obtain ⟨hmine, hlo, -⟩ := h.place hk
    exact (hm.store x (h.aside j x hmine) (h.sound.mounted.fits.behind hlo).2.2.1 (h.not_mine hj hk)).symm

theorem Opened.other {fp : Fil} {f : File} {j : Nat} (h : Good W s) (ho : Opened s.vol (s.own j) fp f)
    (hm : Moves W E i s s') (hj : j ≠ i) : Opened s'.vol (s'.own j) fp f := by
  have hc := ho.cached.other h hm hj
  have hobj := ho.object
  have hcur := ho.current
  have hin := ho.within
  rw [← hm.geometry, ← hm.others j hj] at hobj hcur hin
  exact ⟨hobj, hc, hcur, hin⟩

end Fatfs
end CheriOS
