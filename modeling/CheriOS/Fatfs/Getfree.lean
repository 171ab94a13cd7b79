import CheriOS.Fatfs.Count
import CheriOS.Fatfs.Mount
/-!
# Getfree — counting the free clusters (`ff.c`)

`f_getfree` returns `free_clst` if that can be a number of clusters, and else counts: on FAT12 with `get_fat`, on FAT16 and
FAT32 sector by sector over all entries of the FAT, the two in front of those of the clusters among them.
-/
namespace CheriOS
namespace Fatfs

open Outcome Chain

variable {D : Disk}

/-- Sector unaligned FAT entries: the loop from cluster `clst`. -/
def countEntries : Nat → Vol D → BitVec 64 → BitVec 64 → Except Halt (Fresult × BitVec 64 × Vol D)
  | 0, _, _, _ => .error .hang
  | n + 1, v, clst, nfree => do
    let (stat, v) ← getFat v clst
    if stat = 0xFFFFFFFF then return (.diskErr, nfree, v)
    if stat = 1 then return (.intErr, nfree, v)
    let nfree := if stat = 0 then nfree + 1 else nfree
    let clst := clst + 1
    if clst < v.fs.nFatent then countEntries n v clst nfree else return (.ok, nfree, v)

/-- Is the entry at `p` in the window free, and how many bytes has it? -/
def freeAt (fs : FatFs) (p : Nat) : Bool × Nat :=
  if fs.fsType = .fat16 then (ldWord fs.win p = 0, 2) else (ldDword fs.win p &&& 0x0FFFFFFF = 0, 4)

/-- The next sector of the FAT is loaded where no byte of the window is left. -/
def loadSector (v : Vol D) (sect : BitVec 64) (i p : Nat) : Except Halt (Fresult × BitVec 64 × Nat × Nat × Vol D) :=
  if i = 0 then do
    let (res, v) ← moveWindow v sect
    return (res, sect + 1, 512, 0, v)
  else return (.ok, sect, i, p, v)

/-- Sector aligned FAT entries: the loop for the last `clst` of them; `i` bytes of the window are left, from `p` on. -/
def countSectors : Nat → Vol D → BitVec 64 → Nat → Nat → BitVec 64 → Except Halt (Fresult × BitVec 64 × Vol D)
  | 0, _, _, _, _, _ => .error .hang
  | clst + 1, v, sect, i, p, nfree => do
    let (res, sect, i, p, v) ← loadSector v sect i p
    if res ≠ .ok then return (res, nfree, v)
    let (free, size) := freeAt v.fs p
    let nfree := if free then nfree + 1 else nfree
    if clst = 0 then return (.ok, nfree, v) else countSectors clst v sect (i - size) (p + size) nfree

/-- Get number of free clusters. -/
def countFree (v : Vol D) : Except Halt (Fresult × BitVec 64 × Vol D) :=
  if v.fs.fsType = .fat12 then countEntries v.fs.nFatent.toNat v 2 0
  else countSectors v.fs.nFatent.toNat v v.fs.fatbase 0 0 0

/-- `f_getfree` behind `find_volume`. -/
def getFree (v : Vol D) : Except Halt (Fresult × BitVec 64 × Vol D) := do
  if v.fs.freeClst ≤ v.fs.nFatent - 2 then return (.ok, v.fs.freeClst, v)
  let (res, nfree, v) ← countFree v
  return (res, nfree, v.setInfo { v.fs.toFsInfo with freeClst := nfree, fsiFlag := v.fs.fsiFlag ||| 1 })

/-- What is left in `nclst`, where it is written to. -/
def fGetfree (path : Path) (s : System D) : Except Halt (Fresult × Option (BitVec 64) × System D) := do
  let (res, s) ← findVolume path 0 s
  match res, s.fatFs with
  | .ok, some fs => do
    let (res, nclst, v) ← getFree ⟨fs, s.disk⟩
    return (res, some nclst, ⟨some v.fs, s.fsid, v.disk⟩)
  | _, _ => return (res, none, s)

variable {W : Set Nat} {v v' : Vol D} {t : Nat → Nat}

/-! ## The loops -/

theorem freeCount_Ico_succ {a k : Nat} (h : a ≤ k) :
    freeCount t 0 (Finset.Ico a (k + 1)) = freeCount t 0 (Finset.Ico a k) + if t k = 0 then 1 else 0 := by
  unfold freeCount
  rw [Nat.Ico_succ_right_eq_insert_Ico h, Finset.filter_insert]
  split
  · rw [Finset.card_insert_of_notMem (by simp)]
  · rfl

/-- One more is counted. -/
theorem counted {a k : Nat} (h : a ≤ k) {nfree : BitVec 64} {c : Prop} [Decidable c] (hc : c ↔ t k = 0) (hk : k < 2 ^ 28)
    (hn : nfree.toNat = freeCount t 0 (Finset.Ico a k)) :
    (if c then nfree + 1 else nfree).toNat = freeCount t 0 (Finset.Ico a (k + 1)) := by
  have hle := freeCount_le t 0 (Finset.Ico a k)
  rw [Nat.card_Ico] at hle
  rw [freeCount_Ico_succ h, ← hn]
  by_cases h0 : t k = 0
  · rw [if_pos (hc.2 h0), if_pos h0, BitVec.toNat_add]
    show (_ + 1) % _ = _
    omega
  · rw [if_neg (mt hc.1 h0), if_neg h0, Nat.add_zero]

theorem countEntries_returns {n : Nat} {clst nfree : BitVec 64} (hm : Mounted W v) (herr : NoError v.fs.toGeometry v.table)
    (hc : v.fs.Cluster clst.toNat) (hn : v.fs.nFatent.toNat ≤ n + clst.toNat)
    (hfree : nfree.toNat = freeCount v.table 0 (Finset.Ico 2 clst.toNat)) :
    Returns (countEntries n v clst nfree) (fun p => p.1 = .ok ∧ p.2.1.toNat = v.freeClusters ∧ Kept W v p.2.2) := by
  induction n generalizing v clst nfree with
  | zero =>
    have := hc.2
    omega
  | succ n ih =>
    have hN := hm.fits.ends
    have hw := width_le_28 v.fs.fsType
    have hlt := hc.2
    have hone : (clst + 1).toNat = clst.toNat + 1 := by
      rw [BitVec.toNat_add]
      show (_ + 1) % _ = _
      omega
    rw [countEntries]
    refine Sat.bind (getFat_returns hm hc) ?_
    rintro ⟨stat, v₁⟩ ⟨hstat, hk⟩
    replace hstat : stat.toNat = v.table clst.toNat := hstat
    replace hk : Kept W v v₁ := hk
    obtain ⟨h1, hF, h0⟩ := value_cases herr hc (Nat.lt_of_lt_of_le (table_lt v _) hw) hstat
    have hg := hk.geometry
    have htab := hk.table hm
    have hmore : (if stat = 0 then nfree + 1 else nfree).toNat = _ := counted hc.1 h0 (by omega) hfree
    simp only [hF, h1, if_false]
    refine Sat.ite (fun hlt' => ?_) fun hge => ?_
    · rw [BitVec.lt_def, hone, hg] at hlt'
      have hrest := @ih v₁ (clst + 1) (if stat = 0 then nfree + 1 else nfree) hk.mounted (by rw [hg, htab]; exact herr)
        (by rw [hg, hone]; exact ⟨by have := hc.1; omega, hlt'⟩) (by rw [hg, hone]; omega) (by rw [hone, htab]; exact hmore)
      refine Sat.mono hrest (fun p hp => ⟨hp.1, ?_, hk.trans hp.2.2⟩) (fun _ => id)
      rw [hp.2.1, freeClusters_congr hg htab]
    · rw [BitVec.lt_def, hone, hg] at hge
      refine ⟨rfl, ?_, hk⟩
      rw [Vol.freeClusters, Geometry.clusters, show v.fs.nFatent.toNat = clst.toNat + 1 by omega]
      exact hmore

/-- The number of bytes of an entry, where entries lie within sectors. -/
def FsType.bytes (t : FsType) : Nat := if t = .fat16 then 2 else 4

/-- Every entry is in the FAT, those of no cluster as well. -/
theorem entry_in (hm : Mounted W v) (h12 : v.fs.fsType ≠ .fat12) {k : Nat} (hk : k < v.fs.nFatent.toNat) :
    k * v.fs.fsType.bytes + v.fs.fsType.bytes ≤ v.fs.fsize.toNat * 512 := by
  have hent := hm.fits.entries
  have htype := hm.fits.type
  cases ht : v.fs.fsType with
  | none => exact absurd ht htype
  | fat12 => exact absurd ht h12
  | fat16 =>
    rw [ht] at hent
    simp only [FsType.stride] at hent
    show k * 2 + 2 ≤ _
    omega
  | fat32 =>
    rw [ht] at hent
    simp only [FsType.stride] at hent
    show k * 4 + 4 ≤ _
    omega

/-- The entry in the window is the one of the table. -/
theorem freeAt_eq (hm : Mounted W v) (h12 : v.fs.fsType ≠ .fat12) {k : Nat} (hk : k < v.fs.nFatent.toNat)
    (hw : v.fs.winsect.toNat = v.fs.fatbase.toNat + k * v.fs.fsType.bytes / 512) :
    (freeAt v.fs (k * v.fs.fsType.bytes % 512)).2 = v.fs.fsType.bytes ∧
      ((freeAt v.fs (k * v.fs.fsType.bytes % 512)).1 = true ↔ v.table k = 0) := by
  have htype := hm.fits.type
  rw [Vol.table, if_pos hk]
  unfold freeAt
  cases ht : v.fs.fsType with
  | none => exact absurd ht htype
  | fat12 => exact absurd ht h12
  | fat16 =>
    rw [ht] at hw
    replace hw : v.fs.winsect.toNat = v.fs.fatbase.toNat + 2 * k / 512 := by rw [hw]; show _ + k * 2 / 512 = _; omega
    refine ⟨rfl, ?_⟩
    show decide (ldWord v.fs.win (k * 2 % 512) = 0) = true ↔ Packed.entry v.fat 16 16 k = 0
    rw [decide_eq_true_iff, ← word_eq_entry, show k * 2 % 512 = 2 * k % 512 by omega,
      ldWord_congr fun j hj => win_add_eq_fat hw (by omega), BitVec.toNat_setWidth, Nat.mod_eq_of_lt (by omega),
      ← BitVec.toNat_inj]
    rfl
  | fat32 =>
    rw [ht] at hw
    replace hw : v.fs.winsect.toNat = v.fs.fatbase.toNat + 4 * k / 512 := by rw [hw]; show _ + k * 4 / 512 = _; omega
    refine ⟨rfl, ?_⟩
    show decide (ldDword v.fs.win (k * 4 % 512) &&& 0x0FFFFFFF = 0) = true ↔ Packed.entry v.fat 32 28 k = 0
    rw [decide_eq_true_iff, ← dword_eq_entry, show k * 4 % 512 = 4 * k % 512 by omega,
      ldDword_congr fun j hj => win_add_eq_fat hw (by omega), ← BitVec.toNat_inj]
    rfl

/-- The window holds entry `k`, `i` bytes from `p` on. -/
structure Within (v : Vol D) (k : Nat) (sect : BitVec 64) (i p : Nat) : Prop where
  left : i + p = 512
  place : p = k * v.fs.fsType.bytes % 512
  window : v.fs.winsect.toNat = v.fs.fatbase.toNat + k * v.fs.fsType.bytes / 512
  next : sect.toNat = v.fs.fatbase.toNat + k * v.fs.fsType.bytes / 512 + 1

/-- Where the loop is before entry `k`: the next sector is to be loaded, or the window holds the entry. -/
def At (v : Vol D) (k : Nat) (sect : BitVec 64) (i p : Nat) : Prop :=
  (i = 0 ∧ k * v.fs.fsType.bytes % 512 = 0 ∧ sect.toNat = v.fs.fatbase.toNat + k * v.fs.fsType.bytes / 512) ∨
  (i ≠ 0 ∧ Within v k sect i p)

/-- Behind the entry. -/
theorem Within.succ {k i p : Nat} {sect : BitVec 64} (h : Within v k sect i p) :
    At v (k + 1) sect (i - v.fs.fsType.bytes) (p + v.fs.fsType.bytes) := by
  obtain ⟨hleft, hplace, hw, hnext⟩ := h
  have hsize : v.fs.fsType.bytes = 2 ∨ v.fs.fsType.bytes = 4 := by
    unfold FsType.bytes
    split <;> simp
  unfold At
  rw [Nat.succ_mul]
  rcases hsize with hb | hb <;> rw [hb] at hplace hw hnext ⊢
  · by_cases hi : i = 2
    · exact .inl ⟨by omega, by omega, by omega⟩
    · exact .inr ⟨by omega, by omega, by rw [hb]; omega, by rw [hb]; omega, by rw [hb]; omega⟩
  · by_cases hi : i = 4
    · exact .inl ⟨by omega, by omega, by omega⟩
    · exact .inr ⟨by omega, by omega, by rw [hb]; omega, by rw [hb]; omega, by rw [hb]; omega⟩

theorem loadSector_returns {k i p : Nat} {sect : BitVec 64} (hm : Mounted W v) (h12 : v.fs.fsType ≠ .fat12)
    (hk : k < v.fs.nFatent.toNat) (hat : At v k sect i p) : Returns (loadSector v sect i p) (fun q => q.1 = .ok ∧
      Kept W v q.2.2.2.2 ∧ Within q.2.2.2.2 k q.2.1 q.2.2.1 q.2.2.2.1) := by
  rw [loadSector]
  rcases hat with ⟨hi, hmod, hsect⟩ | ⟨hi, hin⟩
  · rw [if_pos hi]
    have hn := entry_in hm h12 hk
    have hpos : 0 < v.fs.fsType.bytes := by
      unfold FsType.bytes
      split <;> decide
    have hle := hm.fits.fat_le
    have hmax := D.sectors_le
    refine Sat.bind (moveFat_returns hm (by omega) hsect) ?_
    rintro ⟨res, v₁⟩ ⟨rfl, hkept, hw⟩
    replace hkept : Kept W v v₁ := hkept
    replace hw : v₁.fs.winsect.toNat = _ := hw
    have hg := hkept.geometry
    refine ⟨rfl, hkept, rfl, ?_, ?_, ?_⟩
    · rw [hg, hmod]
    · rw [hw, hg]
    · rw [BitVec.toNat_add, hg, hsect]
      show (_ + 1) % _ = _
      omega
  · rw [if_neg hi]
    exact ⟨rfl, .refl hm, hin⟩

/-- One turn of the loop. -/
theorem countSectors_turn {n k i p : Nat} {sect nfree : BitVec 64} {Q : Fresult × BitVec 64 × Vol D → Prop}
    (hm : Mounted W v) (h12 : v.fs.fsType ≠ .fat12) (hk : k < v.fs.nFatent.toNat) (hat : At v k sect i p)
    (hfree : nfree.toNat = freeCount v.table 0 (Finset.Ico 0 k))
    (hQ : ∀ v' sect' i' p' nfree', Kept W v v' → At v' (k + 1) sect' i' p' →
      BitVec.toNat nfree' = freeCount v.table 0 (Finset.Ico 0 (k + 1)) →
      Returns (if n = 0 then return (.ok, nfree', v') else countSectors n v' sect' i' p' nfree') Q) :
    Returns (countSectors (n + 1) v sect i p nfree) Q := by
  rw [countSectors]
  refine Sat.bind (loadSector_returns hm h12 hk hat) ?_
  rintro ⟨res, sect', i', p', v₁⟩ ⟨rfl, hkept, hin⟩
  replace hkept : Kept W v v₁ := hkept
  replace hin : Within v₁ k sect' i' p' := hin
  have hg := hkept.geometry
  have hN := hm.fits.ends
  have hw := width_le_28 v.fs.fsType
  obtain ⟨hsize, hzero⟩ := freeAt_eq hkept.mounted (by rw [hg]; exact h12) (by rw [hg]; exact hk) hin.window
  rw [← hin.place, hkept.table hm] at hzero
  rw [← hin.place] at hsize
  have hmore : (if (freeAt v₁.fs p').1 then nfree + 1 else nfree).toNat = _ := counted (Nat.zero_le k) hzero (by omega) hfree
  simp only [ne_eq, not_true_eq_false, if_false, hsize]
  exact hQ v₁ sect' _ _ _ hkept hin.succ hmore

theorem countSectors_returns {n k i p : Nat} {sect nfree : BitVec 64} (hm : Mounted W v) (h12 : v.fs.fsType ≠ .fat12)
    (hk : k + n + 1 = v.fs.nFatent.toNat) (hat : At v k sect i p)
    (hfree : nfree.toNat = freeCount v.table 0 (Finset.Ico 0 k)) :
    Returns (countSectors (n + 1) v sect i p nfree) (fun q => q.1 = .ok ∧
      q.2.1.toNat = freeCount v.table 0 (Finset.Ico 0 v.fs.nFatent.toNat) ∧ Kept W v q.2.2) := by
  induction n generalizing v k sect i p nfree with
  | zero =>
    refine countSectors_turn hm h12 (by omega) hat hfree fun v' sect' i' p' nfree' hkept _ hfree' => ?_
    rw [if_pos rfl]
    exact ⟨rfl, by rw [hfree', ← hk], hkept⟩
  | succ n ih =>
    refine countSectors_turn hm h12 (by omega) hat hfree fun v' sect' i' p' nfree' hkept hat' hfree' => ?_
    have hg := hkept.geometry
    have htab := hkept.table hm
    rw [if_neg (Nat.succ_ne_zero n)]
    have hrest := @ih v' (k + 1) i' p' sect' nfree' hkept.mounted (by rw [hg]; exact h12) (by rw [hg]; omega) hat'
      (by rw [htab]; exact hfree')
    rw [htab, hg] at hrest
    exact Sat.mono hrest (fun q hq => ⟨hq.1, hq.2.1, hkept.trans hq.2.2⟩) (fun _ => id)

/-! ## The call -/

/-- The free entries in front of those of the clusters, as far as they are counted. -/
def Vol.reserved (v : Vol D) : Nat := if v.fs.fsType = .fat12 then 0 else freeCount v.table 0 (Finset.Ico 0 2)

theorem reserved_zero (v : Vol D) : v.reserved = 0 ↔ v.fs.fsType = .fat12 ∨ v.table 0 ≠ 0 ∧ v.table 1 ≠ 0 := by
  unfold Vol.reserved
  by_cases h : v.fs.fsType = .fat12
  · simp [h]
  · rw [if_neg h, freeCount_Ico_succ (Nat.zero_le 1), freeCount_Ico_succ (Nat.le_refl 0), Finset.Ico_self]
    have h0 : freeCount v.table 0 ∅ = 0 := rfl
    rw [h0]
    by_cases h1 : v.table 0 = 0 <;> by_cases h2 : v.table 1 = 0 <;> simp [h, h1, h2]

theorem freeCount_split {a b c : Nat} (hab : a ≤ b) (hbc : b ≤ c) :
    freeCount t 0 (Finset.Ico a c) = freeCount t 0 (Finset.Ico b c) + freeCount t 0 (Finset.Ico a b) := by
  unfold freeCount
  rw [← Finset.Ico_union_Ico_eq_Ico hab hbc, Finset.filter_union, Finset.card_union_of_disjoint, Nat.add_comm]
  exact Finset.disjoint_filter_filter (Finset.Ico_disjoint_Ico_consecutive a b c)

theorem countFree_returns (hm : Mounted W v) (herr : NoError v.fs.toGeometry v.table) :
    Returns (countFree v) (fun p => p.1 = .ok ∧ p.2.1.toNat = v.freeClusters + v.reserved ∧ Kept W v p.2.2) := by
  have hsome := hm.fits.some
  unfold countFree Vol.reserved
  by_cases h12 : v.fs.fsType = .fat12
  · rw [if_pos h12, if_pos h12]
    exact countEntries_returns hm herr ⟨Nat.le_refl 2, hsome⟩ (Nat.le_add_right _ _) rfl
  · rw [if_neg h12, if_neg h12]
    obtain ⟨n, hn⟩ : ∃ n, v.fs.nFatent.toNat = n + 1 := ⟨v.fs.nFatent.toNat - 1, by omega⟩
    have hat : At v 0 v.fs.fatbase 0 0 := .inl ⟨rfl, by rw [Nat.zero_mul], by rw [Nat.zero_mul]; rfl⟩
    rw [hn]
    refine Sat.mono (countSectors_returns hm h12 (by omega) hat rfl) (fun p hp => ⟨hp.1, ?_, hp.2.2⟩) (fun _ => id)
    rw [hp.2.1, freeCount_split (Nat.zero_le 2) (by omega), Vol.freeClusters, Geometry.clusters]

/-- **What is counted**, where `free_clst` cannot be a number of clusters. -/
theorem getFree_returns (hm : Mounted W v) (herr : NoError v.fs.toGeometry v.table) : Returns (getFree v) (fun p =>
    p.1 = .ok ∧ p.2.1 = p.2.2.fs.freeClst ∧ Changed W v p.2.2 ∧ p.2.2.table = v.table ∧
    (v.fs.freeClst.toNat ≤ v.fs.nFatent.toNat - 2 → p.2.2 = v) ∧
    (v.fs.nFatent.toNat - 2 < v.fs.freeClst.toNat → p.2.2.fs.freeClst.toNat = v.freeClusters + v.reserved)) := by
  have hsome := hm.fits.some
  have h2 : (v.fs.nFatent - 2).toNat = v.fs.nFatent.toNat - 2 := by
    rw [BitVec.toNat_sub]
    show (_ - 2 + _) % _ = _
    omega
  rw [getFree]
  by_cases hknown : v.fs.freeClst ≤ v.fs.nFatent - 2
  · rw [if_pos hknown]
    rw [BitVec.le_def, h2] at hknown
    exact ⟨rfl, rfl, (Kept.refl hm).altered.toChanged, rfl, fun _ => rfl, fun hlt => absurd hknown (by omega)⟩
  · rw [if_neg hknown]
    rw [BitVec.le_def, h2] at hknown
    refine Sat.bind (countFree_returns hm herr) ?_
    rintro ⟨res, nfree, v₁⟩ ⟨rfl, hfree, hk⟩
    replace hk : Kept W v v₁ := hk
    exact ⟨rfl, rfl, hk.altered.toChanged.trans (hk.mounted.setInfo _), hk.table hm, fun hle => absurd hle hknown,
      fun _ => hfree⟩

/-- A volume that is mounted is found. -/
theorem findVolume_mounted {path : Path} (hm : Mounted W v) (hpath : getLdnumber path = true) (fsid : BitVec 16) :
    findVolume path 0 ⟨some v.fs, fsid, v.disk⟩ = .ok (.ok, ⟨some v.fs, fsid, v.disk⟩) := by
  have hmode : ¬ ((0 : BitVec 8) &&& ~~~faRead ≠ 0) := by decide
  have hstat : (0 : BitVec 8) &&& staNoinit = 0 := by decide
  rw [findVolume]
  simp only [hpath, Bool.true_eq_false, if_false, hmode, false_and, ne_eq, hm.fits.type, not_false_eq_true, if_true,
    hm.fits.drv, D.status_served, ok_bind, hstat]
  rfl

/-- **`f_getfree`**: it returns `free_clst`, of which it has made the number of free clusters if it could not be a number of
clusters; but on FAT16 and FAT32 only if the two entries in front of those of the clusters are not free. -/
theorem fGetfree_counts {s : Chains D} {path : Path} (hs : Sound W s) (hpath : getLdnumber path = true) (fsid : BitVec 16) :
    Returns (fGetfree path ⟨some s.vol.fs, fsid, s.vol.disk⟩) (fun p => p.1 = .ok ∧ ∃ v' : Vol D,
      p.2.2 = ⟨some v'.fs, fsid, v'.disk⟩ ∧ p.2.1 = some v'.fs.freeClst ∧ Steps W s { s with vol := v' } ∧
      v'.table = s.vol.table ∧ (s.vol.fs.freeClst.toNat ≤ s.vol.fs.nFatent.toNat - 2 → v' = s.vol) ∧
      (s.vol.fs.nFatent.toNat - 2 < s.vol.fs.freeClst.toNat →
        (Exact v' ↔ s.vol.fs.fsType = .fat12 ∨ s.vol.table 0 ≠ 0 ∧ s.vol.table 1 ≠ 0))) := by
  have hm := hs.mounted
  rw [fGetfree, findVolume_mounted hm hpath, ok_bind]
  refine Sat.bind (getFree_returns hm hs.noError) ?_
  rintro ⟨res, nclst, v⟩ ⟨rfl, hn, hch, htab, hknown, hcount⟩
  replace hn : nclst = v.fs.freeClst := hn
  replace hch : Changed W s.vol v := hch
  replace htab : v.table = s.vol.table := htab
  replace hcount : s.vol.fs.nFatent.toNat - 2 < s.vol.fs.freeClst.toNat →
      v.fs.freeClst.toNat = s.vol.freeClusters + s.vol.reserved := hcount
  have hg := hch.geometry
  have hsound : Sound W { s with vol := v } := by
    refine ⟨hch.mounted, ?_, ?_⟩
    · show NoError v.fs.toGeometry v.table
      rw [hg, htab]
      exact hs.noError
    · show Owns v.table v.fs.IsEnd v.fs.Cluster s.own
      rw [hg, htab]
      exact hs.owns
  refine ⟨rfl, v, rfl, congrArg some hn, ⟨hsound, fun c hc _ => ⟨hc, congrFun htab c⟩, (Since.refl hm).changed hch⟩, htab,
    hknown, fun hlt => ?_⟩
  rw [← reserved_zero, Exact, hcount hlt, freeClusters_congr hg htab]
  omega

/-- The empty volume as it is after a mount: its free clusters have not been counted. -/
def uncounted : Vol ramDisk := { emptyVol with fs := { emptyVol.fs with freeClst := 0xFFFFFFFF } }

theorem uncounted_sound : Sound (uncounted.fs.window ramDisk.sectors) ⟨fun _ => [], uncounted⟩ where
  mounted := ⟨emptyVol_fits, emptyVol_fits.windows, .of_clean rfl fun hs => absurd hs.1 (by decide), fun _ _ _ _ => rfl⟩
  noError := emptyChains_sound.noError
  owns := emptyChains_sound.owns

/-- They are counted, each by its entry. -/
theorem fGetfree_counts_uncounted : Returns (fGetfree (some []) ⟨some uncounted.fs, 1, uncounted.disk⟩) (fun p =>
    p.1 = .ok ∧ ∃ v' : Vol ramDisk, p.2.1 = some v'.fs.freeClst ∧ Exact v' ∧ v'.table = emptyVol.table) := by
  refine Sat.mono (fGetfree_counts uncounted_sound (by decide) 1) ?_ (fun _ => id)
  rintro p ⟨hok, v', -, hfree, -, htab, -, hcount⟩
  exact ⟨hok, v', hfree, (hcount (by decide)).2 (.inl rfl), htab⟩

end Fatfs
end CheriOS
