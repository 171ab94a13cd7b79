import CheriOS.Fatfs.Fat
/-!
# Bpb — the boot sector (`ff.c`)

The boot sector says where the FAT, the root directory and the clusters of a volume are.  `find_volume` checks it and takes
the geometry from it; what it accepts has its areas one behind the other and an entry in the FAT for each cluster.
-/
namespace CheriOS
namespace Fatfs

/-! ## The boot sector -/

/-- The BIOS parameter block, as far as `find_volume` loads it. -/
structure Bpb where
  bytsPerSec : BitVec 16
  secPerClus : BitVec 8
  rsvdSecCnt : BitVec 16
  numFATs : BitVec 8
  rootEntCnt : BitVec 16
  totSec16 : BitVec 16
  fatSz16 : BitVec 16
  totSec32 : BitVec 32
  fatSz32 : BitVec 32
  fsVer32 : BitVec 16
  rootClus32 : BitVec 32
  fsInfo32 : BitVec 16

def bpb (win : Bytes) : Bpb where
  bytsPerSec := ldWord win 11
  secPerClus := win 13
  rsvdSecCnt := ldWord win 14
  numFATs := win 16
  rootEntCnt := ldWord win 17
  totSec16 := ldWord win 19
  fatSz16 := ldWord win 22
  totSec32 := (ldDword win 32).setWidth 32
  fatSz32 := (ldDword win 36).setWidth 32
  fsVer32 := ldWord win 42
  rootClus32 := (ldDword win 44).setWidth 32
  fsInfo32 := ldWord win 48

/-- What `check_fs` returns for the sector in the window. -/
def bootKind (win : Bytes) : Nat :=
  if ldWord win 510 ≠ 0xAA55 then 3
  else if ldDword win 54 &&& 0xFFFFFF = 0x544146 then 0
  else if ldDword win 82 &&& 0xFFFFFF = 0x544146 then 0
  else 2

/-- Where the partitions of a master boot record start, `0` for those that are not there. -/
def partitions (win : Bytes) : List (BitVec 64) :=
  [0, 1, 2, 3].map fun i => let pt := 446 + i * 16; if win (pt + 4) ≠ 0 then ldDword win (pt + 8) else 0

/-- The FAT sub-type, by the number of clusters. -/
def fatType (nclst : BitVec 64) : FsType := if nclst ≥ 65526 then .fat32 else if nclst ≥ 4086 then .fat16 else .fat12

namespace Bpb

/-- Number of sectors per FAT. -/
def fatSz (b : Bpb) : BitVec 64 := if b.fatSz16 = 0 then b.fatSz32.setWidth 64 else b.fatSz16.setWidth 64

/-- Number of sectors for FAT area. -/
def fasize (b : Bpb) : BitVec 64 := b.fatSz * b.numFATs.setWidth 64

/-- Number of sectors on the volume. -/
def tsect (b : Bpb) : BitVec 64 := if b.totSec16 = 0 then b.totSec32.setWidth 64 else b.totSec16.setWidth 64

/-- RSV + FAT + DIR -/
def sysect (b : Bpb) : BitVec 64 := b.rsvdSecCnt.setWidth 64 + b.fasize + (b.rootEntCnt / 16).setWidth 64

/-- Number of clusters. -/
def nclst (b : Bpb) : BitVec 64 := (b.tsect - b.sysect) / b.secPerClus.setWidth 64

/-- The root directory, and the needed FAT size; `none` where the volume is refused. -/
def root (b : Bpb) (fmt : FsType) (fs : FatFs) : Option (BitVec 64) × FatFs :=
  if fmt = .fat32 then
    if b.fsVer32 ≠ 0 then (none, fs)
    else if fs.nRootdir ≠ 0 then (none, fs)
    else (some (fs.nFatent * 4), { fs with dirbase := b.rootClus32.setWidth 64 })
  else
    if fs.nRootdir = 0 then (none, fs)
    else
      let fs := { fs with dirbase := fs.fatbase + b.fasize }
      (some (if fmt = .fat16 then fs.nFatent * 2 else fs.nFatent * 3 / 2 + (fs.nFatent &&& 1)), fs)

/-- The geometry, and the FAT sub-type; `none` where the volume is refused. -/
def layout (b : Bpb) (bsect : BitVec 64) (fs : FatFs) : Option FsType × FatFs :=
  if b.bytsPerSec ≠ 512 then (none, fs) else
  let fs := { fs with fsize := b.fatSz, nFats := b.numFATs }
  if fs.nFats ≠ 1 ∧ fs.nFats ≠ 2 then (none, fs) else
  let fs := { fs with csize := b.secPerClus.setWidth 16 }
  if fs.csize = 0 ∨ fs.csize &&& (fs.csize - 1) ≠ 0 then (none, fs) else
  let fs := { fs with nRootdir := b.rootEntCnt }
  if fs.nRootdir % 16 ≠ 0 then (none, fs) else
  if b.rsvdSecCnt = 0 then (none, fs) else
  if b.tsect < b.sysect then (none, fs) else
  if b.nclst = 0 then (none, fs) else
  let fmt := fatType b.nclst
  let fs := { fs with
    nFatent := b.nclst + 2
    volbase := bsect
    fatbase := bsect + b.rsvdSecCnt.setWidth 64
    database := bsect + b.sysect }
  match b.root fmt fs with
  | (none, fs) => (none, fs)
  | (some szbfat, fs) => if fs.fsize < (szbfat + 511) / 512 then (none, fs) else (some fmt, fs)

end Bpb

/-- What `find_volume` leaves of an FSInfo sector in `free_clst` and `last_clst`. -/
def loadInfo (win : Bytes) : FsInfo :=
  if ldWord win 510 = 0xAA55 ∧ ldDword win 0 = 0x41615252 ∧ ldDword win 484 = 0x61417272 then
    { fsiFlag := 0, lastClst := ldDword win 492, freeClst := ldDword win 488 }
  else { fsiFlag := 0, lastClst := 0xFFFFFFFF, freeClst := 0xFFFFFFFF }

/-! ## The window and its sector -/

/-- The bytes of a sector, as the functions that read the window find them. -/
def bytesOf (s : Sector) : Bytes := fun i => if h : i < 512 then s ⟨i, h⟩ else 0

/-- A window that shows a sector is read like the sector. -/
theorem bytesOf_sectorOf (w : Bytes) {i : Nat} (hi : i < 512) : bytesOf (sectorOf w 0) i = w i := by
  unfold bytesOf sectorOf
  rw [dif_pos hi]
  exact congrArg w (by simp)

theorem ldWord_bytesOf (w : Bytes) {i : Nat} (hi : i + 1 < 512) : ldWord (bytesOf (sectorOf w 0)) i = ldWord w i :=
  ldWord_congr fun _ _ => bytesOf_sectorOf w (by omega)

theorem ldDword_bytesOf (w : Bytes) {i : Nat} (hi : i + 3 < 512) : ldDword (bytesOf (sectorOf w 0)) i = ldDword w i :=
  ldDword_congr fun _ _ => bytesOf_sectorOf w (by omega)

theorem bpb_bytesOf (w : Bytes) : bpb (bytesOf (sectorOf w 0)) = bpb w := by
  simp [bpb, ldWord_bytesOf, ldDword_bytesOf, bytesOf_sectorOf]

theorem bootKind_bytesOf (w : Bytes) : bootKind (bytesOf (sectorOf w 0)) = bootKind w := by
  simp [bootKind, ldWord_bytesOf, ldDword_bytesOf]

theorem partitions_bytesOf (w : Bytes) : partitions (bytesOf (sectorOf w 0)) = partitions w := by
  simp [partitions, ldDword_bytesOf, bytesOf_sectorOf]

theorem loadInfo_bytesOf (w : Bytes) : loadInfo (bytesOf (sectorOf w 0)) = loadInfo w := by
  simp [loadInfo, ldWord_bytesOf, ldDword_bytesOf]

/-! ## What is accepted -/

namespace Bpb
variable {b : Bpb} {bsect : BitVec 64} {fs fs' : FatFs} {t : FsType}

/-- The needed FAT size. -/
def szbfat (b : Bpb) : BitVec 64 :=
  match fatType b.nclst with
  | .fat32 => (b.nclst + 2) * 4
  | .fat16 => (b.nclst + 2) * 2
  | _ => (b.nclst + 2) * 3 / 2 + ((b.nclst + 2) &&& 1)

/-- What is required of the block. -/
structure Accepted (b : Bpb) : Prop where
  bytsPerSec : b.bytsPerSec = 512
  numFATs : b.numFATs = 1 ∨ b.numFATs = 2
  secPerClus : b.secPerClus.setWidth 16 ≠ (0 : BitVec 16)
  power : b.secPerClus.setWidth 16 &&& (b.secPerClus.setWidth 16 - 1) = (0 : BitVec 16)
  rootEntCnt : b.rootEntCnt % 16 = 0
  rsvdSecCnt : b.rsvdSecCnt ≠ 0
  sysect : b.sysect ≤ b.tsect
  nclst : b.nclst ≠ 0
  root : if fatType b.nclst = .fat32 then b.fsVer32 = 0 ∧ b.rootEntCnt = 0 else b.rootEntCnt ≠ 0
  fatSz : (b.szbfat + 511) / 512 ≤ b.fatSz

/-- The geometry of the volume at `bsect`. -/
def geometry (b : Bpb) (bsect : BitVec 64) (id : BitVec 16) : Geometry where
  fsType := fatType b.nclst
  drv := 0
  nFats := b.numFATs
  id := id
  nRootdir := b.rootEntCnt
  csize := b.secPerClus.setWidth 16
  nFatent := b.nclst + 2
  fsize := b.fatSz
  volbase := bsect
  fatbase := bsect + b.rsvdSecCnt.setWidth 64
  dirbase := if fatType b.nclst = .fat32 then b.rootClus32.setWidth 64 else bsect + b.rsvdSecCnt.setWidth 64 + b.fasize
  database := bsect + b.sysect

/-- `fs` with this geometry, but for the sub-type, which is set last. -/
def set (b : Bpb) (bsect : BitVec 64) (fs : FatFs) : FatFs :=
  { fs with toGeometry := { b.geometry bsect fs.id with fsType := fs.fsType, drv := fs.drv } }

/-- A test on the way. -/
theorem test_some_iff {α β : Type} {c : Prop} [Decidable c] {x : Option α × β} {a : α} {r r' : β} :
    (if c then (none, r) else x) = (some a, r') ↔ ¬ c ∧ x = (some a, r') := by
  by_cases h : c <;> simp [h]

theorem root_some_iff {n : BitVec 64} : b.root t fs = (some n, fs') ↔
    (if t = .fat32 then b.fsVer32 = 0 ∧ fs.nRootdir = 0 else fs.nRootdir ≠ 0) ∧
    (match t with
      | .fat32 => fs.nFatent * 4
      | .fat16 => fs.nFatent * 2
      | _ => fs.nFatent * 3 / 2 + (fs.nFatent &&& 1)) = n ∧
    { fs with dirbase := if t = .fat32 then b.rootClus32.setWidth 64 else fs.fatbase + b.fasize } = fs' := by
  unfold root
  by_cases ht : t = .fat32
  · subst ht
    simp only [if_true, test_some_iff, not_not, Prod.mk.injEq, Option.some.injEq, and_assoc]
  · simp only [ht, if_false, test_some_iff, Prod.mk.injEq, Option.some.injEq]
    cases t <;> simp_all

theorem layout_some_iff : b.layout bsect fs = (some t, fs') ↔ b.Accepted ∧ fatType b.nclst = t ∧ b.set bsect fs = fs' := by
  unfold layout
  simp only [test_some_iff]
  constructor
  · rintro ⟨h1, h2, h3, h4, h5, h6, h7, h⟩
    split at h
    · cases h
    rename_i szbfat fs₁ hroot
    obtain ⟨h8, hn, hfs⟩ := root_some_iff.1 hroot
    obtain ⟨h9, he⟩ := test_some_iff.1 h
    cases he
    subst hfs hn
    exact ⟨⟨not_not.1 h1, by tauto, fun he => h3 (.inl he), not_not.1 fun he => h3 (.inr he), not_not.1 h4, h5,
      BitVec.not_lt.1 h6, h7, h8, BitVec.not_lt.1 h9⟩, rfl, rfl⟩
  · rintro ⟨h, rfl, rfl⟩
    refine ⟨not_not.2 h.bytsPerSec, fun hn => h.numFATs.elim hn.1 hn.2, fun hs => hs.elim h.secPerClus (· h.power),
      not_not.2 h.rootEntCnt, h.rsvdSecCnt, BitVec.not_lt.2 h.sysect, h.nclst, ?_⟩
    rw [root_some_iff.2 ⟨h.root, rfl, rfl⟩]
    exact test_some_iff.2 ⟨BitVec.not_lt.2 h.fatSz, rfl⟩

/-! What the block says, as numbers. -/

theorem fatSz_lt (b : Bpb) : b.fatSz.toNat < 2 ^ 32 := by
  have h1 := b.fatSz16.isLt
  have h2 := b.fatSz32.isLt
  unfold fatSz
  split <;> simp only [BitVec.toNat_setWidth] <;> omega

theorem tsect_lt (b : Bpb) : b.tsect.toNat < 2 ^ 32 := by
  have h1 := b.totSec16.isLt
  have h2 := b.totSec32.isLt
  unfold tsect
  split <;> simp only [BitVec.toNat_setWidth] <;> omega

theorem fasize_toNat (b : Bpb) : b.fasize.toNat = b.numFATs.toNat * b.fatSz.toNat := by
  have h1 := b.fatSz_lt
  have h2 := b.numFATs.isLt
  have h3 : b.numFATs.toNat * b.fatSz.toNat ≤ 2 ^ 8 * 2 ^ 32 := Nat.mul_le_mul (by omega) (by omega)
  unfold fasize
  rw [BitVec.toNat_mul, BitVec.toNat_setWidth, Nat.mod_eq_of_lt (by omega : b.numFATs.toNat < _), Nat.mul_comm,
    Nat.mod_eq_of_lt (by omega)]

theorem sysect_toNat (b : Bpb) :
    b.sysect.toNat = b.rsvdSecCnt.toNat + b.numFATs.toNat * b.fatSz.toNat + b.rootEntCnt.toNat / 16 := by
  have h1 := b.fatSz_lt
  have h2 := b.numFATs.isLt
  have h3 : b.numFATs.toNat * b.fatSz.toNat ≤ 2 ^ 8 * 2 ^ 32 := Nat.mul_le_mul (by omega) (by omega)
  have h4 := b.rsvdSecCnt.isLt
  have h5 := b.rootEntCnt.isLt
  unfold sysect
  rw [BitVec.toNat_add, BitVec.toNat_add, fasize_toNat, BitVec.toNat_setWidth, BitVec.toNat_setWidth, BitVec.toNat_udiv]
  have h16 : (16 : BitVec 16).toNat = 16 := rfl
  rw [h16]
  omega

theorem nclst_toNat {b : Bpb} (h : b.Accepted) :
    b.nclst.toNat = (b.tsect.toNat - b.sysect.toNat) / b.secPerClus.toNat := by
  have h1 := b.secPerClus.isLt
  unfold nclst
  rw [BitVec.toNat_udiv, BitVec.toNat_sub_of_le h.sysect, BitVec.toNat_setWidth, Nat.mod_eq_of_lt (by omega)]

theorem power_two : ∀ x : BitVec 8, x.setWidth 16 ≠ (0 : BitVec 16) →
    x.setWidth 16 &&& (x.setWidth 16 - 1) = (0 : BitVec 16) → ∃ k < 8, (x.setWidth 16 : BitVec 16).toNat = 2 ^ k := by
  decide

theorem sectors_le {x y : BitVec 64} (h : (x + 511) / 512 ≤ y) (hx : x.toNat < 2 ^ 63) : x.toNat ≤ y.toNat * 512 := by
  have h511 : (511 : BitVec 64).toNat = 511 := rfl
  have h512 : (512 : BitVec 64).toNat = 512 := rfl
  rw [BitVec.le_def, BitVec.toNat_udiv, BitVec.toNat_add, h511, h512] at h
  omega

/-- A FAT that is as large as needed has an entry for each cluster. -/
theorem Accepted.entries (h : b.Accepted) (hn : b.nclst.toNat < 2 ^ 32) :
    (b.nclst.toNat + 2) * (fatType b.nclst).stride ≤ b.fatSz.toNat * 512 * 8 := by
  have hsz := h.fatSz
  unfold szbfat at hsz
  have hadd : (b.nclst + 2).toNat = b.nclst.toNat + 2 := by
    rw [BitVec.toNat_add]
    show (_ + 2) % _ = _
    omega
  generalize b.nclst + 2 = m at hadd hsz
  have hmul : ∀ k : BitVec 64, k.toNat ≤ 4 → (m * k).toNat = m.toNat * k.toNat := fun k hk => by
    rw [BitVec.toNat_mul, Nat.mod_eq_of_lt]
    have := Nat.mul_le_mul (show m.toNat ≤ 2 ^ 33 by omega) hk
    omega
  cases ht : fatType b.nclst with
  | none => exact Nat.zero_le _
  | fat12 =>
    rw [ht] at hsz
    dsimp only at hsz
    have hodd : (m &&& 1).toNat = m.toNat % 2 := by
      rw [BitVec.toNat_and]
      exact Nat.and_one_is_mod _
    have h3 : (m * 3).toNat = m.toNat * 3 := hmul 3 (by decide)
    have htot : (m * 3 / 2 + (m &&& 1)).toNat = m.toNat * 3 / 2 + m.toNat % 2 := by
      rw [BitVec.toNat_add, BitVec.toNat_udiv, h3, hodd]
      show (_ / 2 + _) % _ = _
      omega
    have hle := sectors_le hsz (by omega)
    have hbytes : m.toNat * 12 ≤ (m.toNat * 3 / 2 + m.toNat % 2) * 8 := by
      rcases Nat.mod_two_eq_zero_or_one m.toNat with hm | hm <;> omega
    show _ * 12 ≤ _
    omega
  | fat16 =>
    rw [ht] at hsz
    dsimp only at hsz
    have h2 : (m * 2).toNat = m.toNat * 2 := hmul 2 (by decide)
    have hle := sectors_le hsz (by omega)
    show _ * 16 ≤ _
    omega
  | fat32 =>
    rw [ht] at hsz
    dsimp only at hsz
    have h4 : (m * 4).toNat = m.toNat * 4 := hmul 4 (by decide)
    have hle := sectors_le hsz (by omega)
    show _ * 32 ≤ _
    omega

theorem fatType_lt {n : BitVec 64} (h : fatType n = .fat32 → n.toNat + 2 < 2 ^ 28) : n.toNat + 2 < 2 ^ (fatType n).width := by
  unfold fatType at h ⊢
  split_ifs at h ⊢ with h1 h2
  · exact h rfl
  · rw [ge_iff_le, BitVec.le_def] at h1
    have h1' : ¬ 65526 ≤ n.toNat := h1
    show _ < 2 ^ 16
    omega
  · rw [ge_iff_le, BitVec.le_def] at h2
    have h2' : ¬ 4086 ≤ n.toNat := h2
    show _ < 2 ^ 12
    omega

theorem fatType_ne_none (n : BitVec 64) : fatType n ≠ .none := by
  unfold fatType
  split_ifs <;> decide

/-- **What is accepted is well formed**: on a drive that has the sectors of the volume, its areas are one behind the other
and the FAT has an entry for each cluster.  Of a FAT32 volume it is not checked that there is a sector for FSInfo, nor that
its clusters are not numbered like ends of chains. -/
theorem Accepted.fits (h : b.Accepted) {n : Nat} (hn : bsect.toNat + b.tsect.toNat ≤ n) (hmax : n ≤ 0xFFFFFFFF)
    (h32 : fatType b.nclst = .fat32 → 2 ≤ b.rsvdSecCnt.toNat ∧ b.nclst.toNat + 2 < 2 ^ 28) (id : BitVec 16) :
    (b.geometry bsect id).Fits n := by
  have hsys : b.sysect.toNat ≤ b.tsect.toNat := h.sysect
  have hts := b.tsect_lt
  have hs := b.sysect_toNat
  have hdiv := nclst_toNat h
  have hspc := b.secPerClus.isLt
  have hr := b.rsvdSecCnt.isLt
  have hr0 : b.rsvdSecCnt.toNat ≠ 0 := fun he => h.rsvdSecCnt (BitVec.eq_of_toNat_eq he)
  have hc0 : b.nclst.toNat ≠ 0 := fun he => h.nclst (BitVec.eq_of_toNat_eq he)
  have hle : b.nclst.toNat ≤ b.tsect.toNat - b.sysect.toNat := hdiv ▸ Nat.div_le_self ..
  have hent : (b.nclst + 2).toNat = b.nclst.toNat + 2 := by
    rw [BitVec.toNat_add]
    show (_ + 2) % _ = _
    omega
  have hfat : (bsect + b.rsvdSecCnt.setWidth 64).toNat = bsect.toNat + b.rsvdSecCnt.toNat := by
    rw [BitVec.toNat_add, BitVec.toNat_setWidth]
    omega
  have hdata : (bsect + b.sysect).toNat = bsect.toNat + b.sysect.toNat := by
    rw [BitVec.toNat_add]
    omega
  have hcs : (b.secPerClus.setWidth 16).toNat = b.secPerClus.toNat := by
    rw [BitVec.toNat_setWidth]
    omega
  have hclus : b.nclst.toNat * b.secPerClus.toNat ≤ b.tsect.toNat - b.sysect.toNat := by
    rw [hdiv]
    exact Nat.div_mul_le_self ..
  refine ⟨rfl, fatType_ne_none _, ?_, ?_, ?_, ?_, ?_, ?_, ?_, ?_, fun ht => ?_⟩
  · show 0 < b.numFATs.toNat
    rcases h.numFATs with he | he <;> rw [he] <;> decide
  · show (bsect + _).toNat + b.numFATs.toNat * b.fatSz.toNat ≤ (bsect + _).toNat
    omega
  · show (bsect + _).toNat + ((b.nclst + 2).toNat - 2) * (b.secPerClus.setWidth 16).toNat ≤ n
    rw [hdata, hent, hcs, Nat.add_sub_cancel]
    omega
  · show (b.nclst + 2).toNat * _ ≤ _
    rw [hent]
    exact h.entries (by omega)
  · show (b.nclst + 2).toNat < _
    rw [hent]
    exact fatType_lt fun ht => (h32 ht).2
  · show 2 < (b.nclst + 2).toNat
    omega
  · obtain ⟨k, -, hk⟩ := power_two _ h.secPerClus h.power
    exact ⟨k, hk⟩
  · show bsect.toNat < (bsect + _).toNat
    omega
  · have h2 := (h32 ht).1
    show bsect.toNat + 1 < (bsect + _).toNat
    omega

end Bpb

/-- A test on the way that sets no sub-type. -/
theorem test_fsType {α : Type} {c : Prop} {_ : Decidable c} {x : Option α × FatFs} {fs : FatFs} {t : FsType}
    (hr : fs.fsType = t) (hx : x.2.fsType = t) : (if c then (none, fs) else x).2.fsType = t := by
  by_cases h : c
  · rw [if_pos h]
    exact hr
  · rw [if_neg h]
    exact hx

theorem root_fsType (b : Bpb) (t : FsType) (fs : FatFs) : (b.root t fs).2.fsType = fs.fsType := by
  unfold Bpb.root
  split
  · exact test_fsType rfl (test_fsType rfl rfl)
  · exact test_fsType rfl rfl

/-- The file system object is left without a sub-type where the block is refused. -/
theorem layout_fsType (b : Bpb) (bsect : BitVec 64) (fs : FatFs) : (b.layout bsect fs).2.fsType = fs.fsType := by
  unfold Bpb.layout
  refine test_fsType rfl (test_fsType rfl (test_fsType rfl (test_fsType rfl (test_fsType rfl (test_fsType rfl (test_fsType rfl ?_))))))
  have hroot := root_fsType b (fatType b.nclst) { fs with
    fsize := b.fatSz, nFats := b.numFATs, csize := b.secPerClus.setWidth 16, nRootdir := b.rootEntCnt
    nFatent := b.nclst + 2
    volbase := bsect
    fatbase := bsect + b.rsvdSecCnt.setWidth 64
    database := bsect + b.sysect }
  dsimp only at hroot ⊢
  split
  · rename_i fs' h
    rw [h] at hroot
    exact hroot
  · rename_i n fs' h
    rw [h] at hroot
    exact test_fsType hroot hroot

end Fatfs
end CheriOS
