import CheriOS.Fatfs.Diskio
import CheriOS.Lib.WriteBack
import Mathlib.Tactic.Ring
/-!
# Volume — a mounted volume and its window (`ff.c`)

`FATFS` keeps one sector of its drive in `win`, and every access to the boot sector, the FAT and the directories goes
through it.  A sector of the FAT that is written back is written to the copies of the FAT as well.

The drive is any that serves the requests inside it, of which the RAM disk without its last sector is one.
-/
namespace CheriOS
namespace Fatfs

open Outcome WriteBack

/-- What ends a call that does not return: the drive's function, its assertion that the drive is the only one, or a loop of
`ff.c` that does not end. -/
inductive Halt where
  | disk (s : Stop)
  | drive
  | hang
  deriving DecidableEq, Repr

/-- `FRESULT`, as far as the functions below return it. -/
inductive Fresult where
  | ok | diskErr | intErr | notReady | denied | invalidObject | writeProtected | invalidDrive | notEnabled | noFilesystem
  deriving DecidableEq, Repr

/-! ## Sectors -/

/-- `SS(fs)` bytes. -/
abbrev Sector := Fin 512 → BitVec 8

/-- The sector numbered `k`. -/
def sectorOf (b : Bytes) (k : Nat) : Sector := fun i => b (k * 512 + i)

theorem offset_lt (n : Nat) : n % 512 < 512 := Nat.mod_lt n (by decide)

theorem sectorOf_memcpy (dst src : Bytes) (k n j : Nat) :
    sectorOf (memcpy dst (k * 512) src 0 (n * 512)) j =
      if k ≤ j ∧ j < k + n then sectorOf src (j - k) else sectorOf dst j := by
  funext i
  have hi := i.isLt
  simp only [sectorOf, memcpy]
  by_cases h : k ≤ j ∧ j < k + n
  · rw [if_pos h, if_pos (by omega)]
    exact congrArg src (by omega)
  · rw [if_neg h, if_neg (by omega)]
    rfl

theorem sectorOf_memcpy_to (dst src : Bytes) (k n j : Nat) :
    sectorOf (memcpy dst 0 src (k * 512) (n * 512)) j = if j < n then sectorOf src (k + j) else sectorOf dst j := by
  funext i
  have hi := i.isLt
  simp only [sectorOf, memcpy]
  by_cases h : j < n
  · rw [if_pos h, if_pos (by omega)]
    exact congrArg src (by omega)
  · rw [if_neg h, if_neg (by omega)]
    rfl

/-! ## Drives -/

/-- **A drive that serves the requests inside it** (`diskio.h`).  Sector numbers have 32 bits, and the last of them is
no sector. -/
structure Disk where
  State : Type
  cells : State → Bytes
  sectors : Nat
  sectors_le : sectors ≤ 0xFFFFFFFF
  read : BitVec 8 → Bytes → BitVec 64 → BitVec 32 → State → Except Halt (Dresult × Bytes)
  write : BitVec 8 → Bytes → BitVec 64 → BitVec 32 → State → Except Halt (Dresult × State)
  ioctl : BitVec 8 → BitVec 8 → BitVec 64 → State → Except Halt (Dresult × BitVec 64)
  status : BitVec 8 → State → Except Halt (BitVec 8)
  init : BitVec 8 → State → Except Halt (BitVec 8 × State)
  read_served (buff : Bytes) (sector : BitVec 64) (count : BitVec 32) (d : State) :
    sector.toNat + count.toNat ≤ sectors →
      read 0 buff sector count d = .ok (.ok, memcpy buff 0 (cells d) (sector.toNat * 512) (count.toNat * 512))
  write_served (buff : Bytes) (sector : BitVec 64) (count : BitVec 32) (d : State) :
    sector.toNat + count.toNat ≤ sectors →
      ∃ d', write 0 buff sector count d = .ok (.ok, d') ∧
        cells d' = memcpy (cells d) (sector.toNat * 512) buff 0 (count.toNat * 512)
  sync_served (buf : BitVec 64) (d : State) : ioctl 0 ctrlSync buf d = .ok (.ok, buf)
  status_served (d : State) : status 0 d = .ok 0
  init_served (d : State) : ∃ d', init 0 d = .ok (0, d') ∧ cells d' = cells d

def diskStatus (pdrv : BitVec 8) : Except Halt (BitVec 8) := if pdrv = 0 then .ok 0 else .error .drive

def diskInitialize (pdrv : BitVec 8) (idisk : Bytes) : Except Halt (BitVec 8 × Bytes) :=
  if pdrv = 0 then .ok (0, idisk) else .error .drive

/-- **The RAM disk, without its last sector.** -/
def ramDisk : Disk where
  State := Bytes
  cells := id
  sectors := 799
  sectors_le := by decide
  read pdrv buff sector count d := (diskRead pdrv buff sector count d).mapError .disk
  write pdrv buff sector count d := (diskWrite pdrv buff sector count d).mapError .disk
  ioctl pdrv cmd buf _ := (diskIoctl pdrv cmd buf).mapError .disk
  status pdrv _ := diskStatus pdrv
  init := diskInitialize
  read_served _ _ _ _ h := by
    rw [diskRead_served (by omega)]
    rfl
  write_served _ _ _ _ h := by
    rw [diskWrite_served (by omega)]
    exact ⟨_, rfl, rfl⟩
  sync_served _ _ := rfl
  status_served _ := rfl
  init_served d := ⟨d, rfl, rfl⟩

/-! ## The volume -/

inductive FsType where
  | none | fat12 | fat16 | fat32
  deriving DecidableEq, Repr

/-- The part of `FATFS` that a mount sets and nothing changes. -/
structure Geometry where
  fsType : FsType
  drv : BitVec 8
  nFats : BitVec 8
  id : BitVec 16
  nRootdir : BitVec 16
  csize : BitVec 16
  nFatent : BitVec 64
  fsize : BitVec 64
  volbase : BitVec 64
  fatbase : BitVec 64
  dirbase : BitVec 64
  database : BitVec 64

/-- The part of `FATFS` that goes into the FSInfo sector, with the flags that say whether it does. -/
structure FsInfo where
  fsiFlag : BitVec 8
  lastClst : BitVec 64
  freeClst : BitVec 64

/-- `FATFS`. -/
structure FatFs extends Geometry, FsInfo where
  wflag : BitVec 8
  winsect : BitVec 64
  win : Bytes

/-- A volume and its drive. -/
structure Vol (D : Disk) where
  fs : FatFs
  disk : D.State

variable {D : Disk}

/-- For `nf` copies of the FAT. -/
def reflect (fs : FatFs) : Nat → BitVec 64 → D.State → Except Halt D.State
  | 0, _, d => .ok d
  | nf + 1, wsect, d => do
    let wsect := wsect + fs.fsize
    let (_, d) ← D.write fs.drv fs.win wsect 1 d
    reflect fs nf wsect d

def syncWindow (v : Vol D) : Except Halt (Fresult × Vol D) := do
  if v.fs.wflag ≠ 0 then
    let wsect := v.fs.winsect
    let (r, d) ← D.write v.fs.drv v.fs.win wsect 1 v.disk
    if r ≠ .ok then return (.diskErr, { v with disk := d })
    else
      let fs := { v.fs with wflag := 0 }
      if wsect - fs.fatbase < fs.fsize then
        let d ← reflect fs (fs.nFats.toNat - 1) wsect d
        return (.ok, ⟨fs, d⟩)
      else return (.ok, ⟨fs, d⟩)
  else return (.ok, v)

def moveWindow (v : Vol D) (sector : BitVec 64) : Except Halt (Fresult × Vol D) := do
  if sector ≠ v.fs.winsect then
    let (res, v) ← syncWindow v
    if res = .ok then
      let (r, win) ← D.read v.fs.drv v.fs.win sector 1 v.disk
      if r ≠ .ok then return (.diskErr, { v with fs := { v.fs with winsect := 0xFFFFFFFF, win := win } })
      else return (.ok, { v with fs := { v.fs with winsect := sector, win := win } })
    else return (res, v)
  else return (.ok, v)

/-- The window is changed, and is to be written back: `fs->wflag = 1`. -/
def Vol.edit (v : Vol D) (win : Bytes) : Vol D := { v with fs := { v.fs with win := win, wflag := 1 } }

/-! ## What is seen through the window -/

/-- The sectors of the drive. -/
def Vol.store (v : Vol D) : Nat → Sector := sectorOf (D.cells v.disk)

def FatFs.line (fs : FatFs) : Line Nat Sector := ⟨fs.winsect.toNat, sectorOf fs.win 0, fs.wflag ≠ 0⟩

/-- **The sectors as `move_window` shows them.** -/
def Vol.look (v : Vol D) : Nat → Sector := v.fs.line.view v.store

/-- Entries of the FAT are this many bits apart, and this many bits wide. -/
def FsType.stride : FsType → Nat
  | none => 0
  | fat12 => 12
  | fat16 => 16
  | fat32 => 32

def FsType.width : FsType → Nat
  | none => 0
  | fat12 => 12
  | fat16 => 16
  | fat32 => 28

/-- **The copies of the FAT**, the first left out. -/
def Geometry.IsCopy (g : Geometry) (s : Nat) : Prop :=
  g.fatbase.toNat + g.fsize.toNat ≤ s ∧ s < g.fatbase.toNat + g.nFats.toNat * g.fsize.toNat

def Geometry.IsFat (g : Geometry) (s : Nat) : Prop := g.fatbase.toNat ≤ s ∧ s < g.fatbase.toNat + g.fsize.toNat

/-- The FSInfo sector, where there is one. -/
def Geometry.IsInfo (g : Geometry) (s : Nat) : Prop := g.fsType = .fat32 ∧ s = g.volbase.toNat + 1

/-- **A volume that fits on a drive of `n` sectors**: the reserved sectors, the FAT and its copies, the data; an entry
for each cluster, none of which is numbered like an end of a chain; and room for the FSInfo sector on FAT32. -/
structure Geometry.Fits (g : Geometry) (n : Nat) : Prop where
  drv : g.drv = 0
  type : g.fsType ≠ .none
  nFats : 0 < g.nFats.toNat
  data : g.fatbase.toNat + g.nFats.toNat * g.fsize.toNat ≤ g.database.toNat
  fits : g.database.toNat + (g.nFatent.toNat - 2) * g.csize.toNat ≤ n
  entries : g.nFatent.toNat * g.fsType.stride ≤ g.fsize.toNat * 512 * 8
  ends : g.nFatent.toNat < 2 ^ g.fsType.width
  some : 2 < g.nFatent.toNat
  csize : ∃ k, g.csize.toNat = 2 ^ k
  base : g.volbase.toNat < g.fatbase.toNat
  info : g.fsType = .fat32 → g.volbase.toNat + 1 < g.fatbase.toNat

/-- **The sectors the window may be moved to**: the FAT and the FSInfo sector are among them, and the copies of the FAT
are not. -/
structure Geometry.Windows (g : Geometry) (n : Nat) (W : Set Nat) : Prop where
  lt : ∀ s ∈ W, s < n
  fat : ∀ s, g.IsFat s → s ∈ W
  copy : ∀ s ∈ W, ¬ g.IsCopy s
  info : g.fsType = .fat32 → g.volbase.toNat + 1 ∈ W

/-- **A mounted volume**, with its window on `W`: the window is what is on the drive, or is to be written there, and on
the drive all copies of the FAT are the same. -/
structure Mounted (W : Set Nat) (v : Vol D) : Prop where
  fits : v.fs.Fits D.sectors
  windows : v.fs.Windows D.sectors W
  coherent : Coherent W v.fs.line v.store
  mirror : ∀ k < v.fs.fsize.toNat, ∀ j < v.fs.nFats.toNat,
    v.store (v.fs.fatbase.toNat + j * v.fs.fsize.toNat + k) = v.store (v.fs.fatbase.toNat + k)

/-- **The volume is what it was**: `W` looks the same, and the drive has not changed outside it and the copies. -/
structure Kept (W : Set Nat) (v v' : Vol D) : Prop where
  geometry : v'.fs.toGeometry = v.fs.toGeometry
  info : v'.fs.toFsInfo = v.fs.toFsInfo
  mounted : Mounted W v'
  look : ∀ s ∈ W, v'.look s = v.look s
  store : ∀ s, s ∉ W → ¬ v.fs.IsCopy s → v'.store s = v.store s

/-! ## The window -/

variable {W : Set Nat} {v v' v'' : Vol D}

theorem Vol.look_self (v : Vol D) : v.look v.fs.winsect.toNat = sectorOf v.fs.win 0 := view_key v.fs.line v.store

theorem Vol.look_ne {s : Nat} (hv : s ≠ v.fs.winsect.toNat) : v.look s = v.store s := view_ne hv

namespace Kept

theorem refl (h : Mounted W v) : Kept W v v := ⟨rfl, rfl, h, fun _ _ => rfl, fun _ _ _ => rfl⟩

theorem trans (h : Kept W v v') (h' : Kept W v' v'') : Kept W v v'' where
  geometry := h'.geometry.trans h.geometry
  info := h'.info.trans h.info
  mounted := h'.mounted
  look := fun s hs => (h'.look s hs).trans (h.look s hs)
  store := fun s hs hc => (h'.store s hs (h.geometry ▸ hc)).trans (h.store s hs hc)

end Kept

/-- A sector of the drive after one is written. -/
theorem write_store {d d' : D.State} {buff : Bytes} {sector : BitVec 64}
    (h : D.cells d' = memcpy (D.cells d) (sector.toNat * 512) buff 0 ((1 : BitVec 32).toNat * 512)) :
    sectorOf (D.cells d') = Function.update (sectorOf (D.cells d)) sector.toNat (sectorOf buff 0) := by
  funext k
  rw [h, sectorOf_memcpy]
  by_cases hk : k = sector.toNat
  · subst hk
    rw [Function.update_self, if_pos ⟨Nat.le_refl _, Nat.lt_succ_self _⟩, Nat.sub_self]
  · rw [Function.update_of_ne hk, if_neg]
    intro hx
    have h1 : k < sector.toNat + 1 := hx.2
    omega

/-- **The change goes to the copies**, each `fsize` sectors behind the one before. -/
theorem reflect_returns (fs : FatFs) (hdrv : fs.drv = 0) {n : Nat} {wsect : BitVec 64} {d : D.State}
    (hlt : wsect.toNat + n * fs.fsize.toNat < D.sectors) :
    Returns (reflect fs n wsect d) (fun d' =>
      (∀ j, 0 < j → j ≤ n → sectorOf (D.cells d') (wsect.toNat + j * fs.fsize.toNat) = sectorOf fs.win 0) ∧
      ∀ s, (∀ j, 0 < j → j ≤ n → s ≠ wsect.toNat + j * fs.fsize.toNat) →
        sectorOf (D.cells d') s = sectorOf (D.cells d) s) := by
  have hmax := D.sectors_le
  induction n generalizing wsect d with
  | zero => exact ⟨fun j h0 hj => absurd h0 (by omega), fun _ _ => rfl⟩
  | succ n ih =>
    rw [Nat.succ_mul] at hlt
    have hw : (wsect + fs.fsize).toNat = wsect.toNat + fs.fsize.toNat := by
      rw [BitVec.toNat_add]
      exact Nat.mod_eq_of_lt (by omega)
    obtain ⟨d₁, hwrite, hcells⟩ := D.write_served fs.win (wsect + fs.fsize) 1 d (show _ + 1 ≤ _ by omega)
    have hstore := write_store hcells
    rw [reflect, hdrv, hwrite]
    refine Sat.mono (@ih (wsect + fs.fsize) d₁ (by rw [hw]; omega)) ?_ (fun _ => id)
    rintro d' ⟨hcopies, hrest⟩
    rw [hw] at hcopies hrest
    refine ⟨fun j h0 hj => ?_, fun s hs => ?_⟩
    · rcases Nat.eq_or_lt_of_le (show 1 ≤ j from h0) with rfl | h1
      · -- the copy written first: a later one may be the same sector again
        by_cases hagain : ∃ i, 0 < i ∧ i ≤ n ∧ wsect.toNat + 1 * fs.fsize.toNat =
            wsect.toNat + fs.fsize.toNat + i * fs.fsize.toNat
        · obtain ⟨i, hi, hin, he⟩ := hagain
          rw [he]
          exact hcopies i hi hin
        · rw [hrest _ (fun i hi hin he => hagain ⟨i, hi, hin, he⟩), hstore, hw, Nat.one_mul, Function.update_self]
      · obtain ⟨i, rfl⟩ : ∃ i, j = i + 1 := ⟨j - 1, by omega⟩
        have he : wsect.toNat + (i + 1) * fs.fsize.toNat = wsect.toNat + fs.fsize.toNat + i * fs.fsize.toNat := by
          rw [Nat.succ_mul]
          omega
        rw [he]
        exact hcopies i (by omega) (by omega)
    · rw [hrest s (fun j h0 hj he => hs (j + 1) (by omega) (by omega) (by rw [Nat.succ_mul]; omega)), hstore, hw,
        Function.update_of_ne]
      have := hs 1 (by omega) (by omega)
      omega

/-! Where the sectors of the FAT and of its copies are. -/

theorem copy_lt {f j k n : Nat} (hj : j < n) (hk : k < f) : j * f + k < n * f :=
  calc j * f + k < j * f + f := by omega
    _ = (j + 1) * f := (Nat.succ_mul j f).symm
    _ ≤ n * f := Nat.mul_le_mul_right f hj

theorem copy_inj {f i j k l : Nat} (hk : k < f) (hl : l < f) (h : j * f + k = i * f + l) : k = l := by
  have hmod := congrArg (· % f) h
  simpa only [Nat.mul_add_mod_self_right, Nat.mod_eq_of_lt hk, Nat.mod_eq_of_lt hl] using hmod

namespace Geometry

variable {g : Geometry} {n : Nat}

theorem Fits.area_le (h : g.Fits n) : g.fatbase.toNat + g.nFats.toNat * g.fsize.toNat ≤ n := by
  have hd := h.data
  have hf := h.fits
  omega

theorem Fits.fat_le (h : g.Fits n) : g.fatbase.toNat + g.fsize.toNat ≤ n := by
  have ha := h.area_le
  have hf := Nat.mul_le_mul_right g.fsize.toNat h.nFats
  omega

/-- The test of `sync_window`: below the FAT, the difference wraps. -/
theorem Fits.isFat_iff (h : g.Fits n) (hn : n ≤ 0xFFFFFFFF) {s : BitVec 64} (hs : s.toNat < n) :
    s - g.fatbase < g.fsize ↔ g.IsFat s.toNat := by
  have hle := h.fat_le
  rw [BitVec.lt_def, BitVec.toNat_sub, IsFat]
  omega

end Geometry

/-- **What a write-back leaves on the drive**: `W` as it was seen, the rest as it was, and the copies of the FAT the same. -/
theorem written (h : Mounted W v) (hd : v.fs.wflag ≠ 0) {d : D.State}
    (hself : sectorOf (D.cells d) v.fs.winsect.toNat = sectorOf v.fs.win 0)
    (hcopies : v.fs.IsFat v.fs.winsect.toNat → ∀ j, 0 < j → j < v.fs.nFats.toNat →
      sectorOf (D.cells d) (v.fs.winsect.toNat + j * v.fs.fsize.toNat) = sectorOf v.fs.win 0)
    (hrest : ∀ s, s ≠ v.fs.winsect.toNat → (v.fs.IsFat v.fs.winsect.toNat → ∀ j, 0 < j → j < v.fs.nFats.toNat →
      s ≠ v.fs.winsect.toNat + j * v.fs.fsize.toNat) → sectorOf (D.cells d) s = v.store s) :
    Kept W v ⟨{ v.fs with wflag := 0 }, d⟩ := by
  have hW : v.fs.winsect.toNat ∈ W := h.coherent.held (by simpa [FatFs.line] using hd)
  -- a copy of the sector written is a copy of the FAT
  have hcopy : v.fs.IsFat v.fs.winsect.toNat → ∀ j, 0 < j → j < v.fs.nFats.toNat →
      v.fs.IsCopy (v.fs.winsect.toNat + j * v.fs.fsize.toNat) := by
    rintro ⟨hlo, hhi⟩ j h0 hj
    have h1 := Nat.mul_le_mul_right v.fs.fsize.toNat h0
    have h2 := copy_lt (f := v.fs.fsize.toNat) (k := v.fs.winsect.toNat - v.fs.fatbase.toNat) hj (by omega)
    refine ⟨by omega, by omega⟩
  have hseen : ∀ s ∈ W, sectorOf (D.cells d) s = v.look s := by
    intro s hs
    by_cases he : s = v.fs.winsect.toNat
    · rw [he, hself, Vol.look_self]
    · rw [Vol.look_ne he]
      refine hrest s he fun hfat j h0 hj hx => h.windows.copy s hs ?_
      rw [hx]
      exact hcopy hfat j h0 hj
  have hmirror : ∀ k < v.fs.fsize.toNat, ∀ j < v.fs.nFats.toNat,
      sectorOf (D.cells d) (v.fs.fatbase.toNat + j * v.fs.fsize.toNat + k) =
        sectorOf (D.cells d) (v.fs.fatbase.toNat + k) := by
    intro k hk j hj
    by_cases hfat : v.fs.IsFat v.fs.winsect.toNat
    · have hlo := hfat.1
      have hhi := hfat.2
      by_cases hkw : v.fs.fatbase.toNat + k = v.fs.winsect.toNat
      · rw [hkw, hself]
        rcases Nat.eq_zero_or_pos j with rfl | h0
        · rw [Nat.zero_mul, Nat.add_zero, hkw, hself]
        · rw [← hcopies hfat j h0 hj]
          congr 1
          omega
      · have hne : ∀ i j, v.fs.fatbase.toNat + j * v.fs.fsize.toNat + k ≠
            v.fs.winsect.toNat + i * v.fs.fsize.toNat := by
          intro i j he
          have hl : v.fs.winsect.toNat - v.fs.fatbase.toNat < v.fs.fsize.toNat := by omega
          have hkl := copy_inj (i := i) (j := j) hk hl (by omega)
          omega
        have hne0 := fun j => hne 0 j
        simp only [Nat.zero_mul, Nat.add_zero] at hne0
        rw [hrest _ (hne0 j) (fun _ i _ _ => hne i j), hrest _ hkw, h.mirror k hk j hj]
        intro _ i _ _ he
        exact hne i 0 (by rw [Nat.zero_mul]; omega)
    · have hout := h.windows.copy _ hW
      have hne : ∀ j < v.fs.nFats.toNat, v.fs.fatbase.toNat + j * v.fs.fsize.toNat + k ≠ v.fs.winsect.toNat := by
        intro j hj he
        have hlt := copy_lt hj hk
        rcases Nat.lt_or_ge v.fs.winsect.toNat (v.fs.fatbase.toNat + v.fs.fsize.toNat) with hin | hin
        · exact hfat ⟨by omega, hin⟩
        · exact hout ⟨hin, by omega⟩
      have hne0 := hne 0 (by omega)
      rw [Nat.zero_mul, Nat.add_zero] at hne0
      rw [hrest _ (hne j hj) (fun hx => absurd hx hfat), hrest _ hne0 (fun hx => absurd hx hfat), h.mirror k hk j hj]
  obtain ⟨hcoh, hlook⟩ := flushed (S := W) (l := v.fs.line) (m := FatFs.line { v.fs with wflag := 0 })
    (f := v.store) (g := sectorOf (D.cells d)) rfl rfl rfl hseen
  refine ⟨rfl, rfl, ⟨h.fits, h.windows, hcoh, hmirror⟩, hlook, fun s hs hc => hrest s ?_ ?_⟩
  · rintro rfl
    exact hs hW
  · rintro hfat j h0 hj rfl
    exact hc (hcopy hfat j h0 hj)

/-- **`sync_window` leaves the volume as it was, and the window clean.** -/
theorem syncWindow_returns (h : Mounted W v) : Returns (syncWindow v) (fun p => p.1 = .ok ∧ Kept W v p.2 ∧
    p.2.fs.wflag = 0 ∧ p.2.fs.winsect = v.fs.winsect ∧ p.2.fs.win = v.fs.win) := by
  rw [syncWindow]
  by_cases hd : v.fs.wflag = 0
  · rw [if_neg (not_not.2 hd)]
    exact ⟨rfl, .refl h, hd, rfl, rfl⟩
  have hW : v.fs.winsect.toNat ∈ W := h.coherent.held (by simpa [FatFs.line] using hd)
  have hlt := h.windows.lt _ hW
  obtain ⟨d₁, hwrite, hcells⟩ := D.write_served v.fs.win v.fs.winsect 1 v.disk hlt
  have hstore := write_store hcells
  rw [if_pos hd]
  have hiff := h.fits.isFat_iff D.sectors_le hlt
  by_cases hfat : v.fs.IsFat v.fs.winsect.toNat
  · have harea := h.fits.area_le
    have hpos := h.fits.nFats
    have hlo := hfat.1
    have hhi := hfat.2
    have hcopy := copy_lt (f := v.fs.fsize.toNat) (k := v.fs.winsect.toNat - v.fs.fatbase.toNat)
      (show v.fs.nFats.toNat - 1 < v.fs.nFats.toNat by omega) (by omega)
    simp only [h.fits.drv, hwrite, ok_bind, ne_eq, not_true_eq_false, if_false, if_pos (hiff.2 hfat)]
    refine Sat.bind (reflect_returns { v.fs with wflag := 0 } h.fits.drv (by show _ + _ * v.fs.fsize.toNat < _; omega)) ?_
    rintro d ⟨hcopies, hrest⟩
    refine ⟨rfl, written h hd ?_ (fun _ j h0 hj => hcopies j h0 (by omega)) ?_, rfl, rfl, rfl⟩
    · rw [hrest _ (fun j h0 _ he => ?_), hstore, Function.update_self]
      have hz : j * v.fs.fsize.toNat = 0 := by
        have : j * v.fs.fsize.toNat = j * ({ v.fs with wflag := 0 } : FatFs).fsize.toNat := rfl
        omega
      rcases Nat.mul_eq_zero.1 hz with h1 | h1 <;> omega
    · intro s hs hn
      rw [hrest s (fun j h0 hj => hn hfat j h0 (by omega)), hstore, Function.update_of_ne hs]
      rfl
  · simp only [h.fits.drv, hwrite, ok_bind, ne_eq, not_true_eq_false, if_false, if_neg (mt hiff.1 hfat)]
    refine ⟨rfl, written h hd ?_ (fun hx => absurd hx hfat) ?_, rfl, rfl, rfl⟩
    · rw [hstore, Function.update_self]
    · intro s hs _
      rw [hstore, Function.update_of_ne hs]
      rfl

/-- **`move_window` leaves the volume as it was, with the sector in the window.** -/
theorem moveWindow_returns (h : Mounted W v) {sector : BitVec 64} (hs : sector.toNat ∈ W) :
    Returns (moveWindow v sector) (fun p => p.1 = .ok ∧ Kept W v p.2 ∧ p.2.fs.winsect = sector) := by
  rw [moveWindow]
  by_cases he : sector = v.fs.winsect
  · rw [if_neg (not_not.2 he)]
    exact ⟨rfl, .refl h, he.symm⟩
  rw [if_pos he]
  refine Sat.bind (syncWindow_returns h) ?_
  rintro ⟨r, v₁⟩ ⟨rfl, hkept, hclean, -, -⟩
  replace hkept : Kept W v v₁ := hkept
  replace hclean : v₁.fs.wflag = 0 := hclean
  have hm := hkept.mounted
  have hread := D.read_served v₁.fs.win sector 1 v₁.disk (hm.windows.lt _ hs)
  simp only [if_true, hm.fits.drv, hread, ok_bind, ne_eq, not_true_eq_false, if_false]
  have hval : sectorOf (memcpy v₁.fs.win 0 (D.cells v₁.disk) (sector.toNat * 512) ((1 : BitVec 32).toNat * 512)) 0 =
      v₁.store sector.toNat := (sectorOf_memcpy_to ..).trans (if_pos (by decide))
  have hflag : decide (v₁.fs.wflag ≠ 0) = false := by simp [hclean]
  generalize memcpy v₁.fs.win 0 (D.cells v₁.disk) _ _ = win at hval ⊢
  obtain ⟨hcoh, hview⟩ := loaded (S := W) (l := ⟨sector.toNat, sectorOf win 0, decide (v₁.fs.wflag ≠ 0)⟩) (f := v₁.store)
    hval hflag
  refine ⟨rfl, hkept.trans ⟨rfl, rfl, ⟨hm.fits, hm.windows, hcoh, hm.mirror⟩, fun s hs => ?_, fun _ _ _ => rfl⟩, rfl⟩
  -- nothing was in the window that the drive had not
  exact (congrFun hview s).trans (hm.coherent.view_clean hflag hs).symm

/-- **A change of the window is one of its sector.** -/
theorem edit_mounted (h : Mounted W v) (hs : v.fs.winsect.toNat ∈ W) (win : Bytes) :
    Mounted W (v.edit win) ∧ (v.edit win).look = Function.update v.look v.fs.winsect.toNat (sectorOf win 0) := by
  obtain ⟨hcoh, hview⟩ := changed (S := W) (l := v.fs.line) (m := (v.edit win).fs.line) (f := v.store) rfl rfl hs
  exact ⟨⟨h.fits, h.windows, hcoh, h.mirror⟩, hview⟩

/-! ## Volumes whose window may be anywhere -/

/-- All sectors but the copies of the FAT. -/
def Geometry.window (g : Geometry) (n : Nat) : Set Nat := {s | s < n ∧ ¬ g.IsCopy s}

theorem Geometry.Fits.windows {g : Geometry} {n : Nat} (h : g.Fits n) : g.Windows n (g.window n) where
  lt := fun _ hs => hs.1
  fat := fun s ⟨h1, h2⟩ => ⟨by have := h.fat_le; omega, fun hc => absurd hc.1 (by omega)⟩
  copy := fun _ hs => hs.2
  info := fun h32 => by
    have h1 := h.info h32
    have h2 := h.fat_le
    exact ⟨by omega, fun hc => absurd hc.1 (by omega)⟩

/-- Eight clusters of one sector on the RAM disk, under FAT12 with two copies of the FAT, and all of them free. -/
def emptyVol : Vol ramDisk where
  fs :=
    { fsType := .fat12, drv := 0, nFats := 2, id := 1, nRootdir := 16, csize := 1, nFatent := 10, fsize := 1, volbase := 0,
      fatbase := 1, dirbase := 3, database := 4, fsiFlag := 0x80, lastClst := 0xFFFFFFFF, freeClst := 8, wflag := 0,
      winsect := 0xFFFFFFFF, win := fun _ => 0 }
  disk := fun _ => 0

theorem emptyVol_fits : emptyVol.fs.Fits ramDisk.sectors := by
  refine ⟨rfl, by decide, by decide, by decide, by decide, by decide, by decide, by decide, ⟨0, rfl⟩, by decide, by decide⟩

theorem emptyVol_mounted : Mounted (emptyVol.fs.window ramDisk.sectors) emptyVol :=
  ⟨emptyVol_fits, emptyVol_fits.windows, .of_clean rfl fun hs => absurd hs.1 (by decide), fun _ _ _ _ => rfl⟩

end Fatfs
end CheriOS
