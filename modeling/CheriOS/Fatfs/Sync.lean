import CheriOS.Fatfs.Fat
import CheriOS.Lib.Sequential
/-!
# Sync — the table on the drive (`ff.c`)

Between two calls of `sync_fs` the FAT may be partly in the window and partly on the drive.  To its callers it is a table
all the time, and after `sync_fs` every copy of the FAT on the drive is that table.
-/
namespace CheriOS
namespace Fatfs

open Outcome WriteBack

variable {D : Disk}

/-- `FSInfo`, as `sync_fs` makes it of `free_clst` and `last_clst`. -/
def fsInfo (freeClst lastClst : BitVec 64) : Bytes :=
  let win : Bytes := fun _ => 0
  let win := stWord win 510 0xAA55
  let win := stDword win 0 0x41615252
  let win := stDword win 484 0x61417272
  let win := stDword win 488 freeClst
  stDword win 492 lastClst

def syncFs (v : Vol D) : Except Halt (Fresult × Vol D) := do
  let (res, v) ← syncWindow v
  if res = .ok then
    let v ←
      if v.fs.fsType = .fat32 ∧ v.fs.fsiFlag = 1 then do
        let fs := { v.fs with win := fsInfo v.fs.freeClst v.fs.lastClst, winsect := v.fs.volbase + 1 }
        let (_, d) ← D.write fs.drv fs.win fs.winsect 1 v.disk
        pure ⟨{ fs with fsiFlag := 0 }, d⟩
      else pure v
    let (r, _) ← D.ioctl v.fs.drv ctrlSync 0 v.disk
    return (if r ≠ .ok then .diskErr else .ok, v)
  else return (res, v)

variable {W : Set Nat} {v v' : Vol D}

/-- **What is on the drive**: `W` as it is seen. -/
def Flushed (W : Set Nat) (v : Vol D) : Prop := ∀ s ∈ W, v.store s = v.look s

/-- **`sync_fs` puts on the drive what is seen**, and the FSInfo sector is all that it changes. -/
theorem syncFs_returns (hm : Mounted W v) : Returns (syncFs v) (fun p => p.1 = .ok ∧
    p.2.fs.toGeometry = v.fs.toGeometry ∧ p.2.fs.freeClst = v.fs.freeClst ∧ p.2.fs.lastClst = v.fs.lastClst ∧
    Mounted W p.2 ∧ Flushed W p.2 ∧
    (∀ s ∈ W, ¬ v.fs.IsInfo s → p.2.look s = v.look s) ∧
    (∀ s, s ∉ W → ¬ v.fs.IsCopy s → p.2.store s = v.store s) ∧
    (v.fs.fsType = .fat32 ∧ v.fs.fsiFlag = 1 →
      p.2.fs.fsiFlag = 0 ∧ p.2.look (v.fs.volbase.toNat + 1) = sectorOf (fsInfo v.fs.freeClst v.fs.lastClst) 0) ∧
    (¬ (v.fs.fsType = .fat32 ∧ v.fs.fsiFlag = 1) →
      p.2.fs.toFsInfo = v.fs.toFsInfo ∧ ∀ s ∈ W, p.2.look s = v.look s)) := by
  rw [syncFs]
  refine Sat.bind (syncWindow_returns hm) ?_
  rintro ⟨r, v₁⟩ ⟨rfl, hk, hclean, -, -⟩
  replace hk : Kept W v v₁ := hk
  replace hclean : v₁.fs.wflag = 0 := hclean
  have hm₁ := hk.mounted
  have hg := hk.geometry
  have hflag : v₁.fs.line.dirty = false := by simp [FatFs.line, hclean]
  have hlook : ∀ s ∈ W, v₁.store s = v.look s := fun s hs =>
    (hm₁.coherent.view_clean hflag hs).symm.trans (hk.look s hs)
  have hfree : v₁.fs.freeClst = v.fs.freeClst := congrArg FsInfo.freeClst hk.info
  have hlast : v₁.fs.lastClst = v.fs.lastClst := congrArg FsInfo.lastClst hk.info
  have hcond : (v.fs.fsType = .fat32 ∧ v.fs.fsiFlag = 1) ↔ (v₁.fs.fsType = .fat32 ∧ v₁.fs.fsiFlag = 1) := by
    rw [hg, show v₁.fs.fsiFlag = v.fs.fsiFlag from congrArg FsInfo.fsiFlag hk.info]
  simp only [if_true]
  by_cases hinfo : v₁.fs.fsType = .fat32 ∧ v₁.fs.fsiFlag = 1
  · have hlt := hm₁.fits.info hinfo.1
    have hle := hm₁.fits.fat_le
    have hmax := D.sectors_le
    have hsect : (v₁.fs.volbase + 1).toNat = v₁.fs.volbase.toNat + 1 := by
      rw [BitVec.toNat_add]
      show (_ + 1) % _ = _
      omega
    have hW : (v₁.fs.volbase + 1).toNat ∈ W := hsect ▸ hm₁.windows.info hinfo.1
    obtain ⟨d, hwrite, hcells⟩ := D.write_served (fsInfo v₁.fs.freeClst v₁.fs.lastClst) (v₁.fs.volbase + 1) 1 v₁.disk
      (hm₁.windows.lt _ hW)
    have hstore := write_store hcells
    rw [if_pos hinfo, hm₁.fits.drv]
    simp only [hwrite, ok_bind, pure_bind, hm₁.fits.drv, D.sync_served]
    obtain ⟨hcoh, hview⟩ := loaded (S := W) (l := FatFs.line { v₁.fs with
      win := fsInfo v₁.fs.freeClst v₁.fs.lastClst, winsect := v₁.fs.volbase + 1, fsiFlag := 0 })
      (f := sectorOf (D.cells d)) ((congrFun hstore _).trans (Function.update_self ..)).symm hflag
    have hother : ∀ s, ¬ v.fs.IsInfo s → sectorOf (D.cells d) s = v₁.store s := by
      intro s hs
      rw [hstore, Function.update_of_ne]
      · rfl
      · rw [hsect, hg]
        exact fun he => hs ⟨hg ▸ hinfo.1, he⟩
    have hfat : ∀ s, v.fs.fatbase.toNat ≤ s → ¬ v.fs.IsInfo s := by
      rintro s hs ⟨-, rfl⟩
      rw [hg] at hlt
      omega
    have hmirror : ∀ k < v₁.fs.fsize.toNat, ∀ j < v₁.fs.nFats.toNat,
        sectorOf (D.cells d) (v₁.fs.fatbase.toNat + j * v₁.fs.fsize.toNat + k) =
          sectorOf (D.cells d) (v₁.fs.fatbase.toNat + k) := by
      intro k hk j hj
      rw [hother _ (hfat _ (by rw [hg]; omega)), hother _ (hfat _ (by rw [hg]; omega))]
      exact hm₁.mirror k hk j hj
    refine ⟨rfl, hg, hfree, hlast, ⟨hm₁.fits, hm₁.windows, hcoh, hmirror⟩, fun s _ => (congrFun hview s).symm, ?_, ?_,
      fun _ => ⟨rfl, ?_⟩, fun hn => absurd (hcond.2 hinfo) hn⟩
    · intro s hs hne
      exact (congrFun hview s).trans ((hother s hne).trans (hlook s hs))
    · intro s hs hc
      refine (hother s ?_).trans (hk.store s hs hc)
      rintro ⟨-, rfl⟩
      exact hs (by rw [← hg, ← hsect]; exact hW)
    · rw [← hg, ← hsect, ← hfree, ← hlast]
      exact Vol.look_self _
  · rw [if_neg hinfo]
    simp only [pure_bind, hm₁.fits.drv, D.sync_served, ok_bind]
    exact ⟨rfl, hg, hfree, hlast, hm₁, fun s hs => (hm₁.coherent.view_clean hflag hs).symm, fun s hs _ => hk.look s hs,
      hk.store, fun hi => absurd (hcond.1 hi) hinfo, fun _ => ⟨hk.info, hk.look⟩⟩

/-! ## Accesses, one after the other -/

/-- What is done to the FAT; in between, the window is moved to other sectors. -/
inductive Access where
  | get (clst : BitVec 64)
  | put (clst val : BitVec 64)
  | move (sector : BitVec 64)
  | sync
  deriving DecidableEq, Repr

inductive Answer where
  | value (n : Nat)
  | result (res : Fresult)
  deriving DecidableEq, Repr

def perform : Access → Vol D → Except Halt (Answer × Vol D)
  | .get clst, v => do
    let (val, v) ← getFat v clst
    return (.value val.toNat, v)
  | .put clst val, v => do
    let (res, v) ← putFat v clst val
    return (.result res, v)
  | .move sector, v => do
    let (res, v) ← moveWindow v sector
    return (.result res, v)
  | .sync, v => do
    let (res, v) ← syncFs v
    return (.result res, v)

instance (g : Geometry) (c : Nat) : Decidable (g.Cluster c) := inferInstanceAs (Decidable (_ ∧ _))

/-- **The table that the FAT is to its callers.** -/
def tableObject (g : Geometry) : Sequential.Object Access Answer (Nat → Nat)
  | .get clst, t => (.value (if g.Cluster clst.toNat then t clst.toNat else 1), t)
  | .put clst val, t =>
    if g.Cluster clst.toNat then (.result .ok, Function.update t clst.toNat (val.toNat % 2 ^ g.fsType.width))
    else (.result .intErr, t)
  | .move _, t => (.result .ok, t)
  | .sync, t => (.result .ok, t)

/-- The bytes of a copy of the FAT on the drive, the first being the FAT itself. -/
def Vol.copy (v : Vol D) (j : Nat) : Bytes :=
  fun n => v.store (v.fs.fatbase.toNat + j * v.fs.fsize.toNat + n / 512) ⟨n % 512, offset_lt n⟩

/-- **All copies of the FAT on the drive are the table.** -/
def Durable (v : Vol D) (t : Nat → Nat) : Prop :=
  ∀ j < v.fs.nFats.toNat, ∀ c < v.fs.nFatent.toNat,
    Packed.entry (v.copy j) v.fs.fsType.stride v.fs.fsType.width c = t c

/-- The volume `v` since it was `v₀`: only the FAT, its copies and the FSInfo sector may have changed. -/
structure Since (W : Set Nat) (v₀ v : Vol D) : Prop where
  geometry : v.fs.toGeometry = v₀.fs.toGeometry
  mounted : Mounted W v
  look : ∀ s ∈ W, ¬ v₀.fs.IsFat s → ¬ v₀.fs.IsInfo s → v.look s = v₀.look s
  store : ∀ s, s ∉ W → ¬ v₀.fs.IsCopy s → v.store s = v₀.store s

variable {v₀ : Vol D}

theorem Since.changed (h : Since W v₀ v) (ha : Changed W v v') : Since W v₀ v' where
  geometry := ha.geometry.trans h.geometry
  mounted := ha.mounted
  look := fun s hs hf hi => (ha.look s hs (h.geometry ▸ hf)).trans (h.look s hs hf hi)
  store := fun s hs hc => (ha.store s hs (h.geometry ▸ hc)).trans (h.store s hs hc)

/-- What is on the drive is in every copy. -/
theorem durable_of_flushed (hm : Mounted W v) (hf : Flushed W v) : Durable v v.table := by
  intro j hj c hc
  rw [Vol.table, if_pos hc]
  refine Packed.entry_congr fun k hk => ?_
  have hlt := hm.fits.bit_lt hc hk
  rw [Packed.bit, Packed.bit]
  congr 1
  show v.store (_ + j * _ + _) _ = v.look _ _
  rw [hm.mirror _ (by omega) j hj, hf _ (hm.windows.fat _ (fat_sector hlt))]

theorem syncFs_table (hs : Since W v₀ v) : Returns (syncFs v) (fun p => p.1 = .ok ∧ Since W v₀ p.2 ∧
    p.2.table = v.table ∧ p.2.fs.freeClst = v.fs.freeClst ∧ Durable p.2 p.2.table) := by
  have hm := hs.mounted
  refine Sat.mono (syncFs_returns hm) ?_ (fun _ => id)
  rintro ⟨r, v'⟩ ⟨hr, hg, hfree, -, hm', hf, hlook, hstore, -⟩
  refine ⟨hr, ⟨hg.trans hs.geometry, hm', ?_, ?_⟩, ?_, hfree, durable_of_flushed hm' hf⟩
  · intro s hsW hfat hne
    exact (hlook s hsW (by rw [hs.geometry]; exact hne)).trans (hs.look s hsW hfat hne)
  · intro s hsW hc
    exact (hstore s hsW (by rw [hs.geometry]; exact hc)).trans (hs.store s hsW hc)
  · refine table_congr hg hm.fits fun n hn => ?_
    have hsect := fat_sector (v := v) hn
    have hne : ¬ v.fs.IsInfo (v.fs.fatbase.toNat + n / 512) := by
      rintro ⟨h32, he⟩
      have := hm.fits.info h32
      omega
    unfold Vol.fat
    rw [hg, hlook _ (hm.windows.fat _ hsect) hne]

/-- The volume as it is mounted. -/
theorem Since.refl (hm : Mounted W v) : Since W v v := ⟨rfl, hm, fun _ _ _ _ => rfl, fun _ _ _ => rfl⟩

/-- **One access is one of the table.** -/
theorem perform_returns (a : Access) (ha : ∀ s, a = .move s → s.toNat ∈ W) (h : Since W v₀ v) :
    Returns (perform a v) (fun p => p.1 = (tableObject v₀.fs.toGeometry a v.table).1 ∧ Since W v₀ p.2 ∧
      p.2.table = (tableObject v₀.fs.toGeometry a v.table).2) := by
  have hm := h.mounted
  have hg := h.geometry
  cases a with
  | get clst =>
    by_cases hc : v₀.fs.Cluster clst.toNat
    · simp only [tableObject, if_pos hc]
      refine Sat.bind (getFat_returns hm (hg ▸ hc)) ?_
      rintro ⟨val, v'⟩ ⟨hval, hk⟩
      exact ⟨congrArg Answer.value hval, h.changed hk.altered.toChanged, hk.table hm⟩
    · simp only [tableObject, if_neg hc, perform, getFat_invalid (hg ▸ hc)]
      exact ⟨rfl, h, rfl⟩
  | put clst val =>
    by_cases hc : v₀.fs.Cluster clst.toNat
    · simp only [tableObject, if_pos hc]
      refine Sat.bind (putFat_returns hm (hg ▸ hc) val) ?_
      rintro ⟨res, v'⟩ ⟨hres, hk, htab⟩
      rw [hg] at htab
      exact ⟨congrArg Answer.result hres, h.changed hk.toChanged, htab⟩
    · simp only [tableObject, if_neg hc, perform, putFat_invalid (hg ▸ hc)]
      exact ⟨rfl, h, rfl⟩
  | move sector =>
    refine Sat.bind (moveWindow_returns hm (ha sector rfl)) ?_
    rintro ⟨res, v'⟩ ⟨hres, hk, -⟩
    exact ⟨congrArg Answer.result hres, h.changed hk.altered.toChanged, hk.table hm⟩
  | sync =>
    refine Sat.bind (syncFs_table h) ?_
    rintro ⟨res, v'⟩ ⟨hres, hs, htab, -, -⟩
    exact ⟨congrArg Answer.result hres, hs, htab⟩

/-- **The FAT is a table**: whatever accesses are made of it, and wherever the window is moved in between, each call
answers as a table of 12, 16 or 28 bits does and nothing else on the volume changes; and `sync_fs` then makes every copy
of the FAT on the drive that table. -/
theorem accesses_refine (hm : Mounted W v) (as : List Access) (hW : ∀ a ∈ as, ∀ s, a = .move s → s.toNat ∈ W) :
    Returns (Sequential.serve perform v as) (fun p =>
      p.1 = Sequential.answers (tableObject v.fs.toGeometry) v.table as ∧ Since W v p.2 ∧
      Returns (syncFs p.2) (fun q => q.1 = .ok ∧ Since W v q.2 ∧
        Durable q.2 (Sequential.after (tableObject v.fs.toGeometry) v.table as))) := by
  refine Sat.mono (Sequential.serve_returns (f := tableObject v.fs.toGeometry)
    (R := fun v' t => Since W v v' ∧ v'.table = t) (fun a v' t ha hR => ?_) hW ⟨.refl hm, rfl⟩) ?_ (fun _ => id)
  · obtain ⟨hs, rfl⟩ := hR
    exact perform_returns a ha hs
  · rintro ⟨os, v'⟩ ⟨hos, hs, htab⟩
    refine ⟨hos, hs, Sat.mono (syncFs_table hs) ?_ (fun _ => id)⟩
    rintro ⟨r, v''⟩ ⟨hr, hs', htab', -, hdur⟩
    refine ⟨hr, hs', ?_⟩
    rw [← show v'.table = _ from htab, ← show v''.table = v'.table from htab']
    exact hdur

theorem accesses_refine_emptyVol :
    Returns (Sequential.serve perform emptyVol [.put 2 3, .move 0, .put 3 0xFFF, .get 2]) (fun p =>
      p.1 = [.result .ok, .result .ok, .result .ok, .value 3] ∧ Since (emptyVol.fs.window ramDisk.sectors) emptyVol p.2 ∧
      Returns (syncFs p.2) (fun q => q.1 = .ok ∧ Since (emptyVol.fs.window ramDisk.sectors) emptyVol q.2 ∧
        Durable q.2 (Sequential.after (tableObject emptyVol.fs.toGeometry) emptyVol.table
          [.put 2 3, .move 0, .put 3 0xFFF, .get 2]))) := by
  refine Sat.mono (accesses_refine emptyVol_mounted [.put 2 3, .move 0, .put 3 0xFFF, .get 2] ?_)
    (fun p hp => ⟨hp.1.trans ?_, hp.2⟩) (fun _ => id)
  · rintro a ha s rfl
    simp only [List.mem_cons, reduceCtorEq, Access.move.injEq, List.not_mem_nil, or_false, false_or] at ha
    subst ha
    exact ⟨by decide, fun hc => absurd hc.1 (by decide)⟩
  · simp [Sequential.answers, tableObject]
    decide

end Fatfs
end CheriOS
