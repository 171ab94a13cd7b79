import CheriOS.Fatfs.Chains
import CheriOS.Fatfs.Mount
import Mathlib.Data.List.Find
/-!
# Remount — a volume that is mounted again (`ff.c`)

What is kept in a `FATFS` is lost when the program ends.  After `sync_fs` it is on the drive: whoever mounts the drive then
has the same volume, with the same FAT and the same chains, and on FAT32 with the numbers of the FSInfo sector.
-/
namespace CheriOS
namespace Fatfs

open Outcome Chain

variable {D : Disk} {W : Set Nat} {v v' : Vol D} {s : Chains D} {f f' : Nat → Sector} {bsect : BitVec 64}

/-! ## The FSInfo sector -/

/-- A number as it is in the FSInfo sector, which has 32 bits for it. -/
def saved (x : BitVec 64) : BitVec 64 := (x.setWidth 32).setWidth 64

theorem getLsbD_saved (x : BitVec 64) (k : Nat) : (saved x).getLsbD k = (decide (k < 32) && x.getLsbD k) := by
  rw [saved, BitVec.getLsbD_setWidth, BitVec.getLsbD_setWidth]
  by_cases hk : k < 32
  · simp [hk, show k < 64 by omega]
  · simp [hk]

theorem saved_ldDword (p : Bytes) (i : Nat) : saved (ldDword p i) = ldDword p i := by
  refine BitVec.eq_of_getLsbD_eq fun k _ => ?_
  rw [getLsbD_saved, getLsbD_ldDword, ← Bool.and_assoc, Bool.and_self]

theorem ldDword_stDword (p : Bytes) (i : Nat) (x : BitVec 64) : ldDword (stDword p i x) i = saved x := by
  refine BitVec.eq_of_getLsbD_eq fun k _ => ?_
  rw [getLsbD_saved, getLsbD_ldDword, bit_stDword]
  by_cases hk : k < 32
  · rw [if_pos ⟨by omega, by omega⟩, Nat.add_sub_cancel_left]
  · rw [decide_eq_false hk, Bool.false_and, Bool.false_and]

theorem ldDword_stDword_ne (p : Bytes) {i j : Nat} (x : BitVec 64) (h : i + 4 ≤ j ∨ j + 4 ≤ i) :
    ldDword (stDword p j x) i = ldDword p i := by
  refine BitVec.eq_of_getLsbD_eq fun k _ => ?_
  rw [getLsbD_ldDword, getLsbD_ldDword, bit_stDword]
  by_cases hk : k < 32
  · rw [if_neg (by omega)]
  · rw [decide_eq_false hk, Bool.false_and, Bool.false_and]

theorem ldWord_stDword_ne (p : Bytes) {i j : Nat} (x : BitVec 64) (h : i + 2 ≤ j ∨ j + 4 ≤ i) :
    ldWord (stDword p j x) i = ldWord p i := by
  refine BitVec.eq_of_getLsbD_eq fun k _ => ?_
  rw [getLsbD_ldWord, getLsbD_ldWord, bit_stDword]
  by_cases hk : k < 16
  · rw [if_neg (by omega)]
  · rw [decide_eq_false hk, Bool.false_and, Bool.false_and]

theorem ldWord_stWord (p : Bytes) (i : Nat) (x : BitVec 16) : ldWord (stWord p i x) i = x := by
  refine BitVec.eq_of_getLsbD_eq fun k hk => ?_
  rw [getLsbD_ldWord, bit_stWord, if_pos ⟨by omega, by omega⟩, Nat.add_sub_cancel_left, decide_eq_true hk, Bool.true_and]

/-- **What `sync_fs` writes to the FSInfo sector is what `find_volume` reads of it.** -/
theorem loadInfo_fsInfo (free last : BitVec 64) :
    loadInfo (fsInfo free last) = { fsiFlag := 0, lastClst := saved last, freeClst := saved free } := by
  have h510 : ldWord (fsInfo free last) 510 = 0xAA55 := by
    rw [fsInfo, ldWord_stDword_ne _ _ (by decide), ldWord_stDword_ne _ _ (by decide), ldWord_stDword_ne _ _ (by decide),
      ldWord_stDword_ne _ _ (by decide), ldWord_stWord]
  have h0 : ldDword (fsInfo free last) 0 = 0x41615252 := by
    rw [fsInfo, ldDword_stDword_ne _ _ (by decide), ldDword_stDword_ne _ _ (by decide), ldDword_stDword_ne _ _ (by decide),
      ldDword_stDword]
    decide
  have h484 : ldDword (fsInfo free last) 484 = 0x61417272 := by
    rw [fsInfo, ldDword_stDword_ne _ _ (by decide), ldDword_stDword_ne _ _ (by decide), ldDword_stDword]
    decide
  have h488 : ldDword (fsInfo free last) 488 = saved free := by
    rw [fsInfo, ldDword_stDword_ne _ _ (by decide), ldDword_stDword]
  have h492 : ldDword (fsInfo free last) 492 = saved last := by
    rw [fsInfo, ldDword_stDword]
  rw [loadInfo, if_pos ⟨h510, h0, h484⟩, h488, h492]

/-- Numbers from an FSInfo sector have room there. -/
theorem saved_loadInfo (w : Bytes) : (loadInfo w).fsiFlag = 0 ∧ saved (loadInfo w).freeClst = (loadInfo w).freeClst ∧
    saved (loadInfo w).lastClst = (loadInfo w).lastClst := by
  unfold loadInfo
  split
  · exact ⟨rfl, saved_ldDword w 488, saved_ldDword w 492⟩
  · decide

/-! ## What the boot sector says stays -/

/-- The sectors a mount looks at to find the volume at `bsect`. -/
def Boot (f : Nat → Sector) (bsect : BitVec 64) (s : Nat) : Prop :=
  s = 0 ∨ s = bsect.toNat ∨ bootKind (bytesOf (f 0)) = 2 ∧ ∃ b ∈ partitions (bytesOf (f 0)), s = b.toNat

theorem Fitting.congr {n : Nat} (h : Fitting n f bsect) (hf : ∀ s, Boot f bsect s → f' s = f s) : Fitting n f' bsect := by
  have h0 : f' 0 = f 0 := hf 0 (.inl rfl)
  have hb : f' bsect.toNat = f bsect.toNat := hf _ (.inr (.inl rfl))
  have hblock : blockOf f' bsect = blockOf f bsect := by rw [blockOf, hb, blockOf]
  refine ⟨⟨?_, by rw [hblock]; exact h.accepted⟩, by rw [h0]; exact h.parts, by rw [hblock]; exact h.size,
    by rw [hblock]; exact h.fat32⟩
  have hstart := h.start
  unfold bootSector at hstart ⊢
  rw [h0]
  by_cases hk0 : bootKind (bytesOf (f 0)) = 0
  · rw [if_pos hk0] at hstart ⊢
    exact hstart
  by_cases hk2 : bootKind (bytesOf (f 0)) = 2
  · rw [if_neg hk0, if_pos hk2] at hstart ⊢
    rw [← hstart]
    refine List.find?_congr fun b hmem => ?_
    rw [hf b.toNat (.inr (.inr ⟨hk2, b, hmem, rfl⟩))]
  · rw [if_neg hk0, if_neg hk2] at hstart
    cases hstart

/-- The FSInfo sector is used. -/
def Bpb.HasInfo (b : Bpb) : Prop := fatType b.nclst = .fat32 ∧ b.fsInfo32 = 1

theorem Bpb.HasInfo.infoOf (h : (blockOf f bsect).HasInfo) :
    Fatfs.infoOf f bsect = loadInfo (bytesOf (f (bsect + 1).toNat)) := if_pos h

/-- The FSInfo sector, as it is seen, has the numbers, or is to be written. -/
structure InfoKept (v : Vol D) : Prop where
  flag : v.fs.fsiFlag = 0 ∨ v.fs.fsiFlag = 1
  free : v.fs.fsiFlag = 0 → (loadInfo (bytesOf (v.look (v.fs.volbase.toNat + 1)))).freeClst = saved v.fs.freeClst
  last : v.fs.fsiFlag = 0 → (loadInfo (bytesOf (v.look (v.fs.volbase.toNat + 1)))).lastClst = saved v.fs.lastClst

/-- **The volume is the one its sectors hold**, as they are seen, and the boot sectors are out of the way of the FAT. -/
structure Hosted (W : Set Nat) (v : Vol D) : Prop where
  window : W = v.fs.window D.sectors
  fitting : Fitting D.sectors v.look v.fs.volbase
  geometry : v.fs.toGeometry = (blockOf v.look v.fs.volbase).geometry v.fs.volbase v.fs.id
  apart : ∀ s, Boot v.look v.fs.volbase s → s ∈ W ∧ ¬ v.fs.IsFat s ∧ ¬ v.fs.IsInfo s
  info : (blockOf v.look v.fs.volbase).HasInfo → InfoKept v

theorem Hosted.changed (h : Hosted W v) (hg : v'.fs.toGeometry = v.fs.toGeometry)
    (hl : ∀ s ∈ W, ¬ v.fs.IsFat s → ¬ v.fs.IsInfo s → v'.look s = v.look s)
    (hi : v.fs.fsType = .fat32 → InfoKept v → InfoKept v') : Hosted W v' := by
  have hboot : ∀ s, Boot v.look v.fs.volbase s → v'.look s = v.look s := fun s hs => by
    obtain ⟨hW, hfat, hinfo⟩ := h.apart s hs
    exact hl s hW hfat hinfo
  have h0 : v'.look 0 = v.look 0 := hboot 0 (.inl rfl)
  have hb : v'.look v.fs.volbase.toNat = v.look v.fs.volbase.toNat := hboot _ (.inr (.inl rfl))
  have hblock : blockOf v'.look v.fs.volbase = blockOf v.look v.fs.volbase := by rw [blockOf, hb, blockOf]
  have hboot' : ∀ s, Boot v'.look v.fs.volbase s ↔ Boot v.look v.fs.volbase s := fun s => by
    unfold Boot
    rw [h0]
  refine ⟨by rw [hg]; exact h.window, ?_, ?_, ?_, ?_⟩
  · rw [hg]
    exact h.fitting.congr hboot
  · rw [hg, hblock]
    exact h.geometry
  · rw [hg]
    exact fun s hs => h.apart s ((hboot' s).1 hs)
  · rw [hg, hblock]
    intro hhas
    refine hi ?_ (h.info hhas)
    rw [h.geometry]
    exact hhas.1

/-! ## The calls -/

/-- The FSInfo sector is not touched, and where the numbers change they are to be written. -/
theorem Hosted.of_changed (h : Hosted W v) (hm : Mounted W v) (hch : Changed W v v')
    (hi : v.fs.fsiFlag = 0 ∨ v.fs.fsiFlag = 1 → v'.fs.toFsInfo = v.fs.toFsInfo ∨ v'.fs.fsiFlag = 1) : Hosted W v' := by
  refine h.changed hch.geometry (fun s hs hf _ => hch.look s hs hf) fun h32 hkept => ?_
  have hlt := hm.fits.info h32
  have hlook : v'.look (v.fs.volbase.toNat + 1) = v.look (v.fs.volbase.toNat + 1) :=
    hch.look _ (hm.windows.info h32) fun hf => absurd hf.1 (by omega)
  rcases hi hkept.flag with he | he
  · have hinfo : v'.fs.fsiFlag = v.fs.fsiFlag ∧ v'.fs.freeClst = v.fs.freeClst ∧ v'.fs.lastClst = v.fs.lastClst := by
      rw [he]
      exact ⟨rfl, rfl, rfl⟩
    obtain ⟨hflag, hfree, hlast⟩ := hinfo
    refine ⟨by rw [hflag]; exact hkept.flag, fun h0 => ?_, fun h0 => ?_⟩
    · rw [hch.geometry, hlook, hfree]
      exact hkept.free (hflag ▸ h0)
    · rw [hch.geometry, hlook, hlast]
      exact hkept.last (hflag ▸ h0)
  · exact ⟨.inr he, fun h0 => absurd (he.symm.trans h0) (by decide), fun h0 => absurd (he.symm.trans h0) (by decide)⟩

theorem flag_or_one {x : BitVec 8} (h : x = 0 ∨ x = 1) : x ||| 1 = 1 := by
  rcases h with rfl | rfl <;> decide

/-- Clusters are freed. -/
theorem freed_flag {i : FsInfo} (h : i.fsiFlag = 0 ∨ i.fsiFlag = 1) (m : Nat) :
    FsInfo.freed^[m] i = i ∨ (FsInfo.freed^[m] i).fsiFlag = 1 := by
  induction m with
  | zero => exact .inl rfl
  | succ m ih =>
    rw [Function.iterate_succ_apply']
    rcases ih with he | he
    · rw [he]
      unfold FsInfo.freed
      split
      · exact .inr (flag_or_one h)
      · exact .inl rfl
    · refine .inr ?_
      generalize FsInfo.freed^[m] i = j at he
      unfold FsInfo.freed
      split
      · exact flag_or_one (.inr he)
      · exact he

/-- **`sync_fs`** leaves the FSInfo sector with the numbers. -/
theorem Hosted.sync (h : Hosted W v) (hm : Mounted W v) : Returns (syncFs v) (fun p => p.1 = .ok ∧ Hosted W p.2 ∧
    Mounted W p.2 ∧ Flushed W p.2 ∧ p.2.fs.toGeometry = v.fs.toGeometry ∧ p.2.fs.freeClst = v.fs.freeClst ∧
    p.2.fs.lastClst = v.fs.lastClst ∧ ((blockOf v.look v.fs.volbase).HasInfo → p.2.fs.fsiFlag = 0)) := by
  refine Sat.mono (syncFs_returns hm) ?_ (fun _ => id)
  rintro ⟨r, v'⟩ ⟨hr, hg, hfree, hlast, hm', hf, hlook, -, hwritten, hsame⟩
  replace hg : v'.fs.toGeometry = v.fs.toGeometry := hg
  have hflag : (blockOf v.look v.fs.volbase).HasInfo → v'.fs.fsiFlag = 0 := fun hhas => by
    have h32 : v.fs.fsType = .fat32 := by
      rw [h.geometry]
      exact hhas.1
    by_cases hc : v.fs.fsType = .fat32 ∧ v.fs.fsiFlag = 1
    · exact (hwritten hc).1
    · have h0 := (h.info hhas).flag.resolve_right fun he => hc ⟨h32, he⟩
      exact (congrArg FsInfo.fsiFlag (hsame hc).1).trans h0
  refine ⟨hr, h.changed hg (fun s hs _ hi => hlook s hs hi) fun h32 hkept => ?_, hm', hf, hg, hfree, hlast, hflag⟩
  by_cases hc : v.fs.fsType = .fat32 ∧ v.fs.fsiFlag = 1
  · obtain ⟨h0, hsect⟩ := hwritten hc
    replace h0 : v'.fs.fsiFlag = 0 := h0
    replace hsect : v'.look (v.fs.volbase.toNat + 1) = _ := hsect
    refine ⟨.inl h0, fun _ => ?_, fun _ => ?_⟩
    · rw [hg, hsect, loadInfo_bytesOf, loadInfo_fsInfo, show v'.fs.freeClst = _ from hfree]
    · rw [hg, hsect, loadInfo_bytesOf, loadInfo_fsInfo, show v'.fs.lastClst = _ from hlast]
  · obtain ⟨hinfo, hl⟩ := hsame hc
    have hfl : v'.fs.fsiFlag = v.fs.fsiFlag := congrArg FsInfo.fsiFlag hinfo
    refine ⟨by rw [hfl]; exact hkept.flag, fun h0 => ?_, fun h0 => ?_⟩
    · rw [hg, show v'.look (v.fs.volbase.toNat + 1) = _ from hl _ (hm.windows.info h32), show v'.fs.freeClst = _ from hfree]
      exact hkept.free (hfl ▸ h0)
    · rw [hg, show v'.look (v.fs.volbase.toNat + 1) = _ from hl _ (hm.windows.info h32), show v'.fs.lastClst = _ from hlast]
      exact hkept.last (hfl ▸ h0)

theorem Hosted.step (h : Hosted W s.vol) (hs : Sound W s) (op : Op) : Returns (call op s) (fun p => Hosted W p.2.vol) := by
  cases op with
  | grow i =>
    refine Sat.mono (hs.grow i) ?_ (fun _ => id)
    rintro p ⟨-, hg⟩
    cases hg with
    | full v _ hk => exact h.of_changed hs.mounted hk.altered.toChanged fun _ => .inl hk.info
    | took n v _ _ hch _ hi =>
      refine h.of_changed hs.mounted hch fun hflag => .inr ?_
      exact (congrArg FsInfo.fsiFlag hi).trans (flag_or_one hflag)
  | follow i k =>
    refine Sat.mono (hs.follow i k) ?_ (fun _ => id)
    rintro p ⟨-, hk, -⟩
    exact h.of_changed hs.mounted hk.altered.toChanged fun _ => .inl hk.info
  | truncate i k =>
    refine Sat.mono (hs.truncate i k) ?_ (fun _ => id)
    rintro p ⟨-, hc⟩
    refine h.of_changed hs.mounted hc.changed fun hflag => ?_
    rw [hc.info]
    exact freed_flag hflag _
  | sync =>
    rw [call]
    exact Sat.bind (h.sync hs.mounted) fun p hp => hp.2.1

/-! ## The volume is mounted again -/

/-- **The volume `v'` is that of `s`**: the same geometry under another number, the same FAT, the chains of the same files,
and the numbers of the FSInfo sector where it is used. -/
structure Restored (s : Chains D) (v' : Vol D) : Prop where
  geometry : v'.fs.toGeometry = { s.vol.fs.toGeometry with id := v'.fs.id }
  table : v'.table = s.vol.table
  sound : Sound (v'.fs.window D.sectors) { s with vol := v' }
  free : (blockOf s.vol.look s.vol.fs.volbase).HasInfo → v'.fs.freeClst = saved s.vol.fs.freeClst
  last : (blockOf s.vol.look s.vol.fs.volbase).HasInfo → v'.fs.lastClst = saved s.vol.fs.lastClst

/-- What is on the drive after `sync_fs` is mounted as the same volume, by whomever. -/
def Remounts (s : Chains D) : Prop :=
  Returns (syncFs s.vol) (fun r => r.1 = .ok ∧ ∀ (fs : FatFs) (path : Path) (reg : Option FatFs) (fsid : BitVec 16),
    getLdnumber path = true → Returns (fMount (some fs) path 1 ⟨reg, fsid, r.2.disk⟩) (fun t => t.1 = .ok ∧
      ∃ v' : Vol D, t.2 = ⟨some v'.fs, fsid + 1, v'.disk⟩ ∧ Restored s v'))

/-- The boot sectors say on the drive what they are seen to say. -/
theorem Hosted.whole (h : Hosted W v) (hm : Mounted W v) (hf : Flushed W v) :
    Whole D.sectors v.store v.fs.volbase ∧ blockOf v.store v.fs.volbase = blockOf v.look v.fs.volbase := by
  have hboot : ∀ s, Boot v.look v.fs.volbase s → v.store s = v.look s := fun s hs => hf s (h.apart s hs).1
  have hblock : blockOf v.store v.fs.volbase = blockOf v.look v.fs.volbase := by
    rw [blockOf, hboot _ (.inr (.inl rfl)), blockOf]
  refine ⟨⟨h.fitting.congr hboot, ?_⟩, hblock⟩
  have hmirror := hm.mirror
  rw [h.geometry] at hmirror
  rw [hblock]
  exact hmirror

/-- A volume under another number has the same FAT. -/
theorem table_of_id {id : BitVec 16} (hg : v'.fs.toGeometry = { v.fs.toGeometry with id := id }) (hfit : v.fs.Fits D.sectors)
    (hl : ∀ s, v.fs.IsFat s → v'.look s = v.look s) : v'.table = v.table := by
  have hg' : ({ v' with fs := { v'.fs with id := v.fs.id } } : Vol D).fs.toGeometry = v.fs.toGeometry := by
    show ({ v'.fs.toGeometry with id := v.fs.id } : Geometry) = _
    rw [hg]
  suffices hfat : ∀ n < v.fs.fsize.toNat * 512, v'.fat n = v.fat n from
    @table_congr D v { v' with fs := { v'.fs with id := v.fs.id } } hg' hfit hfat
  intro n hn
  have hbase : v'.fs.fatbase = v.fs.fatbase := by rw [hg]
  show v'.look (v'.fs.fatbase.toNat + n / 512) _ = v.look _ _
  rw [hbase, hl _ (fat_sector hn)]

theorem Hosted.remounts (h : Hosted W s.vol) (hs : Sound W s) : Remounts s := by
  refine Sat.mono ((h.sync hs.mounted).and (syncFs_table (.refl hs.mounted))) ?_ (fun _ => id)
  rintro ⟨r, v⟩ ⟨⟨hr, hh, hm, hf, hg, hfree, hlast, hflag⟩, -, hsince, htab, -⟩
  replace hh : Hosted W v := hh
  replace hm : Mounted W v := hm
  replace hf : Flushed W v := hf
  replace hg : v.fs.toGeometry = s.vol.fs.toGeometry := hg
  replace htab : v.table = s.vol.table := htab
  obtain ⟨hwhole, hblock⟩ := hh.whole hm hf
  refine ⟨hr, fun fs path reg fsid hpath => ?_⟩
  refine Sat.mono (fMount_whole (s := ⟨reg, fsid, v.disk⟩) fs hpath hwhole) ?_ (fun _ => id)
  rintro ⟨t, sys⟩ ⟨ht, v', hsys, hmounts⟩
  refine ⟨ht, v', hsys, ?_⟩
  have hg' : v'.fs.toGeometry = { v.fs.toGeometry with id := fsid + 1 } := by
    rw [hmounts.geometry]
    show (blockOf v.store _).geometry _ _ = _
    rw [hblock, hh.geometry]
    rfl
  have hid : v'.fs.id = fsid + 1 := by rw [hg']
  have hclean : v'.fs.line.dirty = false := by simp [FatFs.line, hmounts.clean]
  -- what is seen of the FAT is on the drive, before and now
  have hfat : ∀ k, v.fs.IsFat k → v'.look k = v.look k := fun k hk => by
    have hk' : v'.fs.IsFat k := by
      rw [hg']
      exact hk
    rw [← hf k (hm.windows.fat k hk)]
    refine (hmounts.mounted.coherent.view_clean hclean (hmounts.mounted.windows.fat k hk')).trans ?_
    exact congrFun hmounts.store k
  have htab' : v'.table = s.vol.table := (table_of_id hg' hm.fits hfat).trans htab
  -- the numbers are those of the FSInfo sector
  have hsame : blockOf v.look v.fs.volbase = blockOf s.vol.look s.vol.fs.volbase := by
    obtain ⟨hW, hnot, hinfo⟩ := h.apart s.vol.fs.volbase.toNat (.inr (.inl rfl))
    rw [hg, blockOf, hsince.look _ hW hnot hinfo, blockOf]
  have hload : (blockOf s.vol.look s.vol.fs.volbase).HasInfo →
      v'.fs.toFsInfo = loadInfo (bytesOf (v.look (v.fs.volbase.toNat + 1))) ∧ InfoKept v ∧ v.fs.fsiFlag = 0 := fun hhas => by
    rw [← hsame] at hhas
    have h32 : v.fs.fsType = .fat32 := by
      rw [hh.geometry]
      exact hhas.1
    refine ⟨?_, hh.info hhas, hflag (hsame ▸ hhas)⟩
    rw [hmounts.info]
    show infoOf v.store v.fs.volbase = _
    rw [Bpb.HasInfo.infoOf (hblock ▸ hhas), hwhole.next.1, hf _ (hm.windows.info h32)]
  refine ⟨by rw [hid, hg', hg], htab', ⟨hmounts.mounted, ?_, ?_⟩, fun hhas => ?_, fun hhas => ?_⟩
  · show NoError v'.fs.toGeometry v'.table
    rw [htab', hg', hg]
    exact hs.noError
  · show Owns v'.table v'.fs.IsEnd v'.fs.Cluster s.own
    rw [htab', hg', hg]
    exact hs.owns
  · obtain ⟨he, hkept, h0⟩ := hload hhas
    rw [he, hkept.free h0, hfree]
  · obtain ⟨he, hkept, h0⟩ := hload hhas
    rw [he, hkept.last h0, hlast]

/-- The volume that a mount makes, with the boot sectors of all partitions out of the way. -/
theorem Mounts.hosted {id : BitVec 16} (hv : Mounts f bsect id v) (h : Whole D.sectors f bsect)
    (hapart : bootKind (bytesOf (f 0)) = 2 → ∀ b ∈ partitions (bytesOf (f 0)),
      ¬ v.fs.IsFat b.toNat ∧ ¬ v.fs.IsInfo b.toNat ∧ ¬ v.fs.IsCopy b.toNat) : Hosted (v.fs.window D.sectors) v := by
  have hbase : v.fs.volbase = bsect := by rw [hv.geometry]; rfl
  have hfit := hv.mounted.fits
  have hlt := hfit.base
  have hle := hfit.fat_le
  have hclean : v.fs.line.dirty = false := by simp [FatFs.line, hv.clean]
  have hlook : ∀ k ∈ v.fs.window D.sectors, v.look k = f k := fun k hk =>
    (hv.mounted.coherent.view_clean hclean hk).trans (congrFun hv.store k)
  have hbelow : ∀ k, k = 0 ∨ k = bsect.toNat → k ∈ v.fs.window D.sectors ∧ ¬ v.fs.IsFat k ∧ ¬ v.fs.IsInfo k := by
    intro k hk
    rw [← hbase] at hk
    have hkb : k < v.fs.fatbase.toNat := by omega
    refine ⟨⟨by omega, fun hc => ?_⟩, fun hc => ?_, fun hc => ?_⟩
    · exact absurd hc.1 (by omega)
    · exact absurd hc.1 (by omega)
    · have := hc.2
      omega
  have hboot : ∀ k, Boot f bsect k → k ∈ v.fs.window D.sectors ∧ ¬ v.fs.IsFat k ∧ ¬ v.fs.IsInfo k := by
    rintro k (hk | hk | ⟨hk2, b, hb, rfl⟩)
    · exact hbelow k (.inl hk)
    · exact hbelow k (.inr hk)
    · obtain ⟨hfat, hinfo, hcopy⟩ := hapart hk2 b hb
      exact ⟨⟨h.parts hk2 b hb, hcopy⟩, hfat, hinfo⟩
  have hf : ∀ k, Boot f bsect k → v.look k = f k := fun k hk => hlook k (hboot k hk).1
  have hblock : blockOf v.look bsect = blockOf f bsect := by rw [blockOf, hf _ (.inr (.inl rfl)), blockOf]
  have hboot' : ∀ k, Boot v.look bsect k ↔ Boot f bsect k := fun k => by
    unfold Boot
    rw [hf 0 (.inl rfl)]
  refine ⟨rfl, hbase ▸ h.toFitting.congr hf, ?_, ?_, ?_⟩
  · rw [hbase, hblock, hv.geometry]
    rfl
  · rw [hbase]
    exact fun k hk => hboot k ((hboot' k).1 hk)
  · rw [hbase, hblock]
    intro hhas
    have h32 : v.fs.fsType = .fat32 := by
      rw [hv.geometry]
      exact hhas.1
    have hinfo : v.fs.toFsInfo = loadInfo (bytesOf (v.look (bsect.toNat + 1))) := by
      have hW := hbase ▸ hfit.windows.info h32
      rw [hv.info, hhas.infoOf, h.next.1, hlook _ hW]
    generalize hw : bytesOf (v.look (bsect.toNat + 1)) = w at hinfo
    obtain ⟨hflag, hfree, hlast⟩ := saved_loadInfo w
    refine ⟨.inl (by rw [hinfo, hflag]), fun _ => ?_, fun _ => ?_⟩
    · rw [hbase, hw, hinfo, hfree]
    · rw [hbase, hw, hinfo, hlast]

/-- **A volume is mounted again as it was.**  A drive with a whole volume on it is mounted, and files take clusters, give them
back and synchronize, in any order; whenever the volume is then synchronized and the drive mounted into any other file
system object, it is the same volume, with the same FAT and the chains of the same files. -/
theorem remounted (sys : System D) {path : Path} (fs : FatFs) (hpath : getLdnumber path = true)
    (h : Whole D.sectors (sectorOf (D.cells sys.disk)) bsect)
    (hapart : ∀ g, g = (blockOf (sectorOf (D.cells sys.disk)) bsect).geometry bsect (sys.fsid + 1) →
      bootKind (bytesOf (sectorOf (D.cells sys.disk) 0)) = 2 →
      ∀ b ∈ partitions (bytesOf (sectorOf (D.cells sys.disk) 0)),
        ¬ g.IsFat b.toNat ∧ ¬ g.IsInfo b.toNat ∧ ¬ g.IsCopy b.toNat) :
    Returns (fMount (some fs) path 1 sys) (fun p => p.1 = .ok ∧ ∃ v : Vol D, p.2 = ⟨some v.fs, sys.fsid + 1, v.disk⟩ ∧
      ∀ own, Sound (v.fs.window D.sectors) ⟨own, v⟩ → ∀ ops,
        Returns (Sequential.serve call ⟨own, v⟩ ops) (fun q => Remounts q.2)) := by
  refine Sat.mono (fMount_whole fs hpath h) ?_ (fun _ => id)
  rintro ⟨res, sys'⟩ ⟨hr, v, hsys, hv⟩
  refine ⟨hr, v, hsys, fun own hs ops => ?_⟩
  have hh : Hosted (v.fs.window D.sectors) v := hv.hosted h (hapart _ hv.geometry)
  have hrun : Returns (Sequential.serve call ⟨own, v⟩ ops) (fun q => Sound (v.fs.window D.sectors) q.2 ∧
      Hosted (v.fs.window D.sectors) q.2.vol) := by
    refine Sequential.serve_inv (I := fun s => Sound (v.fs.window D.sectors) s ∧ Hosted (v.fs.window D.sectors) s.vol)
      (fun op s hs => ?_) ⟨hs, hh⟩
    exact Sat.mono ((hs.1.step op).and (hs.2.step hs.1 op)) (fun p hp => ⟨hp.1.sound, hp.2⟩) (fun _ => id)
  exact Sat.mono hrun (fun q hq => hq.2.remounts hq.1) (fun _ => id)

/-- No file has a cluster of the volume on `bootDisk`. -/
theorem bootDisk_sound {id : BitVec 16} {v : Vol ramDisk} (hv : Mounts (sectorOf bootDisk) 0 id v) :
    Sound (v.fs.window ramDisk.sectors) ⟨fun _ => [], v⟩ where
  mounted := hv.mounted
  noError := fun c _ => by
    have hclean : v.fs.line.dirty = false := by simp [FatFs.line, hv.clean]
    have hbase : v.fs.fatbase.toNat = 1 := by
      rw [hv.geometry]
      exact bootDisk_fatbase
    have hzero : v.table c = 0 := table_zero hv.mounted.fits (fun n hn => by
      have hlook := (hv.mounted.coherent.view_clean hclean (hv.mounted.windows.fat _ (fat_sector hn))).trans
        (congrFun hv.store _)
      rw [Vol.fat, show v.look _ = _ from hlook, bootDisk_rest (by omega)]) c
    rw [show (⟨fun _ => [], v⟩ : Chains ramDisk).vol.table c = 0 from hzero]
    decide
  owns := ⟨fun _ => .nil, fun _ => .nil, fun _ _ _ => List.disjoint_nil_left _, fun _ _ ha => absurd ha List.not_mem_nil⟩

/-- Two files take clusters of `bootDisk`, and one gives a cluster back. -/
theorem remounted_bootDisk :
    Returns (fMount (some emptyVol.fs) (some []) 1 ⟨none, 0, (bootDisk : ramDisk.State)⟩) (fun p => p.1 = .ok ∧
      ∃ v : Vol ramDisk, p.2 = ⟨some v.fs, 0 + 1, v.disk⟩ ∧
        Returns (Sequential.serve call ⟨fun _ => [], v⟩ [.grow 0, .grow 1, .grow 0, .sync, .truncate 0 1])
          (fun q => Remounts q.2)) := by
  have hpath : getLdnumber (some []) = true := by decide
  have hmounts := fMount_whole (D := ramDisk) (s := ⟨none, 0, bootDisk⟩) emptyVol.fs hpath bootDisk_whole
  have hagain := remounted (D := ramDisk) ⟨none, 0, bootDisk⟩ emptyVol.fs hpath bootDisk_whole
    fun _ _ h => absurd h (by decide)
  refine Sat.mono (hmounts.and hagain) ?_ (fun _ => id)
  rintro p ⟨⟨hok, v, hp, hv⟩, -, v', hp', hall⟩
  obtain ⟨hfs, hdisk⟩ : v.fs = v'.fs ∧ v.disk = v'.disk := by
    simpa using hp.symm.trans hp'
  obtain rfl : v = v' := by
    obtain ⟨fs, disk⟩ := v
    obtain ⟨fs', disk'⟩ := v'
    cases hfs
    cases hdisk
    rfl
  exact ⟨hok, v, hp, hall _ (bootDisk_sound hv) _⟩

end Fatfs
end CheriOS
