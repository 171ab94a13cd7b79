import CheriOS.Fatfs.Bpb
/-!
# Mount — finding a volume on the drive (`ff.c`)

`find_volume` looks for a FAT boot sector at the start of the drive and of its four partitions, and makes a `FATFS` of what
the boot sector says, and on FAT32 the FSInfo sector.
-/
namespace CheriOS
namespace Fatfs

open Outcome WriteBack

/-! ## The functions -/

variable {D : Disk}

def checkFs (v : Vol D) (sect : BitVec 64) : Except Halt (Nat × Vol D) := do
  let (res, v) ← moveWindow { v with fs := { v.fs with wflag := 0, winsect := 0xFFFFFFFF } } sect
  if res ≠ .ok then return (4, v)
  return (bootKind v.fs.win, v)

/-- The loop over the partitions, from `fmt` and `bsect` as they are before it. -/
def checkPartitions : List (BitVec 64) → Nat → BitVec 64 → Vol D → Except Halt (Nat × BitVec 64 × Vol D)
  | [], fmt, bsect, v => return (fmt, bsect, v)
  | bsect :: br, _, _, v => do
    let (fmt, v) ← if bsect ≠ 0 then checkFs v bsect else pure (3, v)
    if fmt ≥ 2 then checkPartitions br fmt bsect v else return (fmt, bsect, v)

/-- What `ff.c` keeps of its one volume between calls, and the drive. -/
structure System (D : Disk) where
  fatFs : Option FatFs
  fsid : BitVec 16
  disk : D.State

abbrev staNoinit : BitVec 8 := 1
abbrev staProtect : BitVec 8 := 4
abbrev faRead : BitVec 8 := 1

/-- `find_volume` where an FAT volume is found: the file system object is filled in. -/
def initVolume (fsid : BitVec 16) (bsect : BitVec 64) (v : Vol D) : Except Halt (Fresult × BitVec 16 × Vol D) := do
  let b := bpb v.fs.win
  match b.layout bsect v.fs with
  | (none, fs) => return (.noFilesystem, fsid, { v with fs := fs })
  | (some fmt, fs) =>
    let v := { v with fs := { fs with lastClst := 0xFFFFFFFF, freeClst := 0xFFFFFFFF, fsiFlag := 0x80 } }
    let v ←
      if fmt = .fat32 ∧ b.fsInfo32 = 1 then do
        let (res, v) ← moveWindow v (bsect + 1)
        if res = .ok then pure { v with fs := { v.fs with toFsInfo := loadInfo v.fs.win } } else pure v
      else pure v
    let fsid := fsid + 1
    return (.ok, fsid, { v with fs := { v.fs with fsType := fmt, id := fsid } })

/-- `find_volume` where the file system object is not valid: the volume is mounted. -/
def mountVolume (mode : BitVec 8) (fsid : BitVec 16) (v : Vol D) : Except Halt (Fresult × BitVec 16 × Vol D) := do
  let fs := { v.fs with fsType := .none, drv := 0 }
  let (stat, d) ← D.init fs.drv v.disk
  let v := ⟨fs, d⟩
  if stat &&& staNoinit ≠ 0 then return (.notReady, fsid, v)
  if mode ≠ 0 ∧ stat &&& staProtect ≠ 0 then return (.writeProtected, fsid, v)
  let (fmt, v) ← checkFs v 0
  let (fmt, bsect, v) ← if fmt = 2 then checkPartitions (partitions v.fs.win) fmt 0 v else pure (fmt, 0, v)
  if fmt = 4 then return (.diskErr, fsid, v)
  if fmt ≥ 2 then return (.noFilesystem, fsid, v)
  initVolume fsid bsect v

/-- A null-terminated string, without its end; `none` for a null pointer. -/
abbrev Path := Option (List (BitVec 8))

/-- Is there a drive with the number the path begins with?  There is drive 0, and no other. -/
def getLdnumber : Path → Bool
  | none => false
  | some path =>
    match path.dropWhile (fun c => c ≥ 0x21 ∧ c ≠ 0x3A) with
    | [] => true
    | tt :: _ => if tt = 0x3A then (match path with | c :: tt :: _ => c = 0x30 ∧ tt = 0x3A | _ => false) else true

def findVolume (path : Path) (mode : BitVec 8) (s : System D) : Except Halt (Fresult × System D) := do
  if getLdnumber path = false then return (.invalidDrive, s)
  match s.fatFs with
  | none => return (.notEnabled, s)
  | some fs =>
    let mode := mode &&& ~~~faRead
    let stat ← if fs.fsType ≠ .none then D.status fs.drv s.disk else pure staNoinit
    if stat &&& staNoinit = 0 then
      if mode ≠ 0 ∧ stat &&& staProtect ≠ 0 then return (.writeProtected, s) else return (.ok, s)
    else
      let (res, fsid, v) ← mountVolume mode s.fsid ⟨fs, s.disk⟩
      return (res, ⟨some v.fs, fsid, v.disk⟩)

/-- The object that was registered before is the caller's again. -/
def fMount (fs : Option FatFs) (path : Path) (opt : BitVec 8) (s : System D) : Except Halt (Fresult × System D) := do
  if getLdnumber path = false then return (.invalidDrive, s)
  let fs := fs.map fun fs => { fs with fsType := .none }
  let s := { s with fatFs := fs }
  if fs.isNone ∨ opt ≠ 1 then return (.ok, s)
  findVolume path 0 s

/-! ## Mounting -/

/-- **Where the volume on a drive starts**: at the start of the drive, or of the first partition with a FAT boot sector. -/
def bootSector (f : Nat → Sector) : Option (BitVec 64) :=
  if bootKind (bytesOf (f 0)) = 0 then some 0
  else if bootKind (bytesOf (f 0)) = 2 then
    (partitions (bytesOf (f 0))).find? fun b => b ≠ 0 ∧ bootKind (bytesOf (f b.toNat)) = 0
  else none

/-- The block in the boot sector at `bsect`. -/
def blockOf (f : Nat → Sector) (bsect : BitVec 64) : Bpb := bpb (bytesOf (f bsect.toNat))

/-- **A volume starts at `bsect`.** -/
structure Holds (f : Nat → Sector) (bsect : BitVec 64) : Prop where
  start : bootSector f = some bsect
  accepted : (blockOf f bsect).Accepted

/-- The number of free clusters and the last one taken, as the volume has them. -/
def infoOf (f : Nat → Sector) (bsect : BitVec 64) : FsInfo :=
  let b := blockOf f bsect
  if fatType b.nclst = .fat32 ∧ b.fsInfo32 = 1 then loadInfo (bytesOf (f (bsect + 1).toNat))
  else { fsiFlag := 0x80, lastClst := 0xFFFFFFFF, freeClst := 0xFFFFFFFF }

/-- The partitions that are looked at, up to the first with a FAT boot sector, start on a drive of `n` sectors. -/
def Searched (n : Nat) (f : Nat → Sector) : List (BitVec 64) → Prop
  | [] => True
  | b :: br => (b ≠ 0 → b.toNat < n) ∧ ((b ≠ 0 ∧ bootKind (bytesOf (f b.toNat)) = 0) ∨ Searched n f br)

theorem searched_of_all {n : Nat} {f : Nat → Sector} {br : List (BitVec 64)} (h : ∀ b ∈ br, b.toNat < n) :
    Searched n f br := by
  induction br with
  | nil => trivial
  | cons b br ih =>
    exact ⟨fun _ => h b List.mem_cons_self, .inr (ih fun c hc => h c (List.mem_cons_of_mem _ hc))⟩

/-- **What a mount reads is on the drive** of `n` sectors: the first sector, those of the partitions that it looks at, and
that of FSInfo where it is used. -/
structure Readable (n : Nat) (f : Nat → Sector) : Prop where
  first : 0 < n
  parts : bootKind (bytesOf (f 0)) = 2 → Searched n f (partitions (bytesOf (f 0)))
  info : ∀ bsect, Holds f bsect → fatType (blockOf f bsect).nclst = .fat32 ∧ (blockOf f bsect).fsInfo32 = 1 →
    (bsect + 1).toNat < n

/-- **The window shows a sector of the drive**, which has the sectors `f`. -/
structure Shows (f : Nat → Sector) (sect : BitVec 64) (v : Vol D) : Prop where
  store : v.store = f
  clean : v.fs.wflag = 0
  winsect : v.fs.winsect = sect
  win : sectorOf v.fs.win 0 = f sect.toNat

/-- **What a mount makes of the volume at `bsect`**: every field is as the boot sector says, on FAT32 with FSInfo, and the
window shows a sector of the drive. -/
structure Loaded (f : Nat → Sector) (bsect : BitVec 64) (id : BitVec 16) (v : Vol D) : Prop where
  geometry : v.fs.toGeometry = (blockOf f bsect).geometry bsect id
  info : v.fs.toFsInfo = infoOf f bsect
  window : ∃ sect : BitVec 64, sect.toNat < D.sectors ∧ Shows f sect v

/-- Only the window has changed. -/
def Vol.Same (v v' : Vol D) : Prop := v'.fs.toGeometry = v.fs.toGeometry ∧ v'.fs.toFsInfo = v.fs.toFsInfo

theorem Vol.Same.trans {v v' v'' : Vol D} (h : v.Same v') (h' : v'.Same v'') : v.Same v'' :=
  ⟨h'.1.trans h.1, h'.2.trans h.2⟩

variable {v v' : Vol D} {f : Nat → Sector} {sect bsect : BitVec 64}

/-- A clean window is moved to a sector of the drive. -/
theorem moveWindow_clean (hdrv : v.fs.drv = 0) (hclean : v.fs.wflag = 0) (hne : sect ≠ v.fs.winsect)
    (hs : sect.toNat < D.sectors) :
    Returns (moveWindow v sect) (fun p => p.1 = .ok ∧ v.Same p.2 ∧ Shows v.store sect p.2) := by
  have hread := D.read_served v.fs.win sect 1 v.disk hs
  have hval : sectorOf (memcpy v.fs.win 0 (D.cells v.disk) (sect.toNat * 512) ((1 : BitVec 32).toNat * 512)) 0 =
      v.store sect.toNat := (sectorOf_memcpy_to ..).trans (if_pos (by decide))
  rw [moveWindow, if_pos hne, syncWindow]
  simp only [hclean, ne_eq, not_true_eq_false, if_false, pure_bind, if_true, hdrv, hread, ok_bind]
  generalize memcpy v.fs.win 0 (D.cells v.disk) _ _ = win at hval ⊢
  exact ⟨rfl, ⟨rfl, rfl⟩, rfl, rfl, rfl, hval⟩

theorem checkFs_returns (hdrv : v.fs.drv = 0) (hs : sect.toNat < D.sectors) :
    Returns (checkFs v sect) (fun p => p.1 = bootKind (bytesOf (v.store sect.toNat)) ∧ v.Same p.2 ∧
      Shows v.store sect p.2) := by
  have hmax := D.sectors_le
  rw [checkFs]
  refine Sat.bind (moveWindow_clean (v := { v with fs := { v.fs with wflag := 0, winsect := 0xFFFFFFFF } }) hdrv rfl ?_ hs) ?_
  · rintro rfl
    exact absurd hs (Nat.not_lt.2 hmax)
  rintro ⟨res, v₁⟩ ⟨rfl, hsame, hshows⟩
  refine ⟨?_, hsame, hshows⟩
  have hwin : sectorOf v₁.fs.win 0 = v.store sect.toNat := hshows.win
  show bootKind v₁.fs.win = _
  rw [← hwin, bootKind_bytesOf]

theorem bootKind_cases (w : Bytes) : bootKind w = 0 ∨ bootKind w = 2 ∨ bootKind w = 3 := by
  unfold bootKind
  split_ifs <;> simp

/-- **The first partition that holds a volume is found.** -/
theorem checkPartitions_returns {br : List (BitVec 64)} {fmt : Nat} {bsect : BitVec 64} (hdrv : v.fs.drv = 0)
    (hbr : Searched D.sectors v.store br) (h2 : fmt = 2 ∨ fmt = 3) :
    Returns (checkPartitions br fmt bsect v) (fun p => v.Same p.2.2 ∧ p.2.2.store = v.store ∧
      match br.find? fun b => b ≠ 0 ∧ bootKind (bytesOf (v.store b.toNat)) = 0 with
      | some b => p.1 = 0 ∧ p.2.1 = b ∧ b.toNat < D.sectors ∧ Shows v.store b p.2.2
      | none => p.1 = 2 ∨ p.1 = 3) := by
  induction br generalizing fmt bsect v with
  | nil => exact ⟨⟨rfl, rfl⟩, rfl, h2⟩
  | cons b br ih =>
    have hrest : ∀ {v₁ : Vol D} {fmt₁ : Nat}, ¬ (b ≠ 0 ∧ bootKind (bytesOf (v.store b.toNat)) = 0) → v.Same v₁ →
        v₁.store = v.store → (fmt₁ = 2 ∨ fmt₁ = 3) →
        Returns (checkPartitions br fmt₁ b v₁) (fun p => v.Same p.2.2 ∧ p.2.2.store = v.store ∧
          match br.find? fun b => b ≠ 0 ∧ bootKind (bytesOf (v.store b.toNat)) = 0 with
          | some b => p.1 = 0 ∧ p.2.1 = b ∧ b.toNat < D.sectors ∧ Shows v.store b p.2.2
          | none => p.1 = 2 ∨ p.1 = 3) := by
      intro v₁ fmt₁ hno hsame hst h
      have hnext := @ih v₁ fmt₁ b (by rw [hsame.1]; exact hdrv) (hst ▸ hbr.2.resolve_left hno) h
      rw [hst] at hnext
      exact Sat.mono hnext (fun p hp => ⟨hsame.trans hp.1, hp.2⟩) (fun _ => id)
    rw [checkPartitions]
    by_cases hb : b = 0
    · subst hb
      rw [List.find?_cons_of_neg (by simp)]
      simp only [ne_eq, not_true_eq_false, if_false, pure_bind]
      exact hrest (fun h => h.1 rfl) ⟨rfl, rfl⟩ rfl (.inr rfl)
    · rw [if_pos hb]
      refine Sat.bind (checkFs_returns hdrv (hbr.1 hb)) ?_
      rintro ⟨fmt₁, v₁⟩ ⟨hfmt, hsame, hshows⟩
      replace hfmt : fmt₁ = bootKind (bytesOf (v.store b.toNat)) := hfmt
      replace hshows : Shows v.store b v₁ := hshows
      by_cases hk : bootKind (bytesOf (v.store b.toNat)) = 0
      · rw [List.find?_cons_of_pos (by simpa [hk] using hb), hfmt, hk]
        exact ⟨hsame, hshows.store, rfl, rfl, hbr.1 hb, hshows⟩
      · rw [List.find?_cons_of_neg (by simp [hk])]
        have h23 := (bootKind_cases (bytesOf (v.store b.toNat))).resolve_left hk
        rw [← hfmt] at h23
        have hge : fmt₁ ≥ 2 := by omega
        simp only [hge, if_true]
        exact hrest (fun h => hk h.2) hsame hshows.store h23

/-- **The file system object is filled in.** -/
theorem initVolume_accepted {f : Nat → Sector} {bsect : BitVec 64} (fsid : BitVec 16) (hs : Shows f bsect v)
    (hdrv : v.fs.drv = 0) (ha : (blockOf f bsect).Accepted) (hlt : bsect.toNat < D.sectors)
    (hinfo : fatType (blockOf f bsect).nclst = .fat32 ∧ (blockOf f bsect).fsInfo32 = 1 → (bsect + 1).toNat < D.sectors) :
    Returns (initVolume fsid bsect v) (fun p => p.1 = .ok ∧ p.2.1 = fsid + 1 ∧ Loaded f bsect (fsid + 1) p.2.2) := by
  have hb : bpb v.fs.win = blockOf f bsect := by rw [blockOf, ← hs.win, bpb_bytesOf]
  rw [initVolume, hb]
  have hi : infoOf f bsect = if fatType (blockOf f bsect).nclst = .fat32 ∧ (blockOf f bsect).fsInfo32 = 1 then
      loadInfo (bytesOf (f (bsect + 1).toNat))
    else { fsiFlag := 0x80, lastClst := 0xFFFFFFFF, freeClst := 0xFFFFFFFF } := rfl
  generalize hblock : blockOf f bsect = b at ha hinfo hi ⊢
  rw [Bpb.layout_some_iff.2 ⟨ha, rfl, rfl⟩]
  dsimp only
  by_cases h32 : fatType b.nclst = .fat32 ∧ b.fsInfo32 = 1
  · rw [if_pos h32]
    rw [if_pos h32] at hi
    refine Sat.bind (moveWindow_clean hdrv hs.clean ?_ (hinfo h32)) ?_
    · show bsect + 1 ≠ v.fs.winsect
      rw [hs.winsect]
      intro he
      have hone := congrArg BitVec.toNat he
      rw [BitVec.toNat_add] at hone
      change (bsect.toNat + 1) % _ = _ at hone
      omega
    rintro ⟨res, v₁⟩ ⟨rfl, hsame, hshows⟩
    have hg := hsame.1
    have hwin := hshows.win
    simp only [if_true, pure_bind]
    have hst : v.store = f := hs.store
    replace hwin : sectorOf v₁.fs.win 0 = f (bsect + 1).toNat := hwin.trans (congrFun hst _)
    refine ⟨rfl, rfl, ?_, ?_, bsect + 1, hinfo h32, hshows.store.trans hst, hshows.clean, hshows.winsect, hwin⟩
    · show ({ v₁.fs.toGeometry with fsType := _, id := _ } : Geometry) = _
      rw [hblock, show v₁.fs.toGeometry = (b.set bsect v.fs).toGeometry from hg]
      show ({ b.geometry bsect v.fs.id with fsType := _, drv := v.fs.drv, id := _ } : Geometry) = _
      rw [hdrv]
      rfl
    · show loadInfo v₁.fs.win = _
      rw [hi, ← loadInfo_bytesOf, hwin]
  · rw [if_neg h32]
    rw [if_neg h32] at hi
    refine ⟨rfl, rfl, ?_, hi.symm, bsect, hlt, hs.store, hs.clean, hs.winsect, hs.win⟩
    show ({ b.geometry bsect v.fs.id with fsType := _, drv := v.fs.drv, id := _ } : Geometry) = _
    rw [hblock, hdrv]
    rfl

theorem initVolume_refused (fsid : BitVec 16) (ha : ¬ (bpb v.fs.win).Accepted) (ht : v.fs.fsType = .none) :
    Returns (initVolume fsid bsect v) (fun p => p.1 = .noFilesystem ∧ p.2.1 = fsid ∧ p.2.2.fs.fsType = .none ∧
      p.2.2.store = v.store) := by
  have hfs := layout_fsType (bpb v.fs.win) bsect v.fs
  rw [initVolume]
  cases hl : (bpb v.fs.win).layout bsect v.fs with
  | mk t fs =>
    rw [hl] at hfs
    cases t with
    | none => exact ⟨rfl, rfl, hfs.trans ht, rfl⟩
    | some t => exact absurd (Bpb.layout_some_iff.1 hl).1 ha

/-- **The search for a volume**, and what follows it. -/
theorem mountVolume_search {mode : BitVec 8} {fsid : BitVec 16} {Q : Fresult × BitVec 16 × Vol D → Prop}
    (hr : Readable D.sectors v.store)
    (hsome : ∀ bsect v', bootSector v.store = some bsect → bsect.toNat < D.sectors → Shows v.store bsect v' →
      v'.fs.drv = 0 → v'.fs.fsType = .none → Returns (initVolume fsid bsect v') Q)
    (hnone : ∀ v' : Vol D, bootSector v.store = none → v'.store = v.store → v'.fs.fsType = .none →
      Q (.noFilesystem, fsid, v')) : Returns (mountVolume mode fsid v) Q := by
  obtain ⟨d, hinit, hcells⟩ := D.init_served v.disk
  have hstore : (⟨{ v.fs with fsType := .none, drv := 0 }, d⟩ : Vol D).store = v.store := congrArg sectorOf hcells
  have hstat : ¬ ((0 : BitVec 8) &&& staNoinit ≠ 0) ∧ ¬ ((0 : BitVec 8) &&& staProtect ≠ 0) := by decide
  rw [mountVolume]
  simp only [hinit, ok_bind, hstat.1, hstat.2, and_false, if_false]
  generalize hv₀ : (⟨{ v.fs with fsType := .none, drv := 0 }, d⟩ : Vol D) = v₀ at hstore ⊢
  have hdrv₀ : v₀.fs.drv = 0 := by rw [← hv₀]
  have htype₀ : v₀.fs.fsType = .none := by rw [← hv₀]
  refine Sat.bind (checkFs_returns hdrv₀ hr.first) ?_
  rintro ⟨fmt, v₁⟩ ⟨hfmt, hsame, hshows⟩
  rw [hstore] at hfmt hshows
  replace hfmt : fmt = bootKind (bytesOf (v.store 0)) := hfmt
  replace hshows : Shows v.store 0 v₁ := hshows
  replace hsame : v₀.Same v₁ := hsame
  subst hfmt
  unfold bootSector at hsome hnone
  by_cases hk0 : bootKind (bytesOf (v.store 0)) = 0
  · simp only [hk0, if_true] at hsome ⊢
    exact hsome 0 v₁ rfl hr.first hshows (by rw [hsame.1, hdrv₀]) (by rw [hsame.1, htype₀])
  by_cases hk2 : bootKind (bytesOf (v.store 0)) = 2
  · -- a master boot record
    simp only [hk2, if_true] at hsome hnone ⊢
    have hpart : partitions v₁.fs.win = partitions (bytesOf (v.store 0)) := by
      rw [← partitions_bytesOf, hshows.win]
      rfl
    rw [hpart]
    refine Sat.bind (checkPartitions_returns (by rw [hsame.1, hdrv₀]) (hshows.store.symm ▸ hr.parts hk2) (.inl rfl)) ?_
    rintro ⟨fmt, b, v₂⟩ ⟨hsame₂, hst₂, hfound⟩
    rw [hshows.store] at hst₂ hfound
    replace hsame₂ : v₀.Same v₂ := hsame.trans hsame₂
    have hdrv₂ : v₂.fs.drv = 0 := by rw [hsame₂.1, hdrv₀]
    have htype₂ : v₂.fs.fsType = .none := by rw [hsame₂.1, htype₀]
    split at hfound
    · rename_i b' hfind
      obtain ⟨rfl, rfl, hlt, hshows₂⟩ : fmt = 0 ∧ b = b' ∧ b'.toNat < D.sectors ∧ Shows v.store b' v₂ := hfound
      exact hsome _ v₂ hfind hlt hshows₂ hdrv₂ htype₂
    · rename_i hfind
      replace hfound : fmt = 2 ∨ fmt = 3 := hfound
      have hge : fmt ≥ 2 := by omega
      have h4 : fmt ≠ 4 := by omega
      simp only [h4, hge, if_true, if_false]
      exact hnone v₂ hfind hst₂ htype₂
  · have hk3 := ((bootKind_cases (bytesOf (v.store 0))).resolve_left hk0).resolve_left hk2
    have hne : ¬ (3 = 0) ∧ ¬ (3 = 2) ∧ ¬ (3 = 4) ∧ 3 ≥ 2 := by decide
    simp only [hk3, hne, if_false] at hnone ⊢
    exact hnone v₁ trivial hshows.store (by rw [hsame.1, htype₀])

/-- **Mounting a drive that holds a volume.** -/
theorem mountVolume_holds (mode : BitVec 8) (fsid : BitVec 16) (h : Holds v.store bsect)
    (hr : Readable D.sectors v.store) :
    Returns (mountVolume mode fsid v) (fun p => p.1 = .ok ∧ p.2.1 = fsid + 1 ∧
      Loaded v.store bsect (fsid + 1) p.2.2) := by
  refine mountVolume_search hr (fun b v' hb hlt hs hdrv _ => ?_) (fun v' hn => ?_)
  · obtain rfl := Option.some.inj (hb.symm.trans h.start)
    exact initVolume_accepted fsid hs hdrv h.accepted hlt (hr.info _ h)
  · exact absurd (hn.symm.trans h.start) (by simp)

/-- **Mounting a drive that holds no volume.** -/
theorem mountVolume_none (mode : BitVec 8) (fsid : BitVec 16) (h : ∀ bsect, ¬ Holds v.store bsect)
    (hr : Readable D.sectors v.store) :
    Returns (mountVolume mode fsid v) (fun p => p.1 = .noFilesystem ∧ p.2.1 = fsid ∧ p.2.2.fs.fsType = .none ∧
      p.2.2.store = v.store) := by
  refine mountVolume_search hr (fun b v' hb _ hs _ ht => ?_) (fun v' _ hst ht => ⟨rfl, rfl, ht, hst⟩)
  have ha : ¬ (bpb v'.fs.win).Accepted := by
    rw [← bpb_bytesOf, hs.win]
    exact fun ha => h b ⟨hb, ha⟩
  rw [← hs.store]
  exact initVolume_refused fsid ha ht

/-- **A volume that fits on the drive of `n` sectors it starts on**, at `bsect`.  Of a FAT32 volume it is not checked that
there is a sector for FSInfo, nor that its clusters are not numbered like ends of chains. -/
structure Fitting (n : Nat) (f : Nat → Sector) (bsect : BitVec 64) : Prop extends Holds f bsect where
  parts : bootKind (bytesOf (f 0)) = 2 → ∀ b ∈ partitions (bytesOf (f 0)), b.toNat < n
  size : bsect.toNat + (blockOf f bsect).tsect.toNat ≤ n
  fat32 : fatType (blockOf f bsect).nclst = .fat32 →
    2 ≤ (blockOf f bsect).rsvdSecCnt.toNat ∧ (blockOf f bsect).nclst.toNat + 2 < 2 ^ 28

/-- The copies of its FAT are the same. -/
structure Whole (n : Nat) (f : Nat → Sector) (bsect : BitVec 64) : Prop extends Fitting n f bsect where
  mirror : ∀ k < (blockOf f bsect).fatSz.toNat, ∀ j < (blockOf f bsect).numFATs.toNat,
    f ((bsect + (blockOf f bsect).rsvdSecCnt.setWidth 64).toNat + j * (blockOf f bsect).fatSz.toNat + k) =
      f ((bsect + (blockOf f bsect).rsvdSecCnt.setWidth 64).toNat + k)

/-- **The volume that a mount makes of a drive.** -/
structure Mounts (f : Nat → Sector) (bsect : BitVec 64) (id : BitVec 16) (v : Vol D) : Prop where
  geometry : v.fs.toGeometry = (blockOf f bsect).geometry bsect id
  info : v.fs.toFsInfo = infoOf f bsect
  store : v.store = f
  clean : v.fs.wflag = 0
  mounted : Mounted (v.fs.window D.sectors) v

theorem Fitting.fits (h : Fitting D.sectors f bsect) (id : BitVec 16) :
    ((blockOf f bsect).geometry bsect id).Fits D.sectors :=
  h.accepted.fits h.size D.sectors_le h.fat32 id

theorem Geometry.Fits.fsize_pos {g : Geometry} {n : Nat} (h : g.Fits n) : 0 < g.fsize.toNat := by
  have htype := h.type
  have hsome := h.some
  have hent := h.entries
  have hstride : 0 < g.fsType.stride := by
    cases ht : g.fsType <;> simp_all [FsType.stride]
  have hpos := Nat.mul_pos (show 0 < g.nFatent.toNat by omega) hstride
  omega

/-- The sector behind the boot sector is on the drive. -/
theorem Fitting.next (h : Fitting D.sectors f bsect) :
    (bsect + 1).toNat = bsect.toNat + 1 ∧ (bsect + 1).toNat < D.sectors := by
  have hfit := h.fits 0
  have hbase : bsect.toNat < _ := hfit.base
  have hle := hfit.fat_le
  have hmax := D.sectors_le
  have hpos := hfit.fsize_pos
  have hone : (bsect + 1).toNat = bsect.toNat + 1 := by
    rw [BitVec.toNat_add]
    show (_ + 1) % _ = _
    omega
  exact ⟨hone, by omega⟩

theorem Whole.mounted (h : Whole D.sectors f bsect) (hs : Shows f sect v) {id : BitVec 16}
    (hg : v.fs.toGeometry = (blockOf f bsect).geometry bsect id) :
    Mounted (v.fs.window D.sectors) v := by
  have hfit : v.fs.Fits D.sectors := by
    rw [hg]
    exact h.fits id
  refine ⟨hfit, hfit.windows, .of_clean (by simp [FatFs.line, hs.clean]) fun _ => ?_, ?_⟩
  · show v.store v.fs.winsect.toNat = sectorOf v.fs.win 0
    rw [hs.win, hs.store, hs.winsect]
  · rw [hs.store, hg]
    exact h.mirror

/-- `f_mount` with its third argument `1` mounts the volume. -/
theorem fMount_mounts {s : System D} {path : Path} (fs : FatFs) (hpath : getLdnumber path = true) :
    fMount (some fs) path 1 s = (do
      let (res, fsid, v) ← mountVolume 0 s.fsid ⟨{ fs with fsType := .none }, s.disk⟩
      return (res, ⟨some v.fs, fsid, v.disk⟩)) := by
  have hmode : (0 : BitVec 8) &&& ~~~faRead = 0 := by decide
  rw [fMount]
  simp only [hpath, findVolume, hmode, Option.map_some, Option.isNone_some, Bool.true_eq_false, Bool.false_eq_true, ne_eq,
    not_true_eq_false, or_self, if_false, pure_bind]
  rfl

/-- A mount reads what is on the drive, if the volume is. -/
theorem Fitting.readable (h : Fitting D.sectors f bsect) : Readable D.sectors f where
  first := Nat.lt_of_le_of_lt (Nat.zero_le _) h.next.2
  parts := fun h2 => searched_of_all (h.parts h2)
  info := fun b hb _ => by
    rw [← Option.some.inj (h.start.symm.trans hb.start)]
    exact h.next.2

/-- **`f_mount` of a drive with a volume on it**: it returns `FR_OK`, whatever was in the file system object before. -/
theorem fMount_holds {s : System D} {path : Path} (fs : FatFs) (hpath : getLdnumber path = true)
    (hr : Readable D.sectors (sectorOf (D.cells s.disk))) (h : Holds (sectorOf (D.cells s.disk)) bsect) :
    Returns (fMount (some fs) path 1 s) (fun p => p.1 = .ok ∧ ∃ v : Vol D, p.2 = ⟨some v.fs, s.fsid + 1, v.disk⟩ ∧
      Loaded (sectorOf (D.cells s.disk)) bsect (s.fsid + 1) v) := by
  have hmount := mountVolume_holds (v := ⟨{ fs with fsType := .none }, s.disk⟩) 0 s.fsid h hr
  rw [fMount_mounts fs hpath]
  refine Sat.bind hmount ?_
  rintro ⟨res, fsid, v⟩ ⟨rfl, rfl, hl⟩
  exact ⟨rfl, v, rfl, hl⟩

theorem Loaded.mounts {id : BitVec 16} (hl : Loaded f bsect id v) (h : Whole D.sectors f bsect) :
    Mounts f bsect id v := by
  obtain ⟨sect, -, hs⟩ := hl.window
  exact ⟨hl.geometry, hl.info, hs.store, hs.clean, h.mounted hs hl.geometry⟩

/-- **`f_mount` of a drive with a whole volume on it**: the volume is mounted. -/
theorem fMount_whole {s : System D} {path : Path} (fs : FatFs) (hpath : getLdnumber path = true)
    (h : Whole D.sectors (sectorOf (D.cells s.disk)) bsect) :
    Returns (fMount (some fs) path 1 s) (fun p => p.1 = .ok ∧ ∃ v : Vol D, p.2 = ⟨some v.fs, s.fsid + 1, v.disk⟩ ∧
      Mounts (sectorOf (D.cells s.disk)) bsect (s.fsid + 1) v) := by
  refine Sat.mono (fMount_holds fs hpath h.toFitting.readable h.toHolds) ?_ (fun _ => id)
  rintro p ⟨hok, v, hp, hl⟩
  exact ⟨hok, v, hp, hl.mounts h⟩

/-- **`f_mount` of a drive with no volume on it**: nothing is mounted. -/
theorem fMount_none {s : System D} {path : Path} (fs : FatFs) (hpath : getLdnumber path = true)
    (hr : Readable D.sectors (sectorOf (D.cells s.disk))) (h : ∀ bsect, ¬ Holds (sectorOf (D.cells s.disk)) bsect) :
    Returns (fMount (some fs) path 1 s) (fun p => p.1 = .noFilesystem ∧
      sectorOf (D.cells p.2.disk) = sectorOf (D.cells s.disk) ∧ ∃ fs', p.2.fatFs = some fs' ∧ fs'.fsType = .none) := by
  have hmount := mountVolume_none (v := ⟨{ fs with fsType := .none }, s.disk⟩) 0 s.fsid h hr
  rw [fMount_mounts fs hpath]
  refine Sat.bind hmount ?_
  rintro ⟨res, fsid, v⟩ ⟨rfl, rfl, ht, hst⟩
  exact ⟨rfl, hst, v.fs, rfl, ht⟩

/-! ## A formatted drive -/

/-- A RAM disk with a FAT12 volume of 96 clusters. -/
def bootDisk : Bytes := fun i =>
  match i with
  | 12 => 2 | 13 => 1 | 14 => 1 | 16 => 2 | 17 => 16 | 19 => 100 | 22 => 1
  | 54 => 0x46 | 55 => 0x41 | 56 => 0x54 | 510 => 0x55 | 511 => 0xAA
  | _ => 0

theorem bootDisk_rest {k : Nat} (hk : 0 < k) : sectorOf bootDisk k = fun _ => 0 := by
  funext i
  unfold sectorOf bootDisk
  split <;> first | rfl | omega

theorem bootDisk_holds : Holds (sectorOf bootDisk) 0 where
  start := by decide
  accepted := by
    constructor <;> decide

theorem bootDisk_fatbase : (0 + (blockOf (sectorOf bootDisk) 0).rsvdSecCnt.setWidth 64 : BitVec 64).toNat = 1 := by decide

theorem bootDisk_whole : Whole ramDisk.sectors (sectorOf bootDisk) 0 where
  toHolds := bootDisk_holds
  parts := fun h => absurd h (by decide)
  size := by decide
  fat32 := fun h => absurd h (by decide)
  mirror := fun k _ j _ => by
    rw [bootDisk_fatbase, bootDisk_rest (by omega), bootDisk_rest (by omega)]

/-! ## Every drive -/

/-- **`f_mount`**, where what it reads is on the drive: it finds a volume if and only if there is one, and does not write to
the drive.  What it makes of a volume is what the boot sector says, with the window on the drive; of one that fits its
areas are one behind the other, with an entry in the FAT for each cluster, and a whole one is mounted. -/
theorem fMount_iff {s : System D} {path : Path} (fs : FatFs) (hpath : getLdnumber path = true)
    (hr : Readable D.sectors (sectorOf (D.cells s.disk))) :
    Returns (fMount (some fs) path 1 s) (fun p => (p.1 = .ok ∨ p.1 = .noFilesystem) ∧
      (p.1 = .ok ↔ ∃ bsect, Holds (sectorOf (D.cells s.disk)) bsect) ∧
      sectorOf (D.cells p.2.disk) = sectorOf (D.cells s.disk) ∧ (∀ bsect, Holds (sectorOf (D.cells s.disk)) bsect →
        ∃ v : Vol D, p.2 = ⟨some v.fs, s.fsid + 1, v.disk⟩ ∧ Loaded (sectorOf (D.cells s.disk)) bsect (s.fsid + 1) v ∧
          (Fitting D.sectors (sectorOf (D.cells s.disk)) bsect → v.fs.Fits D.sectors) ∧
          (Whole D.sectors (sectorOf (D.cells s.disk)) bsect →
            Mounts (sectorOf (D.cells s.disk)) bsect (s.fsid + 1) v))) := by
  by_cases hex : ∃ bsect, Holds (sectorOf (D.cells s.disk)) bsect
  · obtain ⟨bsect, hb⟩ := hex
    refine Sat.mono (fMount_holds fs hpath hr hb) ?_ (fun _ => id)
    rintro ⟨res, s'⟩ ⟨rfl, v, rfl, hl⟩
    obtain ⟨sect, -, hs⟩ := hl.window
    refine ⟨.inl rfl, ⟨fun _ => ⟨bsect, hb⟩, fun _ => rfl⟩, hs.store, fun b hb' => ?_⟩
    obtain rfl := Option.some.inj (hb.start.symm.trans hb'.start)
    exact ⟨v, rfl, hl, fun hfit => by rw [hl.geometry]; exact hfit.fits _, hl.mounts⟩
  · refine Sat.mono (fMount_none fs hpath hr fun b hb => hex ⟨b, hb⟩) ?_ (fun _ => id)
    rintro ⟨res, s'⟩ ⟨rfl, hst, -⟩
    exact ⟨.inr rfl, ⟨(fun he => nomatch he), fun he => absurd he hex⟩, hst, fun b hb => absurd ⟨b, hb⟩ hex⟩

theorem fMount_iff_bootDisk :
    Returns (fMount (some emptyVol.fs) (some []) 1 ⟨none, 0, (bootDisk : ramDisk.State)⟩) (fun p =>
      p.1 = .ok ∧ sectorOf (ramDisk.cells p.2.disk) = sectorOf bootDisk ∧
      ∃ v : Vol ramDisk, p.2 = ⟨some v.fs, 0 + 1, v.disk⟩ ∧ Mounts (sectorOf bootDisk) 0 (0 + 1) v) := by
  refine Sat.mono (fMount_iff (D := ramDisk) (s := ⟨none, 0, bootDisk⟩) emptyVol.fs (by decide)
    bootDisk_whole.toFitting.readable) ?_ (fun _ => id)
  rintro p ⟨-, hiff, hst, hall⟩
  obtain ⟨v, hv, -, -, hmounts⟩ := hall 0 bootDisk_holds
  exact ⟨hiff.2 ⟨0, bootDisk_holds⟩, hst, v, hv, hmounts bootDisk_whole⟩

end Fatfs
end CheriOS
