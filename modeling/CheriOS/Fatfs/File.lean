import CheriOS.Fatfs.Count
import CheriOS.Fatfs.Mount
/-!
# File — reading and writing files (`ff.c`)

A file object has a buffer of one sector of its own.  Sectors that are wanted as a whole go between the drive and the
caller directly, past the buffer, and the rest goes through it; what is written there stays in it until the buffer is
needed for another sector.
-/
namespace CheriOS
namespace Fatfs

variable {D : Disk}

abbrev faWrite : BitVec 8 := 2
abbrev faModified : BitVec 8 := 0x20
abbrev faDirty : BitVec 8 := 0x40

/-- `_FDID`: `fs` is null or the volume, as there is one. -/
structure Fdid where
  fs : Bool
  id : BitVec 16
  sclust : BitVec 64
  objsize : BitVec 64

/-- `FIL`, with `dir_ptr` counted from the start of the window. -/
structure Fil where
  obj : Fdid
  flag : BitVec 8
  err : Fresult
  fptr : BitVec 64
  clust : BitVec 64
  sect : BitVec 64
  dirSect : BitVec 64
  dirPtr : Nat
  buf : Bytes

/-- `0` where there is no such cluster. -/
def clust2sect (fs : FatFs) (clst : BitVec 64) : BitVec 64 :=
  let clst := clst - 2
  if clst ≥ fs.nFatent - 2 then 0 else clst * fs.csize.setWidth 64 + fs.database

def validate (v : Vol D) (fp : Fil) : Except Halt Fresult := do
  if ¬ fp.obj.fs ∨ v.fs.fsType = .none ∨ v.fs.id ≠ fp.obj.id then return .invalidObject
  let stat ← D.status v.fs.drv v.disk
  return if stat &&& staNoinit ≠ 0 then .invalidObject else .ok

/-- Check validity. -/
def checkValidity (v : Vol D) (fp : Fil) : Except Halt Fresult := do
  let res ← validate v fp
  return if res ≠ .ok then res else fp.err

/-! ## The buffer -/

/-- Write-back dirty sector cache. -/
def writeBack (v : Vol D) (fp : Fil) : Except Halt (Fresult × Fil × Vol D) := do
  if fp.flag &&& faDirty ≠ 0 then
    let (r, d) ← D.write v.fs.drv fp.buf fp.sect 1 v.disk
    if r ≠ .ok then return (.diskErr, fp, { v with disk := d })
    return (.ok, { fp with flag := fp.flag &&& ~~~faDirty }, { v with disk := d })
  else return (.ok, fp, v)

/-- Load data sector if not in cache. -/
def loadBuffer (v : Vol D) (fp : Fil) (sect : BitVec 64) : Except Halt (Fresult × Fil × Vol D) := do
  if fp.sect ≠ sect then
    let (res, fp, v) ← writeBack v fp
    if res ≠ .ok then return (res, fp, v)
    let (r, buf) ← D.read v.fs.drv fp.buf sect 1 v.disk
    if r ≠ .ok then return (.diskErr, { fp with buf := buf }, v)
    return (.ok, { fp with sect := sect, buf := buf }, v)
  else return (.ok, fp, v)

/-- How a turn of the loops below goes on: `ABORT`, `break`, so many bytes past the buffer, or through it. -/
inductive Turn where
  | abort (res : Fresult)
  | full
  | direct (cnt : BitVec 32)
  | buffered
  deriving DecidableEq, Repr

/-- The maximum of contiguous sectors, clipped at the cluster boundary. -/
def contiguous (fs : FatFs) (csect cc : BitVec 32) : BitVec 32 :=
  if csect + cc > fs.csize.setWidth 32 then fs.csize.setWidth 32 - csect else cc

/-- The part of the sector that is left, or wanted. -/
def rest (fptr : BitVec 64) (n : BitVec 32) : BitVec 32 :=
  let cnt := 512 - fptr.setWidth 32 % 512
  if cnt > n then n else cnt

/-! ## Reading -/

/-- The buffer behind its first `n` bytes. -/
def Bytes.skip (b : Bytes) (n : Nat) : Bytes := fun k => b (n + k)

/-- The first `n` bytes of `b`, and then `c`. -/
def Bytes.before (b : Bytes) (n : Nat) (c : Bytes) : Bytes := fun k => if k < n then b k else c (k - n)

/-- Follow cluster chain from the origin or on the FAT. -/
def follow (v : Vol D) (fp : Fil) : Except Halt (BitVec 64 × Vol D) :=
  if fp.fptr = 0 then return (fp.obj.sclust, v) else getFat v fp.clust

/-- On the cluster boundary? -/
def readCluster (v : Vol D) (fp : Fil) (csect : BitVec 32) : Except Halt (Turn × Fil × Vol D) := do
  if csect = 0 then
    let (clst, v) ← follow v fp
    if clst < 2 then return (.abort .intErr, fp, v)
    if clst = 0xFFFFFFFF then return (.abort .diskErr, fp, v)
    return (.buffered, { fp with clust := clst }, v)
  else return (.buffered, fp, v)

/-- Read maximum contiguous sectors directly; one of them may be in the buffer, and newer there. -/
def readDirect (v : Vol D) (fp : Fil) (rbuff : Bytes) (sect : BitVec 64) (cc : BitVec 32) :
    Except Halt (Turn × Bytes) := do
  let (r, rbuff) ← D.read v.fs.drv rbuff sect cc v.disk
  if r ≠ .ok then return (.abort .diskErr, rbuff)
  if fp.flag &&& faDirty ≠ 0 ∧ fp.sect - sect < cc.setWidth 64 then
    return (.direct (512 * cc), memcpy rbuff ((fp.sect - sect) * 512).toNat fp.buf 0 512)
  return (.direct (512 * cc), rbuff)

/-- On the sector boundary? -/
def readSector (v : Vol D) (fp : Fil) (rbuff : Bytes) (btr : BitVec 32) :
    Except Halt (Turn × Bytes × Fil × Vol D) := do
  if fp.fptr % 512 = 0 then
    let csect := (fp.fptr / 512 &&& (v.fs.csize.setWidth 64 - 1)).setWidth 32
    let (t, fp, v) ← readCluster v fp csect
    if t ≠ .buffered then return (t, rbuff, fp, v)
    let sect := clust2sect v.fs fp.clust
    if sect = 0 then return (.abort .intErr, rbuff, fp, v)
    let sect := sect + csect.setWidth 64
    let cc := btr / 512
    if cc ≠ 0 then
      let (t, rbuff) ← readDirect v fp rbuff sect (contiguous v.fs csect cc)
      return (t, rbuff, fp, v)
    let (res, fp, v) ← loadBuffer v fp sect
    if res ≠ .ok then return (.abort res, rbuff, fp, v)
    return (.buffered, rbuff, fp, v)
  else return (.buffered, rbuff, fp, v)

/-- The sector's part that is wanted is picked out of the buffer. -/
def readTurn (v : Vol D) (fp : Fil) (rbuff : Bytes) (btr : BitVec 32) :
    Except Halt (Turn × Bytes × Fil × Vol D) := do
  let (t, rbuff, fp, v) ← readSector v fp rbuff btr
  if t = .buffered then
    let rcnt := rest fp.fptr btr
    return (.direct rcnt, memcpy rbuff 0 fp.buf (fp.fptr.toNat % 512) rcnt.toNat, fp, v)
  else return (t, rbuff, fp, v)

/-- Repeat until all data read: `buff` with `br` bytes read, and `btr` bytes to go. -/
def readLoop : Nat → Vol D → Fil → Bytes → BitVec 32 → BitVec 32 →
    Except Halt (Fresult × Bytes × BitVec 32 × Fil × Vol D)
  | 0, _, _, _, _, _ => .error .hang
  | n + 1, v, fp, buff, btr, br => do
    if btr = 0 then return (.ok, buff, br, fp, v)
    let (t, rbuff, fp, v) ← readTurn v fp (buff.skip br.toNat) btr
    let buff := buff.before br.toNat rbuff
    match t with
    | .abort res => return (res, buff, br, { fp with err := res }, v)
    | .direct rcnt => readLoop n v { fp with fptr := fp.fptr + rcnt.setWidth 64 } buff (btr - rcnt) (br + rcnt)
    | _ => return (.ok, buff, br, fp, v)

def fRead (v : Vol D) (fp : Fil) (buff : Bytes) (btr : BitVec 32) :
    Except Halt (Fresult × Bytes × BitVec 32 × Fil × Vol D) := do
  let res ← checkValidity v fp
  if res ≠ .ok then return (res, buff, 0, fp, v)
  if fp.flag &&& faRead = 0 then return (.denied, buff, 0, fp, v)
  let remain := fp.obj.objsize - fp.fptr
  let btr := if btr.setWidth 64 > remain then remain.setWidth 32 else btr
  readLoop (btr.toNat + 1) v fp buff btr 0

/-! ## Writing -/

/-- Follow from the origin, or follow or stretch cluster chain on the FAT. -/
def stretch (v : Vol D) (fp : Fil) : Except Halt (BitVec 64 × Vol D) :=
  if fp.fptr = 0 then
    if fp.obj.sclust = 0 then createChain v 0 else return (fp.obj.sclust, v)
  else createChain v fp.clust

/-- Set start cluster if the first write. -/
def Fil.setClust (fp : Fil) (clst : BitVec 64) : Fil :=
  { fp with clust := clst, obj := if fp.obj.sclust = 0 then { fp.obj with sclust := clst } else fp.obj }

/-- On the cluster boundary? -/
def writeCluster (v : Vol D) (fp : Fil) (csect : BitVec 32) : Except Halt (Turn × Fil × Vol D) := do
  if csect = 0 then
    let (clst, v) ← stretch v fp
    if clst = 0 then return (.full, fp, v)
    if clst = 1 then return (.abort .intErr, fp, v)
    if clst = 0xFFFFFFFF then return (.abort .diskErr, fp, v)
    return (.buffered, fp.setClust clst, v)
  else return (.buffered, fp, v)

/-- Write maximum contiguous sectors directly, and refill the buffer if one of them is its sector. -/
def writeDirect (v : Vol D) (fp : Fil) (wbuff : Bytes) (sect : BitVec 64) (cc : BitVec 32) :
    Except Halt (Turn × Fil × Vol D) := do
  let (r, d) ← D.write v.fs.drv wbuff sect cc v.disk
  let v := { v with disk := d }
  if r ≠ .ok then return (.abort .diskErr, fp, v)
  if fp.sect - sect < cc.setWidth 64 then
    let buf := memcpy fp.buf 0 wbuff ((fp.sect - sect) * 512).toNat 512
    return (.direct (512 * cc), { fp with buf := buf, flag := fp.flag &&& ~~~faDirty }, v)
  return (.direct (512 * cc), fp, v)

/-- Fill sector cache with file data, but not behind the end of the file. -/
def fillBuffer (v : Vol D) (fp : Fil) (sect : BitVec 64) : Except Halt (Turn × Fil × Vol D) := do
  if fp.sect ≠ sect ∧ fp.fptr < fp.obj.objsize then
    let (r, buf) ← D.read v.fs.drv fp.buf sect 1 v.disk
    if r ≠ .ok then return (.abort .diskErr, { fp with buf := buf }, v)
    return (.buffered, { fp with sect := sect, buf := buf }, v)
  else return (.buffered, { fp with sect := sect }, v)

/-- On the sector boundary? -/
def writeSector (v : Vol D) (fp : Fil) (wbuff : Bytes) (btw : BitVec 32) : Except Halt (Turn × Fil × Vol D) := do
  if fp.fptr % 512 = 0 then
    let csect := (fp.fptr / 512).setWidth 32 &&& (v.fs.csize.setWidth 32 - 1)
    let (t, fp, v) ← writeCluster v fp csect
    if t ≠ .buffered then return (t, fp, v)
    let (res, fp, v) ← writeBack v fp
    if res ≠ .ok then return (.abort res, fp, v)
    let sect := clust2sect v.fs fp.clust
    if sect = 0 then return (.abort .intErr, fp, v)
    let sect := sect + csect.setWidth 64
    let cc := btw / 512
    if cc ≠ 0 then writeDirect v fp wbuff sect (contiguous v.fs csect cc)
    else fillBuffer v fp sect
  else return (.buffered, fp, v)

/-- The part of the sector that is given is fit into the buffer. -/
def writeTurn (v : Vol D) (fp : Fil) (wbuff : Bytes) (btw : BitVec 32) : Except Halt (Turn × Fil × Vol D) := do
  let (t, fp, v) ← writeSector v fp wbuff btw
  if t = .buffered then
    let wcnt := rest fp.fptr btw
    let buf := memcpy fp.buf (fp.fptr.toNat % 512) wbuff 0 wcnt.toNat
    return (.direct wcnt, { fp with buf := buf, flag := fp.flag ||| faDirty }, v)
  else return (t, fp, v)

/-- After `n` bytes are written. -/
def Fil.advance (fp : Fil) (n : BitVec 32) : Fil :=
  let fptr := fp.fptr + n.setWidth 64
  { fp with fptr := fptr, obj := { fp.obj with objsize := if fptr > fp.obj.objsize then fptr else fp.obj.objsize } }

/-- Repeat until all data written: `bw` bytes are, and `btw` are to go. -/
def writeLoop : Nat → Vol D → Fil → Bytes → BitVec 32 → BitVec 32 → Except Halt (Fresult × BitVec 32 × Fil × Vol D)
  | 0, _, _, _, _, _ => .error .hang
  | n + 1, v, fp, buff, btw, bw => do
    if btw = 0 then return (.ok, bw, fp, v)
    let (t, fp, v) ← writeTurn v fp (buff.skip bw.toNat) btw
    match t with
    | .abort res => return (res, bw, { fp with err := res }, v)
    | .direct wcnt => writeLoop n v (fp.advance wcnt) buff (btw - wcnt) (bw + wcnt)
    | _ => return (.ok, bw, fp, v)

def fWrite (v : Vol D) (fp : Fil) (buff : Bytes) (btw : BitVec 32) :
    Except Halt (Fresult × BitVec 32 × Fil × Vol D) := do
  let res ← checkValidity v fp
  if res ≠ .ok then return (res, 0, fp, v)
  if fp.flag &&& faWrite = 0 then return (.denied, 0, fp, v)
  let btw := if fp.fptr + btw.setWidth 64 < fp.fptr then (0xFFFFFFFF - fp.fptr).setWidth 32 else btw
  let (res, bw, fp, v) ← writeLoop (btw.toNat + 1) v fp buff btw 0
  if res ≠ .ok then return (res, bw, fp, v)
  return (.ok, bw, { fp with flag := fp.flag ||| faModified }, v)

/-! ## Seeking -/

/-- Cluster size (byte). -/
def FatFs.bcs (fs : FatFs) : BitVec 64 := fs.csize.setWidth 64 * 512

/-- Force stretch if in write mode, or follow cluster chain if not. -/
def seekNext (v : Vol D) (fp : Fil) (clst : BitVec 64) : Except Halt (BitVec 64 × Vol D) :=
  if fp.flag &&& faWrite ≠ 0 then createChain v clst else getFat v clst

/-- Cluster following loop, from `clst` and with `ofs` to go; when disk gets full, the offset is clipped. -/
def seekLoop : Nat → Vol D → Fil → BitVec 64 → BitVec 64 →
    Except Halt (Fresult × BitVec 64 × BitVec 64 × Fil × Vol D)
  | 0, _, _, _, _ => .error .hang
  | n + 1, v, fp, clst, ofs => do
    if ofs > v.fs.bcs then
      let (clst, v) ← seekNext v fp clst
      if fp.flag &&& faWrite ≠ 0 ∧ clst = 0 then return (.ok, clst, v.fs.bcs, fp, v)
      if clst = 0xFFFFFFFF then return (.diskErr, clst, ofs, fp, v)
      if clst ≤ 1 ∨ clst ≥ v.fs.nFatent then return (.intErr, clst, ofs, fp, v)
      seekLoop n v { fp with clust := clst, fptr := fp.fptr + v.fs.bcs } clst (ofs - v.fs.bcs)
    else return (.ok, clst, ofs, fp, v)

/-- If no cluster chain, create a new chain. -/
def firstClust (v : Vol D) (fp : Fil) : Except Halt (Fresult × BitVec 64 × Fil × Vol D) := do
  if fp.obj.sclust = 0 then
    let (clst, v) ← createChain v 0
    if clst = 1 then return (.intErr, clst, fp, v)
    if clst = 0xFFFFFFFF then return (.diskErr, clst, fp, v)
    return (.ok, clst, { fp with obj := { fp.obj with sclust := clst }, clust := clst }, v)
  else return (.ok, fp.obj.sclust, { fp with clust := fp.obj.sclust }, v)

/-- Where the loop starts: from the current cluster, or from the first one. -/
def seekStart (v : Vol D) (fp : Fil) (ifptr ofs : BitVec 64) :
    Except Halt (Fresult × BitVec 64 × BitVec 64 × Fil × Vol D) := do
  if ifptr > 0 ∧ (ofs - 1) / v.fs.bcs ≥ (ifptr - 1) / v.fs.bcs then
    let fptr := (ifptr - 1) &&& ~~~(v.fs.bcs - 1)
    return (.ok, fp.clust, ofs - fptr, { fp with fptr := fptr }, v)
  else
    let (res, clst, fp, v) ← firstClust v fp
    return (res, clst, ofs, fp, v)

/-- The loop, and the current sector if there is one. -/
def seekTo (v : Vol D) (fp : Fil) (ifptr ofs : BitVec 64) : Except Halt (Fresult × BitVec 64 × Fil × Vol D) := do
  let (res, clst, ofs, fp, v) ← seekStart v fp ifptr ofs
  if res ≠ .ok then return (res, 0, fp, v)
  if clst ≠ 0 then
    let (res, clst, ofs, fp, v) ← seekLoop (ofs.toNat + 1) v fp clst ofs
    if res ≠ .ok then return (res, 0, fp, v)
    let fp := { fp with fptr := fp.fptr + ofs }
    if ofs % 512 ≠ 0 then
      let nsect := clust2sect v.fs clst
      if nsect = 0 then return (.intErr, 0, fp, v)
      return (.ok, nsect + ofs / 512, fp, v)
    return (.ok, 0, fp, v)
  else return (.ok, 0, fp, v)

/-- Set file change flag if the file size is extended. -/
def Fil.extend (fp : Fil) : Fil :=
  if fp.fptr > fp.obj.objsize then
    { fp with obj := { fp.obj with objsize := fp.fptr }, flag := fp.flag ||| faModified }
  else fp

/-- Fill sector cache if needed. -/
def seekEnd (v : Vol D) (fp : Fil) (nsect : BitVec 64) : Except Halt (Fresult × Fil × Vol D) := do
  if fp.fptr % 512 ≠ 0 then
    let (res, fp, v) ← loadBuffer v fp nsect
    return if res ≠ .ok then (res, { fp with err := res }, v) else (.ok, fp.extend, v)
  else return (.ok, fp.extend, v)

def fLseek (v : Vol D) (fp : Fil) (ofs : BitVec 64) : Except Halt (Fresult × Fil × Vol D) := do
  let res ← checkValidity v fp
  if res ≠ .ok then return (res, fp, v)
  let ofs := if ofs > fp.obj.objsize ∧ fp.flag &&& faWrite = 0 then fp.obj.objsize else ofs
  let ifptr := fp.fptr
  let fp := { fp with fptr := 0 }
  if ofs ≠ 0 then
    let (res, nsect, fp, v) ← seekTo v fp ifptr ofs
    if res ≠ .ok then return (res, { fp with err := res }, v)
    seekEnd v fp nsect
  else seekEnd v fp 0

/-! ## Truncating -/

/-- The clusters behind the current one. -/
def truncateRest (v : Vol D) (fp : Fil) : Except Halt (Fresult × Vol D) := do
  let (ncl, v) ← getFat v fp.clust
  if ncl = 0xFFFFFFFF then return (.diskErr, v)
  if ncl = 1 then return (.intErr, v)
  if ncl < v.fs.nFatent then removeChain v ncl fp.clust else return (.ok, v)

/-- When set file size to zero, remove entire cluster chain. -/
def truncateChain (v : Vol D) (fp : Fil) : Except Halt (Fresult × Fil × Vol D) := do
  if fp.fptr = 0 then
    let (res, v) ← removeChain v fp.obj.sclust 0
    return (res, { fp with obj := { fp.obj with sclust := 0 } }, v)
  else
    let (res, v) ← truncateRest v fp
    return (res, fp, v)

def fTruncate (v : Vol D) (fp : Fil) : Except Halt (Fresult × Fil × Vol D) := do
  let res ← checkValidity v fp
  if res ≠ .ok then return (res, fp, v)
  if fp.flag &&& faWrite = 0 then return (.denied, fp, v)
  if fp.obj.objsize > fp.fptr then
    let (res, fp, v) ← truncateChain v fp
    let fp := { fp with obj := { fp.obj with objsize := fp.fptr }, flag := fp.flag ||| faModified }
    if res ≠ .ok then return (res, { fp with err := res }, v)
    let (res, fp, v) ← writeBack v fp
    if res ≠ .ok then return (res, { fp with err := res }, v)
    return (.ok, fp, v)
  else return (.ok, fp, v)

/-! ## Synchronizing and closing -/

/-- `GET_FATTIME()`, without a clock. -/
def fattime : BitVec 64 := (2016 - 1980) <<< 25 ||| 3 <<< 21 ||| 1 <<< 16

/-- The top cluster value of the entry at `dir`. -/
def ldClust (fs : FatFs) (win : Bytes) (dir : Nat) : BitVec 64 :=
  let cl := (ldWord win (dir + 26)).setWidth 64
  if fs.fsType = .fat32 then cl ||| (ldWord win (dir + 20)).setWidth 64 <<< 16 else cl

def stClust (fs : FatFs) (win : Bytes) (dir : Nat) (cl : BitVec 64) : Bytes :=
  let win := stWord win (dir + 26) (cl.setWidth 16)
  if fs.fsType = .fat32 then stWord win (dir + 20) ((cl >>> 16).setWidth 16) else win

/-- Update the directory entry, at `dir` in the window. -/
def updateEntry (fs : FatFs) (dir : Nat) (obj : Fdid) : Bytes :=
  let win := Function.update fs.win (dir + 11) (fs.win (dir + 11) ||| 0x20)
  let win := stClust fs win dir obj.sclust
  let win := stDword win (dir + 28) obj.objsize
  let win := stDword win (dir + 22) fattime
  stWord win (dir + 18) 0

def fSync (v : Vol D) (fp : Fil) : Except Halt (Fresult × Fil × Vol D) := do
  let res ← validate v fp
  if res ≠ .ok then return (res, fp, v)
  if fp.flag &&& faModified ≠ 0 then
    let (res, fp, v) ← writeBack v fp
    if res ≠ .ok then return (res, fp, v)
    let (res, v) ← moveWindow v fp.dirSect
    if res ≠ .ok then return (res, fp, v)
    let (res, v) ← syncFs (v.edit (updateEntry v.fs fp.dirPtr fp.obj))
    return (res, { fp with flag := fp.flag &&& ~~~faModified }, v)
  else return (.ok, fp, v)

/-- Invalidate file object. -/
def Fil.close (fp : Fil) : Fil := { fp with obj := { fp.obj with fs := false } }

def fClose (v : Vol D) (fp : Fil) : Except Halt (Fresult × Fil × Vol D) := do
  let (res, fp, v) ← fSync v fp
  if res ≠ .ok then return (res, fp, v)
  let res ← validate v fp
  return (res, if res = .ok then fp.close else fp, v)

end Fatfs
end CheriOS
