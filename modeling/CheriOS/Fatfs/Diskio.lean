import CheriOS.Lib.Outcome
import Mathlib.Data.BitVec
/-!
# Diskio — the RAM disk under the file system (`diskio.c`, built without `VIRTIO_BLOCK`)

`idisk` is 800 sectors of 512 bytes.  Three functions compute its end, each in 64-bit arithmetic and each in its own way.
The caller's buffer is as long as its request; what it holds beyond that is not looked at.
-/
namespace CheriOS
namespace Fatfs

open Outcome

/-- Bytes, from the start of a buffer or of `idisk`. -/
abbrev Bytes := Nat → BitVec 8

def sectorSz : BitVec 64 := 512

def idiskSz : BitVec 64 := 800 * sectorSz

/-- `DRESULT`. -/
inductive Dresult where
  | ok | error | wrprt | notrdy | parerr
  deriving DecidableEq, Repr

/-- The assertions, by the function they stand in: `pdrv == 0`, and the `assert(0)` of a branch. -/
inductive Site where
  | readPdrv | readRange | writePdrv | writeRange | ioctlPdrv | ioctlCmd
  deriving DecidableEq, Repr

inductive Stop where
  | assertion (site : Site)
  | trap
  deriving DecidableEq, Repr

def assert (e : Bool) (site : Site) : Except Stop Unit := if e then .ok () else .error (.assertion site)

/-! ## Memory -/

/-- `memcpy(dst + at, src + from, n)`. -/
def memcpy (dst : Bytes) (dstAt : Nat) (src : Bytes) (srcAt n : Nat) : Bytes :=
  fun i => if dstAt ≤ i ∧ i < dstAt + n then src (srcAt + (i - dstAt)) else dst i

/-- `idisk + start` is a capability for `idisk` alone: bytes outside it cannot be accessed. -/
def access (start len : BitVec 64) : Except Stop Unit :=
  if len = 0 ∨ start.toNat + len.toNat ≤ idiskSz.toNat then .ok () else .error .trap

/-! ## The functions -/

/-- The body `disk_read` and `disk_write` share: `copy` moves the bytes of the range into what was `old`. -/
def transfer (pdrvSite rangeSite : Site) (pdrv : BitVec 8) (sector : BitVec 64) (count : BitVec 32) (old : Bytes)
    (copy : Nat → Nat → Bytes) : Except Stop (Dresult × Bytes) := do
  assert (pdrv == 0) pdrvSite
  let start := sector * sectorSz
  let len := count.setWidth 64 * sectorSz
  if start + len ≥ idiskSz then
    assert false rangeSite
    return (.parerr, old)
  else
    access start len
    return (.ok, copy start.toNat len.toNat)

/-- What is left in `buff`. -/
def diskRead (pdrv : BitVec 8) (buff : Bytes) (sector : BitVec 64) (count : BitVec 32) (idisk : Bytes) :
    Except Stop (Dresult × Bytes) :=
  transfer .readPdrv .readRange pdrv sector count buff (fun start len => memcpy buff 0 idisk start len)

/-- What is left in `idisk`. -/
def diskWrite (pdrv : BitVec 8) (buff : Bytes) (sector : BitVec 64) (count : BitVec 32) (idisk : Bytes) :
    Except Stop (Dresult × Bytes) :=
  transfer .writePdrv .writeRange pdrv sector count idisk (fun start len => memcpy idisk start buff 0 len)

abbrev ctrlSync : BitVec 8 := 0
abbrev getSectorCount : BitVec 8 := 1
abbrev getBlockSize : BitVec 8 := 3

/-- `buf` is the `DWORD` the caller's buffer holds. -/
def diskIoctl (pdrv cmd : BitVec 8) (buf : BitVec 64) : Except Stop (Dresult × BitVec 64) := do
  assert (pdrv == 0) .ioctlPdrv
  if cmd = ctrlSync then return (.ok, buf)
  else if cmd = getSectorCount then return (.ok, idiskSz)
  else if cmd = getBlockSize then return (.ok, 1)
  else
    assert false .ioctlCmd
    return (.parerr, buf)

/-! ## What a file system expects -/

/-- The sectors numbered `k` hold the same bytes. -/
def SameSector (idisk idisk' : Bytes) (k : Nat) : Prop :=
  ∀ i < sectorSz.toNat, idisk' (k * sectorSz.toNat + i) = idisk (k * sectorSz.toNat + i)

/-- **A request on a disk of `n` sectors**: it succeeds exactly inside the disk, is otherwise refused with nothing changed,
and what is written is what is read, and written nowhere else. -/
structure Meets (n : Nat) (sector : BitVec 64) (count : BitVec 32) : Prop where
  reads : ∀ buff idisk, (∃ buff', diskRead 0 buff sector count idisk = .ok (.ok, buff')) ↔
    sector.toNat + count.toNat ≤ n
  writes : ∀ buff idisk, (∃ idisk', diskWrite 0 buff sector count idisk = .ok (.ok, idisk')) ↔
    sector.toNat + count.toNat ≤ n
  readRefused : ∀ buff idisk, n < sector.toNat + count.toNat →
    ∃ r, r ≠ .ok ∧ diskRead 0 buff sector count idisk = .ok (r, buff)
  writeRefused : ∀ buff idisk, n < sector.toNat + count.toNat →
    ∃ r, r ≠ .ok ∧ diskWrite 0 buff sector count idisk = .ok (r, idisk)
  written : ∀ buff idisk idisk', diskWrite 0 buff sector count idisk = .ok (.ok, idisk') → ∀ other,
    ∃ buff', diskRead 0 other sector count idisk' = .ok (.ok, buff') ∧
      ∀ i < count.toNat * sectorSz.toNat, buff' i = buff i
  others : ∀ buff idisk idisk', diskWrite 0 buff sector count idisk = .ok (.ok, idisk') →
    ∀ k, k < sector.toNat ∨ sector.toNat + count.toNat ≤ k → SameSector idisk idisk' k

/-- The number of sectors `disk_ioctl` reports is that of the whole sectors of `idisk`, and a request keeps to it. -/
def Agrees (sector : BitVec 64) (count : BitVec 32) : Prop :=
  ∃ n : BitVec 64, (∀ buf, diskIoctl 0 getSectorCount buf = .ok (.ok, n)) ∧
    n.toNat = idiskSz.toNat / sectorSz.toNat ∧ Meets n.toNat sector count

/-! ## What one request does -/

variable {sector : BitVec 64} {count : BitVec 32} {buff idisk old : Bytes} {copy : Nat → Nat → Bytes} {p r : Site}

/-- The start and the length of a range that does not wrap. -/
theorem range_toNat (h : sector.toNat + count.toNat < 2 ^ 54) :
    (sector * sectorSz).toNat = sector.toNat * 512 ∧ (count.setWidth 64 * sectorSz).toNat = count.toNat * 512 := by
  have hc : (count.setWidth 64).toNat = count.toNat := BitVec.toNat_setWidth_of_le (by omega)
  rw [BitVec.toNat_mul, BitVec.toNat_mul, hc]
  exact ⟨Nat.mod_eq_of_lt (by simp [sectorSz]; omega), Nat.mod_eq_of_lt (by simp [sectorSz]; omega)⟩

/-- Where nothing wraps, the check compares sectors. -/
theorem range_check (h : sector.toNat + count.toNat < 2 ^ 54) :
    sector * sectorSz + count.setWidth 64 * sectorSz ≥ idiskSz ↔ 800 ≤ sector.toNat + count.toNat := by
  obtain ⟨hs, hc⟩ := range_toNat h
  rw [ge_iff_le, BitVec.le_def, BitVec.toNat_add, hs, hc, Nat.mod_eq_of_lt (by omega)]
  simp only [idiskSz, sectorSz]
  show 409600 ≤ _ ↔ _
  omega

/-- **A request that ends below the last sector is served.** -/
theorem transfer_served (h : sector.toNat + count.toNat < 800) :
    transfer p r 0 sector count old copy = .ok (.ok, copy (sector.toNat * 512) (count.toNat * 512)) := by
  have hsmall : sector.toNat + count.toNat < 2 ^ 54 := by omega
  obtain ⟨hs, hc⟩ := range_toNat hsmall
  have hin : access (sector * sectorSz) (count.setWidth 64 * sectorSz) = .ok () := by
    refine if_pos (.inr ?_)
    rw [hs, hc]
    show _ ≤ 409600
    omega
  have hcheck := mt (range_check hsmall).1 (by omega)
  simp [transfer, assert, hcheck, hin, hs, hc]

/-- **One that ends at the last sector or behind it fails the assertion.** -/
theorem transfer_asserts (h : 800 ≤ sector.toNat + count.toNat) (hsmall : sector.toNat + count.toNat < 2 ^ 54) :
    transfer p r 0 sector count old copy = .error (.assertion r) := by
  have hcheck := (range_check hsmall).2 h
  simp [transfer, assert, hcheck]

/-- No request is refused: the error code stands behind an assertion that fails. -/
theorem transfer_ok {res : Dresult} {new : Bytes} (h : transfer p r 0 sector count old copy = .ok (res, new)) :
    res = .ok := by
  simp only [transfer, assert, beq_self_eq_true, if_true, ok_bind] at h
  split at h
  · cases h
  · obtain ⟨-, -, h⟩ := bind_eq_ok.1 h
    cases h; rfl

/-- **Sector numbers are taken modulo 2^55**: the product wraps, and a sector far outside the disk is one inside it. -/
theorem transfer_wraps :
    transfer p r 0 (sector + 2 ^ 55) count old copy = transfer p r 0 sector count old copy := by
  have hwrap : (sector + 2 ^ 55) * sectorSz = sector * sectorSz := by
    rw [BitVec.add_mul]
    exact BitVec.add_zero _
  rw [transfer, hwrap, ← transfer]

theorem diskRead_served (h : sector.toNat + count.toNat < 800) :
    diskRead 0 buff sector count idisk =
      .ok (.ok, memcpy buff 0 idisk (sector.toNat * 512) (count.toNat * 512)) := transfer_served h

theorem diskWrite_served (h : sector.toNat + count.toNat < 800) :
    diskWrite 0 buff sector count idisk =
      .ok (.ok, memcpy idisk (sector.toNat * 512) buff 0 (count.toNat * 512)) := transfer_served h

/-- **A disk of at least 800 sectors, up to where sector numbers wrap, is what the code makes of requests that end below
sector 800**, and of no others. -/
theorem meets_iff {n : Nat} (hn : 800 ≤ n) (hmax : n < 2 ^ 54) (sector : BitVec 64) (count : BitVec 32) :
    Meets n sector count ↔ sector.toNat + count.toNat < 800 := by
  refine ⟨fun h => ?_, fun h => ?_⟩
  · by_contra hge
    rw [Nat.not_lt] at hge
    rcases Nat.lt_or_ge n (sector.toNat + count.toNat) with hout | hin
    · obtain ⟨r, hr, he⟩ := h.readRefused (fun _ => 0) (fun _ => 0) hout
      exact hr (transfer_ok he)
    · obtain ⟨_, he⟩ := (h.reads (fun _ => 0) (fun _ => 0)).2 hin
      have hstop : diskRead 0 (fun _ => 0) sector count (fun _ => 0) = .error (.assertion .readRange) :=
        transfer_asserts hge (by omega)
      rw [hstop] at he
      cases he
  · have hin : sector.toNat + count.toNat ≤ n := by omega
    refine ⟨fun _ _ => ⟨fun _ => hin, fun _ => ⟨_, diskRead_served h⟩⟩,
      fun _ _ => ⟨fun _ => hin, fun _ => ⟨_, diskWrite_served h⟩⟩, fun _ _ hout => absurd hin (Nat.not_le.2 hout),
      fun _ _ hout => absurd hin (Nat.not_le.2 hout), ?_, ?_⟩
    · intro buff idisk idisk' hw other
      rw [diskWrite_served h] at hw
      cases hw
      refine ⟨_, diskRead_served h, fun i hi => ?_⟩
      have hi : i < count.toNat * 512 := hi
      simp [memcpy, hi]
    · intro buff idisk idisk' hw k hk i hi
      rw [diskWrite_served h] at hw
      cases hw
      have hi : i < 512 := hi
      refine if_neg ?_
      show ¬ (sector.toNat * 512 ≤ k * 512 + i ∧ k * 512 + i < sector.toNat * 512 + count.toNat * 512)
      omega

/-- The number reported is that of the bytes. -/
theorem not_agrees (sector : BitVec 64) (count : BitVec 32) : ¬ Agrees sector count := by
  rintro ⟨n, hn, hcount, -⟩
  have hn0 : (.ok (.ok, idiskSz) : Except Stop (Dresult × BitVec 64)) = .ok (.ok, n) := hn 0
  cases hn0
  revert hcount
  decide

/-- **The RAM disk reports its size in bytes**, so no request agrees with it; and apart from that a request is met exactly
when it ends below the last sector, on the disk reported as on the one that is there. -/
theorem ramdisk_agrees (sector : BitVec 64) (count : BitVec 32) :
    ¬ Agrees sector count ∧ (∀ buf, diskIoctl 0 getSectorCount buf = .ok (.ok, 409600)) ∧
      (Meets 409600 sector count ↔ sector.toNat + count.toNat < 800) ∧
      (Meets (idiskSz.toNat / sectorSz.toNat) sector count ↔ sector.toNat + count.toNat < 800) :=
  ⟨not_agrees sector count, fun _ => rfl, meets_iff (by decide) (by decide) sector count,
    meets_iff (by decide) (by decide) sector count⟩

/-- **The last sector**: it is inside the disk that is reported, and reading it fails the assertion. -/
theorem last_sector_asserts :
    ¬ (∀ sector count, Agrees sector count) ∧
      diskRead 0 (fun _ => 0) 799 1 (fun _ => 0) = .error (.assertion .readRange) ∧
      diskIoctl 0 getSectorCount 0 = .ok (.ok, 409600) :=
  ⟨fun h => not_agrees 799 1 (h 799 1), rfl, rfl⟩

end Fatfs
end CheriOS
