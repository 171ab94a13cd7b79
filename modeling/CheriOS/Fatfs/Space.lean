import CheriOS.Fatfs.File
import CheriOS.Lib.Sequential
import Mathlib.Order.Lattice.Nat
/-!
# Space — files as their callers know them

A file is a string of bytes, some of which may never have been written, with a position in it; and it holds whole clusters of
a space that all files share.  What a call answers and does is told by that alone.
-/
namespace CheriOS
namespace Fatfs

/-- **A file**: how it is opened, its clusters and its bytes, where `none` is one that was never written. -/
structure File where
  opened : Bool
  readable : Bool
  writable : Bool
  clusters : Nat
  size : Nat
  pos : Nat
  data : Nat → Option (BitVec 8)

/-- So many bytes take so many clusters of `u` bytes. -/
def clustersFor (u n : Nat) : Nat := (n + u - 1) / u

namespace File

/-- `n` bytes of `bs` are written. -/
def write (u : Nat) (f : File) (bs : Bytes) (n : Nat) : File :=
  { f with
    clusters := max f.clusters (clustersFor u (f.pos + n))
    size := max f.size (f.pos + n)
    pos := f.pos + n
    data := fun p => if f.pos ≤ p ∧ p < f.pos + n then some (bs (p - f.pos)) else f.data p }

/-- The position becomes `p`. -/
def seek (u : Nat) (f : File) (p : Nat) : File :=
  { f with clusters := max f.clusters (clustersFor u p), size := max f.size p, pos := p }

/-- The file is cut at its position. -/
def cut (u : Nat) (f : File) : File :=
  { f with clusters := clustersFor u f.pos, size := f.pos, data := fun p => if p < f.pos then f.data p else none }

end File

/-- **The files and the number of free clusters.** -/
structure Space where
  free : Nat
  file : Nat → File

inductive Request where
  | read (i : Nat) (buff : Bytes) (btr : BitVec 32)
  | write (i : Nat) (buff : Bytes) (btw : BitVec 32)
  | lseek (i : Nat) (ofs : BitVec 64)
  | truncate (i : Nat)
  | sync (i : Nat)
  | close (i : Nat)

def Request.file : Request → Nat
  | .read i _ _ | .write i _ _ | .lseek i _ | .truncate i | .sync i | .close i => i

/-- What a call returns, `*br` or `*bw`, and the caller's buffer. -/
structure Reply (β : Type) where
  res : Fresult
  count : Nat
  buff : Nat → β

/-- A reply without bytes. -/
def Reply.bare {β : Type} [Inhabited β] (res : Fresult) (count : Nat) : Reply β := ⟨res, count, fun _ => default⟩

/-- **What a file does**, where `u` is the size of a cluster and `free` of them are left: reads end at the end of the file, and
writes and seeks where all clusters are taken. -/
def File.serve (u free : Nat) (f : File) : Request → Reply (Option (BitVec 8)) × File
  | .read _ buff btr =>
    if ¬ f.opened then (⟨.invalidObject, 0, fun k => some (buff k)⟩, f)
    else if ¬ f.readable then (⟨.denied, 0, fun k => some (buff k)⟩, f)
    else
      let n := min btr.toNat (f.size - f.pos)
      (⟨.ok, n, fun k => if k < n then f.data (f.pos + k) else some (buff k)⟩, { f with pos := f.pos + n })
  | .write _ buff btw =>
    if ¬ f.opened then (.bare .invalidObject 0, f)
    else if ¬ f.writable then (.bare .denied 0, f)
    else
      let n := min btw.toNat ((f.clusters + free) * u - f.pos)
      (.bare .ok n, f.write u buff n)
  | .lseek _ ofs =>
    if ¬ f.opened then (.bare .invalidObject 0, f)
    else (.bare .ok 0, f.seek u (if f.writable then min ofs.toNat ((f.clusters + free) * u) else min ofs.toNat f.size))
  | .truncate _ =>
    if ¬ f.opened then (.bare .invalidObject 0, f)
    else if ¬ f.writable then (.bare .denied 0, f)
    else (.bare .ok 0, if f.pos < f.size then f.cut u else f)
  | .sync _ => (.bare (if f.opened then .ok else .invalidObject) 0, f)
  | .close _ => (.bare (if f.opened then .ok else .invalidObject) 0, { f with opened := false })

/-- **The files that share a space**: one file answers, and the clusters it takes or gives back are the space's. -/
def fileObject (u : Nat) : Sequential.Object Request (Reply (Option (BitVec 8))) Space := fun r s =>
  let f := s.file r.file
  let (reply, f') := f.serve u s.free r
  (reply, ⟨s.free + f.clusters - f'.clusters, Function.update s.file r.file f'⟩)

/-- **A reply that is one of the file**: where a byte is known, it is that byte. -/
structure Reply.Agrees (r : Reply (BitVec 8)) (a : Reply (Option (BitVec 8))) : Prop where
  res : r.res = a.res
  count : r.count = a.count
  buff : ∀ k b, a.buff k = some b → r.buff k = b

/-- A call that reads nothing. -/
theorem Reply.agrees_bare (res : Fresult) {n m : Nat} (h : n = m) (buff : Nat → BitVec 8) :
    Reply.Agrees ⟨res, n, buff⟩ (.bare res m) :=
  ⟨rfl, h, fun _ b hb => absurd hb (Option.some_ne_none b).symm⟩

end Fatfs
end CheriOS
