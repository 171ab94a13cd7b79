import CheriOS.Lib.Mask
import CheriOS.Lib.Run
import CheriOS.Memmgt.Separation
/-!
# Alloc — the allocator of `init`, before there is memory management

`init_alloc` hands out the pool from its start on and takes nothing back.  The capability it returns is bounded by the
size rounded to the page after it, the next block starts at the size rounded to a page from where the block began, and
the end test looks at neither: it compares the size itself.  What a request gets is right exactly when these agree.
-/
namespace CheriOS
namespace Boot

open Memmgt (Covers zeroed wiped mapFailed)

/-! ## `uintptr_t` -/

/-- What a compiler makes of `uintptr_t`, which is a capability here (`mips.h`): its value is the address or the offset,
and a comparison may go by the tag before it goes by the value. -/
structure UintCap where
  address : Bool
  tagged : Bool
  deriving DecidableEq, Repr

def UintCap.val (u : UintCap) (p : Cap) : BitVec 64 := if u.address then p.addr else p.offset

/-- `n > 0`, for an `n` computed from `p`. -/
def UintCap.positive (u : UintCap) (p : Cap) (n : BitVec 64) : Bool := (u.tagged && p.tag) || decide (0 < n)

def alignUpwards (u : UintCap) (p : Cap) (align : BitVec 64) : Cap :=
  let addr := p
  let offset := u.val addr - (u.val addr &&& ~~~(align - 1))
  if u.positive addr offset then addr.incOffset (align - offset) else addr

/-! ## The pool -/

def poolSize : BitVec 64 := 1024 * 160

structure State where
  poolStart : Cap
  poolEnd : Cap
  poolNext : Cap
  systemAlloc : Bool
  mem : BitVec 64 → BitVec 8

/-- `pool_next + s >= pool_end`. -/
def State.refuses (st : State) (s : BitVec 64) : Bool := decide (st.poolEnd.addr ≤ (st.poolNext.incOffset s).addr)

def upSize (s : BitVec 64) : BitVec 64 := (s + 0x1000) &&& ~~~(0xfff : BitVec 64)

/-- `none` where the bounds cannot be set. -/
def initAllocCore (u : UintCap) (s : BitVec 64) (st : State) : Option (Cap × State) :=
  if st.refuses s then some (Cap.null, st)
  else (st.poolNext.setBounds (upSize s)).map fun p =>
    (p, { st with poolNext := alignUpwards u (st.poolNext.incOffset s) 4096 })

def initAllocInit (pool : Cap) (mem : BitVec 64 → BitVec 8) : Option State := do
  let start ← pool.setBounds poolSize
  let start ← start.andPerm (~~~Cap.permExecute)
  if wiped pool poolSize = poolSize.toNat then
    some { poolStart := start, poolEnd := pool.incOffset poolSize, poolNext := start, systemAlloc := false
           mem := zeroed mem pool.addr (wiped pool poolSize) }
  else none

/-- `mmap` is the system allocator's answer to a request. -/
def initAlloc (u : UintCap) (mmap : BitVec 64 → Cap) (s : BitVec 64) (st : State) : Option (Cap × State) :=
  if st.systemAlloc then
    let p := mmap s
    some (if p = mapFailed then Cap.null else p, st)
  else initAllocCore u s st

/-- **Where the pool is**: a valid capability to writable memory, whose end is an address. -/
structure Placed (pool : Cap) : Prop where
  tag : pool.tag = true
  isSealed : pool.isSealed = false
  store : pool.hasPerms Cap.permStore = true
  fits : pool.offset.toNat + poolSize.toNat ≤ pool.len.toNat
  below : pool.base.toNat + pool.offset.toNat + poolSize.toNat < 2 ^ 64

variable {u : UintCap} {pool p q : Cap} {mmap : BitVec 64 → Cap} {s x : BitVec 64} {st st' : State}
  {mem : BitVec 64 → BitVec 8}

theorem poolSize_toNat : poolSize.toNat = 163840 := rfl

theorem Placed.addr_toNat (hP : Placed pool) : pool.addr.toNat = pool.base.toNat + pool.offset.toNat := by
  have h := hP.below
  unfold Cap.addr
  rw [BitVec.toNat_add]
  omega

/-- The capability to the pool that the blocks are cut from. -/
def poolCap (pool : Cap) : Cap :=
  { pool with base := pool.addr, len := poolSize, offset := 0, perms := pool.perms &&& ~~~Cap.permExecute }

def bootedState (pool : Cap) (mem : BitVec 64 → BitVec 8) : State where
  poolStart := poolCap pool
  poolEnd := pool.incOffset poolSize
  poolNext := poolCap pool
  systemAlloc := false
  mem := zeroed mem pool.addr poolSize.toNat

theorem Placed.initAllocInit_eq (hP : Placed pool) : initAllocInit pool mem = some (bootedState pool mem) := by
  have hset : pool.setBounds poolSize = some { pool with base := pool.addr, len := poolSize, offset := 0 } := by
    unfold Cap.setBounds
    rw [hP.tag, hP.isSealed, decide_eq_true hP.fits]
    rfl
  have hperm : Cap.andPerm { pool with base := pool.addr, len := poolSize, offset := 0 } (~~~Cap.permExecute) =
      some (poolCap pool) := by
    have hok : (pool.tag && !pool.isSealed) = true := by rw [hP.tag, hP.isSealed]; rfl
    unfold Cap.andPerm
    rw [if_pos hok]
    rfl
  have hwiped : wiped pool poolSize = poolSize.toNat := Memmgt.wiped_of_fits hP.tag hP.isSealed hP.store hP.fits
  unfold initAllocInit
  rw [hset, Option.bind_eq_bind, Option.bind_some, hperm, Option.bind_some, if_pos hwiped, hwiped]
  rfl

/-! ## What a request does -/

/-- **The pool as the allocator has it**: what is left of it starts at `poolNext`, inside its bounds. -/
structure Laid (pool : Cap) (st : State) : Prop where
  placed : Placed pool
  own : st.systemAlloc = false
  stop : st.poolEnd.addr.toNat = pool.addr.toNat + poolSize.toNat
  tag : st.poolNext.tag = true
  isSealed : st.poolNext.isSealed = false
  base : st.poolNext.base = pool.addr
  len : st.poolNext.len = poolSize
  reach : st.poolNext.offset.toNat ≤ poolSize.toNat + 4096

/-- The pages that a block of `s` bytes takes: one more than `s` fills. -/
def pages (s : BitVec 64) : Nat := s.toNat / 4096 + 1

theorem upSize_toNat (h : s.toNat + 4096 < 2 ^ 64) : (upSize s).toNat = pages s * 4096 := by
  have hmask := Mask.toNat_and_not_low (w := 64) (m := s + 0x1000) (k := 12)
  have hadd : (s + 0x1000 : BitVec 64).toNat = s.toNat + 4096 := by
    rw [BitVec.toNat_add, show (0x1000 : BitVec 64).toNat = 4096 from rfl, Nat.mod_eq_of_lt h]
  rw [hadd] at hmask
  unfold upSize pages
  rw [show (0xfff : BitVec 64) = BitVec.ofNat 64 (2 ^ 12 - 1) from rfl, hmask]
  omega

/-! ## Where the next block starts -/

/-- What `align_upwards` adds to a page offset `q`. -/
def pad (u : UintCap) (q : Nat) : Nat := if u.tagged = true ∨ q ≠ 0 then 4096 - q else 0

theorem alignUpwards_page (hp : p.tag = true) :
    alignUpwards u p 4096 = p.incOffset (BitVec.ofNat 64 (pad u ((u.val p).toNat % 4096))) := by
  have hmask := Mask.toNat_and_not_low (w := 64) (m := u.val p) (k := 12)
  have hoff : u.val p - (u.val p &&& ~~~(4096 - 1 : BitVec 64)) = BitVec.ofNat 64 ((u.val p).toNat % 4096) := by
    apply BitVec.eq_of_toNat_eq
    have hle : (u.val p &&& ~~~(4096 - 1 : BitVec 64)) ≤ u.val p := by
      rw [BitVec.le_def, show (4096 - 1 : BitVec 64) = BitVec.ofNat 64 (2 ^ 12 - 1) from rfl, hmask]
      exact Nat.div_mul_le_self _ _
    rw [BitVec.toNat_sub_of_le hle, show (4096 - 1 : BitVec 64) = BitVec.ofNat 64 (2 ^ 12 - 1) from rfl, hmask,
      BitVec.toNat_ofNat]
    omega
  have hq : (u.val p).toNat % 4096 < 4096 := Nat.mod_lt _ (by decide)
  unfold alignUpwards
  simp only [hoff]
  generalize (u.val p).toNat % 4096 = q at hq
  have hpos : u.positive p (BitVec.ofNat 64 q) = true ↔ u.tagged = true ∨ q ≠ 0 := by
    have hlt : (0 : BitVec 64) < BitVec.ofNat 64 q ↔ q ≠ 0 := by
      rw [BitVec.lt_def, BitVec.toNat_ofNat, Nat.mod_eq_of_lt (by omega)]
      exact Nat.pos_iff_ne_zero
    unfold UintCap.positive
    rw [hp, Bool.and_true, Bool.or_eq_true, decide_eq_true_eq, hlt]
  unfold pad
  by_cases h : u.tagged = true ∨ q ≠ 0
  · have hsub : (4096 : BitVec 64) - BitVec.ofNat 64 q = BitVec.ofNat 64 (4096 - q) := by
      apply BitVec.eq_of_toNat_eq
      rw [BitVec.toNat_sub, BitVec.toNat_ofNat, BitVec.toNat_ofNat, show (4096 : BitVec 64).toNat = 4096 from rfl]
      omega
    rw [if_pos (hpos.2 h), if_pos h, hsub]
  · rw [if_neg (fun hp => h (hpos.1 hp)), if_neg h]
    unfold Cap.incOffset
    rw [show p.offset + BitVec.ofNat 64 0 = p.offset from BitVec.add_zero _]

/-- **A block of `s` bytes at `next` ends before the next one starts**: it starts on a page and does not fill its last
page, or it starts inside a page and reaches the end of that one.  Where the end of the `s` bytes is itself on a page,
the next block starts there, unless the tag decides the comparison. -/
def LeavesApart (u : UintCap) (next : Cap) (s : BitVec 64) : Prop :=
  let r := (u.val next).toNat % 4096
  let t := s.toNat % 4096
  (u.tagged = true ∨ (r + t) % 4096 ≠ 0) ∧ (r = 0 ∨ 4096 ≤ r + t)

instance : Decidable (LeavesApart u p s) := inferInstanceAs (Decidable (_ ∧ _))

theorem val_incOffset (d : BitVec 64) : u.val (p.incOffset d) = u.val p + d := by
  unfold UintCap.val Cap.addr Cap.incOffset
  cases u.address
  · rfl
  · simp only [if_true]
    bv_omega

/-- **Two ways of rounding**: the end of the block and the start of the next. -/
theorem leavesApart_iff : LeavesApart u p s ↔
    pages s * 4096 ≤ s.toNat + pad u ((u.val (p.incOffset s)).toNat % 4096) := by
  have hval : (u.val (p.incOffset s)).toNat % 4096 = ((u.val p).toNat % 4096 + s.toNat % 4096) % 4096 := by
    rw [val_incOffset, BitVec.toNat_add]
    omega
  unfold LeavesApart pages pad
  rw [hval]
  by_cases ht : u.tagged = true
  · simp only [ht, true_or, true_and, if_true]
    omega
  · simp only [ht, false_or, Bool.false_eq_true]
    split <;> omega

/-- **A request is refused, or its pages are there.** -/
def Fits (st : State) (s : BitVec 64) : Prop :=
  st.refuses s = true ∨ st.poolNext.offset.toNat + pages s * 4096 ≤ poolSize.toNat

instance : Decidable (Fits st s) := inferInstanceAs (Decidable (_ ∨ _))

/-- The capability to the pages of a block of `s` bytes at `next`. -/
def blockAt (next : Cap) (s : BitVec 64) : Cap :=
  { next with base := next.addr, len := BitVec.ofNat 64 (pages s * 4096), offset := 0 }

/-- What is left of the pool after a block of `s` bytes. -/
def nextAfter (u : UintCap) (next : Cap) (s : BitVec 64) : Cap :=
  next.incOffset (BitVec.ofNat 64 (s.toNat + pad u ((u.val (next.incOffset s)).toNat % 4096)))

theorem Laid.initAlloc_refused (hL : Laid pool st) (h : st.refuses s = true) :
    initAlloc u mmap s st = some (Cap.null, st) := by
  unfold initAlloc initAllocCore
  rw [hL.own, if_neg Bool.false_ne_true, if_pos h]

theorem Laid.initAlloc_granted (hL : Laid pool st) (h : st.refuses s = false)
    (hfit : st.poolNext.offset.toNat + pages s * 4096 ≤ poolSize.toNat) :
    initAlloc u mmap s st = some (blockAt st.poolNext s, { st with poolNext := nextAfter u st.poolNext s }) := by
  have hlt : s.toNat < pages s * 4096 := by unfold pages; omega
  rw [poolSize_toNat] at hfit
  have hup : (upSize s).toNat = pages s * 4096 := upSize_toNat (by omega)
  have hupBV : upSize s = BitVec.ofNat 64 (pages s * 4096) := by
    rw [← hup, BitVec.ofNat_toNat, BitVec.setWidth_eq]
  have hset : st.poolNext.setBounds (upSize s) = some (blockAt st.poolNext s) := by
    have hok : (st.poolNext.tag && !st.poolNext.isSealed &&
        decide (st.poolNext.offset.toNat + (upSize s).toNat ≤ st.poolNext.len.toNat)) = true := by
      rw [hL.tag, hL.isSealed, hup, hL.len, poolSize_toNat, decide_eq_true hfit]
      rfl
    unfold Cap.setBounds
    rw [if_pos hok, hupBV]
    rfl
  have hnext : alignUpwards u (st.poolNext.incOffset s) 4096 = nextAfter u st.poolNext s := by
    rw [alignUpwards_page (p := st.poolNext.incOffset s) hL.tag]
    unfold nextAfter Cap.incOffset
    rw [BitVec.ofNat_add, BitVec.ofNat_toNat, BitVec.setWidth_eq, BitVec.add_assoc]
  unfold initAlloc initAllocCore
  rw [hL.own, if_neg Bool.false_ne_true, if_neg (by simp [h]), hset, Option.map_some, hnext]

theorem initAlloc_cases (hL : Laid pool st) (h : initAlloc u mmap s st = some (p, st')) :
    (st.refuses s = true ∧ p = Cap.null ∧ st' = st) ∨
      (st.refuses s = false ∧ p.tag = true ∧ p.len = upSize s ∧
        st.poolNext.offset.toNat + (upSize s).toNat ≤ poolSize.toNat) := by
  cases href : st.refuses s with
  | true =>
    rw [hL.initAlloc_refused href] at h
    cases h
    exact Or.inl ⟨rfl, rfl, rfl⟩
  | false =>
    unfold initAlloc initAllocCore at h
    rw [hL.own, if_neg Bool.false_ne_true, if_neg (by simp [href]), Option.map_eq_some_iff] at h
    obtain ⟨c, hc, heq⟩ := h
    cases heq
    unfold Cap.setBounds at hc
    split_ifs at hc with hok
    cases hc
    rw [Bool.and_eq_true, decide_eq_true_eq, hL.len] at hok
    exact Or.inr ⟨rfl, hL.tag, rfl, hok.2⟩

/-! ## Runs -/

/-- A block that has been handed out: where the pool stood, what was asked for and what was returned. -/
structure Held where
  next : Cap
  size : BitVec 64
  block : Cap

structure Sys where
  st : State
  held : List Held

inductive Event where
  | alloc (s : BitVec 64)
  | store (x : BitVec 64) (b : BitVec 8)

def Sys.answered (sys : Sys) (s : BitVec 64) (p : Cap) (st' : State) : Sys :=
  { st := st', held := if p = Cap.null then sys.held else ⟨sys.st.poolNext, s, p⟩ :: sys.held }

/-- After a request that is granted. -/
def Sys.granted (u : UintCap) (sys : Sys) (s : BitVec 64) : Sys where
  st := { sys.st with poolNext := nextAfter u sys.st.poolNext s }
  held := ⟨sys.st.poolNext, s, blockAt sys.st.poolNext s⟩ :: sys.held

/-- Requests, in any order with stores to what has been handed out. -/
inductive Step (u : UintCap) (mmap : BitVec 64 → Cap) : Sys → Event → Sys → Prop where
  | alloc {sys : Sys} {s : BitVec 64} {p : Cap} {st' : State} : initAlloc u mmap s sys.st = some (p, st') →
      Step u mmap sys (.alloc s) (sys.answered s p st')
  | store {sys : Sys} {h : Held} {x : BitVec 64} {b : BitVec 8} : h ∈ sys.held → Covers h.block x →
      Step u mmap sys (.store x b) { sys with st := { sys.st with mem := Function.update sys.st.mem x b } }

def Booted (pool : Cap) (sys : Sys) : Prop := (∃ mem, initAllocInit pool mem = some sys.st) ∧ sys.held = []

def Within (pool p : Cap) : Prop :=
  pool.addr.toNat ≤ p.base.toNat ∧ p.base.toNat + p.len.toNat ≤ pool.addr.toNat + poolSize.toNat

def Apart (p q : Cap) : Prop := p.base.toNat + p.len.toNat ≤ q.base.toNat ∨ q.base.toNat + q.len.toNat ≤ p.base.toNat

/-- **What a request is promised**: nothing, and nothing changes, or a block of the pool of at least the size, apart
from every block handed out before and all zero. -/
def Promised (pool : Cap) (sys : Sys) (s : BitVec 64) (p : Cap) (st' : State) : Prop :=
  p = Cap.null ∧ st' = sys.st ∨
    p.tag = true ∧ Within pool p ∧ s.toNat ≤ p.len.toNat ∧ (∀ h ∈ sys.held, Apart h.block p) ∧
      ∀ x, Covers p x → st'.mem x = 0

/-- **When a request gets what it is promised**: it fits, and if it is granted then the request granted before it left
its block apart from the next. -/
def Meets (u : UintCap) (sys : Sys) : Event → Prop
  | .alloc s => Fits sys.st s ∧ (sys.st.refuses s = false → ∀ h ∈ sys.held.head?, LeavesApart u h.next h.size)
  | .store _ _ => True

/-! ## The invariant -/

variable {sys sys' : Sys} {h k : Held} {e : Event} {tr : List (Transition.Step Sys Event)}

def Held.start (h : Held) : Nat := h.next.offset.toNat
def Held.stop (h : Held) : Nat := h.start + pages h.size * 4096

/-- **What a block is**: the pages from where the pool stood. -/
structure Held.Sound (pool : Cap) (h : Held) : Prop where
  block : h.block = blockAt h.next h.size
  base : h.next.base = pool.addr
  tag : h.next.tag = true
  fits : h.stop ≤ poolSize.toNat

theorem pages_pos : 0 < pages s := Nat.succ_pos _

theorem size_lt_pages : s.toNat < pages s * 4096 := by
  unfold pages
  omega

namespace Held.Sound

theorem base_toNat (hP : Placed pool) (hh : h.Sound pool) : h.block.base.toNat = pool.addr.toNat + h.start := by
  have hlt := hP.below
  have hfit := hh.fits
  rw [← hP.addr_toNat] at hlt
  unfold Held.stop at hfit
  rw [hh.block]
  show (h.next.base + h.next.offset).toNat = _
  rw [hh.base, BitVec.toNat_add]
  unfold Held.start at *
  omega

theorem len_toNat (hh : h.Sound pool) : h.block.len.toNat = pages h.size * 4096 := by
  have hfit := hh.fits
  unfold Held.stop at hfit
  rw [poolSize_toNat] at hfit
  rw [hh.block]
  unfold blockAt
  rw [BitVec.toNat_ofNat]
  omega

theorem covers_iff (hP : Placed pool) (hh : h.Sound pool) : Covers h.block x ↔
    h.start ≤ (x - pool.addr).toNat ∧ (x - pool.addr).toNat < h.stop := by
  have hbase := hh.base_toNat hP
  have hlt := hP.below
  have hfit := hh.fits
  rw [← hP.addr_toNat] at hlt
  unfold Covers
  rw [hh.len_toNat]
  unfold Held.stop at *
  rw [BitVec.toNat_sub, BitVec.toNat_sub]
  omega

theorem within (hP : Placed pool) (hh : h.Sound pool) : Within pool h.block := by
  have hfit := hh.fits
  unfold Held.stop at hfit
  unfold Within
  rw [hh.base_toNat hP, hh.len_toNat]
  omega

theorem apart_iff (hP : Placed pool) (hh : h.Sound pool) (hk : k.Sound pool) (hle : h.start ≤ k.start) :
    Apart h.block k.block ↔ h.stop ≤ k.start := by
  have hpos := pages_pos (s := k.size)
  unfold Apart
  rw [hh.base_toNat hP, hk.base_toNat hP, hh.len_toNat, hk.len_toNat]
  unfold Held.stop
  omega

end Held.Sound

/-- **Where the allocator stands**: the blocks are apart, the pool goes on after the last request, and every byte that
has not been handed out is zero. -/
structure Inv (u : UintCap) (pool : Cap) (sys : Sys) : Prop where
  laid : Laid pool sys.st
  sound : ∀ h ∈ sys.held, h.Sound pool
  apart : sys.held.Pairwise (fun k h => h.stop ≤ k.start)
  last : ∀ h ∈ sys.held.head?, sys.st.poolNext = nextAfter u h.next h.size
  clear : ∀ x, (x - pool.addr).toNat < poolSize.toNat → (∀ h ∈ sys.held, ¬ Covers h.block x) → sys.st.mem x = 0

theorem pad_le (q : Nat) : pad u q ≤ 4096 := by
  unfold pad
  split <;> omega

theorem nextAfter_offset (hh : h.Sound pool) : (nextAfter u h.next h.size).offset.toNat =
    h.start + h.size.toNat + pad u ((u.val (h.next.incOffset h.size)).toNat % 4096) := by
  have hfit := hh.fits
  have hlt := size_lt_pages (s := h.size)
  have hpad := pad_le (u := u) ((u.val (h.next.incOffset h.size)).toNat % 4096)
  unfold Held.stop at hfit
  rw [poolSize_toNat] at hfit
  unfold nextAfter
  generalize pad u ((u.val (h.next.incOffset h.size)).toNat % 4096) = n at hpad
  unfold Cap.incOffset
  rw [BitVec.toNat_add, BitVec.toNat_ofNat]
  unfold Held.start at *
  omega

theorem stop_le_iff (hh : h.Sound pool) : h.stop ≤ (nextAfter u h.next h.size).offset.toNat ↔
    LeavesApart u h.next h.size := by
  rw [nextAfter_offset hh, leavesApart_iff]
  unfold Held.stop
  omega

namespace Laid

theorem granted (hL : Laid pool st) (hfit : st.poolNext.offset.toNat + pages s * 4096 ≤ poolSize.toNat) :
    Held.Sound pool ⟨st.poolNext, s, blockAt st.poolNext s⟩ :=
  ⟨rfl, hL.base, hL.tag, hfit⟩

theorem blockAt_ne_null (hL : Laid pool st) : blockAt st.poolNext s ≠ Cap.null := by
  intro heq
  have htag := congrArg Cap.tag heq
  exact Bool.false_ne_true (htag.symm.trans hL.tag)

theorem next (hL : Laid pool st) (hfit : st.poolNext.offset.toNat + pages s * 4096 ≤ poolSize.toNat) :
    Laid pool { st with poolNext := nextAfter u st.poolNext s } := by
  refine ⟨hL.placed, hL.own, hL.stop, hL.tag, hL.isSealed, hL.base, hL.len, ?_⟩
  have hoff := nextAfter_offset (u := u) (hL.granted hfit)
  have hpad := pad_le (u := u) ((u.val (st.poolNext.incOffset s)).toNat % 4096)
  have hlt := size_lt_pages (s := s)
  show (nextAfter u st.poolNext s).offset.toNat ≤ poolSize.toNat + 4096
  unfold Held.start at hoff
  simp only at hoff
  omega

theorem step_granted (hL : Laid pool sys.st) (href : sys.st.refuses s = false)
    (hfit : sys.st.poolNext.offset.toNat + pages s * 4096 ≤ poolSize.toNat) :
    Step u mmap sys (.alloc s) (sys.granted u s) := by
  have hgranted : initAlloc u mmap s sys.st = _ := hL.initAlloc_granted href hfit
  have hst := Step.alloc hgranted
  unfold Sys.answered at hst
  rw [if_neg hL.blockAt_ne_null] at hst
  exact hst

end Laid

namespace Inv

theorem start_le (hI : Inv u pool sys) (hh : h ∈ sys.held) : h.start ≤ sys.st.poolNext.offset.toNat := by
  have hap := hI.apart
  have hlast := hI.last
  have hsound := hI.sound
  cases hs : sys.held with
  | nil =>
    rw [hs] at hh
    cases hh
  | cons k rest =>
    rw [hs] at hh hap hlast hsound
    have hk := nextAfter_offset (u := u) (hsound k List.mem_cons_self)
    rw [hlast k rfl, hk]
    rcases List.mem_cons.1 hh with rfl | hr
    · omega
    · have hkh := (List.pairwise_cons.1 hap).1 h hr
      unfold Held.stop at hkh
      omega

/-- **The pool goes on after every block** if it goes on after the last one. -/
theorem stop_le (hI : Inv u pool sys) (hap : ∀ h ∈ sys.held.head?, LeavesApart u h.next h.size) (hh : h ∈ sys.held) :
    h.stop ≤ sys.st.poolNext.offset.toNat := by
  have hpair := hI.apart
  have hlast := hI.last
  have hsound := hI.sound
  cases hs : sys.held with
  | nil =>
    rw [hs] at hh
    cases hh
  | cons k rest =>
    rw [hs] at hh hap hlast hsound hpair
    have hk := hsound k List.mem_cons_self
    have hstop := (stop_le_iff (u := u) hk).2 (hap k rfl)
    rw [hlast k rfl]
    rcases List.mem_cons.1 hh with rfl | hr
    · exact hstop
    · have hkh := (List.pairwise_cons.1 hpair).1 h hr
      unfold Held.stop at hstop
      omega

theorem booted (hP : Placed pool) (hb : Booted pool sys) : Inv u pool sys := by
  obtain ⟨⟨mem, hst⟩, hheld⟩ := hb
  rw [hP.initAllocInit_eq] at hst
  have hst := Option.some.inj hst
  have hend : (pool.incOffset poolSize).addr.toNat = pool.addr.toNat + poolSize.toNat := by
    have hlt := hP.below
    have haddr := hP.addr_toNat
    have hval : (pool.incOffset poolSize).addr = pool.addr + poolSize := by
      unfold Cap.addr Cap.incOffset
      exact (BitVec.add_assoc _ _ _).symm
    rw [hval, BitVec.toNat_add]
    omega
  exact {
    laid := by
      rw [← hst]
      exact ⟨hP, rfl, hend, hP.tag, hP.isSealed, rfl, rfl, Nat.zero_le _⟩
    sound := fun h hh => by rw [hheld] at hh; cases hh
    apart := by rw [hheld]; exact List.Pairwise.nil
    last := fun h hh => by rw [hheld] at hh; cases hh
    clear := fun x hx _ => by
      rw [← hst]
      exact Memmgt.zeroed_of_lt hx }

/-- **A block that nothing handed out reaches into is zero.** -/
theorem fresh (hI : Inv u pool sys) (hk : k.Sound pool) (hap : ∀ h ∈ sys.held, h.stop ≤ k.start)
    (hx : Covers k.block x) : sys.st.mem x = 0 := by
  have hP := hI.laid.placed
  obtain ⟨hlo, hhi⟩ := (hk.covers_iff hP).1 hx
  refine hI.clear x (Nat.lt_of_lt_of_le hhi hk.fits) (fun h hh hxh => ?_)
  have hlt := ((hI.sound h hh).covers_iff hP).1 hxh
  have hle := hap h hh
  omega

/-- **A request that meets the condition gets what it is promised.** -/
theorem promised (mmap : BitVec 64 → Cap) (hI : Inv u pool sys) (hM : Meets u sys (.alloc s)) :
    ∃ p st', initAlloc u mmap s sys.st = some (p, st') ∧ Promised pool sys s p st' ∧
      Inv u pool (sys.answered s p st') := by
  obtain ⟨hfits, hleaves⟩ := hM
  cases href : sys.st.refuses s with
  | true =>
    refine ⟨Cap.null, sys.st, hI.laid.initAlloc_refused href, Or.inl ⟨rfl, rfl⟩, ?_⟩
    unfold Sys.answered
    rw [if_pos rfl]
    exact hI
  | false =>
    have hP := hI.laid.placed
    have hfit : sys.st.poolNext.offset.toNat + pages s * 4096 ≤ poolSize.toNat :=
      hfits.resolve_left (by rw [href]; exact Bool.false_ne_true)
    have hk := hI.laid.granted hfit
    have hap : ∀ h ∈ sys.held, h.stop ≤ sys.st.poolNext.offset.toNat := fun h hh => hI.stop_le (hleaves href) hh
    refine ⟨_, _, hI.laid.initAlloc_granted href hfit, Or.inr ⟨hI.laid.tag, hk.within hP, ?_, ?_, ?_⟩, ?_⟩
    · have hlen := hk.len_toNat
      rw [show (blockAt sys.st.poolNext s).len.toNat = pages s * 4096 from hlen]
      exact Nat.le_of_lt size_lt_pages
    · intro h hh
      exact ((hI.sound h hh).apart_iff hP hk (hI.start_le hh)).2 (hap h hh)
    · intro x hx
      exact hI.fresh hk hap hx
    · unfold Sys.answered
      rw [if_neg hI.laid.blockAt_ne_null]
      exact {
        laid := hI.laid.next hfit
        sound := List.forall_mem_cons.2 ⟨hk, hI.sound⟩
        apart := List.pairwise_cons.2 ⟨hap, hI.apart⟩
        last := fun h hh => by cases hh; rfl
        clear := fun x hx hno => hI.clear x hx (fun h hh => hno h (List.mem_cons_of_mem _ hh)) }

/-- **A request that gets what it is promised meets the condition.** -/
theorem meets (hI : Inv u pool sys) (ha : initAlloc u mmap s sys.st = some (p, st'))
    (hprom : Promised pool sys s p st') : Meets u sys (.alloc s) := by
  have hP := hI.laid.placed
  rcases initAlloc_cases hI.laid ha with ⟨href, -, -⟩ | ⟨href, htag, hlen, hup⟩
  · exact ⟨Or.inl href, fun hno => by rw [href] at hno; cases hno⟩
  · rcases hprom with ⟨hnull, -⟩ | ⟨-, -, hsize, hap, -⟩
    · rw [hnull] at htag
      cases htag
    · have hupSize : (upSize s).toNat = pages s * 4096 := by
        refine upSize_toNat ?_
        rw [hlen] at hsize
        rw [poolSize_toNat] at hup
        omega
      have hfit : sys.st.poolNext.offset.toNat + pages s * 4096 ≤ poolSize.toNat := hupSize ▸ hup
      refine ⟨Or.inr hfit, fun _ h hh => ?_⟩
      have hhm : h ∈ sys.held := List.mem_of_mem_head? hh
      have hk := hI.laid.granted hfit
      have hblock : p = blockAt sys.st.poolNext s := by
        rw [hI.laid.initAlloc_granted href hfit] at ha
        cases ha
        rfl
      have happ := hap h hhm
      rw [hblock] at happ
      have hstop := ((hI.sound h hhm).apart_iff hP hk (hI.start_le hhm)).1 happ
      refine (stop_le_iff (hI.sound h hhm)).1 ?_
      rw [← hI.last h hh]
      exact hstop

theorem step (hI : Inv u pool sys) (hst : Step u mmap sys e sys') (hM : Meets u sys e) : Inv u pool sys' := by
  cases hst with
  | alloc ha =>
    obtain ⟨p, st', ha', -, hI'⟩ := hI.promised mmap hM
    rw [ha] at ha'
    cases ha'
    exact hI'
  | @store h x b hh hx =>
    refine ⟨⟨hI.laid.placed, hI.laid.own, hI.laid.stop, hI.laid.tag, hI.laid.isSealed, hI.laid.base, hI.laid.len,
      hI.laid.reach⟩, hI.sound, hI.apart, hI.last, fun y hy hno => ?_⟩
    have hne : y ≠ x := fun heq => hno h hh (heq ▸ hx)
    exact (Function.update_of_ne hne b sys.st.mem).trans (hI.clear y hy hno)

end Inv

/-! ## Every run -/

theorem inv_runs (hP : Placed pool) (hr : Transition.Run (Booted pool) (Step u mmap) tr sys)
    (hC : ∀ st ∈ tr, Meets u st.pre st.ev) : Inv u pool sys :=
  Transition.Run.inv_of (I := fun s => Inv u pool s) (C := fun st => Meets u st.pre st.ev)
    (fun _ hb => Inv.booted hP hb) (fun _ _ _ hI hst hM => hI.step hst hM) hr hC

/-- **The boot allocator's blocks**: in a run whose requests all fit and follow a block that was left apart from the
next, each block is in the pool, is as long as was asked for, is apart from all the others and was all zero when it was
handed out, and a refused request changes nothing.  The next request gets as much exactly if it meets the condition. -/
theorem init_alloc_blocks (hP : Placed pool) (hr : Transition.Run (Booted pool) (Step u mmap) tr sys)
    (hC : ∀ st ∈ tr, Meets u st.pre st.ev) :
    (∀ h ∈ sys.held, Within pool h.block ∧ h.size.toNat ≤ h.block.len.toNat) ∧
      sys.held.Pairwise (fun k h => Apart k.block h.block) ∧
      (∀ st ∈ tr, ∀ s, st.ev = .alloc s → ∃ p, initAlloc u mmap s st.pre.st = some (p, st.post.st) ∧
        Promised pool st.pre s p st.post.st) ∧
      ∀ s, (∃ p st', initAlloc u mmap s sys.st = some (p, st') ∧ Promised pool sys s p st') ↔
        Meets u sys (.alloc s) := by
  have hI := inv_runs hP hr hC
  refine ⟨fun h hh => ?_, ?_, fun st hst s hev => ?_, fun s => ⟨?_, fun hM => ?_⟩⟩
  · have hs := hI.sound h hh
    refine ⟨hs.within hP, ?_⟩
    rw [hs.len_toNat]
    exact Nat.le_of_lt size_lt_pages
  · refine hI.apart.imp_of_mem (fun {k h} hk hh hle => ?_)
    have hks := hI.sound k hk
    have hhs := hI.sound h hh
    unfold Apart
    rw [hks.base_toNat hP, hhs.base_toNat hP, hks.len_toNat, hhs.len_toNat]
    unfold Held.stop at hle
    omega
  · obtain ⟨newer, older, rfl, hold, hstep⟩ := hr.cut_of_mem hst
    have hI' := inv_runs hP hold (fun st' hst' => hC st' (List.mem_append_right _ (List.mem_cons_of_mem _ hst')))
    have hM := hC st hst
    rw [hev] at hM hstep
    obtain ⟨p, st', ha, hprom, -⟩ := hI'.promised mmap hM
    cases hstep' : st.post with
    | mk post held =>
      rw [hstep'] at hstep
      generalize hpre : st.pre = pre at *
      cases hstep with
      | alloc ha' =>
        exact ⟨_, ha', by rw [ha] at ha'; cases ha'; exact hprom⟩
  · rintro ⟨p, st', ha, hprom⟩
    exact hI.meets ha hprom
  · obtain ⟨p, st', ha, hprom, -⟩ := hI.promised mmap hM
    exact ⟨p, st', ha, hprom⟩

def lowPool : Cap := ⟨true, false, 0, Cap.permAll, 0, 0xffffffffffffffff, 0x10000⟩

theorem lowPool_placed : Placed lowPool := ⟨rfl, rfl, by decide, by decide, by decide⟩

/-- The allocator after its start in `lowPool`, and the runs of granted requests from there. -/
def lowBooted : Sys := ⟨bootedState lowPool (fun _ => 0), []⟩

theorem lowBooted_booted : Booted lowPool lowBooted := ⟨⟨_, lowPool_placed.initAllocInit_eq⟩, rfl⟩

theorem lowBooted_laid : Laid lowPool lowBooted.st :=
  (Inv.booted (u := ⟨true, false⟩) lowPool_placed lowBooted_booted).laid

/-- **Two requests that are granted.** -/
theorem low_run (mmap : BitVec 64 → Cap) {s t : BitVec 64} (hs : lowBooted.st.refuses s = false)
    (hsfit : lowBooted.st.poolNext.offset.toNat + pages s * 4096 ≤ poolSize.toNat)
    (ht : (lowBooted.granted u s).st.refuses t = false)
    (htfit : (lowBooted.granted u s).st.poolNext.offset.toNat + pages t * 4096 ≤ poolSize.toNat) :
    Transition.Run (Booted lowPool) (Step u mmap)
      [⟨lowBooted.granted u s, .alloc t, (lowBooted.granted u s).granted u t⟩,
        ⟨lowBooted, .alloc s, lowBooted.granted u s⟩]
      ((lowBooted.granted u s).granted u t) :=
  have hlaid : Laid lowPool (lowBooted.granted u s).st := lowBooted_laid.next hsfit
  .cons (.cons (.nil lowBooted_booted) (lowBooted_laid.step_granted hs hsfit)) (hlaid.step_granted ht htfit)

theorem init_alloc_blocks_two : ∃ tr sys,
    Transition.Run (Booted lowPool) (Step ⟨true, false⟩ (fun _ => Cap.null)) tr sys ∧
    tr.map (fun st => st.ev) = [.alloc 9000, .alloc 5] ∧ sys.held.map (fun h => h.block.len.toNat) = [12288, 4096] ∧
    sys.held.Pairwise (fun k h => Apart k.block h.block) := by
  have hr := low_run (u := ⟨true, false⟩) (fun _ => Cap.null) (s := 5) (t := 9000) (by decide) (by decide)
    (by decide) (by decide)
  refine ⟨_, _, hr, rfl, by decide, (init_alloc_blocks lowPool_placed hr ?_).2.1⟩
  refine List.forall_mem_cons.2 ⟨⟨by decide, fun _ h hh => ?_⟩, List.forall_mem_cons.2 ⟨⟨by decide, fun _ h hh => ?_⟩,
    List.forall_mem_nil _⟩⟩
  · cases hh
    decide
  · cases hh

/-- **Where it goes wrong**: a request for a whole page gets a block that ends a page after the next one starts, where
`uintptr_t` is compared by its value; and however it is compared, a request for almost the whole address space gets an
empty block or a trap in place of `NULL`. -/
theorem init_alloc_blocks_fail : Placed lowPool ∧
    (∃ tr sys k h, Transition.Run (Booted lowPool) (Step ⟨true, false⟩ (fun _ => Cap.null)) tr sys ∧
      tr.map (fun st => st.ev) = [.alloc 1, .alloc 0x1000] ∧ sys.held = [k, h] ∧ ¬ Apart k.block h.block) ∧
    Booted lowPool lowBooted ∧ ∀ u mmap, initAlloc u mmap (-0x2000) lowBooted.st = none ∧
      ∃ p st', initAlloc u mmap (-1) lowBooted.st = some (p, st') ∧ p ≠ Cap.null ∧ p.len = 0 := by
  have hr := low_run (u := ⟨true, false⟩) (fun _ => Cap.null) (s := 0x1000) (t := 1) (by decide) (by decide)
    (by decide) (by decide)
  refine ⟨lowPool_placed, ⟨_, _, _, _, hr, rfl, rfl, ?_⟩, lowBooted_booted, fun u mmap =>
    ⟨?_, ?_⟩⟩
  · unfold Apart
    decide
  · rfl
  · exact ⟨_, _, rfl, by decide, by decide⟩

end Boot
end CheriOS
