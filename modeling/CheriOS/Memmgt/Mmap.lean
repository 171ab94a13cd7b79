import Mathlib.Logic.Function.Basic
import CheriOS.Cap
import CheriOS.Lib.Stateful
/-!
# Mmap — the memory manager (`mmap.c`)

The manager's heap is cut into a pool of pages and a book with an entry for each of them.  A chunk is a run of pages,
and only the entry of its first page means something.  `__mmap` takes the first unused chunk that is long enough, and
`__munmap` clears a region through the caller's capability and marks its chunk unused.

A failed assertion and `panic` end in the panic system call, and an exception freezes the kernel: each stops the
system, with the memory as it is.
-/
namespace CheriOS
namespace Memmgt

open Outcome

/-- `CHERIOS_PAGESIZE`. -/
def pagesz : BitVec 64 := 4096

def sizeofPage : BitVec 64 := 32

inductive PageStatus where
  | unused
  | used
  | released
  | child
  deriving DecidableEq, Repr

/-- `page_t`.  Nothing reads or writes its `owner` and its `prev`. -/
structure Page where
  status : PageStatus
  len : BitVec 64
  deriving DecidableEq, Repr

/-- The causes of a capability exception that the manager's instructions can raise (`capcausestr`). -/
inductive CapCause where
  | lengthViolation
  | tagViolation
  | sealViolation
  | permitLoadViolation
  | permitStoreViolation
  deriving DecidableEq, Repr

/-- What stops the system.  `hang` is a loop that never ends. -/
inductive Stop where
  | panic (str : String)
  | assertFailed (expr : String)
  | exception (cause : CapCause)
  | hang
  deriving DecidableEq, Repr

/-- The manager's globals and the memory.  The book is kept apart from the rest of the memory: no region that is handed
out covers it. -/
structure State where
  pool : Cap
  pagesNb : BitVec 64
  book : Cap
  page : Nat → Page
  errno : BitVec 32
  mem : BitVec 64 → BitVec 8

abbrev Call (α : Type) := Stateful Stop State α

/-! ## Capability instructions -/

/-- What an access of `n` bytes at `c + i` raises. -/
def fault (c : Cap) (isStore : Bool) (i : BitVec 64) (n : Nat) : Option CapCause :=
  if !c.tag then some .tagViolation
  else if c.isSealed then some .sealViolation
  else if isStore && !c.hasPerms Cap.permStore then some .permitStoreViolation
  else if !isStore && !c.hasPerms Cap.permLoad then some .permitLoadViolation
  else if c.len.toNat < (c.offset + i).toNat + n then some .lengthViolation
  else none

/-- The access is made, or raises its exception. -/
def access (c : Cap) (isStore : Bool) (i : BitVec 64) (n : Nat) : Call Unit :=
  match fault c isStore i n with
  | some cause => stop (.exception cause)
  | none => pure ()

def derived (c : Cap) (r : Option Cap) : Call Cap :=
  match r with
  | some p => pure p
  | none =>
    if !c.tag then stop (.exception .tagViolation)
    else if c.isSealed then stop (.exception .sealViolation)
    else stop (.exception .lengthViolation)

def cheriSetbounds (c : Cap) (length : BitVec 64) : Call Cap := derived c (c.setBounds length)

def cheriAndperm (c : Cap) (perms : BitVec 32) : Call Cap := derived c (c.andPerm perms)

/-! ## The book -/

def entry (i : BitVec 64) : Nat := (i * sizeofPage).toNat / sizeofPage.toNat

def readBook (i : BitVec 64) : Call Page := do
  let s ← get
  access s.book false (i * sizeofPage) sizeofPage.toNat
  return s.page (entry i)

def State.put (s : State) (i : Nat) (p : Page) : State := { s with page := Function.update s.page i p }

def writeBook (i : BitVec 64) (f : Page → Page) : Call Unit := do
  let s ← get
  access s.book true (i * sizeofPage) sizeofPage.toNat
  set (s.put (entry i) (f (s.page (entry i))))

def setStatus (i : BitVec 64) (status : PageStatus) : Call Unit := writeBook i (fun p => { p with status := status })

def setLen (i : BitVec 64) (len : BitVec 64) : Call Unit := writeBook i (fun p => { p with len := len })

/-! ## Initialisation -/

def roundup2 (x y : BitVec 64) : BitVec 64 := (x + (y - 1)) &&& ~~~(y - 1)

def minit (heap : Cap) : Call Unit := do
  require (heap.addr == roundup2 heap.addr pagesz) (.assertFailed "(size_t)heap == roundup2((size_t)heap, pagesz)")
  require (heap.offset == 0) (.assertFailed "cheri_getoffset(heap) == 0")
  let length := heap.len
  let pagesNb := length / (pagesz + sizeofPage)
  modify fun s => { s with pagesNb := pagesNb }
  require (decide (pagesNb > 0)) (.assertFailed "pages_nb > 0")
  let poolLen := pagesNb * pagesz
  let pool ← cheriSetbounds heap poolLen
  modify fun s => { s with pool := pool }
  let bookLen := pagesNb * sizeofPage
  require (decide (bookLen + poolLen ≤ length)) (.assertFailed "book_len + pool_len <= length")
  let book ← cheriSetbounds (heap.incOffset poolLen) bookLen
  modify fun s => { s with book := book }
  setStatus 0 .unused
  setLen 0 pagesNb

/-! ## `__mmap` -/

def protRead : BitVec 32 := 1 <<< 0
def protWrite : BitVec 32 := 1 <<< 1
def protNoReadCap : BitVec 32 := 1 <<< 2
def protNoWriteCap : BitVec 32 := 1 <<< 3

def mapPrivate : BitVec 32 := 1 <<< 0
def mapShared : BitVec 32 := 1 <<< 1
def mapAnonymous : BitVec 32 := 1 <<< 2

def einval : BitVec 32 := 22

/-- `MAP_FAILED`, the integer -1 as a pointer. -/
def mapFailed : Cap := { Cap.null with offset := -1 }

/-- `x & bit`, as a condition. -/
def has (x bit : BitVec 32) : Bool := x &&& bit != 0

/-- The permissions that `prot` and `flags` ask for; `none` is `EINVAL`. -/
def mmapPerms (prot flags : BitVec 32) : Option (BitVec 32) := do
  let perms := Cap.permSoft1
  guard (has flags mapAnonymous)
  guard (!(has flags mapPrivate && has flags mapShared))
  let perms ←
    if has flags mapPrivate then some (perms ||| 1 <<< 6)
    else if has flags mapShared then some (perms ||| 1 <<< 0)
    else none
  let perms := if has prot protRead then perms ||| 1 <<< 2 else perms
  let perms := if has prot protRead && !has prot protNoReadCap then perms ||| 1 <<< 4 else perms
  let perms := if has prot protWrite then perms ||| 1 <<< 3 else perms
  let perms := if has prot protWrite && !has prot protNoWriteCap then perms ||| 1 <<< 5 else perms
  return perms

def regionPages (length : BitVec 64) : BitVec 64 :=
  if length / pagesz * pagesz < length then length / pagesz + 1 else length / pagesz

/-- `pages_wanted`: the pages of a region, and one more. -/
def pagesWanted (length : BitVec 64) : Call (BitVec 64) := do
  require (decide (regionPages length * pagesz ≥ length)) (.assertFailed "pages_wanted*pagesz >= length")
  return regionPages length + 1

/-- The search for space, from `page` on.  Nothing is written on the way, so a search with more turns than there are
pages comes to a page again and never ends. -/
def findSpace (wanted : BitVec 64) : Nat → BitVec 64 → Call (Option (BitVec 64))
  | 0, _ => stop .hang
  | turns + 1, page => do
    let s ← get
    if page < s.pagesNb then
      let p ← readBook page
      if p.status ≠ .unused then findSpace wanted turns (page + p.len)
      else if p.len < wanted then findSpace wanted turns (page + p.len)
      else return some page
    else return none

/-- The update of the mapping at `found`. -/
def takeChunk (page wanted : BitVec 64) : Call Unit := do
  setStatus page .used
  let currLen := (← readBook page).len
  setLen page wanted
  if wanted < currLen then
    setStatus (page + wanted) .unused
    setLen (page + wanted) (currLen - wanted)

def mmap (addr : Cap) (length : BitVec 64) (prot flags : BitVec 32) : Call Cap := do
  require addr.isNull (.panic "mmap: addr must be NULL")
  match mmapPerms prot flags with
  | none =>
    modify fun s => { s with errno := einval }
    return mapFailed
  | some perms =>
    let wanted ← pagesWanted length
    let s ← get
    match ← findSpace wanted (s.pagesNb.toNat + 1) 0 with
    | none => return mapFailed
    | some page =>
      takeChunk page wanted
      let p ← cheriSetbounds (s.pool.incOffset (page * pagesz)) length
      cheriAndperm p perms

/-! ## `bzero` (`memset.c`) -/

/-- The sizes of the stores that `memset` makes, one after the other: words where there are enough of them. -/
def memsetStores (dst length : BitVec 64) : List Nat :=
  if length.toNat < 3 * 4 then List.replicate length.toNat 1
  else
    let t := (4 - dst.toNat % 4) % 4
    let length := length.toNat - t
    List.replicate t 1 ++ List.replicate (length / 4) 4 ++ List.replicate (length % 4) 1

/-- `n` bytes of the memory from `a` on are zero, the others as they were. -/
def zeroed (mem : BitVec 64 → BitVec 8) (a : BitVec 64) (n : Nat) : BitVec 64 → BitVec 8 :=
  fun x => if (x - a).toNat < n then 0 else mem x

/-- A store of `n` zero bytes at `a`. -/
def State.wipe (s : State) (a : BitVec 64) (n : Nat) : State := { s with mem := zeroed s.mem a n }

/-- Stores of zeros, from `c + i` on. -/
def storeZeros (c : Cap) : List Nat → BitVec 64 → Call Unit
  | [], _ => pure ()
  | n :: ns, i => do
    access c true i n
    modify fun s => s.wipe (c.addr + i) n
    storeZeros c ns (i + BitVec.ofNat 64 n)

def bzero (c : Cap) (length : BitVec 64) : Call Unit := storeZeros c (memsetStores c.addr length) 0

/-! ## `__munmap` -/

/-- The page that an address is in. -/
def pageAt (pool addr : Cap) : BitVec 64 := (addr.addr - pool.addr) / pagesz

def addr2page (addr : Cap) : Call (BitVec 64) := do
  let s ← get
  let page := pageAt s.pool addr
  require (addr.addr == s.pool.addr + page * pagesz) (.assertFailed "(size_t)addr == (size_t)(pool + page*pagesz)")
  return page

def addr2chunk (addr : Cap) (length : BitVec 64) : Call (BitVec 64) := do
  let page ← addr2page addr
  let p ← readBook page
  require (length == pagesz * p.len) (.assertFailed "length == pagesz*book[page].len")
  return page

def munmap (addr : Cap) (length : BitVec 64) : Call (BitVec 32) := do
  if addr.perms &&& Cap.permSoft1 == 0 then
    modify fun s => { s with errno := einval }
    return -1
  else
    bzero addr length
    let length := length + pagesz
    let page ← addr2chunk addr length
    setStatus page .unused
    return 0

end Memmgt
end CheriOS
