import CheriOS.Boot.ElfLoader
/-!
# BootUtils — loading the kernel and `init`

The boot loader lets `elf_loader_mem` write through the default capability, which covers everything, and looks at
`maxaddr` afterwards.  The check bounds what has been written as far as `maxaddr` does.
-/
namespace CheriOS
namespace Boot

/-! ## The definitions of the linker -/

structure Symbols where
  bootLoadVirtaddr : Cap
  kernelLoadVirtaddr : Cap
  kernelEntryPoint : Cap
  kernelElfStart : Cap
  initElfStart : Cap
  fsStart : Cap
  fsEnd : Cap

/-! ## What the kernel is given (`boot_info.h`) -/

/-- The registers of the first activation; the others are zero. -/
structure InitFrame where
  cfPcc : Cap
  mfPc : BitVec 64
  cfC11 : Cap
  mfSp : BitVec 64
  cfC12 : Cap
  cfC13 : Cap
  cfC14 : Cap
  cfC0 : Cap
  deriving DecidableEq, Repr

def InitFrame.zero : InitFrame := ⟨Cap.null, 0, Cap.null, 0, Cap.null, Cap.null, Cap.null, Cap.null⟩

structure BootInfo where
  kernelStartAddr : Cap
  kernelMemSize : BitVec 64
  initFrame : InitFrame
  startFreeMem : Cap
  deriving DecidableEq, Repr

def BootInfo.zero : BootInfo := ⟨Cap.null, 0, InitFrame.zero, Cap.null⟩

/-! ## Stack and free memory -/

def initStackSize : BitVec 64 := 0x10000
def pageAlign : BitVec 64 := 0x1000

/-- `d` is the default capability; `none` where the bounds or the permissions cannot be set. -/
def makeAlignedDataCap (d start : Cap) (len : BitVec 64) : Option Cap := do
  let desiredOfs := (start.base + start.offset + pageAlign) &&& ~~~(pageAlign - 1)
  let cap := d.incOffset (desiredOfs - d.base)
  let cap ← cap.setBounds len
  cap.andPerm (~~~Cap.permExecute)

def makeFreeMemCap (d start : Cap) : Option Cap := do
  let len := d.len &&& ~~~(pageAlign - 1)
  let ofs := (start.base - d.base + pageAlign) &&& ~~~(pageAlign - 1)
  let cap := d.incOffset ofs
  let len := len - ofs
  let cap ← cap.setBounds len
  cap.andPerm (~~~Cap.permExecute)

/-! ## Loading -/

variable {σ : Type}

/-- The kernel is direct-mapped: it is loaded through the default capability. -/
def bootEnv (d : Cap) (memcpy : Cap → Cap → BitVec 64 → σ → Option σ) : ElfEnv σ where
  alloc := fun _ mem => (d, mem)
  free := fun _ mem => mem
  memcpy := memcpy

/-- What `load_kernel` and `load_init` begin with; no image where they reboot. -/
def loadBelow (couldNot tooLarge : String) (d : Cap) (memcpy : Cap → Cap → BitVec 64 → σ → Option σ) (img : Image σ)
    (elf : Cap) (limit : BitVec 64) (m : Machine σ) : Option (Option Loaded × Machine σ) :=
  (elfLoaderMem (bootEnv d memcpy) img elf m).map fun res =>
    match res with
    | (none, m) => (none, m.error (couldNot, []))
    | (some r, m) => if limit < r.maxaddr then (none, m.error (tooLarge, [r.maxaddr, limit])) else (some r, m)

def loadKernel (d : Cap) (sym : Symbols) (memcpy : Cap → Cap → BitVec 64 → σ → Option σ) (img : Image σ)
    (m : Machine σ) : Option (Option BootInfo × Machine σ) :=
  (loadBelow "Could not load kernel file" "Kernel too large: %lx > %lx" d memcpy img sym.kernelElfStart
    sym.bootLoadVirtaddr.addr m).map fun res =>
    match res with
    | (none, m) => (none, m)
    | (some r, m) =>
      if sym.kernelEntryPoint.addr ≠ (r.prgmp.incOffset r.entry).addr then
        (none, (m.error ("Bad kernel entry point:", [])).error ("Expected kernel entry point:", []))
      else
        (some { BootInfo.zero with
          kernelStartAddr := sym.kernelLoadVirtaddr, kernelMemSize := r.maxaddr - sym.kernelLoadVirtaddr.addr }, m)

/-- `pcc` is the program counter capability. -/
def loadInit (d pcc : Cap) (sym : Symbols) (memcpy : Cap → Cap → BitVec 64 → σ → Option σ) (img : Image σ)
    (bi : BootInfo) (m : Machine σ) : Option (Option BootInfo × Machine σ) := do
  match ← loadBelow "Could not load init file" "Init too large: %lx > %lx" d memcpy img sym.initElfStart
      sym.bootLoadVirtaddr.addr m with
  | (none, m) => some (none, m)
  | (some r, m) =>
    let stack ← makeAlignedDataCap d (r.prgmp.incOffset r.maxaddr) initStackSize
    let startFreeMem ← makeFreeMemCap d (stack.incOffset initStackSize)
    let pcc ← (pcc.setOffset r.prgmp.base).andPerm
      (Cap.permGlobal ||| Cap.permExecute ||| Cap.permLoad ||| Cap.permLoadCap)
    some (some { bi with
      startFreeMem := startFreeMem
      initFrame :=
        { cfPcc := pcc, mfPc := pcc.offset + r.entry, cfC11 := stack, mfSp := stack.len, cfC12 := pcc
          cfC13 := sym.fsStart, cfC14 := sym.fsEnd, cfC0 := r.prgmp.setOffset 0 } }, m)

/-! ## What the size check bounds -/

variable {env : ElfEnv σ} {img : Image σ} {addr d : Cap} {mem : σ} {m' : Machine σ} {r : Loaded}
  {memcpy : Cap → Cap → BitVec 64 → σ → Option σ} {limit : BitVec 64} {couldNot tooLarge : String}

/-- The entries that the loader copies by, in the memory and for the capability that `env->alloc` leaves. -/
def copied (env : ElfEnv σ) (img : Image σ) (addr : Cap) (mem : σ) : List Elf64Phdr :=
  match elfBounds (img.table mem) 0 (-1) with
  | some (n, _) => reread env img addr (env.alloc n mem).1 (2 ^ 16) 0 (env.alloc n mem).2
  | none => []

/-- The byte at `x` is one of those from `prgmp + lo` to `prgmp + hi`. -/
def Between (prgmp : Cap) (lo hi x : BitVec 64) : Prop := lo ≤ x - prgmp.addr ∧ x - prgmp.addr < hi

theorem copied_eq (h : elfLoaderMem env img addr (.start mem) = some (some r, m')) :
    copied env img addr mem = reread env img addr r.prgmp (2 ^ 16) 0 (env.alloc r.maxaddr mem).2 := by
  obtain ⟨hbounds, -, hprgmp, -, -⟩ := elfLoaderMem_accepts h
  unfold copied
  rw [hbounds, hprgmp]

theorem writes_between_iff (h : elfLoaderMem env img addr (.start mem) = some (some r, m')) :
    (∀ x, m'.Writes x → Between r.prgmp r.minaddr r.maxaddr x) ↔
      Covered (img.table mem) (copied env img addr mem) := by
  obtain ⟨hbounds, -, -, hwrites, -⟩ := elfLoaderMem_accepts h
  rw [copied_eq h, ← touches_iff_covered hbounds]
  constructor
  · intro hall k hk
    have hb := hall (r.prgmp.addr + k) ((hwrites k).2 hk)
    unfold Between at hb
    rw [BitVec.add_comm, BitVec.add_sub_cancel] at hb
    exact hb
  · intro hall x hx
    have hx' : r.prgmp.addr + (x - r.prgmp.addr) = x := by bv_omega
    exact hall _ ((hwrites _).1 (hx'.symm ▸ hx))

theorem loadBelow_ok (h : loadBelow couldNot tooLarge d memcpy img addr limit (.start mem) = some (some r, m')) :
    elfLoaderMem (bootEnv d memcpy) img addr (.start mem) = some (some r, m') ∧ r.maxaddr ≤ limit := by
  unfold loadBelow at h
  obtain ⟨⟨res, m⟩, hload, heq⟩ := Option.map_eq_some_iff.1 h
  cases res with
  | none => cases heq
  | some r' =>
    simp only at heq
    split at heq
    · cases heq
    · rename_i hle
      cases heq
      exact ⟨hload, BitVec.not_lt.1 hle⟩

/-- **The size check bounds what was written**, as far as the loader's bounds do. -/
theorem loadBelow_writes (h : loadBelow couldNot tooLarge d memcpy img addr limit (.start mem) = some (some r, m'))
    (hcov : Covered (img.table mem) (copied (bootEnv d memcpy) img addr mem)) {x : BitVec 64} (hx : m'.Writes x) :
    x - r.prgmp.addr < limit := by
  obtain ⟨hload, hle⟩ := loadBelow_ok h
  have hbetween := ((writes_between_iff hload).2 hcov x hx).2
  rw [BitVec.lt_def] at hbetween ⊢
  exact Nat.lt_of_lt_of_le hbetween hle

theorem loadKernel_below {sym : Symbols} {bi : BootInfo} {m : Machine σ}
    (h : loadKernel d sym memcpy img m = some (some bi, m')) :
    ∃ r, loadBelow "Could not load kernel file" "Kernel too large: %lx > %lx" d memcpy img sym.kernelElfStart
        sym.bootLoadVirtaddr.addr m = some (some r, m') ∧
      sym.kernelEntryPoint.addr = (r.prgmp.incOffset r.entry).addr ∧
      bi = { BootInfo.zero with
        kernelStartAddr := sym.kernelLoadVirtaddr, kernelMemSize := r.maxaddr - sym.kernelLoadVirtaddr.addr } := by
  unfold loadKernel at h
  obtain ⟨⟨res, mid⟩, hload, heq⟩ := Option.map_eq_some_iff.1 h
  cases res with
  | none => cases heq
  | some r =>
    simp only at heq
    split at heq
    · cases heq
    · rename_i hentry
      cases heq
      exact ⟨r, hload, Decidable.of_not_not hentry, rfl⟩

/-- **A kernel that is loaded has left the boot loader alone**, where the bounds cover its segments. -/
theorem loadKernel_writes {sym : Symbols} {bi : BootInfo}
    (h : loadKernel d sym memcpy img (.start mem) = some (some bi, m'))
    (hcov : Covered (img.table mem) (copied (bootEnv d memcpy) img sym.kernelElfStart mem)) :
    ∀ x, m'.Writes x → x - d.addr < sym.bootLoadVirtaddr.addr := by
  obtain ⟨r, hload, -, -⟩ := loadKernel_below h
  obtain ⟨-, -, hprgmp, -, -⟩ := elfLoaderMem_accepts (loadBelow_ok hload).1
  have hd : r.prgmp = d := hprgmp
  exact fun x hx => hd ▸ loadBelow_writes hload hcov hx

/-- **What the loader reports is what it has touched**: the bytes written are in the bounds that it reports, and in the
memory that it has asked for, if and only if each segment copied ends, as integers, at or before some segment's reported
end, and starts at or after some segment's start.  Then the check of `maxaddr` bounds what was written. -/
theorem elf_loader_touches (h : elfLoaderMem env img addr (.start mem) = some (some r, m')) :
    m'.asked = [r.maxaddr] ∧
      ((∀ x, m'.Writes x → Between r.prgmp r.minaddr r.maxaddr x) ↔
        Covered (img.table mem) (copied env img addr mem)) ∧
      (Keeps env img → copied env img addr mem = img.table mem) ∧
      ∀ d memcpy limit couldNot tooLarge r m',
        loadBelow couldNot tooLarge d memcpy img addr limit (.start mem) = some (some r, m') →
        Covered (img.table mem) (copied (bootEnv d memcpy) img addr mem) →
        ∀ x, m'.Writes x → x - r.prgmp.addr < limit := by
  obtain ⟨-, hasked, -, -, hkeeps⟩ := elfLoaderMem_accepts h
  refine ⟨hasked, writes_between_iff h, fun hk => (copied_eq h).trans (hkeeps hk), ?_⟩
  exact fun d memcpy limit couldNot tooLarge r m' hb hcov x hx => loadBelow_writes hb hcov hx

/-- An image of one segment at the address where the kernel is loaded. -/
def oneSegment (filesz memsz : BitVec 64) : Image Unit where
  ehdr := fun _ =>
    { eIdent := fun i => [0x7f, 0x45, 0x4c, 0x46, 2, 2, 1, 9].getD i.val 0
      eType := 2, eMachine := 8, eVersion := 1, eEntry := 0xffffffff80080160, ePhoff := 64, ePhnum := 1 }
  phdr := fun _ _ _ => ⟨ptLoad, 0x1000, 0xffffffff80080000, filesz, memsz⟩

/-- A `memcpy` that does not trap. -/
def memcpyUnit (_ _ : Cap) (_ : BitVec 64) (_ : Unit) : Option Unit := some ()

def oneSegmentLoaded (memsz : BitVec 64) : Loaded :=
  ⟨Cap.ddc, 0xffffffff80080000, 0xffffffff80080000 + memsz, 0xffffffff80080160⟩

def oneSegmentMachine (filesz memsz : BitVec 64) : Machine Unit :=
  ⟨(), [0xffffffff80080000 + memsz], [⟨Cap.ddc.incOffset 0xffffffff80080000, Cap.null.incOffset 0x1000, filesz⟩], []⟩

theorem elf_loader_touches_one :
    elfLoaderMem (bootEnv Cap.ddc memcpyUnit) (oneSegment 0x2000 0x3000) Cap.null (.start ()) =
      some (some (oneSegmentLoaded 0x3000), oneSegmentMachine 0x2000 0x3000) ∧
    ∀ x, (oneSegmentMachine 0x2000 0x3000).Writes x → Between Cap.ddc 0xffffffff80080000 0xffffffff80083000 x := by
  have hloads : elfLoaderMem (bootEnv Cap.ddc memcpyUnit) (oneSegment 0x2000 0x3000) Cap.null (.start ()) =
      some (some (oneSegmentLoaded 0x3000), oneSegmentMachine 0x2000 0x3000) := rfl
  exact ⟨hloads, (elf_loader_touches hloads).2.1.2 (by decide)⟩

/-- **Where it goes wrong**: a segment longer in the file than in memory is loaded below the boot loader as far as the
check can see, and has overwritten the boot loader's first byte. -/
theorem elf_loader_touches_fails :
    loadBelow "Could not load kernel file" "Kernel too large: %lx > %lx" Cap.ddc memcpyUnit (oneSegment 0x80001 0x1000)
      Cap.null 0xffffffff80100000 (.start ()) =
        some (some (oneSegmentLoaded 0x1000), oneSegmentMachine 0x80001 0x1000) ∧
      (oneSegmentMachine 0x80001 0x1000).Writes 0xffffffff80100000 ∧
      ¬ Between Cap.ddc 0xffffffff80080000 0xffffffff80081000 0xffffffff80100000 := by
  refine ⟨rfl, ⟨_, List.mem_singleton_self _, ?_⟩, ?_⟩
  · unfold Copy.Writes
    decide
  · unfold Between
    decide

end Boot
end CheriOS
