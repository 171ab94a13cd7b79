import CheriOS.Boot.BootUtils
import CheriOS.Lib.Mask
/-!
# Layout — the first stack and the free memory

`load_init` places the stack of `init` behind the image and the free memory behind the stack.  The stack is placed by
the address of the capability that it comes after.  The free memory is placed by its base alone, and the capability to
the end of the stack has the base of the stack: the free memory starts one page into it.
-/
namespace CheriOS
namespace Boot

variable {σ : Type} {d pcc prgmp start stack free c c' : Cap} {maxaddr n x : BitVec 64}

def initStack (d prgmp : Cap) (maxaddr : BitVec 64) : Option Cap :=
  makeAlignedDataCap d (prgmp.incOffset maxaddr) initStackSize

def initFreeMem (d stack : Cap) : Option Cap := makeFreeMemCap d (stack.incOffset initStackSize)

/-- **What `load_init` gives the kernel.** -/
theorem loadInit_layout {sym : Symbols} {memcpy : Cap → Cap → BitVec 64 → σ → Option σ} {img : Image σ}
    {bi bi' : BootInfo} {m m' : Machine σ} (h : loadInit d pcc sym memcpy img bi m = some (some bi', m')) :
    ∃ r, initStack d r.prgmp r.maxaddr = some bi'.initFrame.cfC11 ∧
      initFreeMem d bi'.initFrame.cfC11 = some bi'.startFreeMem ∧
      loadBelow "Could not load init file" "Init too large: %lx > %lx" d memcpy img sym.initElfStart
        sym.bootLoadVirtaddr.addr m = some (some (r : Loaded), m') := by
  unfold loadInit at h
  obtain ⟨⟨res, mid⟩, hload, h⟩ := Option.bind_eq_some_iff.1 h
  cases res with
  | none => cases h
  | some r =>
    obtain ⟨stack, hstack, h⟩ := Option.bind_eq_some_iff.1 h
    obtain ⟨free, hfree, h⟩ := Option.bind_eq_some_iff.1 h
    obtain ⟨pcc', -, h⟩ := Option.bind_eq_some_iff.1 h
    cases h
    exact ⟨r, hstack, hfree, hload⟩

/-! ## Where they are -/

/-- **Apart, page aligned and in order**: the image, the stack and the free memory. -/
structure LaidOut (d prgmp : Cap) (maxaddr : BitVec 64) (stack free : Cap) : Prop where
  aligned : stack.base.toNat % 4096 = 0
  above : prgmp.base.toNat + prgmp.offset.toNat + maxaddr.toNat ≤ stack.base.toNat
  freeAligned : free.base.toNat % 4096 = 0
  after : stack.base.toNat + stack.len.toNat ≤ free.base.toNat
  within : free.base.toNat + free.len.toNat ≤ d.base.toNat + d.len.toNat

/-- **No sum of addresses wraps**, nor the difference from the default capability's base. -/
structure NoWrap (d prgmp : Cap) (maxaddr : BitVec 64) : Prop where
  top : d.base.toNat + d.len.toNat ≤ 2 ^ 64
  desired : prgmp.base.toNat + prgmp.offset.toNat + maxaddr.toNat + 4096 < 2 ^ 64
  above : d.base.toNat ≤ prgmp.base.toNat + prgmp.offset.toNat + maxaddr.toNat

@[simp] theorem incOffset_base : (c.incOffset x).base = c.base := rfl

theorem initStackSize_toNat : initStackSize.toNat = 0x10000 := rfl

theorem page_floor (x : BitVec 64) : (x &&& ~~~(pageAlign - 1)).toNat = x.toNat / 4096 * 4096 := by
  have hmask := Mask.toNat_and_not_low (w := 64) (m := x) (k := 12)
  exact hmask

theorem bounded_some (h : ((c.setBounds n).bind fun c => c.andPerm (~~~Cap.permExecute)) = some c') :
    c.offset.toNat + n.toNat ≤ c.len.toNat ∧ c'.base = c.addr ∧ c'.len = n := by
  obtain ⟨b, hb, hp⟩ := Option.bind_eq_some_iff.1 h
  unfold Cap.setBounds at hb
  unfold Cap.andPerm at hp
  split_ifs at hb with hok
  cases hb
  split_ifs at hp
  cases hp
  rw [Bool.and_eq_true, decide_eq_true_eq] at hok
  exact ⟨hok.2, rfl, rfl⟩

theorem bounded_of_fits (hc : c.tag = true) (hs : c.isSealed = false) (hfit : c.offset.toNat + n.toNat ≤ c.len.toNat) :
    ∃ c', ((c.setBounds n).bind fun c => c.andPerm (~~~Cap.permExecute)) = some c' ∧ c'.base = c.addr ∧ c'.len = n := by
  have hset : c.setBounds n = some { c with base := c.addr, len := n, offset := 0 } := by
    unfold Cap.setBounds
    rw [hc, hs, decide_eq_true hfit]
    rfl
  have hok : (c.tag && !c.isSealed) = true := by rw [hc, hs]; rfl
  refine ⟨{ c with base := c.addr, len := n, offset := 0, perms := c.perms &&& ~~~Cap.permExecute }, ?_, rfl, rfl⟩
  rw [hset, Option.bind_some]
  unfold Cap.andPerm
  rw [if_pos hok]

/-- How far the page after `start`, and a page after the base of `start`, are from the default capability's base. -/
def stackOfs (d start : Cap) : BitVec 64 := (start.base + start.offset + pageAlign &&& ~~~(pageAlign - 1)) - d.base
def freeOfs (d start : Cap) : BitVec 64 := start.base - d.base + pageAlign &&& ~~~(pageAlign - 1)

theorem makeAlignedDataCap_some (hd : d.base.toNat + d.len.toNat ≤ 2 ^ 64)
    (h : makeAlignedDataCap d start initStackSize = some stack) :
    stack.base.toNat = d.base.toNat + (d.offset + stackOfs d start).toNat ∧ stack.len = initStackSize ∧
      (d.offset + stackOfs d start).toNat + 0x10000 ≤ d.len.toNat := by
  obtain ⟨hfit, hbase, hlen⟩ := bounded_some h
  rw [initStackSize_toNat] at hfit
  refine ⟨?_, hlen, hfit⟩
  rw [hbase]
  show (d.base + (d.offset + stackOfs d start)).toNat = _
  rw [BitVec.toNat_add]
  change (d.offset + stackOfs d start).toNat + 0x10000 ≤ d.len.toNat at hfit
  omega

theorem makeFreeMemCap_some (h : makeFreeMemCap d start = some free) :
    free.base = d.base + (d.offset + freeOfs d start) ∧
      free.len = (d.len &&& ~~~(pageAlign - 1)) - freeOfs d start ∧
      (d.offset + freeOfs d start).toNat + free.len.toNat ≤ d.len.toNat := by
  obtain ⟨hfit, hbase, hlen⟩ := bounded_some h
  exact ⟨hbase, hlen, hlen ▸ hfit⟩

/-! ## How far it reaches into the stack -/

theorem initStack_above (hw : NoWrap d prgmp maxaddr) (hc : d.tag = true) (hs : d.isSealed = false) (ho : d.offset = 0)
    (hroom : (prgmp.base.toNat + prgmp.offset.toNat + maxaddr.toNat) / 4096 * 4096 + 4096 + 0x10000 ≤
      d.base.toNat + d.len.toNat) :
    ∃ stack, initStack d prgmp maxaddr = some stack ∧ stack.len = initStackSize ∧
      stack.base.toNat = (prgmp.base.toNat + prgmp.offset.toNat + maxaddr.toNat) / 4096 * 4096 + 4096 := by
  have hdes := hw.desired
  have habove := hw.above
  have hfloor := page_floor (prgmp.base + (prgmp.offset + maxaddr) + pageAlign)
  have hsum : (prgmp.base + (prgmp.offset + maxaddr) + pageAlign).toNat =
      prgmp.base.toNat + prgmp.offset.toNat + maxaddr.toNat + 4096 := by
    rw [BitVec.toNat_add, BitVec.toNat_add, BitVec.toNat_add, show pageAlign.toNat = 4096 from rfl]
    omega
  rw [hsum] at hfloor
  have hofs : (d.offset + stackOfs d (prgmp.incOffset maxaddr)).toNat =
      (prgmp.base.toNat + prgmp.offset.toNat + maxaddr.toNat) / 4096 * 4096 + 4096 - d.base.toNat := by
    rw [ho, show (0 : BitVec 64) + stackOfs d (prgmp.incOffset maxaddr) = stackOfs d (prgmp.incOffset maxaddr) from
      BitVec.zero_add _]
    show ((prgmp.base + (prgmp.offset + maxaddr) + pageAlign &&& ~~~(pageAlign - 1)) - d.base).toNat = _
    rw [BitVec.toNat_sub_of_le (by rw [BitVec.le_def, hfloor]; omega), hfloor]
    omega
  obtain ⟨stack, hst, hbase, hlen⟩ := bounded_of_fits (c := d.incOffset (stackOfs d (prgmp.incOffset maxaddr)))
    (n := initStackSize) hc hs (by
      show (d.offset + stackOfs d (prgmp.incOffset maxaddr)).toNat + 0x10000 ≤ d.len.toNat
      omega)
  refine ⟨stack, hst, hlen, ?_⟩
  rw [hbase]
  show (d.base + (d.offset + stackOfs d (prgmp.incOffset maxaddr))).toNat = _
  rw [BitVec.toNat_add, hofs]
  omega

theorem initFreeMem_start (hd : d.base.toNat + d.len.toNat ≤ 2 ^ 64) (hc : d.tag = true) (hs : d.isSealed = false)
    (ho : d.offset = 0) (hb : d.base.toNat % 4096 = 0) (hsa : stack.base.toNat % 4096 = 0)
    (hle : d.base.toNat ≤ stack.base.toNat) (hfit : stack.base.toNat + 0x10000 ≤ d.base.toNat + d.len.toNat) :
    ∃ free, initFreeMem d stack = some free ∧ free.base.toNat = stack.base.toNat + 4096 ∧
      free.base.toNat + free.len.toNat = d.base.toNat + d.len.toNat / 4096 * 4096 := by
  have hsum : (stack.base - d.base + pageAlign : BitVec 64).toNat = stack.base.toNat - d.base.toNat + 4096 := by
    rw [BitVec.toNat_add, BitVec.toNat_sub_of_le hle, show pageAlign.toNat = 4096 from rfl]
    omega
  have hofs : (freeOfs d (stack.incOffset initStackSize)).toNat = stack.base.toNat - d.base.toNat + 4096 := by
    have hfloor := page_floor (stack.base - d.base + pageAlign)
    unfold freeOfs
    rw [incOffset_base, hfloor, hsum]
    omega
  have hlen := page_floor d.len
  have hrest : ((d.len &&& ~~~(pageAlign - 1)) - freeOfs d (stack.incOffset initStackSize)).toNat =
      d.len.toNat / 4096 * 4096 - (stack.base.toNat - d.base.toNat + 4096) := by
    rw [BitVec.toNat_sub_of_le (by rw [BitVec.le_def, hlen, hofs]; omega), hlen, hofs]
  have hoff : (d.offset + freeOfs d (stack.incOffset initStackSize)).toNat =
      stack.base.toNat - d.base.toNat + 4096 := by
    rw [ho, show (0 : BitVec 64) + freeOfs d (stack.incOffset initStackSize) = freeOfs d (stack.incOffset initStackSize)
      from BitVec.zero_add _, hofs]
  obtain ⟨free, hf, hbase, hflen⟩ := bounded_of_fits (c := d.incOffset (freeOfs d (stack.incOffset initStackSize)))
    (n := (d.len &&& ~~~(pageAlign - 1)) - freeOfs d (stack.incOffset initStackSize)) hc hs (by
      show (d.offset + freeOfs d (stack.incOffset initStackSize)).toNat + _ ≤ d.len.toNat
      omega)
  have hfb : free.base.toNat = stack.base.toNat + 4096 := by
    rw [hbase]
    show (d.base + (d.offset + freeOfs d (stack.incOffset initStackSize))).toNat = _
    rw [BitVec.toNat_add, hoff]
    omega
  refine ⟨free, hf, hfb, ?_⟩
  rw [hfb, hflen, hrest]
  omega

/-- **The stack is where it should be, and all of it but its first page is free memory.** -/
theorem stack_shared (hw : NoWrap d prgmp maxaddr) (hc : d.tag = true) (hs : d.isSealed = false) (ho : d.offset = 0)
    (hb : d.base.toNat % 4096 = 0)
    (hroom : (prgmp.base.toNat + prgmp.offset.toNat + maxaddr.toNat) / 4096 * 4096 + 4096 + 0x10000 ≤
      d.base.toNat + d.len.toNat) :
    ∃ stack free, initStack d prgmp maxaddr = some stack ∧ initFreeMem d stack = some free ∧
      stack.base.toNat % 4096 = 0 ∧
      prgmp.base.toNat + prgmp.offset.toNat + maxaddr.toNat < stack.base.toNat ∧
      ∀ a, (stack.base.toNat ≤ a ∧ a < stack.base.toNat + stack.len.toNat) ∧
          (free.base.toNat ≤ a ∧ a < free.base.toNat + free.len.toNat) ↔
        stack.base.toNat + 4096 ≤ a ∧ a < stack.base.toNat + 0x10000 := by
  obtain ⟨stack, hst, hlen, hbase⟩ := initStack_above hw hc hs ho hroom
  have habove := hw.above
  have haligned : stack.base.toNat % 4096 = 0 := by omega
  obtain ⟨free, hf, hfbase, hfend⟩ := initFreeMem_start hw.top hc hs ho hb haligned (by omega) (by omega)
  refine ⟨stack, free, hst, hf, by omega, by omega, fun a => ?_⟩
  rw [hlen, initStackSize_toNat]
  omega

/-- The free memory starts at most two pages from the start of the stack, and the stack has sixteen. -/
theorem not_laidOut (hd : d.base.toNat + d.len.toNat ≤ 2 ^ 64) :
    ¬ ∃ stack free, initStack d prgmp maxaddr = some stack ∧ initFreeMem d stack = some free ∧
      LaidOut d prgmp maxaddr stack free := by
  rintro ⟨stack, free, hs, hf, hlaid⟩
  obtain ⟨hsbase, hslen, hsfit⟩ := makeAlignedDataCap_some hd hs
  obtain ⟨hfbase, hflen, hffit⟩ := makeFreeMemCap_some hf
  have hafter := hlaid.after
  rw [hslen, initStackSize_toNat, hfbase] at hafter
  generalize (d.offset + stackOfs d (prgmp.incOffset maxaddr)).toNat = off at hsbase hsfit
  -- the distance from the base of the default capability to that of the stack, and a page
  have hofs : (freeOfs d (stack.incOffset initStackSize)).toNat ≤ off + 4096 ∧
      (freeOfs d (stack.incOffset initStackSize)).toNat % 4096 = 0 := by
    have hsub : (stack.base - d.base + pageAlign : BitVec 64).toNat = off + 4096 := by
      rw [BitVec.toNat_add, BitVec.toNat_sub, show pageAlign.toNat = 4096 from rfl, hsbase]
      have hlt := d.base.isLt
      omega
    have hfloor := page_floor (stack.base - d.base + pageAlign)
    rw [hsub] at hfloor
    unfold freeOfs
    rw [incOffset_base, hfloor]
    omega
  have hfloor := page_floor d.len
  generalize freeOfs d (stack.incOffset initStackSize) = ofs at hofs hflen hffit hafter
  have hlen : free.len.toNat = d.len.toNat / 4096 * 4096 - ofs.toNat := by
    rw [hflen, BitVec.toNat_sub_of_le (by rw [BitVec.le_def, hfloor]; omega), hfloor]
  have hstart : (d.offset + ofs).toNat ≤ off + 2 * 4096 := by
    have hadd : (d.offset + ofs).toNat = (d.offset.toNat + ofs.toNat) % 2 ^ 64 := BitVec.toNat_add _ _
    have hlt := d.offset.isLt
    omega
  rw [BitVec.toNat_add] at hafter
  omega

/-- **The free memory never starts behind the stack**, wherever the image has been loaded and however long it is; so
what `load_init` gives the kernel is never laid out as it should be. -/
theorem free_memory_in_stack (hd : d.base.toNat + d.len.toNat ≤ 2 ^ 64) :
    (∀ prgmp maxaddr, ¬ ∃ stack free, initStack d prgmp maxaddr = some stack ∧ initFreeMem d stack = some free ∧
      LaidOut d prgmp maxaddr stack free) ∧
    ∀ (pcc : Cap) (sym : Symbols) (memcpy : Cap → Cap → BitVec 64 → σ → Option σ) (img : Image σ) (bi bi' : BootInfo)
      (m m' : Machine σ), loadInit d pcc sym memcpy img bi m = some (some bi', m') →
      ∃ r : Loaded, loadBelow "Could not load init file" "Init too large: %lx > %lx" d memcpy img sym.initElfStart
          sym.bootLoadVirtaddr.addr m = some (some r, m') ∧
        ¬ LaidOut d r.prgmp r.maxaddr bi'.initFrame.cfC11 bi'.startFreeMem := by
  refine ⟨fun prgmp maxaddr => not_laidOut hd, fun pcc sym memcpy img bi bi' m m' h => ?_⟩
  obtain ⟨r, hstack, hfree, hload⟩ := loadInit_layout h
  exact ⟨r, hload, fun hlaid => not_laidOut hd ⟨_, _, hstack, hfree, hlaid⟩⟩

/-- The boot loader is above what it loads. -/
def bootSymbols : Symbols :=
  ⟨Cap.ddc.incOffset 0xffffffff80100000, Cap.ddc.incOffset 0xffffffff80080000, Cap.ddc.incOffset 0xffffffff80080160,
    Cap.null, Cap.null, Cap.null, Cap.null⟩

theorem free_memory_in_stack_default :
    (∀ prgmp maxaddr, ¬ ∃ stack free, initStack Cap.ddc prgmp maxaddr = some stack ∧
      initFreeMem Cap.ddc stack = some free ∧ LaidOut Cap.ddc prgmp maxaddr stack free) ∧
    ∃ bi m, loadInit Cap.ddc Cap.pcc bootSymbols memcpyUnit (oneSegment 0x2000 0x3000) BootInfo.zero (.start ()) =
        some (some bi, m) ∧
      ¬ LaidOut Cap.ddc Cap.ddc 0xffffffff80083000 bi.initFrame.cfC11 bi.startFreeMem := by
  obtain ⟨hall, hload⟩ := free_memory_in_stack (σ := Unit) (d := Cap.ddc) (by decide)
  refine ⟨hall, _, _, rfl, ?_⟩
  obtain ⟨r, hr, hnot⟩ := hload Cap.pcc bootSymbols memcpyUnit (oneSegment 0x2000 0x3000) BootInfo.zero _ (.start ()) _ rfl
  obtain rfl : oneSegmentLoaded 0x3000 = r := Option.some.inj (congrArg Prod.fst (Option.some.inj (Eq.trans rfl hr)))
  exact hnot

/-- **Where it goes wrong**, with the default capability that the boot loader has: the free memory starts a page behind
the start of the stack. -/
theorem free_memory_starts_in_stack : NoWrap Cap.ddc Cap.ddc 0xffffffff800d0123 ∧
    ∃ stack free, initStack Cap.ddc Cap.ddc 0xffffffff800d0123 = some stack ∧ initFreeMem Cap.ddc stack = some free ∧
      stack.base = 0xffffffff800d1000 ∧ stack.len = 0x10000 ∧ free.base = 0xffffffff800d2000 ∧
      ¬ LaidOut Cap.ddc Cap.ddc 0xffffffff800d0123 stack free := by
  refine ⟨⟨by decide, by decide, by decide⟩, _, _, rfl, rfl, rfl, rfl, rfl, fun hlaid => ?_⟩
  exact absurd hlaid.after (by decide)

end Boot
end CheriOS
