import CheriOS.Cap
/-!
# ElfLoader — a program's segments, copied where its headers put them

`elf_loader_mem` reads the program headers twice.  The first time it takes the bounds of the image from `p_vaddr` and
`p_memsz`, modulo `2 ^ 64`; the second time it copies `p_filesz` bytes for each segment.  Nothing compares the two
sizes, so what is written is in the bounds exactly when the headers themselves see to it.
-/
namespace CheriOS
namespace Boot

/-! ## The file (`elf.h`) -/

structure Elf64Ehdr where
  eIdent : Fin 16 → BitVec 8
  eType : BitVec 16
  eMachine : BitVec 16
  eVersion : BitVec 32
  eEntry : BitVec 64
  ePhoff : BitVec 64
  ePhnum : BitVec 16

structure Elf64Phdr where
  pType : BitVec 32
  pOffset : BitVec 64
  pVaddr : BitVec 64
  pFilesz : BitVec 64
  pMemsz : BitVec 64
  deriving DecidableEq, Repr

def eiClass : Fin 16 := 4
def eiData : Fin 16 := 5
def eiVersion : Fin 16 := 6
def eiOsabi : Fin 16 := 7
def eiAbiversion : Fin 16 := 8

def ptLoad : BitVec 32 := 1
def ptPhdr : BitVec 32 := 6
def ptGnuStack : BitVec 32 := 0x6474E551
def ptGnuRelro : BitVec 32 := 0x6474E552

/-- A program image in a memory `σ`: its header, and the entries of the table at an offset from the header. -/
structure Image (σ : Type) where
  ehdr : σ → Elf64Ehdr
  phdr : σ → BitVec 64 → Nat → Elf64Phdr

variable {σ : Type}

/-- `elf_segment`, whose assertion is the test of the loops that call it. -/
def Image.segment (img : Image σ) (mem : σ) (idx : Nat) : Elf64Phdr := img.phdr mem (img.ehdr mem).ePhoff idx

def Image.table (img : Image σ) (mem : σ) : List Elf64Phdr :=
  (List.range (img.ehdr mem).ePhnum.toNat).map (img.segment mem)

/-! ## The calling environment -/

/-- `memcpy` is `none` where it traps. -/
structure ElfEnv (σ : Type) where
  alloc : BitVec 64 → σ → Cap × σ
  free : Cap → σ → σ
  memcpy : Cap → Cap → BitVec 64 → σ → Option σ

/-- A call of `env->memcpy`: it writes `n` bytes from the address of `dest` on. -/
structure Copy where
  dest : Cap
  src : Cap
  n : BitVec 64

def Copy.Writes (c : Copy) (x : BitVec 64) : Prop := (x - c.dest.addr).toNat < c.n.toNat

abbrev Message := String × List (BitVec 64)

/-- The memory, what was asked of `env->alloc`, what was copied and what was printed. -/
structure Machine (σ : Type) where
  mem : σ
  asked : List (BitVec 64)
  copies : List Copy
  out : List Message

namespace Machine

def start (mem : σ) : Machine σ := ⟨mem, [], [], []⟩

def error (m : Machine σ) (e : Message) : Machine σ := { m with out := m.out ++ [e] }

def alloc (m : Machine σ) (env : ElfEnv σ) (n : BitVec 64) : Cap × Machine σ :=
  ((env.alloc n m.mem).1, { m with mem := (env.alloc n m.mem).2, asked := m.asked ++ [n] })

def memcpy (m : Machine σ) (env : ElfEnv σ) (dest src : Cap) (n : BitVec 64) : Option (Machine σ) :=
  (env.memcpy dest src n m.mem).map fun mem => { m with mem := mem, copies := m.copies ++ [⟨dest, src, n⟩] }

def Writes (m : Machine σ) (x : BitVec 64) : Prop := ∃ c ∈ m.copies, c.Writes x

end Machine

/-! ## The loader -/

/-- The message of the check that fails. -/
def elfCheckSupported (hdr : Elf64Ehdr) : Option Message :=
  if hdr.eIdent eiClass ≠ 2 then some ("Bad EI_CLASS", [])
  else if hdr.eIdent eiData ≠ 2 then some ("Bad EI_DATA", [])
  else if hdr.eIdent eiVersion ≠ 1 then some ("Bad EI_VERSION", [])
  else if hdr.eIdent eiOsabi ≠ 9 then some ("Bad EI_OSABI: %X", [(hdr.eIdent eiOsabi).setWidth 64])
  else if hdr.eIdent eiAbiversion ≠ 0 then some ("Bad EI_ABIVERSION: %X", [(hdr.eIdent eiAbiversion).setWidth 64])
  else if hdr.eType ≠ 2 then some ("Bad e_type: %X", [hdr.eType.setWidth 64])
  else if hdr.eMachine ≠ 8 then some ("Bad e_machine: %X", [hdr.eMachine.setWidth 64])
  else if hdr.eVersion ≠ 1 then some ("Bad e_version", [])
  else none

def umax (a b : BitVec 64) : BitVec 64 := if b < a then a else b
def umin (a b : BitVec 64) : BitVec 64 := if a < b then a else b

/-- The first loop: `none` at a section of an unknown type. -/
def elfBounds : List Elf64Phdr → BitVec 64 → BitVec 64 → Option (BitVec 64 × BitVec 64)
  | [], allocsize, lowaddr => some (allocsize, lowaddr)
  | seg :: segs, allocsize, lowaddr =>
    if seg.pType = ptLoad then
      let bound := seg.pVaddr + seg.pMemsz
      elfBounds segs (umax allocsize bound) (umin lowaddr seg.pVaddr)
    else if seg.pType = ptGnuStack ∨ seg.pType = ptGnuRelro ∨ seg.pType = ptPhdr then elfBounds segs allocsize lowaddr
    else none

/-- The second loop, from the entry `i` on.  It reads the header and the table where they are, in the memory it copies
into; `e_phnum` has sixteen bits, so `2 ^ 16` rounds are enough. -/
def elfCopy (env : ElfEnv σ) (img : Image σ) (addr prgmp : Cap) : Nat → Nat → Machine σ → Option (Machine σ)
  | 0, _, m => some m
  | rounds + 1, i, m =>
    if i < (img.ehdr m.mem).ePhnum.toNat then
      let seg := img.segment m.mem i
      if seg.pType = ptLoad then
        (m.memcpy env (prgmp.incOffset seg.pVaddr) (addr.incOffset seg.pOffset) seg.pFilesz).bind
          (elfCopy env img addr prgmp rounds (i + 1))
      else elfCopy env img addr prgmp rounds (i + 1) m
    else some m

/-- What an accepted image is reported as. -/
structure Loaded where
  prgmp : Cap
  minaddr : BitVec 64
  maxaddr : BitVec 64
  entry : BitVec 64

/-- `none` where a copy traps; no image where the loader returns `NULL`. -/
def elfLoaderMem (env : ElfEnv σ) (img : Image σ) (addr : Cap) (m : Machine σ) : Option (Option Loaded × Machine σ) :=
  let hdr := img.ehdr m.mem
  match elfCheckSupported hdr with
  | some e => some (none, (m.error e).error ("ELF File cannot be loaded", []))
  | none =>
    match elfBounds (img.table m.mem) 0 (-1) with
    | none => some (none, m.error ("Unknown section", []))
    | some (allocsize, lowaddr) =>
      let (prgmp, m) := m.alloc env allocsize
      if prgmp.isNull then some (none, m.error ("alloc failed", []))
      else (elfCopy env img addr prgmp (2 ^ 16) 0 m).map fun m =>
        (some ⟨prgmp, lowaddr, allocsize, hdr.eEntry⟩, { m with mem := env.free addr m.mem })

/-! ## The bounds -/

variable {env : ElfEnv σ} {img : Image σ} {addr prgmp : Cap} {mem : σ} {m m' : Machine σ} {r : Loaded}
  {segs read : List Elf64Phdr} {seg : Elf64Phdr} {a l a' l' k x : BitVec 64} {rounds i : Nat}

def Elf64Phdr.Loads (seg : Elf64Phdr) : Prop := seg.pType = ptLoad

theorem lt_umax : k < umax a l ↔ k < a ∨ k < l := by
  unfold umax
  split <;> bv_omega

theorem umin_le : umin a l ≤ k ↔ a ≤ k ∨ l ≤ k := by
  unfold umin
  split <;> bv_omega

/-- **What the first loop computes**: the greatest end and the least start of the segments. -/
theorem elfBounds_iff (h : elfBounds segs a l = some (a', l')) :
    (k < a' ↔ k < a ∨ ∃ t ∈ segs, t.Loads ∧ k < t.pVaddr + t.pMemsz) ∧
      (l' ≤ k ↔ l ≤ k ∨ ∃ t ∈ segs, t.Loads ∧ t.pVaddr ≤ k) := by
  induction segs generalizing a l with
  | nil =>
    cases h
    simp
  | cons seg segs ih =>
    unfold elfBounds at h
    split at h
    case isTrue hload =>
      have hih := ih h
      rw [lt_umax, umin_le] at hih
      rw [hih.1, hih.2]
      simp only [List.mem_cons, exists_eq_or_imp, Elf64Phdr.Loads, hload, true_and, or_assoc, and_self]
    case isFalse hload =>
      split at h
      case isTrue =>
        have hih := ih h
        simp only [List.mem_cons, exists_eq_or_imp, Elf64Phdr.Loads, hload, false_and, false_or]
        exact hih
      case isFalse => cases h

/-- **Every segment of `read` that is copied ends within the bounds that `segs` gives**: not before the lowest start,
and, as integers, not behind the greatest end. -/
def Covered (segs read : List Elf64Phdr) : Prop :=
  ∀ s ∈ read, s.Loads → s.pFilesz ≠ 0 →
    (∃ t ∈ segs, t.Loads ∧ t.pVaddr ≤ s.pVaddr) ∧
      ∃ t ∈ segs, t.Loads ∧ s.pVaddr.toNat + s.pFilesz.toNat ≤ (t.pVaddr + t.pMemsz).toNat

instance : DecidablePred Elf64Phdr.Loads := fun seg => inferInstanceAs (Decidable (seg.pType = ptLoad))
instance : Decidable (Covered segs read) := inferInstanceAs (Decidable (∀ s ∈ read, _))

/-- The byte `k` of the image is copied for one of the segments. -/
def Touches (read : List Elf64Phdr) (k : BitVec 64) : Prop :=
  ∃ s ∈ read, s.Loads ∧ (k - s.pVaddr).toNat < s.pFilesz.toNat

/-- The greatest end, as an integer. -/
theorem elfBounds_end {n : Nat} (h : elfBounds segs 0 (-1) = some (a', l')) (hn : 0 < n) :
    n ≤ a'.toNat ↔ ∃ t ∈ segs, t.Loads ∧ n ≤ (t.pVaddr + t.pMemsz).toNat := by
  by_cases hle : n ≤ 2 ^ 64
  · have hk : (BitVec.ofNat 64 (n - 1)).toNat = n - 1 := by
      rw [BitVec.toNat_ofNat]
      omega
    have hlt : ∀ y : BitVec 64, n ≤ y.toNat ↔ BitVec.ofNat 64 (n - 1) < y := fun y => by
      rw [BitVec.lt_def, hk]
      omega
    have hzero : ¬ BitVec.ofNat 64 (n - 1) < 0 := BitVec.not_lt_zero
    simp only [hlt]
    rw [(elfBounds_iff h).1, or_iff_right hzero]
  · refine iff_of_false (fun hno => hle (hno.trans (Nat.le_of_lt a'.isLt))) ?_
    rintro ⟨t, -, -, hno⟩
    exact hle (hno.trans (Nat.le_of_lt (t.pVaddr + t.pMemsz).isLt))

/-- The least start, of bounds that are not empty. -/
theorem elfBounds_start (h : elfBounds segs 0 (-1) = some (a', l')) (hk : k < a') :
    l' ≤ k ↔ ∃ t ∈ segs, t.Loads ∧ t.pVaddr ≤ k := by
  rw [(elfBounds_iff h).2, or_iff_right]
  have ha := a'.isLt
  rw [BitVec.lt_def] at hk
  rw [BitVec.le_def, show (-1 : BitVec 64).toNat = 2 ^ 64 - 1 from rfl]
  omega

/-- **When a segment lies between two bounds**: it starts after the first, and as integers ends before the second. -/
theorem between_iff {v f : BitVec 64} (hf : f ≠ 0) :
    (∀ k, (k - v).toNat < f.toNat → l ≤ k ∧ k < a) ↔ l ≤ v ∧ v.toNat + f.toNat ≤ a.toNat := by
  have hpos : 0 < f.toNat := Nat.pos_of_ne_zero (fun h0 => hf (BitVec.eq_of_toNat_eq h0))
  have ha := a.isLt
  constructor
  · intro hall
    have hfirst := hall v (by rw [BitVec.sub_self]; exact hpos)
    refine ⟨hfirst.1, ?_⟩
    -- the last byte; were it behind the end of the address space, the byte `-1` would be copied as well
    have hmax : (-1 : BitVec 64).toNat = 2 ^ 64 - 1 := rfl
    have hno : v.toNat + f.toNat ≤ 2 ^ 64 := by
      by_contra hgt
      have hlast := (hall (-1) (by rw [BitVec.toNat_sub, hmax]; omega)).2
      rw [BitVec.lt_def, hmax] at hlast
      omega
    have hk : (v + BitVec.ofNat 64 (f.toNat - 1)).toNat = v.toNat + (f.toNat - 1) := by
      rw [BitVec.toNat_add, BitVec.toNat_ofNat]
      omega
    have hlast := (hall (v + BitVec.ofNat 64 (f.toNat - 1)) (by rw [BitVec.toNat_sub, hk]; omega)).2
    rw [BitVec.lt_def, hk] at hlast
    omega
  · rintro ⟨hstart, hend⟩ k hk
    have hkv : k.toNat = v.toNat + (k - v).toNat := by
      rw [BitVec.toNat_sub] at hk ⊢
      omega
    rw [BitVec.le_def] at hstart ⊢
    rw [BitVec.lt_def]
    omega

/-- **The bytes are in the bounds exactly when the segments are covered.** -/
theorem touches_iff_covered (h : elfBounds segs 0 (-1) = some (a', l')) :
    (∀ k, Touches read k → l' ≤ k ∧ k < a') ↔ Covered segs read := by
  have hseg : ∀ s : Elf64Phdr, s.pFilesz ≠ 0 → ((∀ k, (k - s.pVaddr).toNat < s.pFilesz.toNat → l' ≤ k ∧ k < a') ↔
      (∃ t ∈ segs, t.Loads ∧ t.pVaddr ≤ s.pVaddr) ∧
        ∃ t ∈ segs, t.Loads ∧ s.pVaddr.toNat + s.pFilesz.toNat ≤ (t.pVaddr + t.pMemsz).toNat) := fun s hne => by
    have hpos : 0 < s.pFilesz.toNat := Nat.pos_of_ne_zero (fun h0 => hne (BitVec.eq_of_toNat_eq h0))
    rw [between_iff hne, ← elfBounds_end h (by omega)]
    refine and_congr_left fun hend => elfBounds_start h ?_
    rw [BitVec.lt_def]
    omega
  constructor
  · intro hall s hs hload hne
    exact (hseg s hne).1 fun k hk => hall k ⟨s, hs, hload, hk⟩
  · rintro hcov k ⟨s, hs, hload, hk⟩
    have hne : s.pFilesz ≠ 0 := fun h0 => by
      rw [h0] at hk
      exact Nat.not_lt_zero _ hk
    exact (hseg s hne).2 (hcov s hs hload hne) k hk

/-! ## The copies -/

/-- **The entries that the second loop reads**, as the copies before each of them have left the table. -/
def reread (env : ElfEnv σ) (img : Image σ) (addr prgmp : Cap) : Nat → Nat → σ → List Elf64Phdr
  | 0, _, _ => []
  | rounds + 1, i, mem =>
    if i < (img.ehdr mem).ePhnum.toNat then
      let seg := img.segment mem i
      if seg.pType = ptLoad then
        match env.memcpy (prgmp.incOffset seg.pVaddr) (addr.incOffset seg.pOffset) seg.pFilesz mem with
        | some mem' => seg :: reread env img addr prgmp rounds (i + 1) mem'
        | none => [seg]
      else seg :: reread env img addr prgmp rounds (i + 1) mem
    else []

/-- The copy made for a segment. -/
def Elf64Phdr.copy (seg : Elf64Phdr) (addr prgmp : Cap) : Copy :=
  ⟨prgmp.incOffset seg.pVaddr, addr.incOffset seg.pOffset, seg.pFilesz⟩

/-- **The second loop copies each segment that it reads**, and asks for no memory. -/
theorem elfCopy_copies (h : elfCopy env img addr prgmp rounds i m = some m') :
    m'.asked = m.asked ∧ m'.copies = m.copies ++ ((reread env img addr prgmp rounds i m.mem).filter
      (fun s => decide s.Loads)).map (fun s => s.copy addr prgmp) := by
  induction rounds generalizing i m with
  | zero =>
    cases h
    exact ⟨rfl, (List.append_nil _).symm⟩
  | succ rounds ih =>
    unfold elfCopy at h
    unfold reread
    split at h
    case isFalse hend =>
      cases h
      rw [if_neg hend]
      exact ⟨rfl, (List.append_nil _).symm⟩
    case isTrue hlt =>
      rw [if_pos hlt]
      simp only at h ⊢
      split at h
      case isTrue hload =>
        obtain ⟨mid, hcopy, hrest⟩ := Option.bind_eq_some_iff.1 h
        obtain ⟨mem', hmem, rfl⟩ := Option.map_eq_some_iff.1 hcopy
        obtain ⟨hasked, hcopies⟩ := ih hrest
        have hloads : decide (img.segment m.mem i).Loads = true := decide_eq_true hload
        rw [if_pos hload, hmem]
        refine ⟨hasked, ?_⟩
        simp only
        rw [hcopies, List.filter_cons_of_pos (p := fun s => decide (Elf64Phdr.Loads s)) hloads, List.map_cons,
          List.append_assoc]
        rfl
      case isFalse hload =>
        have hloads : ¬ decide (img.segment m.mem i).Loads = true := fun hd => hload (of_decide_eq_true hd)
        rw [if_neg hload, List.filter_cons_of_neg (p := fun s => decide (Elf64Phdr.Loads s)) hloads]
        exact ih h

theorem writes_iff : (∃ c ∈ (read.filter (fun s => decide s.Loads)).map (fun s => s.copy addr prgmp),
    c.Writes (prgmp.addr + k)) ↔ Touches read k := by
  have hsub : ∀ s : Elf64Phdr, (prgmp.addr + k) - (prgmp.incOffset s.pVaddr).addr = k - s.pVaddr := fun s => by
    unfold Cap.addr Cap.incOffset
    bv_omega
  constructor
  · rintro ⟨c, hc, hw⟩
    obtain ⟨s, hs, rfl⟩ := List.mem_map.1 hc
    obtain ⟨hmem, hload⟩ := List.mem_filter.1 hs
    exact ⟨s, hmem, of_decide_eq_true hload, by rw [← hsub s]; exact hw⟩
  · rintro ⟨s, hs, hload, hk⟩
    refine ⟨s.copy addr prgmp, List.mem_map_of_mem (List.mem_filter.2 ⟨hs, decide_eq_true hload⟩), ?_⟩
    unfold Copy.Writes
    rw [show (s.copy addr prgmp).dest = prgmp.incOffset s.pVaddr from rfl, hsub s]
    exact hk

/-- Copying leaves the header and the table of the image as they are. -/
def Keeps (env : ElfEnv σ) (img : Image σ) : Prop :=
  (∀ n mem, img.ehdr (env.alloc n mem).2 = img.ehdr mem ∧ img.phdr (env.alloc n mem).2 = img.phdr mem) ∧
    ∀ dest src n mem mem', env.memcpy dest src n mem = some mem' →
      img.ehdr mem' = img.ehdr mem ∧ img.phdr mem' = img.phdr mem

theorem table_congr {mem mem' : σ} (h : img.ehdr mem' = img.ehdr mem ∧ img.phdr mem' = img.phdr mem) :
    img.table mem' = img.table mem := by
  unfold Image.table Image.segment
  rw [h.1, h.2]

/-- **A table that the copies leave alone is read twice as the same.** -/
theorem reread_eq (hk : Keeps env img) (hr : (img.ehdr m.mem).ePhnum.toNat ≤ i + rounds)
    (h : elfCopy env img addr prgmp rounds i m = some m') :
    reread env img addr prgmp rounds i m.mem = (img.table m.mem).drop i := by
  induction rounds generalizing i m with
  | zero =>
    have hlen : (img.table m.mem).length ≤ i := by simpa [Image.table] using hr
    rw [List.drop_eq_nil_of_le hlen]
    rfl
  | succ rounds ih =>
    unfold elfCopy at h
    unfold reread
    have hlen : (img.table m.mem).length = (img.ehdr m.mem).ePhnum.toNat := by simp [Image.table]
    split at h
    case isFalse hend =>
      rw [if_neg hend, List.drop_eq_nil_of_le (by omega)]
    case isTrue hlt =>
      have hdrop : (img.table m.mem).drop i = img.segment m.mem i :: (img.table m.mem).drop (i + 1) := by
        rw [List.drop_eq_getElem_cons (by omega)]
        simp [Image.table]
      rw [if_pos hlt, hdrop]
      simp only at h ⊢
      split at h
      case isTrue hload =>
        obtain ⟨mid, hcopy, hrest⟩ := Option.bind_eq_some_iff.1 h
        obtain ⟨mem', hmem, rfl⟩ := Option.map_eq_some_iff.1 hcopy
        have hsame := hk.2 _ _ _ _ _ hmem
        have hih := ih (by rw [hsame.1]; omega) hrest
        rw [if_pos hload, hmem]
        simp only
        rw [hih, table_congr hsame]
      case isFalse hload =>
        rw [if_neg hload, ih (by omega) h]

/-- **What an accepted image has done**: the bounds are those of the first reading, that much was asked for, and the
bytes written are those of the segments of the second. -/
theorem elfLoaderMem_accepts (h : elfLoaderMem env img addr (.start mem) = some (some r, m')) :
    elfBounds (img.table mem) 0 (-1) = some (r.maxaddr, r.minaddr) ∧ m'.asked = [r.maxaddr] ∧
      r.prgmp = (env.alloc r.maxaddr mem).1 ∧
      (∀ k, m'.Writes (r.prgmp.addr + k) ↔
        Touches (reread env img addr r.prgmp (2 ^ 16) 0 (env.alloc r.maxaddr mem).2) k) ∧
      (Keeps env img → reread env img addr r.prgmp (2 ^ 16) 0 (env.alloc r.maxaddr mem).2 = img.table mem) := by
  unfold elfLoaderMem at h
  simp only at h
  split at h
  · cases h
  · split at h
    · cases h
    · rename_i allocsize lowaddr hbounds
      split at h
      · cases h
      · obtain ⟨mid, hcopy, heq⟩ := Option.map_eq_some_iff.1 h
        cases heq
        obtain ⟨hasked, hcopies⟩ := elfCopy_copies hcopy
        refine ⟨hbounds, hasked, rfl, fun k => ?_, fun hk => ?_⟩
        · unfold Machine.Writes
          simp only
          rw [hcopies, show ((Machine.start mem).alloc env allocsize).2.copies = [] from rfl, List.nil_append]
          exact writes_iff
        · have hnum := (img.ehdr ((Machine.start mem).alloc env allocsize).2.mem).ePhnum.isLt
          have hread := reread_eq hk (i := 0) (Nat.le_of_lt (by rwa [Nat.zero_add])) hcopy
          rw [List.drop_zero] at hread
          exact hread.trans (table_congr (hk.1 _ _))

end Boot
end CheriOS
