import CheriOS.Cap
import CheriOS.Lib.Assign
/-!
# Reloc — the capabilities in a program's globals (`crtbeginC.c`)

The linker leaves a table that says which capability each slot of the data is to hold, and `crt_init_globals` makes them
before the program starts.  The table is a section of its own: no slot lies in it.
-/
namespace CheriOS
namespace Crt

open Assign

/-- `struct capreloc`. -/
structure Capreloc where
  capabilityLocation : BitVec 64
  object : BitVec 64
  offset : BitVec 64
  size : BitVec 64
  permissions : BitVec 64
  deriving DecidableEq, Repr

def functionRelocFlag : BitVec 64 := 1 <<< 63
def functionPointerPermissions : BitVec 32 := ~~~0 &&& ~~~Cap.permStoreCap &&& ~~~Cap.permStore
def globalPointerPermissions : BitVec 32 := ~~~0 &&& ~~~Cap.permExecute

def Capreloc.isFunction (e : Capreloc) : Bool := e.permissions &&& functionRelocFlag == functionRelocFlag

/-- The two capabilities a program starts with. -/
structure Roots where
  ddc : Cap
  pcc : Cap
  ddcValid : ddc.tag = true ∧ ddc.isSealed = false
  pccValid : pcc.tag = true ∧ pcc.isSealed = false

/-! ## Memory -/

/-- What is accessed: an entry of the table, a slot, any other memory that is read, and the global `_int`. -/
inductive Access where
  | reloc (e : Capreloc)
  | slot (addr : BitVec 64)
  | load (addr : BitVec 64)
  | int
  deriving DecidableEq, Repr

/-- The slots, `_int`, and the accesses so far, the first one first. -/
structure Mem where
  slots : BitVec 64 → Cap
  int : BitVec 32
  accesses : List Access

/-- `word` is what reads of the rest of the memory give, `capSize` the size of a capability in memory. -/
structure Machine where
  capSize : Nat
  word : BitVec 64 → BitVec 32

/-- Storing `src` through `dest` does not trap. -/
def stores (k : Machine) (dest src : Cap) : Bool :=
  dest.tag && !dest.isSealed && dest.hasPerms Cap.permStore && dest.hasPerms Cap.permStoreCap &&
    (src.hasPerms Cap.permGlobal || dest.hasPerms Cap.permStoreLocalCap) &&
    decide (dest.offset.toNat + k.capSize ≤ dest.len.toNat) && decide (dest.addr.toNat % k.capSize = 0)

/-- `*dest = src`; `none` is an exception. -/
def storeCap (k : Machine) (dest src : Cap) (m : Mem) : Option Mem :=
  if stores k dest src then
    some { m with slots := Function.update m.slots dest.addr src, accesses := m.accesses ++ [.slot dest.addr] }
  else none

/-- `_int = *(int *)base`. -/
def loadInt (k : Machine) (base : Cap) (m : Mem) : Option Mem :=
  if base.tag && !base.isSealed && base.hasPerms Cap.permLoad && decide (base.offset.toNat + 4 ≤ base.len.toNat) &&
      decide (base.addr.toNat % 4 = 0) then
    some { m with int := k.word base.addr, accesses := m.accesses ++ [.load base.addr, .int] }
  else none

/-! ## The loop -/

/-- The body of the loop. -/
def relocate (k : Machine) (gdc pcc : Cap) (m : Mem) (reloc : Capreloc) : Option Mem := do
  let m := { m with accesses := m.accesses ++ [.reloc reloc] }
  let isFunction := reloc.isFunction
  let dest := gdc.setOffset reloc.capabilityLocation
  let base := if isFunction then pcc else gdc
  let src := base.setOffset reloc.object
  let m ← if reloc.object = 0x4cd70 then loadInt k (base.setOffset reloc.permissions) m else some m
  let src ← if !isFunction && reloc.size != 0 then src.setBounds reloc.size else some src
  let src := src.incOffset reloc.offset
  storeCap k dest src m

def crtInitGlobals (k : Machine) (r : Roots) (table : List Capreloc) (m : Mem) : Option Mem := do
  let gdc ← r.ddc.andPerm globalPointerPermissions
  let pcc ← r.pcc.andPerm functionPointerPermissions
  table.foldlM (relocate k gdc pcc) m

/-! ## What the table says -/

/-- Data with a size is bounded to the object. -/
def Capreloc.bounded (e : Capreloc) : Bool := !e.isFunction && e.size != 0

namespace Roots

variable (r : Roots) (e : Capreloc)

/-- Where the slot is: the addresses of the table count from the base of the capability they are used with. -/
def slot : BitVec 64 := r.ddc.base + e.capabilityLocation

/-- The program counter capability for a function, otherwise the default data capability. -/
def root : Cap := if e.isFunction then r.pcc else r.ddc

/-- Function pointers do not store, and data pointers do not execute. -/
def permsOf : BitVec 32 :=
  (r.root e).perms &&& (if e.isFunction then functionPointerPermissions else globalPointerPermissions)

/-- **The capability an entry describes.** -/
structure Describes (c : Cap) : Prop where
  valid : c.tag = true ∧ c.isSealed = false
  addr : c.addr = (r.root e).base + e.object + e.offset
  perms : c.perms = r.permsOf e
  bounds : c.base = (if e.bounded then (r.root e).base + e.object else (r.root e).base) ∧
    c.len = if e.bounded then e.size else (r.root e).len

/-- **An entry that can be processed**: its slot can be stored to, and the object it bounds is inside the data. -/
structure Placed (k : Machine) : Prop where
  store : r.ddc.hasPerms Cap.permStore = true ∧ r.ddc.hasPerms Cap.permStoreCap = true
  global : (r.root e).hasPerms Cap.permGlobal = true ∨ r.ddc.hasPerms Cap.permStoreLocalCap = true
  inside : e.capabilityLocation.toNat + k.capSize ≤ r.ddc.len.toNat
  aligned : (r.slot e).toNat % k.capSize = 0
  object : e.bounded = true → e.object.toNat + e.size.toNat ≤ r.ddc.len.toNat

end Roots

/-- **A table that has been processed**: the function ends, having read the entries and written the slots in their order
and nothing else, and a slot holds what its last entry describes. -/
def Relocated (k : Machine) (r : Roots) (table : List Capreloc) (m : Mem) : Prop :=
  ∃ m', crtInitGlobals k r table m = some m' ∧
    m'.accesses = m.accesses ++ table.flatMap (fun e => [.reloc e, .slot (r.slot e)]) ∧ m'.int = m.int ∧
    (∀ a, (∀ e ∈ table, r.slot e ≠ a) → m'.slots a = m.slots a) ∧
    ∀ older e newer, table = older ++ e :: newer → (∀ e' ∈ newer, r.slot e' ≠ r.slot e) →
      r.Describes e (m'.slots (r.slot e))

/-! ## One entry -/

variable {k : Machine} {r : Roots} {e : Capreloc} {m m' : Mem} {table : List Capreloc}

namespace Roots

def gdc (r : Roots) : Cap := { r.ddc with perms := r.ddc.perms &&& globalPointerPermissions }

def fpc (r : Roots) : Cap := { r.pcc with perms := r.pcc.perms &&& functionPointerPermissions }

/-- The capability the code makes of an entry. -/
def capFor (r : Roots) (e : Capreloc) : Cap :=
  if e.bounded then ⟨true, false, (r.root e).otype, r.permsOf e, (r.root e).base + e.object, e.size, e.offset⟩
  else ⟨true, false, (r.root e).otype, r.permsOf e, (r.root e).base, (r.root e).len, e.object + e.offset⟩

/-- The accesses an entry makes. -/
def accessesOf (r : Roots) (e : Capreloc) : List Access :=
  .reloc e :: ((if e.object = 0x4cd70 then [.load ((r.root e).base + e.permissions), .int] else []) ++ [.slot (r.slot e)])

theorem accessesOf_debug (hd : e.object = 0x4cd70) :
    r.accessesOf e = [.reloc e, .load ((r.root e).base + e.permissions), .int, .slot (r.slot e)] := by
  rw [accessesOf, if_pos hd]
  rfl

theorem accessesOf_plain (hd : e.object ≠ 0x4cd70) : r.accessesOf e = [.reloc e, .slot (r.slot e)] := by
  rw [accessesOf, if_neg hd]
  rfl

theorem capFor_describes : r.Describes e (r.capFor e) := by
  cases hb : e.bounded with
  | true => exact ⟨by simp [capFor, hb], by simp [capFor, hb, Cap.addr], by simp [capFor, hb], by simp [capFor, hb]⟩
  | false =>
    exact ⟨by simp [capFor, hb], by simp [capFor, hb, Cap.addr, BitVec.add_assoc], by simp [capFor, hb],
      by simp [capFor, hb]⟩

end Roots

theorem crtInitGlobals_eq : crtInitGlobals k r table m = table.foldlM (relocate k r.gdc r.fpc) m := by
  simp [crtInitGlobals, Cap.andPerm, r.ddcValid, r.pccValid, Roots.gdc, Roots.fpc]

/-- A mask that keeps a permission. -/
theorem hasPerms_mask {c : Cap} {p q : BitVec 32} (h : q &&& p = p) :
    Cap.hasPerms { c with perms := c.perms &&& q } p = c.hasPerms p := by
  simp only [Cap.hasPerms, BitVec.and_assoc, h]

theorem Capreloc.not_function (h : e.bounded = true) : e.isFunction = false := by
  simp only [Capreloc.bounded, Bool.and_eq_true, Bool.not_eq_true'] at h
  exact h.1

/-- The capability the body bounds and moves, before it is moved. -/
theorem source_eq :
    (if !e.isFunction && e.size != 0 then ((if e.isFunction then r.fpc else r.gdc).setOffset e.object).setBounds e.size
      else some ((if e.isFunction then r.fpc else r.gdc).setOffset e.object)).map (·.incOffset e.offset) =
    if e.bounded = true → e.object.toNat + e.size.toNat ≤ r.ddc.len.toNat then some (r.capFor e) else none := by
  have hd := r.ddcValid
  have hp := r.pccValid
  cases hb : e.bounded with
  | true =>
    have hf := Capreloc.not_function hb
    have hb' : (!e.isFunction && e.size != 0) = true := hb
    rw [if_pos hb']
    by_cases hle : e.object.toNat + e.size.toNat ≤ r.ddc.len.toNat
    · simp [Cap.setBounds, Cap.setOffset, Cap.incOffset, Cap.addr, Roots.gdc, Roots.capFor, Roots.root, Roots.permsOf, hf,
        hb, hle, hd]
    · simp [Cap.setBounds, Cap.setOffset, Roots.gdc, hf, hle, hd]
  | false =>
    have hb' : ¬ (!e.isFunction && e.size != 0) = true := by
      rw [Bool.not_eq_true]
      exact hb
    rw [if_neg hb']
    cases hf : e.isFunction <;>
      simp [Cap.setOffset, Cap.incOffset, Roots.gdc, Roots.fpc, Roots.capFor, Roots.root, Roots.permsOf, hf, hb, hd, hp]

/-- **What a slot asks for.** -/
theorem stores_iff : stores k (r.gdc.setOffset e.capabilityLocation) (r.capFor e) = true ↔
    (r.ddc.hasPerms Cap.permStore = true ∧ r.ddc.hasPerms Cap.permStoreCap = true) ∧
    ((r.root e).hasPerms Cap.permGlobal = true ∨ r.ddc.hasPerms Cap.permStoreLocalCap = true) ∧
    e.capabilityLocation.toNat + k.capSize ≤ r.ddc.len.toNat ∧ (r.slot e).toNat % k.capSize = 0 := by
  have hglobal : (r.capFor e).hasPerms Cap.permGlobal = (r.root e).hasPerms Cap.permGlobal := by
    have hperms : (r.capFor e).perms = r.permsOf e := Roots.capFor_describes.perms
    rw [Cap.hasPerms, hperms, Roots.permsOf]
    cases e.isFunction
    · exact hasPerms_mask (by decide)
    · exact hasPerms_mask (by decide)
  have hdest : ∀ {p}, globalPointerPermissions &&& p = p →
      (r.gdc.setOffset e.capabilityLocation).hasPerms p = r.ddc.hasPerms p := fun h => hasPerms_mask h
  unfold stores
  rw [hglobal, hdest (by decide), hdest (by decide), hdest (by decide)]
  simp [Cap.setOffset, Roots.gdc, Roots.slot, Cap.addr, r.ddcValid, and_assoc]

theorem placed_iff : r.Placed e k ↔ stores k (r.gdc.setOffset e.capabilityLocation) (r.capFor e) = true ∧
    (e.bounded = true → e.object.toNat + e.size.toNat ≤ r.ddc.len.toNat) := by
  rw [stores_iff]
  constructor
  · rintro ⟨h₁, h₂, h₃, h₄, h₅⟩
    exact ⟨⟨h₁, h₂, h₃, h₄⟩, h₅⟩
  · rintro ⟨⟨h₁, h₂, h₃, h₄⟩, h₅⟩
    exact ⟨h₁, h₂, h₃, h₄, h₅⟩

/-- The end of the body: the slot gets its capability, or there is an exception. -/
theorem relocate_eq : relocate k r.gdc r.fpc m e =
    (if e.object = 0x4cd70 then
      loadInt k ((if e.isFunction then r.fpc else r.gdc).setOffset e.permissions)
        { m with accesses := m.accesses ++ [.reloc e] }
      else some { m with accesses := m.accesses ++ [.reloc e] }).bind fun m =>
    (if e.bounded = true → e.object.toNat + e.size.toNat ≤ r.ddc.len.toNat then some (r.capFor e) else none).bind
      fun src => storeCap k (r.gdc.setOffset e.capabilityLocation) src m := by
  rw [← source_eq, relocate]
  simp only [Option.bind_eq_bind, Option.bind_map]
  by_cases hd : e.object = 0x4cd70
  · by_cases hb : (!e.isFunction && e.size != 0) = true
    · simp only [if_pos hd, if_pos hb]
      rfl
    · simp only [if_pos hd, if_neg hb]
      rfl
  · by_cases hb : (!e.isFunction && e.size != 0) = true
    · simp only [if_neg hd, if_pos hb]
      rfl
    · simp only [if_neg hd, if_neg hb]
      rfl

theorem storeCap_some {dest src : Cap} (h : storeCap k dest src m = some m') : stores k dest src = true ∧
    m' = { m with slots := Function.update m.slots dest.addr src, accesses := m.accesses ++ [.slot dest.addr] } := by
  unfold storeCap at h
  split at h
  · exact ⟨‹_›, (Option.some.inj h).symm⟩
  · cases h

theorem loadInt_some {base : Cap} (h : loadInt k base m = some m') :
    m'.slots = m.slots ∧ m'.accesses = m.accesses ++ [.load base.addr, .int] := by
  unfold loadInt at h
  split at h
  · cases h
    exact ⟨rfl, rfl⟩
  · cases h

/-- **What an entry that is processed does.** -/
theorem relocate_some (h : relocate k r.gdc r.fpc m e = some m') : r.Placed e k ∧
    m'.accesses = m.accesses ++ r.accessesOf e ∧ m'.slots = Function.update m.slots (r.slot e) (r.capFor e) := by
  rw [relocate_eq] at h
  obtain ⟨m₁, hm₁, h⟩ := Option.bind_eq_some_iff.1 h
  obtain ⟨src, hsrc, h⟩ := Option.bind_eq_some_iff.1 h
  split at hsrc
  case isFalse => cases hsrc
  rename_i hobj
  cases hsrc
  obtain ⟨hst, rfl⟩ := storeCap_some h
  refine ⟨placed_iff.2 ⟨hst, hobj⟩, ?_⟩
  have hslot : (r.gdc.setOffset e.capabilityLocation).addr = r.slot e := rfl
  have hbase : ((if e.isFunction then r.fpc else r.gdc).setOffset e.permissions).addr =
      (r.root e).base + e.permissions := by
    unfold Roots.root
    cases e.isFunction <;> rfl
  rw [hslot]
  by_cases hd : e.object = 0x4cd70
  · rw [if_pos hd] at hm₁
    obtain ⟨hs, ha⟩ := loadInt_some hm₁
    rw [hbase] at ha
    exact ⟨by simp [ha, Roots.accessesOf_debug hd], by rw [hs]⟩
  · rw [if_neg hd] at hm₁
    cases hm₁
    exact ⟨by simp [Roots.accessesOf_plain hd], rfl⟩

/-- **An entry that is processed without the extra read.** -/
theorem relocate_plain (hp : r.Placed e k) (hd : e.object ≠ 0x4cd70) :
    ∃ m', relocate k r.gdc r.fpc m e = some m' ∧ m'.int = m.int := by
  obtain ⟨hst, hobj⟩ := placed_iff.1 hp
  rw [relocate_eq, if_neg hd, if_pos hobj]
  exact ⟨_, if_pos hst, rfl⟩

/-! ## The table -/

/-- **A table that is processed**: every entry was placed, and the slots have had their capabilities in order. -/
theorem table_some : ∀ (table : List Capreloc) (m : Mem), table.foldlM (relocate k r.gdc r.fpc) m = some m' →
    (∀ e ∈ table, r.Placed e k) ∧ m'.accesses = m.accesses ++ table.flatMap r.accessesOf ∧
      m'.slots = assign m.slots (table.map fun e => (r.slot e, r.capFor e))
  | [], m, h => by
    cases h
    exact ⟨fun e he => (List.not_mem_nil he).elim, (List.append_nil _).symm, rfl⟩
  | e :: table, m, h => by
    rw [List.foldlM_cons] at h
    obtain ⟨m₁, hm₁, h⟩ := Option.bind_eq_some_iff.1 h
    obtain ⟨hp, ha, hs⟩ := relocate_some hm₁
    obtain ⟨hps, has, hss⟩ := table_some table m₁ h
    refine ⟨fun e' he' => ?_, ?_, ?_⟩
    · rcases List.mem_cons.1 he' with rfl | he'
      · exact hp
      · exact hps e' he'
    · rw [has, ha, List.flatMap_cons, List.append_assoc]
    · rw [hss, hs]
      rfl

theorem table_plain : ∀ (table : List Capreloc) (m : Mem), (∀ e ∈ table, r.Placed e k ∧ e.object ≠ 0x4cd70) →
    ∃ m', table.foldlM (relocate k r.gdc r.fpc) m = some m' ∧ m'.int = m.int
  | [], m, _ => ⟨m, rfl, rfl⟩
  | e :: table, m, h => by
    obtain ⟨hp, hd⟩ := h e List.mem_cons_self
    obtain ⟨m₁, hm₁, hi⟩ := relocate_plain (m := m) hp hd
    obtain ⟨m', hm', hi'⟩ := table_plain table m₁ (fun e' he' => h e' (List.mem_cons_of_mem _ he'))
    refine ⟨m', ?_, hi'.trans hi⟩
    rw [List.foldlM_cons, hm₁]
    exact hm'

/-- An entry with the extra read spoils the table it is in. -/
theorem not_relocated (he : e ∈ table) (hd : e.object = 0x4cd70) : ¬ Relocated k r table m := by
  rintro ⟨m', hm', ha, -⟩
  rw [crtInitGlobals_eq] at hm'
  obtain ⟨-, has, -⟩ := table_some table m hm'
  rw [has] at ha
  have hflat : table.flatMap r.accessesOf = table.flatMap (fun e => [.reloc e, .slot (r.slot e)]) :=
    List.append_cancel_left ha
  have hload : Access.load ((r.root e).base + e.permissions) ∈ table.flatMap r.accessesOf :=
    List.mem_flatMap.2 ⟨e, he, by simp [Roots.accessesOf_debug hd]⟩
  rw [hflat] at hload
  obtain ⟨e', -, hin⟩ := List.mem_flatMap.1 hload
  simp at hin

/-- **Relocation does what the table says** exactly where the entries can be processed and none is for the object at
`0x4cd70`, for which the code reads a word of memory and writes it to `_int`. -/
theorem crt_relocates (k : Machine) (r : Roots) (table : List Capreloc) (m : Mem) :
    Relocated k r table m ↔ ∀ e ∈ table, r.Placed e k ∧ e.object ≠ 0x4cd70 := by
  constructor
  · intro h e he
    refine ⟨?_, fun hd => not_relocated he hd h⟩
    obtain ⟨m', hm', -⟩ := h
    rw [crtInitGlobals_eq] at hm'
    exact (table_some table m hm').1 e he
  · intro h
    obtain ⟨m', hm', hi⟩ := table_plain table m h
    obtain ⟨-, ha, hs⟩ := table_some table m hm'
    have hacc : ∀ e ∈ table, r.accessesOf e = [.reloc e, .slot (r.slot e)] := fun e he =>
      Roots.accessesOf_plain (h e he).2
    refine ⟨m', crtInitGlobals_eq.trans hm', ?_, hi, fun a hno => ?_, ?_⟩
    · rw [ha, List.flatMap_congr hacc]
    · rw [hs]
      refine assign_other _ _ (fun p hp => ?_)
      obtain ⟨e, he, rfl⟩ := List.mem_map.1 hp
      exact hno e he
    · rintro older e newer rfl hlast
      have hcap : m'.slots (r.slot e) = r.capFor e := by
        rw [hs, List.map_append, List.map_cons]
        refine assign_last _ _ _ (fun p hp => ?_)
        obtain ⟨e', he', rfl⟩ := List.mem_map.1 hp
        exact hlast e' he'
      rw [hcap]
      exact Roots.capFor_describes

/-- **An object at `0x4cd70`**: its slot is placed, and the word at address 0 is read and written to `_int`. -/
theorem crt_relocates_fails : ∃ k r e m, r.Placed e k ∧ e.object = 0x4cd70 ∧ ¬ Relocated k r [e] m ∧
    (crtInitGlobals k r [e] m).map (fun m' => (m'.int, m'.accesses)) =
      some (7, [.reloc e, .load 0, .int, .slot 0x20000]) := by
  refine ⟨⟨32, fun _ => 7⟩, ⟨Cap.ddc, Cap.pcc, by decide, by decide⟩, ⟨0x20000, 0x4cd70, 0, 8, 0⟩,
    ⟨fun _ => Cap.null, 0, []⟩, ?_, rfl, not_relocated List.mem_cons_self rfl, by decide⟩
  exact ⟨by decide, by decide, by decide, by decide, by decide⟩

end Crt
end CheriOS
