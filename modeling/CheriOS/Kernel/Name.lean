import CheriOS.Kernel.Send
/-!
# Name — what `act_register` reads and writes for a name

The length that is copied is `imin` of the capability's length, cut to an `int`, and the room in the field; the copy
starts at the capability's offset.  So the two agree for a capability that is used from its base and is not huge.  A
length whose low half is a negative `int` puts the terminating NUL before the field, an offset takes the copy past the end
of the capability, and a length just above a multiple of `2^32` cuts the name short.
-/
namespace CheriOS
namespace Kernel

open Outcome

variable {b : Build} {mem : BitVec 64 → BitVec 8} {umem : UserMem} {name : Cap} {field field' : Nat → BitVec 8}
  {s : State} {n i : Nat} {as : List NameAccess}

/-! ## The accesses -/

/-- An access that `act_register` makes for the name: `name[i]`, or `kernel_acts[aid].name[i] = c`. -/
inductive NameAccess where
  | load (i : Nat)
  | store (i : Int) (c : BitVec 8)
  deriving DecidableEq, Repr

/-- The accesses of the loop, and whether it comes to its end: a load out of bounds traps. -/
def copyAccesses (mem : BitVec 64 → BitVec 8) (name : Cap) : Nat → List NameAccess × Bool
  | 0 => ([], true)
  | n + 1 =>
    match copyAccesses mem name n with
    | (as, false) => (as, false)
    | (as, true) =>
      match load8 mem name n with
      | .ok c => (as ++ [.load n, .store n c], true)
      | .error _ => (as ++ [.load n], false)

/-- **The accesses for the name**, in their order: the loop, and the terminating NUL. -/
def nameAccesses (mem : BitVec 64 → BitVec 8) (name : Cap) : List NameAccess :=
  match copyAccesses mem name (nameLen name).toNat with
  | (as, true) => as ++ [.store (nameLen name) 0]
  | (as, false) => as

def NameAccess.stored : NameAccess → Option (Int × BitVec 8)
  | .store i c => some (i, c)
  | .load _ => none

/-- The field after the stores. -/
def storeName (field : Nat → BitVec 8) (as : List NameAccess) : Nat → BitVec 8 :=
  (as.filterMap NameAccess.stored).foldl (fun field w => Function.update field w.1.toNat w.2) field

/-- **The loop makes these accesses.** -/
theorem copyName_accesses (mem : BitVec 64 → BitVec 8) (name : Cap) (n : Nat) (field : Nat → BitVec 8) :
    copyName mem name n field =
      if (copyAccesses mem name n).2 = true then .ok (storeName field (copyAccesses mem name n).1) else .error .trap := by
  induction n with
  | zero => rfl
  | succ n ih =>
    unfold copyName copyAccesses
    rw [ih]
    cases hprev : copyAccesses mem name n with
    | mk as ok =>
      cases ok with
      | false => rfl
      | true =>
        rw [if_pos rfl, ok_bind]
        cases hload : load8 mem name n with
        | ok c =>
          simp only [if_true, storeName, List.filterMap_append, List.foldl_append]
          rfl
        | error e =>
          unfold load8 at hload
          split at hload <;> cases hload
          rfl

/-- **What is left in the field** where the NUL is not before it: the stores, or a trap. -/
theorem actSetName_accesses (h : 0 ≤ nameLen name) : actSetName umem name field =
    if (copyAccesses umem.byte name (nameLen name).toNat).2 = true then
      .ok (storeName field (nameAccesses umem.byte name)) else .error .trap := by
  unfold actSetName nameAccesses
  rw [if_pos h, copyName_accesses]
  cases copyAccesses umem.byte name (nameLen name).toNat with
  | mk as ok =>
    cases ok with
    | false => rfl
    | true => simp [storeName, NameAccess.stored]

/-! ## Safety -/

/-- How many of the readable bytes from the offset on fit in the field. -/
def readable (name : Cap) : Nat :=
  if name.vcap 1 Cap.permLoad then min (name.len.toNat - name.offset.toNat) (actNameMaxLen - 1) else 0

/-- **A name stored safely**: every load is inside the bounds, every store inside the field, and what is stored is the
longest prefix of the readable bytes that fits, and a NUL. -/
structure NameSafe (mem : BitVec 64 → BitVec 8) (name : Cap) : Prop where
  loads : ∀ i, .load i ∈ nameAccesses mem name → name.inBounds (BitVec.ofNat 64 i) = true
  stores : ∀ (i : Int) (c : BitVec 8), .store i c ∈ nameAccesses mem name → 0 ≤ i ∧ i < actNameMaxLen
  longest : (nameAccesses mem name).filterMap NameAccess.stored =
    (List.range (readable name)).map (fun i : Nat => ((i : Int), mem (name.addr + BitVec.ofNat 64 i))) ++
      [((readable name : Int), 0)]

/-- The length as the `int` that `imin` compares. -/
def intLen (name : Cap) : Int := (name.len.setWidth 32).toInt

/-- **A capability whose length reads the same from its offset**: it cannot be read at all, or both the `int` and the bytes
from the offset on fill the field, or the two are equal. -/
def NameFits (name : Cap) : Prop :=
  name.vcap 1 Cap.permLoad = false ∨
    (actNameMaxLen - 1 ≤ intLen name ∧ name.offset.toNat + (actNameMaxLen - 1) ≤ name.len.toNat) ∨
    intLen name = (name.len.toNat - name.offset.toNat : Nat)

instance (name : Cap) : Decidable (NameFits name) := inferInstanceAs (Decidable (_ ∨ _))

theorem nameFits_iff : NameFits name ↔ nameLen name = readable name := by
  have hmax : actNameMaxLen = 16 := rfl
  unfold NameFits nameLen readable intLen
  cases name.vcap 1 Cap.permLoad with
  | false => simp
  | true =>
    simp only [hmax, if_true, Bool.true_eq_false, false_or]
    omega

/-! ### The loop -/

theorem load8_eq (h : name.inBounds (BitVec.ofNat 64 i) = true) :
    load8 mem name i = .ok (mem (name.addr + BitVec.ofNat 64 i)) := by
  unfold load8
  rw [if_pos h]

/-- **The loop comes to its end** when everything it loads is inside the bounds. -/
theorem copyAccesses_eq (h : ∀ i < n, name.inBounds (BitVec.ofNat 64 i) = true) : copyAccesses mem name n =
    ((List.range n).flatMap (fun i => [.load i, .store i (mem (name.addr + BitVec.ofNat 64 i))]), true) := by
  induction n with
  | zero => rfl
  | succ n ih =>
    unfold copyAccesses
    rw [ih fun i hi => h i (Nat.lt_succ_of_lt hi)]
    simp only [load8_eq (h n (Nat.lt_succ_self n)), List.range_succ, List.flatMap_append, List.flatMap_singleton]

/-- **Where the loop traps** it loads what is out of bounds. -/
theorem copyAccesses_trap (h : (copyAccesses mem name n).2 = false) :
    ∃ i, .load i ∈ (copyAccesses mem name n).1 ∧ name.inBounds (BitVec.ofNat 64 i) = false := by
  induction n with
  | zero => cases h
  | succ n ih =>
    unfold copyAccesses at h ⊢
    cases hprev : copyAccesses mem name n with
    | mk as ok =>
      rw [hprev] at h ih
      cases ok with
      | false => exact ih rfl
      | true =>
        cases hload : load8 mem name n with
        | ok c => simp [hload] at h
        | error e =>
          refine ⟨n, by simp, ?_⟩
          unfold load8 at hload
          split at hload
          · cases hload
          · exact Bool.eq_false_iff.2 ‹_›

theorem copyName_eq (h : ∀ i < n, name.inBounds (BitVec.ofNat 64 i) = true) : copyName mem name n field =
    .ok (fun k => if k < n then mem (name.addr + BitVec.ofNat 64 k) else field k) := by
  induction n with
  | zero => simp [copyName]
  | succ n ih =>
    unfold copyName
    rw [ih fun i hi => h i (Nat.lt_succ_of_lt hi), ok_bind, load8_eq (h n (Nat.lt_succ_self n)), ok_bind]
    refine congrArg Except.ok (funext fun k => ?_)
    by_cases hk : k = n
    · simp [hk]
    · rw [Function.update_of_ne hk]
      have hlt : k < n + 1 ↔ k < n := by omega
      simp only [hlt]

theorem inBounds_of_readable (hi : i < readable name) : name.inBounds (BitVec.ofNat 64 i) = true := by
  have hmax : actNameMaxLen = 16 := rfl
  have hlen := name.len.isLt
  unfold readable at hi
  split at hi
  · unfold Cap.inBounds
    rw [decide_eq_true_eq, BitVec.toNat_add, BitVec.toNat_ofNat]
    omega
  · omega

/-! ## When it is safe -/

theorem nameSafe_of_eq (h : nameLen name = readable name) : NameSafe mem name := by
  have hmax : readable name ≤ actNameMaxLen - 1 := by
    unfold readable
    split <;> omega
  have hall : ∀ i < readable name, name.inBounds (BitVec.ofNat 64 i) = true := fun i => inBounds_of_readable
  have hacc : nameAccesses mem name = (List.range (readable name)).flatMap
      (fun i => [.load i, .store i (mem (name.addr + BitVec.ofNat 64 i))]) ++ [.store (readable name) 0] := by
    unfold nameAccesses
    rw [h, Int.toNat_natCast, copyAccesses_eq hall]
  have hpos : 0 < actNameMaxLen := by decide
  constructor
  case loads =>
    intro i hi
    rw [hacc] at hi
    have hlt : i < readable name := by simpa using hi
    exact hall i hlt
  case stores =>
    intro i c hi
    rw [hacc] at hi
    have hle : 0 ≤ i ∧ i ≤ readable name := by
      simp only [List.mem_append, List.mem_flatMap, List.mem_range, List.mem_cons, List.not_mem_nil, or_false,
        reduceCtorEq, false_or, NameAccess.store.injEq] at hi
      rcases hi with ⟨k, hk, rfl, -⟩ | ⟨rfl, -⟩ <;> omega
    omega
  case longest =>
    have hloop : ∀ n, ((List.range n).flatMap fun i : Nat => ([.load i, .store i (mem (name.addr + BitVec.ofNat 64 i))] :
        List NameAccess)).filterMap NameAccess.stored =
          (List.range n).map (fun i : Nat => ((i : Int), mem (name.addr + BitVec.ofNat 64 i))) := fun n => by
      induction n with
      | zero => rfl
      | succ n ih =>
        rw [List.range_succ, List.flatMap_append, List.filterMap_append, ih, List.map_append]
        rfl
    rw [hacc, List.filterMap_append, hloop]
    rfl

theorem nameLen_of_safe (h : NameSafe mem name) : nameLen name = readable name := by
  have hloads := h.loads
  have hlong := h.longest
  unfold nameAccesses at hloads hlong
  cases hcopy : copyAccesses mem name (nameLen name).toNat with
  | mk as ok =>
    rw [hcopy] at hloads hlong
    cases ok with
    | false =>
      obtain ⟨i, hi, hno⟩ := copyAccesses_trap (congrArg Prod.snd hcopy)
      rw [hcopy] at hi
      rw [hloads i hi] at hno
      cases hno
    | true =>
      -- the NUL is the last store of both
      have hlast := congrArg List.getLast? hlong
      simp only [List.filterMap_append, List.getLast?_append] at hlast
      simpa [NameAccess.stored] using hlast

theorem nameSafe_iff : NameSafe mem name ↔ NameFits name := by
  rw [nameFits_iff]
  exact ⟨nameLen_of_safe, nameSafe_of_eq⟩

/-- **The name that is left**: the longest prefix that fits, and a NUL. -/
theorem actName_fits (hb : b.lite = false) (h : NameFits name) : actName b umem name field =
    .ok (fun k => if k < readable name then umem.byte (name.addr + BitVec.ofNat 64 k)
      else if k = readable name then 0 else field k) := by
  have heq := nameFits_iff.1 h
  have hnn : 0 ≤ nameLen name := by omega
  unfold actName actSetName
  rw [hb, if_neg Bool.false_ne_true, if_pos hnn, heq, Int.toNat_natCast, copyName_eq fun i => inBounds_of_readable,
    ok_bind]
  refine congrArg Except.ok (funext fun k => ?_)
  by_cases hk : k = readable name
  · simp [hk]
  · rw [Function.update_of_ne hk, if_neg hk]

/-- **Names.**  For every name that an activation can pass, whatever its tag, seal, permissions, length and offset, and
for every free slot: `act_register` makes the accesses, and they are safe exactly when its length reads the same from its
offset; and then what is left in the record is the longest prefix that fits. -/
theorem names_safe (hb : b.lite = false) (hlt : s.kernelNextAct < maxActivations) (umem : UserMem) (name : Cap) :
    (0 ≤ nameLen name → ∀ field, actName b umem name field =
      if (copyAccesses umem.byte name (nameLen name).toNat).2 = true then
        .ok (storeName field (nameAccesses umem.byte name)) else .error .trap) ∧
    (NameSafe umem.byte name ↔ NameFits name) ∧
    (NameFits name → ∀ ctrl s', actRegister b umem name s = .ok (ctrl, s') →
      ∀ k, (s'.kernelActs ⟨s.kernelNextAct, hlt⟩).name k =
        if k < readable name then umem.byte (name.addr + BitVec.ofNat 64 k)
        else if k = readable name then 0 else (s.kernelActs ⟨s.kernelNextAct, hlt⟩).name k) := by
  refine ⟨fun hnn field => ?_, nameSafe_iff, fun hf ctrl s' hreg k => ?_⟩
  · unfold actName
    rw [hb, if_neg Bool.false_ne_true]
    exact actSetName_accesses hnn
  have hn : actName b umem name (s.kernelActs ⟨s.kernelNextAct, hlt⟩).name = _ := actName_fits hb hf
  obtain ⟨ref, href⟩ := actCreateRef_ok (b := b) ⟨_, hlt⟩
  obtain ⟨ctrl', hctrl⟩ := actCreateCtrlRef_ok (b := b) ⟨_, hlt⟩
  cases hframe : umem.frame with
  | none => simp [actRegister, hlt, hn, loadFrame, hframe] at hreg
  | some frame =>
    cases hid : kernelSeal s.actDefaultId s.kernelNextAct with
    | error st => simp [actRegister, hlt, hn, loadFrame, hframe, href, hid, msgQueueInit] at hreg
    | ok id =>
      rw [actRegister_eq hlt hn hframe href hid hctrl] at hreg
      obtain ⟨rfl, rfl⟩ := Prod.mk.inj (Except.ok.inj hreg)
      rw [State.register_kernelActs, if_pos rfl]

/-- A name at address 0x1000, as a user program may pass it. -/
def nameCap (len offset : BitVec 64) : Cap := ⟨true, false, 0, Cap.permLoad, 0x1000, len, offset⟩

/-- A name of four bytes. -/
theorem names_safe_four : NameSafe (fun _ => 0x61) (nameCap 4 0) :=
  (names_safe (b := debugBuild) (s := State.zero) rfl (by decide) ⟨fun _ => 0x61, none, false⟩ (nameCap 4 0)).2.1.2
    (by decide)

def nameEntry (name : Cap) : Entry :=
  ⟨userRegs 20 0 Cap.null Cap.null Cap.null name, .syscall ⟨fun _ => 0x61, some RegFrame.zero, false⟩⟩

/-- **Three names that are not safe**: a length whose low half is -1 puts the NUL before the field; an offset of one takes
the copy past the end, and the system call freezes the kernel; `2 ^ 32 + 3` readable bytes leave a name of three. -/
theorem names_unsafe :
    .store (-1) 0 ∈ nameAccesses (fun _ => 0x61) (nameCap 0xffffffff 0) ∧
    ¬ NameSafe (fun _ => 0x61) (nameCap 0xffffffff 0) ∧
    (.load 1 ∈ nameAccesses (fun _ => 0x61) (nameCap 2 1) ∧ (nameCap 2 1).inBounds 1 = false) ∧
    ¬ NameSafe (fun _ => 0x61) (nameCap 2 1) ∧
    (∃ tr s, KernelRun debugBuild tr s ∧ Admissible debugBuild s (nameEntry (nameCap 2 1)).regs ∧
      s.kernelNextAct < maxActivations ∧ kernelEntry debugBuild (nameEntry (nameCap 2 1)) s = .error .trap) ∧
    readable (nameCap 0x100000003 0) = 15 ∧ nameLen (nameCap 0x100000003 0) = 3 ∧
    ¬ NameSafe (fun _ => 0x61) (nameCap 0x100000003 0) := by
  have hno : ∀ name, ¬ NameFits name → ¬ NameSafe (fun _ => 0x61) name := fun _ h => nameSafe_iff.not.2 h
  obtain ⟨tr, s, hr, -, hp⟩ := scriptSat_run debugBuild []
    (fun s => admissible debugBuild s (nameEntry (nameCap 2 1)).regs && (decide (s.kernelNextAct < maxActivations) &&
      match kernelEntry debugBuild (nameEntry (nameCap 2 1)) s with
      | .error .trap => true
      | _ => false)) (by decide +kernel)
  simp only [Bool.and_eq_true, decide_eq_true_eq] at hp
  obtain ⟨hA, hlt, hstop⟩ := hp
  refine ⟨by decide, hno _ (by decide), ⟨by decide, by decide⟩, hno _ (by decide),
    ⟨tr, s, hr, admissible_sound hA, hlt, ?_⟩, by decide, by decide, hno _ (by decide)⟩
  split at hstop
  · assumption
  · cases hstop

end Kernel
end CheriOS
