import CheriOS.Fatfs.Volume
import CheriOS.Lib.Packed
/-!
# Fat — reading and changing entries of the FAT (`ff.c`)

The FAT is one string of bytes over `fsize` sectors, and its entries have 12, 16 or 28 bits, of which those of 12 bits may
lie across two sectors.  Whatever their width, `get_fat` and `put_fat` read and change one entry of a table.
-/
namespace CheriOS
namespace Fatfs

open Outcome WriteBack

/-! ## Loads and stores -/

def ldWord (p : Bytes) (i : Nat) : BitVec 16 :=
  let rv := (p (i + 1)).setWidth 16
  rv <<< 8 ||| (p i).setWidth 16

def ldDword (p : Bytes) (i : Nat) : BitVec 64 :=
  let rv := (p (i + 3)).setWidth 64
  let rv := rv <<< 8 ||| (p (i + 2)).setWidth 64
  let rv := rv <<< 8 ||| (p (i + 1)).setWidth 64
  rv <<< 8 ||| (p i).setWidth 64

def stWord (p : Bytes) (i : Nat) (val : BitVec 16) : Bytes :=
  let p := Function.update p i (val.setWidth 8)
  let val := val >>> 8
  Function.update p (i + 1) (val.setWidth 8)

def stDword (p : Bytes) (i : Nat) (val : BitVec 64) : Bytes :=
  let p := Function.update p i (val.setWidth 8)
  let val := val >>> 8
  let p := Function.update p (i + 1) (val.setWidth 8)
  let val := val >>> 8
  let p := Function.update p (i + 2) (val.setWidth 8)
  let val := val >>> 8
  Function.update p (i + 3) (val.setWidth 8)

/-! ## Entries -/

variable {D : Disk}

/-- Its file system object is the only thing that is read of `obj`. -/
def getFat (v : Vol D) (clst : BitVec 64) : Except Halt (BitVec 64 × Vol D) := do
  if clst < 2 ∨ clst ≥ v.fs.nFatent then return (1, v)
  else match v.fs.fsType with
    | .fat12 =>
      let bc := clst.setWidth 32
      let bc := bc + bc / 2
      let (res, v) ← moveWindow v (v.fs.fatbase + (bc / 512).setWidth 64)
      if res ≠ .ok then return (0xFFFFFFFF, v)
      let wc := (v.fs.win (bc % 512).toNat).setWidth 32
      let bc := bc + 1
      let (res, v) ← moveWindow v (v.fs.fatbase + (bc / 512).setWidth 64)
      if res ≠ .ok then return (0xFFFFFFFF, v)
      let wc := wc ||| (v.fs.win (bc % 512).toNat).setWidth 32 <<< 8
      return ((if clst &&& 1 ≠ 0 then wc >>> 4 else wc &&& 0xFFF).setWidth 64, v)
    | .fat16 =>
      let (res, v) ← moveWindow v (v.fs.fatbase + clst / (512 / 2))
      if res ≠ .ok then return (0xFFFFFFFF, v)
      return ((ldWord v.fs.win (clst * 2 % 512).toNat).setWidth 64, v)
    | .fat32 =>
      let (res, v) ← moveWindow v (v.fs.fatbase + clst / (512 / 4))
      if res ≠ .ok then return (0xFFFFFFFF, v)
      return (ldDword v.fs.win (clst * 4 % 512).toNat &&& 0x0FFFFFFF, v)
    | .none => return (1, v)

def putFat (v : Vol D) (clst val : BitVec 64) : Except Halt (Fresult × Vol D) := do
  if clst ≥ 2 ∧ clst < v.fs.nFatent then
    match v.fs.fsType with
    | .fat12 =>
      let bc := clst.setWidth 32
      let bc := bc + bc / 2
      let (res, v) ← moveWindow v (v.fs.fatbase + (bc / 512).setWidth 64)
      if res ≠ .ok then return (res, v)
      let p := (bc % 512).toNat
      let bc := bc + 1
      let b : BitVec 8 := if clst &&& 1 ≠ 0 then (v.fs.win p &&& 0x0F#8) ||| val.setWidth 8 <<< 4 else val.setWidth 8
      let v := v.edit (Function.update v.fs.win p b)
      let (res, v) ← moveWindow v (v.fs.fatbase + (bc / 512).setWidth 64)
      if res ≠ .ok then return (res, v)
      let p := (bc % 512).toNat
      let b : BitVec 8 :=
        if clst &&& 1 ≠ 0 then (val >>> 4).setWidth 8 else (v.fs.win p &&& 0xF0#8) ||| ((val >>> 8).setWidth 8 &&& 0x0F#8)
      return (.ok, v.edit (Function.update v.fs.win p b))
    | .fat16 =>
      let (res, v) ← moveWindow v (v.fs.fatbase + clst / (512 / 2))
      if res ≠ .ok then return (res, v)
      return (.ok, v.edit (stWord v.fs.win (clst * 2 % 512).toNat (val.setWidth 16)))
    | .fat32 =>
      let (res, v) ← moveWindow v (v.fs.fatbase + clst / (512 / 4))
      if res ≠ .ok then return (res, v)
      let val := (val &&& 0x0FFFFFFF) ||| (ldDword v.fs.win (clst * 4 % 512).toNat &&& 0xF0000000)
      return (.ok, v.edit (stDword v.fs.win (clst * 4 % 512).toNat val))
    | .none => return (.intErr, v)
  else return (.intErr, v)

/-! ## The bits of the loads and stores -/

open Packed (bit Writes entry bit_update getLsbD_eq_bit)

variable {b : Bytes} {i k n : Nat}

/-- `rv << 8 | x` -/
theorem getLsbD_shift_or {w : Nat} (rv : BitVec w) (x : BitVec 8) (hw : 8 ≤ w) (k : Nat) :
    (rv <<< 8 ||| x.setWidth w).getLsbD k = if k < 8 then x.getLsbD k else decide (k < w) && rv.getLsbD (k - 8) := by
  rw [BitVec.getLsbD_or, BitVec.getLsbD_shiftLeft, BitVec.getLsbD_setWidth]
  by_cases hk : k < 8
  · simp only [hk, show k < w by omega, decide_true, Bool.not_true, Bool.and_false, Bool.false_and, Bool.false_or,
      Bool.true_and, if_true]
  · rw [BitVec.getLsbD_of_ge x k (by omega), if_neg hk]
    simp [hk]

theorem getLsbD_ldWord (b : Bytes) (i k : Nat) : (ldWord b i).getLsbD k = (decide (k < 16) && bit b (8 * i + k)) := by
  rw [ldWord, getLsbD_shift_or _ _ (by decide), BitVec.getLsbD_setWidth]
  by_cases h16 : k < 16
  · rw [decide_eq_true h16, decide_eq_true (by omega : k - 8 < 16), Bool.true_and, Bool.true_and, Bool.true_and]
    split
    · exact getLsbD_eq_bit b i ‹_›
    · rw [getLsbD_eq_bit b (i + 1) (by omega)]
      congr 1
      omega
  · rw [if_neg (by omega), decide_eq_false h16, Bool.false_and, Bool.false_and]

theorem getLsbD_ldDword (b : Bytes) (i k : Nat) : (ldDword b i).getLsbD k = (decide (k < 32) && bit b (8 * i + k)) := by
  simp only [ldDword, getLsbD_shift_or _ _ (by decide : 8 ≤ 64), BitVec.getLsbD_setWidth]
  by_cases h32 : k < 32
  · have h64 : k < 64 ∧ k - 8 < 64 ∧ k - 8 - 8 < 64 ∧ k - 8 - 8 - 8 < 64 := by omega
    simp only [h64, h32, decide_true, Bool.true_and]
    split
    · exact getLsbD_eq_bit b i ‹_›
    split
    · rw [getLsbD_eq_bit b (i + 1) ‹_›]
      congr 1
      omega
    split
    · rw [getLsbD_eq_bit b (i + 2) ‹_›]
      congr 1
      omega
    · rw [getLsbD_eq_bit b (i + 3) (by omega)]
      congr 1
      omega
  · rw [if_neg (by omega), if_neg (by omega), if_neg (by omega), BitVec.getLsbD_of_ge (b (i + 3)) _ (by omega),
      decide_eq_false h32]
    simp

theorem bit_stWord (b : Bytes) (i : Nat) (y : BitVec 16) (n : Nat) :
    bit (stWord b i y) n = if 8 * i ≤ n ∧ n < 8 * i + 16 then y.getLsbD (n - 8 * i) else bit b n := by
  simp only [stWord, bit_update, BitVec.getLsbD_setWidth, BitVec.getLsbD_ushiftRight]
  by_cases h1 : 8 * (i + 1) ≤ n ∧ n < 8 * (i + 1) + 8
  · rw [if_pos h1, if_pos (by omega), decide_eq_true (by omega : n - 8 * (i + 1) < 8), Bool.true_and]
    congr 1
    omega
  rw [if_neg h1]
  by_cases h0 : 8 * i ≤ n ∧ n < 8 * i + 8
  · rw [if_pos h0, if_pos (by omega), decide_eq_true (by omega : n - 8 * i < 8), Bool.true_and]
  · rw [if_neg h0, if_neg (by omega)]

theorem bit_stDword (b : Bytes) (i : Nat) (y : BitVec 64) (n : Nat) :
    bit (stDword b i y) n = if 8 * i ≤ n ∧ n < 8 * i + 32 then y.getLsbD (n - 8 * i) else bit b n := by
  simp only [stDword, bit_update, BitVec.getLsbD_setWidth, BitVec.getLsbD_ushiftRight]
  by_cases h : 8 * i ≤ n ∧ n < 8 * i + 32
  · rw [if_pos h]
    obtain ⟨k, rfl⟩ : ∃ k, n = 8 * i + k := ⟨n - 8 * i, by omega⟩
    split
    · simp only [show 8 * i + k - 8 * (i + 3) < 8 by omega, decide_true, Bool.true_and]
      congr 1
      omega
    split
    · simp only [show 8 * i + k - 8 * (i + 2) < 8 by omega, decide_true, Bool.true_and]
      congr 1
      omega
    split
    · simp only [show 8 * i + k - 8 * (i + 1) < 8 by omega, decide_true, Bool.true_and]
      congr 1
      omega
    · rw [if_pos (by omega), decide_eq_true (by omega : 8 * i + k - 8 * i < 8), Bool.true_and]
  · rw [if_neg h, if_neg (by omega), if_neg (by omega), if_neg (by omega), if_neg (by omega)]

/-! ## What is written to an entry -/

theorem getLsbD_toNat {w : Nat} (x : BitVec w) (k : Nat) : x.toNat.testBit k = x.getLsbD k := rfl

theorem mask28 (k : Nat) : (0x0FFFFFFF : BitVec 64).getLsbD k = decide (k < 28) := by
  by_cases hk : k < 64
  · revert k
    decide
  · rw [BitVec.getLsbD_of_ge _ _ (by omega), decide_eq_false (by omega)]

theorem mask4 (k : Nat) : (0xF0000000 : BitVec 64).getLsbD k = (decide (28 ≤ k) && decide (k < 32)) := by
  by_cases hk : k < 64
  · revert k
    decide
  · rw [BitVec.getLsbD_of_ge _ _ (by omega), decide_eq_false (by omega : ¬ k < 32), Bool.and_false]

theorem writes_word (b : Bytes) (c : Nat) (x : BitVec 64) :
    Writes 16 16 c x.toNat b (stWord b (2 * c) (x.setWidth 16)) := by
  intro n
  rw [bit_stWord, show 8 * (2 * c) = 16 * c by omega]
  split
  · rw [BitVec.getLsbD_setWidth, decide_eq_true (by omega : n - 16 * c < 16), Bool.true_and, getLsbD_toNat]
  · rfl

/-- The four bits above the entry are written with what they were. -/
theorem writes_dword (b : Bytes) (c : Nat) (x : BitVec 64) :
    Writes 32 28 c x.toNat b
      (stDword b (4 * c) ((x &&& 0x0FFFFFFF) ||| (ldDword b (4 * c) &&& 0xF0000000))) := by
  intro n
  rw [bit_stDword, show 8 * (4 * c) = 32 * c by omega, BitVec.getLsbD_or, BitVec.getLsbD_and, BitVec.getLsbD_and,
    mask28, mask4, getLsbD_ldDword, getLsbD_toNat, show 8 * (4 * c) = 32 * c by omega]
  by_cases hn : 32 * c ≤ n ∧ n < 32 * c + 32
  · obtain ⟨k, rfl⟩ : ∃ k, n = 32 * c + k := ⟨n - 32 * c, by omega⟩
    rw [if_pos hn, Nat.add_sub_cancel_left]
    by_cases hk : k < 28
    · rw [if_pos (by omega)]
      simp [hk, show ¬ 28 ≤ k by omega]
    · rw [if_neg (by omega)]
      simp [hk, show 28 ≤ k by omega, show k < 32 by omega]
  · rw [if_neg hn, if_neg (by omega)]

theorem maskLow (k : Nat) : (0x0F#8).getLsbD k = decide (k < 4) := by
  by_cases hk : k < 8
  · revert k
    decide
  · rw [BitVec.getLsbD_of_ge _ _ (by omega), decide_eq_false (by omega)]

theorem maskHigh (k : Nat) : (0xF0#8).getLsbD k = (decide (4 ≤ k) && decide (k < 8)) := by
  by_cases hk : k < 8
  · revert k
    decide
  · rw [BitVec.getLsbD_of_ge _ _ (by omega), decide_eq_false (by omega : ¬ k < 8), Bool.and_false]

theorem mask12 (k : Nat) : (0xFFF : BitVec 32).getLsbD k = decide (k < 12) := by
  by_cases hk : k < 32
  · revert k
    decide
  · rw [BitVec.getLsbD_of_ge _ _ (by omega), decide_eq_false (by omega)]

/-- **Two bytes, one of which is shared with the next entry or with the one before.** -/
theorem writes_bits (b : Bytes) (c : Nat) (x : BitVec 64) (odd : Bool) (hodd : odd = decide (c % 2 = 1))
    (b₀ b₁ : BitVec 8)
    (h₀ : b₀ = if odd then (b (c + c / 2) &&& 0x0F#8) ||| x.setWidth 8 <<< 4 else x.setWidth 8)
    (h₁ : b₁ = if odd then (x >>> 4).setWidth 8 else (b (c + c / 2 + 1) &&& 0xF0#8) ||| ((x >>> 8).setWidth 8 &&& 0x0F#8)) :
    Writes 12 12 c x.toNat b (Function.update (Function.update b (c + c / 2) b₀) (c + c / 2 + 1) b₁) := by
  intro n
  rw [bit_update, bit_update, getLsbD_toNat, h₀, h₁]
  cases odd with
  | false =>
    have hc : 8 * (c + c / 2) = 12 * c := by
      have := of_decide_eq_false hodd.symm
      omega
    rw [if_neg Bool.false_ne_true, if_neg Bool.false_ne_true]
    by_cases h1 : 8 * (c + c / 2 + 1) ≤ n ∧ n < 8 * (c + c / 2 + 1) + 8
    · obtain ⟨k, rfl⟩ : ∃ k, n = 8 * (c + c / 2 + 1) + k := ⟨n - 8 * (c + c / 2 + 1), by omega⟩
      have hk8 : k < 8 := by omega
      rw [if_pos h1, Nat.add_sub_cancel_left, BitVec.getLsbD_or, BitVec.getLsbD_and, BitVec.getLsbD_and, maskHigh, maskLow,
        getLsbD_eq_bit _ _ hk8, BitVec.getLsbD_setWidth, BitVec.getLsbD_ushiftRight]
      by_cases hk : k < 4
      · rw [if_pos (by omega), show 8 * (c + c / 2 + 1) + k - 12 * c = 8 + k by omega]
        simp [hk, hk8, show ¬ 4 ≤ k by omega]
      · rw [if_neg (by omega)]
        simp [hk, hk8, show 4 ≤ k by omega]
    rw [if_neg h1]
    by_cases h0 : 8 * (c + c / 2) ≤ n ∧ n < 8 * (c + c / 2) + 8
    · rw [if_pos h0, if_pos (by omega), hc, BitVec.getLsbD_setWidth, decide_eq_true (by omega : n - 12 * c < 8),
        Bool.true_and]
    · rw [if_neg h0, if_neg (by omega)]
  | true =>
    have hc : 8 * (c + c / 2) + 4 = 12 * c := by
      have := of_decide_eq_true hodd.symm
      omega
    rw [if_pos rfl, if_pos rfl]
    by_cases h1 : 8 * (c + c / 2 + 1) ≤ n ∧ n < 8 * (c + c / 2 + 1) + 8
    · rw [if_pos h1, if_pos (by omega), BitVec.getLsbD_setWidth, BitVec.getLsbD_ushiftRight,
        decide_eq_true (by omega : n - 8 * (c + c / 2 + 1) < 8), Bool.true_and]
      congr 1
      omega
    rw [if_neg h1]
    by_cases h0 : 8 * (c + c / 2) ≤ n ∧ n < 8 * (c + c / 2) + 8
    · obtain ⟨k, rfl⟩ : ∃ k, n = 8 * (c + c / 2) + k := ⟨n - 8 * (c + c / 2), by omega⟩
      have hk8 : k < 8 := by omega
      rw [if_pos h0, Nat.add_sub_cancel_left, BitVec.getLsbD_or, BitVec.getLsbD_and, maskLow, getLsbD_eq_bit _ _ hk8,
        BitVec.getLsbD_shiftLeft, BitVec.getLsbD_setWidth]
      by_cases hk : k < 4
      · rw [if_neg (by omega)]
        simp [hk, hk8]
      · rw [if_pos (by omega), show 8 * (c + c / 2) + k - 12 * c = k - 4 by omega]
        simp [hk, hk8, show k - 4 < 8 by omega]
    · rw [if_neg h0, if_neg (by omega)]

/-! ## What is read of an entry -/

theorem word_eq_entry (b : Bytes) (c : Nat) : ((ldWord b (2 * c)).setWidth 64).toNat = entry b 16 16 c := by
  refine Packed.eq_entry fun k => ?_
  rw [getLsbD_toNat, BitVec.getLsbD_setWidth, getLsbD_ldWord, show 8 * (2 * c) = 16 * c by omega]
  by_cases hk : k < 16
  · simp [hk, show k < 64 by omega]
  · simp [hk]

theorem dword_eq_entry (b : Bytes) (c : Nat) : (ldDword b (4 * c) &&& 0x0FFFFFFF).toNat = entry b 32 28 c := by
  refine Packed.eq_entry fun k => ?_
  rw [getLsbD_toNat, BitVec.getLsbD_and, mask28, getLsbD_ldDword, show 8 * (4 * c) = 32 * c by omega]
  by_cases hk : k < 28
  · simp [hk, show k < 32 by omega]
  · simp [hk]

theorem bits_eq_entry (b : Bytes) (c : Nat) (odd : Bool) (hodd : odd = decide (c % 2 = 1)) (wc : BitVec 32)
    (hwc : wc = (b (c + c / 2)).setWidth 32 ||| (b (c + c / 2 + 1)).setWidth 32 <<< 8) :
    ((if odd then wc >>> 4 else wc &&& 0xFFF).setWidth 64).toNat = entry b 12 12 c := by
  have hbits : ∀ k < 16, wc.getLsbD k = bit b (8 * (c + c / 2) + k) := by
    intro k hk
    rw [hwc, BitVec.or_comm, getLsbD_shift_or _ _ (by decide)]
    split
    · exact getLsbD_eq_bit b _ ‹_›
    · rw [BitVec.getLsbD_setWidth, getLsbD_eq_bit _ _ (by omega),
        show 8 * (c + c / 2 + 1) + (k - 8) = 8 * (c + c / 2) + k by omega]
      simp [show k < 32 by omega, show k - 8 < 32 by omega]
  have hhigh : ∀ k, 16 ≤ k → wc.getLsbD k = false := by
    intro k hk
    rw [hwc, BitVec.or_comm, getLsbD_shift_or _ _ (by decide), if_neg (by omega), BitVec.getLsbD_setWidth,
      BitVec.getLsbD_of_ge _ _ (by omega), Bool.and_false, Bool.and_false]
  refine Packed.eq_entry fun k => ?_
  rw [getLsbD_toNat, BitVec.getLsbD_setWidth]
  cases odd with
  | false =>
    have hc : 8 * (c + c / 2) = 12 * c := by
      have := of_decide_eq_false hodd.symm
      omega
    rw [if_neg Bool.false_ne_true, BitVec.getLsbD_and, mask12]
    by_cases hk : k < 12
    · rw [hbits k (by omega), hc]
      simp [hk, show k < 64 by omega]
    · simp [hk]
  | true =>
    have hc : 8 * (c + c / 2) + 4 = 12 * c := by
      have := of_decide_eq_true hodd.symm
      omega
    rw [if_pos rfl, BitVec.getLsbD_ushiftRight]
    by_cases hk : k < 12
    · rw [hbits (4 + k) (by omega), ← Nat.add_assoc, hc]
      simp [hk, show k < 64 by omega]
    · rw [hhigh (4 + k) (by omega)]
      simp [hk]

/-! ## The FAT of a volume -/

/-- **The bytes of the FAT**, as the window shows them. -/
def Vol.fat (v : Vol D) : Bytes := fun n => v.look (v.fs.fatbase.toNat + n / 512) ⟨n % 512, offset_lt n⟩

/-- **The FAT as a table**: what is in the entry of each cluster, as far as there are entries. -/
def Vol.table (v : Vol D) (c : Nat) : Nat :=
  if c < v.fs.nFatent.toNat then entry v.fat v.fs.fsType.stride v.fs.fsType.width c else 0

/-- **Nothing but the FAT has changed** on `W`, and the drive nowhere outside `W` and the copies of the FAT. -/
structure Changed (W : Set Nat) (v v' : Vol D) : Prop where
  geometry : v'.fs.toGeometry = v.fs.toGeometry
  mounted : Mounted W v'
  look : ∀ s ∈ W, ¬ v.fs.IsFat s → v'.look s = v.look s
  store : ∀ s, s ∉ W → ¬ v.fs.IsCopy s → v'.store s = v.store s

/-- The same, and what is to go into the FSInfo sector is as it was. -/
structure Altered (W : Set Nat) (v v' : Vol D) : Prop extends Changed W v v' where
  info : v'.fs.toFsInfo = v.fs.toFsInfo

variable {W : Set Nat} {v v' v'' : Vol D} {q : Nat} {c x : BitVec 64}

theorem Changed.trans (h : Changed W v v') (h' : Changed W v' v'') : Changed W v v'' where
  geometry := h'.geometry.trans h.geometry
  mounted := h'.mounted
  look := fun s hs hf => (h'.look s hs (h.geometry ▸ hf)).trans (h.look s hs hf)
  store := fun s hs hc => (h'.store s hs (h.geometry ▸ hc)).trans (h.store s hs hc)

theorem Altered.trans (h : Altered W v v') (h' : Altered W v' v'') : Altered W v v'' :=
  ⟨h.toChanged.trans h'.toChanged, h'.info.trans h.info⟩

theorem Kept.altered (h : Kept W v v') : Altered W v v' :=
  ⟨⟨h.geometry, h.mounted, fun s hs _ => h.look s hs, h.store⟩, h.info⟩

theorem FsType.width_le : ∀ t : FsType, t.width ≤ t.stride := by
  rintro (_ | _ | _ | _) <;> decide

/-- The entries are in the FAT. -/
theorem Geometry.Fits.bit_lt {g : Geometry} {m n k : Nat} (h : g.Fits m) (hn : n < g.nFatent.toNat)
    (hk : k < g.fsType.width) : (g.fsType.stride * n + k) / 8 < g.fsize.toNat * 512 := by
  have he := h.entries
  have hs : g.fsType.stride * (n + 1) ≤ g.fsType.stride * g.nFatent.toNat := Nat.mul_le_mul_left _ hn
  rw [Nat.mul_succ] at hs
  rw [Nat.mul_comm] at he
  have hw := g.fsType.width_le
  omega

/-- **The table is that of the bytes of the FAT.** -/
theorem table_congr (hg : v'.fs.toGeometry = v.fs.toGeometry) (h : v.fs.Fits D.sectors)
    (hfat : ∀ n < v.fs.fsize.toNat * 512, v'.fat n = v.fat n) : v'.table = v.table := by
  funext n
  unfold Vol.table
  rw [hg]
  split
  · refine Packed.entry_congr fun k hk => ?_
    rw [bit, bit, hfat _ (h.bit_lt ‹_› hk)]
  · rfl

/-- A FAT of zeros. -/
theorem table_zero (h : v.fs.Fits D.sectors) (hfat : ∀ n < v.fs.fsize.toNat * 512, v.fat n = 0) (c : Nat) :
    v.table c = 0 := by
  unfold Vol.table
  split
  · refine (Packed.eq_entry fun k => ?_).symm
    by_cases hk : k < v.fs.fsType.width
    · rw [bit, hfat _ (h.bit_lt ‹_› hk)]
      simp
    · simp [hk]
  · rfl

theorem fat_sector {n : Nat} (hn : n < v.fs.fsize.toNat * 512) : v.fs.IsFat (v.fs.fatbase.toNat + n / 512) :=
  ⟨by omega, by omega⟩

theorem Kept.fat (h : Kept W v v') (hm : Mounted W v) {n : Nat} (hn : n < v.fs.fsize.toNat * 512) :
    v'.fat n = v.fat n := by
  unfold Vol.fat
  rw [h.geometry, h.look _ (hm.windows.fat _ (fat_sector hn))]

theorem Kept.table (h : Kept W v v') (hm : Mounted W v) : v'.table = v.table :=
  table_congr h.geometry hm.fits fun _ hn => h.fat hm hn

/-- A byte of the FAT in the window. -/
theorem win_eq_fat {n : Nat} (hw : v.fs.winsect.toNat = v.fs.fatbase.toNat + n / 512) : v.fs.win (n % 512) = v.fat n := by
  unfold Vol.fat
  rw [← hw, Vol.look_self]
  show _ = v.fs.win (0 * 512 + n % 512)
  rw [Nat.zero_mul, Nat.zero_add]

/-- **A change of a byte in the window, as one of the FAT.** -/
theorem edit_fat {n : Nat} (hm : Mounted W v) (hn : n < v.fs.fsize.toNat * 512)
    (hw : v.fs.winsect.toNat = v.fs.fatbase.toNat + n / 512) (y : BitVec 8) :
    Altered W v (v.edit (Function.update v.fs.win (n % 512) y)) ∧
      (v.edit (Function.update v.fs.win (n % 512) y)).fat = Function.update v.fat n y := by
  have hfat : v.fs.IsFat v.fs.winsect.toNat := hw ▸ fat_sector hn
  have hW : v.fs.winsect.toNat ∈ W := hm.windows.fat _ hfat
  obtain ⟨hm', hlook⟩ := edit_mounted hm hW (Function.update v.fs.win (n % 512) y)
  refine ⟨⟨⟨rfl, hm', fun s _ hs => ?_, fun _ _ _ => rfl⟩, rfl⟩, funext fun k => ?_⟩
  · rw [hlook, Function.update_of_ne]
    rintro rfl
    exact hs hfat
  · unfold Vol.fat
    rw [hlook]
    show Function.update v.look _ _ (v.fs.fatbase.toNat + k / 512) _ = _
    by_cases hk : k / 512 = n / 512
    · rw [hw, hk, Function.update_self]
      show Function.update v.fs.win (n % 512) y (0 * 512 + k % 512) = _
      rw [Nat.zero_mul, Nat.zero_add]
      by_cases he : k = n
      · subst he
        rw [Function.update_self, Function.update_self]
      · rw [Function.update_of_ne (by omega), Function.update_of_ne he]
        exact win_eq_fat (hk ▸ hw)
    · rw [Function.update_of_ne (by omega), Function.update_of_ne (by rintro rfl; exact hk rfl)]

/-- The window is moved to the byte `n` of the FAT. -/
theorem moveFat_returns (hm : Mounted W v) {n : Nat} (hn : n < v.fs.fsize.toNat * 512) {s : BitVec 64}
    (hs : s.toNat = v.fs.fatbase.toNat + n / 512) : Returns (moveWindow v s) (fun p => p.1 = .ok ∧ Kept W v p.2 ∧
      p.2.fs.winsect.toNat = p.2.fs.fatbase.toNat + n / 512) := by
  have hW : s.toNat ∈ W := by
    rw [hs]
    exact hm.windows.fat _ (fat_sector hn)
  refine Sat.mono (moveWindow_returns hm hW) ?_ (fun _ => id)
  rintro p ⟨hok, hk, hsect⟩
  exact ⟨hok, hk, by rw [hsect, hs, hk.geometry]⟩

theorem ldWord_congr {p p' : Bytes} {i j : Nat} (h : ∀ k < 2, p (i + k) = p' (j + k)) : ldWord p i = ldWord p' j := by
  have h0 : p i = p' j := h 0 (by decide)
  rw [ldWord, ldWord, h0, h 1 (by decide)]

theorem ldDword_congr {p p' : Bytes} {i j : Nat} (h : ∀ k < 4, p (i + k) = p' (j + k)) : ldDword p i = ldDword p' j := by
  have h0 : p i = p' j := h 0 (by decide)
  rw [ldDword, ldDword, h0, h 1 (by decide), h 2 (by decide), h 3 (by decide)]

/-- Bytes of the FAT in the window that do not cross the end of the sector. -/
theorem win_add_eq_fat {n k : Nat} (hw : v.fs.winsect.toNat = v.fs.fatbase.toNat + n / 512) (hk : n % 512 + k < 512) :
    v.fs.win (n % 512 + k) = v.fat (n + k) := by
  rw [← win_eq_fat (by omega : v.fs.winsect.toNat = v.fs.fatbase.toNat + (n + k) / 512)]
  congr 1
  omega

/-- A cluster number in the range that `get_fat` and `put_fat` take. -/
def Geometry.Cluster (g : Geometry) (c : Nat) : Prop := 2 ≤ c ∧ c < g.nFatent.toNat

/-- Where the bytes of an entry are, for each width. -/
theorem Geometry.Fits.entry_bounds {g : Geometry} {n : Nat} (h : g.Fits n)
    (hc : g.Cluster c.toNat) :
    (g.fsType = .fat12 → c.toNat < 2 ^ 12 ∧ c.toNat + c.toNat / 2 + 1 < g.fsize.toNat * 512) ∧
    (g.fsType = .fat16 → 2 * c.toNat + 1 < g.fsize.toNat * 512) ∧
    (g.fsType = .fat32 → 4 * c.toNat + 3 < g.fsize.toNat * 512) := by
  have hent := h.entries
  have hend := h.ends
  have hlt := hc.2
  refine ⟨fun ht => ?_, fun ht => ?_, fun ht => ?_⟩ <;> rw [ht] at hent hend <;>
    simp only [FsType.stride, FsType.width] at hent hend <;> omega

/-- Where the two bytes of an entry of 12 bits are: the sectors, -/
theorem bc_sectors {g : Geometry} {m n : Nat} (h : g.Fits m) (hm : m ≤ 0xFFFFFFFF) {bc : BitVec 32} (hbc : bc.toNat = n)
    (hsmall : n < 2 ^ 13) (hn : n + 1 < g.fsize.toNat * 512) :
    (g.fatbase + (bc / 512).setWidth 64).toNat = g.fatbase.toNat + n / 512 ∧
      (g.fatbase + ((bc + 1) / 512).setWidth 64).toNat = g.fatbase.toNat + (n + 1) / 512 := by
  have hle := h.fat_le
  rw [BitVec.toNat_add, BitVec.toNat_add, BitVec.toNat_setWidth, BitVec.toNat_setWidth, BitVec.toNat_udiv,
    BitVec.toNat_udiv, BitVec.toNat_add, hbc]
  show (_ + _ / 512 % _) % _ = _ ∧ (_ + (_ + 1) % _ / 512 % _) % _ = _
  omega

/-- and the places in the window. -/
theorem bc_bytes {n : Nat} {bc : BitVec 32} (hbc : bc.toNat = n) :
    (bc % 512).toNat = n % 512 ∧ ((bc + 1) % 512).toNat = (n + 1) % 512 := by
  rw [BitVec.toNat_umod, BitVec.toNat_umod, BitVec.toNat_add, hbc]
  show _ % 512 = _ ∧ (_ + 1) % _ % 512 = _
  omega

/-- `clst & 1` -/
theorem odd_iff (c : BitVec 64) : c &&& 1 ≠ 0 ↔ decide (c.toNat % 2 = 1) = true := by
  rw [decide_eq_true_iff, ne_eq, ← BitVec.toNat_inj, BitVec.toNat_and]
  show ¬ _ &&& 1 = 0 ↔ _
  rw [Nat.and_one_is_mod]
  omega

/-- **`get_fat` reads the table**, and leaves the volume as it was. -/
theorem getFat_returns (hm : Mounted W v) (hc : v.fs.Cluster c.toNat) :
    Returns (getFat v c) (fun p => p.1.toNat = v.table c.toNat ∧ Kept W v p.2) := by
  have hfits := hm.fits
  have hlt := hc.2
  have hin : ¬ (c < 2 ∨ c ≥ v.fs.nFatent) := by
    have h1 := hc.1
    rw [ge_iff_le, BitVec.lt_def, BitVec.le_def]
    show ¬ (_ < 2 ∨ _)
    omega
  have hmax := D.sectors_le
  have hle := hfits.fat_le
  obtain ⟨h12, h16, h32⟩ := hfits.entry_bounds hc
  -- the table, by the bytes the window is moved to
  have htable : ∀ {v₁ : Vol D}, Kept W v v₁ →
      v.table c.toNat = entry v₁.fat v.fs.fsType.stride v.fs.fsType.width c.toNat := by
    intro v₁ hk
    rw [← hk.table hm, Vol.table, hk.geometry, if_pos hlt]
  rw [getFat, if_neg hin]
  cases ht : v.fs.fsType with
  | none => exact absurd ht hfits.type
  | fat12 =>
    obtain ⟨hsmall, hn⟩ := h12 ht
    have hbc : (c.setWidth 32 + c.setWidth 32 / 2).toNat = c.toNat + c.toNat / 2 := by
      rw [BitVec.toNat_add, BitVec.toNat_udiv, BitVec.toNat_setWidth]
      show (_ + _ / 2) % _ = _
      omega
    obtain ⟨hs₀, hs₁⟩ := bc_sectors hfits hmax hbc (by omega) hn
    refine Sat.bind (moveFat_returns hm (by omega) hs₀) ?_
    rintro ⟨res, v₁⟩ ⟨rfl, hk₁, hw₁⟩
    replace hk₁ : Kept W v v₁ := hk₁
    replace hw₁ : v₁.fs.winsect.toNat = v₁.fs.fatbase.toNat + (c.toNat + c.toNat / 2) / 512 := hw₁
    have hg := hk₁.geometry
    refine Sat.bind (moveFat_returns hk₁.mounted (by rw [hg]; exact hn) (by rw [hg]; exact hs₁)) ?_
    rintro ⟨res, v₂⟩ ⟨rfl, hk₂, hw₂⟩
    replace hk₂ : Kept W v₁ v₂ := hk₂
    replace hw₂ : v₂.fs.winsect.toNat = v₂.fs.fatbase.toNat + (c.toNat + c.toNat / 2 + 1) / 512 := hw₂
    obtain ⟨hp₀, hp₁⟩ := bc_bytes hbc
    refine ⟨?_, hk₁.trans hk₂⟩
    rw [htable (hk₁.trans hk₂), ht, hp₀, hp₁, win_eq_fat hw₁, win_eq_fat hw₂,
      ← hk₂.fat hk₁.mounted (by rw [hg]; omega)]
    simp only [odd_iff c]
    exact bits_eq_entry v₂.fat c.toNat _ rfl _ rfl
  | fat16 =>
    have hn := h16 ht
    have hs : (v.fs.fatbase + c / (512 / 2)).toNat = v.fs.fatbase.toNat + 2 * c.toNat / 512 := by
      rw [BitVec.toNat_add, BitVec.toNat_udiv]
      show (_ + _ / 256) % _ = _
      omega
    refine Sat.bind (moveFat_returns hm (by omega) hs) ?_
    rintro ⟨res, v₁⟩ ⟨rfl, hk, hw⟩
    replace hk : Kept W v v₁ := hk
    have hp : (c * 2 % 512).toNat = 2 * c.toNat % 512 := by
      rw [BitVec.toNat_umod, BitVec.toNat_mul]
      show _ * 2 % _ % 512 = _
      omega
    refine ⟨?_, hk⟩
    rw [htable hk, ht, hp, ldWord_congr fun k hk2 => win_add_eq_fat hw (by omega)]
    exact word_eq_entry v₁.fat c.toNat
  | fat32 =>
    have hn := h32 ht
    have hs : (v.fs.fatbase + c / (512 / 4)).toNat = v.fs.fatbase.toNat + 4 * c.toNat / 512 := by
      rw [BitVec.toNat_add, BitVec.toNat_udiv]
      show (_ + _ / 128) % _ = _
      omega
    refine Sat.bind (moveFat_returns hm (by omega) hs) ?_
    rintro ⟨res, v₁⟩ ⟨rfl, hk, hw⟩
    replace hk : Kept W v v₁ := hk
    have hp : (c * 4 % 512).toNat = 4 * c.toNat % 512 := by
      rw [BitVec.toNat_umod, BitVec.toNat_mul]
      show _ * 4 % _ % 512 = _
      omega
    refine ⟨?_, hk⟩
    rw [htable hk, ht, hp, ldDword_congr fun k hk2 => win_add_eq_fat hw (by omega)]
    exact dword_eq_entry v₁.fat c.toNat

/-- **Written to an entry, written to the table.** -/
theorem table_writes (hg : v'.fs.toGeometry = v.fs.toGeometry) (h : v.fs.Fits D.sectors) {n y : Nat} {b : Bytes}
    (hn : v.fs.Cluster n) (hw : Writes v.fs.fsType.stride v.fs.fsType.width n y v.fat b)
    (hb : ∀ k < v.fs.fsize.toNat * 512, v'.fat k = b k) :
    v'.table = Function.update v.table n (y % 2 ^ v.fs.fsType.width) := by
  funext d
  unfold Vol.table
  rw [hg]
  by_cases hd : d < v.fs.nFatent.toNat
  · have hcongr : entry v'.fat v.fs.fsType.stride v.fs.fsType.width d =
        entry b v.fs.fsType.stride v.fs.fsType.width d :=
      Packed.entry_congr fun k hk => by rw [bit, bit, hb _ (h.bit_lt hd hk)]
    rw [if_pos hd, hcongr]
    by_cases he : d = n
    · subst he
      rw [Function.update_self]
      exact hw.self
    · rw [Function.update_of_ne he, if_pos hd]
      exact hw.other v.fs.fsType.width_le he
  · rw [if_neg hd, Function.update_of_ne (by rintro rfl; exact hd hn.2), if_neg hd]

/-- One more byte of the sector in the window. -/
theorem edit_more {n k : Nat} {win b : Bytes} (hn : n + k < v.fs.fsize.toNat * 512)
    (hk : n % 512 + k < 512) (hw : v.fs.winsect.toNat = v.fs.fatbase.toNat + n / 512)
    (h : Altered W v (v.edit win) ∧ (v.edit win).fat = b) (y : BitVec 8) :
    Altered W v (v.edit (Function.update win (n % 512 + k) y)) ∧
      (v.edit (Function.update win (n % 512 + k) y)).fat = Function.update b (n + k) y := by
  have hmod : (n + k) % 512 = n % 512 + k := by omega
  have hw' : (v.edit win).fs.winsect.toNat = (v.edit win).fs.fatbase.toNat + (n + k) / 512 := by
    show v.fs.winsect.toNat = v.fs.fatbase.toNat + (n + k) / 512
    omega
  obtain ⟨ha, hfat⟩ := edit_fat h.1.mounted hn hw' y
  rw [hmod] at ha hfat
  exact ⟨h.1.trans ha, h.2 ▸ hfat⟩

theorem edit_stWord (hm : Mounted W v) {n : Nat} (hn : n + 1 < v.fs.fsize.toNat * 512) (hk : n % 512 + 1 < 512)
    (hw : v.fs.winsect.toNat = v.fs.fatbase.toNat + n / 512) (y : BitVec 16) :
    Altered W v (v.edit (stWord v.fs.win (n % 512) y)) ∧
      (v.edit (stWord v.fs.win (n % 512) y)).fat = stWord v.fat n y :=
  edit_more hn hk hw (edit_fat hm (by omega) hw _) _

theorem edit_stDword (hm : Mounted W v) {n : Nat} (hn : n + 3 < v.fs.fsize.toNat * 512) (hk : n % 512 + 3 < 512)
    (hw : v.fs.winsect.toNat = v.fs.fatbase.toNat + n / 512) (y : BitVec 64) :
    Altered W v (v.edit (stDword v.fs.win (n % 512) y)) ∧
      (v.edit (stDword v.fs.win (n % 512) y)).fat = stDword v.fat n y := by
  have h0 := edit_fat hm (by omega) hw (y.setWidth 8)
  have h1 := edit_more (k := 1) (by omega) (by omega) hw h0 ((y >>> 8).setWidth 8)
  have h2 := edit_more (k := 2) (by omega) (by omega) hw h1 ((y >>> 8 >>> 8).setWidth 8)
  exact edit_more (by omega) (by omega) hw h2 ((y >>> 8 >>> 8 >>> 8).setWidth 8)

/-- **`put_fat` changes one entry of the table**, to as many bits of the value as the entry has. -/
theorem putFat_returns (hm : Mounted W v) (hc : v.fs.Cluster c.toNat) (x : BitVec 64) :
    Returns (putFat v c x) (fun p => p.1 = .ok ∧ Altered W v p.2 ∧
      p.2.table = Function.update v.table c.toNat (x.toNat % 2 ^ v.fs.fsType.width)) := by
  have hfits := hm.fits
  have hin : c ≥ 2 ∧ c < v.fs.nFatent := by
    have h1 := hc.1
    have h2 := hc.2
    rw [ge_iff_le, BitVec.lt_def, BitVec.le_def]
    exact ⟨h1, h2⟩
  have hmax := D.sectors_le
  have hle := hfits.fat_le
  obtain ⟨h12, h16, h32⟩ := hfits.entry_bounds hc
  rw [putFat, if_pos hin]
  cases ht : v.fs.fsType with
  | none => exact absurd ht hfits.type
  | fat12 =>
    obtain ⟨hsmall, hn⟩ := h12 ht
    have hbc : (c.setWidth 32 + c.setWidth 32 / 2).toNat = c.toNat + c.toNat / 2 := by
      rw [BitVec.toNat_add, BitVec.toNat_udiv, BitVec.toNat_setWidth]
      show (_ + _ / 2) % _ = _
      omega
    obtain ⟨hs₀, hs₁⟩ := bc_sectors hfits hmax hbc (by omega) hn
    obtain ⟨hp₀, hp₁⟩ := bc_bytes hbc
    refine Sat.bind (moveFat_returns hm (by omega) hs₀) ?_
    rintro ⟨res, v₁⟩ ⟨rfl, hk₁, hw₁⟩
    replace hk₁ : Kept W v v₁ := hk₁
    replace hw₁ : v₁.fs.winsect.toNat = v₁.fs.fatbase.toNat + (c.toNat + c.toNat / 2) / 512 := hw₁
    have hg₁ := hk₁.geometry
    simp only [ne_eq, not_true_eq_false, if_false, hp₀]
    generalize hb₀ : ite (¬ c &&& 1 = 0) _ _ = b₀
    obtain ⟨ha₂, hfat₂⟩ := edit_fat hk₁.mounted (by rw [hg₁]; omega) hw₁ b₀
    generalize v₁.edit _ = v₂ at ha₂ hfat₂
    have hg₂ := ha₂.geometry.trans hg₁
    refine Sat.bind (moveFat_returns ha₂.mounted (by rw [hg₂]; exact hn) (by rw [hg₂]; exact hs₁)) ?_
    rintro ⟨res, v₃⟩ ⟨rfl, hk₃, hw₃⟩
    replace hk₃ : Kept W v₂ v₃ := hk₃
    replace hw₃ : v₃.fs.winsect.toNat = v₃.fs.fatbase.toNat + (c.toNat + c.toNat / 2 + 1) / 512 := hw₃
    have hg₃ := hk₃.geometry.trans hg₂
    simp only [hp₁]
    generalize hb₁ : ite (¬ c &&& 1 = 0) _ _ = b₁
    obtain ⟨ha₄, hfat₄⟩ := edit_fat hk₃.mounted (by rw [hg₃]; exact hn) hw₃ b₁
    refine ⟨rfl, ((hk₁.altered.trans ha₂).trans hk₃.altered).trans ha₄, ?_⟩
    have hnext : v₃.fs.win ((c.toNat + c.toNat / 2 + 1) % 512) = v₁.fat (c.toNat + c.toNat / 2 + 1) := by
      rw [win_eq_fat hw₃, hk₃.fat ha₂.mounted (by rw [hg₂]; exact hn), hfat₂, Function.update_of_ne (by omega)]
    have htab := table_writes (n := c.toNat) (y := x.toNat) (ha₄.geometry.trans (hg₃.trans hg₁.symm)) hk₁.mounted.fits
      (by rw [hg₁]; exact hc) (by
        rw [hg₁, ht]
        refine writes_bits v₁.fat c.toNat x _ rfl b₀ b₁ ?_ ?_
        · rw [← hb₀, win_eq_fat hw₁]
          simp only [← odd_iff]
        · rw [← hb₁, hnext]
          simp only [← odd_iff]) (fun k hk => by
        rw [hfat₄]
        by_cases he : k = c.toNat + c.toNat / 2 + 1
        · rw [he, Function.update_self, Function.update_self]
        · rw [Function.update_of_ne he, Function.update_of_ne he, hk₃.fat ha₂.mounted (by rw [hg₂]; rwa [hg₁] at hk), hfat₂])
    rw [hg₁, ht, hk₁.table hm] at htab
    exact htab
  | fat16 =>
    have hn := h16 ht
    have hs : (v.fs.fatbase + c / (512 / 2)).toNat = v.fs.fatbase.toNat + 2 * c.toNat / 512 := by
      rw [BitVec.toNat_add, BitVec.toNat_udiv]
      show (_ + _ / 256) % _ = _
      omega
    refine Sat.bind (moveFat_returns hm (by omega) hs) ?_
    rintro ⟨res, v₁⟩ ⟨rfl, hk, hw⟩
    replace hk : Kept W v v₁ := hk
    have hg := hk.geometry
    have hp : (c * 2 % 512).toNat = 2 * c.toNat % 512 := by
      rw [BitVec.toNat_umod, BitVec.toNat_mul]
      show _ * 2 % _ % 512 = _
      omega
    obtain ⟨ha, hfat⟩ := edit_stWord hk.mounted (by rw [hg]; exact hn) (by omega) hw (x.setWidth 16)
    rw [← hp] at ha hfat
    refine ⟨rfl, hk.altered.trans ha, ?_⟩
    have htab := table_writes (n := c.toNat) (y := x.toNat) ha.geometry hk.mounted.fits (by rw [hg]; exact hc) (by
      rw [hg, ht]
      exact writes_word v₁.fat c.toNat x) (fun k _ => congrFun hfat k)
    rw [hg, ht, hk.table hm] at htab
    exact htab
  | fat32 =>
    have hn := h32 ht
    have hs : (v.fs.fatbase + c / (512 / 4)).toNat = v.fs.fatbase.toNat + 4 * c.toNat / 512 := by
      rw [BitVec.toNat_add, BitVec.toNat_udiv]
      show (_ + _ / 128) % _ = _
      omega
    refine Sat.bind (moveFat_returns hm (by omega) hs) ?_
    rintro ⟨res, v₁⟩ ⟨rfl, hk, hw⟩
    replace hk : Kept W v v₁ := hk
    have hg := hk.geometry
    have hp : (c * 4 % 512).toNat = 4 * c.toNat % 512 := by
      rw [BitVec.toNat_umod, BitVec.toNat_mul]
      show _ * 4 % _ % 512 = _
      omega
    have hld : ldDword v₁.fs.win (4 * c.toNat % 512) = ldDword v₁.fat (4 * c.toNat) :=
      ldDword_congr fun k _ => win_add_eq_fat hw (by omega)
    simp only [ne_eq, not_true_eq_false, if_false, hp, hld]
    obtain ⟨ha, hfat⟩ := edit_stDword hk.mounted (by rw [hg]; exact hn) (by omega) hw
      ((x &&& 0x0FFFFFFF) ||| (ldDword v₁.fat (4 * c.toNat) &&& 0xF0000000))
    refine ⟨rfl, hk.altered.trans ha, ?_⟩
    have htab := table_writes (n := c.toNat) (y := x.toNat) ha.geometry hk.mounted.fits (by rw [hg]; exact hc) (by
      rw [hg, ht]
      exact writes_dword v₁.fat c.toNat x) (fun k _ => congrFun hfat k)
    rw [hg, ht, hk.table hm] at htab
    exact htab

/-- Outside the range, nothing is read, -/
theorem getFat_invalid (hc : ¬ v.fs.Cluster c.toNat) : getFat v c = .ok (1, v) := by
  rw [getFat, if_pos]
  · rfl
  · unfold Geometry.Cluster at hc
    rw [ge_iff_le, BitVec.lt_def, BitVec.le_def]
    show _ < 2 ∨ _
    omega

/-- and nothing is changed. -/
theorem putFat_invalid (hc : ¬ v.fs.Cluster c.toNat) : putFat v c x = .ok (.intErr, v) := by
  rw [putFat, if_neg]
  · rfl
  · exact hc

end Fatfs
end CheriOS
