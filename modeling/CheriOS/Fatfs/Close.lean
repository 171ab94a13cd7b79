import CheriOS.Fatfs.Remount
import CheriOS.Fatfs.Truncate
/-!
# Close — bringing a file to the drive (`ff.c`)

`f_sync` writes the buffer and the directory entry of a file that was modified, and everything else that is held back.
-/
namespace CheriOS
namespace Fatfs

open Outcome Chain

variable {D : Disk} {W : Set Nat} {v v' : Vol D} {s s' : Chains D} {g : Geometry} {l : List Nat} {i k n p x size : Nat}
  {E : Nat → Fin 512 → Prop} {fp fp' : Fil} {f : File} {data : Nat → Option (BitVec 8)}

/-! ## The directory entry -/

/-- The 32 bytes of an entry. -/
def EntryAt (x p : Nat) : Nat → Fin 512 → Prop := fun y j => y = x ∧ p ≤ j ∧ (j : Nat) < p + 32

/-- **An entry in a sector of a directory.** -/
structure Placed (W : Set Nat) (g : Geometry) (x p : Nat) : Prop where
  window : x ∈ W
  notFat : ¬ g.IsFat x
  notInfo : ¬ g.IsInfo x
  aligned : p % 32 = 0
  within : p < 512

/-- **The entry tells where the file is and how long.** -/
structure Recorded (fs : FatFs) (l : List Nat) (size p : Nat) (sect : Sector) : Prop where
  clust : (ldClust fs (bytesOf sect) p).toNat = l.headD 0
  size : (ldDword (bytesOf sect) (p + 28)).toNat = size % 2 ^ 32

theorem Recorded.of_type {fs fs' : FatFs} {sect : Sector} (h : Recorded fs l size p sect) (ht : fs'.fsType = fs.fsType) :
    Recorded fs' l size p sect := by
  refine ⟨?_, h.size⟩
  rw [← h.clust, ldClust, ldClust, ht]

/-- The first cluster, or `0`, is a number of the FAT. -/
theorem headD_lt (hfit : g.Fits n) (hv : ∀ c ∈ l, g.Cluster c) : l.headD 0 < 2 ^ g.fsType.width := by
  cases l with
  | nil => exact Nat.two_pow_pos _
  | cons c m => exact Nat.lt_trans (hv c List.mem_cons_self).2 hfit.ends

theorem stWord_ne (b : Bytes) {j m : Nat} (y : BitVec 16) (h : m ≠ j) (h' : m ≠ j + 1) : stWord b j y m = b m := by
  unfold stWord
  rw [Function.update_of_ne h', Function.update_of_ne h]

theorem stDword_ne (b : Bytes) {j m : Nat} (y : BitVec 64) (h : m < j ∨ j + 4 ≤ m) : stDword b j y m = b m := by
  unfold stDword
  rw [Function.update_of_ne (by omega), Function.update_of_ne (by omega), Function.update_of_ne (by omega),
    Function.update_of_ne (by omega)]

theorem ldWord_stWord_ne (b : Bytes) {i j : Nat} (y : BitVec 16) (h : i + 2 ≤ j ∨ j + 2 ≤ i) :
    ldWord (stWord b j y) i = ldWord b i := ldWord_congr fun m hm => stWord_ne b y (by omega) (by omega)

theorem ldDword_stWord_ne (b : Bytes) {i j : Nat} (y : BitVec 16) (h : i + 4 ≤ j ∨ j + 2 ≤ i) :
    ldDword (stWord b j y) i = ldDword b i := ldDword_congr fun m hm => stWord_ne b y (by omega) (by omega)

theorem stClust_ne (fs : FatFs) (b : Bytes) {m : Nat} (cl : BitVec 64) (h : m < p + 20 ∨ p + 28 ≤ m) :
    stClust fs b p cl m = b m := by
  unfold stClust
  split
  · rw [stWord_ne _ _ (by omega) (by omega), stWord_ne _ _ (by omega) (by omega)]
  · rw [stWord_ne _ _ (by omega) (by omega)]

/-- **Only the entry is changed.** -/
theorem updateEntry_ne (fs : FatFs) (obj : Fdid) {m : Nat} (h : m < p ∨ p + 32 ≤ m) :
    updateEntry fs p obj m = fs.win m := by
  unfold updateEntry
  rw [stWord_ne _ _ (by omega) (by omega), stDword_ne _ _ (by omega), stDword_ne _ _ (by omega),
    stClust_ne _ _ _ (by omega), Function.update_of_ne (by omega)]

/-- **A cluster number is read as it was written**, if its type of FAT has such numbers. -/
theorem ldClust_stClust (fs : FatFs) (b : Bytes) {cl : BitVec 64} (h : cl.toNat < 2 ^ fs.fsType.width) :
    (ldClust fs (stClust fs b p cl) p).toNat = cl.toNat := by
  have hlo : ((cl.setWidth 16).setWidth 64).toNat = cl.toNat % 2 ^ 16 := by
    rw [BitVec.toNat_setWidth, BitVec.toNat_setWidth]
    omega
  unfold ldClust stClust
  by_cases h32 : fs.fsType = .fat32
  · have hlt : cl.toNat < 2 ^ 28 := by
      rw [h32] at h
      exact h
    have hhi : (((cl >>> 16).setWidth 16).setWidth 64 <<< 16 : BitVec 64).toNat = cl.toNat / 2 ^ 16 * 2 ^ 16 := by
      rw [BitVec.toNat_shiftLeft, BitVec.toNat_setWidth, BitVec.toNat_setWidth, BitVec.toNat_ushiftRight,
        Nat.shiftRight_eq_div_pow, Nat.shiftLeft_eq]
      omega
    simp only [h32, if_true]
    rw [ldWord_stWord_ne _ _ (by omega), ldWord_stWord, ldWord_stWord, BitVec.toNat_or, hlo, hhi, Nat.or_comm,
      ← Nat.shiftLeft_eq, ← Nat.shiftLeft_add_eq_or_of_lt (Nat.mod_lt _ (by decide)), Nat.shiftLeft_eq]
    exact Nat.div_add_mod' ..
  · have hlt : cl.toNat < 2 ^ 16 := by
      revert h h32
      cases fs.fsType <;> intro h h32
      · exact Nat.lt_of_lt_of_le h (by decide)
      · exact Nat.lt_of_lt_of_le h (by decide)
      · exact Nat.lt_of_lt_of_le h (by decide)
      · exact absurd rfl h32
    simp only [h32, if_false]
    rw [ldWord_stWord, hlo, Nat.mod_eq_of_lt hlt]

theorem ldClust_congr {fs : FatFs} {b b' : Bytes} (hlo : ∀ m < 2, b (p + 26 + m) = b' (p + 26 + m))
    (hhi : ∀ m < 2, b (p + 20 + m) = b' (p + 20 + m)) : ldClust fs b p = ldClust fs b' p := by
  unfold ldClust
  rw [ldWord_congr hlo, ldWord_congr hhi]

/-- **The entry as `f_sync` writes it.** -/
theorem recorded_updateEntry (fs : FatFs) {obj : Fdid} (hp : p + 32 ≤ 512) (hc : obj.sclust.toNat = l.headD 0)
    (hlt : obj.sclust.toNat < 2 ^ fs.fsType.width) (hsize : obj.objsize.toNat = size) :
    Recorded fs l size p (sectorOf (updateEntry fs p obj) 0) := by
  constructor
  · have hbytes : ∀ m, (p + 20 ≤ m ∧ m < p + 22) ∨ (p + 26 ≤ m ∧ m < p + 28) →
        bytesOf (sectorOf (updateEntry fs p obj) 0) m =
          stClust fs (Function.update fs.win (p + 11) (fs.win (p + 11) ||| 0x20)) p obj.sclust m := by
      intro m hm
      rw [bytesOf_sectorOf _ (by omega)]
      unfold updateEntry
      rw [stWord_ne _ _ (by omega) (by omega), stDword_ne _ _ (by omega), stDword_ne _ _ (by omega)]
    rw [ldClust_congr (fun m hm => hbytes _ (by omega)) (fun m hm => hbytes _ (by omega)), ldClust_stClust fs _ hlt, hc]
  · rw [ldDword_bytesOf _ (by omega)]
    unfold updateEntry
    rw [ldDword_stWord_ne _ _ (by omega), ldDword_stDword_ne _ _ (by omega), ldDword_stDword, saved, BitVec.toNat_setWidth,
      BitVec.toNat_setWidth, hsize]
    omega

/-! ## Writing to a directory -/

/-- **A call that writes to directories only.** -/
theorem Moves.of_entry (h : Good W s) (hg : v.fs.toGeometry = s.vol.fs.toGeometry) (hm : Mounted W v)
    (hE : ∀ x j, E x j → ¬ s.vol.fs.IsFat x)
    (hlook : ∀ x ∈ W, ¬ s.vol.fs.IsInfo x → ∀ j, ¬ E x j → v.look x j = s.vol.look x j)
    (hstore : ∀ x, x ∉ W → ¬ s.vol.fs.IsCopy x → v.store x = s.vol.store x) : Moves W E i s { s with vol := v } := by
  have hfits := h.sound.mounted.fits
  have htab : v.table = s.vol.table := by
    refine table_congr hg hfits fun m hm' => ?_
    have hsect := fat_sector (v := s.vol) hm'
    have hfat : s.vol.fs.IsFat (s.vol.fs.fatbase.toNat + m / 512) := ⟨Nat.le_add_right .., by omega⟩
    have hne : ¬ s.vol.fs.IsInfo (s.vol.fs.fatbase.toNat + m / 512) := by
      rintro ⟨h32, he⟩
      have := hfits.info h32
      omega
    unfold Vol.fat
    rw [hg, hlook _ (h.sound.mounted.windows.fat _ hsect) hne _ fun he => hE _ _ he hfat]
  have hsound : Sound W { s with vol := v } := by
    refine ⟨hm, ?_, ?_⟩
    · show NoError v.fs.toGeometry v.table
      rw [hg, htab]
      exact h.sound.noError
    · show Owns v.table v.fs.IsEnd v.fs.Cluster s.own
      rw [hg, htab]
      exact h.sound.owns
  refine ⟨⟨hsound, ?_⟩, hg, fun _ _ => rfl, fun c hc _ => ⟨hc, congrFun htab c⟩, ?_, fun x hx _ hi j hj => hlook x hx hi j hj,
    fun x hx hc _ => hstore x hx hc⟩
  · rintro j x ⟨c, hc, hcj, hin⟩
    replace hc : v.fs.Cluster c := hc
    replace hin : v.fs.InCluster c x := hin
    replace hcj : v.table c = 0 ∨ c ∈ s.own j := hcj
    rw [hg] at hc hin
    rw [htab] at hcj
    exact h.aside j x ⟨c, hc, hcj, hin⟩
  · exact congrArg (· + _) (freeClusters_congr hg htab)

/-- **What is held back is written**, with another entry of a directory. -/
theorem syncEntry_returns (h : Good W s) {sect : BitVec 64} (hp : Placed W s.vol.fs.toGeometry sect.toNat p) {v₁ : Vol D}
    (hk : Kept W s.vol v₁) (hsect : v₁.fs.winsect = sect) {win : Bytes}
    (hwin : ∀ m, m < p ∨ p + 32 ≤ m → win m = v₁.fs.win m) : Returns (syncFs (v₁.edit win)) (fun r => r.1 = .ok ∧
      Moves W (EntryAt sect.toNat p) i s { s with vol := r.2 } ∧ Flushed W r.2 ∧
      (∀ x, x ∉ W → ¬ s.vol.fs.IsCopy x → r.2.store x = s.vol.store x) ∧ r.2.look sect.toNat = sectorOf win 0) := by
  have hkey : v₁.fs.winsect.toNat = sect.toNat := congrArg BitVec.toNat hsect
  have hg := hk.geometry
  obtain ⟨hm₂, hlook₂⟩ := edit_mounted hk.mounted (by rw [hkey]; exact hp.window) win
  rw [hkey] at hlook₂
  refine Sat.mono (syncFs_returns hm₂) ?_ (fun _ => id)
  rintro ⟨res, v₃⟩ ⟨rfl, hg₃, -, -, hm₃, hflushed, hlook₃, hstore₃, -⟩
  replace hg₃ : v₃.fs.toGeometry = v₁.fs.toGeometry := hg₃
  replace hlook₃ : ∀ x ∈ W, ¬ v₁.fs.IsInfo x → v₃.look x = (v₁.edit win).look x := hlook₃
  replace hstore₃ : ∀ x, x ∉ W → ¬ v₁.fs.IsCopy x → v₃.store x = v₁.store x := hstore₃
  rw [hg] at hlook₃ hstore₃
  have hstore : ∀ x, x ∉ W → ¬ s.vol.fs.IsCopy x → v₃.store x = s.vol.store x := fun x hx hc =>
    (hstore₃ x hx hc).trans (hk.store x hx hc)
  refine ⟨rfl, .of_entry h (hg₃.trans hg) hm₃ ?_ ?_ hstore, hflushed, hstore, ?_⟩
  · rintro x j ⟨rfl, -⟩
    exact hp.notFat
  · intro x hx hi j hj
    show v₃.look x j = _
    rw [hlook₃ x hx hi, hlook₂]
    by_cases hxe : x = sect.toNat
    · subst hxe
      have hlt := j.isLt
      rw [Function.update_self, ← hk.look _ hx, ← hkey, Vol.look_self]
      refine hwin (0 * 512 + j) ?_
      by_contra hno
      exact hj ⟨rfl, by omega, by omega⟩
    · rw [Function.update_of_ne hxe, hk.look x hx]
  · show v₃.look _ = _
    rw [hlook₃ _ hp.window hp.notInfo, hlook₂, Function.update_self]

/-! ## The calls -/

/-- The object without the file change flag. -/
def Fil.synced (fp : Fil) : Fil := { fp.clean with flag := fp.clean.flag &&& ~~~faModified }

theorem synced_line (fp : Fil) : fp.synced.line = fp.clean.line := by
  unfold Fil.line Fil.synced
  rw [and_clear (by decide)]

theorem Object.synced (h : Object g l fp f) : Object g l fp.synced f := by
  refine ⟨h.fs, h.id, h.err, h.opened, ?_, ?_, h.clusters, h.first, h.size, h.pos, h.pos_le, h.room, h.beyond⟩
  · show _ ↔ ((fp.flag &&& ~~~faDirty) &&& ~~~faModified) &&& faRead ≠ 0
    rw [and_clear (by decide), and_clear (by decide)]
    exact h.readable
  · show _ ↔ ((fp.flag &&& ~~~faDirty) &&& ~~~faModified) &&& faWrite ≠ 0
    rw [and_clear (by decide), and_clear (by decide)]
    exact h.writable

/-- **`f_sync` brings an open file to the drive**, if it was modified; and its entry tells of it. -/
theorem fSync_returns (h : Good W s) (ho : Opened s.vol (s.own i) fp f)
    (hp : Placed W s.vol.fs.toGeometry fp.dirSect.toNat fp.dirPtr) : Returns (fSync s.vol fp) (fun r => r.1 = .ok ∧
      Moves W (EntryAt fp.dirSect.toNat fp.dirPtr) i s { s with vol := r.2.2 } ∧ Opened r.2.2 (s.own i) r.2.1 f ∧
      (fp.flag &&& faModified = 0 → r.2 = (fp, s.vol)) ∧
      (fp.flag &&& faModified ≠ 0 → r.2.1 = fp.synced ∧ Flushed W r.2.2 ∧
        Recorded r.2.2.fs (s.own i) f.size fp.dirPtr (r.2.2.look fp.dirSect.toNat))) := by
  rw [fSync, validate_opened h ho.object, ok_bind, if_neg (not_not.2 rfl)]
  by_cases hmod : fp.flag &&& faModified = 0
  · rw [if_neg (not_not.2 hmod)]
    exact ⟨rfl, .refl h, ho, fun _ => rfl, fun hne => absurd hmod hne⟩
  rw [if_pos hmod]
  refine Sat.bind (writeBack_returns (E := EntryAt fp.dirSect.toNat fp.dirPtr) h (fun hd => ho.cached.mine h hd)
    ho.cached.known) ?_
  rintro ⟨res, fp₁, v₁⟩ ⟨rfl, hfp, hfs, hmoves, hknown, -⟩
  replace hfp : fp₁ = fp.clean := hfp
  replace hfs : v₁.fs = s.vol.fs := hfs
  replace hknown : WriteBack.Meets _ fp.clean.line v₁.store := hknown
  subst hfp
  have hg₁ : v₁.fs.toGeometry = s.vol.fs.toGeometry := congrArg FatFs.toGeometry hfs
  have hgood₁ : Good W { s with vol := v₁ } := hmoves.good
  have hp₁ : Placed W v₁.fs.toGeometry fp.dirSect.toNat fp.dirPtr := by
    rw [hg₁]
    exact hp
  simp only [ne_eq, not_true_eq_false, if_false]
  refine Sat.bind (moveWindow_returns hgood₁.sound.mounted hp₁.window) ?_
  rintro ⟨res, v₂⟩ ⟨rfl, hk, hsect⟩
  replace hk : Kept W v₁ v₂ := hk
  simp only [not_true_eq_false, if_false]
  refine Sat.bind (syncEntry_returns (i := i) hgood₁ hp₁ hk hsect fun m hm => updateEntry_ne v₂.fs fp.obj hm) ?_
  rintro ⟨res, v₃⟩ ⟨rfl, hmoves₃, hflushed, hstore, hentry⟩
  replace hstore : ∀ x, x ∉ W → ¬ v₁.fs.IsCopy x → v₃.store x = v₁.store x := hstore
  replace hentry : v₃.look fp.dirSect.toNat = sectorOf (updateEntry v₂.fs fp.dirPtr fp.obj) 0 := hentry
  have hg₃ : v₃.fs.toGeometry = v₁.fs.toGeometry := hmoves₃.geometry
  have hcached₁ : Cached v₁ (s.own i) fp.clean f.data := .of_clean (clean_dirty fp) hg₁ hknown
  have hcached₃ : Cached v₃ (s.own i) fp.clean f.data := Cached.congr (s := { s with vol := v₁ }) hgood₁ hcached₁ hg₃ hstore
  have hg : v₃.fs.toGeometry = s.vol.fs.toGeometry := hg₃.trans hg₁
  refine ⟨rfl, hmoves.trans hmoves₃, ⟨?_, hcached₃.of_line (synced_line fp), ?_, ?_⟩, fun he => absurd he hmod,
    fun _ => ⟨rfl, hflushed, ?_⟩⟩
  · show Object v₃.fs.toGeometry _ fp.synced f
    rw [hg]
    exact ho.object.synced
  · show 0 < f.pos → (s.own i)[(f.pos - 1) / v₃.fs.unit]? = some fp.clust.toNat
    rw [hg]
    exact ho.current
  · show f.pos % 512 ≠ 0 → v₃.fs.place (s.own i) (f.pos / 512) = some fp.sect.toNat
    rw [hg]
    exact ho.within
  · show Recorded v₃.fs _ _ _ (v₃.look _)
    have hg₂ : v₂.fs.toGeometry = s.vol.fs.toGeometry := hk.geometry.trans hg₁
    have hrange : fp.dirPtr + 32 ≤ 512 := by
      have := hp.aligned
      have := hp.within
      omega
    have hlt : fp.obj.sclust.toNat < 2 ^ v₂.fs.fsType.width := by
      rw [hg₂, ho.object.first]
      exact headD_lt h.sound.mounted.fits (h.sound.owns.valid i)
    rw [hentry]
    exact (recorded_updateEntry v₂.fs hrange ho.object.first hlt ho.object.size).of_type (by rw [hg, hg₂])

/-- **`f_close` does what `f_sync` does**, and the object is not open any more. -/
theorem fClose_returns (h : Good W s) (ho : Opened s.vol (s.own i) fp f)
    (hp : Placed W s.vol.fs.toGeometry fp.dirSect.toNat fp.dirPtr) : Returns (fClose s.vol fp) (fun r => r.1 = .ok ∧
      ∃ fp', r.2.1 = fp'.close ∧ Moves W (EntryAt fp.dirSect.toNat fp.dirPtr) i s { s with vol := r.2.2 } ∧
      Opened r.2.2 (s.own i) fp' f ∧
      (fp.flag &&& faModified = 0 → (fp', r.2.2) = (fp, s.vol)) ∧
      (fp.flag &&& faModified ≠ 0 → fp' = fp.synced ∧ Flushed W r.2.2 ∧
        Recorded r.2.2.fs (s.own i) f.size fp.dirPtr (r.2.2.look fp.dirSect.toNat))) := by
  rw [fClose]
  refine Sat.bind (fSync_returns h ho hp) ?_
  rintro ⟨res, fp₁, v₁⟩ ⟨rfl, hmoves, ho₁, hno, hyes⟩
  replace ho₁ : Opened v₁ (s.own i) fp₁ f := ho₁
  have hvalid : validate v₁ fp₁ = .ok .ok := validate_opened (s := { s with vol := v₁ }) hmoves.good ho₁.object
  simp only [ne_eq, not_true_eq_false, if_false, hvalid, ok_bind, if_true]
  exact ⟨rfl, fp₁, rfl, hmoves, ho₁, hno, hyes⟩

end Fatfs
end CheriOS
