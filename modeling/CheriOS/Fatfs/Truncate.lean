import CheriOS.Fatfs.Count
import CheriOS.Fatfs.Seek
/-!
# Truncate — cutting a file at its position (`ff.c`)

`f_truncate` frees the clusters behind the position.  Then it writes its buffer back, which may be to one of them.
-/
namespace CheriOS
namespace Fatfs

open Outcome Chain

variable {D : Disk} {W : Set Nat} {v v' : Vol D} {s s' : Chains D} {g : Geometry} {l : List Nat} {i k n p : Nat}
  {E : Nat → Fin 512 → Prop} {fp fp' : Fil} {f : File} {data : Nat → Option (BitVec 8)}

/-- **The chain is cut to its first `k` clusters**, and the volume is `v` then. -/
structure CutTo (W : Set Nat) (s : Chains D) (i k : Nat) (v : Vol D) : Prop where
  steps : Steps W s ⟨Function.update s.own i ((s.own i).take k), v⟩
  changed : Changed W s.vol v
  count : v.freeClusters = s.vol.freeClusters + ((s.own i).drop k).length
  free : ∀ c, s.vol.fs.Cluster c → (v.table c = 0 ↔ c ∈ (s.own i).drop k ∨ s.vol.table c = 0)

theorem CutTo.of_cut (h : Good W s) {a : Answer} {own : Nat → List Nat} (hs : Steps W s ⟨own, v⟩)
    (hc : Cut W s i k (a, ⟨own, v⟩)) : CutTo W s i k v := by
  have hown : own = Function.update s.own i ((s.own i).take k) := hc.own
  subst hown
  exact ⟨hs, hc.changed, freeClusters_cut h.sound hc hc.changed.geometry, hc.free⟩

/-- The clusters behind the one in front of the position. -/
theorem truncateRest_returns (h : Good W s) (hx : (s.own i)[k]? = some fp.clust.toNat) :
    Returns (truncateRest s.vol fp) (fun p => p.1 = .ok ∧ CutTo W s i (k + 1) p.2) := by
  have hm := h.sound.mounted
  have hcl := h.sound.owns.valid i _ (List.mem_of_getElem? hx)
  have hcut := h.sound.truncate i (k + 1)
  have hclust : BitVec.ofNat 64 fp.clust.toNat = fp.clust := by rw [BitVec.ofNat_toNat, BitVec.setWidth_eq]
  obtain ⟨⟨ncl, v₁⟩, hget, hncl, hk⟩ := (getFat_returns hm hcl).exists
  obtain ⟨h1, hF, -⟩ := value_cases h.sound.noError hcl
    (Nat.lt_of_lt_of_le (table_lt s.vol _) (width_le_28 _)) hncl
  rw [call] at hcut
  simp only [hx, hclust, hget, ok_bind] at hcut
  rw [truncateRest, hget]
  simp only [ok_bind, h1, hF, if_false]
  by_cases hlt : ncl < v₁.fs.nFatent
  · rw [if_pos hlt] at hcut
    rw [if_pos hlt]
    cases hr : removeChain v₁ ncl fp.clust with
    | error e =>
      rw [hr] at hcut
      exact hcut.elim
    | ok q =>
      rw [hr] at hcut
      obtain ⟨hs, hc⟩ := hcut
      have hok := hc.ok
      exact ⟨Answer.result.inj hok, .of_cut h hs hc⟩
  · rw [if_neg hlt] at hcut
    rw [if_neg hlt]
    obtain ⟨hs, hc⟩ := hcut
    exact ⟨rfl, .of_cut h hs hc⟩

/-- All clusters. -/
theorem removeChain_returns (h : Good W s) (hl : s.own i ≠ []) {c pclst : BitVec 64} (hp : pclst = 0)
    (hc : c.toNat = (s.own i).headD 0) :
    Returns (removeChain s.vol c pclst) (fun p => p.1 = .ok ∧ CutTo W s i 0 p.2) := by
  have hcut := h.sound.truncate i 0
  rw [call] at hcut
  cases hown : s.own i with
  | nil => exact absurd hown hl
  | cons a m =>
    have hca : BitVec.ofNat 64 a = c := by
      rw [hown] at hc
      replace hc : c.toNat = a := hc
      rw [← hc, BitVec.ofNat_toNat, BitVec.setWidth_eq]
    subst hp
    simp only [hown, hca] at hcut
    cases hr : removeChain s.vol c 0 with
    | error e =>
      rw [hr] at hcut
      exact hcut.elim
    | ok q =>
      rw [hr] at hcut
      obtain ⟨hs, hcc⟩ := hcut
      exact ⟨Answer.result.inj hcc.ok, .of_cut h hs hcc⟩

theorem clustersFor_pos {u : Nat} (hu : 0 < u) (hp : 0 < p) : clustersFor u p = (p - 1) / u + 1 := by
  have hdm := Nat.div_add_mod' (p - 1) u
  have hlt := Nat.mod_lt (p - 1) hu
  refine Nat.le_antisymm ((clustersFor_le hu).2 (by rw [Nat.succ_mul]; omega)) ?_
  rw [Nat.succ_le_iff, ← Nat.not_le, clustersFor_le hu]
  omega

/-- **The clusters behind the position are freed.** -/
theorem truncateChain_returns (h : Good W s) (ho : Opened s.vol (s.own i) fp f) (hlt : f.pos < f.size) :
    Returns (truncateChain s.vol fp) (fun r => r.1 = .ok ∧ CutTo W s i (clustersFor s.vol.fs.unit f.pos) r.2.2 ∧
      ∃ sclust, r.2.1 = fp.moved sclust fp.clust fp.fptr ∧
        sclust.toNat = ((s.own i).take (clustersFor s.vol.fs.unit f.pos)).headD 0) := by
  have hu := h.sound.mounted.fits.unit_pos
  have hpos := ho.object.pos
  rw [truncateChain]
  by_cases h0 : fp.fptr = 0
  · have hp0 : f.pos = 0 := by
      rw [← hpos, h0]
      rfl
    have hk : clustersFor s.vol.fs.unit f.pos = 0 := Nat.le_zero.1 ((clustersFor_le hu).2 (by omega))
    have hne : s.own i ≠ [] := fun he => by
      have hroom := ho.object.room
      rw [he] at hroom
      replace hroom : f.size ≤ 0 * s.vol.fs.unit := hroom
      omega
    rw [if_pos h0, hk]
    refine Sat.bind (removeChain_returns h hne rfl ho.object.first) ?_
    rintro ⟨res, v₁⟩ ⟨rfl, hcut⟩
    exact ⟨rfl, hcut, 0, rfl, rfl⟩
  · have hp0 : 0 < f.pos := by
      rw [← hpos]
      exact Nat.pos_of_ne_zero fun he => h0 (BitVec.eq_of_toNat_eq he)
    rw [if_neg h0, clustersFor_pos hu hp0]
    refine Sat.bind (truncateRest_returns h (ho.current hp0)) ?_
    rintro ⟨res, v₁⟩ ⟨rfl, hcut⟩
    refine ⟨rfl, hcut, fp.obj.sclust, rfl, ?_⟩
    rw [ho.object.first]
    cases s.own i <;> rfl

theorem CutTo.moves (h : Good W s) (hc : CutTo W s i k v) :
    Moves W E i s ⟨Function.update s.own i ((s.own i).take k), v⟩ := by
  refine .of_steps h hc.steps (fun j hj => Function.update_of_ne hj ..) ?_
  show v.freeClusters + (Function.update s.own i ((s.own i).take k) i).length = _
  rw [Function.update_self, hc.count, List.length_take, List.length_drop]
  omega

/-- **A sector of the file is one of it still, or free.** -/
theorem CutTo.mine (hc : CutTo W s i k v) (h : Good W s) {x q : Nat} (hx : s.vol.fs.place (s.own i) q = some x) :
    Mine ⟨Function.update s.own i ((s.own i).take k), v⟩ i x := by
  have hg := hc.changed.geometry
  obtain ⟨c, hmem, hin⟩ := Extent.mem_block h.sound.mounted.fits.csize_pos hx
  have hcl := h.sound.owns.valid i c hmem
  refine ⟨c, ?_, ?_, ?_⟩
  · show v.fs.Cluster c
    rw [hg]
    exact hcl
  · show v.table c = 0 ∨ c ∈ Function.update s.own i ((s.own i).take k) i
    rw [Function.update_self, hc.free c hcl]
    rw [← List.take_append_drop k (s.own i), List.mem_append] at hmem
    rcases hmem with hm | hm
    · exact .inr hm
    · exact .inl (.inl hm)
  · show v.fs.InCluster c x
    rw [hg]
    exact hin

/-- **What is known of the part that is left.** -/
theorem CutTo.known (hc : CutTo W s i k v) (h : Good W s) (hcached : Cached s.vol (s.own i) fp data) :
    WriteBack.Meets (Known v.fs.toGeometry ((s.own i).take k) fun x => if x < p then data x else none) fp.line v.store := by
  have hv : Cached v (s.own i) fp data := hcached.congr h hc.changed.geometry hc.changed.store
  refine hv.known.imp fun x sect hx q hq j b hb => hx q (Extent.cell_of_take hq) j b ?_
  replace hb : (if q * 512 + (j : Nat) < p then data (q * 512 + j) else none) = some b := hb
  split at hb
  · exact hb
  · cases hb

/-- The object that is cut at its position. -/
def Fil.cutHere (fp : Fil) (sclust : BitVec 64) : Fil :=
  { fp with obj := { fp.obj with sclust := sclust, objsize := fp.fptr }, flag := fp.flag ||| faModified }

theorem Object.cut {sclust : BitVec 64} (h : Object g l fp f) (h0 : 0 < g.unit)
    (hfirst : sclust.toNat = (l.take (clustersFor g.unit f.pos)).headD 0) :
    Object g (l.take (clustersFor g.unit f.pos)) (fp.cutHere sclust).clean (f.cut g.unit) := by
  have hlen : (l.take (clustersFor g.unit f.pos)).length = clustersFor g.unit f.pos := by
    rw [List.length_take]
    exact Nat.min_eq_left ((clustersFor_le h0).2 (Nat.le_trans h.pos_le h.room))
  refine ⟨h.fs, h.id, h.err, h.opened, ?_, ?_, hlen.symm, hfirst, h.pos, h.pos, Nat.le_refl _, ?_, fun p hp => ?_⟩
  · show _ ↔ ((fp.flag ||| faModified) &&& ~~~faDirty) &&& faRead ≠ 0
    rw [and_clear (by decide), or_set (by decide)]
    exact h.readable
  · show _ ↔ ((fp.flag ||| faModified) &&& ~~~faDirty) &&& faWrite ≠ 0
    rw [and_clear (by decide), or_set (by decide)]
    exact h.writable
  · show f.pos ≤ _
    rw [← clustersFor_le h0, hlen]
  · exact if_neg (Nat.not_lt.2 hp)

theorem cutHere_line (fp : Fil) (sclust : BitVec 64) : (fp.cutHere sclust).line = fp.line := line_modified rfl rfl rfl

/-- **The file that is left**, when the buffer is written back: the cluster in front of the position is still there. -/
theorem CutTo.opened {v₁ v₂ : Vol D} {sclust : BitVec 64} (hcut : CutTo W s i (clustersFor s.vol.fs.unit f.pos) v₁)
    (h : Good W s) (ho : Opened s.vol (s.own i) fp f)
    (hfirst : sclust.toNat = ((s.own i).take (clustersFor s.vol.fs.unit f.pos)).headD 0) (hfs : v₂.fs = v₁.fs)
    (hknown : WriteBack.Meets (Known v₁.fs.toGeometry ((s.own i).take (clustersFor s.vol.fs.unit f.pos))
      fun x => if x < f.pos then f.data x else none) (fp.cutHere sclust).clean.line v₂.store) :
    Opened v₂ ((s.own i).take (clustersFor s.vol.fs.unit f.pos)) (fp.cutHere sclust).clean (f.cut s.vol.fs.unit) := by
  have hu := h.sound.mounted.fits.unit_pos
  have hg₂ : v₂.fs.toGeometry = s.vol.fs.toGeometry := (congrArg FatFs.toGeometry hfs).trans hcut.changed.geometry
  refine ⟨?_, .of_clean (clean_dirty _) (congrArg FatFs.toGeometry hfs) hknown, fun hp => ?_, fun hne => ?_⟩
  · rw [hg₂]
    exact ho.object.cut hu hfirst
  · replace hp : 0 < f.pos := hp
    have hlt : (f.pos - 1) / s.vol.fs.unit < clustersFor s.vol.fs.unit f.pos := by
      rw [clustersFor_pos hu hp]
      exact Nat.lt_succ_self _
    rw [hg₂]
    show ((s.own i).take _)[(f.pos - 1) / s.vol.fs.unit]? = _
    rw [List.getElem?_take_of_lt hlt]
    exact ho.current hp
  · replace hne : f.pos % 512 ≠ 0 := hne
    have hlt : f.pos / 512 / s.vol.fs.csize.toNat < clustersFor s.vol.fs.unit f.pos := by
      rw [← div_unit, ← Nat.not_le, clustersFor_le hu]
      intro hle
      have hmul := mul_unit_mod s.vol.fs.toGeometry (f.pos / s.vol.fs.unit)
      rw [Nat.le_antisymm (Nat.div_mul_le_self ..) hle] at hmul
      exact hne hmul
    rw [hg₂]
    show Extent.cell _ _ ((s.own i).take _) (f.pos / 512) = some (fp.cutHere sclust).line.key
    rw [cutHere_line, Extent.cell_take hlt]
    exact ho.within hne

/-- **`f_truncate` cuts the file at its position.** -/
theorem fTruncate_returns (h : Good W s) (ho : Opened s.vol (s.own i) fp f) :
    Returns (fTruncate s.vol fp) (fun r =>
      Reply.Agrees ⟨r.1, 0, fun _ => 0⟩ (f.serve s.vol.fs.unit s.vol.freeClusters (.truncate i)).1 ∧
      ∃ own, Serves W E s i fp (f.serve s.vol.fs.unit s.vol.freeClusters (.truncate i)).2 own r.2.1 r.2.2) := by
  have hobj := ho.object
  rw [fTruncate, checkValidity_opened h hobj, ok_bind, if_neg (not_not.2 rfl)]
  simp only [File.serve]
  rw [if_neg (not_not.2 hobj.opened)]
  by_cases hw : fp.flag &&& faWrite = 0
  · have hnot : ¬ f.writable = true := fun hx => hobj.writable.1 hx hw
    rw [if_pos hw, if_pos hnot]
    exact ⟨Reply.agrees_bare .denied rfl _, s.own, .refl h, ho, rfl, rfl, .inr ⟨.refl fp, rfl⟩⟩
  have hyes := hobj.writable.2 hw
  rw [if_neg hw, if_neg (not_not.2 hyes)]
  have hiff : fp.obj.objsize > fp.fptr ↔ f.pos < f.size := by rw [gt_iff_lt, BitVec.lt_def, hobj.pos, hobj.size]
  by_cases hlt : f.pos < f.size
  · rw [if_pos (hiff.2 hlt), if_pos hlt]
    refine Sat.bind (truncateChain_returns h ho hlt) ?_
    rintro ⟨res, fp₁, v₁⟩ ⟨rfl, hcut, sclust, hfp, hfirst⟩
    replace hcut : CutTo W s i (clustersFor s.vol.fs.unit f.pos) v₁ := hcut
    replace hfp : fp₁ = fp.moved sclust fp.clust fp.fptr := hfp
    subst hfp
    have hmoves := hcut.moves (E := E) h
    have hline := cutHere_line fp sclust
    have hown : Function.update s.own i ((s.own i).take (clustersFor s.vol.fs.unit f.pos)) i =
        (s.own i).take (clustersFor s.vol.fs.unit f.pos) := Function.update_self ..
    show Sat (writeBack v₁ (fp.cutHere sclust) >>= _) _ _
    refine Sat.bind (writeBack_returns (E := E) (i := i) hmoves.good (fun hd => ?_)
      (hline.symm ▸ hcut.known (p := f.pos) h ho.cached)) ?_
    · rw [hline] at hd ⊢
      obtain ⟨q, hq⟩ := ho.cached.dirty hd
      exact hcut.mine h hq
    rintro ⟨res, fp₂, v₂⟩ ⟨rfl, hfp₂, hfs, hmoves₂, hknown, -⟩
    replace hfp₂ : fp₂ = (fp.cutHere sclust).clean := hfp₂
    replace hfs : v₂.fs = v₁.fs := hfs
    replace hknown : WriteBack.Meets _ (fp.cutHere sclust).clean.line v₂.store := hknown
    subst hfp₂
    refine ⟨Reply.agrees_bare .ok rfl _, _, hmoves.trans hmoves₂, ?_, rfl, rfl, .inl ?_⟩
    · show Opened v₂ (Function.update s.own i _ i) _ _
      rw [hown]
      exact hcut.opened h ho hfirst hfs hknown
    · show ((fp.flag ||| faModified) &&& ~~~faDirty) &&& faModified ≠ 0
      rw [and_clear (by decide), set_self]
      decide
  · rw [if_neg (mt hiff.1 hlt), if_neg hlt]
    exact ⟨Reply.agrees_bare .ok rfl _, s.own, .refl h, ho, rfl, rfl, .inr ⟨.refl fp, rfl⟩⟩

end Fatfs
end CheriOS
