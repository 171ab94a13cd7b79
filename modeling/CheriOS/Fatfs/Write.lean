import CheriOS.Fatfs.Read
/-!
# Write — writing a file (`ff.c`)

`f_write` takes clusters as it comes to the end of the chain, and stops where there are none.  Whole sectors go to the drive
past the buffer, which is refilled if it holds one of them; the rest of the bytes are put into the buffer.
-/
namespace CheriOS
namespace Fatfs

open Outcome Chain

variable {D : Disk} {W : Set Nat} {v v' : Vol D} {s s' : Chains D} {g : Geometry} {l : List Nat} {i n q : Nat}
  {E : Nat → Fin 512 → Prop} {fp fp' fp'' : Fil} {f : File} {data : Nat → Option (BitVec 8)}

/-! ## Stretching the chain -/

theorem freeClusters_full (h : ∀ c, v.fs.Cluster c → v.table c ≠ 0) : v.freeClusters = 0 := by
  unfold Vol.freeClusters freeCount
  rw [Finset.card_eq_zero, Finset.filter_eq_empty_iff]
  exact fun c hc => h c (Geometry.mem_clusters.1 hc)

/-- **The `q`th cluster of a file**: it is there, or it is taken, or there is none left. -/
inductive Next (W : Set Nat) (E : Nat → Fin 512 → Prop) (s : Chains D) (i q : Nat) : BitVec 64 × Vol D → Prop where
  | there (c : BitVec 64) (v : Vol D) : (s.own i)[q]? = some c.toNat → Kept W s.vol v → Next W E s i q (c, v)
  | full (v : Vol D) : q = (s.own i).length → s.vol.freeClusters = 0 → Kept W s.vol v → Next W E s i q (0, v)
  | took (c : BitVec 64) (v : Vol D) : q = (s.own i).length → s.vol.fs.Cluster c.toNat → Changed W s.vol v →
      Moves W E i s ⟨Function.update s.own i (s.own i ++ [c.toNat]), v⟩ → Next W E s i q (c, v)

/-- The chain is begun, or stretched behind its last cluster. -/
theorem Good.create (h : Good W s) (i : Nat) :
    Returns (createChain s.vol (s.tail i)) (Next W E s i (s.own i).length) := by
  obtain ⟨⟨ncl, v⟩, heq, htook⟩ := (h.sound.create i).exists
  have hgrow := h.sound.grow i
  rw [call, heq, ok_bind] at hgrow
  rw [heq]
  rcases htook with ⟨hp, hk, hfull⟩ | ⟨hcn, hfree, hch, htab, -⟩
  · replace hp : ncl = 0 := hp
    subst hp
    exact .full v rfl (freeClusters_full hfull) hk
  · replace hcn : s.vol.fs.Cluster ncl.toNat := hcn
    obtain ⟨-, h0, h1, hF⟩ := cluster_ne h.sound.mounted.fits hcn
    simp only [h0, h1, hF, or_self, if_false] at hgrow
    have hsteps : Steps W s ⟨Function.update s.own i (s.own i ++ [ncl.toNat]), v⟩ := hgrow.1
    refine .took ncl v rfl hcn hch (Moves.of_steps h hsteps (fun j hj => Function.update_of_ne hj ..) ?_)
    have hcount : v.freeClusters + 1 = s.vol.freeClusters := freeClusters_took h.sound hcn hfree hch.geometry htab
    show v.freeClusters + (Function.update s.own i _ i).length = _
    rw [Function.update_self, List.length_append, List.length_singleton]
    omega

/-- **From a cluster of the chain to the next**, which may be new. -/
theorem Good.next (h : Good W s) {c : BitVec 64} (hc : (s.own i)[q]? = some c.toNat) :
    Returns (createChain s.vol c) (Next W E s i (q + 1)) := by
  have hm := h.sound.mounted
  have hcl := h.sound.owns.valid i _ (List.mem_of_getElem? hc)
  rcases (h.sound.owns.linked i).step hc with hnext | ⟨hnone, hend⟩
  · have hn := h.sound.owns.valid i _ (List.mem_of_getElem? hnext)
    refine Sat.mono (createChain_follow hm hcl hn) ?_ (fun _ => id)
    rintro ⟨ncl, v⟩ ⟨hncl, hk⟩
    refine .there ncl v ?_ hk
    rw [show ncl.toNat = _ from hncl]
    exact hnext
  · have hlen : q + 1 = (s.own i).length := by
      have h1 := (List.getElem?_eq_some_iff.1 hc).1
      have h2 := List.getElem?_eq_none_iff.1 hnone
      omega
    have htail : s.tail i = c := by
      unfold Chains.tail
      rw [List.getLast?_eq_getElem?, ← hlen, Nat.add_sub_cancel, hc]
      show BitVec.ofNat 64 c.toNat = c
      rw [BitVec.ofNat_toNat, BitVec.setWidth_eq]
    have hcreate := h.create (E := E) i
    rwa [htail, ← hlen] at hcreate

theorem tail_nil (hl : s.own i = []) : s.tail i = 0 := by
  unfold Chains.tail
  rw [hl]
  rfl

theorem Object.nil_of_zero (ho : Object g l fp f) (hv : ∀ c ∈ l, g.Cluster c) : fp.obj.sclust = 0 ↔ l = [] := by
  have hf := ho.first
  cases l with
  | nil => exact ⟨fun _ => rfl, fun _ => BitVec.eq_of_toNat_eq hf⟩
  | cons c m =>
    refine ⟨fun h0 => ?_, fun hx => absurd hx (List.cons_ne_nil c m)⟩
    have hc := (hv c List.mem_cons_self).1
    rw [h0] at hf
    replace hf : 0 = c := hf
    omega

/-- **The cluster of the position**, which may be new. -/
theorem stretch_returns (h : Good W s) (ho : Opened s.vol (s.own i) fp f) (hbound : f.pos % s.vol.fs.unit = 0) :
    Returns (stretch s.vol fp) (Next W E s i (f.pos / s.vol.fs.unit)) := by
  rw [stretch]
  by_cases h0 : fp.fptr = 0
  · have hp0 : f.pos = 0 := by
      rw [← ho.object.pos, h0]
      rfl
    rw [if_pos h0, hp0, Nat.zero_div]
    by_cases hs0 : fp.obj.sclust = 0
    · have hl := (ho.object.nil_of_zero (h.sound.owns.valid i)).1 hs0
      have hcreate := h.create (E := E) i
      rw [tail_nil hl] at hcreate
      rw [if_pos hs0]
      rwa [hl] at hcreate
    · have hl := mt (ho.object.nil_of_zero (h.sound.owns.valid i)).2 hs0
      rw [if_neg hs0]
      exact .there fp.obj.sclust s.vol (ho.object.first_of_ne hl) (.refl h.sound.mounted)
  · rw [if_neg h0]
    have hp0 : 0 < f.pos := by
      rw [← ho.object.pos]
      exact Nat.pos_of_ne_zero fun he => h0 (BitVec.eq_of_toNat_eq he)
    rw [← div_pred hp0 hbound]
    exact h.next (ho.current hp0)

/-! ## The object while it is written to -/

/-- **What a write leaves of the object**, before it is advanced. -/
structure Written (fp fp' : Fil) : Prop where
  fs : fp'.obj.fs = fp.obj.fs
  id : fp'.obj.id = fp.obj.id
  err : fp'.err = fp.err
  objsize : fp'.obj.objsize = fp.obj.objsize
  fptr : fp'.fptr = fp.fptr
  dirSect : fp'.dirSect = fp.dirSect
  dirPtr : fp'.dirPtr = fp.dirPtr
  read : fp'.flag &&& faRead = fp.flag &&& faRead
  write : fp'.flag &&& faWrite = fp.flag &&& faWrite

namespace Written

theorem refl (fp : Fil) : Written fp fp := ⟨rfl, rfl, rfl, rfl, rfl, rfl, rfl, rfl, rfl⟩

theorem trans (h : Written fp fp') (h' : Written fp' fp'') : Written fp fp'' :=
  ⟨h'.fs.trans h.fs, h'.id.trans h.id, h'.err.trans h.err, h'.objsize.trans h.objsize, h'.fptr.trans h.fptr,
    h'.dirSect.trans h.dirSect, h'.dirPtr.trans h.dirPtr, h'.read.trans h.read, h'.write.trans h.write⟩

theorem of_calm (h : Calm fp fp') (hf : fp'.fptr = fp.fptr) : Written fp fp' :=
  ⟨by rw [h.obj], by rw [h.obj], h.err, by rw [h.obj], hf, h.dirSect, h.dirPtr, h.and_flag (by decide),
    h.and_flag (by decide)⟩

theorem setClust (fp : Fil) (c : BitVec 64) : Written fp (fp.setClust c) := by
  unfold Fil.setClust
  by_cases h : fp.obj.sclust = 0
  · simp only [h, if_true]
    exact ⟨rfl, rfl, rfl, rfl, rfl, rfl, rfl, rfl, rfl⟩
  · simp only [h, if_false]
    exact ⟨rfl, rfl, rfl, rfl, rfl, rfl, rfl, rfl, rfl⟩

end Written

/-- More of the chain is known of nothing more. -/
theorem Cached.longer {l' : List Nat} (h : Cached v l fp data) (hcs : 0 < v.fs.csize.toNat) (hl : l <+: l')
    (hroom : ∀ p, l.length * v.fs.unit ≤ p → data p = none) : Cached v l' fp data := by
  obtain ⟨r, rfl⟩ := hl
  refine ⟨fun hd => ?_, h.known.imp fun x sect hx k hk j b hb => ?_⟩
  · obtain ⟨k, hk⟩ := h.dirty hd
    exact ⟨k, Extent.cell_append hk⟩
  · refine hx k ?_ j b hb
    have hlt : k * 512 + j < l.length * v.fs.unit := by
      by_contra hge
      rw [hroom _ (Nat.not_lt.1 hge)] at hb
      cases hb
    have hdiv : k / v.fs.csize.toNat < l.length := by
      rw [Nat.div_lt_iff_lt_mul hcs]
      have hunit : l.length * v.fs.unit = l.length * v.fs.csize.toNat * 512 := (Nat.mul_assoc ..).symm
      omega
    rwa [Geometry.place, Extent.cell_append_left hdiv] at hk

theorem Object.data_none (ho : Object g l fp f) {x : Nat} (hx : l.length * g.unit ≤ x) : f.data x = none :=
  ho.beyond x (Nat.le_trans ho.room hx)

/-- **The `q`th cluster of the chain is there**, and nothing else is known of the file than before. -/
structure Stretched (W : Set Nat) (E : Nat → Fin 512 → Prop) (s : Chains D) (i q : Nat) (data : Nat → Option (BitVec 8))
    (fp : Fil) (c : BitVec 64) (own : Nat → List Nat) (v : Vol D) : Prop where
  moves : Moves W E i s ⟨own, v⟩
  grown : s.own i <+: own i
  length : (own i).length = max (s.own i).length (q + 1)
  here : (own i)[q]? = some c.toNat
  cached : Cached v (own i) fp data

theorem Next.stretched {c : BitVec 64} (hnext : Next W E s i q (c, v)) (h : Good W s) (hc : Cached s.vol (s.own i) fp data)
    (hbeyond : ∀ x, (s.own i).length * s.vol.fs.unit ≤ x → data x = none) :
    (c = 0 ∧ q = (s.own i).length ∧ s.vol.freeClusters = 0 ∧ Kept W s.vol v) ∨
      ∃ own, Stretched W E s i q data fp c own v := by
  cases hnext with
  | full _ hq hfree hk => exact .inl ⟨rfl, hq, hfree, hk⟩
  | there _ _ hq hk =>
    have hlt := (List.getElem?_eq_some_iff.1 hq).1
    exact .inr ⟨s.own, .of_kept h hk, List.prefix_refl _, by omega, hq, hc.kept h hk⟩
  | took _ _ hq hcl hch hmoves =>
    have hg := hch.geometry
    have hown : Function.update s.own i (s.own i ++ [c.toNat]) i = s.own i ++ [c.toNat] := Function.update_self ..
    refine .inr ⟨_, hmoves, ?_, ?_, ?_, ?_⟩
    · rw [hown]
      exact List.prefix_append ..
    · rw [hown, List.length_append, List.length_singleton, hq]
      omega
    · rw [hown, hq, List.getElem?_concat_length]
    · rw [hown]
      have hcached : Cached v (s.own i) fp data := hc.congr h hg hch.store
      refine hcached.longer ?_ (List.prefix_append ..) fun x hx => ?_
      · rw [hg]
        exact h.sound.mounted.fits.csize_pos
      · rw [hg] at hx
        exact hbeyond x hx

theorem headD_of_first {c : Nat} (h : l[0]? = some c) : l.headD 0 = c := by
  cases l with
  | nil => cases h
  | cons a m => exact Option.some.inj h

theorem headD_of_grown {l' : List Nat} (h : l <+: l') (hne : l ≠ []) : l'.headD 0 = l.headD 0 := by
  obtain ⟨r, rfl⟩ := h
  cases l with
  | nil => exact absurd rfl hne
  | cons a m => rfl

/-- **The cluster of the position is there**, as one of the chain `own i` and as the current one. -/
structure Reached (W : Set Nat) (E : Nat → Fin 512 → Prop) (s : Chains D) (i : Nat) (f : File) (fp fp' : Fil)
    (own : Nat → List Nat) (v : Vol D) : Prop where
  moves : Moves W E i s ⟨own, v⟩
  grown : s.own i <+: own i
  length : (own i).length = max (s.own i).length (f.pos / s.vol.fs.unit + 1)
  written : Written fp fp'
  first : fp'.obj.sclust.toNat = (own i).headD 0
  here : (own i)[f.pos / s.vol.fs.unit]? = some fp'.clust.toNat

theorem Reached.step {own : Nat → List Nat} (h : Reached W E s i f fp fp' own v) (hm : Moves W E i ⟨own, v⟩ ⟨own, v'⟩)
    (hc : Calm fp' fp'') (hf : fp''.fptr = fp'.fptr) (hclust : fp''.clust = fp'.clust) : Reached W E s i f fp fp'' own v' :=
  ⟨h.moves.trans hm, h.grown, h.length, h.written.trans (.of_calm hc hf), by rw [hc.obj]; exact h.first,
    by rw [hclust]; exact h.here⟩

/-- **What is at the cluster boundary**: nothing, where the disk is full; else the cluster of the position. -/
inductive Boundary (W : Set Nat) (E : Nat → Fin 512 → Prop) (s : Chains D) (i : Nat) (fp : Fil) (f : File) :
    Turn × Fil × Vol D → Prop where
  | full (v : Vol D) : f.pos = (s.own i).length * s.vol.fs.unit → s.vol.freeClusters = 0 → Kept W s.vol v →
      Boundary W E s i fp f (.full, fp, v)
  | here (fp' : Fil) (own : Nat → List Nat) (v : Vol D) : Reached W E s i f fp fp' own v → Cached v (own i) fp' f.data →
      Boundary W E s i fp f (.buffered, fp', v)

theorem writeCluster_returns (h : Good W s) (ho : Opened s.vol (s.own i) fp f) {csect : BitVec 32}
    (hcs : csect.toNat = f.pos / 512 % s.vol.fs.csize.toNat) (hsect : f.pos % 512 = 0) :
    Returns (writeCluster s.vol fp csect) (Boundary W E s i fp f) := by
  have hm := h.sound.mounted
  have hmod := mod_unit s.vol.fs.toGeometry f.pos
  have hvalid := h.sound.owns.valid i
  rw [writeCluster]
  by_cases h0 : csect = 0
  · rw [if_pos h0]
    have hz : f.pos / 512 % s.vol.fs.csize.toNat = 0 := by rw [← hcs, h0]; rfl
    have hbound : f.pos % s.vol.fs.unit = 0 := by rw [hmod, hz, hsect, Nat.zero_mul]
    have hpos : f.pos = f.pos / s.vol.fs.unit * s.vol.fs.unit := (Nat.div_mul_cancel (Nat.dvd_of_mod_eq_zero hbound)).symm
    refine Sat.bind (stretch_returns (E := E) h ho hbound) ?_
    rintro ⟨c, v₁⟩ hnext
    rcases hnext.stretched h ho.cached (fun x => ho.object.data_none) with ⟨rfl, hq, hfree, hk⟩ | ⟨own, hstep⟩
    · simp only [if_true]
      exact .full v₁ (hq ▸ hpos) hfree hk
    · have hgood : Good W ⟨own, v₁⟩ := hstep.moves.good
      obtain ⟨-, hc0, hc1, hcF⟩ := cluster_ne hgood.sound.mounted.fits
        (hgood.sound.owns.valid i _ (List.mem_of_getElem? hstep.here))
      simp only [hc0, hc1, hcF, if_false]
      refine .here (fp.setClust c) own v₁ ⟨hstep.moves, hstep.grown, hstep.length, .setClust fp c, ?_, hstep.here⟩
        (hstep.cached.of_line rfl)
      have hnil := ho.object.nil_of_zero hvalid
      unfold Fil.setClust
      by_cases hne : fp.obj.sclust = 0
      · -- the first cluster of all
        have hroom := ho.object.room
        have hle := ho.object.pos_le
        have hhere := hstep.here
        rw [hnil.1 hne, List.length_nil, Nat.zero_mul] at hroom
        rw [show f.pos = 0 by omega, Nat.zero_div] at hhere
        rw [if_pos hne]
        exact (headD_of_first hhere).symm
      · rw [if_neg hne, headD_of_grown hstep.grown (mt hnil.2 hne)]
        exact ho.object.first
  · rw [if_neg h0]
    have hc := here_of_current (mod_unit_ne h0 hcs) ho.current
    have hlt := (List.getElem?_eq_some_iff.1 hc).1
    exact .here fp s.own s.vol ⟨.refl h, List.prefix_refl _, by omega, .refl fp, ho.object.first, hc⟩ ho.cached

/-! ## Writing a part of the cluster -/

/-- `n` bytes of `bs` at `p`. -/
def patched (data : Nat → Option (BitVec 8)) (p n : Nat) (bs : Bytes) : Nat → Option (BitVec 8) :=
  fun x => if p ≤ x ∧ x < p + n then some (bs (x - p)) else data x

/-- A sector that the bytes do not touch. -/
theorem Known.untouched {x p n : Nat} {bs : Bytes} {sect : Sector} (h : Known g l data x sect)
    (hout : ∀ k, g.place l k = some x → k * 512 + 512 ≤ p ∨ p + n ≤ k * 512) : Known g l (patched data p n bs) x sect := by
  intro k hk j b hb
  have hj := j.isLt
  rw [patched, if_neg (by have := hout k hk; omega)] at hb
  exact h k hk j b hb

/-- Sectors that are written from the `q`th of a file on: each has its bytes. -/
theorem known_written {x y m : Nat} (hinj : ∀ k, g.place l k = some y → k = q + (y - x)) (hlo : x ≤ y) (hhi : y < x + m)
    (bs : Bytes) : Known g l (patched data (q * 512) (m * 512) bs) y (sectorOf bs (y - x)) := by
  intro k hk j b hb
  have hj := j.isLt
  have hkq := hinj k hk
  rw [patched, if_pos (by omega)] at hb
  refine Eq.trans ?_ (Option.some.inj hb)
  show bs ((y - x) * 512 + j) = _
  exact congrArg bs (by omega)

/-- And no other is touched. -/
theorem Known.unwritten {x y m : Nat} {bs : Bytes} {sect : Sector} (h : Known g l data y sect)
    (hplace : ∀ j < m, g.place l (q + j) = some (x + j)) (hy : ¬ (x ≤ y ∧ y < x + m)) :
    Known g l (patched data (q * 512) (m * 512) bs) y sect := by
  refine h.untouched fun k hk => ?_
  by_contra hmid
  refine hy ?_
  have hp := hplace (k - q) (by omega)
  rw [Nat.add_sub_cancel' (by omega), hk] at hp
  have := Option.some.inj hp
  omega

/-- Sector offset in the cluster, as `f_write` computes it. -/
theorem csect_write {csize : BitVec 16} (hcs : ∃ k, csize.toNat = 2 ^ k) (fptr : BitVec 64) (hlt : fptr.toNat / 512 < 2 ^ 32) :
    ((fptr / 512).setWidth 32 &&& (csize.setWidth 32 - 1)).toNat = fptr.toNat / 512 % csize.toNat := by
  obtain ⟨k, hk⟩ := hcs
  have hpos := Nat.two_pow_pos k
  have hlt16 := csize.isLt
  have hk16 : k ≤ 16 := (Nat.pow_le_pow_iff_right (by decide)).1 (hk ▸ Nat.le_of_lt hlt16)
  have hmask : csize.setWidth 32 - 1 = BitVec.ofNat 32 (2 ^ k - 1) := by
    apply BitVec.eq_of_toNat_eq
    rw [BitVec.toNat_sub, BitVec.toNat_ofNat, BitVec.toNat_setWidth, hk]
    show (2 ^ 32 - 1 + _) % _ = _
    omega
  have hdiv : ((fptr / 512).setWidth 32).toNat = fptr.toNat / 512 := by
    rw [BitVec.toNat_setWidth]
    exact Nat.mod_eq_of_lt hlt
  rw [hmask, Mask.toNat_and_low (by omega), hdiv, hk]

/-- **Sectors written past the buffer**, which is clean and is refilled if it holds one of them. -/
theorem writeDirect_returns (h : Good W s) (hc : Cached s.vol (s.own i) fp data) (hclean : fp.line.dirty = false)
    {x : BitVec 64} {cc : BitVec 32} {wbuff : Bytes} (hx : s.vol.fs.place (s.own i) q = some x.toNat)
    (h0 : 0 < cc.toNat) (hcc : q % s.vol.fs.csize.toNat + cc.toNat ≤ s.vol.fs.csize.toNat) :
    Returns (writeDirect s.vol fp wbuff x cc) (fun p => p.1 = .direct (512 * cc) ∧
      Moves W E i s { s with vol := p.2.2 } ∧ Calm fp p.2.1 ∧ p.2.1.fptr = fp.fptr ∧ p.2.1.clust = fp.clust ∧
      Cached p.2.2 (s.own i) p.2.1 (patched data (q * 512) (cc.toNat * 512) wbuff)) := by
  have hm := h.sound.mounted
  have hmax := D.sectors_le
  have hplace : ∀ j < cc.toNat, s.vol.fs.place (s.own i) (q + j) = some (x.toNat + j) := fun j hj =>
    Extent.cell_add hx (by omega)
  have hlast := (h.place (hplace (cc.toNat - 1) (by omega))).2.2
  obtain ⟨d, hwrite, hcells⟩ := D.write_served wbuff x cc s.vol.disk (by omega)
  have hstore : ∀ y, sectorOf (D.cells d) y =
      if x.toNat ≤ y ∧ y < x.toNat + cc.toNat then sectorOf wbuff (y - x.toNat) else s.vol.store y := fun y => by
    rw [hcells, sectorOf_memcpy]
    rfl
  have hmoves : Moves W E i s { s with vol := ⟨s.vol.fs, d⟩ } := by
    refine Moves.of_write h fun y hy => ?_
    rw [hstore, if_neg]
    rintro ⟨hlo, hhi⟩
    have hp := hplace (y - x.toNat) (by omega)
    rw [Nat.add_sub_cancel' hlo] at hp
    exact hy (h.place hp).1
  have hin : ∀ y, x.toNat ≤ y → y < x.toNat + cc.toNat →
      Known s.vol.fs.toGeometry (s.own i) (patched data (q * 512) (cc.toNat * 512) wbuff) y (sectorOf wbuff (y - x.toNat)) := by
    intro y hlo hhi
    refine known_written (fun k hk => ?_) hlo hhi wbuff
    have hp := hplace (y - x.toNat) (by omega)
    rw [Nat.add_sub_cancel' hlo] at hp
    exact Extent.cell_inj hm.fits.apart hm.fits.csize_pos (h.sound.owns.nodup i) (h.sound.owns.valid i) hk hp
  have hpast : ∀ fp', (Known s.vol.fs.toGeometry (s.own i) (patched data (q * 512) (cc.toNat * 512) wbuff) fp'.line.key
      fp'.line.val) → fp'.line.dirty = false →
      Cached ⟨s.vol.fs, d⟩ (s.own i) fp' (patched data (q * 512) (cc.toNat * 512) wbuff) := by
    intro fp' hval hd
    refine .of_clean hd rfl (hc.known.past hclean (fun y hy => ?_) hval)
    show Known _ _ _ y (sectorOf (D.cells d) y)
    rw [hstore]
    split
    · rename_i hr
      exact hin y hr.1 hr.2
    · rename_i hr
      exact hy.unwritten hplace hr
  rw [writeDirect]
  simp only [hm.fits.drv, hwrite, ok_bind, ne_eq, not_true_eq_false, if_false]
  by_cases hover : fp.sect - x < cc.setWidth 64
  · obtain ⟨hlo, hhi⟩ := (sub_lt_iff (by omega)).1 hover
    have hoff := sub_mul_512 hlo (by omega)
    rw [if_pos hover, hoff]
    refine ⟨rfl, hmoves, ⟨rfl, rfl, rfl, rfl, .inr rfl⟩, rfl, rfl, hpast _ ?_ (clean_dirty fp)⟩
    have hval : sectorOf (memcpy fp.buf 0 wbuff ((fp.sect.toNat - x.toNat) * 512) (1 * 512)) 0 =
        sectorOf wbuff (fp.sect.toNat - x.toNat) := (sectorOf_memcpy_to ..).trans (if_pos Nat.one_pos)
    show Known _ _ _ fp.sect.toNat (sectorOf (memcpy fp.buf 0 wbuff _ (1 * 512)) 0)
    rw [hval]
    exact hin _ hlo hhi
  · rw [if_neg hover]
    refine ⟨rfl, hmoves, .refl fp, rfl, rfl, hpast _ (hc.known.line.unwritten hplace ?_) hclean⟩
    exact fun hr => hover ((sub_lt_iff (by omega)).2 hr)

/-- **The buffer becomes that of the sector**, filled if bytes of the file are in it. -/
theorem fillBuffer_returns (h : Good W s) (hc : Cached s.vol (s.own i) fp f.data) (hclean : fp.line.dirty = false)
    (hsize : fp.obj.objsize.toNat = f.size) (hpos : fp.fptr.toNat = f.pos) (hsect : f.pos % 512 = 0)
    (hbeyond : ∀ p, f.size ≤ p → f.data p = none) {x : BitVec 64}
    (hx : s.vol.fs.place (s.own i) (f.pos / 512) = some x.toNat) :
    Returns (fillBuffer s.vol fp x) (fun p => p.1 = .buffered ∧ p.2.2 = s.vol ∧ Calm fp p.2.1 ∧ p.2.1.fptr = fp.fptr ∧
      p.2.1.clust = fp.clust ∧ p.2.1.sect = x ∧ Cached s.vol (s.own i) p.2.1 f.data) := by
  have hm := h.sound.mounted
  rw [fillBuffer]
  by_cases hne : fp.sect ≠ x ∧ fp.fptr < fp.obj.objsize
  · have hread := D.read_served fp.buf x 1 s.vol.disk (h.place hx).2.2
    rw [if_pos hne]
    simp only [hm.fits.drv, hread, ok_bind, ne_eq, not_true_eq_false, if_false]
    have hval := read_sector s.vol.disk fp.buf x
    generalize memcpy fp.buf 0 (D.cells s.vol.disk) _ _ = buf at hval ⊢
    refine ⟨rfl, rfl, ⟨rfl, rfl, rfl, rfl, .inl rfl⟩, rfl, rfl, rfl, ?_⟩
    exact .of_clean hclean rfl (hc.known.load hclean hval)
  · rw [if_neg hne]
    refine ⟨rfl, rfl, ⟨rfl, rfl, rfl, rfl, .inl rfl⟩, rfl, rfl, rfl, ?_⟩
    refine .of_clean hclean rfl (hc.known.past hclean (fun _ => id) ?_)
    show Known _ _ _ x.toNat (sectorOf fp.buf 0)
    by_cases he : fp.sect = x
    · rw [← he]
      exact hc.known.line
    · -- nothing of the file is in the sector
      intro k hk j b hb
      have hge : f.size ≤ f.pos := by
        rw [← hsize, ← hpos]
        exact Nat.not_lt.1 fun hlt => hne ⟨he, hlt⟩
      have hkq := Extent.cell_inj hm.fits.apart hm.fits.csize_pos (h.sound.owns.nodup i) (h.sound.owns.valid i) hk hx
      rw [hbeyond _ (by omega)] at hb
      cases hb

/-- **What `f_write` has at the sector boundary**, or in front of the rest of a sector: nothing, where the disk is full; the
whole sectors up to the end of the cluster, which are written; or the sector of the position in the buffer. -/
inductive WriteSector (W : Set Nat) (E : Nat → Fin 512 → Prop) (s : Chains D) (i : Nat) (fp : Fil) (f : File)
    (wbuff : Bytes) (btw : BitVec 32) : Turn × Fil × Vol D → Prop where
  | full (v : Vol D) : f.pos = (s.own i).length * s.vol.fs.unit → s.vol.freeClusters = 0 → Kept W s.vol v →
      WriteSector W E s i fp f wbuff btw (.full, fp, v)
  | direct (cc : BitVec 32) (fp' : Fil) (own : Nat → List Nat) (v : Vol D) : f.pos % 512 = 0 → 0 < cc.toNat →
      cc.toNat * 512 ≤ btw.toNat → f.pos / 512 % s.vol.fs.csize.toNat + cc.toNat ≤ s.vol.fs.csize.toNat →
      Reached W E s i f fp fp' own v → Cached v (own i) fp' (patched f.data f.pos (cc.toNat * 512) wbuff) →
      WriteSector W E s i fp f wbuff btw (.direct (512 * cc), fp', v)
  | buffered (fp' : Fil) (own : Nat → List Nat) (v : Vol D) : v.fs.place (own i) (f.pos / 512) = some fp'.line.key →
      Reached W E s i f fp fp' own v → Cached v (own i) fp' f.data →
      WriteSector W E s i fp f wbuff btw (.buffered, fp', v)

theorem writeSector_returns (h : Good W s) (ho : Opened s.vol (s.own i) fp f) {wbuff : Bytes} {btw : BitVec 32}
    (h0 : 0 < btw.toNat) : Returns (writeSector s.vol fp wbuff btw) (WriteSector W E s i fp f wbuff btw) := by
  have hm := h.sound.mounted
  have hpos := ho.object.pos
  have hroom := h.room_lt ho.object.room
  have hle := ho.object.pos_le
  have hmod := mod_unit s.vol.fs.toGeometry f.pos
  rw [writeSector]
  by_cases h512 : fp.fptr % 512 = 0
  · have hsect : f.pos % 512 = 0 := hpos ▸ (mod_512_iff _).1 h512
    have hcs := csect_write hm.fits.csize fp.fptr (by omega)
    rw [hpos] at hcs
    rw [if_pos h512]
    dsimp only
    generalize ((fp.fptr / 512).setWidth 32 &&& (s.vol.fs.csize.setWidth 32 - 1)) = csect at hcs ⊢
    refine Sat.bind (writeCluster_returns (E := E) h ho hcs hsect) ?_
    rintro ⟨t, fp₁, v₁⟩ hb
    cases hb with
    | full _ hp hfree hk =>
      simp only [ne_eq, reduceCtorEq, not_false_eq_true, if_true]
      exact .full v₁ hp hfree hk
    | here _ own _ hr hcached =>
      have hgood : Good W ⟨own, v₁⟩ := hr.moves.good
      have hg : v₁.fs.toGeometry = s.vol.fs.toGeometry := hr.moves.geometry
      simp only [ne_eq, not_true_eq_false, if_false]
      refine Sat.bind (writeBack_returns (E := E) hgood (fun hd => hcached.mine hgood hd) hcached.known) ?_
      rintro ⟨res, fp₂, v₂⟩ ⟨rfl, hfp, hfs, hmoves, hknown, -⟩
      replace hfp : fp₂ = fp₁.clean := hfp
      subst hfp
      replace hfs : v₂.fs = v₁.fs := hfs
      have hg₂ : v₂.fs.toGeometry = s.vol.fs.toGeometry := by rw [hfs, hg]
      have hgood₂ : Good W ⟨own, v₂⟩ := hmoves.good
      have hr₂ : Reached W E s i f fp fp₁.clean own v₂ := hr.step hmoves (.clean fp₁) rfl rfl
      have hclean : fp₁.clean.line.dirty = false := clean_dirty fp₁
      have hcached₂ : Cached v₂ (own i) fp₁.clean f.data :=
        .of_clean hclean (congrArg FatFs.toGeometry hfs) hknown
      have hpos₂ : fp₁.clean.fptr.toNat = f.pos := by
        rw [hr₂.written.fptr]
        exact hpos
      obtain ⟨hnz, hplace⟩ := hgood₂.sect (p := f.pos) (c := fp₁.clean.clust) (m := csect.setWidth 64) (by
        show (own i)[f.pos / v₂.fs.unit]? = _
        rw [hg₂]
        exact hr₂.here) (by
        show _ = f.pos / 512 % v₂.fs.csize.toNat
        rw [hg₂]
        exact hcs)
      replace hnz : clust2sect v₂.fs fp₁.clean.clust ≠ 0 := hnz
      simp only [not_true_eq_false, if_false, hnz]
      by_cases hcc : btw / 512 = 0
      · simp only [hcc, not_true_eq_false, if_false]
        refine Sat.mono (fillBuffer_returns hgood₂ hcached₂ hclean (by rw [hr₂.written.objsize]; exact ho.object.size) hpos₂
          hsect ho.object.beyond hplace) ?_ (fun _ => id)
        rintro ⟨t, fp₃, v₃⟩ ⟨rfl, hv, hcalm, hfptr, hclust, hsect₃, hcached₃⟩
        replace hv : v₃ = v₂ := hv
        subst hv
        replace hsect₃ : fp₃.sect = _ := hsect₃
        refine .buffered fp₃ own v₃ (hplace.trans ?_) (hr₂.step (.refl hgood₂) hcalm hfptr hclust) hcached₃
        rw [← hsect₃]
        rfl
      · have hpos32 : 0 < (btw / 512).toNat := Nat.pos_of_ne_zero fun he => hcc (BitVec.eq_of_toNat_eq he)
        have hdiv : (btw / 512).toNat = btw.toNat / 512 := rfl
        have hbtw := btw.isLt
        have hmodlt := Nat.mod_lt (f.pos / 512) hm.fits.csize_pos
        have hcont := contiguous_toNat v₂.fs csect (btw / 512) (by rw [hg₂]; omega) (by omega)
        rw [hg₂] at hcont
        simp only [hcc, not_false_eq_true, if_true]
        generalize contiguous v₂.fs csect (btw / 512) = cc at hcont ⊢
        refine Sat.mono (writeDirect_returns (E := E) hgood₂ hcached₂ hclean hplace (by omega) (by
          show f.pos / 512 % v₂.fs.csize.toNat + _ ≤ v₂.fs.csize.toNat
          rw [hg₂]
          omega)) ?_ (fun _ => id)
        rintro ⟨t, fp₃, v₃⟩ ⟨rfl, hmoves₃, hcalm, hfptr, hclust, hcached₃⟩
        replace hcached₃ : Cached v₃ (own i) fp₃ (patched f.data (f.pos / 512 * 512) (cc.toNat * 512) wbuff) := hcached₃
        rw [show f.pos / 512 * 512 = f.pos by omega] at hcached₃
        exact .direct cc fp₃ own v₃ hsect (by omega) (by omega) (by omega) (hr₂.step hmoves₃ hcalm hfptr hclust) hcached₃
  · have hsect : f.pos % 512 ≠ 0 := hpos ▸ mt (mod_512_iff _).2 h512
    have hc := here_of_current (l := s.own i) (by rw [hmod]; omega) ho.current
    have hlt := (List.getElem?_eq_some_iff.1 hc).1
    rw [if_neg h512]
    exact .buffered fp s.own s.vol (ho.within hsect)
      ⟨.refl h, List.prefix_refl _, by omega, .refl fp, ho.object.first, hc⟩ ho.cached

theorem clustersFor_le {u n m : Nat} (hu : 0 < u) : clustersFor u n ≤ m ↔ n ≤ m * u := by
  rw [clustersFor, ← Nat.lt_succ_iff, Nat.div_lt_iff_lt_mul hu, Nat.succ_mul]
  omega

/-- So many clusters the bytes of one more cluster take. -/
theorem clustersFor_here {u p m : Nat} (h0 : 0 < m) (hm : p % u + m ≤ u) : clustersFor u (p + m) = p / u + 1 := by
  have hu : 0 < u := by omega
  have hdm := Nat.div_add_mod' p u
  refine Nat.le_antisymm ((clustersFor_le hu).2 (by rw [Nat.succ_mul]; omega)) ?_
  rw [Nat.succ_le_iff, ← Nat.not_le, clustersFor_le hu]
  omega

/-- **The object is advanced**, over bytes of the cluster of the position. -/
theorem Reached.advance {own : Nat → List Nat} (h : Good W s) (ho : Opened s.vol (s.own i) fp f)
    (hr : Reached W E s i f fp fp' own v) {m : BitVec 32} {wbuff : Bytes} (h0 : 0 < m.toNat)
    (hm : f.pos % s.vol.fs.unit + m.toNat ≤ s.vol.fs.unit)
    (hc : Cached v (own i) fp' (patched f.data f.pos m.toNat wbuff))
    (hin : (f.pos + m.toNat) % 512 ≠ 0 → s.vol.fs.place (own i) ((f.pos + m.toNat) / 512) = some fp'.line.key) :
    Opened v (own i) (fp'.advance m) (f.write s.vol.fs.unit wbuff m.toNat) := by
  have hw := hr.written
  have hu := h.sound.mounted.fits.unit_pos
  have hroom := ho.object.room
  have hlt := h.room_lt hroom
  have hmlt := m.isLt
  have hle := ho.object.pos_le
  have hg : v.fs.toGeometry = s.vol.fs.toGeometry := hr.moves.geometry
  have hfptr : (fp'.fptr + m.setWidth 64).toNat = f.pos + m.toNat := by
    have hwidth : (m.setWidth 64).toNat = m.toNat := BitVec.toNat_setWidth_of_le (by decide)
    rw [BitVec.toNat_add, hw.fptr, ho.object.pos, hwidth]
    omega
  have hsize : (if fp'.fptr + m.setWidth 64 > fp'.obj.objsize then fp'.fptr + m.setWidth 64 else fp'.obj.objsize).toNat =
      max f.size (f.pos + m.toNat) := by
    have hobj : fp'.obj.objsize.toNat = f.size := by
      rw [hw.objsize]
      exact ho.object.size
    split
    · rename_i hgt
      rw [gt_iff_lt, BitVec.lt_def, hfptr, hobj] at hgt
      omega
    · rename_i hge
      rw [gt_iff_lt, BitVec.lt_def, hfptr, hobj] at hge
      omega
  have hdm := Nat.div_add_mod' f.pos s.vol.fs.unit
  have hlen : f.pos + m.toNat ≤ (own i).length * s.vol.fs.unit := by
    have hmul := Nat.mul_le_mul_right s.vol.fs.unit (show f.pos / s.vol.fs.unit + 1 ≤ (own i).length by rw [hr.length]; omega)
    rw [Nat.succ_mul] at hmul
    omega
  have hmono := Nat.mul_le_mul_right s.vol.fs.unit (show (s.own i).length ≤ (own i).length by rw [hr.length]; omega)
  refine ⟨?_, hc.of_line rfl, fun _ => ?_, ?_⟩
  · rw [hg]
    refine ⟨hw.fs.trans ho.object.fs, hw.id.trans ho.object.id, hw.err.trans ho.object.err, ho.object.opened, ?_, ?_, ?_,
      hr.first, hsize, hfptr, Nat.le_max_right .., Nat.max_le.2 ⟨Nat.le_trans hroom hmono, hlen⟩, fun p hp => ?_⟩
    · show f.readable = true ↔ fp'.flag &&& faRead ≠ 0
      rw [hw.read]
      exact ho.object.readable
    · show f.writable = true ↔ fp'.flag &&& faWrite ≠ 0
      rw [hw.write]
      exact ho.object.writable
    · show max f.clusters (clustersFor _ _) = _
      rw [ho.object.clusters, clustersFor_here h0 hm, hr.length]
    · replace hp : max f.size (f.pos + m.toNat) ≤ p := hp
      show (if _ then _ else _) = _
      rw [if_neg (by omega)]
      exact ho.object.beyond p (by omega)
  · rw [hg]
    exact here_advance hr.here h0 hm
  · rw [hg]
    exact hin

/-- **What a turn of the loop leaves**: the file with more bytes written, or as it was where the disk is full. -/
inductive WriteTurn (W : Set Nat) (E : Nat → Fin 512 → Prop) (s : Chains D) (i : Nat) (fp : Fil) (f : File)
    (wbuff : Bytes) (btw : BitVec 32) : Turn × Fil × Vol D → Prop where
  | full (v : Vol D) : f.pos = (s.own i).length * s.vol.fs.unit → s.vol.freeClusters = 0 → Kept W s.vol v →
      WriteTurn W E s i fp f wbuff btw (.full, fp, v)
  | moved (m : BitVec 32) (fp' : Fil) (own : Nat → List Nat) (v : Vol D) : 0 < m.toNat → m.toNat ≤ btw.toNat →
      Moves W E i s ⟨own, v⟩ → s.own i <+: own i → fp'.dirSect = fp.dirSect → fp'.dirPtr = fp.dirPtr →
      Opened v (own i) (fp'.advance m) (f.write s.vol.fs.unit wbuff m.toNat) →
      WriteTurn W E s i fp f wbuff btw (.direct m, fp', v)

theorem writeTurn_returns (h : Good W s) (ho : Opened s.vol (s.own i) fp f) {wbuff : Bytes} {btw : BitVec 32}
    (h0 : 0 < btw.toNat) : Returns (writeTurn s.vol fp wbuff btw) (WriteTurn W E s i fp f wbuff btw) := by
  have hm := h.sound.mounted
  have hmodlt := Nat.mod_lt (f.pos / 512) hm.fits.csize_pos
  rw [writeTurn]
  refine Sat.bind (writeSector_returns (E := E) h ho h0) ?_
  rintro ⟨t, fp₁, v₁⟩ hsector
  cases hsector with
  | full _ hp hfree hk =>
    simp only [reduceCtorEq, if_false]
    exact .full v₁ hp hfree hk
  | direct cc _ own _ hsect hcc0 hcc hclip hr hcached =>
    have hbtw := btw.isLt
    have hcnt : (512 * cc).toNat = cc.toNat * 512 := by
      rw [BitVec.toNat_mul]
      show 512 * cc.toNat % 2 ^ 32 = _
      omega
    rw [← hcnt] at hcached
    simp only [reduceCtorEq, if_false]
    refine .moved (512 * cc) fp₁ own v₁ (by omega) (by omega) hr.moves hr.grown hr.written.dirSect hr.written.dirPtr
      (hr.advance h ho (by omega) (in_unit hclip (by omega)) hcached fun hne => absurd hne (by omega))
  | buffered _ own _ hplace hr hcached =>
    have hg : v₁.fs.toGeometry = s.vol.fs.toGeometry := hr.moves.geometry
    have hgood : Good W ⟨own, v₁⟩ := hr.moves.good
    have hpos₁ : fp₁.fptr.toNat = f.pos := by
      rw [hr.written.fptr]
      exact ho.object.pos
    have hrest := rest_toNat fp₁.fptr btw
    rw [hpos₁] at hrest
    simp only [if_true]
    generalize rest fp₁.fptr btw = m at hrest ⊢
    rw [hpos₁]
    have hinj : ∀ {k}, v₁.fs.place (own i) k = some fp₁.line.key → k = f.pos / 512 := fun hk =>
      Extent.cell_inj hgood.sound.mounted.fits.apart hgood.sound.mounted.fits.csize_pos (hgood.sound.owns.nodup i)
        (hgood.sound.owns.valid i) hk hplace
    have hwritten : Written fp₁ { fp₁ with
        buf := memcpy fp₁.buf (f.pos % 512) wbuff 0 m.toNat, flag := fp₁.flag ||| faDirty } :=
      ⟨rfl, rfl, rfl, rfl, rfl, rfl, rfl, or_set (by decide), or_set (by decide)⟩
    have hr' : Reached W E s i f fp { fp₁ with
        buf := memcpy fp₁.buf (f.pos % 512) wbuff 0 m.toNat, flag := fp₁.flag ||| faDirty } own v₁ :=
      ⟨hr.moves, hr.grown, hr.length, hr.written.trans hwritten, hr.first, hr.here⟩
    refine .moved m _ own v₁ (by omega) (by omega) hr.moves hr.grown hr.written.dirSect hr.written.dirPtr
      (hr'.advance h ho (by omega) (in_unit (c := 1) hmodlt (by omega)) ⟨fun _ => ⟨_, hplace⟩, ?_⟩ fun hne => ?_)
    · refine hcached.known.edit (fun _ => rfl) ?_ (fun y sect hy hknown => ?_) ?_
      · rw [line_dirty, set_self]
        decide
      · refine hknown.untouched fun k hk => ?_
        have hne : k ≠ f.pos / 512 := by
          rintro rfl
          rw [hplace] at hk
          exact hy (Option.some.inj hk).symm
        omega
      · intro k hk j b hb
        have hkq := hinj hk
        subst hkq
        have hj := j.isLt
        show memcpy fp₁.buf (f.pos % 512) wbuff 0 m.toNat (0 * 512 + j) = b
        rw [memcpy]
        rw [patched] at hb
        split at hb
        · rename_i hin
          rw [if_pos (by omega)]
          refine Eq.trans (congrArg wbuff ?_) (Option.some.inj hb)
          omega
        · rename_i hout
          rw [if_neg (by omega)]
          exact hcached.known.line _ hplace j b hb
    · rw [show (f.pos + m.toNat) / 512 = f.pos / 512 by omega, ← hg]
      exact hplace

/-! ## The call -/

theorem write_zero {u : Nat} (hu : 0 < u) (bs : Bytes) (hp : f.pos ≤ f.size) (hc : f.pos ≤ f.clusters * u) :
    f.write u bs 0 = f := by
  have hclusters : max f.clusters (clustersFor u f.pos) = f.clusters := Nat.max_eq_left ((clustersFor_le hu).2 hc)
  have hdata : (fun p => if f.pos ≤ p ∧ p < f.pos + 0 then some (bs (p - f.pos)) else f.data p) = f.data := by
    funext p
    rw [if_neg (by omega)]
  unfold File.write
  rw [hdata, Nat.add_zero, hclusters, Nat.max_eq_left hp]

/-- **Some bytes and then more are all of them.** -/
theorem write_write {u : Nat} (hu : 0 < u) (bs : Bytes) (m k : Nat) :
    (f.write u bs m).write u (bs.skip m) k = f.write u bs (m + k) := by
  have hclusters : max (max f.clusters (clustersFor u (f.pos + m))) (clustersFor u (f.pos + m + k)) =
      max f.clusters (clustersFor u (f.pos + (m + k))) := by
    have hmono : clustersFor u (f.pos + m) ≤ clustersFor u (f.pos + (m + k)) := by
      rw [clustersFor_le hu]
      have := (clustersFor_le (n := f.pos + (m + k)) hu).1 (Nat.le_refl _)
      omega
    rw [Nat.add_assoc]
    omega
  have hsize : max (max f.size (f.pos + m)) (f.pos + m + k) = max f.size (f.pos + (m + k)) := by omega
  unfold File.write
  dsimp only
  rw [hclusters, hsize, Nat.add_assoc]
  congr 1
  funext p
  by_cases hp : f.pos + m ≤ p ∧ p < f.pos + (m + k)
  · rw [if_pos hp, if_pos (by omega), Bytes.skip]
    exact congrArg (fun x => some (bs x)) (by omega)
  · rw [if_neg hp]
    by_cases hlow : f.pos ≤ p ∧ p < f.pos + m
    · rw [if_pos hlow, if_pos (by omega)]
    · rw [if_neg hlow, if_neg (by omega)]

/-- **The loop writes the rest**, as far as there is room. -/
theorem writeLoop_returns {n : Nat} {buff : Bytes} {btw bw : BitVec 32} (h : Good W s)
    (ho : Opened s.vol (s.own i) fp f) (hn : btw.toNat < n) (hbw : bw.toNat + btw.toNat < 2 ^ 32) {k : Nat}
    (hk : k = min btw.toNat (((s.own i).length + s.vol.freeClusters) * s.vol.fs.unit - f.pos)) :
    Returns (writeLoop n s.vol fp buff btw bw) (fun p => ∃ own, p.1 = .ok ∧ p.2.1.toNat = bw.toNat + k ∧
      Moves W E i s ⟨own, p.2.2.2⟩ ∧ s.own i <+: own i ∧ p.2.2.1.dirSect = fp.dirSect ∧ p.2.2.1.dirPtr = fp.dirPtr ∧
      Opened p.2.2.2 (own i) p.2.2.1 (f.write s.vol.fs.unit (buff.skip bw.toNat) k)) := by
  induction n generalizing s fp f btw bw k with
  | zero => exact absurd hn (Nat.not_lt_zero _)
  | succ n ih =>
    have hu := h.sound.mounted.fits.unit_pos
    have hroom : f.pos ≤ f.clusters * s.vol.fs.unit := by
      rw [ho.object.clusters]
      exact Nat.le_trans ho.object.pos_le ho.object.room
    have hzero := write_zero hu (buff.skip bw.toNat) ho.object.pos_le hroom
    rw [writeLoop]
    by_cases h0 : btw = 0
    · subst h0
      have hk0 : k = 0 := by rw [hk]; exact Nat.zero_min _
      subst hk0
      rw [if_pos rfl]
      refine ⟨s.own, rfl, rfl, .refl h, List.prefix_refl _, rfl, rfl, ?_⟩
      rw [hzero]
      exact ho
    · have hpos : 0 < btw.toNat := Nat.pos_of_ne_zero fun he => h0 (BitVec.eq_of_toNat_eq he)
      rw [if_neg h0]
      refine Sat.bind (writeTurn_returns (E := E) h ho hpos) ?_
      rintro ⟨t, fp₁, v₁⟩ hturn
      cases hturn with
      | full _ hp hfree hkept =>
        have hk0 : k = 0 := by
          rw [hk, hfree, Nat.add_zero, ← hp, Nat.sub_self]
          exact Nat.min_zero _
        subst hk0
        refine ⟨s.own, rfl, rfl, .of_kept h hkept, List.prefix_refl _, rfl, rfl, ?_⟩
        rw [hzero]
        show Opened v₁ (s.own i) fp f
        have hobj := ho.object
        have hcur := ho.current
        have hin := ho.within
        rw [← hkept.geometry] at hobj hcur hin
        exact ⟨hobj, ho.cached.kept h hkept, hcur, hin⟩
      | moved m _ own _ hm0 hmle hmoves hgrown hsect hptr ho₁ =>
        have hgood : Good W ⟨own, v₁⟩ := hmoves.good
        have hg : v₁.fs.toGeometry = s.vol.fs.toGeometry := hmoves.geometry
        have hspace : v₁.freeClusters + (own i).length = s.vol.freeClusters + (s.own i).length := hmoves.space
        have hsub : (btw - m).toNat = btw.toNat - m.toNat := by
          rw [BitVec.toNat_sub]
          omega
        have hadd : (bw + m).toNat = bw.toNat + m.toNat := by
          rw [BitVec.toNat_add]
          omega
        have hend : f.pos + m.toNat ≤ ((s.own i).length + s.vol.freeClusters) * s.vol.fs.unit := by
          have h1 := ho₁.object.pos_le
          have h2 := ho₁.object.room
          rw [hg] at h2
          have h3 := Nat.mul_le_mul_right s.vol.fs.unit
            (show (own i).length ≤ (s.own i).length + s.vol.freeClusters by omega)
          exact Nat.le_trans (Nat.le_trans h1 h2) h3
        have hk' : k - m.toNat = min (btw - m).toNat (((own i).length + v₁.freeClusters) * v₁.fs.unit -
            (f.write s.vol.fs.unit (buff.skip bw.toNat) m.toNat).pos) := by
          rw [hsub, hg, show (own i).length + v₁.freeClusters = (s.own i).length + s.vol.freeClusters by omega]
          show _ = min _ (_ - (f.pos + m.toNat))
          omega
        refine Sat.mono (ih (s := ⟨own, v₁⟩) hgood ho₁ (by omega) (by omega) hk') ?_
          (fun _ => id)
        rintro ⟨res, bw', fp₂, v₂⟩ ⟨own₂, rfl, hbw', hmoves₂, hgrown₂, hsect₂, hptr₂, ho₂⟩
        replace hbw' : bw'.toNat = (bw + m).toNat + (k - m.toNat) := hbw'
        replace ho₂ : Opened v₂ (own₂ i) fp₂ ((f.write s.vol.fs.unit (buff.skip bw.toNat) m.toNat).write v₁.fs.unit
          (buff.skip (bw + m).toNat) (k - m.toNat)) := ho₂
        have hskip : buff.skip (bw + m).toNat = (buff.skip bw.toNat).skip m.toNat := by
          funext x
          rw [hadd]
          exact congrArg buff (Nat.add_assoc ..)
        have hmk : m.toNat + (k - m.toNat) = k := by omega
        rw [hg, hskip, write_write hu, hmk] at ho₂
        refine ⟨own₂, rfl, by show bw'.toNat = _; omega, hmoves.trans hmoves₂, hgrown.trans hgrown₂, hsect₂.trans hsect,
          hptr₂.trans hptr, ho₂⟩

/-- **`f_write` writes the file**, at its position and as many bytes as are given or as there is room for. -/
theorem fWrite_returns (h : Good W s) (ho : Opened s.vol (s.own i) fp f) (buff : Bytes) (btw : BitVec 32) :
    Returns (fWrite s.vol fp buff btw) (fun p =>
      Reply.Agrees ⟨p.1, p.2.1.toNat, fun _ => 0⟩ (f.serve s.vol.fs.unit s.vol.freeClusters (.write i buff btw)).1 ∧
      ∃ own, Serves W E s i fp (f.serve s.vol.fs.unit s.vol.freeClusters (.write i buff btw)).2 own p.2.2.1 p.2.2.2) := by
  rw [fWrite, checkValidity_opened h ho.object, ok_bind, if_neg (not_not.2 rfl)]
  simp only [File.serve]
  rw [if_neg (not_not.2 ho.object.opened)]
  by_cases hw : fp.flag &&& faWrite = 0
  · have hnot : ¬ f.writable = true := fun hx => ho.object.writable.1 hx hw
    rw [if_pos hw, if_pos hnot]
    exact ⟨Reply.agrees_bare .denied rfl _, s.own, .refl h, ho, rfl, rfl, .inr ⟨.refl fp, rfl⟩⟩
  · have hyes := ho.object.writable.2 hw
    have hroom := h.room_lt ho.object.room
    have hle := ho.object.pos_le
    have hlt := btw.isLt
    rw [if_neg hw, if_neg (not_not.2 hyes), ho.object.clusters]
    -- the position is far from where it would wrap
    have hwrap : ¬ fp.fptr + btw.setWidth 64 < fp.fptr := by
      have hwidth : (btw.setWidth 64).toNat = btw.toNat := BitVec.toNat_setWidth_of_le (by decide)
      rw [BitVec.lt_def, BitVec.toNat_add, ho.object.pos, hwidth]
      omega
    simp only [hwrap, if_false]
    refine Sat.bind (writeLoop_returns (E := E) h ho (Nat.lt_succ_self _)
      (by show 0 + _ < _; omega) rfl) ?_
    rintro ⟨res, bw, fp₁, v₁⟩ ⟨own, rfl, hbw, hmoves, hgrown, hsect, hptr, ho₁⟩
    have hskip : buff.skip (0 : BitVec 32).toNat = buff := by
      funext x
      exact congrArg buff (Nat.zero_add x)
    rw [hskip] at ho₁
    replace ho₁ : Opened v₁ (own i) fp₁ _ := ho₁
    refine ⟨Reply.agrees_bare .ok (hbw.trans (Nat.zero_add _)) _, own, hmoves, ?_, hsect, hptr, .inl ?_⟩
    · have hobj := ho₁.object
      refine ⟨⟨hobj.fs, hobj.id, hobj.err, hobj.opened, ?_, ?_, hobj.clusters, hobj.first, hobj.size, hobj.pos, hobj.pos_le,
        hobj.room, hobj.beyond⟩, ho₁.cached.of_line ?_, ho₁.current, ho₁.within⟩
      · show _ ↔ (fp₁.flag ||| faModified) &&& faRead ≠ 0
        rw [or_set (by decide)]
        exact hobj.readable
      · show _ ↔ (fp₁.flag ||| faModified) &&& faWrite ≠ 0
        rw [or_set (by decide)]
        exact hobj.writable
      · exact line_modified rfl rfl rfl
    · show (fp₁.flag ||| faModified) &&& faModified ≠ 0
      rw [set_self]
      decide

end Fatfs
end CheriOS
