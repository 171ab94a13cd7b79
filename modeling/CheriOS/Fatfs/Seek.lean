import CheriOS.Fatfs.Write
/-!
# Seek — moving the position (`ff.c`)

`f_lseek` follows the chain cluster by cluster, and stretches it in write mode; where the disk is full it stops.
-/
namespace CheriOS
namespace Fatfs

open Outcome Chain

variable {D : Disk} {W : Set Nat} {v v' : Vol D} {s s' : Chains D} {g : Geometry} {l : List Nat} {i n p q : Nat}
  {E : Nat → Fin 512 → Prop} {fp fp' fp'' : Fil} {f : File} {data : Nat → Option (BitVec 8)}

/-! ## Following the chain -/

theorem bcs_toNat (fs : FatFs) : fs.bcs.toNat = fs.unit := by
  have hcs : (fs.csize.setWidth 64).toNat = fs.csize.toNat := BitVec.toNat_setWidth_of_le (by decide)
  have hlt := fs.csize.isLt
  rw [FatFs.bcs, BitVec.toNat_mul, hcs]
  show _ * 512 % _ = _
  rw [Geometry.unit]
  omega

theorem mul_unit_mod (g : Geometry) (q : Nat) : q * g.unit % 512 = 0 := by
  rw [Geometry.unit, ← Nat.mul_assoc]
  exact Nat.mul_mod_left ..

theorem unit_mod (g : Geometry) : g.unit % 512 = 0 := Nat.mul_mod_left ..

theorem add_unit_mod (g : Geometry) (q x : Nat) : (q * g.unit + x) % 512 = x % 512 := by
  rw [Nat.add_mod, mul_unit_mod, Nat.zero_add, Nat.mod_mod]

/-- The object at another place of the chain. -/
def Fil.moved (fp : Fil) (sclust clust fptr : BitVec 64) : Fil :=
  { fp with obj := { fp.obj with sclust := sclust }, clust := clust, fptr := fptr }

/-- **The position `p` is reached**, with the clusters that are in front of it. -/
structure Sought (W : Set Nat) (E : Nat → Fin 512 → Prop) (s : Chains D) (i : Nat) (data : Nat → Option (BitVec 8)) (p : Nat)
    (fp : Fil) (own : Nat → List Nat) (v : Vol D) : Prop where
  moves : Moves W E i s ⟨own, v⟩
  grown : s.own i <+: own i
  length : (own i).length = max (s.own i).length (clustersFor s.vol.fs.unit p)
  cached : Cached v (own i) fp data
  current : 0 < p → (own i)[(p - 1) / s.vol.fs.unit]? = some fp.clust.toNat

theorem Sought.reach {own : Nat → List Nat} (hs : Sought W E s i data p fp own v) (hu : 0 < s.vol.fs.unit) :
    p ≤ (own i).length * s.vol.fs.unit := by
  rw [← clustersFor_le hu, hs.length]
  exact Nat.le_max_right ..

/-- Up to the end of the cluster that `clust` is at there is nothing to stretch. -/
theorem Sought.here (h : Good W s) {v : Vol D} (hk : Kept W s.vol v) (hc : Cached s.vol (s.own i) fp data)
    (hq : (s.own i)[q]? = some fp.clust.toNat) {o : Nat} (h0 : 0 < o) (ho : o ≤ s.vol.fs.unit) :
    Sought W E s i data (q * s.vol.fs.unit + o) fp s.own v := by
  have hu := h.sound.mounted.fits.unit_pos
  have hlen := Nat.mul_le_mul_right s.vol.fs.unit
    (show q + 1 ≤ (s.own i).length from (List.getElem?_eq_some_iff.1 hq).1)
  rw [Nat.succ_mul] at hlen
  refine ⟨.of_kept h hk, List.prefix_refl _, ?_, hc.kept h hk, fun _ => ?_⟩
  · exact (Nat.max_eq_left ((clustersFor_le hu).2 (by omega))).symm
  · rw [Nat.add_sub_assoc h0, Nat.mul_comm, Nat.mul_add_div hu, Nat.div_eq_of_lt (by omega)]
    exact hq

/-- In write mode the chain is stretched, else it is long enough. -/
theorem seekNext_returns (h : Good W s) {clst : BitVec 64} (hc : (s.own i)[q]? = some clst.toNat)
    (hmode : fp.flag &&& faWrite = 0 → q + 1 < (s.own i).length) :
    Returns (seekNext s.vol fp clst) (Next W E s i (q + 1)) := by
  rw [seekNext]
  by_cases hw : fp.flag &&& faWrite = 0
  · rw [if_neg (not_not.2 hw)]
    have hlt := hmode hw
    refine Sat.mono (getFat_returns h.sound.mounted (h.sound.owns.valid i _ (List.mem_of_getElem? hc))) ?_ (fun _ => id)
    rintro ⟨c, v₁⟩ ⟨hcl, hk⟩
    refine .there c v₁ ?_ hk
    rcases (h.sound.owns.linked i).step hc with hnext | ⟨hnone, -⟩
    · rw [hnext]
      exact congrArg some hcl.symm
    · exact absurd (List.getElem?_eq_none_iff.1 hnone) (Nat.not_le.2 hlt)
  · rw [if_pos hw]
    exact h.next hc

/-- What `f_lseek` asks of a cluster number. -/
theorem cluster_valid {c : BitVec 64} (hc : g.Cluster c.toNat) : ¬ (c ≤ 1 ∨ c ≥ g.nFatent) := by
  have h1 := hc.1
  have h2 := hc.2
  rw [ge_iff_le, BitVec.le_def, BitVec.le_def]
  show ¬ (_ ≤ 1 ∨ _)
  omega

/-- To the `q`th cluster, and on from there. -/
theorem Stretched.sought {c : BitVec 64} {own own' : Nat → List Nat} (hstep : Stretched W E s i q data fp c own v)
    (hu : 0 < s.vol.fs.unit) (hs : Sought W E ⟨own, v⟩ i data p fp' own' v') (hp : q * s.vol.fs.unit < p) :
    Sought W E s i data p fp' own' v' := by
  have hg : v.fs.toGeometry = s.vol.fs.toGeometry := hstep.moves.geometry
  have hlen := hs.length
  have hcur := hs.current
  replace hlen : (own' i).length = max (own i).length (clustersFor v.fs.unit p) := hlen
  replace hcur : 0 < p → (own' i)[(p - 1) / v.fs.unit]? = some fp'.clust.toNat := hcur
  rw [hg] at hlen hcur
  have hneed : q < clustersFor s.vol.fs.unit p := by
    rw [← Nat.not_le, clustersFor_le hu]
    omega
  refine ⟨hstep.moves.trans hs.moves, hstep.grown.trans hs.grown, ?_, hs.cached, hcur⟩
  rw [hlen, hstep.length]
  omega

theorem seekLoop_returns {clst ofs : BitVec 64} (h : Good W s) (hc : Cached s.vol (s.own i) fp data)
    (hbeyond : ∀ x, (s.own i).length * s.vol.fs.unit ≤ x → data x = none) (hq : (s.own i)[q]? = some clst.toNat)
    (hclust : fp.clust = clst) (hfptr : fp.fptr.toNat = q * s.vol.fs.unit) (h0 : 0 < ofs.toNat) (hn : ofs.toNat < n)
    (hmode : fp.flag &&& faWrite = 0 → fp.fptr.toNat + ofs.toNat ≤ (s.own i).length * s.vol.fs.unit)
    (hp : p = min (fp.fptr.toNat + ofs.toNat) (((s.own i).length + s.vol.freeClusters) * s.vol.fs.unit)) :
    Returns (seekLoop n s.vol fp clst ofs) (fun r => r.1 = .ok ∧ ∃ own clust fptr,
      r.2.2.2.1 = fp.moved fp.obj.sclust clust fptr ∧ fptr.toNat + r.2.2.1.toNat = p ∧
      Sought W E s i data p r.2.2.2.1 own r.2.2.2.2 ∧ r.2.2.1.toNat % 512 = p % 512 ∧ (p % 512 ≠ 0 →
        (own i)[p / s.vol.fs.unit]? = some r.2.1.toNat ∧ r.2.2.1.toNat = p % s.vol.fs.unit)) := by
  induction n generalizing s fp clst ofs q with
  | zero => exact absurd hn (Nat.not_lt_zero _)
  | succ n ih =>
    have hm := h.sound.mounted
    have hu := hm.fits.unit_pos
    have hbcs := bcs_toNat s.vol.fs
    have hlt := (List.getElem?_eq_some_iff.1 hq).1
    have hlen := Nat.mul_le_mul_right s.vol.fs.unit (show q + 1 ≤ (s.own i).length from hlt)
    rw [Nat.succ_mul] at hlen
    rw [seekLoop]
    by_cases hgt : ofs > s.vol.fs.bcs
    · rw [if_pos hgt]
      rw [gt_iff_lt, BitVec.lt_def, hbcs] at hgt
      refine Sat.bind (seekNext_returns (E := E) h hq fun hw => ?_) ?_
      · have hle := hmode hw
        rw [hfptr] at hle
        refine Nat.lt_of_mul_lt_mul_right (a := s.vol.fs.unit) ?_
        rw [Nat.succ_mul]
        omega
      rintro ⟨c, v₁⟩ hnext
      rcases hnext.stretched h hc hbeyond with ⟨rfl, hq', hfree, hk⟩ | ⟨own, hstep⟩
      · have hw : fp.flag &&& faWrite ≠ 0 := fun hw => by
          have hle := hmode hw
          rw [hfptr, ← hq', Nat.succ_mul] at hle
          omega
        have hbcs₁ : v₁.fs.bcs.toNat = s.vol.fs.unit := by rw [bcs_toNat, hk.geometry]
        have hpe : p = q * s.vol.fs.unit + s.vol.fs.unit := by
          rw [hp, hfptr, hfree, Nat.add_zero, ← hq', Nat.succ_mul]
          omega
        simp only [hw, ne_eq, not_false_eq_true, and_self, if_true]
        subst hpe
        refine ⟨rfl, s.own, fp.clust, fp.fptr, rfl, by rw [hfptr, hbcs₁],
          .here h hk hc (hclust ▸ hq) hu (Nat.le_refl _), ?_, fun hne => absurd ?_ hne⟩
        · rw [hbcs₁, add_unit_mod]
        · rw [add_unit_mod, unit_mod]
      · have hg : v₁.fs.toGeometry = s.vol.fs.toGeometry := hstep.moves.geometry
        have hgood : Good W ⟨own, v₁⟩ := hstep.moves.good
        have hspace : v₁.freeClusters + (own i).length = s.vol.freeClusters + (s.own i).length := hstep.moves.space
        have hcl : v₁.fs.Cluster c.toNat := hgood.sound.owns.valid i _ (List.mem_of_getElem? hstep.here)
        obtain ⟨-, hc0, -, hcF⟩ := cluster_ne hgood.sound.mounted.fits hcl
        have hbcs₁ : v₁.fs.bcs.toNat = s.vol.fs.unit := by rw [bcs_toNat, hg]
        have hend := h.room_lt (i := i) (Nat.le_refl _)
        have hfptr₁ : (fp.fptr + v₁.fs.bcs).toNat = (q + 1) * s.vol.fs.unit := by
          rw [BitVec.toNat_add, hfptr, hbcs₁, Nat.succ_mul]
          omega
        have hsub : (ofs - v₁.fs.bcs).toNat = ofs.toNat - s.vol.fs.unit := by
          rw [BitVec.toNat_sub, hbcs₁]
          omega
        have hsum : (fp.fptr + v₁.fs.bcs).toNat + (ofs - v₁.fs.bcs).toNat = fp.fptr.toNat + ofs.toNat := by
          rw [hfptr₁, hsub, hfptr, Nat.succ_mul]
          omega
        have hmono := Nat.mul_le_mul_right s.vol.fs.unit (show (s.own i).length ≤ (own i).length by rw [hstep.length]; omega)
        simp only [hc0, and_false, hcF, cluster_valid hcl, if_false]
        refine Sat.mono (ih (s := ⟨own, v₁⟩) (q := q + 1) hgood (hstep.cached.of_line rfl) ?_ hstep.here rfl ?_ ?_ ?_ ?_ ?_) ?_ (fun _ => id)
        · intro x hx
          replace hx : (own i).length * v₁.fs.unit ≤ x := hx
          rw [hg] at hx
          exact hbeyond x (Nat.le_trans hmono hx)
        · show (fp.fptr + v₁.fs.bcs).toNat = (q + 1) * v₁.fs.unit
          rw [hfptr₁, hg]
        · rw [hsub]
          omega
        · rw [hsub]
          omega
        · intro hw
          show (fp.fptr + v₁.fs.bcs).toNat + _ ≤ (own i).length * v₁.fs.unit
          rw [hsum, hg]
          exact Nat.le_trans (hmode hw) hmono
        · show p = min ((fp.fptr + v₁.fs.bcs).toNat + _) (((own i).length + v₁.freeClusters) * v₁.fs.unit)
          rw [hsum, hg, hp, show (own i).length + v₁.freeClusters = (s.own i).length + s.vol.freeClusters by omega]
        · rintro ⟨res, c', ofs', fp₂, v₂⟩ ⟨rfl, own₂, clust, fptr, hfp, hpos, hsought, hmod, hin⟩
          have hsect : p % 512 ≠ 0 → (own₂ i)[p / v₁.fs.unit]? = some c'.toNat ∧ ofs'.toNat = p % v₁.fs.unit := hin
          rw [hg] at hsect
          have hroom := Nat.mul_le_mul_right s.vol.fs.unit (show q + 1 + 1 ≤ (s.own i).length + s.vol.freeClusters by
            have := (List.getElem?_eq_some_iff.1 hstep.here).1
            omega)
          refine ⟨rfl, own₂, clust, fptr, hfp, hpos, hstep.sought hu hsought ?_, hmod, hsect⟩
          rw [Nat.succ_mul (q + 1)] at hroom
          rw [Nat.succ_mul] at hroom ⊢
          omega
    · rw [if_neg hgt]
      rw [gt_iff_lt, BitVec.lt_def, hbcs] at hgt
      have hpe : p = q * s.vol.fs.unit + ofs.toNat := by
        have hmono := Nat.mul_le_mul_right s.vol.fs.unit
          (show (s.own i).length ≤ (s.own i).length + s.vol.freeClusters from Nat.le_add_right ..)
        rw [hp, hfptr]
        omega
      subst hpe
      refine ⟨rfl, s.own, fp.clust, fp.fptr, rfl, by rw [hfptr],
        .here h (.refl hm) hc (hclust ▸ hq) h0 (Nat.not_lt.1 hgt), (add_unit_mod ..).symm, fun hne => ?_⟩
      have hne' : ofs.toNat < s.vol.fs.unit := by
        refine Nat.lt_of_le_of_ne (Nat.not_lt.1 hgt) fun he => hne ?_
        rw [add_unit_mod, he, unit_mod]
      rw [Nat.mul_comm, Nat.mul_add_div hu, Nat.div_eq_of_lt hne', Nat.mul_add_mod, Nat.mod_eq_of_lt hne']
      exact ⟨hq, rfl⟩

/-- **The first cluster**, which may be new. -/
theorem firstClust_returns (h : Good W s) (hc : Cached s.vol (s.own i) fp data)
    (hbeyond : ∀ x, (s.own i).length * s.vol.fs.unit ≤ x → data x = none)
    (hnil : fp.obj.sclust = 0 ↔ s.own i = []) (hfirst : s.own i ≠ [] → (s.own i)[0]? = some fp.obj.sclust.toNat) :
    Returns (firstClust s.vol fp) (fun r => r.1 = .ok ∧ r.2.2.1 = fp.moved r.2.1 r.2.1 fp.fptr ∧
      ((r.2.1 = 0 ∧ s.own i = [] ∧ s.vol.freeClusters = 0 ∧ Kept W s.vol r.2.2.2) ∨
        ∃ own, Stretched W E s i 0 data fp r.2.1 own r.2.2.2)) := by
  rw [firstClust]
  by_cases h0 : fp.obj.sclust = 0
  · have hl := hnil.1 h0
    have hcreate := h.create (E := E) i
    rw [tail_nil hl, hl] at hcreate
    rw [if_pos h0]
    refine Sat.bind hcreate ?_
    rintro ⟨c, v₁⟩ hnext
    rcases hnext.stretched h hc hbeyond with ⟨rfl, -, hfree, hk⟩ | ⟨own, hstep⟩
    · exact ⟨rfl, rfl, .inl ⟨rfl, hl, hfree, hk⟩⟩
    · have hgood : Good W ⟨own, v₁⟩ := hstep.moves.good
      obtain ⟨-, -, hc1, hcF⟩ := cluster_ne hgood.sound.mounted.fits
        (hgood.sound.owns.valid i _ (List.mem_of_getElem? hstep.here))
      simp only [hc1, hcF, if_false]
      exact ⟨rfl, rfl, .inr ⟨own, hstep⟩⟩
  · rw [if_neg h0]
    have hhere := hfirst (mt hnil.2 h0)
    have hlt := (List.getElem?_eq_some_iff.1 hhere).1
    exact ⟨rfl, rfl, .inr ⟨s.own, .refl h, List.prefix_refl _, by omega, hhere, hc⟩⟩

/-- The start of the cluster that a position is in. -/
theorem cluster_start {fs : FatFs} (hfit : fs.Fits n) (x : BitVec 64) :
    (x &&& ~~~(fs.bcs - 1)).toNat = x.toNat / fs.unit * fs.unit := by
  obtain ⟨k, hk⟩ := hfit.csize
  have hunit : fs.unit = 2 ^ (k + 9) := by rw [Geometry.unit, hk, Nat.pow_add]
  have hpos := hfit.unit_pos
  have hbcs := bcs_toNat fs
  have hlt := fs.bcs.isLt
  have hmask : fs.bcs - 1 = BitVec.ofNat 64 (2 ^ (k + 9) - 1) := by
    apply BitVec.eq_of_toNat_eq
    rw [BitVec.toNat_sub, BitVec.toNat_ofNat, ← hunit, hbcs]
    show (2 ^ 64 - 1 + _) % _ = _
    omega
  rw [hmask, Mask.toNat_and_not_low, hunit]

/-- **Where `f_lseek` starts**: from a cluster that is in front of `ofs`, unless the file has no cluster and can get none. -/
inductive Started (W : Set Nat) (E : Nat → Fin 512 → Prop) (s : Chains D) (i : Nat) (data : Nat → Option (BitVec 8))
    (fp : Fil) (ofs : BitVec 64) : Fresult × BitVec 64 × BitVec 64 × Fil × Vol D → Prop where
  | full (v : Vol D) : s.own i = [] → s.vol.freeClusters = 0 → Kept W s.vol v →
      Started W E s i data fp ofs (.ok, 0, ofs, fp.moved 0 0 0, v)
  | from (q : Nat) (sclust c fptr ofs' : BitVec 64) (own : Nat → List Nat) (v : Vol D) :
      Stretched W E s i q data fp c own v → sclust.toNat = (own i).headD 0 → fptr.toNat = q * s.vol.fs.unit →
      fptr.toNat + ofs'.toNat = ofs.toNat → 0 < ofs'.toNat →
      Started W E s i data fp ofs (.ok, c, ofs', fp.moved sclust c fptr, v)

theorem seekStart_returns (h : Good W s) (ho : Opened s.vol (s.own i) fp f) {ofs : BitVec 64} (h0 : 0 < ofs.toNat) :
    Returns (seekStart s.vol { fp with fptr := 0 } fp.fptr ofs) (Started W E s i f.data fp ofs) := by
  have hfit := h.sound.mounted.fits
  have hpos := ho.object.pos
  have hbcs := bcs_toNat s.vol.fs
  have hofs : (ofs - 1).toNat = ofs.toNat - 1 := by
    rw [BitVec.toNat_sub]
    show (2 ^ 64 - 1 + _) % _ = _
    omega
  rw [seekStart]
  by_cases hcond : fp.fptr > 0 ∧ (ofs - 1) / s.vol.fs.bcs ≥ (fp.fptr - 1) / s.vol.fs.bcs
  · -- to the same or a following cluster
    have hp0 : 0 < f.pos := by
      have hgt := hcond.1
      rw [gt_iff_lt, BitVec.lt_def, hpos] at hgt
      exact hgt
    have hfptr : (fp.fptr - 1).toNat = f.pos - 1 := by
      rw [BitVec.toNat_sub, hpos]
      show (2 ^ 64 - 1 + _) % _ = _
      have := fp.fptr.isLt
      omega
    have hge := hcond.2
    rw [ge_iff_le, BitVec.le_def, BitVec.toNat_udiv, BitVec.toNat_udiv, hofs, hfptr, hbcs] at hge
    have hcur := ho.current hp0
    have hlt := (List.getElem?_eq_some_iff.1 hcur).1
    have hstart := cluster_start hfit (fp.fptr - 1)
    rw [hfptr] at hstart
    have hle : (f.pos - 1) / s.vol.fs.unit * s.vol.fs.unit ≤ ofs.toNat - 1 :=
      Nat.le_trans (Nat.mul_le_mul_right _ hge) (Nat.div_mul_le_self ..)
    have hsub : (ofs - (fp.fptr - 1 &&& ~~~(s.vol.fs.bcs - 1))).toNat =
        ofs.toNat - (f.pos - 1) / s.vol.fs.unit * s.vol.fs.unit := by
      rw [BitVec.toNat_sub_of_le, hstart]
      rw [BitVec.le_def, hstart]
      omega
    rw [if_pos hcond]
    refine .from ((f.pos - 1) / s.vol.fs.unit) fp.obj.sclust fp.clust _ _ s.own s.vol
      ⟨.refl h, List.prefix_refl _, by omega, hcur, ho.cached⟩ ho.object.first hstart ?_ ?_
    · rw [hstart, hsub]
      omega
    · rw [hsub]
      omega
  · rw [if_neg hcond]
    refine Sat.bind (firstClust_returns (E := E) h (ho.cached.of_line rfl)
      (fun x => ho.object.data_none) (ho.object.nil_of_zero (h.sound.owns.valid i)) ho.object.first_of_ne) ?_
    rintro ⟨res, c, fp₁, v₁⟩ ⟨rfl, hfp, hcase⟩
    replace hfp : fp₁ = fp.moved c c 0 := hfp
    subst hfp
    rcases hcase with ⟨hc, hl, hfree, hk⟩ | ⟨own, hstep⟩
    · replace hc : c = 0 := hc
      subst hc
      exact .full v₁ hl hfree hk
    · refine .from 0 c c 0 ofs own v₁ ⟨hstep.moves, hstep.grown, hstep.length, hstep.here, hstep.cached.of_line rfl⟩ ?_
        (Nat.zero_mul _).symm (Nat.zero_add _) h0
      exact (headD_of_first hstep.here).symm

/-- **The position is reached**, or the end of the clusters there are; `p` says which. -/
theorem seekTo_returns (h : Good W s) (ho : Opened s.vol (s.own i) fp f) {ofs : BitVec 64} (h0 : 0 < ofs.toNat)
    (hmode : fp.flag &&& faWrite = 0 → ofs.toNat ≤ (s.own i).length * s.vol.fs.unit)
    (hp : p = min ofs.toNat (((s.own i).length + s.vol.freeClusters) * s.vol.fs.unit)) :
    Returns (seekTo s.vol { fp with fptr := 0 } fp.fptr ofs) (fun r => r.1 = .ok ∧ ∃ own sclust clust fptr,
      r.2.2.1 = fp.moved sclust clust fptr ∧ fptr.toNat = p ∧ sclust.toNat = (own i).headD 0 ∧
      Sought W E s i f.data p r.2.2.1 own r.2.2.2 ∧
      (p % 512 ≠ 0 → s.vol.fs.place (own i) (p / 512) = some r.2.1.toNat)) := by
  have hu := h.sound.mounted.fits.unit_pos
  rw [seekTo]
  refine Sat.bind (seekStart_returns (E := E) h ho h0) ?_
  rintro ⟨res, c, ofs', fp₁, v₁⟩ hstart
  cases hstart with
  | full _ hl hfree hk =>
    have hp0 : p = 0 := by
      rw [hp, hl, hfree]
      exact (congrArg _ (Nat.zero_mul _)).trans (Nat.min_zero _)
    subst hp0
    refine ⟨rfl, s.own, 0, 0, 0, rfl, rfl, by rw [hl]; rfl, ⟨.of_kept h hk, List.prefix_refl _, ?_,
      (ho.cached.kept h hk).of_line rfl, fun hx => absurd hx (Nat.lt_irrefl 0)⟩, fun hx => absurd rfl hx⟩
    exact (Nat.max_eq_left ((clustersFor_le hu).2 (Nat.zero_le _))).symm
  | «from» q sclust _ fptr _ own _ hstep hfirst hfptr hsum hpos =>
    have hg : v₁.fs.toGeometry = s.vol.fs.toGeometry := hstep.moves.geometry
    have hgood : Good W ⟨own, v₁⟩ := hstep.moves.good
    have hspace : v₁.freeClusters + (own i).length = s.vol.freeClusters + (s.own i).length := hstep.moves.space
    have hlt := (List.getElem?_eq_some_iff.1 hstep.here).1
    have hne : own i ≠ [] := fun he => by
      rw [he] at hlt
      exact absurd hlt (Nat.not_lt_zero _)
    obtain ⟨-, hc0, -, -⟩ := cluster_ne hgood.sound.mounted.fits
      (hgood.sound.owns.valid i _ (List.mem_of_getElem? hstep.here))
    have hmono := Nat.mul_le_mul_right s.vol.fs.unit (show (s.own i).length ≤ (own i).length by rw [hstep.length]; omega)
    have hlen := Nat.mul_le_mul_right s.vol.fs.unit (show q + 1 ≤ (s.own i).length + s.vol.freeClusters by omega)
    rw [Nat.succ_mul] at hlen
    simp only [ne_eq, not_true_eq_false, hc0, not_false_eq_true, if_false, if_true]
    refine Sat.bind (seekLoop_returns (E := E) (s := ⟨own, v₁⟩) (q := q) (p := p) hgood
      (hstep.cached.of_line rfl) ?_ hstep.here rfl ?_ hpos (Nat.lt_succ_self _) ?_ ?_) ?_
    · intro x hx
      replace hx : (own i).length * v₁.fs.unit ≤ x := hx
      rw [hg] at hx
      exact ho.object.data_none (Nat.le_trans hmono hx)
    · show fptr.toNat = q * v₁.fs.unit
      rw [hg]
      exact hfptr
    · intro hw
      show fptr.toNat + _ ≤ (own i).length * v₁.fs.unit
      rw [hsum, hg]
      exact Nat.le_trans (hmode hw) hmono
    · show p = min (fptr.toNat + _) (((own i).length + v₁.freeClusters) * v₁.fs.unit)
      rw [hsum, hg, hp, show (own i).length + v₁.freeClusters = (s.own i).length + s.vol.freeClusters by omega]
    · rintro ⟨res, c₂, ofs₂, fp₂, v₂⟩ ⟨rfl, own₂, clust, fptr₂, rfl, hpos₂, hsought, hmod, hin⟩
      have hs := hstep.sought hu hsought (by omega)
      have hg₂ : v₂.fs.toGeometry = s.vol.fs.toGeometry := hs.moves.geometry
      have hgood₂ : Good W ⟨own₂, v₂⟩ := hs.moves.good
      have hend := hs.reach hu
      have hlim : p ≤ 0xFFFFFFFF * 512 := hgood₂.room_lt (i := i) (by
        show p ≤ (own₂ i).length * v₂.fs.unit
        rw [hg₂]
        exact hend)
      replace hpos₂ : fptr₂.toNat + ofs₂.toNat = p := hpos₂
      have hfptr₂ : (fptr₂ + ofs₂).toNat = p := by
        rw [BitVec.toNat_add, hpos₂]
        omega
      have hfirst₂ : sclust.toNat = (own₂ i).headD 0 := hfirst.trans (headD_of_grown hsought.grown hne).symm
      have hs' : Sought W E s i f.data p (fp.moved sclust clust (fptr₂ + ofs₂)) own₂ v₂ :=
        ⟨hs.moves, hs.grown, hs.length, hs.cached.of_line rfl, hs.current⟩
      replace hin : p % 512 ≠ 0 → (own₂ i)[p / v₁.fs.unit]? = some c₂.toNat ∧ ofs₂.toNat = p % v₁.fs.unit := hin
      replace hmod : ofs₂.toNat % 512 = p % 512 := hmod
      rw [hg] at hin
      by_cases h512 : ofs₂ % 512 = 0
      · have hp512 := (mod_512_iff _).1 h512
        simp only [h512, not_true_eq_false, if_false]
        exact ⟨rfl, own₂, sclust, clust, _, rfl, hfptr₂, hfirst₂, hs', fun hne => absurd (hmod.symm.trans hp512) hne⟩
      · have hp512 : p % 512 ≠ 0 := by
          rw [← hmod]
          exact mt (mod_512_iff _).2 h512
        obtain ⟨hcl, hofs₂⟩ := hin hp512
        -- the sector in the cluster
        have hsect : (ofs₂ / 512).toNat = p / 512 % s.vol.fs.csize.toNat := by
          rw [BitVec.toNat_udiv, hofs₂, mod_unit]
          show (_ * 512 + _) / 512 = _
          omega
        obtain ⟨hne0, hplace⟩ := hgood₂.sect (i := i) (p := p) (c := c₂) (m := ofs₂ / 512)
          (by rw [hg₂]; exact hcl) (by rw [hsect, hg₂])
        simp only [h512, not_false_eq_true, hne0, if_true, if_false]
        refine ⟨rfl, own₂, sclust, clust, _, rfl, hfptr₂, hfirst₂, hs', fun _ => ?_⟩
        rw [hg₂] at hplace
        exact hplace

/-! ## The new size -/

theorem extend_line (fp : Fil) : fp.extend.line = fp.line := by
  unfold Fil.extend
  split
  · exact line_modified rfl rfl rfl
  · rfl

theorem extend_clust (fp : Fil) : fp.extend.clust = fp.clust := by
  unfold Fil.extend
  split <;> rfl

theorem extend_entry (fp : Fil) : fp.extend.dirSect = fp.dirSect ∧ fp.extend.dirPtr = fp.dirPtr := by
  unfold Fil.extend
  split <;> exact ⟨rfl, rfl⟩

/-- **The object of a file that was sought to `p`.** -/
theorem Object.extend {l' : List Nat} {sclust clust fptr : BitVec 64} (h : Object g l fp f)
    (hc : Calm (fp.moved sclust clust fptr) fp') (hfptr : fp'.fptr.toNat = p) (hfirst : sclust.toNat = l'.headD 0)
    (hlen : l'.length = max l.length (clustersFor g.unit p)) (hu : 0 < g.unit) :
    Object g l' fp'.extend (f.seek g.unit p) := by
  have hsize : fp'.obj.objsize.toNat = f.size := by
    rw [hc.obj]
    exact h.size
  have hroom : max f.size p ≤ l'.length * g.unit := by
    refine Nat.max_le.2 ⟨Nat.le_trans h.room (Nat.mul_le_mul_right _ (by omega)), (clustersFor_le hu).1 (by omega)⟩
  have hclusters : max f.clusters (clustersFor g.unit p) = l'.length := by rw [h.clusters, hlen]
  have hbeyond : ∀ x, max f.size p ≤ x → f.data x = none := fun x hx => h.beyond x (by omega)
  have hread : f.readable = true ↔ fp'.flag &&& faRead ≠ 0 := by
    rw [hc.and_flag (by decide)]
    exact h.readable
  have hwrite : f.writable = true ↔ fp'.flag &&& faWrite ≠ 0 := by
    rw [hc.and_flag (by decide)]
    exact h.writable
  have hfs : fp'.obj.fs = true ∧ fp'.obj.id = g.id ∧ fp'.obj.sclust.toNat = l'.headD 0 := by
    rw [hc.obj]
    exact ⟨h.fs, h.id, hfirst⟩
  have herr : fp'.err = .ok := hc.err.trans h.err
  unfold Fil.extend
  split
  · rename_i hgt
    rw [gt_iff_lt, BitVec.lt_def, hfptr, hsize] at hgt
    refine ⟨hfs.1, hfs.2.1, herr, h.opened, ?_, ?_, hclusters, hfs.2.2, ?_, hfptr, Nat.le_max_right .., hroom, hbeyond⟩
    · show _ ↔ (fp'.flag ||| faModified) &&& faRead ≠ 0
      rw [or_set (by decide)]
      exact hread
    · show _ ↔ (fp'.flag ||| faModified) &&& faWrite ≠ 0
      rw [or_set (by decide)]
      exact hwrite
    · show fp'.fptr.toNat = max f.size p
      omega
  · rename_i hle
    rw [gt_iff_lt, BitVec.lt_def, hfptr, hsize] at hle
    refine ⟨hfs.1, hfs.2.1, herr, h.opened, hread, hwrite, hclusters, hfs.2.2, ?_, hfptr, Nat.le_max_right .., hroom,
      hbeyond⟩
    show fp'.obj.objsize.toNat = max f.size p
    omega

/-- **The file change flag is set, or the file is not longer than it was**, and its chain neither. -/
theorem extend_modified (fp : Fil) : fp.extend.flag &&& faModified ≠ 0 ∨ fp.fptr.toNat ≤ fp.obj.objsize.toNat ∧ fp.extend = fp := by
  unfold Fil.extend
  split
  · refine .inl ?_
    show (fp.flag ||| faModified) &&& faModified ≠ 0
    rw [set_self]
    decide
  · rename_i hle
    exact .inr ⟨Nat.not_lt.1 hle, rfl⟩

theorem seekEnd_returns (h : Good W s) (hc : Cached s.vol (s.own i) fp data) {nsect : BitVec 64}
    (hin : fp.fptr.toNat % 512 ≠ 0 → s.vol.fs.place (s.own i) (fp.fptr.toNat / 512) = some nsect.toNat) :
    Returns (seekEnd s.vol fp nsect) (fun r => r.1 = .ok ∧ ∃ fp', r.2.1 = fp'.extend ∧ Calm fp fp' ∧ fp'.fptr = fp.fptr ∧
      fp'.clust = fp.clust ∧ Moves W E i s { s with vol := r.2.2 } ∧ Cached r.2.2 (s.own i) fp' data ∧
      (fp.fptr.toNat % 512 ≠ 0 → s.vol.fs.place (s.own i) (fp.fptr.toNat / 512) = some fp'.line.key)) := by
  rw [seekEnd]
  by_cases h512 : fp.fptr % 512 = 0
  · have hp512 := (mod_512_iff _).1 h512
    rw [if_neg (not_not.2 h512)]
    exact ⟨rfl, fp, rfl, .refl fp, rfl, rfl, .refl h, hc, fun hne => absurd hp512 hne⟩
  · have hplace := hin (mt (mod_512_iff _).2 h512)
    rw [if_pos h512]
    refine Sat.bind (loadBuffer_returns (E := E) h hc hplace) ?_
    rintro ⟨res, fp₁, v₁⟩ ⟨rfl, hcalm, hfptr, hclust, hsect, -, hmoves, hcached⟩
    refine ⟨rfl, fp₁, rfl, hcalm, hfptr, hclust, hmoves, hcached, fun _ => ?_⟩
    rw [hplace]
    exact congrArg (fun x : BitVec 64 => some x.toNat) hsect.symm

/-- **The file with the position `p`**, and the end of the call. -/
theorem Sought.seekEnd {own : Nat → List Nat} {sclust clust fptr nsect : BitVec 64} (h : Good W s)
    (ho : Object s.vol.fs.toGeometry (s.own i) fp f) (hs : Sought W E s i f.data p (fp.moved sclust clust fptr) own v)
    (hfptr : fptr.toNat = p) (hfirst : sclust.toNat = (own i).headD 0)
    (hin : p % 512 ≠ 0 → s.vol.fs.place (own i) (p / 512) = some nsect.toNat) :
    Returns (seekEnd v (fp.moved sclust clust fptr) nsect) (fun r => r.1 = .ok ∧
      Serves W E s i fp (f.seek s.vol.fs.unit p) own r.2.1 r.2.2) := by
  have hu := h.sound.mounted.fits.unit_pos
  have hg : v.fs.toGeometry = s.vol.fs.toGeometry := hs.moves.geometry
  refine Sat.mono (seekEnd_returns (E := E) (s := ⟨own, v⟩) (i := i) hs.moves.good hs.cached ?_) ?_
    (fun _ => id)
  · intro hne
    show v.fs.place (own i) (fptr.toNat / 512) = _
    rw [hfptr, hg]
    exact hin (hfptr ▸ hne)
  rintro ⟨res, fp₂, v₂⟩ ⟨rfl, fp₁, rfl, hcalm, hfptr₁, hclust₁, hmoves, hcached, hsect⟩
  replace hfptr₁ : fp₁.fptr = fptr := hfptr₁
  replace hclust₁ : fp₁.clust = clust := hclust₁
  replace hcached : Cached v₂ (own i) fp₁ f.data := hcached
  replace hsect : fptr.toNat % 512 ≠ 0 → v.fs.place (own i) (fptr.toNat / 512) = some fp₁.line.key := hsect
  have hg₂ : v₂.fs.toGeometry = s.vol.fs.toGeometry := hmoves.geometry.trans hg
  have hcur := hs.current
  refine ⟨rfl, hs.moves.trans hmoves, ⟨?_, hcached.of_line (extend_line fp₁), fun hp => ?_, fun hne => ?_⟩,
    (extend_entry fp₁).1.trans hcalm.dirSect, (extend_entry fp₁).2.trans hcalm.dirPtr, ?_⟩
  · rw [hg₂]
    exact ho.extend hcalm (hfptr₁ ▸ hfptr) hfirst hs.length hu
  · rw [hg₂, extend_clust, hclust₁]
    exact hcur hp
  · rw [hg₂, extend_line, ← hg]
    rw [hfptr] at hsect
    exact hsect hne
  · refine (extend_modified fp₁).imp_right fun ⟨hle, he⟩ => ?_
    -- the chain is as it was, as it was long enough
    have hobj : fp₁.obj.objsize.toNat = f.size := by
      rw [hcalm.obj]
      exact ho.size
    rw [hfptr₁, hfptr, hobj] at hle
    have hown : s.own i = own i := hs.grown.eq_of_length (by
      rw [hs.length, Nat.max_eq_left ((clustersFor_le hu).2 (Nat.le_trans hle ho.room))])
    have hsclust : sclust = fp.obj.sclust := BitVec.eq_of_toNat_eq (by rw [hfirst, ho.first, hown])
    refine ⟨?_, hown.symm⟩
    rw [he]
    refine ⟨hcalm.obj.trans ?_, hcalm.err, hcalm.dirSect, hcalm.dirPtr, hcalm.flag⟩
    show { fp.obj with sclust := sclust } = fp.obj
    rw [hsclust]

/-- **`f_lseek` moves the position** to where it is wanted, or to the end of the file, or of the disk. -/
theorem fLseek_returns (h : Good W s) (ho : Opened s.vol (s.own i) fp f) (ofs : BitVec 64) :
    Returns (fLseek s.vol fp ofs) (fun r =>
      Reply.Agrees ⟨r.1, 0, fun _ => 0⟩ (f.serve s.vol.fs.unit s.vol.freeClusters (.lseek i ofs)).1 ∧
      ∃ own, Serves W E s i fp (f.serve s.vol.fs.unit s.vol.freeClusters (.lseek i ofs)).2 own r.2.1 r.2.2) := by
  have hu := h.sound.mounted.fits.unit_pos
  have hsize := ho.object.size
  have hroom := ho.object.room
  rw [fLseek, checkValidity_opened h ho.object, ok_bind, if_neg (not_not.2 rfl)]
  simp only [File.serve]
  rw [if_neg (not_not.2 ho.object.opened)]
  dsimp only
  -- the offset as it is clipped, and where it leads
  have hmode : fp.flag &&& faWrite = 0 → (if ofs > fp.obj.objsize ∧ fp.flag &&& faWrite = 0 then fp.obj.objsize
      else ofs).toNat ≤ f.size := by
    intro hw
    split
    · exact Nat.le_of_eq hsize
    · rename_i hno
      rw [and_iff_left hw, gt_iff_lt, BitVec.lt_def, hsize] at hno
      omega
  have hp : (if f.writable then min ofs.toNat ((f.clusters + s.vol.freeClusters) * s.vol.fs.unit) else
      min ofs.toNat f.size) = min (if ofs > fp.obj.objsize ∧ fp.flag &&& faWrite = 0 then fp.obj.objsize
      else ofs).toNat (((s.own i).length + s.vol.freeClusters) * s.vol.fs.unit) := by
    have hmono := Nat.mul_le_mul_right s.vol.fs.unit
      (show (s.own i).length ≤ (s.own i).length + s.vol.freeClusters from Nat.le_add_right ..)
    rw [ho.object.clusters]
    by_cases hw : fp.flag &&& faWrite = 0
    · rw [if_neg (fun hx => ho.object.writable.1 hx hw)]
      split
      · rename_i hgt
        have hgt' := hgt.1
        rw [gt_iff_lt, BitVec.lt_def, hsize] at hgt'
        omega
      · rename_i hno
        rw [and_iff_left hw, gt_iff_lt, BitVec.lt_def, hsize] at hno
        omega
    · rw [if_pos (ho.object.writable.2 hw), if_neg (fun hx => hw hx.2)]
  rw [hp]
  generalize (if ofs > fp.obj.objsize ∧ fp.flag &&& faWrite = 0 then fp.obj.objsize else ofs) = m at hmode ⊢
  by_cases h0 : m = 0
  · subst h0
    rw [if_neg (not_not.2 rfl)]
    have hzero : min (0 : BitVec 64).toNat (((s.own i).length + s.vol.freeClusters) * s.vol.fs.unit) = 0 := Nat.zero_min _
    have hs : Sought W E s i f.data 0 (fp.moved fp.obj.sclust fp.clust 0) s.own s.vol :=
      ⟨.refl h, List.prefix_refl _, (Nat.max_eq_left ((clustersFor_le hu).2 (Nat.zero_le _))).symm,
        ho.cached.of_line rfl, fun hx => absurd hx (Nat.lt_irrefl 0)⟩
    rw [hzero]
    refine Sat.mono (hs.seekEnd h ho.object rfl ho.object.first fun hx => absurd rfl hx) ?_ (fun _ => id)
    rintro ⟨res, fp', v'⟩ ⟨rfl, hserves⟩
    exact ⟨Reply.agrees_bare .ok rfl _, s.own, hserves⟩
  · rw [if_pos h0]
    have hpos : 0 < m.toNat := Nat.pos_of_ne_zero fun he => h0 (BitVec.eq_of_toNat_eq he)
    refine Sat.bind (seekTo_returns (E := E) h ho hpos (fun hw => Nat.le_trans (hmode hw) hroom) rfl) ?_
    rintro ⟨res, nsect, fp₁, v₁⟩ ⟨rfl, own, sclust, clust, fptr, rfl, hfptr, hfirst, hs, hin⟩
    rw [if_neg (not_not.2 rfl)]
    refine Sat.mono (hs.seekEnd h ho.object hfptr hfirst hin) ?_ (fun _ => id)
    rintro ⟨res, fp', v'⟩ ⟨rfl, hserves⟩
    exact ⟨Reply.agrees_bare .ok rfl _, own, hserves⟩

end Fatfs
end CheriOS
