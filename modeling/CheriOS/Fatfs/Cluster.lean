import CheriOS.Fatfs.Sync
import CheriOS.Lib.Chain
import Mathlib.Order.Interval.Finset.Nat
/-!
# Cluster — allocating and freeing clusters (`ff.c`)

A file is a chain of clusters in the FAT.  `create_chain` takes the next free cluster behind the last one that was taken,
around the end of the FAT if need be, and links it to the end of a chain; `remove_chain` frees the clusters of a chain one
after the other.
-/
namespace CheriOS
namespace Fatfs

open Outcome Chain

variable {D : Disk}

/-- The search of `create_chain`, on the left where the call ends with it: `0`, or the error that `get_fat` reports. -/
def createScan (scl : BitVec 64) : Nat → Vol D → BitVec 64 → Except Halt ((BitVec 64 ⊕ BitVec 64) × Vol D)
  | 0, _, _ => .error .hang
  | n + 1, v, ncl => do
    let ncl := ncl + 1
    let around := ncl ≥ v.fs.nFatent
    let ncl := if around then 2 else ncl
    if around ∧ ncl > scl then return (.inl 0, v)
    let (cs, v) ← getFat v ncl
    if cs = 0 then return (.inr ncl, v)
    if cs = 1 ∨ cs = 0xFFFFFFFF then return (.inl cs, v)
    if ncl = scl then return (.inl 0, v)
    createScan scl n v ncl

/-- After `ncl` is taken, of a volume of `nFatent` entries. -/
def FsInfo.took (i : FsInfo) (nFatent ncl : BitVec 64) : FsInfo where
  lastClst := ncl
  freeClst := if i.freeClst < nFatent - 2 then i.freeClst - 1 else i.freeClst
  fsiFlag := i.fsiFlag ||| 1

/-- After a cluster is freed. -/
def FsInfo.freed (i : FsInfo) : FsInfo :=
  if i.freeClst ≠ 0xFFFFFFFF then { i with freeClst := i.freeClst + 1, fsiFlag := i.fsiFlag ||| 1 } else i

/-- Update FSINFO. -/
def Vol.setInfo (v : Vol D) (i : FsInfo) : Vol D := { v with fs := { v.fs with toFsInfo := i } }

/-- `create_chain` from its search on. -/
def createFrom (v : Vol D) (clst scl : BitVec 64) : Except Halt (BitVec 64 × Vol D) := do
  let (r, v) ← createScan scl v.fs.nFatent.toNat v scl
  match r with
  | .inl cs => return (cs, v)
  | .inr ncl =>
    let (res, v) ← putFat v ncl 0xFFFFFFFF
    let (res, v) ← if res = .ok ∧ clst ≠ 0 then putFat v clst ncl else pure (res, v)
    if res = .ok then return (ncl, v.setInfo (v.fs.took v.fs.nFatent ncl))
    else return (if res = .diskErr then 0xFFFFFFFF else 1, v)

def createChain (v : Vol D) (clst : BitVec 64) : Except Halt (BitVec 64 × Vol D) := do
  if clst = 0 then
    let scl := v.fs.lastClst
    createFrom v clst (if scl = 0 ∨ scl ≥ v.fs.nFatent then 1 else scl)
  else
    let (cs, v) ← getFat v clst
    if cs < 2 then return (1, v)
    if cs = 0xFFFFFFFF then return (cs, v)
    if cs < v.fs.nFatent then return (cs, v)
    createFrom v clst clst

/-- The loop of `remove_chain`. -/
def removeLoop : Nat → Vol D → BitVec 64 → Except Halt (Fresult × Vol D)
  | 0, _, _ => .error .hang
  | n + 1, v, clst => do
    let (nxt, v) ← getFat v clst
    if nxt = 0 then return (.ok, v)
    if nxt = 1 then return (.intErr, v)
    if nxt = 0xFFFFFFFF then return (.diskErr, v)
    let (res, v) ← putFat v clst 0
    if res ≠ .ok then return (res, v)
    let v := v.setInfo v.fs.freed
    if nxt < v.fs.nFatent then removeLoop n v nxt else return (.ok, v)

def removeChain (v : Vol D) (clst pclst : BitVec 64) : Except Halt (Fresult × Vol D) := do
  if clst < 2 ∨ clst ≥ v.fs.nFatent then return (.intErr, v)
  let (res, v) ← if pclst ≠ 0 then putFat v pclst 0xFFFFFFFF else pure (.ok, v)
  if res ≠ .ok then return (res, v)
  removeLoop v.fs.nFatent.toNat v clst

variable {W : Set Nat} {v v' : Vol D} {scl : BitVec 64} {t : Nat → Nat} {s N : Nat}

/-! ## The search -/

/-- The cluster the search has come to after `k` steps from `s`: up to the last one, and on from `2`. -/
def cursor (N s k : Nat) : Nat := if s + k < N then s + k else s + k + 2 - N

/-- The search comes by every cluster. -/
theorem exists_cursor {a : Nat} (hs : 0 < s) (hsN : s < N) (h2 : 2 ≤ a) (haN : a < N) :
    ∃ k, 0 < k ∧ k ≤ N - 2 ∧ cursor N s k = a := by
  unfold cursor
  rcases Nat.lt_or_ge s a with h | h
  · exact ⟨a - s, by omega, by omega, by rw [if_pos (by omega)]; omega⟩
  · exact ⟨N - s + (a - 2), by omega, by omega, by rw [if_neg (by omega)]; omega⟩

/-- An entry is never the number of an internal error. -/
def NoError (g : Geometry) (t : Nat → Nat) : Prop := ∀ c, g.Cluster c → t c ≠ 1

theorem NoError.update {g : Geometry} (h : NoError g t) {x : Nat} (hx : x ≠ 1) (c : Nat) :
    NoError g (Function.update t c x) := by
  intro d hd
  by_cases he : d = c
  · rwa [he, Function.update_self]
  · rw [Function.update_of_ne he]
    exact h d hd

theorem table_lt (v : Vol D) (c : Nat) : v.table c < 2 ^ v.fs.fsType.width := by
  unfold Vol.table
  split
  · exact Packed.entry_lt ..
  · exact Nat.two_pow_pos _

theorem width_le_28 (t : FsType) : 2 ^ t.width ≤ 2 ^ 28 := by
  cases t <;> decide

/-- What `get_fat` returns for an entry of `t`: no error, as there is none in the table. -/
theorem value_cases {g : Geometry} (ht : NoError g t) {c : Nat} (hc : g.Cluster c) (hlt : t c < 2 ^ 28)
    {cs : BitVec 64} (hcs : cs.toNat = t c) :
    cs ≠ 1 ∧ cs ≠ 0xFFFFFFFF ∧ (cs = 0 ↔ t c = 0) := by
  refine ⟨?_, ?_, ?_⟩
  · rintro rfl
    exact ht c hc hcs.symm
  · rintro rfl
    have : (0xFFFFFFFF : BitVec 64).toNat = 0xFFFFFFFF := rfl
    omega
  · rw [← hcs, ← BitVec.toNat_inj]
    rfl

/-- **The search finds a free cluster, or there is none.** -/
theorem createScan_returns {n k : Nat} {ncl : BitVec 64} (hm : Mounted W v) (herr : NoError v.fs.toGeometry v.table)
    (hs : 0 < scl.toNat) (hsN : scl.toNat < v.fs.nFatent.toNat)
    (hncl : ncl.toNat = cursor v.fs.nFatent.toNat scl.toNat k) (hk : k + 2 ≤ v.fs.nFatent.toNat)
    (hs2 : 2 ≤ scl.toNat → k + 3 ≤ v.fs.nFatent.toNat)
    (hused : ∀ j, 0 < j → j ≤ k → v.table (cursor v.fs.nFatent.toNat scl.toNat j) ≠ 0)
    (hn : v.fs.nFatent.toNat ≤ n + k) :
    Returns (createScan scl n v ncl) (fun p => Kept W v p.2 ∧
      match p.1 with
      | .inl cs => cs = 0 ∧ ∀ c, v.fs.Cluster c → v.table c ≠ 0
      | .inr c => v.fs.Cluster c.toNat ∧ v.table c.toNat = 0) := by
  induction n generalizing v k ncl with
  | zero => omega
  | succ n ih =>
    have hN := hm.fits.ends
    have hw := width_le_28 v.fs.fsType
    have hone : (ncl + 1).toNat = ncl.toNat + 1 := by
      rw [BitVec.toNat_add]
      show (_ + 1) % _ = _
      unfold cursor at hncl
      split at hncl <;> omega
    -- the next cluster is looked at
    have hvisit : ∀ d : BitVec 64, d.toNat = cursor v.fs.nFatent.toNat scl.toNat (k + 1) → v.fs.Cluster d.toNat →
        k + 3 ≤ v.fs.nFatent.toNat → Returns (do
          let (cs, v) ← getFat v d
          if cs = 0 then return (.inr d, v)
          if cs = 1 ∨ cs = 0xFFFFFFFF then return (.inl cs, v)
          if d = scl then return (.inl 0, v)
          createScan scl n v d) (fun p => Kept W v p.2 ∧ match p.1 with
            | .inl cs => cs = 0 ∧ ∀ c, v.fs.Cluster c → v.table c ≠ 0
            | .inr c => v.fs.Cluster c.toNat ∧ v.table c.toNat = 0) := by
      intro d hd hc hk3
      refine Sat.bind (getFat_returns hm hc) ?_
      rintro ⟨cs, v₁⟩ ⟨hcs, hkept⟩
      replace hcs : cs.toNat = v.table d.toNat := hcs
      replace hkept : Kept W v v₁ := hkept
      obtain ⟨h1, hF, h0⟩ := value_cases herr hc (Nat.lt_of_lt_of_le (table_lt v _) hw) hcs
      have hg := hkept.geometry
      have htab := hkept.table hm
      simp only [h1, hF, or_self, if_false]
      refine Sat.ite (fun hz => ⟨hkept, hc, h0.1 hz⟩) fun hz => ?_
      have hused' : ∀ j, 0 < j → j ≤ k + 1 → v.table (cursor v.fs.nFatent.toNat scl.toNat j) ≠ 0 := by
        intro j hj0 hj
        rcases Nat.lt_or_ge j (k + 1) with hlt | hge
        · exact hused j hj0 (by omega)
        · rw [show j = k + 1 by omega, ← hd]
          exact fun hx => hz (h0.2 hx)
      refine Sat.ite (fun he => ⟨hkept, rfl, fun c hcc => ?_⟩) fun he => ?_
      · -- back at the start: the search has been everywhere
        obtain ⟨j, hj0, hj, rfl⟩ := exists_cursor hs hsN hcc.1 hcc.2
        refine hused' j hj0 ?_
        subst he
        unfold cursor at hd
        split at hd <;> omega
      · have hne : d.toNat ≠ scl.toNat := fun hx => he (BitVec.eq_of_toNat_eq hx)
        have hrest := @ih v₁ (k + 1) d hkept.mounted (by rw [hg, htab]; exact herr) (by rw [hg]; exact hsN)
          (by rw [hg]; exact hd) (by rw [hg]; omega) (by
            rw [hg]
            intro h2
            unfold cursor at hd
            split at hd <;> omega) (by rw [hg, htab]; exact hused') (by rw [hg]; omega)
        rw [hg, htab] at hrest
        exact Sat.mono hrest (fun p hp => ⟨hkept.trans hp.1, hp.2⟩) (fun _ => id)
    rw [createScan]
    by_cases haround : ncl + 1 ≥ v.fs.nFatent
    · have hle : v.fs.nFatent.toNat ≤ ncl.toNat + 1 := hone ▸ haround
      have hlast : scl.toNat + k + 1 = v.fs.nFatent.toNat := by
        unfold cursor at hncl
        split at hncl <;> omega
      simp only [haround, if_true, true_and]
      refine Sat.ite (fun hgt => ⟨.refl hm, rfl, fun c hc => ?_⟩) fun hgt => ?_
      · -- the search began at the first cluster
        have h1 : scl.toNat < 2 := hgt
        obtain ⟨j, hj0, hj, rfl⟩ := exists_cursor hs hsN hc.1 hc.2
        exact hused j hj0 (by omega)
      · have h2 : 2 ≤ scl.toNat := by
          rw [gt_iff_lt, BitVec.lt_def] at hgt
          exact Nat.not_lt.1 hgt
        have hk3 := hs2 h2
        refine hvisit 2 ?_ ⟨Nat.le_refl 2, by show 2 < _; omega⟩ hk3
        unfold cursor
        rw [if_neg (by omega)]
        show 2 = _
        omega
    · have hlt : ncl.toNat + 1 < v.fs.nFatent.toNat := by
        rw [ge_iff_le, BitVec.le_def, hone] at haround
        exact Nat.not_le.1 haround
      have hd : (ncl + 1).toNat = cursor v.fs.nFatent.toNat scl.toNat (k + 1) := by
        rw [hone]
        unfold cursor at hncl ⊢
        split at hncl <;> split <;> omega
      have hk3 : k + 3 ≤ v.fs.nFatent.toNat := by
        unfold cursor at hncl
        split at hncl <;> omega
      simp only [haround, if_false, false_and]
      refine hvisit (ncl + 1) hd ⟨?_, hone ▸ hlt⟩ hk3
      rw [hone]
      unfold cursor at hncl
      split at hncl <;> omega

/-! ## Taking a cluster -/

/-- The value that ends a chain: as many bits of `0xFFFFFFFF` as an entry has. -/
def Geometry.eoc (g : Geometry) : Nat := 0xFFFFFFFF % 2 ^ g.fsType.width

/-- The values behind the clusters end a chain. -/
def Geometry.IsEnd (g : Geometry) (x : Nat) : Prop := g.nFatent.toNat ≤ x

theorem Geometry.Fits.eoc_isEnd {g : Geometry} {n : Nat} (h : g.Fits n) : g.IsEnd g.eoc := by
  have hend := h.ends
  have htype := h.type
  unfold IsEnd eoc
  cases ht : g.fsType with
  | none => exact absurd ht htype
  | fat12 =>
    rw [ht] at hend
    simp only [FsType.width] at hend ⊢
    omega
  | fat16 =>
    rw [ht] at hend
    simp only [FsType.width] at hend ⊢
    omega
  | fat32 =>
    rw [ht] at hend
    simp only [FsType.width] at hend ⊢
    omega

/-- **The table with a new cluster `n`**, linked behind `c` unless that is `0`. -/
def chained (g : Geometry) (t : Nat → Nat) (c n : Nat) : Nat → Nat :=
  let t := Function.update t n g.eoc
  if c = 0 then t else Function.update t c n

theorem Mounted.setInfo (h : Mounted W v) (i : FsInfo) : Changed W v (v.setInfo i) :=
  ⟨rfl, ⟨h.fits, h.windows, h.coherent, h.mirror⟩, fun _ _ _ => rfl, fun _ _ _ => rfl⟩

/-- **What a call that takes a cluster leaves**: the volume with the new cluster in its chain, or as it was, where no
cluster is free. -/
def Took (W : Set Nat) (v : Vol D) (clst : BitVec 64) (p : BitVec 64 × Vol D) : Prop :=
  (p.1 = 0 ∧ Kept W v p.2 ∧ ∀ c, v.fs.Cluster c → v.table c ≠ 0) ∨
  (v.fs.Cluster p.1.toNat ∧ v.table p.1.toNat = 0 ∧ Changed W v p.2 ∧
    p.2.table = chained v.fs.toGeometry v.table clst.toNat p.1.toNat ∧
    p.2.fs.toFsInfo = v.fs.took v.fs.nFatent p.1)

theorem createFrom_returns {clst : BitVec 64} (hm : Mounted W v) (herr : NoError v.fs.toGeometry v.table)
    (hc : clst = 0 ∨ v.fs.Cluster clst.toNat) (hs : 0 < scl.toNat) (hsN : scl.toNat < v.fs.nFatent.toNat) :
    Returns (createFrom v clst scl) (Took W v clst) := by
  have hsome := hm.fits.some
  rw [createFrom]
  refine Sat.bind (createScan_returns hm herr hs hsN (k := 0) ?_ (by omega) (by omega) (by omega) (by omega)) ?_
  · unfold cursor
    rw [Nat.add_zero, if_pos hsN]
  rintro ⟨r, v₁⟩ ⟨hk, hr⟩
  replace hk : Kept W v v₁ := hk
  have hg := hk.geometry
  cases r with
  | inl cs =>
    obtain ⟨rfl, hfull⟩ := hr
    exact .inl ⟨rfl, hk, hfull⟩
  | inr ncl =>
    obtain ⟨hcn, hfree⟩ : v.fs.Cluster ncl.toNat ∧ v.table ncl.toNat = 0 := hr
    refine Sat.bind (putFat_returns hk.mounted (by rw [hg]; exact hcn) 0xFFFFFFFF) ?_
    rintro ⟨res, v₂⟩ ⟨rfl, ha₂, ht₂⟩
    replace ha₂ : Altered W v₁ v₂ := ha₂
    have hg₂ := ha₂.geometry.trans hg
    have htab : v₂.table = Function.update v.table ncl.toNat v.fs.eoc := by
      rw [show v₂.table = _ from ht₂, hg, hk.table hm]
      rfl
    have hinfo : v₂.fs.toFsInfo = v.fs.toFsInfo := ha₂.info.trans hk.info
    by_cases h0 : clst = 0
    · subst h0
      simp only [ne_eq, not_true_eq_false, and_false, if_false, pure_bind, if_true]
      refine .inr ⟨hcn, hfree, ((hk.altered.trans ha₂).toChanged).trans (ha₂.mounted.setInfo _), ?_, ?_⟩
      · have hnew : chained v.fs.toGeometry v.table (0 : BitVec 64).toNat ncl.toNat =
            Function.update v.table ncl.toNat v.fs.eoc := by simp [chained]
        exact htab.trans hnew.symm
      · show v₂.fs.took v₂.fs.nFatent ncl = _
        rw [hinfo, hg₂]
    · have hclst := hc.resolve_left h0
      simp only [ne_eq, h0, not_false_eq_true, and_self, if_true]
      refine Sat.bind (putFat_returns ha₂.mounted (by rw [hg₂]; exact hclst) ncl) ?_
      rintro ⟨res, v₃⟩ ⟨rfl, ha₃, ht₃⟩
      replace ha₃ : Altered W v₂ v₃ := ha₃
      have hN := hm.fits.ends
      simp only [if_true]
      refine .inr ⟨hcn, hfree, ((hk.altered.trans ha₂).trans ha₃).toChanged.trans (ha₃.mounted.setInfo _), ?_, ?_⟩
      · show v₃.table = _
        have hne : clst.toNat ≠ 0 := fun hx => h0 (BitVec.eq_of_toNat_eq hx)
        rw [show v₃.table = _ from ht₃, hg₂, htab, Nat.mod_eq_of_lt (Nat.lt_trans hcn.2 hN)]
        exact (if_neg hne).symm
      · show v₃.fs.took v₃.fs.nFatent ncl = _
        rw [ha₃.info, hinfo, ha₃.geometry, hg₂]

/-- **A chain is begun.** -/
theorem createChain_new (hm : Mounted W v) (herr : NoError v.fs.toGeometry v.table) :
    Returns (createChain v 0) (Took W v 0) := by
  have hsome := hm.fits.some
  rw [createChain, if_pos rfl]
  dsimp only
  split
  · exact createFrom_returns hm herr (.inl rfl) Nat.one_pos (by show 1 < _; omega)
  · rename_i h
    rw [not_or, ge_iff_le, BitVec.le_def, Nat.not_le] at h
    refine createFrom_returns hm herr (.inl rfl) (Nat.pos_of_ne_zero fun hx => h.1 (BitVec.eq_of_toNat_eq hx)) h.2

/-- **A chain is stretched** behind its last cluster. -/
theorem createChain_last {clst : BitVec 64} (hm : Mounted W v) (herr : NoError v.fs.toGeometry v.table)
    (hc : v.fs.Cluster clst.toNat) (hend : v.fs.IsEnd (v.table clst.toNat)) :
    Returns (createChain v clst) (Took W v clst) := by
  have h0 : clst ≠ 0 := by
    rintro rfl
    exact absurd hc.1 (by decide)
  have hsome := hm.fits.some
  rw [createChain, if_neg h0]
  refine Sat.bind (getFat_returns hm hc) ?_
  rintro ⟨cs, v₁⟩ ⟨hcs, hk⟩
  replace hcs : cs.toNat = v.table clst.toNat := hcs
  replace hk : Kept W v v₁ := hk
  have hw := width_le_28 v.fs.fsType
  obtain ⟨-, hF, -⟩ := value_cases herr hc (Nat.lt_of_lt_of_le (table_lt v _) hw) hcs
  have hg := hk.geometry
  have hend' : v.fs.nFatent.toNat ≤ cs.toNat := hcs ▸ hend
  have h2 : ¬ cs < 2 := by
    rw [BitVec.lt_def]
    show ¬ _ < 2
    omega
  have hN : ¬ cs < v₁.fs.nFatent := by
    rw [BitVec.lt_def, hg]
    omega
  simp only [h2, hF, hN, if_false]
  have hfrom : Returns (createFrom v₁ clst clst) (Took W v₁ clst) := by
    refine createFrom_returns hk.mounted ?_ (.inr ?_) (Nat.lt_of_lt_of_le Nat.two_pos hc.1) ?_
    · rw [hg, hk.table hm]
      exact herr
    · rw [hg]
      exact hc
    · rw [hg]
      exact hc.2
  refine Sat.mono hfrom ?_ (fun _ => id)
  rintro p (⟨hp, hkept, hfull⟩ | ⟨hcn, hfree, hch, htab, hinfo⟩)
  · rw [hg, hk.table hm] at hfull
    exact .inl ⟨hp, hk.trans hkept, hfull⟩
  · rw [hg] at hcn
    rw [hk.table hm] at hfree
    rw [hg, hk.table hm] at htab
    rw [hk.info, hg] at hinfo
    exact .inr ⟨hcn, hfree, hk.altered.toChanged.trans hch, htab, hinfo⟩

/-- **Where a cluster follows, it is returned.** -/
theorem createChain_follow {clst : BitVec 64} (hm : Mounted W v) (hc : v.fs.Cluster clst.toNat)
    (hnext : v.fs.Cluster (v.table clst.toNat)) :
    Returns (createChain v clst) (fun p => p.1.toNat = v.table clst.toNat ∧ Kept W v p.2) := by
  have h0 : clst ≠ 0 := by
    rintro rfl
    exact absurd hc.1 (by decide)
  rw [createChain, if_neg h0]
  refine Sat.bind (getFat_returns hm hc) ?_
  rintro ⟨cs, v₁⟩ ⟨hcs, hk⟩
  replace hcs : cs.toNat = v.table clst.toNat := hcs
  replace hk : Kept W v v₁ := hk
  have hw := width_le_28 v.fs.fsType
  have hlt := Nat.lt_of_lt_of_le (table_lt v clst.toNat) hw
  have h1 := hnext.1
  have h2 : ¬ cs < 2 := by
    rw [BitVec.lt_def]
    show ¬ _ < 2
    omega
  have hF : cs ≠ 0xFFFFFFFF := by
    rintro rfl
    have : (0xFFFFFFFF : BitVec 64).toNat = 0xFFFFFFFF := rfl
    omega
  have hN : cs < v₁.fs.nFatent := by
    rw [BitVec.lt_def, hk.geometry, hcs]
    exact hnext.2
  simp only [h2, hF, hN, if_false, if_true]
  exact ⟨hcs, hk⟩

/-! ## Freeing a chain -/

/-- The table with the clusters of `l` free. -/
def cleared (t : Nat → Nat) (l : List Nat) : Nat → Nat := fun c => if c ∈ l then 0 else t c

theorem cleared_cons (t : Nat → Nat) (c : Nat) (l : List Nat) : cleared (Function.update t c 0) l = cleared t (c :: l) := by
  funext d
  unfold cleared
  by_cases hd : d = c
  · subst hd
    rw [Function.update_self, if_pos List.mem_cons_self]
    split <;> rfl
  · rw [Function.update_of_ne hd]
    simp [hd]

/-- One turn of the loop, at a cluster whose entry is neither free nor an error. -/
theorem removeLoop_turn {n : Nat} {clst : BitVec 64} (hm : Mounted W v) (herr : NoError v.fs.toGeometry v.table)
    (hc : v.fs.Cluster clst.toNat) (hused : v.table clst.toNat ≠ 0) {Q : Fresult × Vol D → Prop}
    (hQ : ∀ v', Changed W v v' → v'.table = Function.update v.table clst.toNat 0 →
      v'.fs.toFsInfo = v.fs.toFsInfo.freed → Returns
        (if BitVec.ofNat 64 (v.table clst.toNat) < v'.fs.nFatent then removeLoop n v' (BitVec.ofNat 64 (v.table clst.toNat))
          else return (.ok, v')) Q) : Returns (removeLoop (n + 1) v clst) Q := by
  have hw := width_le_28 v.fs.fsType
  rw [removeLoop]
  refine Sat.bind (getFat_returns hm hc) ?_
  rintro ⟨nxt, v₁⟩ ⟨hnxt, hk⟩
  replace hnxt : nxt.toNat = v.table clst.toNat := hnxt
  replace hk : Kept W v v₁ := hk
  obtain ⟨h1, hF, h0⟩ := value_cases herr hc (Nat.lt_of_lt_of_le (table_lt v _) hw) hnxt
  simp only [mt h0.1 hused, h1, hF, if_false]
  refine Sat.bind (putFat_returns hk.mounted (by rw [hk.geometry]; exact hc) 0) ?_
  rintro ⟨res, v₂⟩ ⟨rfl, ha, htab⟩
  replace ha : Altered W v₁ v₂ := ha
  have hset := ha.mounted.setInfo v₂.fs.freed
  have hofNat : nxt = BitVec.ofNat 64 (v.table clst.toNat) := by
    rw [← hnxt, BitVec.ofNat_toNat, BitVec.setWidth_eq]
  rw [hofNat]
  refine hQ (v₂.setInfo v₂.fs.freed) ((hk.altered.trans ha).toChanged.trans hset) ?_ ?_
  · show v₂.table = _
    rw [show v₂.table = _ from htab, hk.table hm]
    rfl
  · show v₂.fs.toFsInfo.freed = _
    rw [ha.info, hk.info]

/-- **The clusters of a chain are freed**, and no others. -/
theorem removeLoop_chain {n : Nat} {l : List Nat} {clst : BitVec 64} (hm : Mounted W v)
    (herr : NoError v.fs.toGeometry v.table) (hl : Linked v.table v.fs.IsEnd (clst.toNat :: l))
    (hd : (clst.toNat :: l).Nodup) (hv : ∀ c ∈ clst.toNat :: l, v.fs.Cluster c) (hn : l.length < n) :
    Returns (removeLoop n v clst) (fun p => p.1 = .ok ∧ Changed W v p.2 ∧
      p.2.table = cleared v.table (clst.toNat :: l) ∧
      p.2.fs.toFsInfo = FsInfo.freed^[l.length + 1] v.fs.toFsInfo) := by
  induction l generalizing v clst n with
  | nil =>
    obtain ⟨n, rfl⟩ : ∃ m, n = m + 1 := ⟨n - 1, by omega⟩
    have hc := hv clst.toNat (by simp)
    have hend : v.fs.nFatent.toNat ≤ v.table clst.toNat := hl.last _ rfl
    have hlt := Nat.lt_of_lt_of_le (table_lt v clst.toNat) (width_le_28 v.fs.fsType)
    refine removeLoop_turn hm herr hc (by have := hc.1; have := hc.2; omega) fun v' hch htab hinfo => ?_
    rw [if_neg]
    · exact ⟨rfl, hch, htab.trans (cleared_cons v.table clst.toNat []), hinfo⟩
    · rw [BitVec.lt_def, BitVec.toNat_ofNat, Nat.mod_eq_of_lt (by omega), hch.geometry]
      omega
  | cons d l ih =>
    obtain ⟨n, rfl⟩ : ∃ m, n = m + 1 := ⟨n - 1, by omega⟩
    have hc := hv clst.toNat (by simp)
    have hcd := hv d (by simp)
    have hnext : v.table clst.toNat = d := Linked.next (l := []) hl
    have hlt := Nat.lt_of_lt_of_le (table_lt v clst.toNat) (width_le_28 v.fs.fsType)
    refine removeLoop_turn hm herr hc (by have := hcd.1; omega) fun v' hch htab hinfo => ?_
    rw [hnext]
    have hdn : (BitVec.ofNat 64 d).toNat = d := by
      rw [BitVec.toNat_ofNat, Nat.mod_eq_of_lt (by omega)]
    have hg := hch.geometry
    rw [if_pos (by rw [BitVec.lt_def, hdn, hg]; exact hcd.2)]
    obtain ⟨hnot, hdl⟩ := List.nodup_cons.1 hd
    have hne : ∀ c ∈ d :: l, c ≠ clst.toNat := fun c hc he => hnot (he ▸ hc)
    have hrest := @ih v' n (BitVec.ofNat 64 d) hch.mounted (by
        rw [hg, htab]
        exact herr.update (by decide) _) (by
        rw [hdn, hg, htab]
        exact (Linked.right (l := [clst.toNat]) hl).congr fun c hc => Function.update_of_ne (hne c hc) ..)
      (by rw [hdn]; exact hdl) (by rw [hdn, hg]; exact fun c hc => hv c (List.mem_cons_of_mem _ hc)) (by
        rw [List.length_cons] at hn
        omega)
    refine Sat.mono hrest ?_ (fun _ => id)
    rintro p ⟨hok, hch', htab', hinfo'⟩
    refine ⟨hok, hch.trans hch', ?_, ?_⟩
    · rw [htab', hdn, htab, cleared_cons]
    · rw [hinfo', hinfo, List.length_cons, ← Function.iterate_succ_apply]

/-- The clusters of a volume. -/
def Geometry.clusters (g : Geometry) : Finset Nat := Finset.Ico 2 g.nFatent.toNat

theorem Geometry.mem_clusters {g : Geometry} {c : Nat} : c ∈ g.clusters ↔ g.Cluster c := Finset.mem_Ico

/-- A chain has no more clusters than the volume. -/
theorem chain_length_le {g : Geometry} {l : List Nat} (hd : l.Nodup) (hv : ∀ c ∈ l, g.Cluster c) :
    l.length ≤ g.nFatent.toNat - 2 := by
  rw [← List.toFinset_card_of_nodup hd, ← Nat.card_Ico]
  exact Finset.card_le_card fun c hc => Geometry.mem_clusters.2 (hv c (List.mem_toFinset.1 hc))

theorem removeChain_valid {clst pclst : BitVec 64} (hc : v.fs.Cluster clst.toNat) :
    removeChain v clst pclst = (do
      let (res, v) ← if pclst ≠ 0 then putFat v pclst 0xFFFFFFFF else pure (.ok, v)
      if res ≠ .ok then return (res, v)
      removeLoop v.fs.nFatent.toNat v clst) := by
  have h1 := hc.1
  have h2 := hc.2
  rw [removeChain, if_neg]
  rw [ge_iff_le, BitVec.lt_def, BitVec.le_def]
  show ¬ (_ < 2 ∨ _)
  omega

/-- **A whole chain is removed.** -/
theorem removeChain_whole {l : List Nat} {clst : BitVec 64} (hm : Mounted W v) (herr : NoError v.fs.toGeometry v.table)
    (hl : Linked v.table v.fs.IsEnd (clst.toNat :: l)) (hd : (clst.toNat :: l).Nodup)
    (hv : ∀ c ∈ clst.toNat :: l, v.fs.Cluster c) :
    Returns (removeChain v clst 0) (fun p => p.1 = .ok ∧ Changed W v p.2 ∧
      p.2.table = cleared v.table (clst.toNat :: l) ∧
      p.2.fs.toFsInfo = FsInfo.freed^[l.length + 1] v.fs.toFsInfo) := by
  have hsome := hm.fits.some
  have hlen := chain_length_le hd hv
  rw [List.length_cons] at hlen
  rw [removeChain_valid (hv _ (by simp))]
  simp only [ne_eq, not_true_eq_false, if_false, pure_bind]
  exact removeLoop_chain hm herr hl hd hv (by omega)

/-- **A chain is cut behind `pclst`.** -/
theorem removeChain_rest {l m : List Nat} {clst pclst : BitVec 64} (hm : Mounted W v)
    (herr : NoError v.fs.toGeometry v.table) (hl : Linked v.table v.fs.IsEnd (l ++ pclst.toNat :: clst.toNat :: m))
    (hd : (l ++ pclst.toNat :: clst.toNat :: m).Nodup)
    (hv : ∀ c ∈ l ++ pclst.toNat :: clst.toNat :: m, v.fs.Cluster c) :
    Returns (removeChain v clst pclst) (fun p => p.1 = .ok ∧ Changed W v p.2 ∧
      p.2.table = cleared (Function.update v.table pclst.toNat v.fs.eoc) (clst.toNat :: m) ∧
      p.2.fs.toFsInfo = FsInfo.freed^[m.length + 1] v.fs.toFsInfo) := by
  have hsome := hm.fits.some
  have hp := hv pclst.toNat (by simp)
  have hp0 : pclst ≠ 0 := by
    rintro rfl
    exact absurd hp.1 (by decide)
  obtain ⟨hnot, hdm⟩ := List.nodup_cons.1 (List.nodup_append.1 hd).2.1
  have hvm : ∀ c ∈ clst.toNat :: m, v.fs.Cluster c := fun c hc => hv c (by simp [List.mem_cons.1 hc])
  have hlen := chain_length_le hdm hvm
  rw [List.length_cons] at hlen
  have heoc : v.fs.eoc ≠ 1 := by
    have hend : v.fs.nFatent.toNat ≤ v.fs.eoc := hm.fits.eoc_isEnd
    omega
  rw [removeChain_valid (hv _ (by simp))]
  simp only [ne_eq, hp0, not_false_eq_true, if_true]
  refine Sat.bind (putFat_returns hm hp 0xFFFFFFFF) ?_
  rintro ⟨res, v₁⟩ ⟨rfl, ha, htab⟩
  replace ha : Altered W v v₁ := ha
  replace htab : v₁.table = Function.update v.table pclst.toNat v.fs.eoc := htab
  have hg := ha.geometry
  have hne : ∀ c ∈ clst.toNat :: m, c ≠ pclst.toNat := fun c hc he => hnot (he ▸ hc)
  simp only [not_true_eq_false, if_false]
  refine Sat.mono (removeLoop_chain (l := m) ha.mounted ?_ ?_ hdm ?_ ?_) ?_ (fun _ => id)
  · rw [hg, htab]
    exact herr.update heoc _
  · rw [hg, htab]
    exact (Linked.right (l := l ++ [pclst.toNat]) (by simpa using hl)).congr fun c hc =>
      Function.update_of_ne (hne c hc) ..
  · rw [hg]
    exact hvm
  · rw [hg]
    omega
  rintro p ⟨hok, hch, htab', hinfo⟩
  exact ⟨hok, ha.toChanged.trans hch, by rw [htab', htab], by rw [hinfo, ha.info]⟩

end Fatfs
end CheriOS
