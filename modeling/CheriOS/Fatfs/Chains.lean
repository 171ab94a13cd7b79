import CheriOS.Fatfs.Cluster
/-!
# Chains — the clusters of the files (`ff.c`)

Files take clusters and give them back, one call after the other, and nothing else is known to `ff.c` about who has which
cluster than what the FAT says.  However the calls of the files come, every file has its chain, and no two files have a
cluster in common.
-/
namespace CheriOS
namespace Fatfs

open Outcome Chain

variable {D : Disk}

/-- The volume, and the clusters each of the files has. -/
structure Chains (D : Disk) where
  own : Nat → List Nat
  vol : Vol D

/-- The cluster a file's chain is stretched from: its last one, or `0` to begin a chain. -/
def Chains.tail (s : Chains D) (i : Nat) : BitVec 64 :=
  match (s.own i).getLast? with
  | none => 0
  | some c => BitVec.ofNat 64 c

/-- What is done for a file: its chain is begun or stretched (`f_write`, `f_lseek`), followed behind its `k`th cluster
(`f_read`), cut to its first `k` clusters (`f_truncate`, `f_unlink`); and the volume is synchronized (`f_sync`). -/
inductive Op where
  | grow (i : Nat)
  | follow (i k : Nat)
  | truncate (i k : Nat)
  | sync
  deriving DecidableEq, Repr

/-- The cluster numbers are those a file object has: the first and the current one. -/
def call : Op → Chains D → Except Halt (Answer × Chains D)
  | .grow i, s => do
    let (ncl, v) ← createChain s.vol (s.tail i)
    if ncl = 0 ∨ ncl = 1 ∨ ncl = 0xFFFFFFFF then return (.value ncl.toNat, { s with vol := v })
    else return (.value ncl.toNat, ⟨Function.update s.own i (s.own i ++ [ncl.toNat]), v⟩)
  | .follow i k, s =>
    match (s.own i)[k]? with
    | none => return (.result .intErr, s)
    | some c => do
      let (val, v) ← getFat s.vol (BitVec.ofNat 64 c)
      return (.value val.toNat, { s with vol := v })
  | .truncate i 0, s =>
    match s.own i with
    | [] => return (.result .ok, s)
    | c :: _ => do
      let (res, v) ← removeChain s.vol (BitVec.ofNat 64 c) 0
      return (.result res, ⟨Function.update s.own i [], v⟩)
  | .truncate i (k + 1), s =>
    match (s.own i)[k]? with
    | none => return (.result .ok, s)
    | some c => do
      let (ncl, v) ← getFat s.vol (BitVec.ofNat 64 c)
      if ncl < v.fs.nFatent then
        let (res, v) ← removeChain v ncl (BitVec.ofNat 64 c)
        return (.result res, ⟨Function.update s.own i ((s.own i).take (k + 1)), v⟩)
      else return (.result .ok, { s with vol := v })
  | .sync, s => do
    let (res, v) ← syncFs s.vol
    return (.result res, { s with vol := v })

variable {W : Set Nat} {s s' s₀ : Chains D}

/-- **Every file has its chain in the FAT**, and no two have a cluster in common. -/
structure Sound (W : Set Nat) (s : Chains D) : Prop where
  mounted : Mounted W s.vol
  noError : NoError s.vol.fs.toGeometry s.vol.table
  owns : Owns s.vol.table s.vol.fs.IsEnd s.vol.fs.Cluster s.own

/-- **Clusters that are taken and of none of the files**, since `s₀`: they are left alone. -/
def Foreign (s₀ s : Chains D) : Prop :=
  ∀ c, (∀ i, c ∉ s₀.own i) → s₀.vol.table c ≠ 0 → (∀ i, c ∉ s.own i) ∧ s.vol.table c = s₀.vol.table c

theorem Foreign.trans {s₁ : Chains D} (h : Foreign s₀ s₁) (h' : Foreign s₁ s) : Foreign s₀ s := by
  intro c hc ht
  obtain ⟨hc₁, ht₁⟩ := h c hc ht
  obtain ⟨hc₂, ht₂⟩ := h' c hc₁ (ht₁ ▸ ht)
  exact ⟨hc₂, ht₂.trans ht₁⟩

theorem not_cluster_zero {g : Geometry} : ¬ g.Cluster 0 := fun h => absurd h.1 (by decide)

theorem Sound.not_end_zero (h : Sound W s) : ¬ s.vol.fs.IsEnd 0 := by
  have := h.mounted.fits.some
  unfold Geometry.IsEnd
  omega

/-- A cluster number, as the code has it. -/
theorem toNat_ofNat_cluster {g : Geometry} {n : Nat} (hg : g.Fits n) {c : Nat} (hc : g.Cluster c) :
    (BitVec.ofNat 64 c).toNat = c := by
  have h1 := hc.2
  have h2 := hg.ends
  have h3 := width_le_28 g.fsType
  rw [BitVec.toNat_ofNat, Nat.mod_eq_of_lt (by omega)]

/-- What a step must leave. -/
structure Steps (W : Set Nat) (s s' : Chains D) : Prop where
  sound : Sound W s'
  foreign : Foreign s s'
  since : Since W s.vol s'.vol

/-- A call that reads leaves the files as they were. -/
theorem Sound.kept (h : Sound W s) {v : Vol D} (hk : Kept W s.vol v) : Steps W s { s with vol := v } := by
  have htab := hk.table h.mounted
  have hg := hk.geometry
  refine ⟨⟨hk.mounted, ?_, ?_⟩, fun c hc _ => ⟨hc, congrFun htab c⟩, (Since.refl h.mounted).changed hk.altered.toChanged⟩
  · rw [hg, htab]
    exact h.noError
  · rw [hg, htab]
    exact h.owns

/-- **What `create_chain` does for a file**: it takes a free cluster, or there is none. -/
theorem Sound.create (h : Sound W s) (i : Nat) : Returns (createChain s.vol (s.tail i)) (Took W s.vol (s.tail i)) := by
  unfold Chains.tail
  cases hl : (s.own i).getLast? with
  | none => exact createChain_new h.mounted h.noError
  | some c =>
    have hc := h.owns.valid i c (List.mem_of_mem_getLast? hl)
    have hto := toNat_ofNat_cluster h.mounted.fits hc
    exact createChain_last h.mounted h.noError (by rw [hto]; exact hc)
      (by rw [hto]; exact (h.owns.linked i).last c hl)

/-- The chains with the new cluster behind its file's. -/
theorem Sound.owns_chained (h : Sound W s) {i n : Nat} {t : Nat → Nat} (hc : s.vol.fs.Cluster n) (hfree : s.vol.table n = 0)
    (ht : t = chained s.vol.fs.toGeometry s.vol.table (s.tail i).toNat n) :
    Owns t s.vol.fs.IsEnd s.vol.fs.Cluster (Function.update s.own i (s.own i ++ [n])) := by
  have heoc := h.mounted.fits.eoc_isEnd
  have hz := not_cluster_zero (g := s.vol.fs.toGeometry)
  have hE := h.not_end_zero
  subst ht
  unfold Chains.tail chained
  cases hl : (s.own i).getLast? with
  | none =>
    rw [List.getLast?_eq_none_iff.1 hl, List.nil_append]
    refine h.owns.create hz hE hfree hc ?_ ?_ i
    · simpa using heoc
    · intro a ha
      simp [ha]
  | some x =>
    obtain ⟨l, ho⟩ := List.getLast?_eq_some_iff.1 hl
    have hx := h.owns.valid i x (List.mem_of_mem_getLast? hl)
    have hto := toNat_ofNat_cluster h.mounted.fits hx
    have hne : n ≠ x := by
      rintro rfl
      exact h.owns.free hz hE hfree i (List.mem_of_mem_getLast? hl)
    have hx0 : x ≠ 0 := fun he => hz (he ▸ hx)
    rw [ho, List.append_assoc]
    simp only [hto, hx0, if_false]
    refine h.owns.stretch hz hE ho hfree hc ?_ ?_ ?_
    · rw [Function.update_of_ne hne, Function.update_self]
      exact heoc
    · rw [Function.update_self]
    · intro a han hax
      rw [Function.update_of_ne hax, Function.update_of_ne han]

/-- Where the new table is not the old one. -/
theorem chained_ne {g : Geometry} {t : Nat → Nat} {c n a : Nat} (hn : a ≠ n) (hc : c ≠ 0 → a ≠ c) :
    chained g t c n a = t a := by
  unfold chained
  by_cases h0 : c = 0
  · rw [if_pos h0, Function.update_of_ne hn]
  · rw [if_neg h0, Function.update_of_ne (hc h0), Function.update_of_ne hn]

theorem Sound.tail_mem (h : Sound W s) (i : Nat) : (s.tail i).toNat = 0 ∨ (s.tail i).toNat ∈ s.own i := by
  unfold Chains.tail
  cases hl : (s.own i).getLast? with
  | none => exact .inl rfl
  | some x =>
    have hx := List.mem_of_mem_getLast? hl
    rw [toNat_ofNat_cluster h.mounted.fits (h.owns.valid i x hx)]
    exact .inr hx

theorem NoError.of_chained {g : Geometry} {t : Nat → Nat} (h : NoError g t) (heoc : g.eoc ≠ 1) {c n : Nat} (hn : n ≠ 1) :
    NoError g (chained g t c n) := by
  unfold chained
  by_cases h0 : c = 0
  · rw [if_pos h0]
    exact h.update heoc n
  · rw [if_neg h0]
    exact (h.update heoc n).update hn c

/-- **What `grow` leaves**: the file has one more cluster, or there was none. -/
inductive Grown (W : Set Nat) (s : Chains D) (i : Nat) : Answer × Chains D → Prop where
  | full (v : Vol D) : (∀ c, s.vol.fs.Cluster c → s.vol.table c ≠ 0) → Kept W s.vol v → Grown W s i (.value 0, ⟨s.own, v⟩)
  | took (n : BitVec 64) (v : Vol D) : s.vol.fs.Cluster n.toNat → s.vol.table n.toNat = 0 → Changed W s.vol v →
      v.table = chained s.vol.fs.toGeometry s.vol.table (s.tail i).toNat n.toNat →
      v.fs.toFsInfo = s.vol.fs.took s.vol.fs.nFatent n →
      Grown W s i (.value n.toNat, ⟨Function.update s.own i (s.own i ++ [n.toNat]), v⟩)

theorem Sound.grow (h : Sound W s) (i : Nat) :
    Returns (call (.grow i) s) (fun p => Steps W s p.2 ∧ Grown W s i p) := by
  rw [call]
  refine Sat.bind (h.create i) ?_
  rintro ⟨ncl, v⟩ (⟨hp, hk, hfull⟩ | ⟨hcn, hfree, hch, htab, hinfo⟩)
  · replace hp : ncl = 0 := hp
    subst hp
    simp only [true_or, if_true]
    exact ⟨h.kept hk, .full v hfull hk⟩
  · replace hcn : s.vol.fs.Cluster ncl.toNat := hcn
    replace htab : v.table = chained s.vol.fs.toGeometry s.vol.table (s.tail i).toNat ncl.toNat := htab
    replace hch : Changed W s.vol v := hch
    have hg := hch.geometry
    have hN := h.mounted.fits.ends
    have hw := width_le_28 s.vol.fs.fsType
    have hval : ¬ (ncl = 0 ∨ ncl = 1 ∨ ncl = 0xFFFFFFFF) := by
      have h1 := hcn.1
      have h2 := hcn.2
      rw [← BitVec.toNat_inj, ← BitVec.toNat_inj, ← BitVec.toNat_inj]
      show ¬ (_ = 0 ∨ _ = 1 ∨ _ = 0xFFFFFFFF)
      omega
    have heoc : s.vol.fs.eoc ≠ 1 := by
      have h1 : s.vol.fs.nFatent.toNat ≤ s.vol.fs.eoc := h.mounted.fits.eoc_isEnd
      have h2 := h.mounted.fits.some
      omega
    simp only [hval, if_false]
    refine ⟨⟨⟨hch.mounted, ?_, ?_⟩, fun c hc hu => ⟨fun j => ?_, ?_⟩, (Since.refl h.mounted).changed hch⟩,
      .took ncl v hcn hfree hch htab hinfo⟩
    · show NoError v.fs.toGeometry v.table
      rw [hg, htab]
      have h1 := hcn.1
      exact h.noError.of_chained heoc (by omega)
    · show Owns v.table v.fs.IsEnd v.fs.Cluster _
      rw [hg]
      exact h.owns_chained hcn hfree htab
    · -- a foreign cluster is not the one that was free
      show c ∉ Function.update s.own i (s.own i ++ [ncl.toNat]) j
      by_cases hj : j = i
      · subst hj
        rw [Function.update_self, List.mem_append, List.mem_singleton, not_or]
        exact ⟨hc j, fun he => hu (he ▸ hfree)⟩
      · rw [Function.update_of_ne hj]
        exact hc j
    · show v.table c = _
      rw [htab]
      refine chained_ne (fun he => hu (he ▸ hfree)) fun h0 he => ?_
      exact hc i (he ▸ (h.tail_mem i).resolve_left h0)

/-- The table with a file's clusters free, or some of them. -/
theorem NoError.cleared {g : Geometry} {t : Nat → Nat} (h : NoError g t) (l : List Nat) : NoError g (cleared t l) := by
  intro c hc
  unfold Fatfs.cleared
  split
  · decide
  · exact h c hc

/-- The chain of one file has become shorter. -/
theorem Sound.shorter (h : Sound W s) {i : Nat} {l : List Nat} {v : Vol D} (hch : Changed W s.vol v)
    (herr : NoError s.vol.fs.toGeometry v.table)
    (ho : Owns v.table s.vol.fs.IsEnd s.vol.fs.Cluster (Function.update s.own i l))
    (hl : ∀ c ∈ l, c ∈ s.own i) (ht : ∀ c, c ∉ s.own i → v.table c = s.vol.table c) :
    Steps W s ⟨Function.update s.own i l, v⟩ := by
  have hg := hch.geometry
  refine ⟨⟨hch.mounted, by rw [hg]; exact herr, by rw [hg]; exact ho⟩, fun c hc _ => ⟨fun j => ?_, ht c (hc i)⟩,
    (Since.refl h.mounted).changed hch⟩
  show c ∉ Function.update s.own i l j
  by_cases hj : j = i
  · subst hj
    rw [Function.update_self]
    exact fun hm => hc j (hl c hm)
  · rw [Function.update_of_ne hj]
    exact hc j

theorem Steps.refl (h : Sound W s) : Steps W s s := ⟨h, fun _ hc _ => ⟨hc, rfl⟩, .refl h.mounted⟩

/-- **What `truncate` leaves**: the file has its first clusters, and the others are free. -/
structure Cut (W : Set Nat) (s : Chains D) (i k : Nat) (p : Answer × Chains D) : Prop where
  ok : p.1 = .result .ok
  changed : Changed W s.vol p.2.vol
  own : p.2.own = Function.update s.own i ((s.own i).take k)
  info : p.2.vol.fs.toFsInfo = FsInfo.freed^[((s.own i).drop k).length] s.vol.fs.toFsInfo
  free : ∀ c, s.vol.fs.Cluster c → (p.2.vol.table c = 0 ↔ c ∈ (s.own i).drop k ∨ s.vol.table c = 0)

theorem Cut.refl (h : Sound W s) {k i : Nat} (hk : (s.own i).length ≤ k) {v : Vol D} (hv : Kept W s.vol v) :
    Cut W s i k (.result .ok, { s with vol := v }) := by
  refine ⟨rfl, hv.altered.toChanged, ?_, ?_, fun c _ => ?_⟩
  · rw [List.take_of_length_le hk, Function.update_eq_self]
  · rw [List.drop_of_length_le hk]
    exact hv.info
  · rw [List.drop_of_length_le hk]
    show v.table c = 0 ↔ _
    simp [hv.table h.mounted]

theorem Sound.truncate_whole (h : Sound W s) (i : Nat) :
    Returns (call (.truncate i 0) s) (fun p => Steps W s p.2 ∧ Cut W s i 0 p) := by
  rw [call]
  cases ho : s.own i with
  | nil => exact ⟨.refl h, Cut.refl h (by rw [ho]; exact Nat.le_refl 0) (.refl h.mounted)⟩
  | cons c l =>
    have hl := h.owns.linked i
    have hd := h.owns.nodup i
    have hv := h.owns.valid i
    rw [ho] at hl hd hv
    have hto := toNat_ofNat_cluster h.mounted.fits (hv c List.mem_cons_self)
    rw [← hto] at hl hd hv
    refine Sat.bind (removeChain_whole h.mounted h.noError hl hd hv) ?_
    rintro ⟨res, v⟩ ⟨rfl, hch, htab, hinfo⟩
    rw [hto] at htab
    replace htab : v.table = cleared s.vol.table (c :: l) := htab
    refine ⟨h.shorter hch ?_ ?_ (fun _ ha => absurd ha List.not_mem_nil) fun a ha => ?_,
      ⟨rfl, hch, rfl, ?_, fun a _ => ?_⟩⟩
    · rw [htab]
      exact h.noError.cleared _
    · refine h.owns.remove fun a ha => ?_
      rw [htab]
      exact if_neg (ho ▸ ha)
    · rw [htab]
      exact if_neg (ho ▸ ha)
    · rw [ho]
      exact hinfo
    · show v.table a = 0 ↔ _
      rw [htab, ho]
      unfold cleared
      split <;> simp [*]

theorem Sound.truncate_rest (h : Sound W s) (i k : Nat) :
    Returns (call (.truncate i (k + 1)) s) (fun p => Steps W s p.2 ∧ Cut W s i (k + 1) p) := by
  rw [call]
  cases hx : (s.own i)[k]? with
  | none =>
    have hk := List.getElem?_eq_none_iff.1 hx
    exact ⟨.refl h, Cut.refl h (by omega) (.refl h.mounted)⟩
  | some x =>
    obtain ⟨hk, rfl⟩ := List.getElem?_eq_some_iff.1 hx
    generalize hxe : (s.own i)[k] = x at hx
    have hsplit : s.own i = (s.own i).take k ++ x :: (s.own i).drop (k + 1) := by
      rw [← hxe, List.cons_getElem_drop_succ, List.take_append_drop]
    have htake : (s.own i).take (k + 1) = (s.own i).take k ++ [x] := by
      rw [← hxe, List.take_succ_eq_append_getElem hk]
    have hl := h.owns.linked i
    have hd := h.owns.nodup i
    have hv := h.owns.valid i
    have hxc := hv x (hxe ▸ List.getElem_mem hk)
    have hto := toNat_ofNat_cluster h.mounted.fits hxc
    refine Sat.bind (getFat_returns h.mounted (by rw [hto]; exact hxc)) ?_
    rintro ⟨ncl, v₁⟩ ⟨hncl, hkept⟩
    rw [hto] at hncl
    replace hncl : ncl.toNat = s.vol.table x := hncl
    replace hkept : Kept W s.vol v₁ := hkept
    have hg := hkept.geometry
    have htab := hkept.table h.mounted
    cases hm : (s.own i).drop (k + 1) with
    | nil =>
      -- the `k`th cluster is the last one
      rw [hm] at hsplit
      have hend : s.vol.fs.nFatent.toNat ≤ s.vol.table x := by
        rw [hsplit] at hl
        exact hl.ends
      have hnot : ¬ ncl < v₁.fs.nFatent := by
        rw [BitVec.lt_def, hg]
        omega
      simp only [hnot, if_false]
      refine ⟨h.kept hkept, Cut.refl h ?_ hkept⟩
      exact List.drop_eq_nil_iff.1 hm
    | cons d m =>
      rw [hm] at hsplit
      have hnext : s.vol.table x = d := by
        rw [hsplit] at hl
        exact hl.next
      rw [hnext] at hncl
      rw [hsplit] at hd hv
      have hdc := hv d (by simp)
      have hlt : ncl < v₁.fs.nFatent := by
        rw [BitVec.lt_def, hg, hncl]
        exact hdc.2
      simp only [hlt, if_true]
      refine Sat.bind (removeChain_rest (l := (s.own i).take k) (m := m) hkept.mounted ?_ ?_ ?_ ?_) ?_
      · rw [hg, htab]
        exact h.noError
      · rw [hg, htab, hto, hncl, ← hsplit]
        exact hl
      · rw [hto, hncl]
        exact hd
      · rw [hto, hncl, hg]
        exact hv
      rintro ⟨res, v₂⟩ ⟨rfl, hch, htab₂, hinfo⟩
      replace hch : Changed W v₁ v₂ := hch
      rw [hto, hncl, hg, htab] at htab₂
      replace htab₂ : v₂.table = cleared (Function.update s.vol.table x s.vol.fs.eoc) (d :: m) := htab₂
      have hxm : x ∉ d :: m := (List.nodup_cons.1 (List.nodup_append.1 hd).2.1).1
      have hin : ∀ a ∈ x :: d :: m, a ∈ s.own i := fun a ha => by
        rw [hsplit]
        exact List.mem_append_right _ ha
      have hend := h.mounted.fits.eoc_isEnd
      have hsame : ∀ a, a ∉ d :: m → a ≠ x → v₂.table a = s.vol.table a := by
        intro a ham hax
        rw [htab₂, cleared, if_neg ham, Function.update_of_ne hax]
      have hx₂ : v₂.table x = s.vol.fs.eoc := by
        rw [htab₂, cleared, if_neg hxm, Function.update_self]
      rw [htake]
      have hch' := hkept.altered.toChanged.trans hch
      refine ⟨h.shorter hch' ?_ ?_ ?_ ?_, ⟨rfl, hch', by rw [htake], ?_, fun a hac => ?_⟩⟩
      · rw [htab₂]
        have h1 : s.vol.fs.nFatent.toNat ≤ s.vol.fs.eoc := hend
        have h2 := h.mounted.fits.some
        exact (h.noError.update (by omega) x).cleared _
      · exact h.owns.cut hsplit (by rw [hx₂]; exact hend) hsame
      · intro a ha
        rw [← htake] at ha
        exact List.mem_of_mem_take ha
      · intro a ha
        exact hsame a (fun hmem => ha (hin a (List.mem_cons_of_mem _ hmem))) fun he => ha (hin a (he ▸ List.mem_cons_self))
      · rw [hm]
        exact hinfo.trans (by rw [hkept.info]; rfl)
      · show v₂.table a = 0 ↔ _
        rw [hm]
        by_cases ham : a ∈ d :: m
        · rw [htab₂, cleared, if_pos ham]
          simp [ham]
        · by_cases hax : a = x
          · subst hax
            rw [hx₂]
            have h1 : s.vol.fs.nFatent.toNat ≤ s.vol.fs.eoc := hend
            have h2 := h.mounted.fits.some
            have h3 := hdc.1
            simp only [ham, hnext, false_or]
            omega
          · rw [hsame a ham hax]
            simp [ham]

theorem Sound.truncate (h : Sound W s) (i k : Nat) :
    Returns (call (.truncate i k) s) (fun p => Steps W s p.2 ∧ Cut W s i k p) := by
  cases k with
  | zero => exact h.truncate_whole i
  | succ k => exact h.truncate_rest i k

/-- **What `follow` answers**: the next cluster of the file, or a value behind all clusters. -/
theorem Sound.follow (h : Sound W s) (i k : Nat) :
    Returns (call (.follow i k) s) (fun p => Steps W s p.2 ∧ Kept W s.vol p.2.vol ∧ (k < (s.own i).length →
      ∃ n, p.1 = .value n ∧ ((s.own i)[k + 1]? = some n ∨ (s.own i)[k + 1]? = none ∧ s.vol.fs.IsEnd n))) := by
  rw [call]
  cases hx : (s.own i)[k]? with
  | none => exact ⟨.refl h, .refl h.mounted, fun hk => absurd (List.getElem?_eq_none_iff.1 hx) (Nat.not_le.2 hk)⟩
  | some x =>
    obtain ⟨hk, rfl⟩ := List.getElem?_eq_some_iff.1 hx
    have hxc := h.owns.valid i _ (List.getElem_mem hk)
    have hl := h.owns.linked i
    have hto := toNat_ofNat_cluster h.mounted.fits hxc
    refine Sat.bind (getFat_returns h.mounted (by rw [hto]; exact hxc)) ?_
    rintro ⟨ncl, v⟩ ⟨hncl, hkept⟩
    replace hncl : ncl.toNat = s.vol.table (s.own i)[k] := hncl.trans (congrArg _ hto)
    refine ⟨h.kept hkept, hkept, fun _ => ⟨_, rfl, ?_⟩⟩
    have hsplit : s.own i = (s.own i).take k ++ (s.own i)[k] :: (s.own i).drop (k + 1) := by
      rw [List.cons_getElem_drop_succ, List.take_append_drop]
    rw [hncl]
    cases hm : (s.own i).drop (k + 1) with
    | nil =>
      refine .inr ⟨List.getElem?_eq_none_iff.2 (List.drop_eq_nil_iff.1 hm), ?_⟩
      rw [hm] at hsplit
      generalize (s.own i)[k] = x at hsplit
      rw [hsplit] at hl
      exact hl.ends
    | cons d m =>
      refine .inl ?_
      have hd : (s.own i)[k + 1]? = some d := by
        rw [← List.head?_drop, hm]
        rfl
      rw [hm] at hsplit
      generalize (s.own i)[k] = x at hsplit
      rw [hsplit] at hl
      rw [hl.next]
      exact hd

theorem Sound.sync (h : Sound W s) : Returns (call .sync s) (fun p => Steps W s p.2 ∧ p.2.own = s.own ∧
    p.2.vol.table = s.vol.table ∧ p.2.vol.fs.freeClst = s.vol.fs.freeClst) := by
  rw [call]
  refine Sat.bind (syncFs_table (.refl h.mounted)) ?_
  rintro ⟨res, v⟩ ⟨-, hs, htab, hfree, -⟩
  replace hs : Since W s.vol v := hs
  replace htab : v.table = s.vol.table := htab
  refine ⟨⟨⟨hs.mounted, ?_, ?_⟩, fun c hc _ => ⟨hc, congrFun htab c⟩, hs⟩, rfl, htab, hfree⟩
  · show NoError v.fs.toGeometry v.table
    rw [hs.geometry, htab]
    exact h.noError
  · show Owns v.table v.fs.IsEnd v.fs.Cluster s.own
    rw [hs.geometry, htab]
    exact h.owns

theorem Sound.step (h : Sound W s) (op : Op) : Returns (call op s) (fun p => Steps W s p.2) := by
  cases op with
  | grow i => exact Sat.mono (h.grow i) (fun _ hp => hp.1) (fun _ => id)
  | follow i k => exact Sat.mono (h.follow i k) (fun _ hp => hp.1) (fun _ => id)
  | truncate i k => exact Sat.mono (h.truncate i k) (fun _ hp => hp.1) (fun _ => id)
  | sync => exact Sat.mono h.sync (fun _ hp => hp.1) (fun _ => id)

theorem Since.trans {v v' v'' : Vol D} (h : Since W v v') (h' : Since W v' v'') : Since W v v'' where
  geometry := h'.geometry.trans h.geometry
  mounted := h'.mounted
  look := fun s hs hf hi => (h'.look s hs (h.geometry ▸ hf) (h.geometry ▸ hi)).trans (h.look s hs hf hi)
  store := fun s hs hc => (h'.store s hs (h.geometry ▸ hc)).trans (h.store s hs hc)

theorem emptyVol_table (c : Nat) : emptyVol.table c = 0 := by
  have hlook : ∀ s, emptyVol.look s = fun _ => 0 := fun s => by
    by_cases hs : s = emptyVol.fs.winsect.toNat
    · rw [hs, Vol.look_self]
      rfl
    · rw [Vol.look_ne hs]
      rfl
  refine table_zero emptyVol_mounted.fits (fun n _ => ?_) c
  rw [Vol.fat, hlook]

/-- No file has a cluster. -/
def emptyChains : Chains ramDisk := ⟨fun _ => [], emptyVol⟩

theorem emptyChains_sound : Sound (emptyVol.fs.window ramDisk.sectors) emptyChains where
  mounted := emptyVol_mounted
  noError := fun c _ => by rw [show emptyChains.vol.table c = 0 from emptyVol_table c]; decide
  owns := ⟨fun _ => .nil, fun _ => .nil, fun _ _ _ => List.disjoint_nil_left _, fun _ _ ha => absurd ha List.not_mem_nil⟩

/-- **The calls of the files, in any order**: each returns; afterwards every file has its chain and no two have a cluster
in common; the clusters taken by no file, and the sectors of `W` that are not of the FAT, are as they were.  Then a file is
given a free cluster behind its last one, unless there is none, and following a chain leads through its clusters. -/
theorem chains_kept (h : Sound W s) (ops : List Op) :
    Returns (Sequential.serve call s ops) (fun p => Steps W s p.2 ∧
      (∀ i, Returns (call (.grow i) p.2) (Grown W p.2 i)) ∧
      ∀ i k, k < (p.2.own i).length → Returns (call (.follow i k) p.2) (fun q => ∃ n, q.1 = .value n ∧
        ((p.2.own i)[k + 1]? = some n ∨ (p.2.own i)[k + 1]? = none ∧ p.2.vol.fs.IsEnd n))) := by
  have hrun : Returns (Sequential.serve call s ops) (fun p => Steps W s p.2) := by
    refine Sequential.serve_inv (fun op s' hs' => ?_) (.refl h)
    exact Sat.mono (hs'.sound.step op) (fun p hp => ⟨hp.sound, hs'.foreign.trans hp.foreign, hs'.since.trans hp.since⟩)
      (fun _ => id)
  refine Sat.mono hrun (fun p hp => ⟨hp, fun i => ?_, fun i k hk => ?_⟩) (fun _ => id)
  · exact Sat.mono (hp.sound.grow i) (fun _ hq => hq.2) (fun _ => id)
  · exact Sat.mono (hp.sound.follow i k) (fun _ hq => hq.2.2 hk) (fun _ => id)

theorem chains_kept_emptyChains :
    Returns (Sequential.serve call emptyChains [.grow 0, .grow 1, .grow 0, .truncate 0 1, .sync]) (fun p =>
      Steps (emptyVol.fs.window ramDisk.sectors) emptyChains p.2 ∧
      (∀ i, Returns (call (.grow i) p.2) (Grown (emptyVol.fs.window ramDisk.sectors) p.2 i)) ∧
      ∀ i k, k < (p.2.own i).length → Returns (call (.follow i k) p.2) (fun q => ∃ n, q.1 = .value n ∧
        ((p.2.own i)[k + 1]? = some n ∨ (p.2.own i)[k + 1]? = none ∧ p.2.vol.fs.IsEnd n))) :=
  chains_kept emptyChains_sound [.grow 0, .grow 1, .grow 0, .truncate 0 1, .sync]

end Fatfs
end CheriOS
