import CheriOS.Fatfs.Chains
/-!
# Count — the number of free clusters (`ff.c`)

`free_clst` is the number of free clusters once `f_getfree` has counted them, and `create_chain` and `remove_chain` keep
it, so that nobody counts again.  `create_chain` does not when all clusters are free.
-/
namespace CheriOS
namespace Fatfs

open Outcome Chain

variable {D : Disk} {W : Set Nat} {s s' : Chains D}

/-- **How many clusters are free.** -/
def Vol.freeClusters (v : Vol D) : Nat := freeCount v.table 0 v.fs.clusters

/-- `free_clst` is that number. -/
def Exact (v : Vol D) : Prop := v.fs.freeClst.toNat = v.freeClusters

/-- `free_clst` is too large; it does not grow beyond the value that says it is unknown. -/
def TooMany (v : Vol D) : Prop := v.freeClusters < v.fs.freeClst.toNat ∧ v.fs.freeClst.toNat ≤ 0xFFFFFFFF

theorem freeClusters_le (v : Vol D) : v.freeClusters ≤ v.fs.nFatent.toNat - 2 := by
  have h := freeCount_le v.table 0 v.fs.clusters
  rwa [Geometry.clusters, Nat.card_Ico] at h

/-! ## What the calls do to `free_clst` -/

theorem freed_one {i : FsInfo} (hi : i.freeClst.toNat ≤ 0xFFFFFFFF) :
    i.freed.freeClst.toNat = min (i.freeClst.toNat + 1) 0xFFFFFFFF := by
  have hF : (0xFFFFFFFF : BitVec 64).toNat = 0xFFFFFFFF := rfl
  unfold FsInfo.freed
  split
  · rename_i hne
    have hlt : i.freeClst.toNat ≠ (0xFFFFFFFF : BitVec 64).toNat := fun he => hne (BitVec.eq_of_toNat_eq he)
    show (i.freeClst + 1).toNat = _
    rw [BitVec.toNat_add]
    show (_ + 1) % _ = _
    omega
  · rename_i hne
    rw [not_not.1 hne, hF]
    rfl

/-- Clusters are counted up to the value that says that their number is unknown. -/
theorem freed_toNat {i : FsInfo} (hi : i.freeClst.toNat ≤ 0xFFFFFFFF) (m : Nat) :
    (FsInfo.freed^[m] i).freeClst.toNat = min (i.freeClst.toNat + m) 0xFFFFFFFF := by
  induction m generalizing i with
  | zero => exact (Nat.min_eq_left hi).symm
  | succ m ih =>
    rw [Function.iterate_succ_apply, ih (by rw [freed_one hi]; exact Nat.min_le_right _ _), freed_one hi]
    omega

theorem took_toNat {i : FsInfo} {N n : BitVec 64} (hN : 2 < N.toNat) (hi : 0 < i.freeClst.toNat) :
    (i.took N n).freeClst.toNat = if i.freeClst.toNat < N.toNat - 2 then i.freeClst.toNat - 1 else i.freeClst.toNat := by
  have h2 : (N - 2).toNat = N.toNat - 2 := by
    rw [BitVec.toNat_sub]
    show (_ - 2 + _) % _ = _
    omega
  have h1 : (i.freeClst - 1).toNat = i.freeClst.toNat - 1 := by
    rw [BitVec.toNat_sub]
    show (_ - 1 + _) % _ = _
    omega
  unfold FsInfo.took
  dsimp only
  by_cases h : i.freeClst < N - 2
  · rw [if_pos h, h1, if_pos (h2 ▸ h)]
  · rw [if_neg h, if_neg (h2 ▸ h)]

/-! ## What the calls do to the number of free clusters -/

/-- A cluster is taken. -/
theorem freeClusters_took (h : Sound W s) {i n : Nat} {v : Vol D} (hn : s.vol.fs.Cluster n) (hfree : s.vol.table n = 0)
    (hg : v.fs.toGeometry = s.vol.fs.toGeometry)
    (ht : v.table = chained s.vol.fs.toGeometry s.vol.table (s.tail i).toNat n) :
    v.freeClusters + 1 = s.vol.freeClusters := by
  have heoc : s.vol.fs.nFatent.toNat ≤ s.vol.fs.eoc := h.mounted.fits.eoc_isEnd
  have hsome := h.mounted.fits.some
  unfold Vol.freeClusters
  rw [hg]
  refine freeCount_take (Geometry.mem_clusters.2 hn) hfree fun a _ => ?_
  rw [ht]
  by_cases han : a = n
  · subst han
    have hne : chained s.vol.fs.toGeometry s.vol.table (s.tail i).toNat a a ≠ 0 := by
      unfold chained
      by_cases h0 : (s.tail i).toNat = 0
      · rw [if_pos h0, Function.update_self]
        omega
      · rw [if_neg h0]
        by_cases ha : a = (s.tail i).toNat
        · rw [← ha, Function.update_self]
          exact fun he => absurd (he ▸ hn).1 (by decide)
        · rw [Function.update_of_ne ha, Function.update_self]
          omega
    simp [hne]
  · by_cases ha : (s.tail i).toNat ≠ 0 ∧ a = (s.tail i).toNat
    · -- the cluster before it was taken already
      obtain ⟨h0, rfl⟩ := ha
      have hmem := (h.tail_mem i).resolve_left h0
      have hused := (h.owns.linked i).used (h.owns.valid i) not_cluster_zero h.not_end_zero hmem
      have hnew : chained s.vol.fs.toGeometry s.vol.table (s.tail i).toNat n (s.tail i).toNat = n := by
        unfold chained
        rw [if_neg h0, Function.update_self]
      rw [hnew]
      have h2 := hn.1
      simp only [hused, and_false, iff_false]
      omega
    · rw [chained_ne han fun h0 he => ha ⟨h0, he⟩]
      simp [han]

/-- Clusters are freed. -/
theorem freeClusters_cut (h : Sound W s) {i k : Nat} {p : Answer × Chains D} (hc : Cut W s i k p)
    (hg : p.2.vol.fs.toGeometry = s.vol.fs.toGeometry) :
    p.2.vol.freeClusters = s.vol.freeClusters + ((s.own i).drop k).length := by
  have hmem : ∀ a ∈ (s.own i).drop k, a ∈ s.own i := fun a ha => List.mem_of_mem_drop ha
  unfold Vol.freeClusters
  rw [hg]
  exact freeCount_release ((h.owns.nodup i).sublist (List.drop_sublist ..))
    (fun a ha => Geometry.mem_clusters.2 (h.owns.valid i a (hmem a ha)))
    (fun a ha => (h.owns.linked i).used (h.owns.valid i) not_cluster_zero h.not_end_zero (hmem a ha))
    fun a ha => hc.free a (Geometry.mem_clusters.1 ha)

theorem freeClusters_congr {v v' : Vol D} (hg : v'.fs.toGeometry = v.fs.toGeometry) (ht : v'.table = v.table) :
    v'.freeClusters = v.freeClusters := by
  unfold Vol.freeClusters
  rw [hg, ht]

/-- **No cluster is taken.** -/
def AllFree (v : Vol D) : Prop := ∀ c, v.fs.Cluster c → v.table c = 0

theorem allFree_iff (v : Vol D) : AllFree v ↔ v.freeClusters = v.fs.nFatent.toNat - 2 := by
  have hcard : v.fs.clusters.card = v.fs.nFatent.toNat - 2 := Nat.card_Ico ..
  rw [← hcard, Vol.freeClusters, freeCount, Finset.card_filter_eq_iff]
  exact ⟨fun h c hc => h c (Geometry.mem_clusters.1 hc), fun h c hc => h c (Geometry.mem_clusters.2 hc)⟩

/-- What a call does to the count: it stays exact unless the first cluster of all is taken, and once too large it stays
too large. -/
structure Counted (op : Op) (v v' : Vol D) : Prop where
  stays : TooMany v → TooMany v'
  first : Exact v → (∃ i, op = .grow i) ∧ AllFree v → TooMany v'
  exact : Exact v → ¬ ((∃ i, op = .grow i) ∧ AllFree v) → Exact v'

/-- A call that is not the first to take a cluster and changes neither number. -/
theorem Counted.of_eq {op : Op} {v v' : Vol D} (hop : ¬ ((∃ i, op = .grow i) ∧ AllFree v))
    (hf : v'.fs.freeClst = v.fs.freeClst) (hn : v'.freeClusters = v.freeClusters) : Counted op v v' := by
  refine ⟨fun h => ?_, fun _ h => absurd h hop, fun h _ => ?_⟩
  · rw [TooMany, hf, hn]
    exact h
  · rw [Exact, hf, hn]
    exact h

theorem Sound.clusters_lt (h : Sound W s) : s.vol.fs.nFatent.toNat < 2 ^ 28 :=
  Nat.lt_of_lt_of_le h.mounted.fits.ends (width_le_28 _)

theorem Sound.count_grow (h : Sound W s) {i : Nat} {p : Answer × Chains D} (hs : Steps W s p.2) (hg : Grown W s i p) :
    Counted (.grow i) s.vol p.2.vol := by
  have hN := h.clusters_lt
  have hsome := h.mounted.fits.some
  have hgeo := hs.since.geometry
  have hle := freeClusters_le s.vol
  cases hg with
  | full v hfull hk =>
    refine .of_eq ?_ (congrArg FsInfo.freeClst hk.info) (freeClusters_congr hgeo (hk.table h.mounted))
    rintro ⟨-, hfree⟩
    exact hfull 2 ⟨Nat.le_refl 2, hsome⟩ (hfree 2 ⟨Nat.le_refl 2, hsome⟩)
  | took n v hcn hfree _ htab hinfo =>
    have htook : v.freeClusters + 1 = s.vol.freeClusters := freeClusters_took h hcn hfree hgeo htab
    have hfc : 0 < s.vol.fs.freeClst.toNat → v.fs.freeClst.toNat = _ := fun h0 =>
      (congrArg (fun i => i.freeClst.toNat) hinfo).trans (took_toNat hsome h0)
    have hall := allFree_iff s.vol
    refine ⟨fun ⟨hlt, hle'⟩ => ?_, fun hex ⟨_, hf⟩ => ?_, fun hex hnot => ?_⟩
    · have hv := hfc (by omega)
      show v.freeClusters < v.fs.freeClst.toNat ∧ _ ≤ _
      rw [hv]
      split <;> omega
    · -- `free_clst` is the number of all clusters, which `create_chain` does not count down
      unfold Exact at hex
      have hv := hfc (by omega)
      have hmax := hall.1 hf
      rw [if_neg (by omega)] at hv
      exact ⟨show v.freeClusters < v.fs.freeClst.toNat by omega, show v.fs.freeClst.toNat ≤ _ by omega⟩
    · unfold Exact at hex
      have hv := hfc (by omega)
      have hmax : s.vol.freeClusters ≠ s.vol.fs.nFatent.toNat - 2 := fun he => hnot ⟨⟨i, rfl⟩, hall.2 he⟩
      rw [if_pos (by omega)] at hv
      show v.fs.freeClst.toNat = v.freeClusters
      omega

theorem Sound.count_truncate (h : Sound W s) {i k : Nat} {p : Answer × Chains D} (hs : Steps W s p.2)
    (hc : Cut W s i k p) : Counted (.truncate i k) s.vol p.2.vol := by
  have hN := h.clusters_lt
  have hgeo := hs.since.geometry
  have hcut := freeClusters_cut h hc hgeo
  have hle := freeClusters_le p.2.vol
  rw [hgeo] at hle
  have hfc : s.vol.fs.freeClst.toNat ≤ 0xFFFFFFFF → p.2.vol.fs.freeClst.toNat = _ := fun h0 =>
    (congrArg (fun i => i.freeClst.toNat) hc.info).trans (freed_toNat h0 _)
  refine ⟨fun ⟨hlt, hmax⟩ => ?_, fun _ hop => ?_, fun hex _ => ?_⟩
  · have hv := hfc hmax
    exact ⟨by omega, by omega⟩
  · obtain ⟨⟨_, hop⟩, _⟩ := hop
    cases hop
  · unfold Exact at hex ⊢
    have hv := hfc (by omega)
    omega

/-- **One call**, and the count. -/
theorem Sound.count (h : Sound W s) (op : Op) :
    Returns (call op s) (fun p => Steps W s p.2 ∧ Counted op s.vol p.2.vol) := by
  cases op with
  | grow i => exact Sat.mono (h.grow i) (fun p hp => ⟨hp.1, h.count_grow hp.1 hp.2⟩) (fun _ => id)
  | truncate i k => exact Sat.mono (h.truncate i k) (fun p hp => ⟨hp.1, h.count_truncate hp.1 hp.2⟩) (fun _ => id)
  | follow i k =>
    refine Sat.mono (h.follow i k) (fun p ⟨hs, hk, _⟩ => ⟨hs, ?_⟩) (fun _ => id)
    exact .of_eq (by rintro ⟨⟨_, hop⟩, _⟩; cases hop) (congrArg FsInfo.freeClst hk.info)
      (freeClusters_congr hk.geometry (hk.table h.mounted))
  | sync =>
    refine Sat.mono h.sync (fun p ⟨hs, _, htab, hfc⟩ => ⟨hs, ?_⟩) (fun _ => id)
    exact .of_eq (by rintro ⟨⟨_, hop⟩, _⟩; cases hop) hfc (freeClusters_congr hs.since.geometry htab)

/-! ## Runs -/

theorem TooMany.serve (h : Sound W s) (ht : TooMany s.vol) (ops : List Op) :
    Returns (Sequential.serve call s ops) (fun p => TooMany p.2.vol) := by
  have hrun : Returns (Sequential.serve call s ops) (fun p => Sound W p.2 ∧ TooMany p.2.vol) := by
    refine Sequential.serve_inv (I := fun s => Sound W s ∧ TooMany s.vol) (fun op s hs => ?_) ⟨h, ht⟩
    exact Sat.mono (hs.1.count op) (fun _ hp => ⟨hp.1.sound, hp.2.stays hs.2⟩) (fun _ => id)
  exact Sat.mono hrun (fun _ hp => hp.2) (fun _ => id)

theorem TooMany.not_exact {v : Vol D} (h : TooMany v) : ¬ Exact v := fun he => Nat.lt_irrefl _ (he ▸ h.1)

/-- A run in which a file is given a cluster while all clusters are free. -/
def TakesFirst (s : Chains D) (ops : List Op) : Prop :=
  ∃ pre i post q, ops = pre ++ .grow i :: post ∧ Sequential.serve call s pre = .ok q ∧ AllFree q.2.vol

theorem takesFirst_cons {op : Op} {ops : List Op} {p : Answer × Chains D} (hr : call op s = .ok p) :
    TakesFirst s (op :: ops) ↔ ((∃ i, op = .grow i) ∧ AllFree s.vol) ∨ TakesFirst p.2 ops := by
  constructor
  · rintro ⟨pre, i, post, q, he, hq, hfree⟩
    cases pre with
    | nil =>
      cases he
      cases hq
      exact .inl ⟨⟨i, rfl⟩, hfree⟩
    | cons o pre =>
      cases he
      rw [Sequential.serve_cons hr] at hq
      obtain ⟨q', hq', hqe⟩ := bind_eq_ok.1 hq
      cases hqe
      exact .inr ⟨pre, i, post, q', rfl, hq', hfree⟩
  · rintro (⟨⟨i, rfl⟩, hfree⟩ | ⟨pre, i, post, q, rfl, hq, hfree⟩)
    · exact ⟨[], i, ops, ([], s), rfl, rfl, hfree⟩
    · refine ⟨op :: pre, i, post, (p.1 :: q.1, q.2), rfl, ?_, hfree⟩
      rw [Sequential.serve_cons hr, hq]
      rfl

theorem not_takesFirst_nil : ¬ TakesFirst s [] := by
  rintro ⟨pre, i, post, q, he, -⟩
  cases pre <;> cases he

/-- **`free_clst` stays the number of free clusters** over the calls of the files, in any order, if and only if no file is
given the first cluster of all; once one was, it is too large. -/
theorem freeClst_exact_iff (h : Sound W s) (hex : Exact s.vol) (ops : List Op) :
    Returns (Sequential.serve call s ops)
      (fun p => (Exact p.2.vol ↔ ¬ TakesFirst s ops) ∧ (TakesFirst s ops → TooMany p.2.vol)) := by
  induction ops generalizing s with
  | nil => exact ⟨⟨fun _ => not_takesFirst_nil, fun _ => hex⟩, fun hn => absurd hn not_takesFirst_nil⟩
  | cons op ops ih =>
    have hcall := h.count op
    cases hr : call op s with
    | error e => rw [hr] at hcall; exact hcall.elim
    | ok p =>
      rw [hr] at hcall
      obtain ⟨hs, hcount⟩ : Steps W s p.2 ∧ Counted op s.vol p.2.vol := hcall
      have htakes : TakesFirst s (op :: ops) ↔ _ := takesFirst_cons hr
      rw [Sequential.serve_cons hr]
      by_cases hop : (∃ i, op = .grow i) ∧ AllFree s.vol
      · refine Sat.bind ((hcount.first hex hop).serve hs.sound ops) fun q hq => ⟨?_, fun _ => hq⟩
        exact ⟨fun he => absurd he (TooMany.not_exact hq), fun hn => absurd (htakes.2 (.inl hop)) hn⟩
      · have hlater : TakesFirst s (op :: ops) ↔ TakesFirst p.2 ops := htakes.trans (or_iff_right hop)
        refine Sat.bind (ih hs.sound (hcount.exact hex hop)) fun q hq => ?_
        show (Exact q.2.vol ↔ _) ∧ (_ → TooMany q.2.vol)
        rw [hlater]
        exact hq

/-- A file is given the first cluster of an empty volume, and gives it back: nine clusters are said to be free. -/
theorem freeClst_exact_iff_emptyChains : Returns (Sequential.serve call emptyChains [.grow 0, .sync, .truncate 0 0])
    (fun p => TooMany p.2.vol) := by
  have hexact : Exact emptyVol := ((allFree_iff emptyVol).1 fun c _ => emptyVol_table c).symm
  have hruns := freeClst_exact_iff emptyChains_sound hexact [.grow 0, .sync, .truncate 0 0]
  exact Sat.mono hruns (fun p hp => hp.2 ⟨[], 0, _, ([], emptyChains), rfl, rfl, fun c _ => emptyVol_table c⟩)
    (fun _ => id)

end Fatfs
end CheriOS
