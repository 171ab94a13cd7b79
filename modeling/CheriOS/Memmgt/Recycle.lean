import CheriOS.Memmgt.Separation
/-!
# Recycle — what a new holder finds in its pages

`__munmap` clears a region before it gives its chunk back, and it gives a chunk back only for the whole of its region.
So every byte that clients could write to, and that none of them can now, is zero.
-/
namespace CheriOS
namespace Memmgt

open Outcome

variable {heap c : Cap} {held : List Mapping} {hs : List Nat} {mm : State} {length x : BitVec 64} {n : Nat}
  {s s' : Sys} {e : Event} {tr : List (Transition.Step Sys Event)}

/-- Clients write only through what they hold, and give back only what they hold, with any length. -/
def Honest (held : List Mapping) : Event → Prop
  | .mmap .. => True
  | .munmap client c _ => ⟨client, c⟩ ∈ held
  | .store client c _ _ => ⟨client, c⟩ ∈ held

instance (held : List Mapping) (e : Event) : Decidable (Honest held e) := by
  cases e <;> unfold Honest <;> infer_instance

theorem Honest.keeps (h : Honest held e) : Keeps held e := by
  cases e with
  | munmap client c length => exact .inl h
  | _ => trivial

/-- **What nobody holds any more is zero.** -/
def Clean (s : Sys) : Prop :=
  ∀ m ∈ s.given, ∀ x, Covers m.cap x → (∀ m' ∈ s.held, ¬ Covers m'.cap x) → s.mm.mem x = 0

theorem zeroed_eq_zero {mem : BitVec 64 → BitVec 8} {a : BitVec 64} (h : mem x = 0) : zeroed mem a n x = 0 := by
  unfold zeroed
  split
  · rfl
  · exact h

theorem not_covers_mapFailed : ¬ Covers mapFailed x := Nat.not_lt_zero _

theorem covers_of_fault {i : BitVec 64} (h : fault c true i 1 = none) : Covers c (c.addr + i) := by
  have hb := fault_inBounds h
  have heq : c.addr + i - c.base = c.offset + i := by
    unfold Cap.addr
    bv_omega
  unfold Covers
  rw [heq]
  omega

/-- **The chunk that a mapping is given back with is all of it.** -/
theorem Holds.covered (hH : Holds mm hs c) (hL : Laid heap mm)
    (hlen : length + pagesz = pagesz * (mm.page (mm.pageOf c)).len) (hle : mm.len (mm.pageOf c) ≤ mm.pagesNb.toNat)
    (hx : Covers c x) : (x - c.addr).toNat < length.toNat := by
  have hpages := hL.pages_lt
  have hn : (mm.page (mm.pageOf c)).len.toNat = need c.len := hH.len
  have haddr : c.addr = c.base := by
    rw [Cap.addr, hH.offset]
    exact BitVec.add_zero _
  have hneed := need_le c.len
  have hsum := congrArg BitVec.toNat hlen
  rw [BitVec.toNat_add, BitVec.toNat_mul, hn] at hsum
  rw [hH.len] at hle
  unfold Covers at hx
  rw [haddr]
  rw [pagesz_toNat] at hneed hsum
  have hltlen := length.isLt
  omega

/-- **One step keeps it.** -/
theorem Clean.step (hcl : Clean s) (hB : Book heap s.mm s.held hs) (h : Step s e s') (hok : Honest s.held e) :
    Clean s' := by
  cases h.cases.2 with
  | mmapped hr =>
    obtain ⟨-, hend, -⟩ := (mmap_ends hB.laid hB.tiles _ _ _ _).ok hr
    intro m hm x hx hno
    rcases List.mem_cons.1 hm with rfl | hm
    · cases hend with
      | invalid => exact absurd hx not_covers_mapFailed
      | noSpace => exact absurd hx not_covers_mapFailed
      | mapped =>
        rw [if_neg (region_ne_mapFailed hB.laid)] at hno
        exact absurd hx (hno _ List.mem_cons_self)
    · have hold : ∀ m' ∈ s.held, ¬ Covers m'.cap x := fun m' hm' =>
        hno m' (by split; exact hm'; exact List.mem_cons_of_mem _ hm')
      have hmem := hcl m hm x hx hold
      cases hend with
      | invalid => exact hmem
      | noSpace => exact hmem
      | mapped => rwa [(taken_pool _ _ _).2.2.2]
  | mmapStopped hr =>
    obtain ⟨rfl, -⟩ := (mmap_ends hB.laid hB.tiles _ _ _ _).error hr
    exact hcl
  | @munmapped client c length r mm hgiven hr =>
    cases (munmap_ends hB.laid c length).ok hr with
    | refused => exact fun m hm x hx hno => hcl m hm x hx (by rwa [if_neg (by decide)] at hno)
    | freed hperm hall haddr hlt hlen =>
      intro m hm x hx hno
      rw [if_pos rfl] at hno
      show zeroed s.mm.mem c.addr (wiped c length) x = 0
      by_cases hc : Covers c x
      · have hH := hB.holds _ hok
        have hend := (hB.tiles.bounds hH.head).2.2
        rw [hall]
        exact zeroed_of_lt (hH.covered hB.laid hlen (by omega) hc)
      · refine zeroed_eq_zero (hcl m hm x hx (fun m' hm' => ?_))
        by_cases he : m' = ⟨client, c⟩
        · rw [he]
          exact hc
        · exact hno m' ((List.mem_erase_of_ne he).2 hm')
  | munmapStopped hgiven hr =>
    obtain ⟨rfl, -⟩ := (munmap_ends hB.laid _ _).error hr
    exact fun m hm x hx hno => zeroed_eq_zero (hcl m hm x hx hno)
  | @stored client cap i byte hgiven hf =>
    intro m hm x hx hno
    have hne : x ≠ cap.addr + i := by
      rintro rfl
      exact hno _ hok (covers_of_fault hf)
    show Function.update s.mm.mem (cap.addr + i) byte x = 0
    rw [Function.update_of_ne hne]
    exact hcl m hm x hx hno

/-- **Runs of honest clients keep it.** -/
theorem clean_runs (hr : ManagerRun heap tr s) (hok : ∀ st ∈ tr, Honest st.pre.held st.ev) :
    (∃ hs, Book heap s.mm s.held hs) ∧ Clean s := by
  refine Transition.Run.inv_of (I := fun s => (∃ hs, Book heap s.mm s.held hs) ∧ Clean s)
    (C := fun st => Honest st.pre.held st.ev) ?_ ?_ hr hok
  · intro s hs
    refine ⟨⟨_, hs.book⟩, ?_⟩
    obtain ⟨_, _, _, rfl⟩ := hs
    exact fun m hm => (List.not_mem_nil hm).elim
  · rintro s e s' ⟨⟨hs, hB⟩, hcl⟩ hst hk
    exact ⟨hB.step hst hk.keeps, hcl.step hB hst hk⟩

/-- **What is handed out was in nobody's hands.** -/
theorem Book.apart_region (hB : Book heap mm held hs) {h : Nat} (hfind : hs.find? (mm.suits (need length)) = some h)
    {perms : BitVec 32} {m : Mapping} (hm : m ∈ held) (hx : Covers (mm.region h length perms) x) : ¬ Covers m.cap x := by
  intro hxm
  obtain ⟨hh, hun, hle⟩ := suits_of_find hfind
  have hpages := hB.laid.pages_lt
  have hend := (hB.tiles.bounds hh).2.2
  have hpage : mm.pageOf (mm.region h length perms) = h := pageOf_region (by omega)
  obtain ⟨hs', hB'⟩ := hB.map hfind perms 0
  have hof : ∀ c, (mm.taken h (BitVec.ofNat 64 (need length))).pageOf c = mm.pageOf c := pageOf_congr (taken_pool _ _ _).1
  refine hB'.disjoint List.mem_cons_self (List.mem_cons_of_mem _ hm) ?_ hx.chunk hxm.chunk
  rw [hof, hof, hpage]
  exact (hB.pageOf_ne hun hm).symm

/-- **No data leaks through recycled pages**: whatever honest clients did before, each byte of a region that `__mmap`
returns reads as zero where it was part of any earlier mapping. -/
theorem recycled_zero (hr : ManagerRun heap tr s) (hok : ∀ st ∈ tr, Honest st.pre.held st.ev) :
    ∀ st ∈ tr, ∀ client addr length prot flags c, st.ev = .mmap client addr length prot flags →
      mmap addr length prot flags st.pre.mm = .ok (c, st.post.mm) →
      ∀ m ∈ st.pre.given, ∀ x, Covers m.cap x → Covers c x → st.post.mm.mem x = 0 := by
  intro st hst client addr length prot flags c _ hmap m hm x hx hxc
  obtain ⟨newer, older, rfl, hpre, -⟩ := hr.cut_of_mem hst
  obtain ⟨⟨hs, hB⟩, hcl⟩ := clean_runs hpre (fun st' hst' =>
    hok st' (List.mem_append_right _ (List.mem_cons_of_mem _ hst')))
  obtain ⟨-, hend, -⟩ := (mmap_ends hB.laid hB.tiles addr length prot flags).ok hmap
  generalize st.post.mm = mm at hend ⊢
  cases hend with
  | invalid => exact absurd hxc not_covers_mapFailed
  | noSpace => exact absurd hxc not_covers_mapFailed
  | mapped hperms hfind =>
    rw [(taken_pool _ _ _).2.2.2]
    exact hcl m hm x hx (fun m' hm' => hB.apart_region hfind hm' hxc)

/-- Client 0 writes to its region and gives it back, and client 1 gets a part of its pages. -/
theorem recycled_zero_reuse : ∃ tr s, ManagerRun smallHeap tr s ∧
    tr.map (·.ev) = [ask 1 4096, .munmap 0 (regionAt 0 8192) 8192, .store 0 (regionAt 0 8192) 50 7, ask 0 8192] ∧
    ∀ st ∈ tr, ∀ client addr length prot flags c, st.ev = .mmap client addr length prot flags →
      mmap addr length prot flags st.pre.mm = .ok (c, st.post.mm) →
      ∀ m ∈ st.pre.given, ∀ x, Covers m.cap x → Covers c x → st.post.mm.mem x = 0 := by
  obtain ⟨tr, s, hr, hev, hok, -⟩ := play_run smallHeap (fun s e => decide (Honest s.held e))
    [ask 0 8192, .store 0 (regionAt 0 8192) 50 7, .munmap 0 (regionAt 0 8192) 8192, ask 1 4096] (fun _ => true)
    (by decide +kernel)
  exact ⟨tr, s, hr, hev, recycled_zero hr (fun st hst => of_decide_eq_true (hok st hst))⟩

end Memmgt
end CheriOS
