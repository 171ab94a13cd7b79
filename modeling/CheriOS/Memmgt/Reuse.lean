import CheriOS.Memmgt.FirstFit
/-!
# Reuse — what released memory is good for

`__munmap` marks a chunk unused and leaves it as long as it was; nothing ever puts two chunks together again, and the
`prev` of an entry, which would find the chunk before it, is not written.  So a pool that has been split once stays split,
and a request is judged by the longest unused chunk, not by the longest run of unused pages.
-/
namespace CheriOS
namespace Memmgt

open Outcome Tiling

variable {heap addr c : Cap} {mm mm' : State} {hs hs' : List Nat} {h k n a : Nat} {length : BitVec 64}
  {prot flags perms : BitVec 32} {s s' : Sys} {e : Event} {tr : List (Transition.Step Sys Event)}

/-! ## What a request finds -/

def Satisfies (mm : State) (addr : Cap) (length : BitVec 64) (prot flags : BitVec 32) : Prop :=
  ∃ c mm', mmap addr length prot flags mm = .ok (c, mm') ∧ c ≠ mapFailed

/-- **A request is judged by single chunks.** -/
theorem satisfies_iff (hC : Chunks heap mm hs) : Satisfies mm addr length prot flags ↔
    heap.hasPerms Cap.permLoad = true ∧ addr.isNull = true ∧ (mmapPerms prot flags).isSome = true ∧
      ∃ h ∈ hs, mm.suits (need length) h = true := by
  constructor
  · rintro ⟨c, mm', hr, hne⟩
    obtain ⟨hn, hend, hload⟩ := (mmap_ends hC.laid hC.tiles addr length prot flags).ok hr
    cases hend with
    | invalid => exact absurd rfl hne
    | noSpace => exact absurd rfl hne
    | mapped hp hfind _ =>
      exact ⟨hload hne, hn, by rw [hp]; rfl, _, List.mem_of_find?_eq_some hfind, List.find?_some hfind⟩
  · rintro ⟨hload, hn, hp, h, hh, hsuits⟩
    obtain ⟨perms, hp⟩ := Option.isSome_iff_exists.1 hp
    have hlen : length.toNat ≤ 2 ^ 64 - pagesz.toNat := by
      rw [State.suits, Bool.and_eq_true, decide_eq_true_eq] at hsuits
      have hpages := hC.laid.pages_lt
      have hend := (hC.tiles.bounds hh).2.2
      have hneed := hsuits.2
      unfold need at hneed
      rw [pagesz_toNat] at hneed ⊢
      omega
    have hserved := mmap_served hC hload hn hp hlen
    generalize hr : mmap addr length prot flags mm = r at hserved
    cases hserved with
    | full hno =>
      rw [hno h hh] at hsuits
      cases hsuits
    | fit => exact ⟨_, _, hr, region_ne_mapFailed hC.laid⟩

/-- A length that needs `n` pages. -/
def lengthOf (n : Nat) : BitVec 64 := BitVec.ofNat 64 ((n - 1) * 4096)

theorem need_lengthOf (hn : 0 < n) (hlt : n < 2 ^ 52) : need (lengthOf n) = n := by
  unfold need lengthOf
  rw [BitVec.toNat_ofNat, pagesz_toNat]
  omega

theorem suits_iff : mm.suits n h = true ↔ (mm.page h).status = .unused ∧ n ≤ mm.len h := by
  rw [State.suits, Bool.and_eq_true, beq_iff_eq, decide_eq_true_eq]

/-- The page `x` is in an unused chunk. -/
def State.Vacant (mm : State) (hs : List Nat) (x : Nat) : Prop :=
  ∃ h ∈ hs, (mm.page h).status = .unused ∧ h ≤ x ∧ x < h + mm.len h

/-- **A run of `n` adjacent pages in unused chunks.** -/
def State.Stretch (mm : State) (hs : List Nat) (n : Nat) : Prop := ∃ a, ∀ x, a ≤ x → x < a + n → mm.Vacant hs x

/-- **Every run of unused pages serves**: a request with valid flags succeeds where there is a run as long as it needs. -/
def Reuses (mm : State) (hs : List Nat) : Prop :=
  ∀ addr length prot flags, addr.isNull = true → (mmapPerms prot flags).isSome = true → mm.Stretch hs (need length) →
    Satisfies mm addr length prot flags

/-- **No group of adjacent unused chunks is longer than every single unused chunk.** -/
def Unbroken (mm : State) (hs : List Nat) : Prop :=
  ∀ n, 0 < n → mm.Stretch hs n → ∃ h ∈ hs, (mm.page h).status = .unused ∧ n ≤ mm.len h

theorem Chunks.vacant_lt (hC : Chunks heap mm hs) {x : Nat} (hx : mm.Vacant hs x) : x < mm.pagesNb.toNat := by
  obtain ⟨h, hh, -, -, hlt⟩ := hx
  have hend := (hC.tiles.bounds hh).2.2
  omega

theorem reuses_iff (hC : Chunks heap mm hs) (hload : heap.hasPerms Cap.permLoad = true) :
    Reuses mm hs ↔ Unbroken mm hs := by
  constructor
  · intro hR n hn hst
    obtain ⟨a, ha⟩ := id hst
    have hlast := hC.vacant_lt (ha (a + n - 1) (by omega) (by omega))
    have hpages := hC.laid.pages_lt
    have hneed : need (lengthOf n) = n := need_lengthOf hn (by omega)
    have hsat := hR Cap.null (lengthOf n) (protRead ||| protWrite) (mapPrivate ||| mapAnonymous) rfl rfl
      (by rw [hneed]; exact hst)
    obtain ⟨-, -, -, h, hh, hsuits⟩ := (satisfies_iff hC).1 hsat
    rw [hneed, suits_iff] at hsuits
    exact ⟨h, hh, hsuits⟩
  · intro hU addr length prot flags hn hp hst
    obtain ⟨h, hh, hsuits⟩ := hU _ (need_pos length) hst
    exact (satisfies_iff hC).2 ⟨hload, hn, hp, h, hh, suits_iff.2 hsuits⟩

/-! ## Chunks that are apart -/

/-- **No two unused chunks are adjacent.** -/
def Parted (mm : State) (hs : List Nat) : Prop :=
  ∀ h ∈ hs, h + mm.len h ∈ hs → (mm.page h).status = .unused → (mm.page (h + mm.len h)).status ≠ .unused

/-- Then a run of unused pages is part of one chunk. -/
theorem Parted.unbroken (hP : Parted mm hs) (hC : Chunks heap mm hs) : Unbroken mm hs := by
  rintro n hn ⟨a, ha⟩
  obtain ⟨h, hh, hun, hle, hlt⟩ := ha a (Nat.le_refl _) (by omega)
  refine ⟨h, hh, hun, ?_⟩
  by_contra hshort
  -- the page after the chunk is in the run, and its chunk starts there
  obtain ⟨k, hk, hkun, hkle, hklt⟩ := ha (h + mm.len h) (by omega) (by omega)
  have hne : h ≠ k := by
    rintro rfl
    omega
  have hnext : k = h + mm.len h := by
    rcases hC.tiles.apart hh hk hne with hap | hap <;> omega
  exact hP h hh (hnext ▸ hk) hun (hnext ▸ hkun)

/-- The chunk at `p` has an unused one before or after it. -/
def State.Beside (mm : State) (hs : List Nat) (p : Nat) : Prop :=
  p ∈ hs ∧ ∃ k ∈ hs, (mm.page k).status = .unused ∧ (k = p + mm.len p ∨ k + mm.len k = p)

theorem Parted.freed (hP : Parted mm hs) (hC : Chunks heap mm hs) {p : Nat} (hno : ¬ mm.Beside hs p) :
    Parted (mm.freed p) hs := by
  intro h hh hnext hun hun'
  rw [freed_len] at hnext hun'
  rw [freed_status] at hun hun'
  have hpos := (hC.tiles.bounds hh).2.1
  by_cases hhp : h = p
  · subst hhp
    rw [if_neg (by omega)] at hun'
    exact hno ⟨hh, _, hnext, hun', .inl rfl⟩
  · rw [if_neg hhp] at hun
    by_cases hkp : h + mm.len h = p
    · exact hno ⟨hkp ▸ hnext, h, hh, hun, .inr hkp⟩
    · rw [if_neg hkp] at hun'
      exact hP h hh hnext hun hun'

theorem Parted.carved (hP : Parted mm hs) (hC : Chunks heap mm hs) (hh : h ∈ hs)
    (hun : (mm.page h).status = .unused) (hle : n ≤ mm.len h) (hn : 0 < n) (hcut : Carved heap mm hs h n mm' hs') :
    Parted mm' hs' := by
  have hother : ∀ k ∈ hs, k ≠ h → mm'.len k = mm.len k := fun k hk hne => by
    rw [State.len, State.len, hcut.others k hk hne]
  intro k hk hnext hkun hkun'
  -- what is left of the chunk ends where the chunk ended, and the chunk itself is used now
  rcases (hcut.heads k).1 hk with hold | ⟨hlt, rfl⟩
  · have hne : k ≠ h := by
      rintro rfl
      rw [hcut.used.1] at hkun
      cases hkun
    rw [hother k hold hne] at hnext hkun'
    rw [hcut.others k hold hne] at hkun
    have hne' : k + mm.len k ≠ h := fun he => by
      rw [he, hcut.used.1] at hkun'
      cases hkun'
    rcases (hcut.heads _).1 hnext with hold' | ⟨hlt, he⟩
    · rw [hcut.others _ hold' hne'] at hkun'
      exact hP k hold hold' hkun hkun'
    · have hap := hC.tiles.apart hold hh hne
      omega
  · obtain ⟨-, hlen⟩ := hcut.rest hlt
    have hend : h + n + mm'.len (h + n) = h + mm.len h := by omega
    rw [hend] at hnext hkun'
    have hnew : h + mm.len h ≠ h := by omega
    rcases (hcut.heads _).1 hnext with hold | ⟨-, he⟩
    · rw [hcut.others _ hold hnew] at hkun'
      exact hP h hh hold hun hkun'
    · omega

/-! ## What a step does to the book -/

/-- **What a step does to the book**: nothing, or it hands a chunk out, or it marks one unused. -/
inductive BookEnd (heap : Cap) (s : Sys) (hs : List Nat) : Event → Sys → List Nat → Prop where
  | same {e : Event} {s' : Sys} : (∀ client addr length prot flags, e = .mmap client addr length prot flags →
      ¬ Satisfies s.mm addr length prot flags) → s'.mm.page = s.mm.page → s'.held = s.held → BookEnd heap s hs e s' hs
  | taken {client : Client} {addr : Cap} {length : BitVec 64} {prot flags perms : BitVec 32} {h : Nat} {s' : Sys}
      {hs' : List Nat} : Satisfies s.mm addr length prot flags → h ∈ hs → (s.mm.page h).status = .unused →
      need length ≤ s.mm.len h → Carved heap s.mm hs h (need length) s'.mm hs' →
      s'.held = ⟨client, s.mm.region h length perms⟩ :: s.held →
      BookEnd heap s hs (.mmap client addr length prot flags) s' hs'
  | freed {client : Client} {c : Cap} {length : BitVec 64} {mm : State} {s' : Sys} :
      munmap c length s.mm = .ok (0, mm) → s'.mm.page = (s.mm.freed (s.mm.pageOf c)).page →
      s'.held = s.held.erase ⟨client, c⟩ → BookEnd heap s hs (.munmap client c length) s' hs

theorem not_satisfies_of_failed (hr : mmap addr length prot flags mm = .ok (mapFailed, mm')) :
    ¬ Satisfies mm addr length prot flags := by
  rintro ⟨c, m, hr', hne⟩
  rw [hr] at hr'
  exact hne (congrArg Prod.fst (Except.ok.inj hr')).symm

theorem Step.book (hC : Chunks heap s.mm hs) (h : Step s e s') :
    ∃ hs', BookEnd heap s hs e s' hs' ∧ Chunks heap s'.mm hs' ∧ s'.mm.pool = s.mm.pool ∧ s'.mm.pagesNb = s.mm.pagesNb := by
  cases h.cases.2 with
  | @mmapped client addr p length prot flags mm hr =>
    obtain ⟨-, hend, -⟩ := (mmap_ends hC.laid hC.tiles _ _ _ _).ok hr
    cases hend with
    | invalid =>
      refine ⟨hs, .same ?_ rfl (by simp), hC.congr rfl rfl rfl rfl, rfl, rfl⟩
      rintro _ _ _ _ _ ⟨⟩
      exact not_satisfies_of_failed hr
    | noSpace =>
      refine ⟨hs, .same ?_ rfl (by simp), hC, rfl, rfl⟩
      rintro _ _ _ _ _ ⟨⟩
      exact not_satisfies_of_failed hr
    | @mapped perms k _ hfind =>
      obtain ⟨hh, hun, hle⟩ := suits_of_find hfind
      have hne : s.mm.region k length perms ≠ mapFailed := region_ne_mapFailed hC.laid
      obtain ⟨hs', hcut⟩ := hC.carved hh hle
      exact ⟨hs', .taken ⟨_, _, hr, hne⟩ hh hun hle hcut (if_neg hne), hcut.chunks, hcut.pool.1, hcut.pool.2.1⟩
  | mmapStopped hr =>
    obtain ⟨rfl, -⟩ := (mmap_ends hC.laid hC.tiles _ _ _ _).error hr
    refine ⟨hs, .same ?_ rfl rfl, hC, rfl, rfl⟩
    rintro _ _ _ _ _ ⟨⟩ ⟨c, m, hr', -⟩
    rw [hr] at hr'
    cases hr'
  | @munmapped client c length r mm _ hr =>
    have hend := (munmap_ends hC.laid c length).ok hr
    cases hend with
    | refused => exact ⟨hs, .same nofun rfl (by simp), hC.congr rfl rfl rfl rfl, rfl, rfl⟩
    | freed =>
      have hC' : Chunks heap (s.mm.wipe c.addr (wiped c length)) hs := hC.congr rfl rfl rfl rfl
      exact ⟨hs, .freed hr rfl (by simp), hC'.freed _, rfl, rfl⟩
  | munmapStopped _ hr =>
    obtain ⟨rfl, -⟩ := (munmap_ends hC.laid _ _).error hr
    exact ⟨hs, .same nofun rfl rfl, hC.congr rfl rfl rfl rfl, rfl, rfl⟩
  | stored => exact ⟨hs, .same nofun rfl rfl, hC.congr rfl rfl rfl rfl, rfl, rfl⟩

/-! ## Runs without gaps -/

/-- **A release beside an unused chunk.** -/
def LeavesGap (st : Transition.Step Sys Event) : Prop :=
  ∃ client c length mm, st.ev = .munmap client c length ∧ munmap c length st.pre.mm = .ok (0, mm) ∧
    ∃ hs, Tiles st.pre.mm.len 0 hs st.pre.mm.pagesNb.toNat ∧ st.pre.mm.Beside hs (st.pre.mm.pageOf c)

theorem Parted.congr (hP : Parted mm hs) (hpage : mm'.page = mm.page) : Parted mm' hs := by
  unfold Parted State.len at hP ⊢
  rw [hpage]
  exact hP

theorem Parted.step (hP : Parted s.mm hs) (hC : Chunks heap s.mm hs) (h : Step s e s') (hno : ¬ LeavesGap ⟨s, e, s'⟩) :
    ∃ hs', Chunks heap s'.mm hs' ∧ Parted s'.mm hs' := by
  obtain ⟨hs', hend, hC', -, -⟩ := h.book hC
  refine ⟨hs', hC', ?_⟩
  cases hend with
  | same _ hpage => exact hP.congr hpage
  | taken _ hh hun hle hcut => exact hP.carved hC hh hun hle (need_pos _) hcut
  | freed hr hpage => exact (hP.freed hC fun hb => hno ⟨_, _, _, _, rfl, hr, hs, hC.tiles, hb⟩).congr hpage

theorem parted_runs (hr : ManagerRun heap tr s) (hno : ∀ st ∈ tr, ¬ LeavesGap st) :
    ∃ hs, Chunks heap s.mm hs ∧ Parted s.mm hs := by
  refine Transition.Run.inv_of (I := fun s => ∃ hs, Chunks heap s.mm hs ∧ Parted s.mm hs)
    (C := fun st => ¬ LeavesGap st) (fun s h => ?_) (fun s e s' ⟨hs, hC, hP⟩ hst hk => hP.step hC hst hk) hr hno
  refine ⟨[0], h.chunks, fun k hk hnext => ?_⟩
  have hpos := (h.chunks.tiles.bounds hk).2.1
  rw [List.mem_singleton] at hk hnext
  omega

/-! ## Everything given back -/

/-- **The book while it has one chunk.** -/
def Whole (mm : State) : Prop := mm.len 0 = mm.pagesNb.toNat

/-- **A request that splits the pool**: it succeeds and needs less than all of it. -/
def Splits (st : Transition.Step Sys Event) : Prop :=
  ∃ client addr length prot flags, st.ev = .mmap client addr length prot flags ∧
    Satisfies st.pre.mm addr length prot flags ∧ need length < st.pre.mm.pagesNb.toNat

theorem Chunks.zero_mem (hC : Chunks heap mm hs) : 0 ∈ hs := by
  have hpages := hC.laid.pages
  generalize ha : mm.pagesNb.toNat = b at hpages
  have ht := hC.tiles
  rw [ha] at ht
  cases ht with
  | nil => omega
  | cons => exact List.mem_cons_self

/-- **One step**: the pool stays whole exactly as long as nothing splits it. -/
theorem Whole.step (hC : Chunks heap s.mm hs) (hst : Step s e s') :
    Whole s'.mm ↔ Whole s.mm ∧ ¬ Splits ⟨s, e, s'⟩ := by
  obtain ⟨hs', hend, -, -, hnb⟩ := hst.book hC
  unfold Whole
  rw [hnb]
  cases hend with
  | same hno hpage =>
    have hsame : ¬ Splits ⟨s, e, s'⟩ := by
      rintro ⟨client, addr, length, prot, flags, he, hsat, -⟩
      exact hno client addr length prot flags he hsat
    rw [State.len, hpage, and_iff_left hsame]
    rfl
  | @taken client addr length prot flags perms h _ _ hsat hh hun hle hcut =>
    have hend := (hC.tiles.bounds hh).2.2
    have hsplit : Splits ⟨s, .mmap client addr length prot flags, s'⟩ ↔ need length < s.mm.pagesNb.toNat := by
      constructor
      · rintro ⟨_, _, _, _, _, ⟨⟩, -, hlt⟩
        exact hlt
      · exact fun hlt => ⟨client, addr, length, prot, flags, rfl, hsat, hlt⟩
    rw [hsplit]
    by_cases h0 : h = 0
    · subst h0
      rw [hcut.used.2]
      omega
    · -- the first chunk ends before the one that is taken
      have hfirst : s.mm.len 0 < s.mm.pagesNb.toNat := by
        rcases hC.tiles.apart hC.zero_mem hh (Ne.symm h0) with hap | hap
        · have hpos := (hC.tiles.bounds hh).2.1
          omega
        · have hpos := (hC.tiles.bounds hh).2.1
          omega
      rw [State.len, hcut.others 0 hC.zero_mem (Ne.symm h0)]
      unfold State.len at hfirst ⊢
      omega
  | freed hr hpage =>
    have hsame : ∀ client c length, ¬ Splits ⟨s, .munmap client c length, s'⟩ := by
      rintro _ _ _ ⟨_, _, _, _, _, ⟨⟩, -⟩
    have hlen : s'.mm.len = s.mm.len := by
      have hf := freed_len s.mm (s.mm.pageOf ‹Cap›)
      unfold State.len at hf ⊢
      rw [hpage]
      exact hf
    rw [hlen, and_iff_left (hsame _ _ _)]

theorem whole_runs (hr : ManagerRun heap tr s) :
    (∃ hs, Chunks heap s.mm hs) ∧ (Whole s.mm ↔ ∀ st ∈ tr, ¬ Splits st) := by
  induction hr with
  | nil h => exact ⟨⟨_, h.chunks⟩, by
      obtain ⟨mm₀, mm, hinit, rfl⟩ := h
      have hpage := ((minit_ends heap mm₀).ok hinit).2
      simp [Whole, State.len, hpage]⟩
  | @cons tr s s' e hr hst ih =>
    obtain ⟨⟨hs, hC⟩, hiff⟩ := ih
    obtain ⟨hs', -, hC', -⟩ := hst.book hC
    refine ⟨⟨hs', hC'⟩, ?_⟩
    rw [Whole.step hC hst, hiff, List.forall_mem_cons, and_comm]

/-- **A used chunk has a holder**, whatever is given back. -/
theorem live_runs (hr : ManagerRun heap tr s) :
    ∃ hs, Chunks heap s.mm hs ∧ ∀ h ∈ hs, (s.mm.page h).status = .used → ∃ m ∈ s.held, s.mm.pageOf m.cap = h := by
  refine Transition.Run.inv (I := fun s => ∃ hs, Chunks heap s.mm hs ∧
    ∀ h ∈ hs, (s.mm.page h).status = .used → ∃ m ∈ s.held, s.mm.pageOf m.cap = h) (fun s h => ?_) ?_ hr
  · exact ⟨[0], h.chunks, h.book.live⟩
  rintro s e s' ⟨hs, hC, hlive⟩ hst
  obtain ⟨hs', hend, hC', hpool, -⟩ := hst.book hC
  have hof : ∀ c, s'.mm.pageOf c = s.mm.pageOf c := pageOf_congr hpool
  refine ⟨hs', hC', fun k hk hused => ?_⟩
  simp only [hof]
  cases hend with
  | same _ hpage hheld =>
    rw [hpage] at hused
    rw [hheld]
    exact hlive k hk hused
  | @taken client addr length prot flags perms h _ _ _ hh hun hle hcut hheld =>
    rw [hheld]
    have hpages := hC.laid.pages_lt
    have hend := (hC.tiles.bounds hh).2.2
    by_cases hkh : k = h
    · exact ⟨_, List.mem_cons_self, (pageOf_region (by omega)).trans hkh.symm⟩
    rcases (hcut.heads k).1 hk with hold | ⟨hlt, rfl⟩
    · rw [hcut.others k hold hkh] at hused
      obtain ⟨m, hm, he⟩ := hlive k hold hused
      exact ⟨m, List.mem_cons_of_mem _ hm, he⟩
    · rw [(hcut.rest hlt).1] at hused
      cases hused
  | @freed client c length mm _ hr hpage hheld =>
    rw [hpage, freed_status] at hused
    split at hused
    · cases hused
    · rename_i hne
      obtain ⟨m, hm, he⟩ := hlive k hk hused
      refine ⟨m, ?_, he⟩
      rw [hheld]
      refine (List.mem_erase_of_ne ?_).2 hm
      rintro rfl
      exact hne he.symm

/-! ### The fresh pool -/

theorem writeBook_pages (i : BitVec 64) (f : Page → Page) (mm : State) :
    Ends (writeBook i f) mm (fun _ mm' => mm'.pagesNb = mm.pagesNb) (fun _ _ => True) :=
  ends_get_bind.2 (access_bind (fun _ => rfl) (fun _ _ => trivial))

/-- **How many pages a heap has.** -/
theorem minit_pages (heap : Cap) (mm : State) :
    Ends (minit heap) mm (fun _ mm' => mm'.pagesNb = heap.len / (pagesz + sizeofPage)) (fun _ _ => True) := by
  refine ends_require_bind (fun _ => ends_require_bind (fun _ => ends_modify_bind.2 (ends_require_bind (fun _ => ?_)
    (fun _ => trivial))) (fun _ => trivial)) (fun _ => trivial)
  refine derived_bind (fun pool _ => ends_modify_bind.2 (ends_require_bind (fun _ => ?_) (fun _ => trivial)))
    (fun _ _ => trivial)
  refine derived_bind (fun book _ => ends_modify_bind.2 ?_) (fun _ _ => trivial)
  exact (writeBook_pages _ _ _).bind fun _ mm' h => (writeBook_pages _ _ mm').mono (fun _ _ h' => h'.trans h)
    (fun _ _ => id)

theorem Started.pages (h : Started heap s) : s.mm.pagesNb = heap.len / (pagesz + sizeofPage) := by
  obtain ⟨mm₀, mm, hinit, rfl⟩ := h
  exact (minit_pages heap mm₀).ok hinit

theorem pages_runs (hr : ManagerRun heap tr s) : s.mm.pagesNb = heap.len / (pagesz + sizeofPage) := by
  have hinv : (∃ hs, Chunks heap s.mm hs) ∧ s.mm.pagesNb = heap.len / (pagesz + sizeofPage) := by
    refine Transition.Run.inv (I := fun s => (∃ hs, Chunks heap s.mm hs) ∧
      s.mm.pagesNb = heap.len / (pagesz + sizeofPage)) (fun s h => ⟨⟨_, h.chunks⟩, h.pages⟩) ?_ hr
    rintro s e s' ⟨⟨hs, hC⟩, hp⟩ hst
    obtain ⟨hs', -, hC', -, hnb⟩ := hst.book hC
    exact ⟨⟨hs', hC'⟩, hnb.trans hp⟩
  exact hinv.2

theorem ManagerRun.started (hr : ManagerRun heap tr s) : ∃ s₀, Started heap s₀ := by
  induction hr with
  | nil h => exact ⟨_, h⟩
  | cons _ _ ih => exact ih

/-- **What a fresh pool satisfies**: every request for no more than all of it. -/
theorem Started.satisfies_iff (h : Started heap s) : Satisfies s.mm addr length prot flags ↔
    heap.hasPerms Cap.permLoad = true ∧ addr.isNull = true ∧ (mmapPerms prot flags).isSome = true ∧
      need length ≤ s.mm.pagesNb.toNat := by
  obtain ⟨mm₀, mm, hinit, rfl⟩ := id h
  obtain ⟨-, hpage⟩ := (minit_ends heap mm₀).ok hinit
  refine (Memmgt.satisfies_iff h.chunks).trans (and_congr_right' (and_congr_right' (and_congr_right' ?_)))
  simp [suits_iff, State.len, hpage]

/-- **When all is given back**, every chunk is unused. -/
theorem unused_runs (hr : ManagerRun heap tr s) (hheld : s.held = []) :
    ∃ hs, Chunks heap s.mm hs ∧ ∀ h ∈ hs, (s.mm.page h).status = .unused := by
  obtain ⟨hs, hC, hlive⟩ := live_runs hr
  refine ⟨hs, hC, fun h hh => (hC.status h hh).resolve_left fun hused => ?_⟩
  obtain ⟨m, hm, -⟩ := hlive h hh hused
  rw [hheld] at hm
  exact List.not_mem_nil hm

/-- **When all is given back**, the pool serves as a fresh one exactly when no request has split it. -/
theorem reused_iff (hr : ManagerRun heap tr s) (hheld : s.held = []) :
    (∀ s₀, Started heap s₀ → ∀ addr length prot flags, Satisfies s₀.mm addr length prot flags →
      Satisfies s.mm addr length prot flags) ↔ ∀ st ∈ tr, ¬ Splits st := by
  obtain ⟨hs, hC, hun⟩ := unused_runs hr hheld
  have hpages : ∀ s₀, Started heap s₀ → s₀.mm.pagesNb = s.mm.pagesNb := fun s₀ h₀ => h₀.pages.trans (pages_runs hr).symm
  constructor
  · intro hall
    obtain ⟨s₀, h₀⟩ := hr.started
    by_cases hload : heap.hasPerms Cap.permLoad = true
    · -- ask for the whole pool again
      have hN := hC.laid.pages_lt
      have hneed : need (lengthOf s.mm.pagesNb.toNat) = s.mm.pagesNb.toNat := need_lengthOf hC.laid.pages hN
      have hfresh : Satisfies s₀.mm Cap.null (lengthOf s.mm.pagesNb.toNat) (protRead ||| protWrite)
          (mapPrivate ||| mapAnonymous) :=
        h₀.satisfies_iff.2 ⟨hload, rfl, rfl, by rw [hneed, hpages s₀ h₀]⟩
      obtain ⟨-, -, -, h, hh, hsuits⟩ := (satisfies_iff hC).1 (hall s₀ h₀ _ _ _ _ hfresh)
      rw [hneed, suits_iff] at hsuits
      obtain ⟨-, hpos, hend⟩ := hC.tiles.bounds hh
      obtain rfl : h = 0 := by omega
      exact (whole_runs hr).2.1 (by unfold Whole; omega)
    · rintro st hst ⟨_, _, _, _, _, -, hsat, -⟩
      obtain ⟨newer, older, -, hpre, -⟩ := hr.cut_of_mem hst
      obtain ⟨⟨hs', hC'⟩, -⟩ := whole_runs hpre
      exact hload ((satisfies_iff hC').1 hsat).1
  · intro hno s₀ h₀ addr length prot flags hsat
    have hwhole : s.mm.len 0 = s.mm.pagesNb.toNat := (whole_runs hr).2.2 hno
    obtain ⟨hload, hn, hp, hle⟩ := h₀.satisfies_iff.1 hsat
    rw [hpages s₀ h₀] at hle
    exact (satisfies_iff hC).2 ⟨hload, hn, hp, 0, hC.zero_mem, suits_iff.2 ⟨hun 0 hC.zero_mem, by omega⟩⟩

/-- **What released memory is good for.**  After every run that leaves no mapping live, all that the fresh pool would have
satisfied is satisfied exactly when no request of the run took less than the whole pool; in every state of every run,
every run of unused pages serves exactly when no group of adjacent unused chunks is longer than every single one; and in
every run that gives no chunk back beside an unused one, it does. -/
theorem memory_reused (hr : ManagerRun heap tr s) (hload : heap.hasPerms Cap.permLoad = true) :
    (s.held = [] → ((∀ s₀, Started heap s₀ → ∀ addr length prot flags, Satisfies s₀.mm addr length prot flags →
      Satisfies s.mm addr length prot flags) ↔ ∀ st ∈ tr, ¬ Splits st)) ∧
    (∃ hs, Chunks heap s.mm hs) ∧
    ∀ hs, Chunks heap s.mm hs → (Reuses s.mm hs ↔ Unbroken s.mm hs) ∧ ((∀ st ∈ tr, ¬ LeavesGap st) → Reuses s.mm hs) := by
  refine ⟨reused_iff hr, (whole_runs hr).1, fun hs hC => ⟨reuses_iff hC hload, fun hno => ?_⟩⟩
  obtain ⟨hs', hC', hP⟩ := parted_runs hr hno
  obtain rfl : hs' = hs := hC'.tiles.unique hC.tiles
  exact (reuses_iff hC hload).2 (hP.unbroken hC)

/-- A client has the whole pool and gives it back. -/
theorem memory_reused_whole : ∃ tr s s₀, ManagerRun smallHeap tr s ∧ Started smallHeap s₀ ∧
    ∀ addr length prot flags, Satisfies s₀.mm addr length prot flags → Satisfies s.mm addr length prot flags := by
  obtain ⟨tr, s, hr, -, hok, hheld⟩ := play_run smallHeap
    (fun s e => match e with
      | .mmap _ _ length _ _ => decide (s.mm.pagesNb.toNat ≤ need length)
      | _ => true)
    [ask 0 16384, .munmap 0 (regionAt 0 16384) 16384] (fun s => decide (s.held = [])) (by decide +kernel)
  obtain ⟨s₀, h₀⟩ := hr.started
  refine ⟨tr, s, s₀, hr, h₀, ((memory_reused hr rfl).1 (of_decide_eq_true hheld)).2 ?_ s₀ h₀⟩
  rintro st hst ⟨client, addr, length, prot, flags, he, -, hlt⟩
  have hall := hok st hst
  rw [he] at hall
  exact Nat.not_lt.2 (of_decide_eq_true hall) hlt

/-- **A pool that stays split**: a page is mapped and given back, and nothing is live, but a request for the whole pool,
which a fresh one satisfies, fails. -/
theorem memory_reused_fails : ∃ tr s s₀, ManagerRun smallHeap tr s ∧ s.held = [] ∧
    tr.map (·.ev) = [.munmap 0 (regionAt 0 4096) 4096, ask 0 4096] ∧ Started smallHeap s₀ ∧
    Satisfies s₀.mm Cap.null 16384 (protRead ||| protWrite) (mapPrivate ||| mapAnonymous) ∧
    (∃ hs, Chunks smallHeap s.mm hs ∧ s.mm.Stretch hs (need 16384)) ∧
    ¬ Satisfies s.mm Cap.null 16384 (protRead ||| protWrite) (mapPrivate ||| mapAnonymous) := by
  obtain ⟨tr, s, hr, hev, -, hp⟩ := play_run smallHeap (fun _ _ => true)
    [ask 0 4096, .munmap 0 (regionAt 0 4096) 4096]
    (fun s => decide (s.held = []) && (s.mm.pagesNb == 5 &&
      mapsTo (mmap Cap.null 16384 (protRead ||| protWrite) (mapPrivate ||| mapAnonymous) s.mm) mapFailed))
    (by decide +kernel)
  simp only [Bool.and_eq_true, decide_eq_true_eq, beq_iff_eq] at hp
  obtain ⟨hheld, hnb, hfail⟩ := hp
  obtain ⟨mm', hfail⟩ := mapsTo_iff.1 hfail
  obtain ⟨s₀, h₀⟩ := hr.started
  obtain ⟨hs, hC, hun⟩ := unused_runs hr hheld
  have hnb₀ : s₀.mm.pagesNb = 5 := h₀.pages.trans ((pages_runs hr).symm.trans hnb)
  have hfresh : Satisfies s₀.mm Cap.null 16384 (protRead ||| protWrite) (mapPrivate ||| mapAnonymous) :=
    h₀.satisfies_iff.2 ⟨rfl, rfl, rfl, by rw [hnb₀]; decide⟩
  refine ⟨tr, s, s₀, hr, hheld, hev, h₀, hfresh, ⟨hs, hC, 0, fun x _ hx => ?_⟩, not_satisfies_of_failed hfail⟩
  have hin : x < s.mm.pagesNb.toNat := by
    rw [hnb]
    exact hx
  obtain ⟨h, hh, hle, hlt⟩ := hC.tiles.covers (Nat.zero_le x) hin
  exact ⟨h, hh, hun h hh, hle, hlt⟩

end Memmgt
end CheriOS
