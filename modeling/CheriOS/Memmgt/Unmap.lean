import CheriOS.Memmgt.Separation
/-!
# Unmap — giving a mapping back

`__mmap` rounds a length up to whole pages; `__munmap` clears the region through the capability it is given and compares
the length as it is.  So only some of what `__mmap` returns can be given back, and a length that is wrong is not refused
but stops the system.
-/
namespace CheriOS
namespace Memmgt

open Outcome Tiling

variable {heap c : Cap} {mm mm' : State} {hs : List Nat} {h : Nat} {length : BitVec 64} {prot flags perms : BitVec 32}
  {s s' : Sys} {e : Event} {tr : List (Transition.Step Sys Event)}

/-! ## Every run -/

theorem Started.chunks (h : Started heap s) : Chunks heap s.mm [0] := h.book.chunks

/-- **The chunks stay chunks** whatever the clients do. -/
theorem Chunks.step (hC : Chunks heap s.mm hs) (h : Step s e s') : ∃ hs', Chunks heap s'.mm hs' := by
  cases h.cases.2 with
  | mmapped hr =>
    obtain ⟨-, hend, -⟩ := (mmap_ends hC.laid hC.tiles _ _ _ _).ok hr
    cases hend with
    | invalid => exact ⟨hs, hC.congr rfl rfl rfl rfl⟩
    | noSpace => exact ⟨hs, hC⟩
    | mapped _ hfind =>
      obtain ⟨hh, -, hle⟩ := suits_of_find hfind
      have hw := hC.need_toNat hh hle
      obtain ⟨hs', hC', -⟩ := hC.take hh (by rw [hw]; exact need_pos _) (by rw [hw]; exact hle)
      exact ⟨hs', hC'⟩
  | mmapStopped hr =>
    obtain ⟨rfl, -⟩ := (mmap_ends hC.laid hC.tiles _ _ _ _).error hr
    exact ⟨hs, hC⟩
  | @munmapped client c length r mm _ hr =>
    cases (munmap_ends hC.laid c length).ok hr with
    | refused => exact ⟨hs, hC.congr rfl rfl rfl rfl⟩
    | freed =>
      have hC' : Chunks heap (s.mm.wipe c.addr (wiped c length)) hs := hC.congr rfl rfl rfl rfl
      exact ⟨hs, hC'.freed _⟩
  | munmapStopped _ hr =>
    obtain ⟨rfl, -⟩ := (munmap_ends hC.laid _ _).error hr
    exact ⟨hs, hC.congr rfl rfl rfl rfl⟩
  | stored => exact ⟨hs, hC.congr rfl rfl rfl rfl⟩

/-! ## Permissions -/

/-- What is asked for always includes the right to give it back, and the right to store where `prot` says so. -/
theorem mmapPerms_bits (h : mmapPerms prot flags = some perms) :
    perms &&& Cap.permSoft1 = Cap.permSoft1 ∧ (perms &&& Cap.permStore = Cap.permStore ↔ has prot protWrite = true) := by
  unfold mmapPerms at h
  generalize has flags mapAnonymous = anonymous at h
  generalize has flags mapPrivate = isPrivate at h
  generalize has flags mapShared = shared at h
  generalize has prot protRead = r at h
  generalize has prot protWrite = w at h ⊢
  generalize has prot protNoReadCap = noReadCap at h
  generalize has prot protNoWriteCap = noWriteCap at h
  cases anonymous
  · cases h
  cases isPrivate <;> cases shared <;> first | cases h; done | skip
  all_goals
    obtain rfl := Option.some.inj h
    clear h
    revert r w noReadCap noWriteCap
    decide

theorem region_perms (hL : Laid heap mm) : (mm.region h length perms).perms = heap.perms &&& perms := by
  show mm.pool.perms &&& perms = heap.perms &&& perms
  rw [hL.pool]

theorem region_bits (h : Nat) (length : BitVec 64) (hL : Laid heap mm) (hp : mmapPerms prot flags = some perms) :
    (mm.region h length perms).perms &&& Cap.permSoft1 = heap.perms &&& Cap.permSoft1 ∧
      ((mm.region h length perms).hasPerms Cap.permStore = true ↔ has prot protWrite = true) := by
  obtain ⟨hsoft, hstore⟩ := mmapPerms_bits hp
  have hheap : heap.perms &&& Cap.permStore = Cap.permStore := by simpa [Cap.hasPerms] using hL.store
  rw [region_perms hL, ← hstore, Cap.hasPerms, region_perms hL, beq_iff_eq, BitVec.and_assoc, BitVec.and_assoc]
  refine ⟨by rw [hsoft], ⟨fun h => ?_, fun h => by rw [h, hheap]⟩⟩
  calc perms &&& Cap.permStore = perms &&& (heap.perms &&& (perms &&& Cap.permStore)) := by rw [h]
    _ = heap.perms &&& (perms &&& Cap.permStore) := by
      rw [← BitVec.and_assoc, BitVec.and_comm perms, BitVec.and_assoc, ← BitVec.and_assoc perms, BitVec.and_self]
    _ = Cap.permStore := h

/-! ## What `__munmap` does with a mapping -/

/-- **`__munmap` takes the mapping back**: it returns 0, and exactly its chunk becomes unused. -/
def TakesBack (mm : State) (c : Cap) (length : BitVec 64) : Prop :=
  ∃ mm', munmap c length mm = .ok (0, mm') ∧
    ∀ k, mm'.page k = if k = mm.pageOf c then { mm.page k with status := .unused } else mm.page k

/-- **`__munmap` refuses**: it returns -1, and the book and the memory are as they were. -/
def Refuses (mm : State) (c : Cap) (length : BitVec 64) : Prop :=
  ∃ mm', munmap c length mm = .ok (-1, mm') ∧ mm'.page = mm.page ∧ mm'.mem = mm.mem

theorem bzero_eq (hall : wiped c length = length.toNat) :
    bzero c length mm = .ok ((), mm.wipe c.addr (wiped c length)) := by
  have hends := bzero_ends c length mm
  cases hr : bzero c length mm with
  | ok r =>
    have hr' : bzero c length mm = .ok ((), r.2) := hr
    exact congrArg Except.ok (Prod.ext rfl (hends.ok hr').1)
  | error r =>
    have hr' : bzero c length mm = .error (r.1, r.2) := hr
    have hlt := (hends.error hr').2.1
    omega

theorem addr2chunk_returns {n : BitVec 64} (hL : Laid heap mm) (hload : heap.hasPerms Cap.permLoad = true)
    (haddr : c.addr = mm.pool.addr + pageAt mm.pool c * pagesz) (hlt : mm.pageOf c < mm.pagesNb.toNat)
    (hlen : n = pagesz * (mm.page (mm.pageOf c)).len) :
    Ends (addr2chunk c n) mm (fun page s' => page = pageAt mm.pool c ∧ s' = mm) (fun _ _ => False) := by
  have hpage : Ends (addr2page c) mm (fun page s' => page = pageAt mm.pool c ∧ s' = mm) (fun _ _ => False) :=
    ends_get_bind.2 (ends_require_bind (fun _ => ⟨rfl, rfl⟩) (fun hno => absurd haddr (ne_of_beq_false hno)))
  apply hpage.bind
  rintro _ _ ⟨rfl, rfl⟩
  refine Ends.after (hL.readBook_eq hload hlt) (ends_require_bind (fun _ => ⟨rfl, rfl⟩) (fun hno => ?_))
  exact absurd hlen (ne_of_beq_false hno)

/-- **`__munmap` succeeds** where it can clear the region and the length is the chunk's. -/
theorem munmap_eq (hL : Laid heap mm) (hload : heap.hasPerms Cap.permLoad = true) (hperm : c.perms &&& Cap.permSoft1 ≠ 0)
    (hall : wiped c length = length.toNat)
    (haddr : c.addr = mm.pool.addr + BitVec.ofNat 64 (mm.pageOf c) * pagesz) (hlt : mm.pageOf c < mm.pagesNb.toNat)
    (hlen : length + pagesz = pagesz * (mm.page (mm.pageOf c)).len) :
    munmap c length mm = .ok (0, (mm.wipe c.addr (wiped c length)).freed (mm.pageOf c)) := by
  obtain ⟨m, hm⟩ : ∃ m, m = mm.wipe c.addr (wiped c length) := ⟨_, rfl⟩
  have hpool : m.pool = mm.pool := by rw [hm]; rfl
  have hentry : m.page = mm.page := by rw [hm]; rfl
  have hnb : m.pagesNb = mm.pagesNb := by rw [hm]; rfl
  have hL' : Laid heap m := hL.congr hnb hpool (by rw [hm]; rfl)
  have hof : m.pageOf c = mm.pageOf c := pageOf_congr hpool c
  have hpage : pageAt mm.pool c = BitVec.ofNat 64 (mm.pageOf c) := by
    rw [State.pageOf, BitVec.ofNat_toNat, BitVec.setWidth_eq]
  have hends : Ends (munmap c length) mm (fun r s' => r = 0 ∧ s' = m.freed (mm.pageOf c)) (fun _ _ => False) := by
    refine Ends.ite (fun hno => absurd (by simpa using hno) hperm) (fun _ => Ends.after (bzero_eq hall) ?_)
    rw [← hm]
    refine (addr2chunk_returns hL' hload ?_ ?_ ?_).bind ?_
    · rw [hpool, hpage]
      exact haddr
    · rw [hof, hnb]
      exact hlt
    · rw [hof, hentry]
      exact hlen
    · rintro _ s' ⟨rfl, rfl⟩
      rw [← hof] at hlt
      exact Ends.after (hL'.writeBook_eq (hnb ▸ hlt) _) ⟨rfl, by rw [← hof]; rfl⟩
  rw [← hm]
  cases hr : munmap c length mm with
  | ok r =>
    have hr' : munmap c length mm = .ok (r.1, r.2) := hr
    exact congrArg Except.ok (Prod.ext (hends.ok hr').1 (hends.ok hr').2)
  | error r =>
    have hr' : munmap c length mm = .error (r.1, r.2) := hr
    exact (hends.error hr').elim

/-- The lengths agree exactly where nothing was rounded up. -/
theorem need_exact (hw : (BitVec.ofNat 64 (need length)).toNat = need length) :
    length + pagesz = pagesz * BitVec.ofNat 64 (need length) ↔ length.toNat % pagesz.toNat = 0 := by
  rw [← BitVec.toNat_inj, BitVec.toNat_add, BitVec.toNat_mul, hw, pagesz_toNat]
  unfold need
  rw [pagesz_toNat]
  omega

/-- **What `__mmap` hands out is cleared whole**, if it may be written. -/
theorem wiped_region (hL : Laid heap mm) (hp : mmapPerms prot flags = some perms)
    (hok : length = 0 ∨ has prot protWrite = true) : wiped (mm.region h length perms) length = length.toNat := by
  obtain ⟨-, hstore⟩ := region_bits h length hL hp
  rcases hok with rfl | hwrite
  · exact Nat.le_antisymm (wiped_le _ 0) (Nat.zero_le _)
  · have htag : (mm.region h length perms).tag = true := by
      show mm.pool.tag = true
      rw [hL.pool]
      exact hL.tag
    have hseal : (mm.region h length perms).isSealed = false := by
      show mm.pool.isSealed = false
      rw [hL.pool]
      exact hL.unsealed
    exact wiped_of_fits htag hseal (hstore.2 hwrite) (by show 0 + length.toNat ≤ length.toNat; omega)

/-- **Which mappings `__munmap` takes back** with the length they were asked for. -/
theorem takesBack_iff (hC : Chunks heap mm hs) (hload : heap.hasPerms Cap.permLoad = true)
    (hp : mmapPerms prot flags = some perms) (hfind : hs.find? (mm.suits (need length)) = some h) :
    TakesBack (mm.taken h (BitVec.ofNat 64 (need length))) (mm.region h length perms) length ↔
      heap.perms &&& Cap.permSoft1 ≠ 0 ∧ length.toNat % pagesz.toNat = 0 ∧
        (length = 0 ∨ has prot protWrite = true) := by
  obtain ⟨hh, -, hle⟩ := suits_of_find hfind
  have hpages := hC.laid.pages_lt
  have hend := (hC.tiles.bounds hh).2.2
  have hw := hC.need_toNat hh hle
  have hw0 : 0 < (BitVec.ofNat 64 (need length)).toNat := by
    rw [hw]
    exact need_pos _
  obtain ⟨hpool, hnb, hbook, -⟩ := taken_pool mm h (BitVec.ofNat 64 (need length))
  obtain ⟨hsoft, hstore⟩ := region_bits h length hC.laid hp
  set w := BitVec.ofNat 64 (need length) with hwdef
  set c := mm.region h length perms with hc
  have hL : Laid heap (mm.taken h w) := hC.laid.congr hnb hpool hbook
  have hof : (mm.taken h w).pageOf c = h := (pageOf_congr hpool c).trans (pageOf_region (by omega))
  have hentry : (mm.taken h w).page h = ⟨.used, w⟩ := taken_head hw0
  have hround := need_exact hw
  constructor
  · rintro ⟨mm', hr, -⟩
    cases (munmap_ends hL c length).ok hr with
    | freed hperm hall _ _ hl =>
      rw [hof, hentry] at hl
      refine ⟨by rwa [← hsoft], hround.1 hl, ?_⟩
      by_cases h0 : length = 0
      · exact .inl h0
      · have hstored : stored c (memsetStores c.addr length) 0 ≠ 0 := by
          show wiped c length ≠ 0
          rw [hall]
          exact fun hz => h0 (BitVec.eq_of_toNat_eq hz)
        exact .inr (hstore.1 (stored_perms hstored))
  · rintro ⟨hperm, hmul, hok⟩
    have hall : wiped c length = length.toNat := wiped_region hC.laid hp hok
    refine ⟨_, munmap_eq hL hload (by rwa [hsoft]) hall ?_ ?_ ?_, fun k => ?_⟩
    · rw [hof, hpool]
      exact BitVec.add_zero _
    · rw [hof, hnb]
      omega
    · rw [hof, hentry]
      exact hround.2 hmul
    · by_cases hk : k = (mm.taken h w).pageOf c
      · rw [if_pos hk, hk]
        exact put_page_self
      · rw [if_neg hk]
        exact put_page_of_ne hk

/-- **`__munmap` refuses** exactly what may not be given back. -/
theorem refuses_iff (hL : Laid heap mm) : Refuses mm c length ↔ c.perms &&& Cap.permSoft1 = 0 := by
  constructor
  · rintro ⟨mm', hr, -⟩
    cases (munmap_ends hL c length).ok hr with
    | refused hperm => exact hperm
  · intro hperm
    have hr : munmap c length mm = .ok (-1, { mm with errno := einval }) := by
      unfold munmap
      rw [if_pos (by simpa using hperm)]
      rfl
    exact ⟨_, hr, rfl, rfl⟩

/-! ## Runs -/

/-- A mapping may be given back where the heap may. -/
def Returnable (heap : Cap) (held : List Mapping) : Prop :=
  ∀ m ∈ held, m.cap.perms &&& Cap.permSoft1 = heap.perms &&& Cap.permSoft1

theorem Returnable.step (hR : Returnable heap s.held) (hC : Chunks heap s.mm hs) (h : Step s e s') :
    Returnable heap s'.held := by
  cases h.cases.2 with
  | mmapped hr =>
    obtain ⟨-, hend, -⟩ := (mmap_ends hC.laid hC.tiles _ _ _ _).ok hr
    intro m hm
    dsimp only at hm
    split at hm
    · exact hR m hm
    rename_i hne
    rcases List.mem_cons.1 hm with rfl | hm
    · cases hend with
      | invalid => exact absurd rfl hne
      | noSpace => exact absurd rfl hne
      | mapped hp => exact (region_bits _ _ hC.laid hp).1
    · exact hR m hm
  | mmapStopped => exact hR
  | munmapped =>
    intro m hm
    dsimp only at hm
    split at hm
    · exact hR m (List.mem_of_mem_erase hm)
    · exact hR m hm
  | munmapStopped => exact hR
  | stored => exact hR

theorem chunk_runs (hr : ManagerRun heap tr s) : (∃ hs, Chunks heap s.mm hs) ∧ Returnable heap s.held := by
  refine Transition.Run.inv (I := fun s => (∃ hs, Chunks heap s.mm hs) ∧ Returnable heap s.held) ?_ ?_ hr
  · intro s hs
    refine ⟨⟨_, hs.chunks⟩, ?_⟩
    obtain ⟨_, _, _, rfl⟩ := hs
    exact fun m hm => (List.not_mem_nil hm).elim
  · rintro s e s' ⟨⟨hs, hC⟩, hR⟩ hst
    exact ⟨hC.step hst, hR.step hC hst⟩

/-- **What `__munmap` undoes.**  After any run, what `__mmap` returns can be given back with the same length exactly when
the length is in whole pages and the region can be stored to, or is empty; and a live mapping with any other length than
its own is never refused, on a heap whose regions can be given back at all. -/
theorem munmap_undoes (hr : ManagerRun heap tr s) :
    (∀ addr length prot flags c mm', mmap addr length prot flags s.mm = .ok (c, mm') → c ≠ mapFailed →
      (TakesBack mm' c length ↔ heap.perms &&& Cap.permSoft1 ≠ 0 ∧ length.toNat % pagesz.toNat = 0 ∧
        (length = 0 ∨ has prot protWrite = true))) ∧
    ∀ m ∈ s.held, ∀ length, length ≠ m.cap.len → (Refuses s.mm m.cap length ↔ heap.perms &&& Cap.permSoft1 = 0) := by
  obtain ⟨⟨hs, hC⟩, hR⟩ := chunk_runs hr
  refine ⟨fun addr length prot flags c mm' hmap hne => ?_, fun m hm length _ => ?_⟩
  · obtain ⟨-, hend, hload⟩ := (mmap_ends hC.laid hC.tiles addr length prot flags).ok hmap
    cases hend with
    | invalid => exact absurd rfl hne
    | noSpace => exact absurd rfl hne
    | mapped hp hfind _ => exact takesBack_iff hC (hload hne) hp hfind
  · rw [refuses_iff hC.laid, hR m hm]

def mapsTo (r : Except (Stop × State) (Cap × State)) (c : Cap) : Bool := r.toOption.any (fun p => p.1 == c)

theorem mapsTo_iff {r : Except (Stop × State) (Cap × State)} : mapsTo r c = true ↔ ∃ mm', r = .ok (c, mm') := by
  cases r with
  | ok p => simp [mapsTo, Except.toOption, Prod.ext_iff]
  | error e => simp [mapsTo, Except.toOption]

/-- One page to read and write is given back. -/
theorem munmap_undoes_page : ∃ tr s mm', ManagerRun smallHeap tr s ∧
    mmap Cap.null 4096 (protRead ||| protWrite) (mapPrivate ||| mapAnonymous) s.mm = .ok (regionAt 0 4096, mm') ∧
    TakesBack mm' (regionAt 0 4096) 4096 := by
  obtain ⟨tr, s, hr, -, -, hp⟩ := play_run smallHeap (fun _ _ => true) []
    (fun s => mapsTo (mmap Cap.null 4096 (protRead ||| protWrite) (mapPrivate ||| mapAnonymous) s.mm) (regionAt 0 4096))
    (by decide +kernel)
  obtain ⟨mm', hmap⟩ := mapsTo_iff.1 hp
  exact ⟨tr, s, mm', hr, hmap, ((munmap_undoes hr).1 _ _ _ _ _ _ hmap (by decide)).2 (by decide)⟩

/-- The system stops at this, with the byte at an address cleared. -/
def clearsAndStops (r : Except (Stop × State) (BitVec 32 × State)) (e : Stop) (a : BitVec 64) : Bool :=
  match r with
  | .ok _ => false
  | .error p => p.1 == e && p.2.mem a == 0

theorem clearsAndStops_sound {r : Except (Stop × State) (BitVec 32 × State)} {e : Stop} {a : BitVec 64}
    (h : clearsAndStops r e a = true) : ∃ mm', r = .error (e, mm') ∧ mm'.mem a = 0 := by
  cases r with
  | ok p => cases h
  | error p =>
    simp only [clearsAndStops, Bool.and_eq_true, beq_iff_eq] at h
    exact ⟨p.2, by rw [← h.1], h.2⟩

/-- `__mmap` returns this capability, and `__munmap` of it stops. -/
def mapsAndStops (r : Except (Stop × State) (Cap × State)) (c : Cap) (length : BitVec 64) : Bool :=
  r.toOption.any (fun p => p.1 == c && !(munmap c length p.2).isOk)

theorem mapsAndStops_sound {r : Except (Stop × State) (Cap × State)} (h : mapsAndStops r c length = true) :
    ∃ mm', r = .ok (c, mm') ∧ ¬ TakesBack mm' c length := by
  cases r with
  | error e => cases h
  | ok p =>
    have hp : p.1 = c ∧ (munmap c length p.2).isOk = false := by
      simpa [mapsAndStops, Except.toOption] using h
    refine ⟨p.2, by rw [← hp.1], ?_⟩
    rintro ⟨mm', hr, -⟩
    rw [hr] at hp
    cases hp.2

/-- **Three ways to stop the system**: a region of 100 bytes given back with its length, a region that may only be read
given back with its length, and sixteen bytes of a live mapping, which are cleared first. -/
theorem munmap_undoes_fails : ∃ tr s, ManagerRun smallHeap tr s ∧
    (∃ mm', mmap Cap.null 100 (protRead ||| protWrite) (mapPrivate ||| mapAnonymous) s.mm = .ok (regionAt 3 100, mm') ∧
      ¬ TakesBack mm' (regionAt 3 100) 100) ∧
    (∃ mm', mmap Cap.null 4096 protRead (mapPrivate ||| mapAnonymous) s.mm =
        .ok ({ regionAt 3 4096 with perms := 0x8054 }, mm') ∧
      ¬ TakesBack mm' { regionAt 3 4096 with perms := 0x8054 } 4096) ∧
    ⟨0, regionAt 0 8192⟩ ∈ s.held ∧ ∃ mm', munmap (regionAt 0 8192) 16 s.mm =
        .error (.assertFailed "length == pagesz*book[page].len", mm') ∧
      s.mm.mem 0x10000 = 0xff ∧ mm'.mem 0x10000 = 0 := by
  obtain ⟨tr, s, hr, -, -, hp⟩ := play_run smallHeap (fun _ _ => true) [ask 0 8192]
    (fun s => mapsAndStops (mmap Cap.null 100 (protRead ||| protWrite) (mapPrivate ||| mapAnonymous) s.mm)
        (regionAt 3 100) 100 &&
      (mapsAndStops (mmap Cap.null 4096 protRead (mapPrivate ||| mapAnonymous) s.mm)
        { regionAt 3 4096 with perms := 0x8054 } 4096 &&
      (decide (⟨0, regionAt 0 8192⟩ ∈ s.held) && (s.mm.mem 0x10000 == 0xff &&
        clearsAndStops (munmap (regionAt 0 8192) 16 s.mm) (.assertFailed "length == pagesz*book[page].len") 0x10000))))
    (by decide +kernel)
  simp only [Bool.and_eq_true, decide_eq_true_eq, beq_iff_eq] at hp
  obtain ⟨hround, hread, hheld, hff, hpart⟩ := hp
  obtain ⟨mm', hstop, hzero⟩ := clearsAndStops_sound hpart
  exact ⟨tr, s, hr, mapsAndStops_sound hround, mapsAndStops_sound hread, hheld, mm', hstop, hff, hzero⟩

end Memmgt
end CheriOS
