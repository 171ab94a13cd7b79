import CheriOS.Memmgt.Book
import CheriOS.Memmgt.Clients
/-!
# Separation — the chunks and the mappings

`Book` is the invariant of the manager: the chunks tile the pool, and the used ones are the live mappings, one for one.
Taking a chunk, giving back a live mapping and marking again what no mapping has keep it.  What is handed out follows:
regions inside the pool, with a page and more between any two.
-/
namespace CheriOS
namespace Memmgt

open Outcome Tiling

variable {heap c : Cap} {mm mm' : State} {held : List Mapping} {hs : List Nat} {h k : Nat} {length w : BitVec 64}

/-- **A mapping is a used chunk** of the pages that its length needs. -/
structure Holds (mm : State) (hs : List Nat) (c : Cap) : Prop where
  tag : c.tag = true
  unsealed : c.isSealed = false
  offset : c.offset = 0
  base : c.base = mm.pool.addr + BitVec.ofNat 64 (mm.pageOf c) * pagesz
  head : mm.pageOf c ∈ hs
  used : (mm.page (mm.pageOf c)).status = .used
  len : mm.len (mm.pageOf c) = need c.len

/-- **The chunks of the pool**, whatever the clients do with what they were given. -/
structure Chunks (heap : Cap) (mm : State) (hs : List Nat) : Prop where
  laid : Laid heap mm
  tiles : Tiles mm.len 0 hs mm.pagesNb.toNat
  status : ∀ h ∈ hs, (mm.page h).status = .used ∨ (mm.page h).status = .unused

/-- **The invariant of the page book.** -/
structure Book (heap : Cap) (mm : State) (held : List Mapping) (hs : List Nat) : Prop where
  laid : Laid heap mm
  tiles : Tiles mm.len 0 hs mm.pagesNb.toNat
  status : ∀ h ∈ hs, (mm.page h).status = .used ∨ (mm.page h).status = .unused
  holds : ∀ m ∈ held, Holds mm hs m.cap
  distinct : held.Pairwise (fun m m' => mm.pageOf m.cap ≠ mm.pageOf m'.cap)
  live : ∀ h ∈ hs, (mm.page h).status = .used → ∃ m ∈ held, mm.pageOf m.cap = h

theorem Book.chunks (hB : Book heap mm held hs) : Chunks heap mm hs := ⟨hB.laid, hB.tiles, hB.status⟩

theorem need_pos (length : BitVec 64) : 0 < need length := Nat.succ_pos _

theorem pageOf_congr (hp : mm'.pool = mm.pool) (c : Cap) : mm'.pageOf c = mm.pageOf c := by
  unfold State.pageOf
  rw [hp]

theorem Chunks.congr (hC : Chunks heap mm hs) (hn : mm'.pagesNb = mm.pagesNb) (hp : mm'.pool = mm.pool)
    (hb : mm'.book = mm.book) (hpage : mm'.page = mm.page) : Chunks heap mm' hs := by
  have hlen : mm'.len = mm.len := by
    unfold State.len
    rw [hpage]
  refine ⟨hC.laid.congr hn hp hb, ?_, ?_⟩
  · rw [hlen, hn]
    exact hC.tiles
  · rw [hpage]
    exact hC.status

theorem Book.congr (hB : Book heap mm held hs) (hn : mm'.pagesNb = mm.pagesNb) (hp : mm'.pool = mm.pool)
    (hb : mm'.book = mm.book) (hpage : mm'.page = mm.page) : Book heap mm' held hs := by
  have hlen : mm'.len = mm.len := by
    unfold State.len
    rw [hpage]
  have hof := pageOf_congr hp
  have hC := hB.chunks.congr hn hp hb hpage
  refine ⟨hC.laid, hC.tiles, hC.status, fun m hm => ?_, ?_, ?_⟩
  · obtain ⟨htag, hseal, ho, hbase, hhead, hused, hl⟩ := hB.holds m hm
    refine ⟨htag, hseal, ho, ?_, ?_, ?_, ?_⟩
    · rw [hof, hp]
      exact hbase
    · rw [hof]
      exact hhead
    · rw [hof, hpage]
      exact hused
    · rw [hof, hlen]
      exact hl
  · simp only [hof]
    exact hB.distinct
  · simp only [hof, hpage]
    exact hB.live

/-! ## Taking a chunk -/

theorem taken_head (hw : 0 < w.toNat) : (mm.taken h w).page h = ⟨.used, w⟩ := by
  unfold State.taken
  split
  · rw [put_page_of_ne (by omega), put_page_self]
  · exact put_page_self

theorem taken_rest (hlt : w < (mm.page h).len) :
    (mm.taken h w).page (h + w.toNat) = ⟨.unused, (mm.page h).len - w⟩ := by
  unfold State.taken
  rw [if_pos hlt, put_page_self]

theorem taken_of_ne (hne : k ≠ h) (hne' : w < (mm.page h).len → k ≠ h + w.toNat) :
    (mm.taken h w).page k = mm.page k := by
  unfold State.taken
  split
  · rw [put_page_of_ne (hne' ‹_›), put_page_of_ne hne]
  · exact put_page_of_ne hne

theorem taken_pool (mm : State) (h : Nat) (w : BitVec 64) :
    (mm.taken h w).pool = mm.pool ∧ (mm.taken h w).pagesNb = mm.pagesNb ∧
    (mm.taken h w).book = mm.book ∧ (mm.taken h w).mem = mm.mem := by
  unfold State.taken
  split <;> exact ⟨rfl, rfl, rfl, rfl⟩

theorem Chunks.taken_other (hC : Chunks heap mm hs) (hh : h ∈ hs) (hw : 0 < w.toNat) (hk : k ∈ hs) (hne : k ≠ h) :
    (mm.taken h w).page k = mm.page k := by
  refine taken_of_ne hne (fun hlt => ?_)
  rintro rfl
  exact hC.tiles.not_mem_inside hh (y := h + w.toNat) (by omega) (Nat.add_lt_add_left hlt h) hk

/-- **The chunks after one is taken**: the same, and what is left of it. -/
theorem Chunks.taken_tiles (hC : Chunks heap mm hs) (hh : h ∈ hs) (hw : 0 < w.toNat) (hle : w.toNat ≤ mm.len h) :
    ∃ hs', Tiles (mm.taken h w).len 0 hs' mm.pagesNb.toNat ∧
      ∀ k, k ∈ hs' ↔ k ∈ hs ∨ (w < (mm.page h).len ∧ k = h + w.toNat) := by
  have hhead : (mm.taken h w).len h = w.toNat := by
    rw [State.len, taken_head hw]
  have hother : ∀ k ∈ hs, k ≠ h → (mm.taken h w).len k = mm.len k := by
    intro k hk hne
    rw [State.len, State.len, hC.taken_other hh hw hk hne]
  by_cases hlt : w < (mm.page h).len
  · obtain ⟨xs, ys, rfl⟩ := List.append_of_mem hh
    have hnd := hC.tiles.nodup
    have hrest : (mm.taken h w).len (h + w.toNat) = mm.len h - w.toNat := by
      rw [State.len, taken_rest hlt, State.len]
      exact BitVec.toNat_sub_of_le (BitVec.le_of_lt hlt)
    refine ⟨xs ++ h :: (h + w.toNat) :: ys, hC.tiles.split hw hlt hhead hrest (fun k hk => ?_), fun k => ?_⟩
    · refine hother k ?_ ?_
      · rcases List.mem_append.1 hk with hk | hk
        · exact List.mem_append_left _ hk
        · exact List.mem_append_right _ (List.mem_cons_of_mem _ hk)
      · rintro rfl
        exact (List.nodup_middle.1 hnd).notMem hk
    · simp only [List.mem_append, List.mem_cons, hlt, true_and]
      tauto
  · have heq : mm.len h = w.toNat := Nat.le_antisymm (Nat.not_lt.1 hlt) hle
    refine ⟨hs, hC.tiles.congr (fun k hk => ?_), fun k => ?_⟩
    · by_cases hne : k = h
      · rw [hne, hhead, heq]
      · exact hother k hk hne
    · simp [hlt]

theorem Chunks.need_toNat (hC : Chunks heap mm hs) (hh : h ∈ hs) (hle : need length ≤ mm.len h) :
    (BitVec.ofNat 64 (need length)).toNat = need length := by
  have hpages := hC.laid.pages_lt
  have hend := (hC.tiles.bounds hh).2.2
  rw [BitVec.toNat_ofNat]
  exact Nat.mod_eq_of_lt (by omega)

theorem pageOf_region {perms : BitVec 32} (hlt : h < 2 ^ 52) : mm.pageOf (mm.region h length perms) = h := by
  have haddr : (mm.region h length perms).addr - mm.pool.addr = BitVec.ofNat 64 h * pagesz := by
    rw [show (mm.region h length perms).addr = mm.pool.addr + BitVec.ofNat 64 h * pagesz + 0 from rfl]
    bv_omega
  rw [State.pageOf, pageAt, haddr, BitVec.toNat_udiv, page_mul_toNat hlt, pagesz_toNat]
  exact Nat.mul_div_cancel _ (by decide)

theorem Book.pageOf_ne (hB : Book heap mm held hs) (hun : (mm.page h).status = .unused) {m : Mapping} (hm : m ∈ held) :
    mm.pageOf m.cap ≠ h := by
  rintro rfl
  have hused := (hB.holds m hm).used
  rw [hun] at hused
  cases hused

/-- **The chunks after one is taken** are chunks. -/
theorem Chunks.take (hC : Chunks heap mm hs) (hh : h ∈ hs) (hw : 0 < w.toNat) (hle : w.toNat ≤ mm.len h) :
    ∃ hs', Chunks heap (mm.taken h w) hs' ∧ ∀ k, k ∈ hs' ↔ k ∈ hs ∨ (w < (mm.page h).len ∧ k = h + w.toNat) := by
  obtain ⟨hs', ht, hmem⟩ := hC.taken_tiles hh hw hle
  obtain ⟨hp, hn, hb, -⟩ := taken_pool mm h w
  refine ⟨hs', ⟨hC.laid.congr hn hp hb, hn ▸ ht, fun k hk => ?_⟩, hmem⟩
  rcases (hmem k).1 hk with hk | ⟨hlt, rfl⟩
  · by_cases hne : k = h
    · rw [hne, taken_head hw]
      exact .inl rfl
    · rw [hC.taken_other hh hw hk hne]
      exact hC.status k hk
  · rw [taken_rest hlt]
    exact .inr rfl

/-- **A region handed out** keeps the invariant, with one more mapping. -/
theorem Book.map (hB : Book heap mm held hs) (hfind : hs.find? (mm.suits (need length)) = some h) (perms : BitVec 32)
    (client : Client) : ∃ hs', Book heap (mm.taken h (BitVec.ofNat 64 (need length)))
      (⟨client, mm.region h length perms⟩ :: held) hs' := by
  obtain ⟨hh, hun, hle⟩ := suits_of_find hfind
  have hpages := hB.laid.pages_lt
  have hend := (hB.tiles.bounds hh).2.2
  have hw := hB.chunks.need_toNat hh hle
  have hw0 : 0 < (BitVec.ofNat 64 (need length)).toNat := by
    rw [hw]
    exact need_pos length
  obtain ⟨hs', hC', hmem⟩ := hB.chunks.take hh hw0 (by rw [hw]; exact hle)
  obtain ⟨hp, hn, hb, -⟩ := taken_pool mm h (BitVec.ofNat 64 (need length))
  have hof := pageOf_congr hp
  have hreg : mm.pageOf (mm.region h length perms) = h := pageOf_region (by omega)
  have hnew : (mm.taken h (BitVec.ofNat 64 (need length))).page h = ⟨.used, BitVec.ofNat 64 (need length)⟩ :=
    taken_head hw0
  have hother : ∀ k ∈ hs, k ≠ h → (mm.taken h (BitVec.ofNat 64 (need length))).page k = mm.page k :=
    fun k hk hne => hB.chunks.taken_other hh hw0 hk hne
  refine ⟨hs', hC'.laid, hC'.tiles, hC'.status, fun m hm => ?_, ?_, fun k hk hused => ?_⟩
  · rcases List.mem_cons.1 hm with rfl | hm
    · refine ⟨?_, ?_, rfl, ?_, ?_, ?_, ?_⟩
      · show mm.pool.tag = true
        rw [hB.laid.pool]
        exact hB.laid.tag
      · show mm.pool.isSealed = false
        rw [hB.laid.pool]
        exact hB.laid.unsealed
      · rw [hof, hreg, hp]
        rfl
      · rw [hof, hreg]
        exact (hmem h).2 (.inl hh)
      · rw [hof, hreg, hnew]
      · rw [hof, hreg, State.len, hnew]
        exact hw
    · obtain ⟨htag, hseal, ho, hbase, hhead, hused, hl⟩ := hB.holds m hm
      have hk := hother _ hhead (hB.pageOf_ne hun hm)
      refine ⟨htag, hseal, ho, ?_, ?_, ?_, ?_⟩
      · rw [hof, hp]
        exact hbase
      · rw [hof]
        exact (hmem _).2 (.inl hhead)
      · rw [hof, hk]
        exact hused
      · rw [hof, State.len, hk]
        exact hl
  · refine .cons (fun m hm => ?_) ?_
    · rw [hof, hof, hreg]
      exact (hB.pageOf_ne hun hm).symm
    · simp only [hof]
      exact hB.distinct
  · rcases (hmem k).1 hk with hk | ⟨hlt, rfl⟩
    · by_cases hne : k = h
      · exact ⟨_, List.mem_cons_self, by rw [hof, hreg, hne]⟩
      · rw [hother k hk hne] at hused
        obtain ⟨m, hm, he⟩ := hB.live k hk hused
        exact ⟨m, List.mem_cons_of_mem _ hm, by rw [hof, he]⟩
    · rw [taken_rest hlt] at hused
      cases hused

/-! ## Giving a chunk back -/

theorem freed_len (mm : State) (p : Nat) : (mm.freed p).len = mm.len := by
  funext k
  unfold State.len State.freed
  by_cases hk : k = p
  · rw [hk, put_page_self]
  · rw [put_page_of_ne hk]

theorem freed_status {p : Nat} : ((mm.freed p).page k).status = if k = p then .unused else (mm.page k).status := by
  unfold State.freed
  split
  case isTrue hk => rw [hk, put_page_self]
  case isFalse hk => rw [put_page_of_ne hk]

/-- **Any chunk marked unused** leaves the chunks as they are. -/
theorem Chunks.freed (hC : Chunks heap mm hs) (p : Nat) : Chunks heap (mm.freed p) hs := by
  refine ⟨hC.laid.congr rfl rfl rfl, ?_, fun k hk => ?_⟩
  · rw [freed_len]
    exact hC.tiles
  · rw [freed_status]
    split
    · exact .inr rfl
    · exact hC.status k hk

/-- **A chunk marked unused** keeps the invariant for the mappings that are elsewhere, if there is none left in it. -/
theorem Book.free (hB : Book heap mm held hs) {p : Nat} {held' : List Mapping} (hsub : held'.Sublist held)
    (helse : ∀ m ∈ held', mm.pageOf m.cap ≠ p) (hrest : ∀ m ∈ held, mm.pageOf m.cap ≠ p → m ∈ held') :
    Book heap (mm.freed p) held' hs := by
  have hof : ∀ c, (mm.freed p).pageOf c = mm.pageOf c := pageOf_congr rfl
  have hC := hB.chunks.freed p
  refine ⟨hC.laid, hC.tiles, hC.status, fun m hm => ?_, ?_, fun k hk hused => ?_⟩
  · obtain ⟨htag, hseal, ho, hbase, hhead, hused, hl⟩ := hB.holds m (hsub.subset hm)
    refine ⟨htag, hseal, ho, hbase, hhead, ?_, ?_⟩
    · rw [freed_status, hof, if_neg (helse m hm)]
      exact hused
    · rw [freed_len]
      exact hl
  · exact hB.distinct.sublist hsub
  · rw [freed_status] at hused
    split at hused
    · cases hused
    · obtain ⟨m, hm, rfl⟩ := hB.live k hk hused
      exact ⟨m, hrest m hm ‹_›, rfl⟩

theorem Book.nodup (hB : Book heap mm held hs) : held.Nodup :=
  hB.distinct.imp (fun hne heq => hne (by rw [heq]))

theorem Book.eq_of_pageOf (hB : Book heap mm held hs) {m m' : Mapping} (hm : m ∈ held) (hm' : m' ∈ held)
    (heq : mm.pageOf m.cap = mm.pageOf m'.cap) : m = m' := by
  by_contra hne
  have hsymm : Std.Symm (fun m m' : Mapping => mm.pageOf m.cap ≠ mm.pageOf m'.cap) := ⟨fun _ _ h => h.symm⟩
  exact hB.distinct.forall hm hm' hne heq

/-- **A live mapping given back** keeps the invariant, with that mapping gone. -/
theorem Book.free_held (hB : Book heap mm held hs) {m : Mapping} (hm : m ∈ held) {p : Nat}
    (hp : mm.pageOf m.cap = p) : Book heap (mm.freed p) (held.erase m) hs := by
  subst hp
  refine hB.free List.erase_sublist (fun m' hm' heq => ?_) (fun m' hm' hne => ?_)
  · have hne := (hB.nodup.mem_erase_iff.1 hm').1
    exact hne (hB.eq_of_pageOf (List.mem_of_mem_erase hm') hm heq)
  · exact hB.nodup.mem_erase_iff.2 ⟨fun heq => hne (by rw [heq]), hm'⟩

/-- **A chunk of no mapping marked unused again** changes nothing. -/
theorem Book.free_unheld (hB : Book heap mm held hs) {p : Nat} (hp : ∀ m ∈ held, mm.pageOf m.cap ≠ p) :
    Book heap (mm.freed p) held hs :=
  hB.free (List.Sublist.refl _) hp (fun _ hm _ => hm)

/-! ## Steps and runs -/

variable {s s' : Sys} {e : Event} {tr : List (Transition.Step Sys Event)}

/-- `__munmap(c, length)` clears all it is asked to and marks the chunk of the mapping `m` unused. -/
def Frees (m : Mapping) (c : Cap) (length : BitVec 64) : Prop :=
  c.addr = m.cap.addr ∧ length + pagesz = pagesz * BitVec.ofNat 64 (need m.cap.len) ∧ wiped c length = length.toNat

/-- **A step that takes no chunk away**: a client gives back what it holds, or what it passes to `__munmap` is refused or
frees no chunk that is held. -/
def Keeps (held : List Mapping) : Event → Prop
  | .munmap client c length =>
    ⟨client, c⟩ ∈ held ∨ c.perms &&& Cap.permSoft1 = 0 ∨ ∀ m ∈ held, ¬ Frees m c length
  | _ => True

theorem region_ne_mapFailed (hL : Laid heap mm) {perms : BitVec 32} : mm.region h length perms ≠ mapFailed := by
  intro heq
  have htag : mm.pool.tag = false := congrArg Cap.tag heq
  rw [hL.pool] at htag
  exact absurd (hL.tag.symm.trans htag) (by decide)

theorem Holds.addr (hH : Holds mm hs c) : c.addr = mm.pool.addr + BitVec.ofNat 64 (mm.pageOf c) * pagesz := by
  rw [Cap.addr, hH.offset, hH.base]
  exact BitVec.add_zero _

theorem Holds.frees {m : Mapping} (hH : Holds mm hs m.cap) (hpage : mm.pageOf m.cap = mm.pageOf c)
    (haddr : c.addr = mm.pool.addr + BitVec.ofNat 64 (mm.pageOf c) * pagesz)
    (hlen : length + pagesz = pagesz * (mm.page (mm.pageOf c)).len) (hall : wiped c length = length.toNat) :
    Frees m c length := by
  refine ⟨?_, ?_, hall⟩
  · rw [haddr, hH.addr, hpage]
  · rw [hlen, ← hpage, ← hH.len, State.len, BitVec.ofNat_toNat, BitVec.setWidth_eq]

/-- **The invariant at the start.** -/
theorem Started.book (h : Started heap s) : Book heap s.mm s.held [0] := by
  obtain ⟨mm₀, mm, hinit, rfl⟩ := h
  obtain ⟨hL, hpage⟩ := (minit_ends heap mm₀).ok hinit
  have hlen : mm.len 0 = mm.pagesNb.toNat := by rw [State.len, hpage]
  refine ⟨hL, ?_, fun k hk => ?_, fun m hm => (List.not_mem_nil hm).elim, .nil, fun k hk hused => ?_⟩
  · have t : Tiles mm.len 0 [0] (0 + mm.len 0) := Tiles.one_piece (by rw [hlen]; exact hL.pages)
    rw [hlen, Nat.zero_add] at t
    exact t
  · rw [List.mem_singleton.1 hk, hpage]
    exact .inr rfl
  · rw [List.mem_singleton.1 hk, hpage] at hused
    cases hused

/-- **One step.** -/
theorem Book.step (hB : Book heap s.mm s.held hs) (h : Step s e s') (hok : Keeps s.held e) :
    ∃ hs', Book heap s'.mm s'.held hs' := by
  cases h.cases.2 with
  | mmapped hr =>
    obtain ⟨-, hend, -⟩ := (mmap_ends hB.laid hB.tiles _ _ _ _).ok hr
    cases hend with
    | invalid => exact ⟨hs, hB.congr rfl rfl rfl rfl⟩
    | noSpace => exact ⟨hs, hB.congr rfl rfl rfl rfl⟩
    | mapped hperms hfind =>
      rw [if_neg (region_ne_mapFailed hB.laid)]
      exact hB.map hfind _ _
  | mmapStopped hr =>
    obtain ⟨rfl, -⟩ := (mmap_ends hB.laid hB.tiles _ _ _ _).error hr
    exact ⟨hs, hB⟩
  | @munmapped client c length r mm hgiven hr =>
    have hend := (munmap_ends hB.laid c length).ok hr
    cases hend with
    | refused =>
      rw [if_neg (by decide)]
      exact ⟨hs, hB.congr rfl rfl rfl rfl⟩
    | freed hperm hall haddr hlt hlen =>
      have hB' : Book heap (s.mm.wipe c.addr (wiped c length)) s.held hs := hB.congr rfl rfl rfl rfl
      have hof : ∀ c', (s.mm.wipe c.addr (wiped c length)).pageOf c' = s.mm.pageOf c' := pageOf_congr rfl
      rw [if_pos rfl]
      by_cases hmem : ⟨client, c⟩ ∈ s.held
      · exact ⟨hs, hB'.free_held hmem (hof c)⟩
      · rw [List.erase_of_not_mem hmem]
        have hno : ∀ m ∈ s.held, ¬ Frees m c length := (hok.resolve_left hmem).resolve_left hperm
        refine ⟨hs, hB'.free_unheld (fun m hm hpage => ?_)⟩
        rw [hof] at hpage
        exact hno m hm ((hB.holds m hm).frees hpage haddr hlen hall)
  | munmapStopped hgiven hr =>
    obtain ⟨rfl, -⟩ := (munmap_ends hB.laid _ _).error hr
    exact ⟨hs, hB.congr rfl rfl rfl rfl⟩
  | stored => exact ⟨hs, hB.congr rfl rfl rfl rfl⟩

/-- **Every run of such steps.** -/
theorem book_runs (hr : ManagerRun heap tr s) (hok : ∀ st ∈ tr, Keeps st.pre.held st.ev) :
    ∃ hs, Book heap s.mm s.held hs :=
  Transition.Run.inv_of (I := fun s => ∃ hs, Book heap s.mm s.held hs) (C := fun st => Keeps st.pre.held st.ev)
    (fun _ h => ⟨_, h.book⟩) (fun _ _ _ ⟨_, hB⟩ hst hk => hB.step hst hk) hr hok

/-! ## What is handed out -/

/-- The byte at `x` is one of the region that `c` gives access to. -/
def Covers (c : Cap) (x : BitVec 64) : Prop := (x - c.base).toNat < c.len.toNat

/-- **A whole page and more between two regions** of a pool. -/
def Apart (pool c c' : Cap) : Prop :=
  (c.base - pool.base).toNat + c.len.toNat + pagesz.toNat ≤ (c'.base - pool.base).toNat ∨
    (c'.base - pool.base).toNat + c'.len.toNat + pagesz.toNat ≤ (c.base - pool.base).toNat

theorem need_le (length : BitVec 64) : length.toNat + pagesz.toNat ≤ need length * pagesz.toNat := by
  unfold need
  rw [pagesz_toNat]
  omega

section Mappings

variable {m m' : Mapping} {x : BitVec 64}

theorem Book.start (hB : Book heap mm held hs) (hm : m ∈ held) :
    (m.cap.base - mm.pool.base).toNat = mm.pageOf m.cap * pagesz.toNat := by
  have hH := hB.holds m hm
  have hpages := hB.laid.pages_lt
  have hend := (hB.tiles.bounds hH.head).2.2
  have hpool : mm.pool.addr = mm.pool.base := by
    rw [hB.laid.pool_addr, hB.laid.pool]
  have hsub : m.cap.base - mm.pool.base = BitVec.ofNat 64 (mm.pageOf m.cap) * pagesz := by
    rw [hH.base, hpool]
    bv_omega
  rw [hsub, page_mul_toNat (by omega), pagesz_toNat]

theorem Book.stop (hB : Book heap mm held hs) (hm : m ∈ held) :
    mm.pageOf m.cap * pagesz.toNat + need m.cap.len * pagesz.toNat ≤ mm.pool.len.toNat := by
  have hH := hB.holds m hm
  have hend := (hB.tiles.bounds hH.head).2.2
  rw [hH.len] at hend
  rw [hB.laid.pool_len, pagesz_toNat]
  omega

theorem Book.offset (hB : Book heap mm held hs) (hm : m ∈ held) {n : Nat} (hn : n ≤ need m.cap.len * pagesz.toNat)
    (hx : (x - m.cap.base).toNat < n) :
    mm.pageOf m.cap * pagesz.toNat ≤ (x - mm.pool.base).toNat ∧
      (x - mm.pool.base).toNat < mm.pageOf m.cap * pagesz.toNat + n := by
  have hstart := hB.start hm
  have hstop := hB.stop hm
  have hlen := mm.pool.len.isLt
  have hadd : x - mm.pool.base = x - m.cap.base + (m.cap.base - mm.pool.base) := by bv_omega
  have heq : (x - mm.pool.base).toNat = (x - m.cap.base).toNat + mm.pageOf m.cap * pagesz.toNat := by
    rw [hadd, BitVec.toNat_add, hstart]
    exact Nat.mod_eq_of_lt (by omega)
  omega

/-- **A mapping lies in the pool.** -/
theorem Book.in_pool (hB : Book heap mm held hs) (hm : m ∈ held) (hx : Covers m.cap x) : Covers mm.pool x := by
  have hneed := need_le m.cap.len
  have hoff := hB.offset hm (by omega) hx
  have hstop := hB.stop hm
  unfold Covers
  omega

/-- **The pool lies outside the book.** -/
theorem Laid.not_in_book (hL : Laid heap mm) (hx : Covers mm.pool x) : ¬ Covers mm.book x := by
  have hfits := hL.fits
  have hlen := heap.len.isLt
  have hpool := hL.pool_len
  have hbook := hL.book_len
  unfold Covers at *
  have hbase : mm.book.base = mm.pool.base + mm.pool.len := by rw [hL.book, hL.pool]
  have hsub : x - mm.book.base = x - mm.pool.base - mm.pool.len := by
    rw [hbase]
    bv_omega
  rw [hsub, BitVec.toNat_sub, hbook]
  rw [pagesz_toNat, sizeofPage_toNat] at hfits
  omega

/-- **A page between any two mappings.** -/
theorem Book.apart (hB : Book heap mm held hs) (hm : m ∈ held) (hm' : m' ∈ held)
    (hne : mm.pageOf m.cap ≠ mm.pageOf m'.cap) : Apart mm.pool m.cap m'.cap := by
  have hneed := need_le m.cap.len
  have hneed' := need_le m'.cap.len
  have hap := hB.tiles.apart (hB.holds m hm).head (hB.holds m' hm').head hne
  rw [(hB.holds m hm).len, (hB.holds m' hm').len] at hap
  unfold Apart
  rw [hB.start hm, hB.start hm']
  rcases hap with hap | hap
  · exact .inl (by have hle := Nat.mul_le_mul_right pagesz.toNat hap; rw [Nat.add_mul] at hle; omega)
  · exact .inr (by have hle := Nat.mul_le_mul_right pagesz.toNat hap; rw [Nat.add_mul] at hle; omega)

/-- **No byte is in the chunks of two mappings.** -/
theorem Book.disjoint (hB : Book heap mm held hs) (hm : m ∈ held) (hm' : m' ∈ held)
    (hne : mm.pageOf m.cap ≠ mm.pageOf m'.cap) (hx : (x - m.cap.base).toNat < need m.cap.len * pagesz.toNat)
    (hx' : (x - m'.cap.base).toNat < need m'.cap.len * pagesz.toNat) : False := by
  have hoff := hB.offset hm (Nat.le_refl _) hx
  have hoff' := hB.offset hm' (Nat.le_refl _) hx'
  have hap := hB.tiles.apart (hB.holds m hm).head (hB.holds m' hm').head hne
  rw [(hB.holds m hm).len, (hB.holds m' hm').len] at hap
  simp only [pagesz_toNat] at hoff hoff'
  omega

theorem Covers.chunk (hx : Covers c x) : (x - c.base).toNat < need c.len * pagesz.toNat :=
  Nat.lt_of_lt_of_le hx (by have hneed := need_le c.len; omega)

end Mappings

/-! ## The page book over whole runs -/

/-- The calls of the two messages as `mmap` and `munmap` users make them: no address and no length near the end of the
address space, and a mapping that is held with its length in whole pages. -/
def Orderly (held : List Mapping) : Event → Prop
  | .mmap _ addr length _ _ => addr.isNull = true ∧ length.toNat ≤ 2 ^ 64 - 2 * pagesz.toNat
  | .munmap client c length => ⟨client, c⟩ ∈ held ∧ length = regionPages c.len * pagesz
  | .store .. => True

instance (held : List Mapping) (e : Event) : Decidable (Orderly held e) :=
  match e with
  | .mmap .. => inferInstanceAs (Decidable (_ ∧ _))
  | .munmap .. => inferInstanceAs (Decidable (_ ∧ _))
  | .store .. => .isTrue trivial

theorem Orderly.keeps {e : Event} (h : Orderly held e) : Keeps held e := by
  cases e with
  | munmap client c length => exact .inl h.1
  | _ => trivial

/-- **`__mmap` comes back**: its search ends, and no access to the book is out of bounds.  Only a heap that may not be
loaded from stops it. -/
theorem Book.mmap_returns (hB : Book heap mm held hs) {addr : Cap} (haddr : addr.isNull = true)
    (hlen : length.toNat ≤ 2 ^ 64 - 2 * pagesz.toNat) (prot flags : BitVec 32) :
    (∃ p mm', mmap addr length prot flags mm = .ok (p, mm')) ∨
      heap.hasPerms Cap.permLoad = false ∧
        mmap addr length prot flags mm = .error (.exception .permitLoadViolation, mm) := by
  have hends := mmap_ends hB.laid hB.tiles addr length prot flags
  cases hr : mmap addr length prot flags mm with
  | ok r => exact .inl ⟨r.1, r.2, rfl⟩
  | error r =>
    obtain ⟨e, mm'⟩ := r
    obtain ⟨rfl, hstop⟩ := hends.error hr
    rw [pagesz_toNat] at hlen
    cases hstop with
    | addr h => rw [haddr] at h; cases h
    | length h => rw [pagesz_toNat] at h; omega
    | noLoad h => exact .inr ⟨h, rfl⟩

theorem page_addr_inj {pool : BitVec 64} (hh : h < 2 ^ 52) (hk : k < 2 ^ 52)
    (heq : pool + BitVec.ofNat 64 h * pagesz = pool + BitVec.ofNat 64 k * pagesz) : h = k := by
  have hnat := congrArg BitVec.toNat ((BitVec.add_right_inj pool).1 heq)
  rw [page_mul_toNat hh, page_mul_toNat hk] at hnat
  omega

/-- **The page book and the separation of mappings.**  After every run of orderly calls, on any heap that `minit`
accepts: the chunks that `len` leads to from page 0 tile the pool, and `__mmap` comes back; each live mapping is
the one used chunk at its address, of the pages that its length needs, and every used chunk is a live mapping; the
regions lie in the pool and outside the book, and they are disjoint, with a page and more between any two. -/
theorem mappings_separated (hr : ManagerRun heap tr s) (hok : ∀ st ∈ tr, Orderly st.pre.held st.ev) :
    (∃ heads, Tiles s.mm.len 0 heads s.mm.pagesNb.toNat ∧
      (∀ m ∈ s.held, ∃! h, h ∈ heads ∧ (s.mm.page h).status = .used ∧ s.mm.len h = need m.cap.len ∧
        m.cap.base = s.mm.pool.addr + BitVec.ofNat 64 h * pagesz) ∧
      ∀ h ∈ heads, (s.mm.page h).status = .used →
        ∃ m ∈ s.held, m.cap.base = s.mm.pool.addr + BitVec.ofNat 64 h * pagesz) ∧
    (∀ addr length prot flags, addr.isNull = true → length.toNat ≤ 2 ^ 64 - 2 * pagesz.toNat →
      (∃ p mm', mmap addr length prot flags s.mm = .ok (p, mm')) ∨
        heap.hasPerms Cap.permLoad = false ∧
          mmap addr length prot flags s.mm = .error (.exception .permitLoadViolation, s.mm)) ∧
    (∀ m ∈ s.held, ∀ x, Covers m.cap x → Covers s.mm.pool x ∧ ¬ Covers s.mm.book x) ∧
    s.held.Pairwise (fun m m' => Apart s.mm.pool m.cap m'.cap ∧ ∀ x, Covers m.cap x → ¬ Covers m'.cap x) := by
  obtain ⟨hs, hB⟩ := book_runs hr (fun st hst => (hok st hst).keeps)
  refine ⟨⟨hs, hB.tiles, fun m hm => ?_, fun h hh hused => ?_⟩, ?_, ?_, ?_⟩
  · have hH := hB.holds m hm
    refine ⟨s.mm.pageOf m.cap, ⟨hH.head, hH.used, hH.len, hH.base⟩, ?_⟩
    rintro h ⟨hh, -, -, hbase⟩
    have hpages := hB.laid.pages_lt
    have hb := hB.tiles.bounds hh
    have hb' := hB.tiles.bounds hH.head
    exact page_addr_inj (by omega) (by omega) (hbase.symm.trans hH.base)
  · obtain ⟨m, hm, rfl⟩ := hB.live h hh hused
    exact ⟨m, hm, (hB.holds m hm).base⟩
  · exact fun addr length prot flags haddr hlen => hB.mmap_returns haddr hlen prot flags
  · exact fun m hm x hx => ⟨hB.in_pool hm hx, hB.laid.not_in_book (hB.in_pool hm hx)⟩
  · have hmem : s.held.Pairwise (fun m m' => m ∈ s.held ∧ m' ∈ s.held) := List.pairwise_of_forall_mem_list
      (fun m hm m' hm' => ⟨hm, hm'⟩)
    apply (hB.distinct.and hmem).imp
    rintro m m' ⟨hne, hm, hm'⟩
    exact ⟨hB.apart hm hm' hne, fun x hx hx' => hB.disjoint hm hm' hne hx.chunk hx'.chunk⟩
/-- Two clients take a region each, and the first gives its region back for a smaller one. -/
theorem mappings_separated_two : ∃ s : Sys, s.held.length = 2 ∧
    s.held.Pairwise (fun m m' => Apart s.mm.pool m.cap m'.cap ∧ ∀ x, Covers m.cap x → ¬ Covers m'.cap x) := by
  obtain ⟨tr, s, hr, -, hok, hp⟩ := play_run smallHeap (fun s e => decide (Orderly s.held e))
    [ask 0 4096, ask 1 4096, .munmap 0 (regionAt 0 4096) 4096, ask 0 0] (fun s => s.held.length == 2) (by decide +kernel)
  have hsep := mappings_separated hr (fun st hst => of_decide_eq_true (hok st hst))
  exact ⟨s, by simpa using hp, hsep.2.2.2⟩

end Memmgt
end CheriOS
