import CheriOS.Lib.Tiling
import CheriOS.Memmgt.Bzero
/-!
# Book — the calls on a well-formed book

`Laid` says where `minit` puts the pool and the book.  On such a state, with chunks that tile the pool, `__mmap` and
`__munmap` end in one of a few ways (`MmapEnd`, `MunmapEnd`), and each of them that writes to the book names the chunk.
-/
namespace CheriOS
namespace Memmgt

open Outcome Tiling

variable {heap c : Cap} {s s' : State} {page length wanted : BitVec 64} {hs : List Nat} {h : Nat}

@[simp] theorem pagesz_toNat : pagesz.toNat = 4096 := rfl

@[simp] theorem sizeofPage_toNat : sizeofPage.toNat = 32 := rfl

/-- The length of the chunk that starts at a page. -/
def State.len (s : State) (i : Nat) : Nat := (s.page i).len.toNat

theorem put_page_self {i : Nat} {p : Page} : (s.put i p).page i = p := Function.update_self _ _ _

theorem put_page_of_ne {i j : Nat} {p : Page} (hne : j ≠ i) : (s.put i p).page j = s.page j := Function.update_of_ne hne _ _

/-- The pages that a region of `length` bytes is given: those it needs, and one more. -/
def need (length : BitVec 64) : Nat := (length.toNat + (pagesz.toNat - 1)) / pagesz.toNat + 1

/-- **The heap as `minit` divides it**: the pool, and after it the book. -/
structure Laid (heap : Cap) (s : State) : Prop where
  tag : heap.tag = true
  unsealed : heap.isSealed = false
  offset : heap.offset = 0
  store : heap.hasPerms Cap.permStore = true
  pages : 0 < s.pagesNb.toNat
  fits : s.pagesNb.toNat * (pagesz.toNat + sizeofPage.toNat) ≤ heap.len.toNat
  pool : s.pool = { heap with len := s.pagesNb * pagesz }
  book : s.book = { heap with base := heap.base + s.pagesNb * pagesz, len := s.pagesNb * sizeofPage }

namespace Laid

theorem pages_lt (hL : Laid heap s) : s.pagesNb.toNat < 2 ^ 52 := by
  have hfits := hL.fits
  have hlen := heap.len.isLt
  simp only [pagesz_toNat, sizeofPage_toNat] at hfits
  omega

theorem pool_len (hL : Laid heap s) : s.pool.len.toNat = s.pagesNb.toNat * 4096 := by
  have hlt := hL.pages_lt
  rw [hL.pool, BitVec.toNat_mul, pagesz_toNat]
  omega

theorem book_len (hL : Laid heap s) : s.book.len.toNat = s.pagesNb.toNat * 32 := by
  have hlt := hL.pages_lt
  rw [hL.book, BitVec.toNat_mul, sizeofPage_toNat]
  omega

theorem pool_addr (hL : Laid heap s) : s.pool.addr = heap.base := by
  rw [hL.pool, Cap.addr, hL.offset]
  exact BitVec.add_zero _

theorem congr (hL : Laid heap s) (hn : s'.pagesNb = s.pagesNb) (hp : s'.pool = s.pool) (hb : s'.book = s.book) :
    Laid heap s' where
  tag := hL.tag
  unsealed := hL.unsealed
  offset := hL.offset
  store := hL.store
  pages := hn ▸ hL.pages
  fits := hn ▸ hL.fits
  pool := by rw [hp, hn, hL.pool]
  book := by rw [hb, hn, hL.book]

end Laid

/-! ## Entries -/

theorem entry_of_lt (hlt : page.toNat < 2 ^ 53) : entry page = page.toNat := by
  unfold entry
  rw [BitVec.toNat_mul, sizeofPage_toNat]
  omega

theorem mul_sizeofPage (hlt : page.toNat < 2 ^ 53) : (page * sizeofPage).toNat = page.toNat * 32 := by
  rw [BitVec.toNat_mul, sizeofPage_toNat]
  omega

theorem page_mul_toNat (hlt : h < 2 ^ 52) : (BitVec.ofNat 64 h * pagesz).toNat = h * 4096 := by
  rw [BitVec.toNat_mul, BitVec.toNat_ofNat, pagesz_toNat]
  omega

namespace Laid

theorem book_bounds (hL : Laid heap s) (hlt : page.toNat < 2 ^ 53) :
    s.book.len.toNat < (s.book.offset + page * sizeofPage).toNat + sizeofPage.toNat ↔ s.pagesNb.toNat ≤ page.toNat := by
  have ho : s.book.offset = 0 := by rw [hL.book]; exact hL.offset
  rw [ho, show (0 : BitVec 64) + page * sizeofPage = page * sizeofPage from BitVec.zero_add _, mul_sizeofPage hlt,
    hL.book_len, sizeofPage_toNat]
  omega

theorem book_store (hL : Laid heap s) (hp : page.toNat < s.pagesNb.toNat) :
    fault s.book true (page * sizeofPage) sizeofPage.toNat = none := by
  have hlt := hL.pages_lt
  have hpage : page.toNat < 2 ^ 53 := by omega
  have hin := (hL.book_bounds hpage).not.2 (Nat.not_le.2 hp)
  have htag : s.book.tag = true := by rw [hL.book]; exact hL.tag
  have hseal : s.book.isSealed = false := by rw [hL.book]; exact hL.unsealed
  have hperm : s.book.hasPerms Cap.permStore = true := by rw [hL.book]; exact hL.store
  unfold fault
  rw [htag, hseal, hperm, if_neg hin]
  rfl

theorem book_load (hL : Laid heap s) (hlt : page.toNat < 2 ^ 53) :
    fault s.book false (page * sizeofPage) sizeofPage.toNat =
      if heap.hasPerms Cap.permLoad = true then
        if page.toNat < s.pagesNb.toNat then none else some .lengthViolation
      else some .permitLoadViolation := by
  have htag : s.book.tag = true := by rw [hL.book]; exact hL.tag
  have hseal : s.book.isSealed = false := by rw [hL.book]; exact hL.unsealed
  have hperm : s.book.hasPerms Cap.permLoad = heap.hasPerms Cap.permLoad := by rw [hL.book]; rfl
  unfold fault
  rw [htag, hseal, hperm]
  cases heap.hasPerms Cap.permLoad with
  | false => rfl
  | true =>
    by_cases hp : page.toNat < s.pagesNb.toNat
    · rw [if_neg ((hL.book_bounds hlt).not.2 (Nat.not_le.2 hp)), if_pos rfl, if_pos hp]
      rfl
    · rw [if_pos ((hL.book_bounds hlt).2 (Nat.not_lt.1 hp)), if_pos rfl, if_neg hp]
      rfl

/-- **Reading an entry.** -/
theorem readBook_ends (hL : Laid heap s) (hlt : page.toNat < 2 ^ 53) :
    Ends (readBook page) s
      (fun p s' => s' = s ∧ p = s.page page.toNat ∧ page.toNat < s.pagesNb.toNat ∧ heap.hasPerms Cap.permLoad = true)
      (fun e s' => s' = s ∧ (e = .exception .permitLoadViolation ∧ heap.hasPerms Cap.permLoad = false ∨
        e = .exception .lengthViolation ∧ s.pagesNb.toNat ≤ page.toNat)) := by
  have hfault := hL.book_load hlt
  refine ends_get_bind.2 (access_bind (fun hf => ?_) (fun cause hf => ?_))
  · rw [hfault] at hf
    split_ifs at hf with hload hp
    exact ⟨rfl, congrArg s.page (entry_of_lt hlt), hp, hload⟩
  · rw [hfault] at hf
    split_ifs at hf with hload hp
    · cases hf
      exact ⟨rfl, .inr ⟨rfl, Nat.not_lt.1 hp⟩⟩
    · cases hf
      exact ⟨rfl, .inl ⟨rfl, Bool.eq_false_iff.2 hload⟩⟩

theorem readBook_eq (hL : Laid heap s) (hload : heap.hasPerms Cap.permLoad = true)
    (hp : page.toNat < s.pagesNb.toNat) : readBook page s = .ok (s.page page.toNat, s) := by
  have hlt := hL.pages_lt
  have hacc : access s.book false (page * sizeofPage) sizeofPage.toNat s = .ok ((), s) := by
    unfold access
    rw [hL.book_load (by omega), if_pos hload, if_pos hp]
    rfl
  have he : entry page = page.toNat := entry_of_lt (by omega)
  show (access s.book false (page * sizeofPage) sizeofPage.toNat s >>= fun a =>
    (pure (s.page (entry page)) : Call Page) a.2) = _
  rw [hacc, he]
  rfl

/-- **Writing to an entry of the pool's pages** never stops. -/
theorem writeBook_eq (hL : Laid heap s) (hp : page.toNat < s.pagesNb.toNat) (f : Page → Page) :
    writeBook page f s = .ok ((), s.put page.toNat (f (s.page page.toNat))) := by
  have hlt := hL.pages_lt
  have he : entry page = page.toNat := entry_of_lt (by omega)
  have hacc : access s.book true (page * sizeofPage) sizeofPage.toNat s = .ok ((), s) := by
    unfold access
    rw [hL.book_store hp]
    rfl
  show (access s.book true (page * sizeofPage) sizeofPage.toNat s >>= fun a =>
    (set (s.put (entry page) (f (s.page (entry page)))) : Call Unit) a.2) = _
  rw [hacc, he]
  rfl

end Laid

/-! ## `minit` -/

theorem derived_eq {r : Option Cap} {p : Cap} (hp : r = some p) : derived c r s = .ok (p, s) := by
  rw [hp]
  rfl

theorem derived_bind {r : Option Cap} {α : Type} {f : Cap → Call α} {Q : α → State → Prop} {E : Stop → State → Prop}
    (hok : ∀ p, r = some p → Ends (f p) s Q E) (hstop : r = none → ∀ cause, E (.exception cause) s) :
    Ends (derived c r >>= f) s Q E := by
  cases r with
  | some p => exact hok p rfl
  | none =>
    refine Ends.bind (Q := fun _ _ => False) ?_ (fun _ _ hf => hf.elim)
    exact Ends.ite (fun _ => hstop rfl _) (fun _ => Ends.ite (fun _ => hstop rfl _) (fun _ => hstop rfl _))

theorem setBounds_eq_some {n : BitVec 64} {p : Cap} (hp : c.setBounds n = some p) :
    c.tag = true ∧ c.isSealed = false ∧ c.offset.toNat + n.toNat ≤ c.len.toNat ∧
      p = { c with base := c.addr, len := n, offset := 0 } := by
  unfold Cap.setBounds at hp
  split_ifs at hp with hc
  simp only [Bool.and_eq_true, Bool.not_eq_true', decide_eq_true_eq] at hc
  exact ⟨hc.1.1, hc.1.2, hc.2, (Option.some.inj hp).symm⟩

/-- The first entry written, on a state that is laid out if its heap can be stored to. -/
theorem firstChunk_ends {n : BitVec 64} (hs : s.pagesNb = n) (hL : heap.hasPerms Cap.permStore = true → Laid heap s)
    (hb : s.book.perms = heap.perms) : Ends (do setStatus 0 .unused; setLen 0 n) s
      (fun _ s' => Laid heap s' ∧ s'.page 0 = ⟨.unused, s'.pagesNb⟩) (fun _ _ => True) := by
  subst hs
  refine Ends.bind (Q := fun _ s' => Laid heap s' ∧ s'.pagesNb = s.pagesNb ∧ (s'.page 0).status = .unused) ?_ ?_
  · refine ends_get_bind.2 (access_bind (fun hf => ?_) (fun _ _ => trivial))
    have hstore : heap.hasPerms Cap.permStore = true := by
      rw [← fault_store hf, Cap.hasPerms, Cap.hasPerms, hb]
    refine ⟨(hL hstore).congr rfl rfl rfl, rfl, ?_⟩
    rw [show entry 0 = 0 from rfl, put_page_self]
  · rintro _ s' ⟨hL', hn, hst⟩
    have hpos : (0 : BitVec 64).toNat < s'.pagesNb.toNat := hL'.pages
    refine Ends.of_eq_ok (hL'.writeBook_eq hpos _) ⟨hL'.congr rfl rfl rfl, ?_⟩
    show (s'.put 0 { s'.page 0 with len := s.pagesNb }).page 0 = ⟨.unused, s'.pagesNb⟩
    rw [put_page_self, ← hst, hn]

/-- **An accepted heap is laid out**, and its pages are one unused chunk. -/
theorem minit_ends (heap : Cap) (s : State) :
    Ends (minit heap) s (fun _ s' => Laid heap s' ∧ s'.page 0 = ⟨.unused, s'.pagesNb⟩) (fun _ _ => True) := by
  have hn : (heap.len / (pagesz + sizeofPage)).toNat = heap.len.toNat / 4128 := BitVec.toNat_udiv
  unfold minit
  refine ends_require_bind (fun _ => ?_) (fun _ => trivial)
  refine ends_require_bind (fun ho => ?_) (fun _ => trivial)
  refine ends_modify_bind.2 (ends_require_bind (fun hpos => ?_) (fun _ => trivial))
  refine derived_bind (fun pool hpool => ends_modify_bind.2 (ends_require_bind (fun _ => ?_) (fun _ => trivial)))
    (fun _ _ => trivial)
  refine derived_bind (fun book hbook => ends_modify_bind.2 ?_) (fun _ _ => trivial)
  obtain ⟨htag, hseal, -, rfl⟩ := setBounds_eq_some hpool
  obtain ⟨-, -, -, rfl⟩ := setBounds_eq_some hbook
  have ho : heap.offset = 0 := by simpa using ho
  have haddr : heap.addr = heap.base := by
    rw [Cap.addr, ho]
    exact BitVec.add_zero _
  have hbase : ∀ d, (heap.incOffset d).addr = heap.base + d := by
    intro d
    rw [Cap.addr, Cap.incOffset, ho]
    exact congrArg (heap.base + ·) (BitVec.zero_add _)
  refine firstChunk_ends rfl (fun hstore => ?_) rfl
  exact {
    tag := htag, unsealed := hseal, offset := ho, store := hstore
    pages := by simpa [BitVec.lt_def] using hpos
    fits := by
      rw [hn]
      exact Nat.div_mul_le_self _ _
    pool := by rw [haddr, ← ho]
    book := by rw [hbase, ← ho]; rfl }

/-! ## `__mmap` -/

theorem regionPages_toNat (length : BitVec 64) : (regionPages length).toNat = (length.toNat + 4095) / 4096 := by
  have hlen := length.isLt
  have hq : (length / pagesz).toNat = length.toNat / 4096 := BitVec.toNat_udiv
  have hmul : (length / pagesz * pagesz).toNat = length.toNat / 4096 * 4096 := by
    rw [BitVec.toNat_mul, hq, pagesz_toNat]
    omega
  unfold regionPages
  split
  case isTrue hlt =>
    rw [BitVec.lt_def, hmul] at hlt
    rw [BitVec.toNat_add, hq, show (1 : BitVec 64).toNat = 1 from rfl]
    omega
  case isFalse hge =>
    rw [BitVec.lt_def, hmul] at hge
    rw [hq]
    omega

/-- **How many pages are wanted**: the length rounded up, and one more.  What is left of the address space above
`2 ^ 64 - pagesz` cannot be rounded up. -/
theorem pagesWanted_ends (length : BitVec 64) (s : State) :
    Ends (pagesWanted length) s
      (fun w s' => s' = s ∧ w.toNat = need length ∧ length.toNat ≤ 2 ^ 64 - pagesz.toNat)
      (fun e s' => s' = s ∧ e = .assertFailed "pages_wanted*pagesz >= length" ∧ 2 ^ 64 - pagesz.toNat < length.toNat) := by
  have hlen := length.isLt
  have hn := regionPages_toNat length
  have hge : regionPages length * pagesz ≥ length ↔ length.toNat ≤ 2 ^ 64 - pagesz.toNat := by
    rw [ge_iff_le, BitVec.le_def, BitVec.toNat_mul, hn, pagesz_toNat]
    omega
  refine ends_require_bind (fun h => ?_) (fun h => ?_)
  · rw [decide_eq_true_eq, hge] at h
    refine ⟨rfl, ?_, h⟩
    unfold need
    rw [BitVec.toNat_add, hn, show (1 : BitVec 64).toNat = 1 from rfl, pagesz_toNat]
    omega
  · rw [decide_eq_false_iff_not, hge, Nat.not_le] at h
    exact ⟨rfl, rfl, h⟩

/-- A chunk that the search takes. -/
def State.suits (s : State) (wanted : Nat) (h : Nat) : Bool :=
  (s.page h).status == .unused && decide (wanted ≤ s.len h)

/-- **The search finds the first chunk that suits**; it ends, and it reads no entry past the book's. -/
theorem findSpace_ends (hL : Laid heap s) {turns a : Nat} (ha : page.toNat = a) (t : Tiles s.len a hs s.pagesNb.toNat)
    (hturns : hs.length < turns) :
    Ends (findSpace wanted turns page) s
      (fun r s' => s' = s ∧ r.map BitVec.toNat = hs.find? (s.suits wanted.toNat) ∧
        (r ≠ none → heap.hasPerms Cap.permLoad = true))
      (fun e s' => s' = s ∧ e = .exception .permitLoadViolation ∧ heap.hasPerms Cap.permLoad = false) := by
  have hpages := hL.pages_lt
  induction turns generalizing page a hs with
  | zero => omega
  | succ turns ih =>
    unfold findSpace
    refine ends_get_bind.2 (Ends.ite (fun hlt => ?_) (fun hge => ?_))
    · rw [BitVec.lt_def] at hlt
      cases t with
      | nil => omega
      | @cons _ _ hs hpos t =>
        subst ha
        have hnext : (page + (s.page page.toNat).len).toNat = page.toNat + s.len page.toNat := by
          have hle := t.le
          rw [BitVec.toNat_add]
          exact Nat.mod_eq_of_lt (by unfold State.len at hle; omega)
        have hrest := ih hnext t (by rw [List.length_cons] at hturns; omega)
        refine Ends.bind ((hL.readBook_ends (by omega)).mono (fun _ _ h => h) ?_) ?_
        · rintro e s' ⟨rfl, ⟨rfl, hload⟩ | ⟨-, hpast⟩⟩
          · exact ⟨rfl, rfl, hload⟩
          · omega
        · rintro p s' ⟨rfl, rfl, -, hload⟩
          refine Ends.ite (fun hused => ?_) (fun hunused => Ends.ite (fun hshort => ?_) (fun hlong => ?_))
          · have hno : s'.suits wanted.toNat page.toNat = false := by simp [State.suits, hused]
            rw [List.find?_cons_of_neg (by simp [hno])]
            exact hrest
          · rw [BitVec.lt_def] at hshort
            have hno : s'.suits wanted.toNat page.toNat = false := by
              simp [State.suits, State.len, Nat.not_le.2 hshort]
            rw [List.find?_cons_of_neg (by simp [hno])]
            exact hrest
          · rw [BitVec.lt_def, Nat.not_lt] at hlong
            have hyes : s'.suits wanted.toNat page.toNat = true := by
              rw [State.suits, Bool.and_eq_true]
              exact ⟨by simpa using hunused, decide_eq_true hlong⟩
            rw [List.find?_cons_of_pos hyes]
            exact ⟨rfl, rfl, fun _ => hload⟩
    · rw [BitVec.lt_def] at hge
      cases t with
      | nil => exact ⟨rfl, rfl, fun h => absurd rfl h⟩
      | cons hpos t =>
        have hle := t.le
        omega

def State.taken (s : State) (h : Nat) (wanted : BitVec 64) : State :=
  if wanted < (s.page h).len then
    (s.put h ⟨.used, wanted⟩).put (h + wanted.toNat) ⟨.unused, (s.page h).len - wanted⟩
  else s.put h ⟨.used, wanted⟩

theorem put_put {i : Nat} {p q : Page} : (s.put i p).put i q = s.put i q := by
  unfold State.put
  rw [Function.update_idem]

/-- **Taking a chunk** never stops. -/
theorem takeChunk_ends (hL : Laid heap s) (wanted : BitVec 64) (hload : heap.hasPerms Cap.permLoad = true)
    (hpos : 0 < s.len page.toNat) (hfit : page.toNat + s.len page.toNat ≤ s.pagesNb.toNat) :
    Ends (takeChunk page wanted) s (fun _ s' => s' = s.taken page.toNat wanted) (fun _ _ => False) := by
  have hp : page.toNat < s.pagesNb.toNat := by omega
  have hpages := hL.pages_lt
  have hL₁ : ∀ p, Laid heap (s.put page.toNat p) := fun _ => hL.congr rfl rfl rfl
  unfold takeChunk State.taken
  refine Ends.after (hL.writeBook_eq hp _) (Ends.after ((hL₁ _).readBook_eq hload hp) ?_)
  refine Ends.after ((hL₁ _).writeBook_eq hp _) ?_
  rw [put_page_self, put_put]
  refine Ends.ite (fun hlt => ?_) (fun hge => ?_)
  · have hlt : wanted < (s.page page.toNat).len := hlt
    rw [if_pos hlt]
    rw [BitVec.lt_def] at hlt
    have hadd : (page + wanted).toNat = page.toNat + wanted.toNat := by
      rw [BitVec.toNat_add]
      unfold State.len at hfit
      omega
    have hp₂ : (page + wanted).toNat < s.pagesNb.toNat := by
      unfold State.len at hfit
      omega
    have hL₂ : ∀ p q, Laid heap ((s.put page.toNat p).put (page + wanted).toNat q) := fun _ _ => hL.congr rfl rfl rfl
    refine Ends.after ((hL₁ _).writeBook_eq hp₂ _) (Ends.of_eq_ok ((hL₂ _ _).writeBook_eq hp₂ _) ?_)
    rw [put_put, put_page_self, hadd]
  · rw [if_neg hge]
    exact rfl

/-- The capability of a region of `length` bytes at page `h`. -/
def State.region (s : State) (h : Nat) (length : BitVec 64) (perms : BitVec 32) : Cap :=
  { s.pool with
    perms := s.pool.perms &&& perms, base := s.pool.addr + BitVec.ofNat 64 h * pagesz, len := length, offset := 0 }

/-- **What `__mmap` returns, and what it leaves**: a failure, or a region in the first chunk that suits. -/
inductive MmapEnd (s : State) (hs : List Nat) (length : BitVec 64) (prot flags : BitVec 32) : Cap → State → Prop where
  | invalid : mmapPerms prot flags = none → MmapEnd s hs length prot flags mapFailed { s with errno := einval }
  | noSpace {perms : BitVec 32} : mmapPerms prot flags = some perms → hs.find? (s.suits (need length)) = none →
      MmapEnd s hs length prot flags mapFailed s
  | mapped {perms : BitVec 32} {h : Nat} : mmapPerms prot flags = some perms →
      hs.find? (s.suits (need length)) = some h → length.toNat ≤ 2 ^ 64 - pagesz.toNat →
      MmapEnd s hs length prot flags (s.region h length perms) (s.taken h (BitVec.ofNat 64 (need length)))

/-- **What stops `__mmap`.** -/
inductive MmapStop (heap addr : Cap) (length : BitVec 64) : Stop → Prop where
  | addr : addr.isNull = false → MmapStop heap addr length (.panic "mmap: addr must be NULL")
  | length : 2 ^ 64 - pagesz.toNat < length.toNat →
      MmapStop heap addr length (.assertFailed "pages_wanted*pagesz >= length")
  | noLoad : heap.hasPerms Cap.permLoad = false → MmapStop heap addr length (.exception .permitLoadViolation)

theorem suits_of_find {w : Nat} (hf : hs.find? (s.suits w) = some h) :
    h ∈ hs ∧ (s.page h).status = .unused ∧ w ≤ s.len h := by
  have hs := List.find?_some hf
  rw [State.suits, Bool.and_eq_true, decide_eq_true_eq] at hs
  exact ⟨List.mem_of_find?_eq_some hf, by simpa using hs.1, hs.2⟩

theorem region_ends (hL : Laid heap s) {perms : BitVec 32} {s₁ : State}
    (hfit : page.toNat * pagesz.toNat + length.toNat ≤ s.pagesNb.toNat * pagesz.toNat) :
    Ends (do let p ← cheriSetbounds (s.pool.incOffset (page * pagesz)) length; cheriAndperm p perms) s₁
      (fun p s' => s' = s₁ ∧ p = s.region page.toNat length perms) (fun _ _ => False) := by
  have hpages := hL.pages_lt
  have ho : s.pool.offset = 0 := by rw [hL.pool]; exact hL.offset
  have htag : s.pool.tag = true := by rw [hL.pool]; exact hL.tag
  have hseal : s.pool.isSealed = false := by rw [hL.pool]; exact hL.unsealed
  rw [pagesz_toNat] at hfit
  have hoff : ((s.pool.incOffset (page * pagesz)).offset).toNat = page.toNat * 4096 := by
    rw [Cap.incOffset, ho, show (0 : BitVec 64) + page * pagesz = page * pagesz from BitVec.zero_add _,
      BitVec.toNat_mul, pagesz_toNat]
    omega
  have hbounds : (s.pool.incOffset (page * pagesz)).setBounds length =
      some { s.pool with base := (s.pool.incOffset (page * pagesz)).addr, len := length, offset := 0 } := by
    apply if_pos
    simp only [Bool.and_eq_true, Bool.not_eq_true', decide_eq_true_eq]
    exact ⟨⟨htag, hseal⟩, by rw [hoff]; show _ ≤ s.pool.len.toNat; rw [hL.pool_len]; exact hfit⟩
  have hbase : (s.pool.incOffset (page * pagesz)).addr = s.pool.addr + BitVec.ofNat 64 page.toNat * pagesz := by
    rw [BitVec.ofNat_toNat, BitVec.setWidth_eq, Cap.addr, Cap.addr, Cap.incOffset]
    exact (BitVec.add_assoc _ _ _).symm
  have hperms : Cap.andPerm { s.pool with base := (s.pool.incOffset (page * pagesz)).addr, len := length, offset := 0 }
      perms = some (s.region page.toNat length perms) := by
    unfold State.region
    rw [← hbase]
    apply if_pos
    rw [htag, hseal]
    rfl
  exact Ends.after (derived_eq hbounds) (Ends.of_eq_ok (derived_eq hperms) ⟨rfl, rfl⟩)

/-- **`__mmap` on a well-formed book.** -/
theorem mmap_ends (hL : Laid heap s) (t : Tiles s.len 0 hs s.pagesNb.toNat) (addr : Cap) (length : BitVec 64)
    (prot flags : BitVec 32) :
    Ends (mmap addr length prot flags) s
      (fun p s' => addr.isNull = true ∧ MmapEnd s hs length prot flags p s' ∧
        (p ≠ mapFailed → heap.hasPerms Cap.permLoad = true))
      (fun e s' => s' = s ∧ MmapStop heap addr length e) := by
  have hpages := hL.pages_lt
  refine ends_require_bind (fun haddr => ?_) (fun haddr => ⟨rfl, .addr haddr⟩)
  cases hperms : mmapPerms prot flags with
  | none => exact ⟨haddr, .invalid hperms, fun hne => absurd rfl hne⟩
  | some perms =>
    refine Ends.bind ((pagesWanted_ends length s).mono (fun _ _ h => h) ?_) ?_
    · rintro e s' ⟨rfl, rfl, hlen⟩
      exact ⟨rfl, .length hlen⟩
    · rintro wanted s' ⟨rfl, hw, hlen⟩
      have hturns := t.length_le
      have hzero : (0 : BitVec 64).toNat = 0 := rfl
      refine ends_get_bind.2 (Ends.bind ((findSpace_ends hL hzero t (by omega)).mono
        (fun _ _ h => h) ?_) ?_)
      · rintro e s' ⟨rfl, rfl, hload⟩
        exact ⟨rfl, .noLoad hload⟩
      · rintro r s' ⟨rfl, hr, hload⟩
        rw [hw] at hr
        cases r with
        | none => exact ⟨haddr, .noSpace hperms hr.symm, fun hne => absurd rfl hne⟩
        | some page =>
          obtain ⟨hmem, -, hle⟩ := suits_of_find hr.symm
          obtain ⟨-, hpos, hend⟩ := t.bounds hmem
          refine Ends.bind ((takeChunk_ends hL wanted (hload (by simp)) hpos hend).mono (fun _ _ h => h)
            (fun _ _ h => h.elim)) ?_
          rintro _ s₁ rfl
          refine (region_ends hL ?_).mono ?_ (fun _ _ h => h.elim)
          · unfold need at hle
            rw [pagesz_toNat] at *
            omega
          · rintro p s' ⟨rfl, rfl⟩
            have hw' : wanted = BitVec.ofNat 64 (need length) := by
              rw [← hw, BitVec.ofNat_toNat, BitVec.setWidth_eq]
            rw [hw']
            exact ⟨haddr, .mapped hperms hr.symm hlen, fun _ => hload (by simp)⟩

/-! ## `__munmap` -/

/-- The first page of the chunk that `__munmap(c, …)` means. -/
def State.pageOf (s : State) (c : Cap) : Nat := (pageAt s.pool c).toNat

def State.freed (s : State) (page : Nat) : State := s.put page { s.page page with status := .unused }

/-- **What `__munmap` returns, and what it leaves**: a refusal, or a chunk that is unused. -/
inductive MunmapEnd (s : State) (c : Cap) (length : BitVec 64) : BitVec 32 → State → Prop where
  | refused : c.perms &&& Cap.permSoft1 = 0 → MunmapEnd s c length (-1) { s with errno := einval }
  | freed : c.perms &&& Cap.permSoft1 ≠ 0 → wiped c length = length.toNat →
      c.addr = s.pool.addr + BitVec.ofNat 64 (s.pageOf c) * pagesz → s.pageOf c < s.pagesNb.toNat →
      length + pagesz = pagesz * (s.page (s.pageOf c)).len →
      MunmapEnd s c length 0 ((s.wipe c.addr (wiped c length)).freed (s.pageOf c))

theorem pageOf_lt (s : State) (c : Cap) : s.pageOf c < 2 ^ 53 := by
  have hlt := (c.addr - s.pool.addr).isLt
  rw [State.pageOf, pageAt, BitVec.toNat_udiv, pagesz_toNat]
  omega

theorem addr2page_ends (c : Cap) (s : State) :
    Ends (addr2page c) s
      (fun page s' => s' = s ∧ page = pageAt s.pool c ∧ c.addr = s.pool.addr + page * pagesz)
      (fun e s' => s' = s ∧ e ≠ .hang) :=
  ends_get_bind.2 (ends_require_bind (fun h => ⟨rfl, rfl, eq_of_beq h⟩) (fun _ => ⟨rfl, by simp⟩))

theorem addr2chunk_ends (hL : Laid heap s) (c : Cap) (length : BitVec 64) :
    Ends (addr2chunk c length) s
      (fun page s' => s' = s ∧ page = pageAt s.pool c ∧ c.addr = s.pool.addr + page * pagesz ∧
        s.pageOf c < s.pagesNb.toNat ∧ length = pagesz * (s.page (s.pageOf c)).len)
      (fun e s' => s' = s ∧ e ≠ .hang) := by
  apply Ends.bind (addr2page_ends c s)
  rintro page s' ⟨rfl, rfl, haddr⟩
  refine Ends.bind ((hL.readBook_ends (pageOf_lt _ _)).mono (fun _ _ h => h) ?_) ?_
  · rintro e s' ⟨rfl, ⟨rfl, -⟩ | ⟨rfl, -⟩⟩ <;> exact ⟨rfl, by simp⟩
  · rintro p s' ⟨rfl, rfl, hlt, -⟩
    refine ends_require_bind (fun h => ?_) (fun _ => ?_)
    · exact ⟨rfl, rfl, haddr, hlt, eq_of_beq h⟩
    · exact ⟨rfl, by simp⟩

/-- **`__munmap` where there is a book**: when it stops, what `bzero` stored to is cleared and the book is as it was. -/
theorem munmap_ends (hL : Laid heap s) (c : Cap) (length : BitVec 64) :
    Ends (munmap c length) s (MunmapEnd s c length)
      (fun e s' => s' = s.wipe c.addr (wiped c length) ∧ c.perms &&& Cap.permSoft1 ≠ 0 ∧ e ≠ .hang) := by
  have hL' : Laid heap (s.wipe c.addr (wiped c length)) := hL.congr rfl rfl rfl
  refine Ends.ite (fun hperm => .refused (by simpa using hperm)) (fun hperm => ?_)
  have hperm : c.perms &&& Cap.permSoft1 ≠ 0 := by simpa using hperm
  refine Ends.bind ((bzero_ends c length s).mono (fun _ _ h => h) ?_) ?_
  · rintro e s' ⟨hs', -, cause, rfl⟩
    exact ⟨hs', hperm, by simp⟩
  rintro _ s' ⟨rfl, hall⟩
  refine Ends.bind ((addr2chunk_ends hL' c (length + pagesz)).mono (fun _ _ h => h)
    (fun _ _ h => ⟨h.1, hperm, h.2⟩)) ?_
  rintro page s' ⟨rfl, rfl, haddr, hlt, hlen⟩
  have hpage : pageAt s.pool c = BitVec.ofNat 64 (s.pageOf c) := by
    rw [State.pageOf, BitVec.ofNat_toNat, BitVec.setWidth_eq]
  have hend : MunmapEnd s c length 0 ((s.wipe c.addr (wiped c length)).freed (s.pageOf c)) :=
    .freed hperm hall (hpage ▸ haddr) hlt hlen
  exact Ends.after (hL'.writeBook_eq hlt _) hend

end Memmgt
end CheriOS
