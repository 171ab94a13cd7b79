import CheriOS.Memmgt.Unmap
/-!
# FirstFit — which chunk a request gets

`__mmap` takes the lowest unused chunk that is long enough and leaves every other chunk as it is, or fails and leaves all
of them.  A length that cannot be rounded up to whole pages in 64 bits is longer than any pool, but it is not refused: the
rounding wraps, and the assertion after it stops the system.
-/
namespace CheriOS
namespace Memmgt

open Outcome Tiling

variable {heap addr : Cap} {mm : State} {hs : List Nat} {h : Nat} {length : BitVec 64} {prot flags perms : BitVec 32}

/-- **A chunk cut to `n` pages**: it is used, what is left of it is an unused chunk of its own, and nothing else is
another. -/
structure Carved (heap : Cap) (mm : State) (hs : List Nat) (h n : Nat) (mm' : State) (hs' : List Nat) : Prop where
  chunks : Chunks heap mm' hs'
  heads : ∀ k, k ∈ hs' ↔ k ∈ hs ∨ (n < mm.len h ∧ k = h + n)
  used : (mm'.page h).status = .used ∧ mm'.len h = n
  rest : n < mm.len h → (mm'.page (h + n)).status = .unused ∧ mm'.len (h + n) = mm.len h - n
  others : ∀ k ∈ hs, k ≠ h → mm'.page k = mm.page k
  pool : mm'.pool = mm.pool ∧ mm'.pagesNb = mm.pagesNb ∧ mm'.book = mm.book ∧ mm'.mem = mm.mem

/-- **A request served first fit**: a failure that changes nothing, where no chunk suits; and otherwise the lowest one that
does, cut to what is needed, with a capability for its first `length` bytes. -/
inductive Served (heap : Cap) (mm : State) (hs : List Nat) (length : BitVec 64) (perms : BitVec 32) :
    Except (Stop × State) (Cap × State) → Prop where
  | full : (∀ k ∈ hs, mm.suits (need length) k = false) → Served heap mm hs length perms (.ok (mapFailed, mm))
  | fit {h : Nat} {mm' : State} {hs' : List Nat} : h ∈ hs → mm.suits (need length) h = true →
      (∀ k ∈ hs, k < h → mm.suits (need length) k = false) → Carved heap mm hs h (need length) mm' hs' →
      Served heap mm hs length perms (.ok (mm.region h length perms, mm'))

theorem Chunks.carved (hC : Chunks heap mm hs) (hh : h ∈ hs) (hle : need length ≤ mm.len h) :
    ∃ hs', Carved heap mm hs h (need length) (mm.taken h (BitVec.ofNat 64 (need length))) hs' := by
  have hw := hC.need_toNat hh hle
  have hw0 : 0 < (BitVec.ofNat 64 (need length)).toNat := by
    rw [hw]
    exact need_pos _
  have hlt : BitVec.ofNat 64 (need length) < (mm.page h).len ↔ need length < mm.len h := by
    rw [BitVec.lt_def, hw]
    rfl
  obtain ⟨hs', hC', hmem⟩ := hC.take hh hw0 (by rw [hw]; exact hle)
  rw [hw] at hmem
  refine ⟨hs', hC', fun k => ?_, ?_, fun hmore => ?_, fun k hk hne => hC.taken_other hh hw0 hk hne, taken_pool _ _ _⟩
  · rw [hmem, hlt]
  · rw [State.len, taken_head hw0]
    exact ⟨rfl, hw⟩
  · have hrest := taken_rest (hlt.2 hmore)
    rw [hw] at hrest
    rw [State.len, hrest]
    refine ⟨rfl, ?_⟩
    rw [BitVec.toNat_sub_of_le (BitVec.le_of_lt (hlt.2 hmore)), hw]
    rfl

/-- **Too long to round up**: the assertion fails before anything is searched. -/
theorem mmap_asserts (mm : State) (hn : addr.isNull = true) (hp : mmapPerms prot flags = some perms)
    (hlen : 2 ^ 64 - pagesz.toNat < length.toNat) :
    mmap addr length prot flags mm = .error (.assertFailed "pages_wanted*pagesz >= length", mm) := by
  have hends : Ends (mmap addr length prot flags) mm (fun _ _ => False)
      (fun e s' => s' = mm ∧ e = .assertFailed "pages_wanted*pagesz >= length") := by
    refine ends_require_bind (fun _ => ?_) (fun hno => by rw [hn] at hno; cases hno)
    rw [hp]
    refine Ends.bind ((pagesWanted_ends length mm).mono (fun _ _ h => h) (fun _ _ h => ⟨h.1, h.2.1⟩)) ?_
    rintro _ _ ⟨-, -, hshort⟩
    omega
  cases hr : mmap addr length prot flags mm with
  | ok r =>
    have hr' : mmap addr length prot flags mm = .ok (r.1, r.2) := hr
    exact (hends.ok hr').elim
  | error r =>
    have hr' : mmap addr length prot flags mm = .error (r.1, r.2) := hr
    exact congrArg Except.error (Prod.ext (hends.error hr').2 (hends.error hr').1)

theorem mmap_served (hC : Chunks heap mm hs) (hload : heap.hasPerms Cap.permLoad = true) (hn : addr.isNull = true)
    (hp : mmapPerms prot flags = some perms) (hlen : length.toNat ≤ 2 ^ 64 - pagesz.toNat) :
    Served heap mm hs length perms (mmap addr length prot flags mm) := by
  have hends := mmap_ends hC.laid hC.tiles addr length prot flags
  cases hr : mmap addr length prot flags mm with
  | ok r =>
    have hr' : mmap addr length prot flags mm = .ok (r.1, r.2) := hr
    obtain ⟨-, hend, -⟩ := hends.ok hr'
    cases r with
    | mk c mm' =>
      cases hend with
      | invalid hno => rw [hp] at hno; cases hno
      | noSpace _ hfind => exact .full fun k hk => by simpa using List.find?_eq_none.1 hfind k hk
      | mapped hp' hfind _ =>
        obtain rfl := Option.some.inj (hp'.symm.trans hp)
        obtain ⟨hh, hsuits, hlow⟩ := hC.tiles.find?_lowest hfind
        obtain ⟨hs', hcut⟩ := hC.carved hh (suits_of_find hfind).2.2
        exact .fit hh hsuits hlow hcut
  | error r =>
    have hr' : mmap addr length prot flags mm = .error (r.1, r.2) := hr
    obtain ⟨-, hstop⟩ := hends.error hr'
    generalize r.1 = e at hstop
    cases hstop with
    | addr hno => rw [hn] at hno; cases hno
    | length hlong => omega
    | noLoad hno => rw [hload] at hno; cases hno

/-- **First fit.**  On every well-formed book that the manager can read, a request with valid flags is served first fit
exactly when its length can be rounded up to whole pages. -/
theorem mmap_first_fit (hC : Chunks heap mm hs) (hload : heap.hasPerms Cap.permLoad = true) (hn : addr.isNull = true)
    (hp : mmapPerms prot flags = some perms) :
    Served heap mm hs length perms (mmap addr length prot flags mm) ↔ length.toNat ≤ 2 ^ 64 - pagesz.toNat := by
  refine ⟨fun hserved => ?_, mmap_served hC hload hn hp⟩
  by_contra hlong
  rw [mmap_asserts mm hn hp (Nat.lt_of_not_le hlong)] at hserved
  cases hserved

/-- A book with a hole of three pages between two mappings: three pages are wanted, and the hole has them. -/
theorem mmap_first_fit_hole : ∃ mm hs, Chunks smallHeap mm hs ∧ ∃ perms,
    Served smallHeap mm hs 8192 perms (mmap Cap.null 8192 (protRead ||| protWrite) (mapPrivate ||| mapAnonymous) mm) := by
  obtain ⟨tr, s, hr, -, -, -⟩ := play_run smallHeap (fun _ _ => true)
    [ask 0 8192, ask 1 4096, .munmap 0 (regionAt 0 8192) 8192] (fun _ => true) (by decide +kernel)
  obtain ⟨⟨hs, hC⟩, -⟩ := chunk_runs hr
  exact ⟨s.mm, hs, hC, _, (mmap_first_fit hC rfl rfl rfl).2 (by decide)⟩

/-- **A length that stops the system**: no pool has a chunk for `2 ^ 64 - 1` bytes, and the assertion fails. -/
theorem mmap_first_fit_fails : ∃ tr s hs perms, ManagerRun smallHeap tr s ∧ Chunks smallHeap s.mm hs ∧
    mmapPerms (protRead ||| protWrite) (mapPrivate ||| mapAnonymous) = some perms ∧
    (∀ k ∈ hs, s.mm.suits (need (-1)) k = false) ∧
    mmap Cap.null (-1) (protRead ||| protWrite) (mapPrivate ||| mapAnonymous) s.mm =
      .error (.assertFailed "pages_wanted*pagesz >= length", s.mm) ∧
    ¬ Served smallHeap s.mm hs (-1) perms
      (mmap Cap.null (-1) (protRead ||| protWrite) (mapPrivate ||| mapAnonymous) s.mm) := by
  obtain ⟨tr, s, hr, -, -, -⟩ := play_run smallHeap (fun _ _ => true) [] (fun _ => true) (by decide +kernel)
  obtain ⟨⟨hs, hC⟩, -⟩ := chunk_runs hr
  have hstop : mmap Cap.null (-1) (protRead ||| protWrite) (mapPrivate ||| mapAnonymous) s.mm =
      .error (.assertFailed "pages_wanted*pagesz >= length", s.mm) := mmap_asserts s.mm rfl rfl (by decide)
  refine ⟨tr, s, hs, _, hr, hC, rfl, fun k hk => ?_, hstop, fun hserved => ?_⟩
  · have hpages := hC.laid.pages_lt
    have hend := (hC.tiles.bounds hk).2.2
    have hneed : need (-1) = 2 ^ 52 + 1 := by decide
    have hshort : ¬ need (-1) ≤ s.mm.len k := by omega
    exact Bool.and_eq_false_iff.2 (.inr (decide_eq_false hshort))
  · rw [hstop] at hserved
    cases hserved

end Memmgt
end CheriOS
