import CheriOS.Memmgt.Separation
/-!
# Isolation — what clients can do to each other

A capability stays usable after `__munmap`, and the book does not say whose a chunk is.  Where every client gives back
only what it still holds, or pages that nobody was given since, no client reaches another's pages (`clients_isolated`).
A second `__munmap` of a region that was handed out again in between clears and frees the pages of its new holder
(`clients_isolated_fails`).
-/
namespace CheriOS
namespace Memmgt

open Outcome Tiling

variable {heap : Cap} {held : List Mapping} {hs : List Nat} {s s' : Sys} {e : Event}
  {tr : List (Transition.Step Sys Event)}

/-- The byte at `x` is in one of the pages of the mapping. -/
def Mapping.Owns (m : Mapping) (x : BitVec 64) : Prop := (x - m.cap.base).toNat < need m.cap.len * pagesz.toNat

/-- **What a client passes to `__munmap`**, of any length, it holds, or it may not be freed at all, or its pages have
not been given to anyone again. -/
def Safe (held : List Mapping) : Event → Prop
  | .munmap client c _ =>
    ⟨client, c⟩ ∈ held ∨ c.perms &&& Cap.permSoft1 = 0 ∨
      ∀ m ∈ held, m.cap.addr ≠ c.addr ∧ ∀ x, m.Owns x → ¬ Covers c x
  | _ => True

theorem Safe.keeps (h : Safe held e) : Keeps held e := by
  cases e with
  | munmap client c length => exact h.imp_right (Or.imp_right fun hfree m hm hf => (hfree m hm).1 hf.1.symm)
  | _ => trivial

/-- **No page is in the mappings of two clients.** -/
def Isolated (held : List Mapping) : Prop :=
  ∀ m ∈ held, ∀ m' ∈ held, m.client ≠ m'.client → ∀ x, m.Owns x → ¬ m'.Owns x

/-- **A call neither clears nor frees a page that another client holds**: its bytes and the entry of its chunk are as
they were. -/
def Respects (st : Transition.Step Sys Event) : Prop :=
  ∀ client, st.ev.caller = some client → ∀ m ∈ st.pre.held, m.client ≠ client →
    (∀ x, m.Owns x → st.post.mm.mem x = st.pre.mm.mem x) ∧
      st.post.mm.page (st.pre.mm.pageOf m.cap) = st.pre.mm.page (st.pre.mm.pageOf m.cap)

theorem Book.isolated {mm : State} (hB : Book heap mm held hs) : Isolated held := by
  intro m hm m' hm' hne x hx hx'
  have hpage : mm.pageOf m.cap ≠ mm.pageOf m'.cap := fun heq => hne (by rw [hB.eq_of_pageOf hm hm' heq])
  exact hB.disjoint hm hm' hpage hx hx'

/-- **What a safe `__munmap` stores to is in no page of another client.** -/
theorem Book.not_wiped (hB : Book heap s.mm s.held hs) {client : Client} {c : Cap} {length : BitVec 64}
    (hperm : c.perms &&& Cap.permSoft1 ≠ 0) (hok : Safe s.held (.munmap client c length)) {m : Mapping}
    (hm : m ∈ s.held) (hne : m.client ≠ client) {x : BitVec 64} (hx : m.Owns x) :
    wiped c length ≤ (x - c.addr).toNat := by
  by_contra hlt
  have hcov : Covers c x := wiped_covered (Nat.not_le.1 hlt)
  rcases hok with hmem | hrefused | hfree
  · have hpage : s.mm.pageOf m.cap ≠ s.mm.pageOf c := fun heq => hne (by rw [hB.eq_of_pageOf hm hmem heq])
    exact hB.disjoint hm hmem hpage hx hcov.chunk
  · exact hperm hrefused
  · exact (hfree m hm).2 x hx hcov

/-- **One safe call.** -/
theorem Book.respects (hB : Book heap s.mm s.held hs) (h : Step s e s') (hok : Safe s.held e) :
    Respects ⟨s, e, s'⟩ := by
  intro client hcaller m hm hne
  cases h.cases.2 with
  | mmapped hr =>
    obtain ⟨-, hend, -⟩ := (mmap_ends hB.laid hB.tiles _ _ _ _).ok hr
    cases hend with
    | invalid => exact ⟨fun _ _ => rfl, rfl⟩
    | noSpace => exact ⟨fun _ _ => rfl, rfl⟩
    | mapped _ hfind =>
      obtain ⟨hh, hun, hle⟩ := suits_of_find hfind
      refine ⟨fun x _ => congrFun (taken_pool _ _ _).2.2.2 x,
        hB.chunks.taken_other hh ?_ (hB.holds m hm).head (hB.pageOf_ne hun hm)⟩
      rw [hB.chunks.need_toNat hh hle]
      exact need_pos _
  | mmapStopped hr =>
    obtain ⟨rfl, -⟩ := (mmap_ends hB.laid hB.tiles _ _ _ _).error hr
    exact ⟨fun _ _ => rfl, rfl⟩
  | @munmapped client' c length r mm hgiven hr =>
    obtain rfl : client' = client := Option.some.inj hcaller
    have hend := (munmap_ends hB.laid c length).ok hr
    cases hend with
    | refused => exact ⟨fun _ _ => rfl, rfl⟩
    | freed hperm hall haddr hlt hlen =>
      refine ⟨fun x hx => zeroed_of_ge (hB.not_wiped hperm hok hm hne hx), put_page_of_ne (fun hpage => ?_)⟩
      rcases hok with hmem | hrefused | hfree
      · exact hne (by rw [hB.eq_of_pageOf hm hmem hpage])
      · exact hperm hrefused
      · exact (hfree m hm).1 (by rw [(hB.holds m hm).addr, hpage, haddr])
  | @munmapStopped client' c length why mm hgiven hr =>
    obtain rfl : client' = client := Option.some.inj hcaller
    obtain ⟨rfl, hperm, -⟩ := (munmap_ends hB.laid c length).error hr
    exact ⟨fun x hx => zeroed_of_ge (hB.not_wiped hperm hok hm hne hx), rfl⟩
  | stored => cases hcaller

/-- **Clients are isolated** in every run of safe steps: no page is in the mappings of two clients, and no call has
cleared or freed a page that another client held. -/
theorem clients_isolated (hr : ManagerRun heap tr s) (hok : ∀ st ∈ tr, Safe st.pre.held st.ev) :
    Isolated s.held ∧ ∀ st ∈ tr, Respects st := by
  refine ⟨?_, fun st hst => ?_⟩
  · obtain ⟨hs, hB⟩ := book_runs hr (fun st hst => (hok st hst).keeps)
    exact hB.isolated
  · obtain ⟨newer, older, rfl, hpre, hstep⟩ := hr.cut_of_mem hst
    obtain ⟨hs, hB⟩ := book_runs hpre (fun st' hst' =>
      (hok st' (List.mem_append_right _ (List.mem_cons_of_mem _ hst'))).keeps)
    exact hB.respects hstep (hok st hst)

def givesBack (s : Sys) : Event → Bool
  | .munmap client c _ => decide (⟨client, c⟩ ∈ s.held)
  | _ => true

theorem givesBack_safe (h : givesBack s e = true) : Safe s.held e := by
  cases e with
  | munmap client c length => exact .inl (of_decide_eq_true h)
  | _ => trivial

/-- Client 0 gives its region back, and client 1 gets the same pages. -/
theorem clients_isolated_reuse : ∃ tr s, ManagerRun smallHeap tr s ∧
    tr.map (·.ev) = [ask 1 4096, .munmap 0 (regionAt 0 4096) 4096, ask 2 100, ask 0 4096] ∧
    s.held = [⟨1, regionAt 0 4096⟩, ⟨2, { regionAt 2 4096 with len := 100 }⟩] ∧ Isolated s.held ∧
    ∀ st ∈ tr, Respects st := by
  obtain ⟨tr, s, hr, hev, hok, hp⟩ := play_run smallHeap givesBack
    [ask 0 4096, ask 2 100, .munmap 0 (regionAt 0 4096) 4096, ask 1 4096]
    (fun s => s.held == [⟨1, regionAt 0 4096⟩, ⟨2, { regionAt 2 4096 with len := 100 }⟩]) (by decide +kernel)
  have hiso := clients_isolated hr (fun st hst => givesBack_safe (hok st hst))
  exact ⟨tr, s, hr, hev, by simpa using hp, hiso⟩

/-- **A region given back twice**: client 0 unmaps a region a second time, after client 1 was given its pages; the chunk
is unused again under client 1, and client 2 is given the same pages. -/
theorem clients_isolated_fails : ∃ tr s, ManagerRun smallHeap tr s ∧
    tr.map (·.ev) = [ask 2 4096, .munmap 0 (regionAt 0 4096) 4096, ask 1 4096, .munmap 0 (regionAt 0 4096) 4096,
      ask 0 4096] ∧
    ¬ Isolated s.held := by
  obtain ⟨tr, s, hr, hev, -, hp⟩ := play_run smallHeap (fun _ _ => true)
    [ask 0 4096, .munmap 0 (regionAt 0 4096) 4096, ask 1 4096, .munmap 0 (regionAt 0 4096) 4096, ask 2 4096]
    (fun s => s.held == [⟨2, regionAt 0 4096⟩, ⟨1, regionAt 0 4096⟩]) (by decide +kernel)
  refine ⟨tr, s, hr, hev, fun hiso => ?_⟩
  have hheld : s.held = [⟨2, regionAt 0 4096⟩, ⟨1, regionAt 0 4096⟩] := by simpa using hp
  rw [hheld] at hiso
  have hown : ∀ client, Mapping.Owns ⟨client, regionAt 0 4096⟩ 0x10000 := by
    intro client
    show (0x10000 - (regionAt 0 4096).base).toNat < need (regionAt 0 4096).len * pagesz.toNat
    decide
  exact hiso ⟨2, _⟩ (by simp) ⟨1, _⟩ (by simp) (by decide) 0x10000 (hown 2) (hown 1)

end Memmgt
end CheriOS
