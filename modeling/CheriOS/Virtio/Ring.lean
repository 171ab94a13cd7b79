import CheriOS.Virtio.Protocol
/-!
# Ring — where the block driver puts its requests

The device reads the avail ring at the index modulo the length of the queue and follows the links of the descriptors.
The driver stores at the index itself, and links every chain through the descriptors 1 and 2.  Sessions may have any number
of request slots here; `vblk_init` gives them one.
-/
namespace CheriOS
namespace Virtio

open Outcome
open Transition (Run)

variable {S : Type} [DecidableEq S] {s s' : State S} {sid y : S} {e : Event S} {reply : Reply}
  {tr : List (Transition.Step (State S) (Event S × Reply))}

/-! ## Sessions with any number of slots -/

/-- The session after `vblk_init`, with `reqNb` for its constant 1. -/
def sessionInit (reqNb : Nat) : Session :=
  { queue := ⟨3 * reqNb, fun _ => Desc.zero, ⟨0, fun _ => 0⟩, ⟨0, fun _ => ⟨0, 0⟩⟩, 0⟩
    reqNb := reqNb
    reqs := fun _ => Req.zero }

/-- **A run of sessions of any sizes**, each from the state after its `vblk_init`. -/
abbrev QueueRun (tr : List (Transition.Step (State S) (Event S × Reply))) (s : State S) : Prop :=
  Run (fun s => ∀ y, ∃ reqNb, s.sessions y = sessionInit reqNb) blkStep tr s

theorem BlkRun.queues (h : BlkRun tr s) : QueueRun tr s := by
  induction h with
  | nil h0 => exact .nil (fun y => ⟨1, by rw [h0.sessions]; rfl⟩)
  | cons _ hst ih => exact .cons ih hst

/-! ## Stores -/

/-- A store to a virtqueue. -/
inductive Store where
  | desc (j : Nat) (d : Desc)
  | ring (j : Nat) (head : BitVec 16)
  | idx (v : BitVec 16)
  deriving DecidableEq, Repr

def Virtq.store (q : Virtq) : Store → Virtq
  | .desc j d => { q with desc := Function.update q.desc j d }
  | .ring j head => { q with avail := { q.avail with ring := Function.update q.avail.ring j head } }
  | .idx v => { q with avail := { q.avail with idx := v } }

/-- **The stores of a request in slot `i`**, in the order of the code. -/
def Virtq.stores (q : Virtq) (i : Nat) (bufFlags : BitVec 16) (buf : BitVec 64) : List Store :=
  [.desc (3 * i + 0) ⟨.outhdr i, 16, virtqDescFNext, 1⟩,
    .desc (3 * i + 1) ⟨.buf (buf.setWidth 32), 512, bufFlags ||| virtqDescFNext, 2⟩,
    .desc (3 * i + 2) ⟨.inhdr i, 1, virtqDescFWrite, 0⟩,
    .ring q.avail.idx.toNat (BitVec.ofNat 16 (3 * i)), .idx (q.avail.idx + 1)]

/-- The queue after a request in slot `i`. -/
def Virtq.stored (q : Virtq) (i : Nat) (bufFlags : BitVec 16) (buf : BitVec 64) : Virtq :=
  (q.stores i bufFlags buf).foldl Virtq.store q

/-- **The descriptors a device visits** from `j` on, in at most `fuel` steps. -/
def visited (desc : Nat → Desc) : Nat → Nat → List Nat
  | 0, _ => []
  | fuel + 1, j => j :: if (desc j).flags &&& virtqDescFNext ≠ 0 then visited desc fuel (desc j).next.toNat else []

/-- The session, the flags and the buffer of a request. -/
def Event.asks : Event S → Option (S × BitVec 16 × BitVec 64)
  | .read sid _ buf _ => some (sid, virtqDescFWrite, buf)
  | .write sid _ buf _ => some (sid, 0, buf)
  | .complete .. | .interrupt => none

/-- **A request of `sid` is submitted in slot `i`**: the device is in order, and the slot is the first free one. -/
def Submits (s : State S) (sid : S) (i : Nat) : Prop :=
  (s.devices sid).status &&& statusDeviceNeedsReset = 0 ∧
    freeReq (s.sessions sid).reqs (s.sessions sid).reqNb 0 = i ∧ i < (s.sessions sid).reqNb

instance (s : State S) (sid : S) (i : Nat) : Decidable (Submits s sid i) := inferInstanceAs (Decidable (_ ∧ _ ∧ _))

theorem le_freeReq (reqs : Nat → Req) : ∀ fuel i, i ≤ freeReq reqs fuel i
  | 0, i => Nat.le_refl i
  | fuel + 1, i => by
    rw [freeReq]
    split
    · exact Nat.le_refl i
    · exact Nat.le_of_succ_le (le_freeReq reqs fuel (i + 1))

omit [DecidableEq S] in
/-- The first slot is the one that is used where it is free. -/
theorem Submits.zero_iff {i : Nat} (h : Submits s sid i) : i = 0 ↔ ((s.sessions sid).reqs 0).used = 0 := by
  obtain ⟨-, rfl, hlt⟩ := h
  obtain ⟨n, hn⟩ : ∃ n, (s.sessions sid).reqNb = n + 1 := ⟨(s.sessions sid).reqNb - 1, by omega⟩
  rw [hn, freeReq]
  by_cases h0 : ((s.sessions sid).reqs 0).used = 0
  · simp [h0]
  · have hge := le_freeReq (s.sessions sid).reqs n (0 + 1)
    have hb : (((s.sessions sid).reqs 0).used == 0) = false := beq_eq_false_iff_ne.2 h0
    rw [hb, if_neg Bool.false_ne_true]
    exact iff_of_false (by omega) h0

/-! ## What a request does -/

theorem pushAvail_stored (q : Virtq) (i : Nat) (bufFlags : BitVec 16) (buf : BitVec 64) :
    pushAvail { q with desc := chain q.desc i bufFlags buf } (BitVec.ofNat 16 (3 * i)) =
      if q.avail.idx.toNat ≤ q.num then .ok (q.stored i bufFlags buf) else .error .outOfBounds := rfl

/-- The sessions after a request of `sid` in slot `i`. -/
structure Submitted (s : State S) (sid : S) (i : Nat) (bufFlags : BitVec 16) (buf : BitVec 64) (s' : State S) : Prop where
  queue : (s'.sessions sid).queue = (s.sessions sid).queue.stored i bufFlags buf
  reqNb : (s'.sessions sid).reqNb = (s.sessions sid).reqNb
  others : ∀ y, y ≠ sid → s'.sessions y = s.sessions y

/-- **A request that is submitted** makes its stores, or one of them is outside the ring's memory. -/
theorem vblkRw_submits (type : BitVec 32) (bufFlags : BitVec 16) (buf sector : BitVec 64) {i : Nat}
    (hc : s.cookie = some sid) (hs : Submits s sid i) :
    ((s.sessions sid).queue.avail.idx.toNat ≤ (s.sessions sid).queue.num ∧
      ∃ v s', vblkRw type bufFlags buf sector s = .ok (v, s') ∧ Submitted s sid i bufFlags buf s') ∨
    ((s.sessions sid).queue.num < (s.sessions sid).queue.avail.idx.toNat ∧
      vblkRw type bufFlags buf sector s = .error .outOfBounds) := by
  obtain ⟨hstatus, rfl, hlt⟩ := hs
  unfold vblkRw
  simp only [hc, deref, ok_bind, assert, hstatus, beq_self_eq_true, if_true, hlt, decide_true, pushAvail_stored]
  by_cases hroom : (s.sessions sid).queue.avail.idx.toNat ≤ (s.sessions sid).queue.num
  · refine .inl ⟨hroom, ?_⟩
    rw [if_pos hroom]
    refine ⟨_, _, rfl, ?_⟩
    exact ⟨by simp [State.setDevice, State.setSession],
      by simp [State.setDevice, State.setSession],
      fun y hy => by simp [State.setDevice, State.setSession, hy]⟩
  · refine .inr ⟨Nat.lt_of_not_le hroom, ?_⟩
    rw [if_neg hroom]
    rfl

theorem assert_true {c : Bool} {site : Site} {u : Unit} (h : assert c site = .ok u) : c = true := by
  unfold assert at h
  split at h
  · assumption
  · cases h

/-- A request that is answered was submitted. -/
theorem vblkRw_ok {type : BitVec 32} {bufFlags : BitVec 16} {buf sector v : BitVec 64} (hc : s.cookie = some sid)
    (h : vblkRw type bufFlags buf sector s = .ok (v, s')) :
    ∃ i, Submits s sid i ∧ Submitted s sid i bufFlags buf s' := by
  have hsub : Submits s sid (freeReq (s.sessions sid).reqs (s.sessions sid).reqNb 0) := by
    unfold vblkRw at h
    simp only [hc, deref, ok_bind] at h
    obtain ⟨_, hstatus, h⟩ := bind_eq_ok.1 h
    obtain ⟨_, hlt, -⟩ := bind_eq_ok.1 h
    exact ⟨beq_iff_eq.1 (assert_true hstatus), rfl, of_decide_eq_true (assert_true hlt)⟩
  refine ⟨_, hsub, ?_⟩
  rcases vblkRw_submits type bufFlags buf sector hc hsub with
    ⟨-, v', k, hok, hk⟩ | ⟨-, hstop⟩
  · rw [hok] at h
    cases h
    exact hk
  · rw [hstop] at h
    cases h

/-! ## What an event does to the queues -/

/-- **Both kinds of request run one body.** -/
theorem exec_request {bufFlags : BitVec 16} {buf : BitVec 64} (ha : e.asks = some (sid, bufFlags, buf)) (s : State S) :
    ∃ type token sector, exec e s = msgEntry (some sid) token (vblkRw type bufFlags buf sector) s := by
  cases e with
  | read y token b sector => cases ha; exact ⟨_, _, _, rfl⟩
  | write y token b sector => cases ha; exact ⟨_, _, _, rfl⟩
  | complete y status => cases ha
  | interrupt => cases ha

/-- **A request of `sid`**, where it is answered. -/
theorem exec_asks {bufFlags : BitVec 16} {buf : BitVec 64} (ha : e.asks = some (sid, bufFlags, buf))
    (h : exec e s = .ok (reply, s')) : ∃ i, Submits s sid i ∧ Submitted s sid i bufFlags buf s' := by
  obtain ⟨type, token, sector, hrun⟩ := exec_request ha s
  rw [hrun] at h
  obtain ⟨⟨v, k⟩, hok, hk⟩ := bind_eq_ok.1 h
  obtain ⟨-, rfl⟩ := Prod.mk.inj (Except.ok.inj hk)
  obtain ⟨i, hs, hsub⟩ := vblkRw_ok (s := { s with cookie := some sid, syncToken := token }) rfl hok
  exact ⟨i, hs, hsub.queue, hsub.reqNb, hsub.others⟩

/-- The parts of the sessions that requests use are as they were. -/
def SameRings (s s' : State S) : Prop := ∀ y, (s'.sessions y).reqNb = (s.sessions y).reqNb ∧
  (s'.sessions y).queue.num = (s.sessions y).queue.num ∧ (s'.sessions y).queue.desc = (s.sessions y).queue.desc ∧
    (s'.sessions y).queue.avail = (s.sessions y).queue.avail

theorem SameRings.setSession {x : Session} (hs : s'.sessions = Function.update s.sessions sid x)
    (hx : x.reqNb = (s.sessions sid).reqNb ∧ x.queue.num = (s.sessions sid).queue.num ∧
      x.queue.desc = (s.sessions sid).queue.desc ∧ x.queue.avail = (s.sessions sid).queue.avail) :
    SameRings s s' := by
  intro y
  rw [hs]
  by_cases hy : y = sid
  · subst hy
    simpa using hx
  · simp [hy]

theorem vblkRwRet_rings {i : Nat} {v : BitVec 64} (h : vblkRwRet i s = .ok (v, s')) : SameRings s s' := by
  unfold vblkRwRet at h
  obtain ⟨sid, -, h⟩ := bind_eq_ok.1 h
  obtain ⟨_, -, h⟩ := bind_eq_ok.1 h
  obtain ⟨_, -, h⟩ := bind_eq_ok.1 h
  obtain ⟨_, -, h⟩ := bind_eq_ok.1 h
  obtain ⟨_, -, h⟩ := bind_eq_ok.1 h
  obtain ⟨_, -, h⟩ := bind_eq_ok.1 h
  cases h
  exact .setSession rfl ⟨rfl, rfl, rfl, rfl⟩

/-- **Nothing else stores to an avail ring or a descriptor.** -/
theorem exec_other (ha : e.asks = none) (h : exec e s = .ok (reply, s')) : SameRings s s' := by
  cases e with
  | read y token b sector => cases ha
  | write y token b sector => cases ha
  | complete z status =>
    cases h
    exact .setSession rfl ⟨rfl, rfl, rfl, rfl⟩
  | interrupt =>
    obtain ⟨⟨v, k⟩, hok, hk⟩ := bind_eq_ok.1 h
    obtain ⟨-, rfl⟩ := Prod.mk.inj (Except.ok.inj hk)
    obtain ⟨⟨ret, m⟩, hret, hok⟩ := bind_eq_ok.1 hok
    obtain ⟨sid, -, hok⟩ := bind_eq_ok.1 hok
    cases hok
    have hsame := vblkRwRet_rings hret
    exact hsame

/-! ## Chains and indices -/

section Chains

variable {q : Virtq} {i : Nat} {bufFlags : BitVec 16} {buf : BitVec 64}

theorem stored_idx : (q.stored i bufFlags buf).avail.idx = q.avail.idx + 1 := rfl

theorem stored_num : (q.stored i bufFlags buf).num = q.num := rfl

theorem stored_desc : (q.stored i bufFlags buf).desc = chain q.desc i bufFlags buf := rfl

theorem chain_first (desc : Nat → Desc) : chain desc i bufFlags buf (3 * i) = ⟨.outhdr i, 16, virtqDescFNext, 1⟩ := by
  simp [chain]

/-- **A chain begins with its own descriptor and goes on with descriptor 1**, whatever the slot. -/
theorem visited_chain (n i : Nat) (desc : Nat → Desc) (bufFlags : BitVec 16) (buf : BitVec 64) : ∃ l,
    visited (chain desc i bufFlags buf) (n + 2) (3 * i) = 3 * i :: 1 :: l := by
  have hnext : virtqDescFNext &&& virtqDescFNext ≠ 0 := by decide
  rw [visited, chain_first, if_pos hnext]
  exact ⟨_, rfl⟩

/-- The chain of the first slot. -/
theorem visited_zero {n : Nat} (desc : Nat → Desc) (hb : bufFlags = virtqDescFWrite ∨ bufFlags = 0) :
    visited (chain desc 0 bufFlags buf) (n + 3) 0 = [0, 1, 2] := by
  have h0 : chain desc 0 bufFlags buf 0 = ⟨.outhdr 0, 16, virtqDescFNext, 1⟩ := chain_first desc
  have h1 : chain desc 0 bufFlags buf 1 = ⟨.buf (buf.setWidth 32), 512, bufFlags ||| virtqDescFNext, 2⟩ := by simp [chain]
  have h2 : chain desc 0 bufFlags buf 2 = ⟨.inhdr 0, 1, virtqDescFWrite, 0⟩ := by simp [chain]
  have hone : (1 : BitVec 16).toNat = 1 := rfl
  have htwo : (2 : BitVec 16).toNat = 2 := rfl
  have hfirst : virtqDescFNext &&& virtqDescFNext ≠ 0 := by decide
  have hsecond : (bufFlags ||| virtqDescFNext) &&& virtqDescFNext ≠ 0 := by
    rcases hb with rfl | rfl <;> decide
  have hthird : ¬ virtqDescFWrite &&& virtqDescFNext ≠ 0 := by decide
  rw [visited, h0, if_pos hfirst, hone, visited, h1, if_pos hsecond, htwo, visited, h2, if_neg hthird]

end Chains

/-- **A request in slot `i` that keeps to the ring**: it is answered, with these stores; the head goes where the device
looks for it, no store to the ring is outside its entries, the index goes up by one, and the device visits the three
descriptors of the slot. -/
structure Disciplined (s : State S) (e : Event S) (sid : S) (i : Nat) (bufFlags : BitVec 16) (buf : BitVec 64) : Prop where
  made : ∃ reply s', exec e s = .ok (reply, s') ∧
    (s'.sessions sid).queue = (s.sessions sid).queue.stored i bufFlags buf
  head : ∃ head, .ring ((s.sessions sid).queue.avail.idx.toNat % (s.sessions sid).queue.num) head ∈
    (s.sessions sid).queue.stores i bufFlags buf ∧ head.toNat = 3 * i
  inside : ∀ j head, .ring j head ∈ (s.sessions sid).queue.stores i bufFlags buf → j < (s.sessions sid).queue.num
  advance : ((s.sessions sid).queue.stored i bufFlags buf).avail.idx = (s.sessions sid).queue.avail.idx + 1
  links : visited ((s.sessions sid).queue.stored i bufFlags buf).desc (s.sessions sid).queue.num (3 * i) =
    [3 * i, 3 * i + 1, 3 * i + 2]

theorem exec_submits {bufFlags : BitVec 16} {buf : BitVec 64} {i : Nat} (ha : e.asks = some (sid, bufFlags, buf))
    (hs : Submits s sid i) (hroom : (s.sessions sid).queue.avail.idx.toNat ≤ (s.sessions sid).queue.num) :
    ∃ reply s', exec e s = .ok (reply, s') ∧ Submitted s sid i bufFlags buf s' := by
  obtain ⟨type, token, sector, hrun⟩ := exec_request ha s
  rcases vblkRw_submits (s := { s with cookie := some sid, syncToken := token }) type bufFlags buf sector rfl hs with
    ⟨-, v, k, hok, hk⟩ | ⟨hfull, -⟩
  · exact ⟨_, k, by rw [hrun, msgEntry, hok]; rfl, hk.queue, hk.reqNb, hk.others⟩
  · exact absurd hroom (Nat.not_le.2 hfull)

/-- **One request** keeps to the ring exactly where the index is inside it and the first slot is free. -/
theorem disciplined_iff {bufFlags : BitVec 16} {buf : BitVec 64} {i : Nat} (ha : e.asks = some (sid, bufFlags, buf))
    (hs : Submits s sid i) (hnum : (s.sessions sid).queue.num = 3 * (s.sessions sid).reqNb) :
    Disciplined s e sid i bufFlags buf ↔
      (s.sessions sid).queue.avail.idx.toNat < (s.sessions sid).queue.num ∧ ((s.sessions sid).reqs 0).used = 0 := by
  rw [← hs.zero_iff]
  obtain ⟨n, hn⟩ : ∃ n, (s.sessions sid).queue.num = n + 3 := by
    have hpos := hs.2.2
    exact ⟨3 * (s.sessions sid).reqNb - 3, by omega⟩
  constructor
  · rintro ⟨-, -, hin, -, hl⟩
    refine ⟨hin _ _ (by simp [Virtq.stores]; rfl), ?_⟩
    rw [stored_desc, hn] at hl
    obtain ⟨l, hv⟩ := visited_chain (n + 1) i (s.sessions sid).queue.desc bufFlags buf
    rw [hv] at hl
    have h1 : 1 = 3 * i + 1 := (List.cons.inj (List.cons.inj hl).2).1
    omega
  · rintro ⟨hidx, rfl⟩
    obtain ⟨reply, s', hok, hsub⟩ := exec_submits ha hs (Nat.le_of_lt hidx)
    refine ⟨⟨reply, s', hok, hsub.queue⟩, ⟨BitVec.ofNat 16 (3 * 0), ?_, rfl⟩, fun j head hm => ?_, rfl, ?_⟩
    · simp [Virtq.stores, Nat.mod_eq_of_lt hidx]
    · simp only [Virtq.stores, List.mem_cons, reduceCtorEq, Store.ring.injEq, List.not_mem_nil, or_false, false_or] at hm
      rw [hm.1]
      exact hidx
    · rw [stored_desc, hn]
      refine visited_zero _ ?_
      cases e <;> cases ha
      · exact .inl rfl
      · exact .inr rfl

/-! ## Runs -/

/-- How often `y` has been asked for something. -/
def submissions (y : S) (tr : List (Transition.Step (State S) (Event S × Reply))) : Nat :=
  tr.countP (fun st => st.ev.1.asks.map Prod.fst = some y)

/-- **A step that is a request of `sid` in slot `i`.** -/
def Requests (st : Transition.Step (State S) (Event S × Reply)) (sid : S) (i : Nat) (bufFlags : BitVec 16)
    (buf : BitVec 64) : Prop := st.ev.1.asks = some (sid, bufFlags, buf) ∧ Submits st.pre sid i

/-- The descriptors of a request in slot `i`, as the device finds them. -/
def published (s : State S) (sid : S) (i : Nat) (bufFlags : BitVec 16) (buf : BitVec 64) : List Nat :=
  visited ((s.sessions sid).queue.stored i bufFlags buf).desc (s.sessions sid).queue.num (3 * i)

/-- **The discipline of a run**: every request keeps to the ring, and requests in different slots have no descriptor in
common. -/
structure RingKept (tr : List (Transition.Step (State S) (Event S × Reply))) : Prop where
  kept : ∀ st ∈ tr, ∀ sid i bufFlags buf, Requests st sid i bufFlags buf →
    Disciplined st.pre st.ev.1 sid i bufFlags buf
  apart : ∀ st ∈ tr, ∀ st' ∈ tr, ∀ sid i j bufFlags bufFlags' buf buf', Requests st sid i bufFlags buf →
    Requests st' sid j bufFlags' buf' → i ≠ j →
      ∀ k, k ∈ published st.pre sid i bufFlags buf → k ∉ published st'.pre sid j bufFlags' buf'

theorem blkStep_idx {i : Event S × Reply} (h : blkStep s i s') (y : S) :
    (s'.sessions y).reqNb = (s.sessions y).reqNb ∧ (s'.sessions y).queue.num = (s.sessions y).queue.num ∧
      (s'.sessions y).queue.avail.idx =
        (s.sessions y).queue.avail.idx + if i.1.asks.map Prod.fst = some y then 1 else 0 := by
  obtain ⟨-, h⟩ := h
  cases ha : i.1.asks with
  | none =>
    obtain ⟨hreq, hnum, -, havail⟩ := exec_other ha h y
    exact ⟨hreq, hnum, by simp [havail]⟩
  | some p =>
    obtain ⟨sid, bufFlags, buf⟩ := p
    obtain ⟨k, -, hsub⟩ := exec_asks ha h
    by_cases hy : y = sid
    · subst hy
      refine ⟨hsub.reqNb, ?_, ?_⟩
      · rw [hsub.queue, stored_num]
      · rw [hsub.queue, stored_idx]
        simp
    · have hne : ¬ sid = y := fun he => hy he.symm
      rw [hsub.others y hy]
      simp [hne]

/-- **The index counts the requests**, modulo 2^16. -/
theorem QueueRun.idx (hr : QueueRun tr s) (y : S) : (s.sessions y).queue.num = 3 * (s.sessions y).reqNb ∧
    (s.sessions y).queue.avail.idx = BitVec.ofNat 16 (submissions y tr) := by
  induction hr with
  | nil h0 =>
    obtain ⟨reqNb, hy⟩ := h0 y
    rw [hy]
    exact ⟨rfl, rfl⟩
  | @cons tr s s' i hr hst ih =>
    obtain ⟨hreq, hnum, hidx⟩ := blkStep_idx hst y
    refine ⟨by rw [hnum, hreq, ih.1], ?_⟩
    rw [hidx, ih.2, submissions, submissions, List.countP_cons, BitVec.ofNat_add]
    by_cases ha : i.1.asks.map Prod.fst = some y
    · simp [ha]
    · simp [ha]

theorem QueueRun.disciplined_iff (hr : QueueRun tr s) {bufFlags : BitVec 16} {buf : BitVec 64} {i : Nat}
    (ha : e.asks = some (sid, bufFlags, buf)) (hs : Submits s sid i) : Disciplined s e sid i bufFlags buf ↔
      (s.sessions sid).queue.avail.idx.toNat < (s.sessions sid).queue.num ∧ ((s.sessions sid).reqs 0).used = 0 :=
  Virtio.disciplined_iff ha hs (QueueRun.idx hr sid).1

/-- **Chains that keep to their own descriptors** have none in common. -/
theorem Disciplined.apart {e' : Event S} {i j : Nat} {bufFlags bufFlags' : BitVec 16} {buf buf' : BitVec 64}
    (h : Disciplined s e sid i bufFlags buf) (h' : Disciplined s' e' sid j bufFlags' buf') (hne : i ≠ j) :
    ∀ k, k ∈ published s sid i bufFlags buf → k ∉ published s' sid j bufFlags' buf' := by
  intro k hk hk'
  rw [published, h.links] at hk
  rw [published, h'.links] at hk'
  simp only [List.mem_cons, List.not_mem_nil, or_false] at hk hk'
  omega

/-- **The ring discipline** holds of a request exactly while the index has not left the ring and the first slot is free: of
any request after any others, and of a run whose requests are such.  The index counts the requests. -/
theorem virtio_ring (hr : QueueRun tr s) :
    (∀ y, (s.sessions y).queue.num = 3 * (s.sessions y).reqNb ∧
      (s.sessions y).queue.avail.idx = BitVec.ofNat 16 (submissions y tr)) ∧
    (∀ e sid i bufFlags buf, e.asks = some (sid, bufFlags, buf) → Submits s sid i →
      (Disciplined s e sid i bufFlags buf ↔
        (s.sessions sid).queue.avail.idx.toNat < (s.sessions sid).queue.num ∧ ((s.sessions sid).reqs 0).used = 0)) ∧
    (RingKept tr ↔ ∀ st ∈ tr, ∀ sid i bufFlags buf, Requests st sid i bufFlags buf →
      (st.pre.sessions sid).queue.avail.idx.toNat < (st.pre.sessions sid).queue.num ∧
        ((st.pre.sessions sid).reqs 0).used = 0) := by
  have hstep : ∀ st ∈ tr, ∀ sid i bufFlags buf, Requests st sid i bufFlags buf →
      (Disciplined st.pre st.ev.1 sid i bufFlags buf ↔
        (st.pre.sessions sid).queue.avail.idx.toNat < (st.pre.sessions sid).queue.num ∧
          ((st.pre.sessions sid).reqs 0).used = 0) := by
    rintro st hm sid i bufFlags buf ⟨ha, hs⟩
    obtain ⟨_, _, -, hpre, -⟩ := hr.cut_of_mem hm
    exact QueueRun.disciplined_iff hpre ha hs
  refine ⟨QueueRun.idx hr, fun e sid i bufFlags buf ha hs => QueueRun.disciplined_iff hr ha hs, fun h => ?_, fun h => ?_⟩
  · exact fun st hm sid i bufFlags buf hreq => (hstep st hm sid i bufFlags buf hreq).1 (h.kept st hm sid i bufFlags buf hreq)
  · have hkept : ∀ st ∈ tr, ∀ sid i bufFlags buf, Requests st sid i bufFlags buf →
        Disciplined st.pre st.ev.1 sid i bufFlags buf := fun st hm sid i bufFlags buf hreq =>
      (hstep st hm sid i bufFlags buf hreq).2 (h st hm sid i bufFlags buf hreq)
    refine ⟨hkept, ?_⟩
    intro st hm st' hm' sid i j bufFlags bufFlags' buf buf' hreq hreq' hne
    exact (hkept st hm sid i bufFlags buf hreq).apart (hkept st' hm' sid j bufFlags' buf' hreq') hne

/-! ## Where the ring is left -/

def queueStart (reqNb : Nat) : State Unit :=
  ⟨none, Cap.null, none, none, 0, fun _ => sessionInit reqNb, fun _ => deviceInit, 0, true⟩

/-- The condition, as far as a state can check it. -/
def keepsToRing (e : Event Unit) (s : State Unit) : Bool :=
  match e.asks with
  | some (sid, _, _) => decide ((s.sessions sid).queue.avail.idx.toNat < (s.sessions sid).queue.num) &&
      ((s.sessions sid).reqs 0).used == 0
  | none => true

theorem queueScript_run (reqNb : Nat) (c : Event Unit → State Unit → Bool) (is : List (Event Unit × Reply))
    (p : State Unit → Bool) (h : (is.foldlM (checkedExec c) (queueStart reqNb)).any p = true) :
    ∃ tr s, QueueRun tr s ∧ (∀ st ∈ tr, c st.ev.1 st.pre = true) ∧ p s = true := by
  obtain ⟨s, hs, hp⟩ := (Option.any_eq_true _ _).1 h
  have h0 : QueueRun [] (queueStart reqNb) := .nil (fun _ => ⟨reqNb, rfl⟩)
  obtain ⟨tr, hr, -, hall⟩ := Transition.Run.of_foldlM (fun _ _ _ => checkedExec_step) h0 hs
  exact ⟨tr, s, by simpa using hr, hall, hp⟩

/-- Three requests, one after the other, of a session that `vblk_init` has set up. -/
theorem virtio_ring_three : ∃ (tr : List (Transition.Step (State Unit) (Event Unit × Reply))) (s : State Unit),
    QueueRun tr s ∧ RingKept tr ∧ (s.sessions ()).queue.avail.idx = 3 := by
  obtain ⟨tr, s, hr, hall, hp⟩ := queueScript_run 1 keepsToRing (served 1 ++ served 2 ++ served 3)
    (fun s => (s.sessions ()).queue.avail.idx == 3) (by decide +kernel)
  refine ⟨tr, s, hr, (virtio_ring hr).2.2.2 ?_, by simpa using hp⟩
  rintro st hm sid i bufFlags buf ⟨ha, hs⟩
  have hkeeps := hall st hm
  rw [keepsToRing, ha] at hkeeps
  simp only [Bool.and_eq_true, decide_eq_true_eq, beq_iff_eq] at hkeeps
  exact hkeeps

/-- **The fourth request of a session** is stored behind the ring; and **a second slot**, where there is one, publishes
descriptors of the first. -/
theorem virtio_ring_fails :
    (∃ (tr : List (Transition.Step (State Unit) (Event Unit × Reply))) (s : State Unit), QueueRun tr s ∧
      (s.sessions ()).reqNb = 1 ∧ (s.sessions ()).queue.num = 3 ∧ Submits s () 0 ∧
      .ring 3 0 ∈ (s.sessions ()).queue.stores 0 virtqDescFWrite 0 ∧
      ¬ Disciplined s (.read () (someToken 4) 0 7) () 0 virtqDescFWrite 0) ∧
    ∃ (tr : List (Transition.Step (State Unit) (Event Unit × Reply))) (s : State Unit), QueueRun tr s ∧
      (s.sessions ()).reqNb = 2 ∧ Submits s () 1 ∧ published s () 1 virtqDescFWrite 0 = [3, 1, 2] ∧
      ¬ Disciplined s (.read () (someToken 2) 0 9) () 1 virtqDescFWrite 0 := by
  constructor
  · obtain ⟨tr, s, hr, -, hp⟩ := queueScript_run 1 (fun _ _ => true) (served 1 ++ served 2 ++ served 3)
      (fun s => (s.sessions ()).reqNb == 1 && (s.sessions ()).queue.num == 3 && decide (Submits s () 0) &&
        decide (Store.ring 3 0 ∈ (s.sessions ()).queue.stores 0 virtqDescFWrite 0) &&
        (s.sessions ()).queue.avail.idx == 3) (by decide +kernel)
    simp only [Bool.and_eq_true, decide_eq_true_eq, beq_iff_eq] at hp
    obtain ⟨⟨⟨⟨hreq, hnum⟩, hs⟩, hring⟩, hidx⟩ := hp
    refine ⟨tr, s, hr, hreq, hnum, hs, hring, fun h => ?_⟩
    have hlt := ((QueueRun.disciplined_iff hr rfl hs).1 h).1
    rw [hidx, hnum] at hlt
    exact absurd hlt (by decide)
  · obtain ⟨tr, s, hr, -, hp⟩ := queueScript_run 2 (fun _ _ => true) [(.read () (someToken 1) 0 7, none)]
      (fun s => (s.sessions ()).reqNb == 2 && decide (Submits s () 1) &&
        published s () 1 virtqDescFWrite 0 == [3, 1, 2]) (by decide +kernel)
    simp only [Bool.and_eq_true, decide_eq_true_eq, beq_iff_eq] at hp
    obtain ⟨⟨hreq, hs⟩, hpub⟩ := hp
    refine ⟨tr, s, hr, hreq, hs, hpub, fun h => ?_⟩
    exact absurd (hs.zero_iff.2 ((QueueRun.disciplined_iff hr rfl hs).1 h).2) (by decide)

end Virtio
end CheriOS
