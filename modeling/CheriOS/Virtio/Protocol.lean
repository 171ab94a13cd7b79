import CheriOS.Virtio.Blk
import CheriOS.Lib.Completion
/-!
# Protocol — which requests the block driver answers

The driver answers as the ledger says while no request is made before the one before it has been answered, in whatever
session, every request succeeds, and the avail ring has room.  Then it is in one of three phases: idle, with one request
at its device, or with one completion to process.
-/
namespace CheriOS
namespace Virtio

open Completion (Ledger Answer)
open Outcome

variable {S : Type} [DecidableEq S] {s s' : State S} {x : Session} {d : Device} {sid : S} {token : Cap}
  {l l' : Ledger S Cap (BitVec 8)} {e : Event S}

/-! ## What is to be answered -/

def label : Event S → Completion.Event S Cap (BitVec 8)
  | .read sid token _ _ | .write sid token _ _ => .request sid token
  | .complete sid status => .complete sid status
  | .interrupt => .process

/-- **The right answer**: with the token of the request, and a value that is zero for a success only.  A `NULL` token
gets none. -/
def Agrees (r : Option (Answer S Cap (BitVec 8))) (reply : Reply) : Prop :=
  match r with
  | none => reply = none
  | some a => if a.token.isNull then reply = none
    else ∃ v0, reply = some (a.token, v0) ∧ (v0 = 0 ↔ a.result = virtioBlkSOk)

/-- **The events and their answers are a history of the ledger.** -/
def Follows (es : List (Event S × Reply)) (hs : List (Completion.Event S Cap (BitVec 8) × Option (Answer S Cap (BitVec 8))))
    (l : Ledger S Cap (BitVec 8)) : Prop :=
  List.Forall₂ (fun i h => h.1 = label i.1 ∧ Agrees h.2 i.2) es hs ∧ Ledger.History hs l

theorem Follows.labels {es : List (Event S × Reply)}
    {hs : List (Completion.Event S Cap (BitVec 8) × Option (Answer S Cap (BitVec 8)))} (h : Follows es hs l) :
    hs.map Prod.fst = es.map fun i => label i.1 := by
  obtain ⟨hf, -⟩ := h
  induction hf with
  | nil => rfl
  | cons hi _ ih => rw [List.map_cons, List.map_cons, hi.1, ih]

/-- A request is made when no slot of any session is in use and the avail ring of its session has room; a device
succeeds. -/
def Alone (e : Event S) (s : State S) : Prop :=
  match e with
  | .read sid .. | .write sid .. => (∀ y, ∀ i < (s.sessions y).reqNb, ((s.sessions y).reqs i).used = 0) ∧
      (s.sessions sid).queue.avail.idx.toNat ≤ (s.sessions sid).queue.num
  | .complete _ status => status = virtioBlkSOk
  | .interrupt => True

/-! ## Phases -/

/-- What does not change: one request, three descriptors, an avail ring of zeros. -/
structure Sound (x : Session) (d : Device) : Prop where
  reqNb : x.reqNb = 1
  num : x.queue.num = 3
  ring : ∀ k, x.queue.avail.ring k = 0
  status : d.status &&& statusDeviceNeedsReset = 0
  notified : d.notified = x.queue.avail.idx

/-- Nothing is asked of the session. -/
structure Rest (x : Session) (d : Device) : Prop extends Sound x d where
  free : ∀ i, (x.reqs i).used = 0
  idx : x.queue.used.idx = x.queue.lastUsedIdx
  interruptStatus : d.interruptStatus = 0
  seen : d.seen = d.notified

/-- The slot holds a request with this token. -/
structure Taken (token : Cap) (x : Session) (d : Device) : Prop extends Sound x d where
  used : (x.reqs 0).used = 1
  syncToken : (x.reqs 0).syncToken = token
  others : ∀ i, i ≠ 0 → (x.reqs i).used = 0

/-- The device has the request. -/
structure Waiting (token : Cap) (x : Session) (d : Device) : Prop extends Taken token x d where
  idx : x.queue.used.idx = x.queue.lastUsedIdx
  interruptStatus : d.interruptStatus = 0
  notifiedNext : d.notified = d.seen + 1
  desc : ∃ desc bufFlags buf, x.queue.desc = chain desc 0 bufFlags buf

/-- The device has completed the request. -/
structure Done (token : Cap) (x : Session) (d : Device) : Prop extends Taken token x d where
  elem : (x.queue.used.ring (x.queue.lastUsedIdx.toNat % 3)).id = 0 ∧
    0 < (x.queue.used.ring (x.queue.lastUsedIdx.toNat % 3)).len.toNat
  ok : (x.reqs 0).status = virtioBlkSOk
  idx : x.queue.used.idx = x.queue.lastUsedIdx + 1
  interruptStatus : d.interruptStatus = 1
  seen : d.seen = d.notified

/-- **The three phases of the driver**, each with its ledger. -/
inductive Phase (s : State S) : Ledger S Cap (BitVec 8) → Prop where
  | idle : (∀ y, Rest (s.sessions y) (s.devices y)) → s.raised = 0 → s.lineEnabled = true → Phase s Ledger.empty
  | waiting (sid : S) (token : Cap) : (∀ y, y ≠ sid → Rest (s.sessions y) (s.devices y)) →
      Waiting token (s.sessions sid) (s.devices sid) → s.expectedSession = some sid → s.expectedI = 0 → s.raised = 0 →
      s.lineEnabled = true → Phase s ⟨Function.update (fun _ => []) sid [token], []⟩
  | done (sid : S) (token : Cap) : (∀ y, y ≠ sid → Rest (s.sessions y) (s.devices y)) →
      Done token (s.sessions sid) (s.devices sid) → s.expectedSession = some sid → s.expectedI = 0 → s.raised = 1 →
      s.lineEnabled = true → Phase s ⟨fun _ => [], [⟨sid, token, virtioBlkSOk⟩]⟩

theorem Starts.idle (h : Starts s) : Phase s Ledger.empty := by
  refine .idle (fun y => ?_) h.quiet.1 h.quiet.2
  have hstatus : deviceInit.status &&& statusDeviceNeedsReset = 0 := by decide
  rw [h.sessions, h.devices]
  exact ⟨⟨rfl, rfl, fun _ => rfl, hstatus, rfl⟩, fun _ => rfl, rfl, rfl, rfl⟩

/-! ## A request -/

/-- The state after a request for `sid`: its session is `x` and its device `d`. -/
def submitted (s : State S) (sid : S) (x : Session) (d : Device) : State S :=
  { (s.setSession sid x).setDevice sid d with
    cookie := some sid, session := some sid, expectedSession := some sid, expectedI := 0, syncToken := Cap.null }

theorem vblkRw_rest (type : BitVec 32) (bufFlags : BitVec 16) (buf sector : BitVec 64) (hc : s.cookie = some sid)
    (hr : Rest (s.sessions sid) (s.devices sid))
    (hroom : (s.sessions sid).queue.avail.idx.toNat ≤ (s.sessions sid).queue.num) :
    ∃ x d, Waiting s.syncToken x d ∧ vblkRw type bufFlags buf sector s = .ok (0, submitted s sid x d) := by
  have hfree : freeReq (s.sessions sid).reqs (s.sessions sid).reqNb 0 = 0 := by
    rw [hr.reqNb]
    simp [freeReq, hr.free]
  have hlt : 0 < (s.sessions sid).reqNb := by simp [hr.reqNb]
  have hzero : ∀ k, Function.update (s.sessions sid).queue.avail.ring (s.sessions sid).queue.avail.idx.toNat
      (BitVec.ofNat 16 (3 * 0)) k = 0 := fun k => by
    rw [Function.update_apply]
    split
    · rfl
    · exact hr.ring k
  unfold vblkRw
  simp only [hc, deref, ok_bind, assert, hr.status, beq_self_eq_true, if_true, hfree, hlt, decide_true, pushAvail, hroom]
  refine ⟨_, _, ?_, rfl⟩
  have hsound : (s.devices sid).seen = (s.sessions sid).queue.avail.idx := hr.seen.trans hr.notified
  refine ⟨⟨⟨hr.reqNb, hr.num, hzero, hr.status, rfl⟩, by simp, by simp, fun i hi => ?_⟩, hr.idx, hr.interruptStatus, ?_,
    _, _, _, rfl⟩
  · simp [hi, hr.free]
  · simp [hsound]

theorem Phase.request (hp : Phase s l) (type : BitVec 32) (bufFlags : BitVec 16) (buf sector : BitVec 64)
    (hfree : ∀ y, ∀ i < (s.sessions y).reqNb, ((s.sessions y).reqs i).used = 0)
    (hroom : (s.sessions sid).queue.avail.idx.toNat ≤ (s.sessions sid).queue.num) (token : Cap) :
    ∃ s' l', msgEntry (some sid) token (vblkRw type bufFlags buf sector) s = .ok (none, s') ∧
      l.next (.request sid token) = some (none, l') ∧ Phase s' l' := by
  have htaken : ∀ {y : S} {t : Cap}, ¬ Taken t (s.sessions y) (s.devices y) := fun {y t} ht => by
    have hused := hfree y 0 (by simp [ht.reqNb])
    rw [ht.used] at hused
    exact absurd hused (by decide)
  cases hp with
  | waiting y t _ hw _ _ _ _ => exact absurd hw.toTaken htaken
  | done y t _ hd _ _ _ _ => exact absurd hd.toTaken htaken
  | idle hrest hraised hline =>
    obtain ⟨x, d, hw, hrun⟩ := vblkRw_rest (s := { s with cookie := some sid, syncToken := token }) type bufFlags buf
      sector rfl (hrest sid) hroom
    refine ⟨submitted { s with cookie := some sid, syncToken := token } sid x d, _, ?_, rfl, ?_⟩
    · unfold msgEntry
      rw [hrun]
      rfl
    · refine .waiting sid token (fun y hy => ?_) ?_ rfl rfl hraised hline
      · simpa [submitted, State.setSession, State.setDevice, hy] using hrest y
      · simpa [submitted, State.setSession, State.setDevice] using hw

/-! ## A completion -/

/-- The chain of request 0: the last descriptor is writable, so that a device never reports an empty write. -/
theorem chain_spec (desc : Nat → Desc) (bufFlags : BitVec 16) (buf : BitVec 64) :
    (chain desc 0 bufFlags buf 0).next = 1 ∧ (chain desc 0 bufFlags buf 1).next = 2 ∧
      (chain desc 0 bufFlags buf 2).addr = .inhdr 0 ∧
      0 < (written [chain desc 0 bufFlags buf 0, chain desc 0 bufFlags buf 1, chain desc 0 bufFlags buf 2]).toNat := by
  have h0 : chain desc 0 bufFlags buf 0 = ⟨.outhdr 0, 16, virtqDescFNext, 1⟩ := by simp [chain]
  have h1 : chain desc 0 bufFlags buf 1 = ⟨.buf (buf.setWidth 32), 512, bufFlags ||| virtqDescFNext, 2⟩ := by simp [chain]
  have h2 : chain desc 0 bufFlags buf 2 = ⟨.inhdr 0, 1, virtqDescFWrite, 0⟩ := by simp [chain]
  rw [h0, h1, h2]
  refine ⟨rfl, rfl, rfl, ?_⟩
  have hboth : 0 < ((512 : BitVec 32) + (1 + 0)).toNat := by decide
  have hlast : 0 < ((1 : BitVec 32) + 0).toNat := by decide
  simp only [written, List.filter_cons, List.filter_nil]
  cases hbuf : decide ((bufFlags ||| virtqDescFNext) &&& virtqDescFWrite ≠ 0) with
  | true => exact hboth
  | false => exact hlast

theorem complete_done (hw : Waiting token (s.sessions sid) (s.devices sid)) : ∃ x d, Done token x d ∧
    complete sid virtioBlkSOk s = { (s.setSession sid x).setDevice sid d with raised := s.raised + 1 } := by
  obtain ⟨desc, bufFlags, buf, hdesc⟩ := hw.desc
  obtain ⟨hfirst, hsecond, hthird, hlen⟩ := chain_spec desc bufFlags buf
  have hhead : ∀ k, ((s.sessions sid).queue.avail.ring k).toNat = 0 := fun k => by rw [hw.ring]; rfl
  have hone : (1 : BitVec 16).toNat = 1 := rfl
  have htwo : (2 : BitVec 16).toNat = 2 := rfl
  have hstep : (s.devices sid).seen + 1 = (s.devices sid).notified := hw.notifiedNext.symm
  have hintr : (s.devices sid).interruptStatus ||| 1 = 1 := by rw [hw.interruptStatus]; decide
  unfold complete
  simp only [hhead, hdesc, hfirst, hone, hsecond, htwo, hthird]
  refine ⟨_, _, ?_, rfl⟩
  refine ⟨⟨⟨hw.reqNb, hw.num, hw.ring, hw.status, hw.notified⟩, ?_, ?_, fun i hi => ?_⟩, ⟨?_, ?_⟩, ?_, ?_, hintr, hstep⟩
  · simp [hw.used]
  · simp [hw.syncToken]
  · simp [hi, hw.others]
  · simp [hw.idx, hw.num, hw.ring]
  · simpa [hw.idx, hw.num] using hlen
  · simp
  · simp [hw.idx]

theorem Phase.complete (hp : Phase s l) (he : Enabled (.complete sid virtioBlkSOk) s) :
    ∃ l', l.next (.complete sid virtioBlkSOk) = some (none, l') ∧ Phase (complete sid virtioBlkSOk s) l' := by
  have hrest : ¬ Rest (s.sessions sid) (s.devices sid) := fun hr => he hr.seen
  cases hp with
  | idle hr _ _ => exact absurd (hr sid) hrest
  | waiting y token hr hw hses hi hraised hline =>
    obtain rfl : sid = y := by
      by_contra hne
      exact hrest (hr sid hne)
    obtain ⟨x, d, hd, hrun⟩ := complete_done hw
    refine ⟨⟨fun _ => [], [⟨sid, token, virtioBlkSOk⟩]⟩, ?_, ?_⟩
    · have hback : Function.update (Function.update (fun _ : S => ([] : List Cap)) sid [token]) sid [] = fun _ => [] := by
        rw [Function.update_idem]
        exact Function.update_eq_self sid _
      simp [Ledger.next, hback]
    · rw [hrun]
      refine .done sid token (fun z hz => ?_) ?_ hses hi (by rw [hraised]) hline
      · simpa [State.setSession, State.setDevice, hz] using hr z hz
      · simpa [State.setSession, State.setDevice] using hd
  | done y token hr hd _ _ _ _ =>
    by_cases hy : sid = y
    · subst hy
      exact absurd hd.seen he
    · exact absurd (hr sid hy) hrest

/-! ## An interrupt -/

theorem vblkRwRet_done (hc : s.cookie = some sid) (hd : Done token (s.sessions sid) (s.devices sid)) :
    ∃ x d, Rest x d ∧ (x.reqs 0).syncToken = token ∧
      vblkRwRet 0 s = .ok (0, { (s.setSession sid x).setDevice sid d with session := some sid }) := by
  have hack : (1 : BitVec 32) &&& ~~~1 = 0 := by decide
  have hid : ((0 : BitVec 32).toNat == 0) = true := rfl
  unfold vblkRwRet
  simp only [hc, deref, ok_bind, assert, hd.num, hd.elem.1, hd.elem.2, hd.ok, hd.interruptStatus, hack, hid,
    beq_self_eq_true, decide_true, if_true, State.setSession]
  refine ⟨_, _, ?_, ?_, rfl⟩
  · refine ⟨⟨hd.reqNb, rfl, hd.ring, hd.status, hd.notified⟩, fun i => ?_, hd.idx, rfl, hd.seen⟩
    by_cases hi : i = 0
    · simp [hi]
    · simp [hi, hd.others]
  · simp [hd.syncToken]

theorem Phase.interrupt (hp : Phase s l) (he : Enabled .interrupt s) :
    ∃ reply s' r l', exec .interrupt s = .ok (reply, s') ∧ l.next .process = some (r, l') ∧
      Agrees r reply ∧ Phase s' l' := by
  obtain ⟨hraised, hline⟩ := he
  cases hp with
  | idle _ h0 _ => exact absurd h0 (Nat.ne_of_gt hraised)
  | waiting _ _ _ _ _ _ h0 _ => exact absurd h0 (Nat.ne_of_gt hraised)
  | done sid token hr hd hses hi h1 _ =>
    obtain ⟨x, d, hx, htok, hrun⟩ := vblkRwRet_done
      (s := { s with cookie := some sid, syncToken := Cap.null, raised := s.raised - 1, lineEnabled := false }) rfl hd
    simp only [hses, hi, State.setSession, State.setDevice] at hrun
    unfold exec msgEntry vblkInterrupt
    simp only [hses, hi, hrun, ok_bind, deref]
    refine ⟨_, _, some ⟨sid, token, virtioBlkSOk⟩, _, rfl, rfl, ?_, ?_⟩
    · simp [Agrees, interruptEnable, htok]
    · refine .idle (fun y => ?_) (by simp [interruptEnable, h1]) rfl
      by_cases hy : y = sid
      · subst hy
        simpa [interruptEnable, State.setSession, State.setDevice] using hx
      · simpa [interruptEnable, State.setSession, State.setDevice, hy] using hr y hy

/-! ## Runs -/

/-- **One step**: an event that may happen, and meets the condition, has the answer of the ledger. -/
theorem Phase.step (hp : Phase s l) (he : Enabled e s) (ha : Alone e s) :
    ∃ reply s' r l', exec e s = .ok (reply, s') ∧ l.next (label e) = some (r, l') ∧ Agrees r reply ∧ Phase s' l' := by
  cases e with
  | read sid token buf sector =>
    obtain ⟨s', l', hx, hn, hp'⟩ := hp.request virtioBlkTIn virtqDescFWrite buf sector ha.1 ha.2 token
    exact ⟨none, s', none, l', hx, hn, rfl, hp'⟩
  | write sid token buf sector =>
    obtain ⟨s', l', hx, hn, hp'⟩ := hp.request virtioBlkTOut 0 buf sector ha.1 ha.2 token
    exact ⟨none, s', none, l', hx, hn, rfl, hp'⟩
  | complete sid status =>
    obtain rfl : status = virtioBlkSOk := ha
    obtain ⟨l', hn, hp'⟩ := hp.complete he
    exact ⟨none, _, none, l', rfl, hn, rfl, hp'⟩
  | interrupt => exact hp.interrupt he

theorem Phase.slots (hp : Phase s l) (y : S) : (∀ i, ((s.sessions y).reqs i).used = 0) ↔ l.owed y = [] := by
  have htaken : ∀ {t : Cap}, Taken t (s.sessions y) (s.devices y) → ¬ ∀ i, ((s.sessions y).reqs i).used = 0 :=
    fun {t} ht hall => absurd (ht.used.symm.trans (hall 0)) (by decide)
  cases hp with
  | idle hr _ _ => exact iff_of_true (hr y).free rfl
  | waiting sid token hr hw _ _ _ _ =>
    by_cases hy : y = sid
    · subst hy
      exact iff_of_false (htaken hw.toTaken) (by simp [Ledger.owed])
    · exact iff_of_true (hr y hy).free (by simp [Ledger.owed, hy])
  | done sid token hr hd _ _ _ _ =>
    by_cases hy : y = sid
    · subst hy
      exact iff_of_false (htaken hd.toTaken) (by simp [Ledger.owed])
    · exact iff_of_true (hr y hy).free (by simp [Ledger.owed, Ne.symm hy])

variable {tr : List (Transition.Step (State S) (Event S × Reply))}

theorem BlkRun.phase (hr : BlkRun tr s) (hC : ∀ st ∈ tr, Alone st.ev.1 st.pre) :
    ∃ hs l, Follows (tr.map (·.ev)) hs l ∧ Phase s l := by
  induction hr with
  | nil h0 => exact ⟨[], _, ⟨.nil, .nil⟩, h0.idle⟩
  | @cons tr s s' i hr hst ih =>
    obtain ⟨hs, l, ⟨hf, hh⟩, hp⟩ := ih fun st hm => hC st (List.mem_cons_of_mem _ hm)
    obtain ⟨reply, k, r, l', hx, hn, hagr, hp'⟩ := hp.step hst.1 (hC _ List.mem_cons_self)
    obtain ⟨rfl, rfl⟩ := Prod.mk.inj (Except.ok.inj (hst.2.symm.trans hx))
    exact ⟨(label i.1, r) :: hs, l', ⟨.cons ⟨rfl, hagr⟩ hf, .cons hh hn⟩, hp'⟩

/-- **Requests are answered**, along every run whose events meet the condition: the answers are those of the ledger; what
has been asked of a session is what it has been answered, in order, and what it is owed; a slot is in use where an answer
is owed; and no event that meets the condition fails an assertion, or stops the driver in another way. -/
theorem requests_answered (hr : BlkRun tr s) (hC : ∀ st ∈ tr, Alone st.ev.1 st.pre) :
    ∃ hs l, Follows (tr.map (·.ev)) hs l ∧
      (∀ y, Ledger.requests y hs = Ledger.answers y hs ++ l.owed y) ∧
      (∀ y, (∀ i, ((s.sessions y).reqs i).used = 0) ↔ l.owed y = []) ∧
      ∀ e, Enabled e s → Alone e s → ∃ reply s', exec e s = .ok (reply, s') := by
  obtain ⟨hs, l, hf, hp⟩ := BlkRun.phase hr hC
  refine ⟨hs, l, hf, hf.2.conserved, hp.slots, fun e he ha => ?_⟩
  obtain ⟨reply, s', -, -, hx, -⟩ := hp.step he ha
  exact ⟨reply, s', hx⟩

/-! ## Runs that compute -/

instance (e : Event S) (s : State S) : Decidable (Enabled e s) :=
  match e with
  | .read .. | .write .. => inferInstanceAs (Decidable True)
  | .complete .. => inferInstanceAs (Decidable (_ ≠ _))
  | .interrupt => inferInstanceAs (Decidable (_ ∧ _))

instance [Fintype S] (e : Event S) (s : State S) : Decidable (Alone e s) :=
  match e with
  | .read .. | .write .. => inferInstanceAs (Decidable ((∀ y, ∀ i < (s.sessions y).reqNb, _ = _) ∧ _ ≤ _))
  | .complete .. => inferInstanceAs (Decidable (_ = _))
  | .interrupt => inferInstanceAs (Decidable True)

def blkStart : State S := ⟨none, Cap.null, none, none, 0, fun _ => vblkInit, fun _ => deviceInit, 0, true⟩

def checkedExec (c : Event S → State S → Bool) (s : State S) (i : Event S × Reply) : Option (State S) :=
  if decide (Enabled i.1 s) && c i.1 s then
    match exec i.1 s with
    | .ok (reply, s') => if reply = i.2 then some s' else none
    | .error _ => none
  else none

theorem checkedExec_step {c : Event S → State S → Bool} {i : Event S × Reply} (h : checkedExec c s i = some s') :
    blkStep s i s' ∧ c i.1 s = true := by
  unfold checkedExec at h
  split at h
  case isFalse => cases h
  rename_i hc
  rw [Bool.and_eq_true, decide_eq_true_eq] at hc
  split at h
  · rename_i reply k hx
    split at h
    · rename_i hr
      exact ⟨⟨hc.1, by rw [hx, hr, Option.some.inj h]⟩, hc.2⟩
    · cases h
  · cases h

theorem blkScript_run (c : Event S → State S → Bool) (is : List (Event S × Reply)) (p : State S → Bool)
    (h : (is.foldlM (checkedExec c) blkStart).any p = true) :
    ∃ tr s, BlkRun tr s ∧ tr.map (·.ev) = is.reverse ∧ (∀ st ∈ tr, c st.ev.1 st.pre = true) ∧ p s = true := by
  obtain ⟨s, hs, hp⟩ := (Option.any_eq_true _ _).1 h
  have h0 : Starts (blkStart (S := S)) := ⟨rfl, rfl, ⟨rfl, rfl⟩, ⟨rfl, rfl⟩⟩
  obtain ⟨tr, hr, hev, hall⟩ := Transition.Run.of_foldlM (fun _ _ _ => checkedExec_step) (.nil h0) hs
  exact ⟨tr, s, by simpa using hr, hev, hall, hp⟩

def someToken (u : BitVec 64) : Cap := ⟨true, true, 42000, 0, 0, 0, u⟩

/-- A request of one session and then one of another, each with its completion and its answer. -/
theorem requests_answered_two : ∃ (s : State Bool) (hs : _) (l : _),
    Follows [(.interrupt, some (someToken 2, 0)), (.complete true 0, none), (.write true (someToken 2) 0 9, none),
      (.interrupt, some (someToken 1, 0)), (.complete false 0, none), (.read false (someToken 1) 0 7, none)] hs l ∧
      (∀ y, Ledger.requests y hs = Ledger.answers y hs ++ l.owed y) ∧
      ∀ y, (∀ i, ((s.sessions y).reqs i).used = 0) ↔ l.owed y = [] := by
  obtain ⟨tr, s, hr, hev, hall, -⟩ := blkScript_run (S := Bool) (fun e s => decide (Alone e s))
    [(.read false (someToken 1) 0 7, none), (.complete false 0, none), (.interrupt, some (someToken 1, 0)),
      (.write true (someToken 2) 0 9, none), (.complete true 0, none), (.interrupt, some (someToken 2, 0))]
    (fun _ => true) (by decide +kernel)
  obtain ⟨hs, l, hf, hreq, hslots, -⟩ := requests_answered hr fun st hm => of_decide_eq_true (hall st hm)
  rw [hev] at hf
  exact ⟨s, hs, l, hf, hreq, hslots⟩

/-! ## Where the driver fails -/

/-- **Two sessions**: the completion of the first request is processed with the globals of the second, and answers its
caller.  -/
theorem requests_mixed : ∃ (tr : List (Transition.Step (State Bool) (Event Bool × Reply))) (s : State Bool), BlkRun tr s ∧
    ¬ ∃ hs l, Follows (tr.map (·.ev)) hs l := by
  obtain ⟨tr, s, hr, hev, -, -⟩ := blkScript_run (S := Bool) (fun _ _ => true)
    [(.read false (someToken 1) 0 7, none), (.read true (someToken 2) 0 9, none), (.complete false 0, none),
      (.complete true 0, none), (.interrupt, some (someToken 2, 0))] (fun _ => true) (by decide +kernel)
  refine ⟨tr, s, hr, ?_⟩
  rintro ⟨hs, l, hf⟩
  have hevents : tr.map (·.ev) = [(.interrupt, some (someToken 2, 0)), (.complete true 0, none), (.complete false 0, none),
      (.read true (someToken 2) 0 9, none), (.read false (someToken 1) 0 7, none)] := hev
  rw [hevents] at hf
  have hright : ∃ l' : Ledger Bool Cap (BitVec 8), Ledger.History
      [(.process, some ⟨false, someToken 1, 0⟩), (.complete true 0, none),
      (.complete false 0, none), (.request true (someToken 2), none), (.request false (someToken 1), none)] l' :=
    ⟨_, .cons (.cons (.cons (.cons (.cons .nil rfl) rfl) rfl) rfl) rfl⟩
  obtain ⟨l', hright⟩ := hright
  obtain ⟨rfl, -⟩ := hf.2.unique hright hf.labels
  cases hf.1 with
  | cons ha _ =>
    have htok : someToken 2 ≠ someToken 1 := by decide
    obtain ⟨v0, hv0, -⟩ := ha.2
    exact htok (congrArg Prod.fst (Option.some.inj hv0))

def stops (e : Event S) (stop : Stop) (s : State S) : Bool :=
  decide (Enabled e s) && match exec e s with
    | .ok _ => false
    | .error st => st == stop

theorem stops_iff {stop : Stop} : stops e stop s = true ↔ Enabled e s ∧ exec e s = .error stop := by
  unfold stops
  cases exec e s with
  | ok p => simp
  | error st => simp

theorem blkScript_stops (is : List (Event Unit × Reply)) {e : Event Unit} {stop : Stop}
    (h : (is.foldlM (checkedExec fun _ _ => true) blkStart).any (stops e stop) = true) :
    ∃ (tr : List (Transition.Step (State Unit) (Event Unit × Reply))) (s : State Unit),
      BlkRun tr s ∧ Enabled e s ∧ exec e s = .error stop := by
  obtain ⟨tr, s, hr, -, -, hp⟩ := blkScript_run _ _ _ h
  exact ⟨tr, s, hr, stops_iff.1 hp⟩

def served (u : BitVec 64) : List (Event Unit × Reply) :=
  [(.read () (someToken u) 0 7, none), (.complete () 0, none), (.interrupt, some (someToken u, 0))]

/-- **A wrong answer, and what stops the driver**: a request that fails, a second request of one session, and the fifth
request of a session. -/
theorem driver_fails :
    (∃ (tr : List (Transition.Step (State Bool) (Event Bool × Reply))) (s : State Bool), BlkRun tr s ∧
      ¬ ∃ hs l, Follows (tr.map (·.ev)) hs l) ∧
    (∃ (tr : List (Transition.Step (State Unit) (Event Unit × Reply))) (s : State Unit), BlkRun tr s ∧
      Enabled .interrupt s ∧ exec .interrupt s = .error (.assertion .status)) ∧
    (∃ (tr : List (Transition.Step (State Unit) (Event Unit × Reply))) (s : State Unit), BlkRun tr s ∧
      Enabled (.read () (someToken 2) 0 9) s ∧ exec (.read () (someToken 2) 0 9) s = .error (.assertion .freeReq)) ∧
    ∃ (tr : List (Transition.Step (State Unit) (Event Unit × Reply))) (s : State Unit), BlkRun tr s ∧
      Enabled (.read () (someToken 5) 0 7) s ∧ exec (.read () (someToken 5) 0 7) s = .error .outOfBounds :=
  ⟨requests_mixed,
    blkScript_stops [(.read () (someToken 1) 0 7, none), (.complete () 1, none)] (by decide +kernel),
    blkScript_stops [(.read () (someToken 1) 0 7, none)] (by decide +kernel),
    blkScript_stops (served 1 ++ served 2 ++ served 3 ++ served 4) (by decide +kernel)⟩

end Virtio
end CheriOS
