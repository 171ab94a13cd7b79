import CheriOS.Kernel.Action
/-!
# Base — what holds of every kernel state between two updates

`Routine` lists the updates an entry strings together once it has done what its cause asks for.  `Base` is the part of
the kernel's well-formedness that no build option and no order of entries breaks; every update keeps it.
-/
namespace CheriOS
namespace Kernel

/-! ## Queues and rings -/

theorem safe_mask (n : Nat) : safe n (maxMsg - 1) = n % maxMsg := Nat.and_two_pow_sub_one_eq_mod n 4

namespace State

variable {s : State} {act x dest : Aid} {m : Msg}

theorem pending_congr {s' : State} (h : s'.msgQueues x = s.msgQueues x) : s'.pending x = s.pending x := by
  simp only [pending, h]

theorem store_ring (hm : (s.kernelActs dest).queueMask = maxMsg - 1) :
    ((s.store dest m).msgQueues dest).ring = (s.msgQueues dest).ring.push maxMsg m := by
  simp [store, hm, Queue.ring, RingBuffer.push]
  exact safe_mask _

theorem dispatch_ring (hm : (s.kernelActs act).queueMask = maxMsg - 1) :
    ((s.dispatch act).msgQueues act).ring = (s.msgQueues act).ring.pop maxMsg := by
  simp [dispatch_msgQueues, hm, Queue.ring, RingBuffer.pop]
  exact safe_mask _

theorem accept_msgQueues_ne (hx : x ≠ dest) : (s.accept dest m).msgQueues x = s.msgQueues x := by
  rw [accept_msgQueues]
  simp [store, hx]

theorem dispatch_msgQueues_ne (hx : x ≠ act) : (s.dispatch act).msgQueues x = s.msgQueues x := by
  rw [dispatch_msgQueues, if_neg hx]

theorem room_iff (hw : RingBuffer.Wf maxMsg (s.msgQueues dest).ring) :
    safe ((s.msgQueues dest).end_ + 1) (maxMsg - 1) ≠ (s.msgQueues dest).start ↔
      (s.pending dest).length < maxMsg - 1 := by
  have hle : (s.pending dest).length ≤ maxMsg - 1 := RingBuffer.contents_length_le hw
  have hfull : ((s.msgQueues dest).end_ + 1) % maxMsg = (s.msgQueues dest).start ↔
      (s.pending dest).length = maxMsg - 1 := RingBuffer.full_iff hw
  rw [safe_mask, ne_eq, hfull]
  omega

/-- **An accepted message is the last of its queue**, and the other queues are as they were. -/
theorem accept_pending (hm : (s.kernelActs dest).queueMask = maxMsg - 1)
    (hw : RingBuffer.Wf maxMsg (s.msgQueues dest).ring) (hr : (s.pending dest).length < maxMsg - 1) :
    (s.accept dest m).pending x = if x = dest then s.pending dest ++ [m] else s.pending x := by
  split
  · rename_i hx
    subst hx
    have hne : ((s.msgQueues x).end_ + 1) % maxMsg ≠ (s.msgQueues x).start := by
      have := (room_iff hw).2 hr
      rwa [safe_mask] at this
    unfold pending
    rw [accept_msgQueues, store_ring hm]
    exact RingBuffer.contents_push hw hne
  · rename_i hx
    exact pending_congr (accept_msgQueues_ne hx)

/-- **A dispatched activation loads the oldest of its messages**, and the other queues are as they were. -/
theorem dispatch_pending (hm : (s.kernelActs act).queueMask = maxMsg - 1)
    (hw : RingBuffer.Wf maxMsg (s.msgQueues act).ring) (hne : s.pending act ≠ []) :
    s.pending act = (s.msgQueues act).msg (s.msgQueues act).start :: (s.dispatch act).pending act := by
  have hstart : (s.msgQueues act).start ≠ (s.msgQueues act).end_ :=
    fun he => hne ((RingBuffer.contents_eq_nil_iff hw).2 he)
  have hpop := RingBuffer.contents_pop hw hstart
  unfold pending
  rw [dispatch_ring hm]
  exact hpop

theorem dispatch_pending_ne (hx : x ≠ act) : (s.dispatch act).pending x = s.pending x :=
  pending_congr (dispatch_msgQueues_ne hx)

theorem register_pending {name : Nat → BitVec 8} {frame : RegFrame} {ref id : Cap} :
    (s.register act name frame ref id).pending x = if x = act then [] else s.pending x := by
  split
  · rename_i hx
    subst hx
    simp [pending, Queue.ring, RingBuffer.contents, RingBuffer.count]
  · rename_i hx
    exact pending_congr (by simp [hx])

end State

/-! ## The updates of an entry -/

/-- **A step the scheduler and the queues do not see**: saved frames of the activation `c` that trapped and of the
kernel's own, and the interrupt lines. -/
def Quiet (c : Aid) (s m : State) : Prop :=
  ∃ framep child im timer, m = { s with
      kernelExceptionFramep := framep, intChild := child, statusIm := im, kernelLastTimer := timer } ∧
    (∀ x, x ≠ c → x ≠ 0 → framep x = s.kernelExceptionFramep x) ∧ ∀ i, child i = s.intChild i ∨ child i = c

/-- **The updates that follow one another in an entry** made by the activation `c`, each with what the code has checked
before it. -/
inductive Routine (b : Build) (e : Entry) (c : Aid) : State → State → Prop where
  | quiet {s m : State} : Quiet c s m → Routine b e c s m
  | accept {s : State} (dest src : Aid) (identifier token : Cap) : s.Registered dest →
      (s.pending dest).length < maxMsg - 1 → (s.schedStatus dest = .waiting → s.sched.squeueAEnd < maxActivations) →
      (s.status dest = .alive ∧ src = c ∧ e.cause = .ccall) ∨ (src = 0 ∧ ∃ p n, e.cause = .interrupt p n) →
      Routine b e c s (s.accept dest (mkMsg (s.kernelExceptionFramep src) identifier token))
  | block {s : State} : s.schedStatus c = .runnable → s.pending c = [] → (b.lite = false → s.SlotTest c) →
      0 < s.sched.squeueAEnd → Routine b e c s (s.deactivate c .waiting)
  | yield {s : State} : s.schedStatus c = .runnable → s.pending c ≠ [] →
      Routine b e c s (s.setSchedStatus c .schedulable)
  | pick {s : State} : Routine b e c s s.picked
  | dispatch {s : State} (act : Aid) : s.schedStatus act = .schedulable → Routine b e c s (s.dispatch act)
  | switchTo {s : State} (act : Aid) : s.schedStatus act = .runnable → Routine b e c s (s.switchTo act)

/-! ## The invariant -/

/-- **The well-formedness that every update keeps.** -/
structure Base (s : State) : Prop where
  ptr_eq : s.kernelExceptionFramepPtr = s.kernelCurrAct
  curr_ne : s.kernelCurrAct ≠ 0
  curr_reg : s.Registered s.kernelCurrAct
  next_le : s.kernelNextAct ≤ maxActivations
  aid_eq : ∀ a, s.Registered a → (s.kernelActs a).aid = a
  mask_eq : ∀ a, s.Registered a → (s.kernelActs a).queueMask = maxMsg - 1
  fresh : ∀ a, ¬ s.Registered a → s.kernelActs a = Act.zero
  ring_wf : ∀ a, RingBuffer.Wf maxMsg (s.msgQueues a).ring
  child_reg : ∀ i, s.Registered (s.intChild i)
  waiting_pending : ∀ a, s.schedStatus a = .waiting → s.pending a = []
  schedulable_pending : ∀ a, s.schedStatus a = .schedulable → s.pending a ≠ []
  zero_terminated : s.schedStatus 0 = .terminated
  zero_status : s.status 0 = .terminated
  token_caller : ∀ C u, .token C u ∈ s.hist → C ≠ 0 ∧ s.Registered C

namespace Base

variable {b : Build} {e : Entry} {c act dest : Aid} {s m : State} {msg : Msg}

theorem empty_iff (h : Base s) : empty (s.msgQueues act) = true ↔ s.pending act = [] := by
  have := RingBuffer.contents_eq_nil_iff (h.ring_wf act)
  simp only [empty, beq_iff_eq]
  exact this.symm

theorem registered (h : Base s) (hs : s.schedStatus act ≠ .waiting) : s.Registered act := by
  by_contra hr
  exact hs (by rw [State.schedStatus, h.fresh _ hr]; rfl)

theorem zero_reg (h : Base s) : s.Registered 0 := h.registered (by rw [h.zero_terminated]; decide)

theorem ne_zero (h : Base s) (hs : s.schedStatus act ≠ .terminated) : act ≠ 0 := by
  rintro rfl
  exact hs h.zero_terminated

/-! ### Every update keeps it -/

/-- **What `m` did to `s` stays within the record and the queue of `act`**: the same activations are registered, the
same one runs, and the record of `act` keeps its name and the mask of its queue. -/
structure Within (act : Aid) (s m : State) : Prop where
  ptr_eq : m.kernelExceptionFramepPtr = s.kernelExceptionFramepPtr
  curr_eq : m.kernelCurrAct = s.kernelCurrAct
  next_eq : m.kernelNextAct = s.kernelNextAct
  child_eq : m.intChild = s.intChild
  acts_ne : ∀ a, a ≠ act → m.kernelActs a = s.kernelActs a
  aid_eq : (m.kernelActs act).aid = (s.kernelActs act).aid
  mask_eq : (m.kernelActs act).queueMask = (s.kernelActs act).queueMask
  queues_ne : ∀ a, a ≠ act → m.msgQueues a = s.msgQueues a

namespace Within

theorem registered_iff {a : Aid} (hw : Within act s m) : m.Registered a ↔ s.Registered a := by
  rw [State.Registered, State.Registered, hw.next_eq]

theorem schedStatus_ne {a : Aid} (hw : Within act s m) (ha : a ≠ act) : m.schedStatus a = s.schedStatus a :=
  congrArg Act.schedStatus (hw.acts_ne a ha)

theorem status_ne {a : Aid} (hw : Within act s m) (ha : a ≠ act) : m.status a = s.status a :=
  congrArg Act.status (hw.acts_ne a ha)

theorem pending_ne {a : Aid} (hw : Within act s m) (ha : a ≠ act) : m.pending a = s.pending a :=
  State.pending_congr (hw.queues_ne a ha)

end Within

/-- Of an update within `act`, the invariant is left to check at `act`. -/
theorem within (h : Base s) (hw : Within act s m) (hr : s.Registered act)
    (hring : RingBuffer.Wf maxMsg (m.msgQueues act).ring)
    (hwait : m.schedStatus act = .waiting → m.pending act = [])
    (hsched : m.schedStatus act = .schedulable → m.pending act ≠ [])
    (hzero : act = 0 → m.schedStatus 0 = .terminated ∧ m.status 0 = .terminated)
    (htok : ∀ C u, .token C u ∈ m.hist → C ≠ 0 ∧ s.Registered C) : Base m := by
  constructor
  case ptr_eq => rw [hw.ptr_eq, hw.curr_eq]; exact h.ptr_eq
  case curr_ne => rw [hw.curr_eq]; exact h.curr_ne
  case curr_reg => rw [hw.curr_eq]; exact hw.registered_iff.2 h.curr_reg
  case next_le => rw [hw.next_eq]; exact h.next_le
  case aid_eq =>
    intro a ha
    have hold := h.aid_eq a (hw.registered_iff.1 ha)
    by_cases hae : a = act
    · subst hae; rw [hw.aid_eq]; exact hold
    · rw [hw.acts_ne a hae]; exact hold
  case mask_eq =>
    intro a ha
    have hold := h.mask_eq a (hw.registered_iff.1 ha)
    by_cases hae : a = act
    · subst hae; rw [hw.mask_eq]; exact hold
    · rw [hw.acts_ne a hae]; exact hold
  case fresh =>
    intro a ha
    have hold : ¬ s.Registered a := fun hx => ha (hw.registered_iff.2 hx)
    rw [hw.acts_ne a (fun hae => hold (hae ▸ hr))]
    exact h.fresh a hold
  case ring_wf =>
    intro a
    by_cases hae : a = act
    · subst hae; exact hring
    · rw [hw.queues_ne a hae]; exact h.ring_wf a
  case child_reg => intro i; rw [hw.child_eq]; exact hw.registered_iff.2 (h.child_reg i)
  case waiting_pending =>
    intro a ha
    by_cases hae : a = act
    · subst hae; exact hwait ha
    · rw [hw.schedStatus_ne hae] at ha
      rw [hw.pending_ne hae]
      exact h.waiting_pending a ha
  case schedulable_pending =>
    intro a ha
    by_cases hae : a = act
    · subst hae; exact hsched ha
    · rw [hw.schedStatus_ne hae] at ha
      rw [hw.pending_ne hae]
      exact h.schedulable_pending a ha
  case zero_terminated =>
    by_cases h0 : act = 0
    · exact (hzero h0).1
    · rw [hw.schedStatus_ne (Ne.symm h0)]; exact h.zero_terminated
  case zero_status =>
    by_cases h0 : act = 0
    · exact (hzero h0).2
    · rw [hw.status_ne (Ne.symm h0)]; exact h.zero_status
  case token_caller =>
    intro C u hC
    obtain ⟨hC0, hCr⟩ := htok C u hC
    exact ⟨hC0, hw.registered_iff.2 hCr⟩

theorem quiet (h : Base s) (hc : s.Registered c) (hq : Quiet c s m) : Base m := by
  obtain ⟨framep, child, im, timer, rfl, -, hchild⟩ := hq
  have hreg : ∀ i, s.Registered (child i) := fun i => by
    rcases hchild i with hi | hi
    · rw [hi]; exact h.child_reg i
    · rw [hi]; exact hc
  exact { h with child_reg := hreg }

theorem accept_within : Within dest s (s.accept dest msg) where
  ptr_eq := State.accept_ptr s dest msg
  curr_eq := State.accept_curr s dest msg
  next_eq := State.accept_next s dest msg
  child_eq := State.accept_intChild s dest msg
  acts_ne := fun a ha => by
    rw [State.accept_kernelActs, if_neg (fun hx => ha hx.1)]
    rfl
  aid_eq := by simp
  mask_eq := by simp
  queues_ne := fun a ha => State.accept_msgQueues_ne ha

theorem accept (h : Base s) (hd : s.Registered dest) (hr : (s.pending dest).length < maxMsg - 1) :
    Base (s.accept dest msg) := by
  have hm : (s.kernelActs dest).queueMask = maxMsg - 1 := h.mask_eq dest hd
  have hpend : (s.accept dest msg).pending dest = s.pending dest ++ [msg] := by
    rw [State.accept_pending hm (h.ring_wf dest) hr, if_pos rfl]
  refine h.within accept_within hd ?ring ?waiting ?schedulable ?zero ?token
  case ring =>
    rw [State.accept_msgQueues, State.store_ring hm]
    exact (h.ring_wf dest).push
  case waiting =>
    intro hw
    rw [State.accept_schedStatus] at hw
    split at hw
    · cases hw
    · rename_i hx
      exact absurd ⟨rfl, hw⟩ hx
  case schedulable =>
    intro _
    rw [hpend]
    simp
  case zero =>
    rintro rfl
    rw [State.accept_schedStatus, State.accept_status, if_neg]
    · exact ⟨h.zero_terminated, h.zero_status⟩
    · rintro ⟨-, hw⟩
      rw [h.zero_terminated] at hw
      cases hw
  case token =>
    intro C u hC
    have hmem : Obs.token C u ∈ s.hist := by
      rw [State.accept_hist] at hC
      split at hC <;> simpa using hC
    exact h.token_caller C u hmem

theorem setSchedStatus_within {st : SchedStatus} : Within act s (s.setSchedStatus act st) where
  ptr_eq := rfl
  curr_eq := rfl
  next_eq := rfl
  child_eq := rfl
  acts_ne := fun a ha => by rw [State.setSchedStatus_kernelActs, if_neg ha]
  aid_eq := by simp
  mask_eq := by simp
  queues_ne := fun a _ => rfl

theorem setSchedStatus (h : Base s) {st : SchedStatus} (hr : s.Registered act) (h0 : act = 0 → st = .terminated)
    (hw : st = .waiting → s.pending act = []) (hs : st = .schedulable → s.pending act ≠ []) :
    Base (s.setSchedStatus act st) := by
  have hst : (s.setSchedStatus act st).schedStatus act = st := by simp
  refine h.within setSchedStatus_within hr ?ring ?waiting ?schedulable ?zero ?token
  case ring => exact h.ring_wf act
  case waiting => exact fun ha => hw (hst ▸ ha)
  case schedulable => exact fun ha => hs (hst ▸ ha)
  case zero =>
    rintro rfl
    refine ⟨hst.trans (h0 rfl), ?_⟩
    rw [State.setSchedStatus_status]
    exact h.zero_status
  case token => exact h.token_caller

theorem sched (h : Base s) {q : Sched} {hist : List Obs} (ht : ∀ C u, .token C u ∈ hist → .token C u ∈ s.hist) :
    Base { s with sched := q, hist := hist } :=
  { h with token_caller := fun C u hC => h.token_caller C u (ht C u hC) }

theorem delQueue (h : Base s) : Base (s.delQueue act) := h.sched (fun C u hC => by simpa using hC)

theorem addQueue (h : Base s) : Base (s.addQueue act) := h.sched (fun C u hC => by simpa using hC)

theorem picked (h : Base s) : Base s.picked := by
  rw [State.picked_eq]
  exact h.sched (fun C u hC => by simpa using hC)

theorem dispatch_within : Within act s (s.dispatch act) where
  ptr_eq := rfl
  curr_eq := rfl
  next_eq := rfl
  child_eq := rfl
  acts_ne := fun a ha => by
    rw [State.dispatch_kernelActs, if_neg ha]
    rfl
  aid_eq := by simp
  mask_eq := by simp
  queues_ne := fun a ha => State.dispatch_msgQueues_ne ha

theorem dispatch (h : Base s) (ha : s.schedStatus act = .schedulable) : Base (s.dispatch act) := by
  have hr : s.Registered act := h.registered (by rw [ha]; decide)
  have h0 : act ≠ 0 := h.ne_zero (by rw [ha]; decide)
  have hst : (s.dispatch act).schedStatus act = .runnable := by simp
  refine h.within dispatch_within hr ?ring ?waiting ?schedulable ?zero ?token
  case ring =>
    rw [State.dispatch_ring (h.mask_eq act hr)]
    exact (h.ring_wf act).pop
  case waiting =>
    intro hw
    rw [hst] at hw
    cases hw
  case schedulable =>
    intro hs
    rw [hst] at hs
    cases hs
  case zero => exact fun he => absurd he h0
  case token =>
    intro C u hC
    exact h.token_caller C u (by simpa using hC)

theorem switchTo (h : Base s) (ha : s.schedStatus act = .runnable) : Base (s.switchTo act) := by
  have hne : act ≠ 0 := h.ne_zero (by rw [ha]; decide)
  have hr : s.Registered act := h.registered (by rw [ha]; decide)
  exact { h with ptr_eq := rfl, curr_ne := hne, curr_reg := hr }

theorem issue_within : Within act s (s.issue act) where
  ptr_eq := rfl
  curr_eq := rfl
  next_eq := rfl
  child_eq := rfl
  acts_ne := fun a ha => by rw [State.issue_kernelActs, if_neg ha]
  aid_eq := by simp
  mask_eq := by simp
  queues_ne := fun a _ => rfl

theorem issue (h : Base s) (h0 : act ≠ 0) (hr : s.Registered act) : Base (s.issue act) := by
  refine h.within issue_within hr ?ring ?waiting ?schedulable ?zero ?token
  case ring => exact h.ring_wf act
  case waiting => exact fun hw => h.waiting_pending act (by simpa using hw)
  case schedulable => exact fun hs => h.schedulable_pending act (by simpa using hs)
  case zero => exact fun he => absurd he h0
  case token =>
    intro C u hC
    have hcase : (C = act ∧ u = s.unique + 1) ∨ Obs.token C u ∈ s.hist := by simpa [State.issue] using hC
    rcases hcase with ⟨rfl, -⟩ | hold
    · exact ⟨h0, hr⟩
    · exact h.token_caller C u hold

theorem answer (h : Base s) (h0 : act ≠ 0) (hr : s.Registered act) : Base (s.answer act) := by
  have hact : Base (s.activate act .runnable) :=
    h.addQueue.setSchedStatus hr (fun he => absurd he h0) (by simp) (by simp)
  exact { hact with }

theorem deactivate (h : Base s) {st : SchedStatus} (h0 : act ≠ 0) (hr : s.Registered act)
    (hw : st = .waiting → s.pending act = []) (hs : st ≠ .schedulable) : Base (s.deactivate act st) :=
  h.delQueue.setSchedStatus hr (fun he => absurd he h0) hw (fun he => absurd he hs)

theorem revoke_within : Within act s (s.revoke act) where
  ptr_eq := rfl
  curr_eq := rfl
  next_eq := rfl
  child_eq := rfl
  acts_ne := fun a ha => by rw [State.revoke, State.setStatus_kernelActs, if_neg ha]
  aid_eq := by simp [State.revoke]
  mask_eq := by simp [State.revoke]
  queues_ne := fun a _ => rfl

theorem revoke (h : Base s) (hr : s.Registered act) (h0 : act ≠ 0) : Base (s.revoke act) := by
  have hst : (s.revoke act).schedStatus act = s.schedStatus act := State.setStatus_schedStatus s act act .revoked
  refine h.within revoke_within hr ?ring ?waiting ?schedulable ?zero ?token
  case ring => exact h.ring_wf act
  case waiting => exact fun hw => h.waiting_pending act (hst ▸ hw)
  case schedulable => exact fun hs => h.schedulable_pending act (hst ▸ hs)
  case zero => exact fun he => absurd he h0
  case token => exact h.token_caller

theorem fresh_next (h : Base s) (hlt : s.kernelNextAct < maxActivations) : s.kernelActs ⟨_, hlt⟩ = Act.zero :=
  h.fresh ⟨_, hlt⟩ (Nat.lt_irrefl s.kernelNextAct)

theorem register_schedStatus (h : Base s) {name : Nat → BitVec 8} {frame : RegFrame} {ref id : Cap}
    (hlt : s.kernelNextAct < maxActivations) (a : Aid) :
    (s.register ⟨_, hlt⟩ name frame ref id).schedStatus a = s.schedStatus a := by
  by_cases ha : a = ⟨_, hlt⟩
  · subst ha
    simp [State.schedStatus, h.fresh_next hlt, Act.zero]
  · simp [State.schedStatus, ha]

theorem register_status (h : Base s) {name : Nat → BitVec 8} {frame : RegFrame} {ref id : Cap}
    (hlt : s.kernelNextAct < maxActivations) (a : Aid) :
    (s.register ⟨_, hlt⟩ name frame ref id).status a = s.status a := by
  by_cases ha : a = ⟨_, hlt⟩
  · subst ha
    simp [State.status, h.fresh_next hlt, Act.zero]
  · simp [State.status, ha]

theorem register (h : Base s) {name : Nat → BitVec 8} {frame : RegFrame} {ref id : Cap}
    (hlt : s.kernelNextAct < maxActivations) : Base (s.register ⟨_, hlt⟩ name frame ref id) := by
  set aid : Aid := ⟨_, hlt⟩ with haid
  have hnew : ¬ s.Registered aid := Nat.lt_irrefl _
  have hreg : ∀ a, (s.register aid name frame ref id).Registered a ↔ a = aid ∨ s.Registered a := fun a => by
    have hval : a = aid ↔ a.val = s.kernelNextAct := Fin.ext_iff
    simp only [State.Registered, State.register_kernelNextAct, hval]
    omega
  have hst : ∀ a, (s.register aid name frame ref id).schedStatus a = s.schedStatus a := h.register_schedStatus hlt
  have h0 : (0 : Aid) ≠ aid := fun he => hnew (he ▸ h.zero_reg)
  constructor
  case ptr_eq => exact h.ptr_eq
  case curr_ne => exact h.curr_ne
  case curr_reg => exact (hreg _).2 (.inr h.curr_reg)
  case next_le => exact hlt
  case aid_eq =>
    intro a ha
    by_cases hae : a = aid
    · simp [hae]
    · simpa [hae] using h.aid_eq a (((hreg a).1 ha).resolve_left hae)
  case mask_eq =>
    intro a ha
    by_cases hae : a = aid
    · simp [hae]
    · simpa [hae] using h.mask_eq a (((hreg a).1 ha).resolve_left hae)
  case fresh =>
    intro a ha
    rw [hreg, not_or] at ha
    simpa [ha.1] using h.fresh a ha.2
  case ring_wf =>
    intro a
    by_cases hae : a = aid
    · subst hae
      rw [State.register_msgQueues, if_pos rfl]
      exact ⟨Nat.zero_lt_succ _, Nat.zero_lt_succ _⟩
    · simpa [hae] using h.ring_wf a
  case child_reg => intro i; exact (hreg _).2 (.inr (h.child_reg i))
  case waiting_pending =>
    intro a ha
    rw [State.register_pending]
    split
    · rfl
    · exact h.waiting_pending a (hst a ▸ ha)
  case schedulable_pending =>
    intro a ha
    rw [hst] at ha
    rw [State.register_pending, if_neg]
    · exact h.schedulable_pending a ha
    · rintro rfl
      exact hnew (h.registered (by rw [ha]; decide))
  case zero_terminated => rw [hst]; exact h.zero_terminated
  case zero_status =>
    have hz := h.zero_status
    simpa [State.status, h0] using hz
  case token_caller =>
    intro C u hC
    obtain ⟨hC0, hCr⟩ := h.token_caller C u hC
    exact ⟨hC0, (hreg C).2 (.inr hCr)⟩

theorem terminate_within : Within act s (s.terminate act) := by
  rw [State.terminate_eq]
  constructor
  case ptr_eq => rfl
  case curr_eq => rfl
  case next_eq => rfl
  case child_eq => rfl
  case acts_ne =>
    intro a ha
    rw [State.terminate_kernelActs, if_neg ha, if_neg ha]
    rfl
  case aid_eq => simp
  case mask_eq => simp
  case queues_ne => exact fun a _ => rfl

theorem terminate (h : Base s) (hr : s.Registered act) : Base (s.terminate act) := by
  have hst : (s.terminate act).schedStatus act = .terminated := by simp
  refine h.within terminate_within hr ?ring ?waiting ?schedulable ?zero ?token
  case ring =>
    rw [State.terminate_eq]
    exact h.ring_wf act
  case waiting =>
    intro hw
    rw [hst] at hw
    cases hw
  case schedulable =>
    intro hs
    rw [hst] at hs
    cases hs
  case zero =>
    rintro rfl
    exact ⟨hst, by simp⟩
  case token =>
    intro C u hC
    apply h.token_caller C u
    by_cases ht : s.SlotTest act <;> simpa [State.terminate, ht] using hC

/-- **The routine updates keep the invariant.** -/
theorem routine (h : Base s) (hc : s.Registered c) (hm : Routine b e c s m) : Base m := by
  cases hm with
  | quiet hq => exact h.quiet hc hq
  | accept dest src identifier token hd hr _ _ => exact h.accept hd hr
  | block hrun hp _ _ =>
    exact h.deactivate (h.ne_zero (by rw [hrun]; decide)) hc (fun _ => hp) (by decide)
  | yield hrun hp =>
    refine h.setSchedStatus hc (fun he => absurd he (h.ne_zero (by rw [hrun]; decide))) (by simp) (fun _ => hp)
  | pick => exact h.picked
  | dispatch act ha => exact h.dispatch ha
  | switchTo act ha => exact h.switchTo ha

end Base
end Kernel
end CheriOS
