import CheriOS.Kernel.Entry
/-!
# Reach — the runs of the kernel

A run starts in a state that `cherios_main` leaves and makes kernel entries that come back to user code.  `Kept` is the
induction behind every invariant of the kernel: it holds at boot, the opening of an entry keeps it, and so does every
routine update; then it holds in every state of every run and at every update inside an entry.
-/
namespace CheriOS
namespace Kernel

open Outcome
open Relation (ReflTransGen)

variable {b : Build} {e : Entry} {c : Aid} {s s' m k : State} {bi : BootInfo}

/-! ## Boot -/

/-- **The state `cherios_main` returns to init with.** -/
structure Booted (s : State) : Prop where
  curr : s.kernelCurrAct = 1
  ptr : s.kernelExceptionFramepPtr = 1
  next : s.kernelNextAct = 2
  init : s.status 1 = .alive ∧ s.schedStatus 1 = .runnable
  kernel : s.status 0 = .terminated ∧ s.schedStatus 0 = .terminated
  records : ∀ a : Aid, a.val < 2 → (s.kernelActs a).aid = a ∧ (s.kernelActs a).queueMask = maxMsg - 1
  unused : ∀ a : Aid, 2 ≤ a.val → s.kernelActs a = Act.zero
  expected : ∀ a, (s.kernelActs a).expectedReply = 0
  queues : ∀ a, (s.msgQueues a).start = 0 ∧ (s.msgQueues a).end_ = 0
  sched : s.sched = (State.zero.addQueue 1).sched
  unique : s.unique = 0
  children : ∀ i, s.intChild i = 0
  hist : s.hist = [.qadd 1]

def kernelSlot (root : Cap) (name : Nat → BitVec 8) (ref id : Cap) : State :=
  ((({ State.zero with actDefaultId := root }.register 0 name RegFrame.zero ref id).setStatus 0
    .terminated).setSchedStatus 0 .terminated)

/-- The state `act_init` leaves: the activation of init in slot 1, in the run queue. -/
def initSlot (k : State) (name : Nat → BitVec 8) (frame : RegFrame) (ref id : Cap) : State :=
  { { k with kernelCurrAct := 1, kernelNextAct := 1 }.register 1 name frame ref id with
    kernelExceptionFramepPtr := 1 }.activate 1 .runnable

theorem actInit_ok (h : actInit b bi = .ok s) :
    ∃ root name ref id name' frame' ref' id', Cap.ddc.setBounds 0x1000 = some root ∧
      kernelSeal root 0 = .ok id ∧ kernelSeal root 1 = .ok id' ∧
      s = initSlot (kernelSlot root name ref id) name' frame' ref' id' := by
  unfold actInit at h
  dsimp only at h
  obtain ⟨root, hroot, h⟩ := bind_eq_ok.1 h
  have hbounds : Cap.ddc.setBounds 0x1000 = some root := congrArg some (Except.ok.inj hroot)
  obtain ⟨p, hp, h⟩ := bind_eq_ok.1 h
  obtain ⟨_, name, frame, ref, id, hframe, -, -, hid, hk⟩ := actRegister_sat.ok hp
  obtain rfl := Option.some.inj hframe
  obtain ⟨q, hq, h⟩ := bind_eq_ok.1 h
  obtain ⟨_, name', frame', ref', id', -, -, -, hid', hk'⟩ := actRegister_sat.ok hq
  have hq2 : q.2 = { kernelSlot root name ref id with kernelCurrAct := 1, kernelNextAct := 1 }.register 1 name' frame'
      ref' id' := by
    rw [hk', hk]
    rfl
  rw [hk] at hid'
  refine ⟨root, name, ref, id, name', frame', ref', id', hbounds, hid, hid', ?_⟩
  rw [hq2, schedD2a_eq (.inl rfl)] at h
  exact (Except.ok.inj h).symm

theorem initSlot_booted (root : Cap) (name : Nat → BitVec 8) (ref id : Cap) (name' : Nat → BitVec 8) (frame' : RegFrame)
    (ref' id' : Cap) : Booted ((initSlot (kernelSlot root name ref id) name' frame' ref' id').switchTo 1) := by
  have h0 : (0 : Aid) ≠ 1 := by decide
  constructor
  case curr => rfl
  case ptr => rfl
  case next => rfl
  case init => simp [initSlot, State.activate, State.status, State.schedStatus]
  case kernel => simp [initSlot, kernelSlot, State.activate, State.status, State.schedStatus, h0]
  case records =>
    intro a ha
    have hcase : a = 0 ∨ a = 1 := by
      rw [Fin.ext_iff, Fin.ext_iff]
      simp only [Fin.val_zero, Fin.val_one]
      omega
    rcases hcase with rfl | rfl <;> simp [initSlot, kernelSlot, State.activate, h0]
  case unused =>
    intro a ha
    have ha0 : a ≠ 0 := by rintro rfl; simp at ha
    have ha1 : a ≠ 1 := by rintro rfl; simp at ha
    simp [initSlot, kernelSlot, State.activate, ha0, ha1, State.zero]
  case expected =>
    intro a
    by_cases ha0 : a = 0 <;> by_cases ha1 : a = 1 <;>
      simp [initSlot, kernelSlot, State.activate, State.zero, Act.zero, ha0, ha1, h0]
  case queues =>
    intro a
    by_cases ha0 : a = 0 <;> by_cases ha1 : a = 1 <;>
      simp [initSlot, kernelSlot, State.activate, State.zero, Queue.zero, ha0, ha1, h0]
  case sched => rfl
  case unique => rfl
  case children => intro i; rfl
  case hist => rfl

theorem cheriosMain_booted (h : cheriosMain b bi = .ok s) : Booted s := by
  obtain ⟨s₁, h₁, h⟩ := bind_eq_ok.1 h
  obtain ⟨root, name, ref, id, name', frame', ref', id', -, -, -, rfl⟩ := actInit_ok h₁
  have hrun : (initSlot (kernelSlot root name ref id) name' frame' ref' id').schedStatus 1 = .runnable := by
    simp [initSlot, State.activate]
  unfold schedReschedule at h
  rw [if_neg (by decide), tryRun_runnable (by decide) hrun] at h
  obtain rfl := Except.ok.inj h
  exact initSlot_booted root name ref id name' frame' ref' id'

theorem Booted.size (h : Booted s) : s.sched.squeueAEnd = 1 := by rw [h.sched]; rfl

theorem Booted.slot (h : Booted s) : s.sched.squeueA 0 = 1 ∧ s.sched.aqueue 1 = 0 := by
  rw [h.sched]
  simp [State.zero, Sched.zero]

theorem Booted.registered (h : Booted s) (a : Aid) : s.Registered a ↔ a.val < 2 := by rw [State.Registered, h.next]

theorem Booted.pending (h : Booted s) (a : Aid) : s.pending a = [] := by
  obtain ⟨hs, he⟩ := h.queues a
  simp [State.pending, Queue.ring, RingBuffer.contents, RingBuffer.count, hs, he]

theorem Booted.schedStatus (h : Booted s) (a : Aid) :
    s.schedStatus a = .terminated ∨ s.schedStatus a = .runnable ∨ s.schedStatus a = .waiting := by
  by_cases hlt : a.val < 2
  · have hcase : a = 0 ∨ a = 1 := by
      rw [Fin.ext_iff, Fin.ext_iff]
      simp only [Fin.val_zero, Fin.val_one]
      omega
    rcases hcase with rfl | rfl
    · exact .inl h.kernel.2
    · exact .inr (.inl h.init.2)
  · refine .inr (.inr ?_)
    rw [State.schedStatus, h.unused a (Nat.le_of_not_lt hlt)]
    rfl

theorem Booted.base (h : Booted s) : Base s where
  ptr_eq := h.ptr.trans h.curr.symm
  curr_ne := by rw [h.curr]; decide
  curr_reg := by rw [h.registered, h.curr]; decide
  next_le := by rw [h.next]; decide
  aid_eq a ha := (h.records a ((h.registered a).1 ha)).1
  mask_eq a ha := (h.records a ((h.registered a).1 ha)).2
  fresh a ha := h.unused a (Nat.le_of_not_lt (fun hlt => ha ((h.registered a).2 hlt)))
  ring_wf a := by
    obtain ⟨hs, he⟩ := h.queues a
    exact ⟨by simp [Queue.ring, hs], by simp [Queue.ring, he]⟩
  child_reg i := by rw [h.registered, h.children]; decide
  waiting_pending a _ := h.pending a
  schedulable_pending a ha := by
    rcases h.schedStatus a with hs | hs | hs <;> rw [ha] at hs <;> cases hs
  zero_terminated := h.kernel.2
  zero_status := h.kernel.1
  token_caller C u hC := by simp [h.hist] at hC

theorem Booted.runs (h : Booted s) : Runs s := by rw [Runs, h.curr]; exact h.init.2

/-! ## Runs -/

def Boots (b : Build) (s : State) : Prop := ∃ bi, cheriosMain b bi = .ok s

/-- **A step of a run**: an entry that unseals what the kernel has made, and comes back to user code. -/
def kernelStep (b : Build) (s : State) (e : Entry) (s' : State) : Prop :=
  Unseals b e s ∧ kernelEntry b e s = .ok s'

abbrev KernelRun (b : Build) := Transition.Run (Boots b) (kernelStep b)

/-- A state at one of the updates of an entry. -/
def Mid (b : Build) (e : Entry) (s m : State) : Prop :=
  ∃ k, Opening b e s k ∧ ReflTransGen (Routine b e s.kernelCurrAct) k m

theorem Mid.ready (h : Mid b e s m) (hB : Base s) : Ready s.kernelCurrAct m := by
  obtain ⟨k, ho, hm⟩ := h
  exact (ho.ready hB).path hm

theorem kernelStep.mid (h : kernelStep b s e s') (hB : Base s) (hR : Runs s) : Mid b e s s' ∧ Runs s' := by
  have hent := kernelEntry_opens hB hR h.1
  rw [h.2] at hent
  exact hent

theorem stuck_of_stop {st : Stop} (hA : Unseals b e s) (h : kernelEntry b e s = .error st) (hB : Base s)
    (hR : Runs s) : Stuck b e s st := by
  have hent := kernelEntry_opens hB hR hA
  rw [h] at hent
  exact hent

/-- **Well-formedness along runs**: every state a run reaches is well formed, and its current activation may run. -/
theorem KernelRun.base {tr : List (Transition.Step State Entry)} (h : KernelRun b tr s) : Base s ∧ Runs s := by
  refine Transition.Run.inv (I := fun s => Base s ∧ Runs s) ?_ ?_ h
  · rintro s ⟨bi, hbi⟩
    exact ⟨(cheriosMain_booted hbi).base, (cheriosMain_booted hbi).runs⟩
  · rintro s e s' ⟨hB, hR⟩ hst
    obtain ⟨hm, hR'⟩ := hst.mid hB hR
    exact ⟨(hm.ready hB).base, hR'⟩

/-- **An invariant of the kernel**, kept by the entries that meet `C`. -/
structure Kept (b : Build) (C : Entry → State → Prop) (I : State → Prop) : Prop where
  boot : ∀ s, Booted s → I s
  opening : ∀ e s k, Base s → Runs s → I s → C e s → Opening b e s k → I k
  routine : ∀ e c s m, Ready c s → I s → Routine b e c s m → I m

namespace Kept

variable {C : Entry → State → Prop} {I : State → Prop}

theorem mid (h : Kept b C I) (hB : Base s) (hR : Runs s) (hI : I s) (hC : C e s) (hm : Mid b e s m) : I m := by
  obtain ⟨k, ho, hp⟩ := hm
  refine (inv_path (I := fun m => Ready s.kernelCurrAct m ∧ I m) ?_ ?_ hp).2
  · rintro m m' ⟨hr, hi⟩ hst
    exact ⟨hr.routine hst, h.routine _ _ _ _ hr hi hst⟩
  · exact ⟨ho.ready hB, h.opening _ _ _ hB hR hI hC ho⟩

/-- **It holds in every state of a run whose entries meet `C`.** -/
theorem run (h : Kept b C I) {tr : List (Transition.Step State Entry)} (hr : KernelRun b tr s)
    (hC : ∀ st ∈ tr, C st.ev st.pre) : I s := by
  refine (Transition.Run.inv_of (I := fun s => (Base s ∧ Runs s) ∧ I s) (C := fun st => C st.ev st.pre) ?_ ?_ hr hC).2
  · rintro s ⟨bi, hbi⟩
    have hb := cheriosMain_booted hbi
    exact ⟨⟨hb.base, hb.runs⟩, h.boot s hb⟩
  · rintro s e s' ⟨⟨hB, hR⟩, hI⟩ hst hCst
    obtain ⟨hm, hR'⟩ := hst.mid hB hR
    exact ⟨⟨(hm.ready hB).base, hR'⟩, h.mid hB hR hI hCst hm⟩

theorem run_all {I : State → Prop} (h : Kept b (fun _ _ => True) I) {tr : List (Transition.Step State Entry)}
    (hr : KernelRun b tr s) : I s :=
  h.run hr (fun _ _ => trivial)

end Kept
end Kernel
end CheriOS
