import CheriOS.Kernel.Base
import CheriOS.Lib.Path
/-!
# Routine — the scheduler, the waits and the interrupts as paths of updates

They follow `Routine` updates from any well-formed state; where they stop, `Halts` says what the state there looks
like.
-/
namespace CheriOS
namespace Kernel

open Outcome
open Relation (ReflTransGen)

variable {b : Build} {e : Entry} {c act dest src : Aid} {s m : State}

/-! ## The functions of the run queue, written with the updates -/

theorem schedD2a_eq {status : SchedStatus} (hst : status = .runnable ∨ status = .schedulable) :
    schedD2a b act status s =
      if s.sched.squeueAEnd < maxActivations then .ok (s.activate act status)
      else .error (.outOfBounds .squeueA) := by
  have hassert : kernelAssert b (status == .runnable || status == .schedulable) .schedD2a = .ok () := by
    rcases hst with rfl | rfl <;> simp [kernelAssert]
  unfold schedD2a qadd
  split
  · rw [ok_bind, hassert]; rfl
  · rfl

theorem qdel_eq :
    qdel b act s =
      if b.lite = false ∧ ¬ s.SlotTest act then .error (.assertion .qdel)
      else if s.sched.squeueAEnd = 0 then .error (.outOfBounds .squeueA) else .ok (s.delQueue act) := by
  by_cases hl : b.lite = true <;> by_cases ht : s.sched.squeueA (s.sched.aqueue act) = act <;>
    simp [qdel, kernelAssert, State.SlotTest, hl, ht, State.delQueue]

theorem schedA2d_eq {status : SchedStatus} (hst : status = .syncBlock ∨ status = .waiting) :
    schedA2d b act status s =
      if b.lite = false ∧ ¬ s.SlotTest act then .error (.assertion .qdel)
      else if s.sched.squeueAEnd = 0 then .error (.outOfBounds .squeueA) else .ok (s.deactivate act status) := by
  have hassert : kernelAssert b (status == .syncBlock || status == .waiting) .schedA2d = .ok () := by
    rcases hst with rfl | rfl <;> simp [kernelAssert]
  unfold schedA2d
  rw [qdel_eq]
  split
  · rfl
  · split
    · rfl
    · rw [ok_bind, hassert]; rfl

theorem schedDelete_eq :
    schedDelete b act s =
      if s.SlotTest act then
        if s.sched.squeueAEnd = 0 then .error (.outOfBounds .squeueA)
        else .ok ((s.delQueue act).setStatus act .terminated)
      else .ok (s.setStatus act .terminated) := by
  unfold schedDelete
  rw [qdel_eq]
  by_cases ht : s.SlotTest act
  · have ht' : (s.sched.squeueA (s.sched.aqueue act) == act) = true := by simpa [State.SlotTest] using ht
    simp only [ht', ht, if_true, not_true_eq_false, and_false, if_false]
    split <;> rfl
  · have ht' : (s.sched.squeueA (s.sched.aqueue act) == act) = false := by simpa [State.SlotTest] using ht
    simp only [ht', ht, if_false]
    rfl

/-! ## The functions of the message queues, written with the updates -/

theorem full_eq (h : Base s) (hd : s.Registered dest) :
    full b (s.msgQueues dest) (s.kernelActs dest).queueMask =
      .ok (decide (¬ (s.pending dest).length < maxMsg - 1)) := by
  have hroom := State.room_iff (h.ring_wf dest)
  have hassert : kernelAssert b (decide (maxMsg - 1 > 0)) .full = .ok () := by simp [kernelAssert]
  unfold full
  rw [h.mask_eq dest hd, hassert, ok_bind]
  apply congrArg Except.ok
  rw [Bool.eq_iff_iff, beq_iff_eq, decide_eq_true_iff, ← hroom, ne_eq, Decidable.not_not]

/-- **What `msg_push` does**, for any sender and any arguments. -/
theorem msgPush_eq (h : Base s) (hd : s.Registered dest) (identifier token : Cap) :
    msgPush b dest src identifier token s =
      if (s.pending dest).length < maxMsg - 1 then
        if s.schedStatus dest = .waiting ∧ ¬ s.sched.squeueAEnd < maxActivations then .error (.outOfBounds .squeueA)
        else .ok (0, s.accept dest (mkMsg (s.kernelExceptionFramep src) identifier token))
      else .ok (-1, s) := by
  have hassert : kernelAssert b (decide ((s.kernelActs dest).queueMask > 0)) .msgPush = .ok () := by
    simp [kernelAssert, h.mask_eq dest hd]
  have hst : ∀ m, (s.store dest m).schedStatus dest = s.schedStatus dest := fun _ => rfl
  have hend : ∀ m, (s.store dest m).sched.squeueAEnd = s.sched.squeueAEnd := fun _ => rfl
  unfold msgPush
  simp only [hassert, ok_bind, full_eq h hd]
  by_cases hroom : (s.pending dest).length < maxMsg - 1
  · rw [if_pos hroom, if_neg (by simpa using hroom)]
    set m := mkMsg (s.kernelExceptionFramep src) identifier token with hm
    show (if (s.store dest m).schedStatus dest = .waiting then
      schedD2a b dest .schedulable (s.store dest m) >>= fun s => Except.ok (0, s) else .ok (0, s.store dest m)) = _
    rw [schedD2a_eq (.inr rfl), hst, hend]
    by_cases hw : s.schedStatus dest = .waiting
    · by_cases hlt : s.sched.squeueAEnd < maxActivations
      · simp [hw, hlt, State.accept]
      · simp [hw, hlt]
    · simp [hw, State.accept]
  · rw [if_neg hroom, if_pos (by simpa using hroom)]
    rfl

/-- **A schedulable activation has a message to load.** -/
theorem schedSchedule_eq (h : Base s) (ha : s.schedStatus act = .schedulable) :
    schedSchedule b act s = .ok (s.dispatch act) := by
  have hne : empty (s.msgQueues act) = false := by
    rw [Bool.eq_false_iff]
    exact fun he => h.schedulable_pending act ha (h.empty_iff.1 he)
  simp [schedSchedule, msgPop, kernelAssert, ha, hne, State.dispatch, State.load]

/-! ## Where an entry stops -/

/-- The activation that `sched_picknext` returned last. -/
def Picked (s : State) (act : Aid) : Prop :=
  (s.sched.squeueAEnd = 0 ∧ act = 0) ∨
    (s.sched.squeueAIdx < s.sched.squeueAEnd ∧ s.sched.squeueA s.sched.squeueAIdx = act)

theorem picked_picked : Picked s.picked (schedPicknext s).1 := by
  unfold State.picked schedPicknext
  split
  · rename_i h0
    exact .inl ⟨h0, rfl⟩
  · rename_i h0
    exact .inr ⟨Nat.mod_lt _ (Nat.pos_of_ne_zero h0), rfl⟩

/-- **Why the routine part of an entry stops**, by the state it stops in. -/
inductive Halts (b : Build) (c : Aid) (m : State) : Stop → Prop where
  | overflow (act : Aid) : m.schedStatus act = .waiting → maxActivations ≤ m.sched.squeueAEnd →
      Halts b c m (.outOfBounds .squeueA)
  | underflow : m.schedStatus c = .runnable → m.sched.squeueAEnd = 0 → Halts b c m (.outOfBounds .squeueA)
  | stale : b.lite = false → m.schedStatus c = .runnable → ¬ m.SlotTest c → Halts b c m (.assertion .qdel)
  | nothingToRun : Picked m 0 → Halts b c m (.freeze .nothingToRun)
  | unrunnable (act : Aid) : Picked m act → act ≠ 0 → m.schedStatus act ≠ .schedulable →
      m.schedStatus act ≠ .runnable → Halts b c m .hang
  | timer : Halts b c m .hang
  | trap : Halts b c m .trap
  | panic (text : Panic) : Halts b c m (.panic text)
  | freeze (why : Freeze) : why ≠ .nothingToRun → Halts b c m (.freeze why)
  | intChild : Halts b c m (.outOfBounds .intChild)
  | actName : Halts b c m (.outOfBounds .actName)

/-! ## The routine part -/

/-- The current activation may run. -/
def Runs (s : State) : Prop := s.schedStatus s.kernelCurrAct = .runnable

theorem Runs.accept {msg : Msg} (h : Runs s) : Runs (s.accept dest msg) := by
  unfold Runs at h ⊢
  rw [State.accept_curr, State.accept_schedStatus, if_neg, h]
  rintro ⟨he, hw⟩
  rw [he, hw] at h
  cases h

theorem Runs.switchTo (h : s.schedStatus act = .runnable) : Runs (s.switchTo act) := h

theorem Runs.quiet (h : Runs s) (hq : Quiet c s m) : Runs m := by
  obtain ⟨framep, child, im, timer, rfl, -⟩ := hq
  exact h

/-- A well-formed state of an entry made by the activation `c`. -/
structure Ready (c : Aid) (s : State) : Prop where
  base : Base s
  reg : s.Registered c

theorem Routine.next (h : Routine b e c s m) : m.kernelNextAct = s.kernelNextAct := by
  cases h with
  | quiet hq => obtain ⟨framep, child, im, timer, rfl, -⟩ := hq; rfl
  | accept dest src identifier token _ _ _ _ => simp
  | block _ _ _ _ => rfl
  | yield _ _ => rfl
  | pick => simp
  | dispatch act _ => rfl
  | switchTo act _ => rfl

theorem Ready.routine (h : Ready c s) (hm : Routine b e c s m) : Ready c m :=
  ⟨h.base.routine h.reg hm, by rw [State.Registered, hm.next]; exact h.reg⟩

theorem Ready.path (h : Ready c s) (hm : ReflTransGen (Routine b e c) s m) : Ready c m :=
  inv_path (fun _ _ hr hst => hr.routine hst) h hm

/-! ### One turn of the loop of `sched_reschedule` -/

theorem tryRun_zero (fuel : Nat) : tryRun b fuel 0 s = .error (.freeze .nothingToRun) := by
  unfold tryRun
  rw [if_pos rfl]

theorem tryRun_schedulable (hb : Base s) (h0 : act ≠ 0) (hs : s.schedStatus act = .schedulable) (fuel : Nat) :
    tryRun b fuel act s = .ok ((s.dispatch act).switchTo act) := by
  unfold tryRun
  simp only [h0, if_false, hs, if_true, schedSchedule_eq hb hs, ok_bind, State.dispatch_schedStatus]
  rfl

theorem tryRun_runnable (h0 : act ≠ 0) (hs : s.schedStatus act = .runnable) (fuel : Nat) :
    tryRun b fuel act s = .ok (s.switchTo act) := by
  unfold tryRun
  simp only [h0, if_false, hs, reduceCtorEq, ok_bind]
  rfl

theorem tryRun_next (h0 : act ≠ 0) (hs : s.schedStatus act ≠ .schedulable) (hr : s.schedStatus act ≠ .runnable)
    (fuel : Nat) : tryRun b (fuel + 1) act s = tryRun b fuel (schedPicknext s).1 s.picked := by
  conv_lhs => unfold tryRun
  simp only [h0, if_false, hs, ok_bind, hr, ne_eq, not_false_eq_true, if_true]
  rfl

theorem tryRun_last (h0 : act ≠ 0) (hs : s.schedStatus act ≠ .schedulable) (hr : s.schedStatus act ≠ .runnable) :
    tryRun b 0 act s = .error .hang := by
  unfold tryRun
  simp only [h0, if_false, hs, ok_bind, hr, ne_eq, not_false_eq_true, if_true]

/-- **The loop of `sched_reschedule`** ends in a switch to a runnable activation, or stops after a pick. -/
theorem tryRun_leads (fuel : Nat) : ∀ (hint : Aid) (s : State), Ready c s → (hint = 0 ∨ fuel = 0 → Picked s hint) →
    Leads (Routine b e c) (Halts b c) s (tryRun b fuel hint s) Runs := by
  induction fuel with
  | zero =>
    intro hint s hr hp
    by_cases h0 : hint = 0
    · rw [h0, tryRun_zero]
      exact .stop (.nothingToRun (h0 ▸ hp (.inl h0)))
    by_cases hs : s.schedStatus hint = .schedulable
    · rw [tryRun_schedulable hr.base h0 hs]
      exact .step (.dispatch hint hs) (.step (.switchTo hint (by simp)) (.ok (.switchTo (by simp))))
    by_cases hrun : s.schedStatus hint = .runnable
    · rw [tryRun_runnable h0 hrun]
      exact .step (.switchTo hint hrun) (.ok (.switchTo hrun))
    · rw [tryRun_last h0 hs hrun]
      exact .stop (.unrunnable hint (hp (.inr rfl)) h0 hs hrun)
  | succ fuel ih =>
    intro hint s hr hp
    by_cases h0 : hint = 0
    · rw [h0, tryRun_zero]
      exact .stop (.nothingToRun (h0 ▸ hp (.inl h0)))
    by_cases hs : s.schedStatus hint = .schedulable
    · rw [tryRun_schedulable hr.base h0 hs]
      exact .step (.dispatch hint hs) (.step (.switchTo hint (by simp)) (.ok (.switchTo (by simp))))
    by_cases hrun : s.schedStatus hint = .runnable
    · rw [tryRun_runnable h0 hrun]
      exact .step (.switchTo hint hrun) (.ok (.switchTo hrun))
    · rw [tryRun_next h0 hs hrun]
      exact .step .pick (ih _ _ (hr.routine (b := b) (e := e) .pick) (fun _ => picked_picked))

theorem schedReschedule_leads (hr : Ready c s) (hint : Aid) :
    Leads (Routine b e c) (Halts b c) s (schedReschedule b hint s) Runs := by
  unfold schedReschedule
  split
  · exact .step .pick (tryRun_leads _ _ _ (hr.routine (b := b) (e := e) .pick) (fun _ => picked_picked))
  · rename_i h0
    exact tryRun_leads _ _ _ hr (fun h => absurd h (by simp [h0]))

/-- What `act_wait` does to the waiting activation itself. -/
def park (b : Build) (act : Aid) (s : State) : Except Stop State :=
  if msgQueueEmpty act s then schedA2d b act .waiting s else .ok (s.setSchedStatus act .schedulable)

theorem actWait_eq (hrun : s.schedStatus act = .runnable) (hint : Aid) :
    actWait b act hint s = park b act s >>= schedReschedule b hint := by
  have hassert : kernelAssert b (s.schedStatus act == .runnable) .actWait = .ok () := by simp [kernelAssert, hrun]
  unfold actWait park
  rw [hassert, ok_bind]
  split <;> rfl

/-- **Parking** leaves the run queue when no message is there, and stays in it as schedulable when one is. -/
theorem park_leads (hr : Ready c s) (hrun : s.schedStatus c = .runnable) :
    Leads (Routine b e c) (Halts b c) s (park b c s) (fun m => m.schedStatus c ≠ .runnable) := by
  unfold park
  split
  · rename_i hemp
    have hpend : s.pending c = [] := hr.base.empty_iff.1 hemp
    rw [schedA2d_eq (.inr rfl)]
    split
    · rename_i hst
      exact .stop (.stale hst.1 hrun hst.2)
    split
    · rename_i h0
      exact .stop (.underflow hrun h0)
    · rename_i hst h0
      have ht : b.lite = false → s.SlotTest c := fun hl => by_contra fun ht => hst ⟨hl, ht⟩
      exact .step (.block hrun hpend ht (Nat.pos_of_ne_zero h0)) (.ok (by simp))
  · rename_i hemp
    have hpend : s.pending c ≠ [] := fun he => hemp (hr.base.empty_iff.2 he)
    exact .step (.yield hrun hpend) (.ok (by simp))

theorem actWait_leads (hr : Ready c s) (hrun : s.schedStatus c = .runnable) (hint : Aid) :
    Leads (Routine b e c) (Halts b c) s (actWait b c hint s) Runs := by
  rw [actWait_eq hrun]
  exact (park_leads hr hrun).bind (fun m hm _ => schedReschedule_leads (hr.path hm) hint)

/-! ## Quiet steps -/

theorem Quiet.refl : Quiet c s s := ⟨_, _, _, _, rfl, fun _ _ _ => rfl, fun _ => .inl rfl⟩

theorem Quiet.trans {k : State} (h : Quiet c s m) (h' : Quiet c m k) : Quiet c s k := by
  obtain ⟨framep, child, im, timer, rfl, hf, hc⟩ := h
  obtain ⟨framep', child', im', timer', rfl, hf', hc'⟩ := h'
  refine ⟨_, _, _, _, rfl, fun x h1 h2 => (hf' x h1 h2).trans (hf x h1 h2), fun i => ?_⟩
  rcases hc' i with hi | hi
  · rw [hi]; exact hc i
  · exact .inr hi

theorem Quiet.setFrame (f : RegFrame) (ha : act = c ∨ act = 0) : Quiet c s (s.setFrame act f) := by
  refine ⟨_, _, _, _, rfl, fun x h1 h2 => ?_, fun _ => .inl rfl⟩
  have hne : x ≠ act := by rcases ha with rfl | rfl <;> assumption
  exact Function.update_of_ne hne _ _

theorem Quiet.modifyFrame {g : RegFrame → RegFrame} (hp : s.kernelExceptionFramepPtr = c) :
    Quiet c s (s.modifyFrame g) := .setFrame _ (.inl hp)

theorem Quiet.skip : Quiet c s (kernelSkipInstr c s) := .setFrame _ (.inl rfl)

theorem Quiet.mask (im : BitVec 8) : Quiet c s { s with statusIm := im } :=
  ⟨_, _, _, _, rfl, fun _ _ _ => rfl, fun _ => .inl rfl⟩

theorem Quiet.timer (next : BitVec 64) : Quiet c s { s with kernelLastTimer := next } :=
  ⟨_, _, _, _, rfl, fun _ _ _ => rfl, fun _ => .inl rfl⟩

/-! ## The timer and the interrupts -/

theorem kernelTimer_leads (hr : Ready c s) (count : BitVec 64) :
    Leads (Routine b e c) (Halts b c) s (kernelTimer b count s) Runs := by
  unfold kernelTimer
  refine (schedReschedule_leads hr 0).bind (fun m _ hrun => ?_)
  split
  · rename_i next _
    have hq : Quiet c m { m with kernelLastTimer := next } := .timer next
    exact .step (.quiet hq) (.ok (hrun.quiet hq))
  · exact .stop .timer

theorem kernelInterruptOther_leads (hr : Ready c s) (hrun : Runs s) (he : ∃ p n, e.cause = .interrupt p n)
    (pending : BitVec 8) (i : Nat) :
    Leads (Routine b e c) (Halts b c) s (kernelInterruptOther b pending i s) Runs := by
  unfold kernelInterruptOther
  split
  case isFalse => exact .ok hrun
  split
  case isTrue => exact .ok hrun
  dsimp only
  set im := s.statusIm &&& ~~~((1 : BitVec 8) <<< i) with him
  set f := ((s.kernelExceptionFramep 0).setMf .v0 (-3)).setMf .a0 (BitVec.ofNat 64 i) with hf
  have hq : Quiet c s ({ s with statusIm := im }.setFrame 0 f) :=
    Quiet.trans (.mask im) (.setFrame f (.inr rfl))
  have hr' := hr.routine (b := b) (e := e) (.quiet hq)
  have hd : ({ s with statusIm := im }.setFrame 0 f).Registered (s.intChild i) := hr'.base.child_reg i
  refine .step (.quiet hq) ?_
  show Leads _ _ _ (msgPush b (s.intChild i) 0 Cap.null Cap.null _ >>= _) _
  rw [msgPush_eq hr'.base hd]
  split
  case isFalse => exact .stop (.panic .queueFullInt)
  rename_i hroom
  split
  · rename_i hov
    exact .stop (.overflow _ hov.1 (Nat.le_of_not_lt hov.2))
  · rename_i hov
    exact .step (.accept _ 0 _ _ hd hroom (fun hw => by_contra fun hn => hov ⟨hw, hn⟩) (.inr ⟨rfl, he⟩))
      (.ok (hrun.quiet hq).accept)

theorem kernelInterruptOthers_leads (hr : Ready c s) (hrun : Runs s) (he : ∃ p n, e.cause = .interrupt p n)
    (pending : BitVec 8) (n : Nat) :
    Leads (Routine b e c) (Halts b c) s (kernelInterruptOthers b pending n s) Runs := by
  induction n with
  | zero => exact .ok hrun
  | succ n ih =>
    refine ih.bind (fun m hm hrm => ?_)
    exact kernelInterruptOther_leads (hr.path hm) hrm he pending n

/-- The timer first, then the other lines that were pending and open when the entry began. -/
theorem kernelInterrupt_eq (ipending : BitVec 8) (count : BitVec 64) : kernelInterrupt b ipending count s =
    (if ipending.getLsbD 7 then kernelTimer b count s else .ok s) >>= fun m =>
      if ipending &&& othersInterruptsMask s ≠ 0 then kernelInterruptOthers b (ipending &&& othersInterruptsMask s) 7 m
      else .ok m := by
  unfold kernelInterrupt
  split <;> rfl

theorem kernelInterrupt_leads (hr : Ready c s) (hrun : Runs s) (he : ∃ p n, e.cause = .interrupt p n)
    (ipending : BitVec 8) (count : BitVec 64) :
    Leads (Routine b e c) (Halts b c) s (kernelInterrupt b ipending count s) Runs := by
  rw [kernelInterrupt_eq]
  refine Leads.bind (Q := Runs) ?_ (fun m hm hrm => ?_)
  · split
    · exact kernelTimer_leads hr count
    · exact .ok hrun
  · split
    · exact kernelInterruptOthers_leads (hr.path hm) hrm he _ 7
    · exact .ok hrm

end Kernel
end CheriOS
