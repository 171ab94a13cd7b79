import CheriOS.Lib.Scan
import CheriOS.Kernel.Moves
import CheriOS.Kernel.Script
/-!
# Bypass — how often the scheduler may pass an activation over

The history records every addition, removal and pick, and the run queue is what they leave (`replay`).  A removal moves
the last activation into the hole, so an activation can be passed over once more for each removal, without a bound on
the whole; between removals the scan reaches every slot.
-/
namespace CheriOS
namespace Kernel

open Outcome
open Relation (ReflTransGen)

variable {b : Build} {e : Entry} {c act X : Aid} {s m k : State} {o : Obs} {es base : List Obs}

/-! ## The run queue as what the history leaves -/

/-- What one observation does to the run queue. -/
def Sched.after (q : Sched) : Obs → Sched
  | .qadd act => { q with
      aqueue := Function.update q.aqueue act q.squeueAEnd
      squeueA := Function.update q.squeueA q.squeueAEnd act
      squeueAEnd := q.squeueAEnd + 1 }
  | .qdel act => { q with
      squeueAEnd := q.squeueAEnd - 1
      squeueA := Function.update q.squeueA (q.aqueue act) (q.squeueA (q.squeueAEnd - 1))
      aqueue := Function.update q.aqueue (q.squeueA (q.squeueAEnd - 1)) (q.aqueue act) }
  | .picknext _ => { q with
      squeueAIdx := if q.squeueAEnd = 0 then q.squeueAIdx else (q.squeueAIdx + 1) % q.squeueAEnd }
  | _ => q

/-- What `sched_picknext` returns. -/
def Sched.next (q : Sched) : Aid := if q.squeueAEnd = 0 then 0 else q.squeueA ((q.squeueAIdx + 1) % q.squeueAEnd)

/-- **The run queue after a history.** -/
def replay (es : List Obs) : Sched := es.foldr (fun o q => q.after o) Sched.zero

/-- A history in which no addition overfills the queue, and every pick is of the queue at that moment. -/
def Fits : List Obs → Prop
  | [] => True
  | o :: es => Fits es ∧ (match o with
      | .qadd _ => (replay es).squeueAEnd < maxActivations
      | .picknext act => act = (replay es).next
      | _ => True)

/-- **The run queue is what the history leaves.** -/
structure Replayed (s : State) : Prop where
  sched : s.sched = replay s.hist
  fits : Fits s.hist

theorem schedPicknext_next : (schedPicknext s).1 = s.sched.next := by
  unfold schedPicknext Sched.next
  split <;> rfl

theorem picked_sched : s.picked.sched = s.sched.after (.picknext (schedPicknext s).1) := by
  unfold State.picked schedPicknext Sched.after
  split <;> rfl

namespace Replayed

theorem same (h : Replayed s) (hs : m.sched = s.sched) (hh : m.hist = s.hist) : Replayed m :=
  ⟨by rw [hs, hh, h.sched], by rw [hh]; exact h.fits⟩

theorem other (h : Replayed s) (hs : m.sched = s.sched) (hh : m.hist = o :: s.hist)
    (ho : match o with
      | .qadd _ | .qdel _ | .picknext _ => False
      | _ => True) : Replayed m := by
  constructor
  · rw [hs, hh, h.sched]
    cases o <;> first | rfl | exact ho.elim
  · rw [hh]
    refine ⟨h.fits, ?_⟩
    cases o <;> trivial

theorem addQueue (h : Replayed s) (hlt : s.sched.squeueAEnd < maxActivations) : Replayed (s.addQueue act) := by
  constructor
  · show _ = (replay s.hist).after (.qadd act)
    rw [← h.sched]
    rfl
  · exact ⟨h.fits, by rw [← h.sched]; exact hlt⟩

theorem delQueue (h : Replayed s) : Replayed (s.delQueue act) := by
  constructor
  · show _ = (replay s.hist).after (.qdel act)
    rw [← h.sched]
    rfl
  · exact ⟨h.fits, trivial⟩

theorem picked (h : Replayed s) : Replayed s.picked := by
  constructor
  · rw [State.picked_hist, picked_sched, h.sched]
    rfl
  · rw [State.picked_hist]
    exact ⟨h.fits, by rw [schedPicknext_next, h.sched]⟩

theorem activate (h : Replayed s) (act : Aid) (st : SchedStatus) (hlt : s.sched.squeueAEnd < maxActivations) :
    Replayed (s.activate act st) := (h.addQueue hlt).same rfl rfl

theorem deactivate (h : Replayed s) {st : SchedStatus} : Replayed (s.deactivate act st) := h.delQueue.same rfl rfl

theorem accept (h : Replayed s) {dest : Aid} {msg : Msg}
    (hlt : s.schedStatus dest = .waiting → s.sched.squeueAEnd < maxActivations) : Replayed (s.accept dest msg) := by
  have hstore : Replayed (s.store dest msg) := h.other (o := .pushed dest msg) rfl rfl trivial
  unfold State.accept
  split
  · rename_i hw
    exact hstore.activate _ _ (hlt hw)
  · exact hstore

theorem quiet (h : Replayed s) (hq : Quiet c s m) : Replayed m := h.same hq.sched hq.hist

theorem issue (h : Replayed s) : Replayed (s.issue c) := h.other (o := .token c (s.unique + 1)) rfl rfl trivial

theorem terminate (h : Replayed s) : Replayed (s.terminate act) := by
  by_cases ht : s.SlotTest act
  · have hmark : Replayed (s.setStatus act .terminated) := h.same rfl rfl
    unfold State.terminate
    rw [if_pos ht]
    have hdel : Replayed ((s.setStatus act .terminated).delQueue act) := hmark.delQueue
    exact hdel.same rfl rfl
  · unfold State.terminate
    rw [if_neg ht]
    exact h.same rfl rfl

theorem routine (h : Replayed s) (hm : Routine b e c s m) : Replayed m := by
  cases hm with
  | quiet hq => exact h.quiet hq
  | accept dest src identifier token _ _ hlt _ => exact h.accept hlt
  | block _ _ _ _ => exact h.deactivate
  | yield _ _ => exact h.same rfl rfl
  | pick => exact h.picked
  | dispatch act _ => exact h.other rfl (State.dispatch_hist _ _) trivial
  | switchTo act _ => exact h.same rfl rfl

theorem opening (h : Replayed s) (ho : Opening b e s k) : Replayed k := by
  cases ho with
  | quiet hq => exact h.quiet hq
  | call hq hs _ _ =>
    cases hs with
    | mk dest identifier _ _ _ _ _ hlt =>
      exact ((h.quiet hq).issue.accept (fun hw => hlt (by simpa using hw))).deactivate
  | reply C u _ _ hlt =>
    have hret : Replayed (returning e s) := h.quiet returning_quiet
    exact (hret.activate C .runnable hlt).same rfl rfl
  | register hlt name frame ref id hq _ _ => exact (h.quiet hq).same rfl rfl
  | revoke act hq _ _ _ => exact (h.quiet hq).same rfl rfl
  | terminate act hq _ _ _ => exact (h.quiet hq).terminate

end Replayed

theorem replayed_kept : Kept b (fun _ _ => True) Replayed where
  boot s hs := ⟨by rw [hs.sched, hs.hist]; rfl, by rw [hs.hist]; exact ⟨trivial, by decide⟩⟩
  opening e s k _ _ h _ ho := h.opening ho
  routine e c s m _ h hm := h.routine hm

/-! ## The bound -/

def Sched.Has (q : Sched) (X : Aid) : Prop := DenseSet.Mem X q.dense

instance (q : Sched) (X : Aid) : Decidable (q.Has X) :=
  inferInstanceAs (Decidable (∃ i < q.squeueAEnd, q.squeueA i = X))

/-- **Queued throughout** the events `es` that follow the events `base`. -/
def Throughout (X : Aid) (es base : List Obs) : Prop := ∀ newer older, es = newer ++ older → (replay (older ++ base)).Has X

def picks (es : List Obs) : Nat :=
  es.countP (fun o => match o with
    | .picknext _ => true
    | _ => false)

def removals (es : List Obs) : Nat :=
  es.countP (fun o => match o with
    | .qdel _ => true
    | _ => false)

theorem Throughout.tail (h : Throughout X (o :: es) base) : Throughout X es base :=
  fun newer older he => h (o :: newer) older (by rw [he]; rfl)

theorem Throughout.now (h : Throughout X es base) : (replay (es ++ base)).Has X := h [] es rfl

theorem Fits.size_le (h : Fits es) : (replay es).squeueAEnd ≤ maxActivations := by
  induction es with
  | nil => exact Nat.zero_le _
  | cons o es ih =>
    have hle := ih h.1
    show ((replay es).after o).squeueAEnd ≤ maxActivations
    cases o with
    | qadd act => exact h.2
    | qdel act => exact Nat.le_trans (Nat.sub_le _ _) hle
    | _ => exact hle

theorem Fits.tail (h : Fits (o :: es)) : Fits es := h.1

/-- **A pick that returns another activation brings the scan nearer**, an addition leaves it where it is, a removal puts
it anywhere. -/
theorem fits_rank (hF : Fits (es ++ base)) (hT : Throughout X es base) (hn : .picknext X ∉ es) :
    ∃ i < (replay (es ++ base)).squeueAEnd, (replay (es ++ base)).squeueA i = X ∧
      picks es + Scan.rank maxActivations (replay (es ++ base)).squeueAEnd (replay (es ++ base)).squeueAIdx i ≤
        maxActivations * (removals es + 1) := by
  induction es with
  | nil =>
    obtain ⟨i, hi, hX⟩ := hT.now
    refine ⟨i, hi, hX, ?_⟩
    have hle := Scan.rank_le (replay ([] ++ base)).squeueAIdx hF.size_le hi
    simpa [picks, removals] using hle
  | cons o es ih =>
    have hF' : Fits (es ++ base) := hF.1
    obtain ⟨i, hi, hX, hle⟩ := ih hF' hT.tail (fun h => hn (List.mem_cons_of_mem _ h))
    have hsize := hF'.size_le
    have hafter : replay ((o :: es) ++ base) = (replay (es ++ base)).after o := rfl
    set q := replay (es ++ base) with hq
    cases o with
    | qadd act =>
      refine ⟨i, Nat.lt_succ_of_lt hi, ?_, ?_⟩
      · rw [hafter]
        show Function.update q.squeueA q.squeueAEnd act i = X
        rw [Function.update_of_ne (Nat.ne_of_lt hi), hX]
      · have happ := Scan.rank_append q.squeueAIdx hsize hi
        have hp : picks (.qadd act :: es) = picks es := by simp [picks]
        have hr : removals (.qadd act :: es) = removals es := by simp [removals]
        rw [hafter, hp, hr]
        show picks es + Scan.rank maxActivations (q.squeueAEnd + 1) q.squeueAIdx i ≤ _
        omega
    | qdel act =>
      obtain ⟨j, hj, hXj⟩ := hT.now
      refine ⟨j, hj, hXj, ?_⟩
      have hall := Scan.rank_le (replay ((.qdel act :: es) ++ base)).squeueAIdx hF.size_le hj
      have hp : picks (.qdel act :: es) = picks es := by simp [picks]
      have hr : removals (.qdel act :: es) = removals es + 1 := by simp [removals]
      rw [hp, hr, Nat.mul_succ]
      exact Nat.add_le_add (Nat.le_trans (Nat.le_add_right _ _) hle) hall
    | picknext act =>
      have hpos : 0 < q.squeueAEnd := Nat.lt_of_le_of_lt (Nat.zero_le _) hi
      have h0 : ¬ q.squeueAEnd = 0 := Nat.ne_of_gt hpos
      have hact : act = q.squeueA ((q.squeueAIdx + 1) % q.squeueAEnd) := by
        have hnext : act = q.next := hF.2
        rw [hnext, Sched.next, if_neg h0]
      have hmiss : (q.squeueAIdx + 1) % q.squeueAEnd ≠ i := by
        rintro rfl
        exact hn (by rw [← hX, ← hact]; exact List.mem_cons_self)
      have hmove := Scan.rank_move hsize hi hmiss
      refine ⟨i, hi, hX, ?_⟩
      have hp : picks (.picknext act :: es) = picks es + 1 := by simp [picks]
      have hr : removals (.picknext act :: es) = removals es := by simp [removals]
      have hidx : (q.after (.picknext act)).squeueAIdx = (q.squeueAIdx + 1) % q.squeueAEnd := if_neg h0
      rw [hafter, hp, hr, hidx]
      show picks es + 1 + Scan.rank maxActivations q.squeueAEnd ((q.squeueAIdx + 1) % q.squeueAEnd) i ≤ _
      omega
    | pushed dest msg => exact ⟨i, hi, hX, hle⟩
    | popped act msg => exact ⟨i, hi, hX, hle⟩
    | token C u => exact ⟨i, hi, hX, hle⟩

/-- **Bypass is bounded by the removals.**  Take any stretch of events of a run during which `X` is in the run queue
throughout: if `sched_picknext` is called at least `MAX_ACTIVATIONS` times for each removal in the stretch, and
`MAX_ACTIVATIONS` times more, one of the calls returns `X`. -/
theorem bypass_bounded {tr : List (Transition.Step State Entry)} (hr : KernelRun b tr s) (hes : s.hist = es ++ base)
    (hT : Throughout X es base) (hle : maxActivations * (removals es + 1) ≤ picks es) : .picknext X ∈ es := by
  by_contra hn
  have hF : Fits (es ++ base) := hes ▸ (replayed_kept.run_all hr).fits
  obtain ⟨i, hi, -, hlt⟩ := fits_rank hF hT hn
  have hpos := Scan.rank_pos (replay (es ++ base)).squeueAIdx hF.size_le hi
  omega

/-- Init wakes an activation, and the two take turns. -/
def turnsScript : List Entry := [registerEntry, callEntry debugBuild 1 1 2] ++ List.replicate 33 sleepEntry

theorem bypass_bounded_turns : ∃ (s : State) (es base : List Obs),
    s.hist = es ++ base ∧ Throughout 1 es base ∧ removals es = 0 ∧ .picknext 1 ∈ es := by
  obtain ⟨tr, s, hr, -, hp⟩ := scriptSat_run debugBuild turnsScript
    (fun s => (s.hist.take 36).tails.all (fun older => (replay (older ++ s.hist.drop 36)).Has 1) &&
      (removals (s.hist.take 36) == 0 && decide (maxActivations ≤ picks (s.hist.take 36)))) (by decide +kernel)
  simp only [Bool.and_eq_true, beq_iff_eq, decide_eq_true_eq] at hp
  obtain ⟨hall, hrem, hpicks⟩ := hp
  have hT : Throughout 1 (s.hist.take 36) (s.hist.drop 36) := fun newer older he => by
    have hmem := List.all_eq_true.1 hall older ((List.mem_tails _ _).2 ⟨newer, he.symm⟩)
    simpa using hmem
  have hes : s.hist = s.hist.take 36 ++ s.hist.drop 36 := (List.take_append_drop 36 s.hist).symm
  exact ⟨s, _, _, hes, hT, hrem, bypass_bounded hr hes hT (by rw [hrem]; simpa using hpicks)⟩

/-! ## A run that passes one over

Activation 2 wakes activation 3 and sleeps; the scan goes from the slot of 2 to the new slot of 3; activation 3 answers
nothing and waits, so that its slot is gone and the scan starts over from the slot of 2.
-/

/-- Activation 2 runs, in the slot after that of activation 1; activation 3 waits. -/
structure Passing (s : State) : Prop where
  curr : s.kernelCurrAct = 2
  next : s.kernelNextAct = 4
  alive : s.status 3 = .alive
  one : s.schedStatus 1 = .runnable
  two : s.schedStatus 2 = .runnable
  three : s.schedStatus 3 = .waiting
  size : s.sched.squeueAEnd = 2
  slots : s.sched.squeueA 0 = 1 ∧ s.sched.squeueA 1 = 2
  idx : s.sched.squeueAIdx = 1

def wakeEntry : Entry := callEntry debugBuild 1 1 3

def wakeIdentifier : Cap := ⟨true, false, 0, Cap.ddc.perms, 0, 0x1000, 0⟩

def woken (s : State) : State :=
  (returning wakeEntry s).accept 3 (mkMsg ((returning wakeEntry s).kernelExceptionFramep 2) wakeIdentifier Cap.null)

def taken (s : State) : State :=
  kernelSkipInstr 2 (((saved sleepEntry s).picked.dispatch 3).switchTo 3)

def passed (s : State) : State :=
  (((returning (creturnEntry Cap.null) s).deactivate 3 .waiting).picked).switchTo 2

namespace Passing

theorem registered (h : Passing s) : s.Registered 3 := by
  rw [State.Registered, h.next]
  decide

theorem pending (h : Passing s) (hB : Base s) : s.pending 3 = [] := hB.waiting_pending 3 h.three

theorem wake (h : Passing s) (hB : Base s) : kernelEntry debugBuild wakeEntry s = .ok (woken s) := by
  have hq : Quiet s.kernelCurrAct s (returning wakeEntry s) := returning_quiet
  have hr := (Ready.of_base hB).quiet hq
  have hc1 : (returning wakeEntry s).frame.cf .c1 = wakeEntry.regs.cf .c1 := returning_cf hB (by decide)
  have hc2 : (returning wakeEntry s).frame.cf .c2 = wakeEntry.regs.cf .c2 := returning_cf hB (by decide)
  have hreg : (returning wakeEntry s).Registered 3 := h.registered
  have hst : (returning wakeEntry s).status 3 = .alive := h.alive
  have hroom : ((returning wakeEntry s).pending 3).length < maxMsg - 1 := by
    show (s.pending 3).length < _
    rw [h.pending hB]
    decide
  have hsize : ¬ ((returning wakeEntry s).schedStatus 3 = .waiting ∧
      ¬ (returning wakeEntry s).sched.squeueAEnd < maxActivations) := fun hn => hn.2 (by
    show s.sched.squeueAEnd < _
    rw [h.size]
    decide)
  have hcs : kernelUnseal ((returning wakeEntry s).frame.cf .c2) ((returning wakeEntry s).frame.cf .c1).otype =
      .ok wakeIdentifier := by
    rw [hc2, hc1]
    decide
  have hperm : wakeIdentifier.hasPerms Cap.permStore = true := by decide
  have hcore := kernelCcallCore_send hcs (by rw [hc1]; exact actCreateRef_unseal rfl) (derefAct_ref 3) hperm hst
  rw [hr.base.aid_eq 3 hreg, msgPush_eq hr.base hreg, if_pos hroom, if_neg hsize, ok_bind] at hcore
  have hcurr : (returning wakeEntry s).kernelCurrAct = 2 := h.curr
  rw [hcurr] at hcore
  rw [kernelEntry_ccall hB rfl, if_pos (by decide), kernelCcall_eq hB, if_pos (by decide)]
  exact hcore

theorem woken_sched (h : Passing s) : (woken s).sched = s.sched.after (.qadd 3) := by
  have hw : (returning wakeEntry s).schedStatus 3 = .waiting := h.three
  unfold woken State.accept
  rw [if_pos hw]
  rfl

theorem woken_hist (h : Passing s) : ∃ msg, (woken s).hist = .qadd 3 :: .pushed 3 msg :: s.hist := by
  have hw : (returning wakeEntry s).schedStatus 3 = .waiting := h.three
  unfold woken
  rw [State.accept_hist, if_pos hw]
  exact ⟨_, rfl⟩

theorem woken_schedStatus (h : Passing s) (a : Aid) :
    (woken s).schedStatus a = if a = 3 then .schedulable else s.schedStatus a := by
  have hw : (returning wakeEntry s).schedStatus 3 = .waiting := h.three
  unfold woken
  rw [State.accept_schedStatus]
  simp only [hw, and_true]
  rfl

theorem woken_next (h : Passing s) : (woken s).sched.next = 3 := by
  rw [h.woken_sched]
  simp [Sched.next, Sched.after, h.size, h.idx]

theorem woken_pick (h : Passing s) : (schedPicknext (saved sleepEntry (woken s))).1 = 3 := by
  rw [schedPicknext_next]
  exact h.woken_next

theorem take (h : Passing s) (hB : Base (woken s)) :
    kernelEntry debugBuild sleepEntry (woken s) = .ok (taken (woken s)) := by
  have hcurr : (woken s).kernelCurrAct = 2 := (State.accept_curr _ _ _).trans h.curr
  have hsch : (saved sleepEntry (woken s)).picked.schedStatus 3 = .schedulable := by
    rw [State.picked_schedStatus]
    exact (h.woken_schedStatus 3).trans (if_pos rfl)
  have hBp : Base (saved sleepEntry (woken s)).picked := (hB.quiet hB.curr_reg saved_quiet).picked
  have hres : schedReschedule debugBuild 0 (saved sleepEntry (woken s)) =
      .ok (((saved sleepEntry (woken s)).picked.dispatch 3).switchTo 3) := by
    unfold schedReschedule
    rw [if_pos rfl, h.woken_pick]
    exact tryRun_schedulable hBp (by decide) hsch _
  rw [kernelEntry_eq hB]
  show kernelExceptionSyscall debugBuild _ (saved sleepEntry (woken s)) = _
  unfold kernelExceptionSyscall
  rw [saved_frame hB]
  show (syscallSleep debugBuild (saved sleepEntry (woken s)) >>= _) = _
  unfold syscallSleep
  rw [saved_frame hB, if_neg (by decide), hres]
  show Except.ok (kernelSkipInstr (woken s).kernelCurrAct _) = _
  rw [hcurr]
  rfl

theorem taken_sched (h : Passing s) :
    (taken (woken s)).sched = (s.sched.after (.qadd 3)).after (.picknext 3) := by
  have hp : (saved sleepEntry (woken s)).picked.sched = (woken s).sched.after (.picknext 3) := by
    rw [picked_sched, h.woken_pick]
    rfl
  show (saved sleepEntry (woken s)).picked.sched = _
  rw [hp, h.woken_sched]

theorem taken_schedStatus (h : Passing s) (a : Aid) :
    (taken (woken s)).schedStatus a = if a = 3 then .runnable else s.schedStatus a := by
  show ((saved sleepEntry (woken s)).picked.dispatch 3).schedStatus a = _
  rw [State.dispatch_schedStatus, State.picked_schedStatus]
  show (if a = 3 then _ else (woken s).schedStatus a) = _
  rw [h.woken_schedStatus]
  split <;> rfl

theorem taken_pending (h : Passing s) (hB : Base s) : (taken (woken s)).pending 3 = [] := by
  have hr := (Ready.of_base hB).quiet (returning_quiet (e := wakeEntry))
  have hreg : (returning wakeEntry s).Registered 3 := h.registered
  have hnil : (returning wakeEntry s).pending 3 = [] := h.pending hB
  have hBw : Base (woken s) := hr.base.accept hreg (by rw [hnil]; decide)
  have hone : (woken s).pending 3 =
      [mkMsg ((returning wakeEntry s).kernelExceptionFramep 2) wakeIdentifier Cap.null] := by
    unfold woken
    rw [State.accept_pending (hr.base.mask_eq 3 hreg) (hr.base.ring_wf 3) (by rw [hnil]; decide), if_pos rfl, hnil]
    rfl
  have hBp : Base (saved sleepEntry (woken s)).picked := (hBw.quiet hBw.curr_reg saved_quiet).picked
  have hsame : (saved sleepEntry (woken s)).picked.pending 3 = (woken s).pending 3 :=
    State.pending_congr (by rw [State.picked_msgQueues]; rfl)
  have hregp : (saved sleepEntry (woken s)).picked.Registered 3 := by
    rw [State.Registered, State.picked_next]
    show (3 : Aid).val < (woken s).kernelNextAct
    unfold woken
    rw [State.accept_next]
    exact hreg
  have hpop := State.dispatch_pending (hBp.mask_eq 3 hregp) (hBp.ring_wf 3) (by rw [hsame, hone]; simp)
  rw [hsame, hone] at hpop
  exact (List.cons.inj hpop).2.symm

theorem taken_pick (h : Passing s) :
    (schedPicknext ((returning (creturnEntry Cap.null) (taken (woken s))).deactivate 3 .waiting)).1 = 2 := by
  rw [schedPicknext_next]
  show ((taken (woken s)).sched.after (.qdel 3)).next = 2
  rw [h.taken_sched]
  simp [Sched.after, Sched.next, h.size, h.idx, h.slots]

/-- Activation 3 waits for the next message, and the scan is back at activation 2. -/
theorem pass (h : Passing s) (hB : Base s) (hB' : Base (taken (woken s))) :
    kernelEntry debugBuild (creturnEntry Cap.null) (taken (woken s)) = .ok (passed (taken (woken s))) := by
  set t := taken (woken s) with ht
  have hcurr : t.kernelCurrAct = 3 := rfl
  have hrun : (returning (creturnEntry Cap.null) t).schedStatus 3 = .runnable := (h.taken_schedStatus 3).trans (if_pos rfl)
  have hemp : msgQueueEmpty 3 (returning (creturnEntry Cap.null) t) = true :=
    hB'.empty_iff.2 (h.taken_pending hB)
  have hslot : (returning (creturnEntry Cap.null) t).SlotTest 3 := by
    show t.sched.squeueA (t.sched.aqueue 3) = 3
    rw [h.taken_sched]
    simp [Sched.after]
  have hend : (returning (creturnEntry Cap.null) t).sched.squeueAEnd ≠ 0 := by
    show t.sched.squeueAEnd ≠ 0
    rw [h.taken_sched]
    simp [Sched.after]
  have hpark : park debugBuild 3 (returning (creturnEntry Cap.null) t) =
      .ok ((returning (creturnEntry Cap.null) t).deactivate 3 .waiting) := by
    unfold park
    rw [if_pos hemp, schedA2d_eq (.inr rfl), if_neg (fun hn => hn.2 hslot), if_neg hend]
  rw [kernelEntry_eq hB']
  show kernelCreturn debugBuild (saved (creturnEntry Cap.null) t) = _
  rw [kernelCreturn_null hB' rfl, hcurr, actWait_eq hrun, hpark, ok_bind]
  unfold schedReschedule
  rw [if_neg (by decide)]
  show tryRun debugBuild (_ + 1) 3 _ = _
  rw [tryRun_next (by decide) (by simp) (by simp), h.taken_pick]
  refine tryRun_runnable (by decide) ?_ _
  rw [State.picked_schedStatus, State.deactivate_schedStatus, if_neg (by decide)]
  exact (h.taken_schedStatus 2).trans h.two

theorem passed_sched (h : Passing s) : (passed (taken (woken s))).sched =
    (((s.sched.after (.qadd 3)).after (.picknext 3)).after (.qdel 3)).after (.picknext 2) := by
  have hp : ((returning (creturnEntry Cap.null) (taken (woken s))).deactivate 3 .waiting).picked.sched =
      ((taken (woken s)).sched.after (.qdel 3)).after (.picknext 2) := by
    rw [picked_sched]
    rfl
  show ((returning (creturnEntry Cap.null) (taken (woken s))).deactivate 3 .waiting).picked.sched = _
  rw [hp, h.taken_sched]

theorem passed_hist (h : Passing s) : ∃ msg msg', (passed (taken (woken s))).hist =
    [.picknext 2, .qdel 3, .popped 3 msg', .picknext 3, .qadd 3, .pushed 3 msg] ++ s.hist := by
  obtain ⟨msg, hw⟩ := h.woken_hist
  have htaken : ∃ msg', (taken (woken s)).hist = .popped 3 msg' :: .picknext 3 :: (woken s).hist := by
    have hd := State.dispatch_hist (saved sleepEntry (woken s)).picked 3
    rw [State.picked_hist, h.woken_pick] at hd
    exact ⟨_, hd⟩
  obtain ⟨msg', ht⟩ := htaken
  refine ⟨msg, msg', ?_⟩
  show ((returning (creturnEntry Cap.null) (taken (woken s))).deactivate 3 .waiting).picked.hist = _
  rw [State.picked_hist, h.taken_pick]
  show .picknext 2 :: .qdel 3 :: (taken (woken s)).hist = _
  rw [ht, hw]
  rfl

theorem passed_schedStatus (h : Passing s) (a : Aid) :
    (passed (taken (woken s))).schedStatus a = if a = 3 then .waiting else s.schedStatus a := by
  show ((returning (creturnEntry Cap.null) (taken (woken s))).deactivate 3 .waiting).picked.schedStatus a = _
  rw [State.picked_schedStatus, State.deactivate_schedStatus]
  show (if a = 3 then _ else (taken (woken s)).schedStatus a) = _
  rw [h.taken_schedStatus]
  split <;> rfl

/-- **A round leads back to where it began.** -/
theorem round (h : Passing s) : Passing (passed (taken (woken s))) where
  curr := rfl
  next := by
    show ((returning (creturnEntry Cap.null) (taken (woken s))).deactivate 3 .waiting).picked.kernelNextAct = 4
    rw [State.picked_next]
    show (saved sleepEntry (woken s)).picked.kernelNextAct = 4
    rw [State.picked_next]
    show (woken s).kernelNextAct = 4
    unfold woken
    rw [State.accept_next]
    exact h.next
  alive := by
    show ((returning (creturnEntry Cap.null) (taken (woken s))).deactivate 3 .waiting).picked.status 3 = .alive
    rw [State.picked_status, State.deactivate_status]
    show ((saved sleepEntry (woken s)).picked.dispatch 3).status 3 = .alive
    rw [State.dispatch_status, State.picked_status]
    show (woken s).status 3 = .alive
    unfold woken
    rw [State.accept_status]
    exact h.alive
  one := (h.passed_schedStatus 1).trans h.one
  two := (h.passed_schedStatus 2).trans h.two
  three := h.passed_schedStatus 3
  size := by
    rw [h.passed_sched]
    simp [Sched.after, h.size]
  slots := by
    rw [h.passed_sched]
    simp [Sched.after, h.size, h.slots]
  idx := by
    rw [h.passed_sched]
    simp [Sched.after, h.size, h.idx]

end Passing

/-! ### Rounds without end -/

theorem Passing.steps (h : Passing s) {tr : List (Transition.Step State Entry)} (hr : KernelRun debugBuild tr s) :
    KernelRun debugBuild
      (⟨taken (woken s), creturnEntry Cap.null, passed (taken (woken s))⟩ :: ⟨woken s, sleepEntry, taken (woken s)⟩ ::
        ⟨s, wakeEntry, woken s⟩ :: tr) (passed (taken (woken s))) := by
  have hB := (KernelRun.base hr).1
  have h1 : KernelRun debugBuild _ (woken s) := .cons hr ⟨(admissible_call h.registered).unseals, h.wake hB⟩
  have h2 : KernelRun debugBuild _ (taken (woken s)) := .cons h1 ⟨admissible_null.unseals, h.take (KernelRun.base h1).1⟩
  exact .cons h2 ⟨admissible_null.unseals, h.pass hB (KernelRun.base h2).1⟩

theorem Throughout.cons (h : Throughout X es base) (ho : (replay (o :: es ++ base)).Has X) :
    Throughout X (o :: es) base := by
  intro newer older he
  cases newer with
  | nil =>
    obtain rfl : older = o :: es := he.symm
    exact ho
  | cons x newer => exact h newer older (List.cons.inj he).2

theorem Passing.throughout (h : Passing s) (hs : s.sched = replay (es ++ base)) (hT : Throughout 1 es base)
    (msg msg' : Msg) : Throughout 1
      ([.picknext 2, .qdel 3, .popped 3 msg', .picknext 3, .qadd 3, .pushed 3 msg] ++ es) base := by
  have hhas : ∀ new : List Obs, 0 < (new.foldr (fun o q => q.after o) s.sched).squeueAEnd →
      (new.foldr (fun o q => q.after o) s.sched).squeueA 0 = 1 → (replay ((new ++ es) ++ base)).Has 1 :=
    fun new h0 h1 => by
      rw [hs] at h0 h1
      rw [List.append_assoc, replay, List.foldr_append]
      exact ⟨0, h0, h1⟩
  have h1 := hT.cons (hhas [.pushed 3 msg] (by simp [Sched.after, h.size]) (by simp [Sched.after, h.slots]))
  have h2 := h1.cons (hhas [.qadd 3, .pushed 3 msg] (by simp [Sched.after])
    (by simp [Sched.after, h.size, h.slots]))
  have h3 := h2.cons (hhas [.picknext 3, .qadd 3, .pushed 3 msg] (by simp [Sched.after])
    (by simp [Sched.after, h.size, h.slots]))
  have h4 := h3.cons (hhas [.popped 3 msg', .picknext 3, .qadd 3, .pushed 3 msg] (by simp [Sched.after])
    (by simp [Sched.after, h.size, h.slots]))
  have h5 := h4.cons (hhas [.qdel 3, .popped 3 msg', .picknext 3, .qadd 3, .pushed 3 msg]
    (by simp [Sched.after, h.size]) (by simp [Sched.after, h.size, h.slots]))
  exact h5.cons (hhas [.picknext 2, .qdel 3, .popped 3 msg', .picknext 3, .qadd 3, .pushed 3 msg]
    (by simp [Sched.after, h.size]) (by simp [Sched.after, h.size, h.slots]))

/-- **A stretch in which activation 1 is passed over**: it is queued and runnable throughout, `n` picks return another
one, and no hint makes it run. -/
structure Bypassed (n : Nat) (seg : List (Transition.Step State Entry)) (es base : List Obs) : Prop where
  throughout : Throughout 1 es base
  missed : .picknext 1 ∉ es
  picks : picks es = n
  unhinted : ∀ st ∈ seg, st.post.kernelCurrAct ≠ 1
  runnable : ∀ st ∈ seg, st.post.schedStatus 1 = .runnable

theorem Passing.rounds (h : Passing s) {tr : List (Transition.Step State Entry)} (hr : KernelRun debugBuild tr s)
    (n : Nat) : ∃ seg s' es, KernelRun debugBuild (seg ++ tr) s' ∧ Passing s' ∧ s'.hist = es ++ s.hist ∧
      Bypassed (2 * n) seg es s.hist := by
  induction n with
  | zero =>
    have hhas : (replay s.hist).Has 1 := by
      rw [← (replayed_kept.run_all hr).sched]
      have hpos : 0 < s.sched.squeueAEnd := by
        rw [h.size]
        decide
      exact ⟨0, hpos, h.slots.1⟩
    refine ⟨[], s, [], hr, h, rfl, fun newer older he => ?_, by simp, rfl, by simp, by simp⟩
    obtain ⟨-, rfl⟩ := List.append_eq_nil_iff.1 he.symm
    exact hhas
  | succ n ih =>
    obtain ⟨seg, s', es, hr', hP, hh, hby⟩ := ih
    obtain ⟨msg, msg', hnew⟩ := hP.passed_hist
    have hsched : s'.sched = replay (es ++ s.hist) := hh ▸ (replayed_kept.run_all hr').sched
    refine ⟨_ :: _ :: _ :: seg, _, _ ++ es, hP.steps hr', hP.round, by rw [hnew, hh, List.append_assoc],
      hP.throughout hsched hby.throughout msg msg', ?_, ?_, ?_, ?_⟩
    · simpa using hby.missed
    · have hpicks := hby.picks
      unfold Kernel.picks at hpicks ⊢
      rw [List.countP_append, hpicks, Nat.mul_succ, Nat.add_comm]
      rfl
    · have hw : (woken s').kernelCurrAct = 2 := (State.accept_curr _ _ _).trans hP.curr
      have h2 : (2 : Aid) ≠ 1 := by decide
      have h3 : (3 : Aid) ≠ 1 := by decide
      simp only [List.forall_mem_cons]
      exact ⟨h2, h3, hw ▸ h2, hby.unhinted⟩
    · simp only [List.forall_mem_cons]
      exact ⟨(hP.passed_schedStatus 1).trans hP.one, (hP.taken_schedStatus 1).trans hP.one,
        (hP.woken_schedStatus 1).trans hP.one, hby.runnable⟩

/-- **An activation passed over for good**: activation 1 is in the run queue throughout and no hint makes it run, and
`MAX_ACTIVATIONS * MAX_ACTIVATIONS` calls of `sched_picknext` all return others. -/
theorem bypass_unbounded : ∃ tr s seg s' es, KernelRun debugBuild tr s ∧ KernelRun debugBuild (seg ++ tr) s' ∧
    s'.hist = es ++ s.hist ∧ Bypassed (maxActivations * maxActivations) seg es s.hist := by
  obtain ⟨tr, s, hr, -, hp⟩ := scriptSat_run debugBuild
    [registerEntry, registerEntry, callEntry debugBuild 1 1 2, sleepEntry]
    (fun s => s.kernelCurrAct == 2 && (s.kernelNextAct == 4 && (s.status 3 == .alive && (s.schedStatus 1 == .runnable &&
      (s.schedStatus 2 == .runnable && (s.schedStatus 3 == .waiting && (s.sched.squeueAEnd == 2 &&
      (s.sched.squeueA 0 == 1 && (s.sched.squeueA 1 == 2 && s.sched.squeueAIdx == 1)))))))))
    (by decide +kernel)
  simp only [Bool.and_eq_true, beq_iff_eq] at hp
  obtain ⟨hcurr, hnext, halive, h1, h2, h3, hsize, hs0, hs1, hidx⟩ := hp
  have hP : Passing s := ⟨hcurr, hnext, halive, h1, h2, h3, hsize, ⟨hs0, hs1⟩, hidx⟩
  obtain ⟨seg, s', es, hr', -, hh, hby⟩ := hP.rounds hr 512
  exact ⟨tr, s, seg, s', es, hr, hr', hh, hby⟩

end Kernel
end CheriOS
