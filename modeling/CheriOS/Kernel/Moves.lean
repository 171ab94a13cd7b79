import CheriOS.Kernel.Reach
/-!
# Moves — what an entry can do to one activation

Each lemma says once, for every update, what becomes of one field of an activation's record: its scheduling status, its
status, the counter it expects a reply for.  Every invariant about these fields is read off from them.
-/
namespace CheriOS
namespace Kernel

open Relation (ReflTransGen)

variable {b : Build} {e : Entry} {c act : Aid} {s m k : State}

/-! ## Scheduling status -/

/-- **The transitions of a scheduling status in the routine part of an entry.** -/
inductive Moved : SchedStatus → SchedStatus → Prop where
  | same (st : SchedStatus) : Moved st st
  | wake : Moved .waiting .schedulable
  | block : Moved .runnable .waiting
  | yield : Moved .runnable .schedulable
  | dispatch : Moved .schedulable .runnable

namespace Moved

theorem of_eq {st st' : SchedStatus} (h : st' = st) : Moved st st' := h ▸ .same st

theorem terminated {st : SchedStatus} (h : Moved .terminated st) : st = .terminated := by cases h; rfl

theorem syncBlock {st : SchedStatus} (h : Moved .syncBlock st) : st = .syncBlock := by cases h; rfl

theorem to_syncBlock {st : SchedStatus} (h : Moved st .syncBlock) : st = .syncBlock := by cases h; rfl

end Moved

theorem accept_moved {dest : Aid} {msg : Msg} (a : Aid) : Moved (s.schedStatus a) ((s.accept dest msg).schedStatus a) := by
  rw [State.accept_schedStatus]
  split
  · rename_i hw
    rw [hw.1, hw.2]
    exact .wake
  · exact .same _

theorem Quiet.schedStatus (h : Quiet c s m) (a : Aid) : m.schedStatus a = s.schedStatus a := by
  obtain ⟨framep, child, im, timer, rfl, -⟩ := h
  rfl

theorem Routine.moved (h : Routine b e c s m) (a : Aid) : Moved (s.schedStatus a) (m.schedStatus a) := by
  cases h with
  | quiet hq => exact .of_eq (hq.schedStatus a)
  | accept dest src identifier token _ _ _ _ => exact accept_moved a
  | block hrun _ _ _ =>
    rw [State.deactivate_schedStatus]
    split
    · rename_i ha
      rw [ha, hrun]
      exact .block
    · exact .same _
  | yield hrun _ =>
    rw [State.setSchedStatus_schedStatus]
    split
    · rename_i ha
      rw [ha, hrun]
      exact .yield
    · exact .same _
  | pick => exact .of_eq (State.picked_schedStatus s a)
  | dispatch act hs =>
    rw [State.dispatch_schedStatus]
    split
    · rename_i ha
      rw [ha, hs]
      exact .dispatch
    · exact .same _
  | switchTo act _ => exact .same _

theorem moved_path {P : SchedStatus → Prop} (hP : ∀ st st', Moved st st' → P st → P st') {a : Aid}
    (hm : ReflTransGen (Routine b e c) s m) (h : P (s.schedStatus a)) : P (m.schedStatus a) :=
  Outcome.inv_path (I := fun m => P (m.schedStatus a)) (fun _ _ hs hr => hP _ _ (hr.moved a) hs) h hm

theorem terminated_path {a : Aid} (hm : ReflTransGen (Routine b e c) s m) (h : s.schedStatus a = .terminated) :
    m.schedStatus a = .terminated :=
  moved_path (P := fun st => st = .terminated) (fun _ _ hmv hs => (hs ▸ hmv).terminated) hm h

theorem syncBlock_path {a : Aid} (hm : ReflTransGen (Routine b e c) s m) (h : s.schedStatus a = .syncBlock) :
    m.schedStatus a = .syncBlock :=
  moved_path (P := fun st => st = .syncBlock) (fun _ _ hmv hs => (hs ▸ hmv).syncBlock) hm h

theorem not_syncBlock_path {a : Aid} (hm : ReflTransGen (Routine b e c) s m) (h : s.schedStatus a ≠ .syncBlock) :
    m.schedStatus a ≠ .syncBlock :=
  moved_path (P := fun st => st ≠ .syncBlock) (fun _ _ hmv hs he => hs (he ▸ hmv).to_syncBlock) hm h

theorem Sent.moved (h : Sent e c s m) (a : Aid) : Moved (s.schedStatus a) (m.schedStatus a) := by
  cases h with
  | mk dest identifier _ _ _ _ _ _ =>
    rw [← State.issue_schedStatus s c a]
    exact accept_moved a

theorem Sent.runnable (h : Sent e c s m) (hrun : s.schedStatus act = .runnable) : m.schedStatus act = .runnable := by
  cases h with
  | mk dest identifier _ _ _ _ _ _ =>
    have hne : ¬ (act = dest ∧ s.schedStatus dest = .waiting) := by
      rintro ⟨rfl, hw⟩
      rw [hrun] at hw
      cases hw
    rw [State.accept_schedStatus, State.issue_schedStatus, if_neg hne, State.issue_schedStatus, hrun]

theorem Runs.quiet_eq (h : Runs s) (hq : Quiet c s m) : m.schedStatus s.kernelCurrAct = .runnable := by
  rw [hq.schedStatus]
  exact h

theorem Quiet.sched (h : Quiet c s m) : m.sched = s.sched := by
  obtain ⟨framep, child, im, timer, rfl, -⟩ := h
  rfl

/-- **What an opening does to a scheduling status** beyond the routine transitions: a synchronous call blocks its
caller, a reply unblocks one, a termination ends one. -/
theorem Opening.moved (hB : Base s) (hR : Runs s) (h : Opening b e s k) (a : Aid) :
    Moved (s.schedStatus a) (k.schedStatus a) ∨
      (a = s.kernelCurrAct ∧ s.schedStatus a = .runnable ∧ k.schedStatus a = .syncBlock) ∨
      ((∃ u, Presents e s a u) ∧ (b.lite = false → s.schedStatus a = .syncBlock) ∧ k.schedStatus a = .runnable) ∨
      (Terminates b e s a ∧ k.schedStatus a = .terminated) := by
  cases h with
  | quiet hq => exact .inl (.of_eq (hq.schedStatus a))
  | call hq hs _ _ =>
    rw [State.deactivate_schedStatus]
    split
    · rename_i ha
      exact .inr (.inl ⟨ha, ha ▸ hR, rfl⟩)
    · exact .inl (hq.schedStatus a ▸ hs.moved a)
  | reply C u hp hst _ =>
    rw [State.answer_schedStatus]
    split
    · rename_i ha
      exact .inr (.inr (.inl ⟨⟨u, ha ▸ hp⟩, ha ▸ hst, rfl⟩))
    · exact .inl (.same _)
  | register hlt name frame ref id hq _ _ =>
    have hB₀ := ((Ready.of_base hB).quiet hq).base
    exact .inl (.of_eq ((hB₀.register_schedStatus hlt a).trans (hq.schedStatus a)))
  | revoke act hq _ _ _ =>
    left
    rw [← hq.schedStatus a]
    exact .of_eq (State.setStatus_schedStatus _ _ _ _)
  | terminate act hq ht _ _ =>
    rw [State.terminate_schedStatus]
    split
    · rename_i ha
      exact .inr (.inr (.inr ⟨ha ▸ ht, rfl⟩))
    · exact .inl (.of_eq (hq.schedStatus a))

/-! ## Status -/

theorem Quiet.status (h : Quiet c s m) (a : Aid) : m.status a = s.status a := by
  obtain ⟨framep, child, im, timer, rfl, -⟩ := h
  rfl

theorem Routine.status (h : Routine b e c s m) (a : Aid) : m.status a = s.status a := by
  cases h with
  | quiet hq => exact hq.status a
  | accept dest src identifier token _ _ _ _ => exact State.accept_status s dest a _
  | block _ _ _ _ => exact State.deactivate_status s c a .waiting
  | yield _ _ => exact State.setSchedStatus_status s c a .schedulable
  | pick => exact State.picked_status s a
  | dispatch act _ => exact State.dispatch_status s act a
  | switchTo act _ => rfl

/-- **What an opening does to a status**: a revocation of who is not terminated, or a termination, which marks both. -/
theorem Opening.status (hB : Base s) (h : Opening b e s k) (a : Aid) :
    k.status a = s.status a ∨ (k.status a = .revoked ∧ s.status a ≠ .terminated) ∨
      (Terminates b e s a ∧ k.status a = .terminated ∧ k.schedStatus a = .terminated) := by
  cases h with
  | quiet hq => exact .inl (hq.status a)
  | call hq hs _ _ =>
    cases hs with
    | mk dest identifier _ _ _ _ _ _ => simp [hq.status a]
  | reply C u _ _ _ => exact .inl (State.answer_status _ _ _)
  | register hlt name frame ref id hq _ _ =>
    have hB₀ := ((Ready.of_base hB).quiet hq).base
    exact .inl ((hB₀.register_status hlt a).trans (hq.status a))
  | revoke act hq _ _ hst =>
    rw [State.revoke, State.setStatus_status]
    split
    · rename_i ha
      exact .inr (.inl ⟨rfl, ha ▸ hst⟩)
    · exact .inl (hq.status a)
  | terminate act hq ht _ _ =>
    rw [State.terminate_status, State.terminate_schedStatus]
    split
    · rename_i ha
      exact .inr (.inr ⟨ha ▸ ht, rfl, rfl⟩)
    · exact .inl (hq.status a)

/-! ## The current activation -/

/-- **The current activation changes only to one that may run.** -/
theorem Routine.curr (h : Routine b e c s m) : m.kernelCurrAct = s.kernelCurrAct ∨ Runs m := by
  cases h with
  | quiet hq => obtain ⟨framep, child, im, timer, rfl, -⟩ := hq; exact .inl rfl
  | accept dest src identifier token _ _ _ _ => exact .inl (State.accept_curr s dest _)
  | block _ _ _ _ => exact .inl rfl
  | yield _ _ => exact .inl rfl
  | pick => exact .inl (State.picked_curr s)
  | dispatch act _ => exact .inl rfl
  | switchTo act hrun => exact .inr (.switchTo hrun)

/-! ## Saved frames -/

/-- **The routine part of an entry writes the frames of the current activation and of the kernel's own**, and those that
messages are loaded into. -/
theorem Routine.frame {a : Aid} (h : Routine b e c s m) (hc : a ≠ c) (h0 : a ≠ 0) (hs : s.schedStatus a ≠ .schedulable) :
    m.kernelExceptionFramep a = s.kernelExceptionFramep a := by
  cases h with
  | quiet hq =>
    obtain ⟨framep, child, im, timer, rfl, hf, -⟩ := hq
    exact hf a hc h0
  | accept dest src identifier token _ _ _ _ => rw [State.accept_framep]
  | block _ _ _ _ => rfl
  | yield _ _ => rfl
  | pick => rw [State.picked_framep]
  | dispatch act ha =>
    have hne : a ≠ act := by
      rintro rfl
      exact hs ha
    simp [State.dispatch, State.load, hne]
  | switchTo act _ => rfl

theorem Routine.runnable {a : Aid} (h : Routine b e c s m) (hc : a ≠ c) (hs : s.schedStatus a = .runnable) :
    m.schedStatus a = .runnable := by
  cases h with
  | quiet hq => rw [hq.schedStatus, hs]
  | accept dest src identifier token _ _ _ _ =>
    rw [State.accept_schedStatus, if_neg, hs]
    rintro ⟨rfl, hw⟩
    rw [hs] at hw
    cases hw
  | block _ _ _ _ => rw [State.deactivate_schedStatus, if_neg hc, hs]
  | yield _ _ => rw [State.setSchedStatus_schedStatus, if_neg hc, hs]
  | pick => rw [State.picked_schedStatus, hs]
  | dispatch act _ =>
    rw [State.dispatch_schedStatus]
    split
    · rfl
    · exact hs
  | switchTo act _ => exact hs

/-- **Another activation that runs, runs on with its frame as it is** for the rest of the entry. -/
theorem runnable_path {a : Aid} (hm : ReflTransGen (Routine b e c) s m) (hc : a ≠ c) (h0 : a ≠ 0)
    (hs : s.schedStatus a = .runnable) :
    m.schedStatus a = .runnable ∧ m.kernelExceptionFramep a = s.kernelExceptionFramep a := by
  refine Outcome.inv_path (R := Routine b e c)
    (I := fun m => m.schedStatus a = .runnable ∧ m.kernelExceptionFramep a = s.kernelExceptionFramep a)
    (fun m m' hm hr => ?_) ⟨hs, rfl⟩ hm
  have hne : m.schedStatus a ≠ .schedulable := by
    rw [hm.1]
    decide
  exact ⟨hr.runnable hc hm.1, (hr.frame hc h0 hne).trans hm.2⟩

/-! ## Messages accepted and loaded -/

/-- The message an observation records as stored for the activation. -/
def Obs.pushedTo (a : Aid) : Obs → Option Msg
  | .pushed dest m => if dest = a then some m else none
  | _ => none

/-- The message an observation records as loaded by the activation. -/
def Obs.poppedBy (a : Aid) : Obs → Option Msg
  | .popped act m => if act = a then some m else none
  | _ => none

/-- **Every message `msg_push` has stored for the activation**, oldest first. -/
def State.accepted (s : State) (a : Aid) : List Msg := (s.hist.filterMap (Obs.pushedTo a)).reverse

/-- **Every message `msg_pop` has loaded into its frame**, oldest first. -/
def State.loaded (s : State) (a : Aid) : List Msg := (s.hist.filterMap (Obs.poppedBy a)).reverse

theorem accept_accepted {dest : Aid} {msg : Msg} (a : Aid) :
    (s.accept dest msg).accepted a = if a = dest then s.accepted a ++ [msg] else s.accepted a := by
  unfold State.accepted
  by_cases ha : a = dest
  · subst ha
    rw [State.accept_hist]
    split <;> simp [List.filterMap_cons, Obs.pushedTo]
  · have hne : dest ≠ a := Ne.symm ha
    rw [State.accept_hist]
    split <;> simp [List.filterMap_cons, Obs.pushedTo, hne]

theorem accept_loaded {dest : Aid} {msg : Msg} (a : Aid) : (s.accept dest msg).loaded a = s.loaded a := by
  unfold State.loaded
  rw [State.accept_hist]
  split <;> simp [List.filterMap_cons, Obs.poppedBy]

theorem dispatch_accepted (a : Aid) : (s.dispatch act).accepted a = s.accepted a := by
  simp [State.accepted, List.filterMap_cons, Obs.pushedTo]

theorem dispatch_loaded (a : Aid) : (s.dispatch act).loaded a =
    if a = act then s.loaded a ++ [(s.msgQueues act).msg (s.msgQueues act).start] else s.loaded a := by
  by_cases ha : a = act
  · subst ha
    simp [State.loaded, Obs.poppedBy]
  · have hne : act ≠ a := Ne.symm ha
    simp [State.loaded, Obs.poppedBy, ha, hne]

theorem accepted_of_hist {o : Obs} (h : m.hist = o :: s.hist) {a : Aid} (ho : Obs.pushedTo a o = none) :
    m.accepted a = s.accepted a := by
  simp [State.accepted, h, ho]

theorem loaded_of_hist {o : Obs} (h : m.hist = o :: s.hist) {a : Aid} (ho : Obs.poppedBy a o = none) :
    m.loaded a = s.loaded a := by
  simp [State.loaded, h, ho]

theorem deactivate_accepted {st : SchedStatus} (a : Aid) : (s.deactivate act st).accepted a = s.accepted a :=
  accepted_of_hist (o := .qdel act) rfl rfl

theorem deactivate_loaded {st : SchedStatus} (a : Aid) : (s.deactivate act st).loaded a = s.loaded a :=
  loaded_of_hist (o := .qdel act) rfl rfl

theorem answer_accepted (a : Aid) : (s.answer act).accepted a = s.accepted a := accepted_of_hist (o := .qadd act) rfl rfl

theorem answer_loaded (a : Aid) : (s.answer act).loaded a = s.loaded a := loaded_of_hist (o := .qadd act) rfl rfl

theorem issue_accepted (a : Aid) : (s.issue act).accepted a = s.accepted a :=
  accepted_of_hist (o := .token act (s.unique + 1)) rfl rfl

theorem issue_loaded (a : Aid) : (s.issue act).loaded a = s.loaded a :=
  loaded_of_hist (o := .token act (s.unique + 1)) rfl rfl

theorem picked_accepted (a : Aid) : s.picked.accepted a = s.accepted a :=
  accepted_of_hist (State.picked_hist s) rfl

theorem picked_loaded (a : Aid) : s.picked.loaded a = s.loaded a := loaded_of_hist (State.picked_hist s) rfl

theorem terminate_accepted (a : Aid) : (s.terminate act).accepted a = s.accepted a := by
  by_cases ht : s.SlotTest act <;> simp [State.accepted, State.terminate, ht, List.filterMap_cons, Obs.pushedTo]

theorem terminate_loaded (a : Aid) : (s.terminate act).loaded a = s.loaded a := by
  by_cases ht : s.SlotTest act <;> simp [State.loaded, State.terminate, ht, List.filterMap_cons, Obs.poppedBy]

theorem Quiet.hist (h : Quiet c s m) : m.hist = s.hist := by
  obtain ⟨framep, child, im, timer, rfl, -⟩ := h
  rfl

theorem Quiet.accepted (h : Quiet c s m) (a : Aid) : m.accepted a = s.accepted a := by
  rw [State.accepted, h.hist, State.accepted]

theorem Routine.accepted (h : Routine b e c s m) (a : Aid) :
    m.accepted a = s.accepted a ∨ (s.status a = .alive ∧ e.cause = .ccall) ∨ ∃ p n, e.cause = .interrupt p n := by
  cases h with
  | quiet hq => exact .inl (hq.accepted a)
  | accept dest src identifier token _ _ _ hfrom =>
    by_cases ha : a = dest
    · rcases hfrom with ⟨hst, -, hcall⟩ | ⟨-, hint⟩
      · exact .inr (.inl ⟨ha ▸ hst, hcall⟩)
      · exact .inr (.inr hint)
    · exact .inl (by rw [accept_accepted, if_neg ha])
  | block _ _ _ _ => exact .inl (deactivate_accepted a)
  | yield _ _ => exact .inl rfl
  | pick => exact .inl (picked_accepted a)
  | dispatch act _ => exact .inl (dispatch_accepted a)
  | switchTo act _ => exact .inl rfl

theorem Opening.accepted (h : Opening b e s k) (a : Aid) :
    k.accepted a = s.accepted a ∨ (s.status a = .alive ∧ e.cause = .ccall) := by
  cases h with
  | quiet hq => exact .inl (hq.accepted a)
  | call hq hs _ _ =>
    cases hs with
    | mk dest identifier hcall _ _ hst _ _ =>
      by_cases ha : a = dest
      · exact .inr ⟨by rw [ha, ← hq.status, hst], hcall⟩
      · exact .inl (by rw [deactivate_accepted, accept_accepted, if_neg ha, issue_accepted, hq.accepted])
  | reply C u _ _ _ =>
    have hq : Quiet s.kernelCurrAct s (returning e s) := returning_quiet
    exact .inl ((answer_accepted a).trans (hq.accepted a))
  | register hlt name frame ref id hq _ _ => exact .inl (hq.accepted a)
  | revoke act hq _ _ _ => exact .inl (hq.accepted a)
  | terminate act hq _ _ _ => exact .inl ((terminate_accepted a).trans (hq.accepted a))

/-! ### The history grows -/

theorem accept_grows {dest : Aid} {msg : Msg} : s.hist <:+ (s.accept dest msg).hist := by
  rw [State.accept_hist]
  split
  · exact ⟨[.qadd dest, .pushed dest msg], rfl⟩
  · exact ⟨[.pushed dest msg], rfl⟩

theorem terminate_grows : s.hist <:+ (s.terminate act).hist := by
  unfold State.terminate
  split
  · exact ⟨[.qdel act], rfl⟩
  · exact List.suffix_refl _

theorem Routine.grows (h : Routine b e c s m) : s.hist <:+ m.hist := by
  cases h with
  | quiet hq => rw [hq.hist]
  | accept dest src identifier token _ _ _ _ => exact accept_grows
  | block _ _ _ _ => exact List.suffix_cons _ _
  | yield _ _ => exact List.suffix_refl _
  | pick =>
    rw [State.picked_hist]
    exact List.suffix_cons _ _
  | dispatch act _ => exact List.suffix_cons _ _
  | switchTo act _ => exact List.suffix_refl _

theorem Opening.grows (h : Opening b e s k) : s.hist <:+ k.hist := by
  cases h with
  | quiet hq => rw [hq.hist]
  | @call s₀ m hq hs _ _ =>
    cases hs with
    | mk dest identifier _ _ _ _ _ _ =>
      have hi : s₀.hist <:+ (s₀.issue s.kernelCurrAct).hist := List.suffix_cons _ _
      rw [← hq.hist]
      exact hi.trans (accept_grows.trans (List.suffix_cons (Obs.qdel _) _))
  | reply C u _ _ _ => exact List.suffix_cons _ _
  | register hlt name frame ref id hq _ _ =>
    rw [← hq.hist]
    exact List.suffix_refl _
  | revoke act hq _ _ _ =>
    rw [← hq.hist]
    exact List.suffix_refl _
  | terminate act hq _ _ _ =>
    rw [← hq.hist]
    exact terminate_grows

/-- **An entry adds to the history.** -/
theorem Mid.grows (h : Mid b e s m) : s.hist <:+ m.hist := by
  obtain ⟨k, ho, hp⟩ := h
  exact ho.grows.trans (Outcome.inv_path (I := fun m => k.hist <:+ m.hist) (fun _ _ hm hr => hm.trans hr.grows)
    (List.suffix_refl _) hp)

theorem accepted_extends (h : s.hist <:+ m.hist) (a : Aid) : s.accepted a <+: m.accepted a := by
  obtain ⟨es, he⟩ := h
  unfold State.accepted
  rw [← he, List.filterMap_append, List.reverse_append]
  exact List.prefix_append _ _

theorem loaded_extends (h : s.hist <:+ m.hist) (a : Aid) : s.loaded a <+: m.loaded a := by
  obtain ⟨es, he⟩ := h
  unfold State.loaded
  rw [← he, List.filterMap_append, List.reverse_append]
  exact List.prefix_append _ _

end Kernel
end CheriOS
