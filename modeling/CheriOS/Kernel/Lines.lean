import CheriOS.Kernel.Plain
import CheriOS.Kernel.Script
import CheriOS.Lib.Mask
/-!
# Lines — the interrupt lines

`int_child` says whose a line is and the mask in the status register which lines are open.  A line is taken by
`kernel_interrupt_register`, opened by `kernel_interrupt_enable` and closed by each delivery, and nothing else touches
either of the two.
-/
namespace CheriOS
namespace Kernel

open Outcome
open Relation (ReflTransGen)

variable {b : Build} {e : Entry} {c act : Aid} {s s' m k : State} {mem : UserMem} {i : Nat} {pending : BitVec 8}
  {tr : List (Transition.Step State Entry)}

/-! ## Deliveries -/

/-- The message of the kernel about a line. -/
structure LineMsg (i : Nat) (msg : Msg) : Prop where
  v0 : msg.v0 = -3
  a0 : msg.a0 = BitVec.ofNat 64 i
  idc : msg.idc = Cap.null
  c1 : msg.c1 = Cap.null

/-- The line is closed and its message is in the frame of the kernel's own activation. -/
def State.raise (s : State) (i : Nat) : State :=
  { s with statusIm := s.statusIm &&& ~~~((1 : BitVec 8) <<< i) }.setFrame 0
    (((s.kernelExceptionFramep 0).setMf .v0 (-3)).setMf .a0 (BitVec.ofNat 64 i))

theorem raise_quiet : Quiet c s (s.raise i) := Quiet.trans (.mask _) (.setFrame _ (.inr rfl))

theorem raise_msg (s : State) (i : Nat) :
    LineMsg i (mkMsg ((s.raise i).kernelExceptionFramep 0) Cap.null Cap.null) := by
  constructor <;> simp [State.raise, mkMsg]

/-- The lines below `n` among the pending ones that belong to `B`. -/
def linesOf (s : State) (pending : BitVec 8) (n : Nat) (B : Aid) : List Nat :=
  (List.range n).filter fun i => decide (pending.getLsbD i = true ∧ s.intChild i ≠ 0 ∧ s.intChild i = B)

/-- **The lines below `n` have been delivered**: each to whom it belongs, in one message, and it is closed. -/
structure Delivered (pending : BitVec 8) (n : Nat) (s m : State) : Prop where
  base : Base m
  child : m.intChild = s.intChild
  mask : ∀ i, m.statusIm.getLsbD i =
    (s.statusIm.getLsbD i && !decide (i < n ∧ pending.getLsbD i = true ∧ s.intChild i ≠ 0))
  msgs : ∀ B, ∃ ms, m.accepted B = s.accepted B ++ ms ∧ List.Forall₂ LineMsg (linesOf s pending n B) ms

/-- **One pending line**: whoever has it gets a message from the kernel's own frame. -/
theorem kernelInterruptOther_eq (hB : Base s) : kernelInterruptOther b pending i s =
    if pending.getLsbD i = true ∧ s.intChild i ≠ 0 then
      if (s.pending (s.intChild i)).length < maxMsg - 1 then
        if s.schedStatus (s.intChild i) = .waiting ∧ ¬ s.sched.squeueAEnd < maxActivations then
          .error (.outOfBounds .squeueA)
        else .ok ((s.raise i).accept (s.intChild i) (mkMsg ((s.raise i).kernelExceptionFramep 0) Cap.null Cap.null))
      else .error (.panic .queueFullInt)
    else .ok s := by
  have hBr : Base (s.raise i) := hB.quiet hB.curr_reg raise_quiet
  have hpush : msgPush b (s.intChild i) 0 Cap.null Cap.null (s.raise i) =
      if (s.pending (s.intChild i)).length < maxMsg - 1 then
        if s.schedStatus (s.intChild i) = .waiting ∧ ¬ s.sched.squeueAEnd < maxActivations then
          .error (.outOfBounds .squeueA)
        else .ok (0, (s.raise i).accept (s.intChild i) (mkMsg ((s.raise i).kernelExceptionFramep 0) Cap.null Cap.null))
      else .ok (-1, s.raise i) := msgPush_eq hBr (hB.child_reg i) _ _
  unfold kernelInterruptOther
  split
  case isFalse hp => rw [if_neg fun h => hp h.1]
  case isTrue hp =>
    split
    · rename_i h0
      rw [if_neg fun h => h.2 h0]
    · rename_i h0
      rw [if_pos ⟨hp, h0⟩]
      show (msgPush b (s.intChild i) 0 Cap.null Cap.null (s.raise i) >>= _) = _
      rw [hpush]
      split
      · split <;> rfl
      · rfl

theorem linesOf_succ {n : Nat} {B : Aid} : linesOf s pending (n + 1) B = linesOf s pending n B ++
    if pending.getLsbD n = true ∧ s.intChild n ≠ 0 ∧ s.intChild n = B then [n] else [] := by
  unfold linesOf
  rw [List.range_succ, List.filter_append, List.filter_cons, List.filter_nil]
  simp only [decide_eq_true_eq]

/-- **One turn of the loop**, after the lines below `n`. -/
theorem Delivered.turn {n : Nat} (h : Delivered pending n s m) :
    Sat (kernelInterruptOther b pending n m) (Delivered pending (n + 1) s)
      (fun st => st = .panic .queueFullInt → pending.getLsbD n = true ∧ s.intChild n ≠ 0 ∧
        (m.pending (s.intChild n)).length = maxMsg - 1) := by
  rw [kernelInterruptOther_eq h.base, h.child]
  split
  case isFalse hno =>
    refine sat_ok.2 ⟨h.base, h.child, fun j => ?_, fun B => ?_⟩
    · have hj : (j < n + 1 ∧ pending.getLsbD j = true ∧ s.intChild j ≠ 0) ↔
          (j < n ∧ pending.getLsbD j = true ∧ s.intChild j ≠ 0) :=
        ⟨fun ⟨hlt, hd⟩ => ⟨Nat.lt_of_le_of_ne (Nat.le_of_lt_succ hlt) fun he => hno (he ▸ hd), hd⟩,
          fun ⟨hlt, hd⟩ => ⟨Nat.lt_succ_of_lt hlt, hd⟩⟩
      rw [h.mask, decide_eq_decide.2 hj]
    · obtain ⟨ms, hms, hall⟩ := h.msgs B
      have hnone : ¬ (pending.getLsbD n = true ∧ s.intChild n ≠ 0 ∧ s.intChild n = B) :=
        fun hd => hno ⟨hd.1, hd.2.1⟩
      exact ⟨ms, hms, by rwa [linesOf_succ, if_neg hnone, List.append_nil]⟩
  case isTrue hyes =>
    split
    case isFalse hfull =>
      have hle : (m.pending (s.intChild n)).length ≤ maxMsg - 1 := RingBuffer.contents_length_le (h.base.ring_wf _)
      exact sat_error.2 fun _ => ⟨hyes.1, hyes.2, by omega⟩
    split
    · exact sat_error.2 nofun
    rename_i hroom _
    have hBr : Base (m.raise n) := h.base.quiet h.base.curr_reg raise_quiet
    have hreg : (m.raise n).Registered (s.intChild n) := h.child ▸ h.base.child_reg n
    refine sat_ok.2 ⟨hBr.accept hreg hroom, ?_, fun j => ?_, fun B => ?_⟩
    · rw [State.accept_intChild]
      exact h.child
    · have hmask : ((m.raise n).accept (s.intChild n)
          (mkMsg ((m.raise n).kernelExceptionFramep 0) Cap.null Cap.null)).statusIm =
          m.statusIm &&& ~~~((1 : BitVec 8) <<< n) := by
        unfold State.accept
        split <;> rfl
      rw [hmask, Mask.getLsbD_clear, h.mask, Bool.and_assoc]
      apply congrArg
      by_cases hj : j = n
      · subst hj
        simp [hyes]
      · have hlt : j < n + 1 ↔ j < n := by omega
        simp [hj, hlt]
    · obtain ⟨ms, hms, hall⟩ := h.msgs B
      have hra : (m.raise n).accepted B = s.accepted B ++ ms := hms
      rw [accept_accepted, hra, linesOf_succ]
      by_cases hB : B = s.intChild n
      · rw [if_pos hB, if_pos ⟨hyes.1, hyes.2, hB.symm⟩]
        exact ⟨ms ++ [_], List.append_assoc _ _ _, List.rel_append hall (.cons (raise_msg m n) .nil)⟩
      · rw [if_neg hB, if_neg fun hd => hB hd.2.2.symm, List.append_nil]
        exact ⟨ms, rfl, hall⟩

/-- **The loop over the lines.**  It panics where a message finds no room, and nowhere else. -/
theorem kernelInterruptOthers_delivered (hr : Ready c s) (hrun : Runs s) (he : ∃ p n, e.cause = .interrupt p n)
    (pending : BitVec 8) (n : Nat) :
    Sat (kernelInterruptOthers b pending n s) (Delivered pending n s)
      (fun st => st = .panic .queueFullInt → ∃ m i, ReflTransGen (Routine b e c) s m ∧ i < n ∧
        pending.getLsbD i = true ∧ s.intChild i ≠ 0 ∧ (m.pending (s.intChild i)).length = maxMsg - 1) := by
  induction n with
  | zero => exact sat_ok.2 ⟨hr.base, rfl, by simp, fun B => ⟨[], by simp, by simp [linesOf]⟩⟩
  | succ n ih =>
    have hpath : ∀ m, kernelInterruptOthers b pending n s = .ok m → ReflTransGen (Routine b e c) s m := fun m hm =>
      (Sat.ok (kernelInterruptOthers_leads hr hrun he pending n) hm).1
    refine .bind (P := fun m => Delivered pending n s m ∧ ReflTransGen (Routine b e c) s m) ?_ fun m hm => ?_
    · refine .intro (fun m hm => ⟨ih.ok hm, hpath m hm⟩) fun st hst hp => ?_
      obtain ⟨m, i, hm, hi, hd⟩ := ih.error hst hp
      exact ⟨m, i, hm, Nat.lt_succ_of_lt hi, hd⟩
    · exact hm.1.turn.mono (fun _ => id) fun st hst hp => ⟨m, n, hm.2, Nat.lt_succ_self n, hst hp⟩

/-! ## Entries -/

/-- The line is delivered: it is pending, open, and somebody has it. -/
def Delivers (ipending : BitVec 8) (s : State) (i : Nat) : Prop :=
  i < 7 ∧ ipending.getLsbD i = true ∧ s.statusIm.getLsbD i = true ∧ s.intChild i ≠ 0

instance (ipending : BitVec 8) (s : State) (i : Nat) : Decidable (Delivers ipending s i) :=
  inferInstanceAs (Decidable (_ ∧ _))

/-- The lines an interrupt delivers to `B`, in order. -/
def deliveredTo (ipending : BitVec 8) (s : State) (B : Aid) : List Nat :=
  (List.range 7).filter fun i => decide (Delivers ipending s i ∧ s.intChild i = B)

/-- The entry is this system call with this line as its argument. -/
def CallsOn (sysn : Sysn) (e : Entry) (i : Nat) : Prop :=
  i < 7 ∧ (∃ mem, e.cause = .syscall mem) ∧ sysnOf (e.regs.mf .v0) = some sysn ∧ intArg (e.regs.mf .a0) = i

/-- **What an entry does to the interrupt lines.**  A line changes hands when it is free, to the activation that asks for
it; it is opened by the activation that has it; and an interrupt puts one message for each line it delivers into the
queue of whoever has the line, and closes the line. -/
structure LineStep (e : Entry) (s s' : State) : Prop where
  child : ∀ i, s'.intChild i = s.intChild i ∨
    (CallsOn .interruptRegister e i ∧ s.intChild i = 0 ∧ s'.intChild i = s.kernelCurrAct)
  opened : ∀ i, s.statusIm.getLsbD i = false → s'.statusIm.getLsbD i = true →
    CallsOn .interruptEnable e i ∧ s.intChild i = s.kernelCurrAct
  closed : ∀ p n i, e.cause = .interrupt p n → Delivers p s i → s'.statusIm.getLsbD i = false
  delivery : ∀ p n B, e.cause = .interrupt p n →
    ∃ ms, s'.accepted B = s.accepted B ++ ms ∧ List.Forall₂ LineMsg (deliveredTo p s B) ms

/-- **How an entry may stop**, as far as the lines are concerned: not at the table, and for want of room only where the
queue of a line that is delivered is full. -/
def LineEnd (b : Build) (e : Entry) (s : State) (st : Stop) : Prop :=
  st ≠ .outOfBounds .intChild ∧ (st = .panic .queueFullInt → ∃ p n i m, e.cause = .interrupt p n ∧ Delivers p s i ∧
    Mid b e s m ∧ (m.pending (s.intChild i)).length = maxMsg - 1)

theorem getLsbD_others (ipending : BitVec 8) (i : Nat) : (ipending &&& othersInterruptsMask s).getLsbD i =
    (ipending.getLsbD i && s.statusIm.getLsbD i && decide (i < 7)) := by
  have hseven : (0x7F : BitVec 8).getLsbD i = decide (i < 7) := Nat.testBit_two_pow_sub_one 7 i
  unfold othersInterruptsMask
  rw [BitVec.getLsbD_and, BitVec.getLsbD_and, hseven, Bool.and_assoc]

theorem delivers_iff {ipending : BitVec 8} : Delivers ipending s i ↔
    i < 7 ∧ (ipending &&& othersInterruptsMask s).getLsbD i = true ∧ s.intChild i ≠ 0 := by
  rw [getLsbD_others]
  simp only [Delivers, Bool.and_eq_true, decide_eq_true_eq]
  tauto

theorem linesOf_others {ipending : BitVec 8} {B : Aid} :
    linesOf s (ipending &&& othersInterruptsMask s) 7 B = deliveredTo ipending s B := by
  refine List.filter_congr fun i hi => decide_eq_decide.2 ?_
  rw [delivers_iff, and_assoc, and_assoc]
  exact (and_iff_right (List.mem_range.1 hi)).symm

/-- **An interrupt.** -/
theorem kernelEntry_interrupt {p : BitVec 8} {n : BitVec 64} (hB : Base s) (hR : Runs s) (hc : e.cause = .interrupt p n) :
    Sat (kernelEntry b e s) (LineStep e s) (LineEnd b e s) := by
  have hq : Quiet s.kernelCurrAct s (saved e s) := saved_quiet
  have hr : Ready s.kernelCurrAct (saved e s) := (Ready.of_base hB).quiet hq
  have hmask : othersInterruptsMask (saved e s) = othersInterruptsMask s := rfl
  rw [kernelEntry_eq hB, hc]
  show Sat (kernelInterrupt b p n (saved e s)) _ _
  rw [kernelInterrupt_others, hmask]
  -- the timer leaves the lines alone and sends nothing
  refine .bind (P := fun m => m.lines = s.lines ∧ (∀ B, m.accepted B = s.accepted B) ∧ Runs m ∧
    ReflTransGen (Routine b e s.kernelCurrAct) (saved e s) m) ?_ fun m ⟨hlines, hacc, hrun, hm⟩ => ?_
  · split
    · refine .intro (fun m hm => ?_) fun st hst => ?_
      · have hlines : m.lines = (saved e s).lines := (kernelTimer_plain n).lines.eq hm
        obtain ⟨hpath, hrun⟩ := Sat.ok (kernelTimer_leads (e := e) hr n) hm
        obtain ⟨k, hk, hm⟩ := bind_eq_ok.1 hm
        refine ⟨hlines, fun B => ?_, hrun, hpath⟩
        have hacc : k.accepted B = (saved e s).accepted B := schedReschedule_accepted hr 0 hk B
        split at hm
        · obtain rfl := Except.ok.inj hm
          exact hacc
        · cases hm
      · have hord : Ordinary st := (kernelTimer_plain n).stop hst
        exact ⟨hord.2.2, fun hp => absurd hp hord.2.1⟩
    · exact sat_ok.2 ⟨rfl, fun _ => rfl, hR.quiet hq, .refl⟩
  have hchild : m.intChild = s.intChild := congrArg Prod.fst hlines
  have him : m.statusIm = s.statusIm := congrArg Prod.snd hlines
  have hlist : ∀ B, linesOf m (p &&& othersInterruptsMask s) 7 B = deliveredTo p s B := fun B => by
    rw [← linesOf_others]
    unfold linesOf
    rw [hchild]
  have hloop := kernelInterruptOthers_delivered (b := b) (hr.path hm) hrun ⟨p, n, hc⟩
    (p &&& othersInterruptsMask s) 7
  refine .intro (fun s' hs' => ?_) fun st hst => ?_
  · have h := hloop.ok hs'
    refine ⟨fun i => .inl (by rw [h.child, hchild]), fun i h0 h1 => ?_, fun p' n' i hc' hd => ?_, fun p' n' B hc' => ?_⟩
    · rw [h.mask, him, h0] at h1
      cases h1
    · obtain ⟨rfl, rfl⟩ := Cause.interrupt.inj (hc.symm.trans hc')
      rw [h.mask, him, hchild, decide_eq_true (delivers_iff.1 hd)]
      simp
    · obtain ⟨rfl, rfl⟩ := Cause.interrupt.inj (hc.symm.trans hc')
      obtain ⟨ms, hms, hall⟩ := h.msgs B
      rw [hacc] at hms
      rw [hlist] at hall
      exact ⟨ms, hms, hall⟩
  · refine ⟨?_, fun hp => ?_⟩
    · rcases (kernelInterruptOthers_points _ 7).stop hst with hord | hp
      · exact hord.2.2
      · rw [hp]
        decide
    · obtain ⟨k, i, hk, hi, hbit, hne, hfull⟩ := hloop.error hst hp
      rw [hchild] at hne hfull
      exact ⟨p, n, i, k, hc, delivers_iff.2 ⟨hi, hbit, hne⟩, ⟨_, .quiet hq, hm.trans hk⟩, hfull⟩

/-- **Every other entry** hands out a line, opens one, or leaves them as they are. -/
theorem kernelEntry_lines (hB : Base s) (h : kernelEntry b e s = .ok s') (hi : ∀ p n, e.cause ≠ .interrupt p n) :
    s'.lines = s.lines ∨
      (∃ i, CallsOn .interruptRegister e i ∧ s.intChild i = 0 ∧
        s'.lines = (Function.update s.intChild i s.kernelCurrAct, s.statusIm)) ∨
      ∃ i, CallsOn .interruptEnable e i ∧ s.intChild i = s.kernelCurrAct ∧
        s'.lines = (s.intChild, s.statusIm ||| ((1 : BitVec 8) <<< i)) := by
  by_cases hreg : ∃ mem, Registers e mem
  · obtain ⟨mem, hm⟩ := hreg
    obtain ⟨hlt, name, frame, ref, id, ctrl, -, -, rfl⟩ := kernelEntry_register hB h hm
    exact .inl rfl
  cases hc : e.cause with
  | interrupt p n => exact absurd hc (hi p n)
  | ccall =>
    rw [kernelEntry_ccall hB hc] at h
    split at h
    · have hk : s'.lines = (returning e s).lines := (kernelCcall_fixed.map Prod.snd).eq h
      exact .inl hk
    · cases h
  | creturn =>
    rw [kernelEntry_eq hB, hc] at h
    have hk : s'.lines = (returning e s).lines := kernelCreturn_plain.lines.eq h
    exact .inl hk
  | fault =>
    rw [kernelEntry_eq hB, hc] at h
    cases h
  | syscall mem =>
    rw [kernelEntry_syscall hB hc] at h
    split at h
    case h_2 => cases h
    rename_i sysn hsys
    obtain ⟨m, hm, h⟩ := bind_eq_ok.1 h
    obtain rfl := Except.ok.inj h
    have hne : sysn ≠ .actRegister := fun he => hreg ⟨mem, hc, he ▸ hsys⟩
    by_cases hl : sysn.onLine
    · have ha0 : (saved e s).frame.mf .a0 = e.regs.mf .a0 := by rw [saved_frame hB]
      obtain rfl | rfl := hl
      · obtain ⟨p, hp, hm⟩ := bind_eq_ok.1 hm
        obtain rfl := Except.ok.inj hm
        rw [ha0] at hp
        rcases (kernelInterruptRegister_sat _).ok hp with hk | ⟨i, hlt, hn, hfree, hk⟩
        · have hlines : p.2.lines = (saved e s).lines := congrArg State.lines hk
          exact .inl hlines
        · exact .inr (.inl ⟨i, ⟨hlt, ⟨mem, hc⟩, hsys, hn⟩, hfree, congrArg State.lines hk⟩)
      · obtain ⟨p, hp, hm⟩ := bind_eq_ok.1 hm
        obtain rfl := Except.ok.inj hm
        rw [ha0] at hp
        rcases (kernelInterruptEnable_sat _).ok hp with hk | ⟨i, hlt, hn, howner, hk⟩
        · have hlines : p.2.lines = (saved e s).lines := congrArg State.lines hk
          exact .inl hlines
        · exact .inr (.inr ⟨i, ⟨hlt, ⟨mem, hc⟩, hsys, hn⟩, howner, congrArg State.lines hk⟩)
    · have hk : m.lines = (saved e s).lines := (syscallDemux_plain hne hl).lines.eq hm
      exact .inl hk

/-- **A call on line 7 reads past the table.** -/
theorem kernelEntry_lineSeven (hB : Base s) (h : OnLineSeven e) : kernelEntry b e s = .error (.outOfBounds .intChild) := by
  obtain ⟨mem, sysn, hc, hsys, hl, hseven⟩ := h
  have hframe : (saved e s).frame = e.regs := saved_frame hB
  have hregister : ∀ k : State, kernelInterruptRegister 7 k = .error (.outOfBounds .intChild) := fun k => rfl
  have henable : ∀ k : State, kernelInterruptEnable 7 k = .error (.outOfBounds .intChild) := fun k => rfl
  rw [kernelEntry_syscall hB hc, hsys]
  obtain rfl | rfl := hl
  · simp only [syscallDemux, syscallInterruptRegister, hframe, hseven, hregister, error_bind]
  · simp only [syscallDemux, syscallInterruptEnable, hframe, hseven, henable, error_bind]

theorem LineStep.of_lines (hi : ∀ p n, e.cause ≠ .interrupt p n) (h : s'.lines = s.lines ∨
      (∃ i, CallsOn .interruptRegister e i ∧ s.intChild i = 0 ∧
        s'.lines = (Function.update s.intChild i s.kernelCurrAct, s.statusIm)) ∨
      ∃ i, CallsOn .interruptEnable e i ∧ s.intChild i = s.kernelCurrAct ∧
        s'.lines = (s.intChild, s.statusIm ||| ((1 : BitVec 8) <<< i))) : LineStep e s s' := by
  refine ⟨fun j => ?_, fun j h0 h1 => ?_, fun p n i hc => absurd hc (hi p n), fun p n B hc => absurd hc (hi p n)⟩
  · rcases h with h | ⟨i, hcall, hfree, h⟩ | ⟨i, -, -, h⟩
    · exact .inl (congrFun (congrArg Prod.fst h) j)
    · have hj : s'.intChild j = Function.update s.intChild i s.kernelCurrAct j := congrFun (congrArg Prod.fst h) j
      by_cases hji : j = i
      · subst hji
        exact .inr ⟨hcall, hfree, by rw [hj, Function.update_self]⟩
      · exact .inl (by rw [hj, Function.update_of_ne hji])
    · exact .inl (congrFun (congrArg Prod.fst h) j)
  · have him : ∀ im, s'.lines.2 = im → s'.statusIm = im := fun _ => id
    rcases h with h | ⟨i, -, -, h⟩ | ⟨i, hcall, howner, h⟩
    · rw [him _ (congrArg Prod.snd h)] at h1
      exact absurd (h0.symm.trans h1) Bool.false_ne_true
    · rw [him _ (congrArg Prod.snd h)] at h1
      exact absurd (h0.symm.trans h1) Bool.false_ne_true
    · rw [him _ (congrArg Prod.snd h), Mask.getLsbD_set, h0, Bool.false_or, decide_eq_true_eq] at h1
      exact h1.1 ▸ ⟨hcall, howner⟩

/-- **The lines in one entry**: they are safe unless it calls on line 7. -/
theorem kernelEntry_safe (hB : Base s) (hR : Runs s) :
    Sat (kernelEntry b e s) (LineStep e s) (LineEnd b e s) ↔ ¬ OnLineSeven e := by
  constructor
  · intro h h7
    exact (h.error (kernelEntry_lineSeven hB h7)).1 rfl
  intro h7
  by_cases hi : ∃ p n, e.cause = .interrupt p n
  · obtain ⟨p, n, hc⟩ := hi
    exact kernelEntry_interrupt hB hR hc
  · have hne : ∀ p n, e.cause ≠ .interrupt p n := fun p n hc => hi ⟨p, n, hc⟩
    refine .intro (fun s' hs' => .of_lines hne (kernelEntry_lines hB hs' hne)) fun st hst => ?_
    rcases kernelEntry_stop hB hst with hord | ⟨rfl, -⟩ | ⟨-, hl⟩ | ⟨-, hc⟩
    · exact ⟨hord.2.2, fun hp => absurd hp hord.2.1⟩
    · exact ⟨by decide, nofun⟩
    · exact absurd hl h7
    · exact absurd hc hi

/-! ## Runs -/

theorem kernelStep.lines (h : kernelStep b s e s') (hB : Base s) (hR : Runs s) : LineStep e s s' := by
  obtain ⟨-, h⟩ := h
  refine ((kernelEntry_safe hB hR).2 fun h7 => ?_).ok h
  rw [kernelEntry_lineSeven hB h7] at h
  cases h

/-- **A line keeps its first owner.** -/
theorem line_keeps {newer older : List (Transition.Step State Entry)} {st : Transition.Step State Entry}
    (hr : KernelRun b (newer ++ st :: older) s) (hne : st.pre.intChild i ≠ 0) : s.intChild i = st.pre.intChild i := by
  refine Transition.Run.between (R := fun s t => s.intChild i ≠ 0 → t.intChild i = s.intChild i)
    (fun s t u hst htu h0 => ?_) (fun tr s e s' hr hst h0 => ?_) hr hne
  · have hs := hst h0
    exact (htu (hs ▸ h0)).trans hs
  · rcases (hst.lines (KernelRun.base hr).1 (KernelRun.base hr).2).child i with hs | ⟨-, hfree, -⟩
    · exact hs
    · exact absurd hfree h0

/-- **A closed line stays closed until its owner opens it.** -/
theorem line_closed {newer older : List (Transition.Step State Entry)} {st : Transition.Step State Entry}
    (hr : KernelRun b (newer ++ st :: older) s) (hne : st.pre.intChild i ≠ 0)
    (h0 : st.post.statusIm.getLsbD i = false) : s.statusIm.getLsbD i = false ∨
      ∃ st' ∈ newer, CallsOn .interruptEnable st'.ev i ∧ st'.pre.kernelCurrAct = st.pre.intChild i := by
  induction newer generalizing s with
  | nil => exact .inl (hr.post_eq ▸ h0)
  | cons x newer ih =>
    cases hr with
    | @cons _ t _ e hr hst =>
      rcases ih hr with hclosed | ⟨st', hmem, hopen⟩
      · cases hs : s.statusIm.getLsbD i with
        | false => exact .inl rfl
        | true =>
          obtain ⟨hcall, howner⟩ := (hst.lines (KernelRun.base hr).1 (KernelRun.base hr).2).opened i hclosed hs
          exact .inr ⟨⟨t, e, s⟩, List.mem_cons_self, hcall, howner.symm.trans (line_keeps hr hne)⟩
      · exact .inr ⟨st', List.mem_cons_of_mem _ hmem, hopen⟩

/-- **The interrupt lines, over every run.**  An entry treats them as `LineStep` says, and stays inside the table, if and
only if it does not call on line 7.  A line that has an owner keeps it; and once a line is delivered it is closed until
that owner opens it. -/
theorem lines_owned (hr : KernelRun b tr s) :
    (∀ e, Unseals b e s → (Sat (kernelEntry b e s) (LineStep e s) (LineEnd b e s) ↔ ¬ OnLineSeven e)) ∧
    ∀ newer st older, tr = newer ++ st :: older → ∀ i,
      (st.pre.intChild i ≠ 0 → s.intChild i = st.pre.intChild i) ∧
      ∀ p n, st.ev.cause = .interrupt p n → Delivers p st.pre i →
        s.statusIm.getLsbD i = false ∨
          ∃ st' ∈ newer, CallsOn .interruptEnable st'.ev i ∧ st'.pre.kernelCurrAct = st.pre.intChild i := by
  refine ⟨fun e _ => kernelEntry_safe hr.base.1 hr.base.2, ?_⟩
  rintro newer st older rfl i
  refine ⟨line_keeps hr, fun p n hc hd => line_closed hr hd.2.2.2 ?_⟩
  obtain ⟨hr', hst, -⟩ := Transition.Run.cut hr
  exact (hst.lines (KernelRun.base hr').1 (KernelRun.base hr').2).closed p n i hc hd

/-- A call on a line: 50 registers it, 51 enables it. -/
def lineEntry (v0 line : BitVec 64) : Entry :=
  ⟨(userRegs v0 0 Cap.null Cap.null Cap.null Cap.null).setMf .a0 line, .syscall ⟨fun _ => 0, none, false⟩⟩

/-- Init takes line 3, opens it and gets an interrupt: the line is closed, and init may open it again. -/
theorem lines_owned_three : ∃ s : State, s.intChild 3 = 1 ∧ (s.pending 1).length = 1 ∧ s.statusIm.getLsbD 3 = false ∧
    Sat (kernelEntry debugBuild (lineEntry 51 3) s) (LineStep (lineEntry 51 3) s)
      (LineEnd debugBuild (lineEntry 51 3) s) := by
  obtain ⟨tr, s, hr, -, hp⟩ := scriptSat_run debugBuild [lineEntry 50 3, lineEntry 51 3, interruptEntry 8]
    (fun s => s.intChild 3 == 1 && (s.pending 1).length == 1 && !s.statusIm.getLsbD 3 &&
      admissible debugBuild s (lineEntry 51 3).regs) (by decide +kernel)
  simp only [Bool.and_eq_true, beq_iff_eq, Bool.not_eq_true'] at hp
  obtain ⟨⟨⟨howner, hlen⟩, hclosed⟩, hA⟩ := hp
  have hnot : ¬ OnLineSeven (lineEntry 51 3) := by
    rintro ⟨mem, sysn, -, -, -, hseven⟩
    exact absurd hseven (by decide)
  exact ⟨s, howner, hlen, hclosed, ((lines_owned hr).1 _ (admissible_sound hA).unseals).2 hnot⟩

/-- **Line 7 passes the check and is not in the table.** -/
theorem line_seven_escapes : validateNumber 7 = some 7 ∧ ∃ tr s, KernelRun debugBuild tr s ∧
    Admissible debugBuild s (lineEntry 50 7).regs ∧
    kernelEntry debugBuild (lineEntry 50 7) s = .error (.outOfBounds .intChild) := by
  obtain ⟨tr, s, hr, -, hA⟩ := scriptSat_run debugBuild []
    (fun s => admissible debugBuild s (lineEntry 50 7).regs) (by decide +kernel)
  have hseven : OnLineSeven (lineEntry 50 7) := ⟨_, .interruptRegister, rfl, by decide, .inl rfl, by decide⟩
  exact ⟨rfl, tr, s, hr, admissible_sound hA, kernelEntry_lineSeven hr.base.1 hseven⟩

end Kernel
end CheriOS
