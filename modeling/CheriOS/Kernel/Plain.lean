import CheriOS.Kernel.Fifo
import CheriOS.Kernel.Reply
/-!
# Plain — what the parts of an entry leave alone, and where they stop

The scheduler, the queues, `ccall` and `creturn` move no program counter and touch no interrupt line; program counters
move in `kernel_skip_instr` alone.  The same walk through the code says which part of an entry each stop belongs to.
-/
namespace CheriOS
namespace Kernel

open Outcome
open Relation (ReflTransGen)

variable {b : Build} {e : Entry} {c act : Aid} {s s' m k : State} {mem : UserMem}

/-! ## Program counters -/

/-- How many activations there are, what default identifiers are sealed from, and whose they are. -/
def State.members (s : State) : Nat × Cap × (Aid → Cap) :=
  (s.kernelNextAct, s.actDefaultId, fun a => (s.kernelActs a).actDefaultId)

/-- Where every activation goes on, and what a registration alone changes. -/
def State.points (s : State) : (Aid → BitVec 64 × Cap) × (Nat × Cap × (Aid → Cap)) :=
  (fun a => ((s.kernelExceptionFramep a).mf .pc, (s.kernelExceptionFramep a).cf .pcc), s.members)

/-- The interrupt lines: whose they are, and which of them are open. -/
def State.lines (s : State) : (Nat → Aid) × BitVec 8 := (s.intChild, s.statusIm)

/-- What only the frame, the lines or the registration asked for by a cause may change. -/
def State.fixed (s : State) :
    ((Aid → BitVec 64 × Cap) × (Nat × Cap × (Aid → Cap))) × ((Nat → Aid) × BitVec 8) := (s.points, s.lines)

/-- Three stops have one place each in the kernel: the panics of a synchronous call and of an interrupt for want of room,
and the table of interrupt lines. -/
def Ordinary (st : Stop) : Prop :=
  st ≠ .panic .queueFullCsync ∧ st ≠ .panic .queueFullInt ∧ st ≠ .outOfBounds .intChild

instance (st : Stop) : Decidable (Ordinary st) := inferInstanceAs (Decidable (_ ∧ _))

/-- **A part of an entry that moves no program counter, registers nobody, touches no line and has only ordinary
stops.** -/
abbrev Plain (s : State) (r : Except Stop State) : Prop := Keeps State.fixed Ordinary s r

theorem Plain.points {r : Except Stop State} (h : Plain s r) : Keeps State.points Ordinary s r := h.map Prod.fst

theorem Plain.lines {r : Except Stop State} (h : Plain s r) : Keeps State.lines Ordinary s r := h.map Prod.snd

theorem setFrame_points {f : RegFrame} (hpc : f.mf .pc = (s.kernelExceptionFramep act).mf .pc)
    (hpcc : f.cf .pcc = (s.kernelExceptionFramep act).cf .pcc) : (s.setFrame act f).points = s.points := by
  refine Prod.ext (funext fun a => ?_) rfl
  by_cases ha : a = act
  · simp [State.points, ha, hpc, hpcc]
  · simp [State.points, ha]

theorem setFrame_fixed {f : RegFrame} (hpc : f.mf .pc = (s.kernelExceptionFramep act).mf .pc)
    (hpcc : f.cf .pcc = (s.kernelExceptionFramep act).cf .pcc) : (s.setFrame act f).fixed = s.fixed :=
  Prod.ext (setFrame_points hpc hpcc) rfl

theorem setAct_fixed {r : Act} (hid : r.actDefaultId = (s.kernelActs act).actDefaultId) :
    (s.setAct act r).fixed = s.fixed := by
  have hids : (fun a => ((s.setAct act r).kernelActs a).actDefaultId) = fun a => (s.kernelActs a).actDefaultId := by
    funext a
    by_cases ha : a = act
    · simp [ha, hid]
    · simp [ha]
  unfold State.fixed State.points State.members
  rw [hids]
  rfl

theorem setSchedStatus_fixed {st : SchedStatus} : (s.setSchedStatus act st).fixed = s.fixed := setAct_fixed rfl

theorem setStatus_fixed {st : Status} : (s.setStatus act st).fixed = s.fixed := setAct_fixed rfl

theorem issue_fixed : (s.issue act).fixed = s.fixed :=
  setAct_fixed (s := { s with unique := s.unique + 1 })
    (r := { s.kernelActs act with expectedReply := s.unique + 1 }) rfl

theorem picked_fixed : s.picked.fixed = s.fixed := by
  unfold State.fixed State.points State.members State.lines
  rw [State.picked_eq]

/-! ### Values -/

theorem kernelAssert_ordinary (e : Bool) (site : Site) : Sat (kernelAssert b e site) (fun _ => True) Ordinary := by
  unfold kernelAssert
  split
  · exact sat_ok.2 trivial
  · exact sat_error.2 ⟨nofun, nofun, nofun⟩

theorem kernelSeal_ordinary {p : Cap} {o : Nat} : Sat (kernelSeal p o) (fun _ => True) Ordinary :=
  .intro (fun _ _ => trivial) (fun st hst => by rw [kernelSeal_stop hst]; decide)

theorem kernelUnseal_ordinary {p : Cap} {o : Nat} : Sat (kernelUnseal p o) (fun _ => True) Ordinary :=
  .intro (fun _ _ => trivial) (fun st hst => by rw [kernelUnseal_stop hst]; decide)

theorem derefAct_ordinary {p : Cap} : Sat (derefAct b p) (fun _ => True) Ordinary := by
  unfold derefAct
  split
  · exact sat_ok.2 trivial
  · exact sat_error.2 (by decide)

theorem ctrlAid_ordinary {ctrl : Cap} : Sat (ctrlAid b ctrl s) (fun _ => True) Ordinary :=
  .bind kernelUnseal_ordinary fun _ _ => .bind derefAct_ordinary fun _ _ => sat_ok.2 trivial

theorem actSealIdentifier_ordinary {identifier : Cap} : Sat (actSealIdentifier identifier s) (fun _ => True) Ordinary := by
  unfold actSealIdentifier
  split
  · exact kernelSeal_ordinary
  · exact sat_error.2 (by decide)

/-! ### Scheduling -/

theorem qadd_plain : Plain s (qadd act s) := by
  unfold qadd
  split
  · exact .ok rfl
  · exact .error (by decide)

theorem qdel_plain : Plain s (qdel b act s) := by
  unfold qdel
  refine .after (kernelAssert_ordinary _ _) fun _ => ?_
  split
  · exact .error (by decide)
  · exact .ok rfl

theorem schedD2a_plain {st : SchedStatus} : Plain s (schedD2a b act st s) :=
  qadd_plain.bind fun _ => .after (kernelAssert_ordinary _ _) fun _ => .ok setSchedStatus_fixed

theorem schedA2d_plain {st : SchedStatus} : Plain s (schedA2d b act st s) :=
  qdel_plain.bind fun _ => .after (kernelAssert_ordinary _ _) fun _ => .ok setSchedStatus_fixed

theorem schedDelete_plain : Plain s (schedDelete b act s) := by
  unfold schedDelete
  split
  · exact qdel_plain.bind fun _ => .ok (setStatus_fixed)
  · exact .ok (setStatus_fixed)

theorem schedSchedule_plain : Plain s (schedSchedule b act s) := by
  unfold schedSchedule msgPop
  refine .after (kernelAssert_ordinary _ _) fun _ => .bind (.after (kernelAssert_ordinary _ _) fun _ =>
    .after (kernelAssert_ordinary _ _) fun _ => .ok ?_) fun _ => .ok setSchedStatus_fixed
  exact setFrame_fixed (by simp [loadMsg]) (by simp [loadMsg])

theorem turn_plain {f : State → Except Stop State} (hf : ∀ m, Plain m (f m)) :
    Plain s (if s.schedStatus act = .schedulable then schedSchedule b act s >>= f else .ok s >>= f) := by
  split
  · exact schedSchedule_plain.bind hf
  · exact hf s

theorem tryRun_plain (fuel : Nat) : ∀ (hint : Aid) (s : State), Plain s (tryRun b fuel hint s) := by
  induction fuel with
  | zero =>
    intro hint s
    unfold tryRun
    split
    · exact .error (by decide)
    · refine turn_plain fun m => ?_
      dsimp only
      split
      · exact .error (by decide)
      · exact .ok rfl
  | succ fuel ih =>
    intro hint s
    unfold tryRun
    split
    · exact .error (by decide)
    · refine turn_plain fun m => ?_
      dsimp only
      split
      · exact (ih _ _).of_eq picked_fixed
      · exact .ok rfl

theorem schedReschedule_plain (hint : Aid) : Plain s (schedReschedule b hint s) := by
  unfold schedReschedule
  split
  · exact (tryRun_plain _ _ _).of_eq picked_fixed
  · exact tryRun_plain _ _ _

theorem actWait_plain (hint : Aid) : Plain s (actWait b act hint s) := by
  unfold actWait
  refine .after (kernelAssert_ordinary _ _) fun _ => ?_
  split
  · exact schedA2d_plain.bind fun _ => schedReschedule_plain hint
  · exact (schedReschedule_plain hint).of_eq setSchedStatus_fixed

/-! ### Giving way -/

/-- **Giving way to another activation** moves no tick and checks no token. -/
abbrev GivesWay (s : State) (r : Except Stop State) : Prop :=
  Keeps State.kernelLastTimer (fun st => st ≠ .freeze .badSyncCreturn ∧ st ≠ .assertion .kernelCreturn) s r

theorem kernelAssert_gives (e : Bool) {site : Site} (h : site ≠ .kernelCreturn) : Sat (kernelAssert b e site)
    (fun _ => True) (fun st => st ≠ .freeze .badSyncCreturn ∧ st ≠ .assertion .kernelCreturn) := by
  unfold kernelAssert
  split
  · exact sat_ok.2 trivial
  · exact sat_error.2 ⟨nofun, fun he => h (Stop.assertion.inj he)⟩

theorem schedSchedule_gives : GivesWay s (schedSchedule b act s) := by
  unfold schedSchedule msgPop
  refine .after (kernelAssert_gives _ (by decide)) fun _ => .bind (.after (kernelAssert_gives _ (by decide)) fun _ =>
    .after (kernelAssert_gives _ (by decide)) fun _ => .ok rfl) fun _ => .ok rfl

theorem turn_gives {f : State → Except Stop State} (hf : ∀ m, GivesWay m (f m)) :
    GivesWay s (if s.schedStatus act = .schedulable then schedSchedule b act s >>= f else .ok s >>= f) := by
  split
  · exact schedSchedule_gives.bind hf
  · exact hf s

theorem tryRun_gives (fuel : Nat) : ∀ (hint : Aid) (s : State), GivesWay s (tryRun b fuel hint s) := by
  have hpick : ∀ m : State, m.picked.kernelLastTimer = m.kernelLastTimer := fun m => by rw [State.picked_eq]
  induction fuel with
  | zero =>
    intro hint s
    unfold tryRun
    split
    · exact .error (by decide)
    · refine turn_gives fun m => ?_
      dsimp only
      split
      · exact .error (by decide)
      · exact .ok rfl
  | succ fuel ih =>
    intro hint s
    unfold tryRun
    split
    · exact .error (by decide)
    · refine turn_gives fun m => ?_
      dsimp only
      split
      · exact (ih _ _).of_eq (hpick m)
      · exact .ok rfl

theorem schedReschedule_gives (hint : Aid) : GivesWay s (schedReschedule b hint s) := by
  unfold schedReschedule
  split
  · exact (tryRun_gives _ _ _).of_eq (by rw [← State.picked, State.picked_eq])
  · exact tryRun_gives _ _ _

theorem schedA2d_gives {st : SchedStatus} : GivesWay s (schedA2d b act st s) := by
  unfold schedA2d qdel
  refine .bind (.after (kernelAssert_gives _ (by decide)) fun _ => ?_) fun _ =>
    .after (kernelAssert_gives _ (by decide)) fun _ => .ok rfl
  split
  · exact .error (by decide)
  · exact .ok rfl

theorem actWait_gives (hint : Aid) : GivesWay s (actWait b act hint s) := by
  unfold actWait
  refine .after (kernelAssert_gives _ (by decide)) fun _ => ?_
  split
  · exact schedA2d_gives.bind fun _ => schedReschedule_gives hint
  · exact (schedReschedule_gives hint).of_eq rfl

/-! ### Messages -/

theorem msgPush_plain {dest src : Aid} {identifier token : Cap} :
    Sat (msgPush b dest src identifier token s) (fun p => p.2.fixed = s.fixed) Ordinary := by
  unfold msgPush
  refine .bind (kernelAssert_ordinary _ _) fun _ _ => .bind (P := fun _ => True) ?_ fun isFull _ => ?_
  · exact .bind (kernelAssert_ordinary _ _) fun _ _ => sat_ok.2 trivial
  split
  · exact sat_ok.2 rfl
  · dsimp only
    split
    · exact .bind schedD2a_plain fun m hm => hm.trans rfl
    · exact sat_ok.2 rfl

/-- What a message call may stop with besides: the panic, where it waits for an answer. -/
def CallStop (cflags : Nat) (st : Stop) : Prop := Ordinary st ∨ (cflags &&& 2 ≠ 0 ∧ st = .panic .queueFullCsync)

theorem kernelCcallCore_fixed (cflags : Nat) : Keeps State.fixed (CallStop cflags) s (kernelCcallCore b cflags s) := by
  have hord : ∀ st, Ordinary st → CallStop cflags st := fun _ => .inl
  have hunseal : ∀ {p : Cap} {o : Nat}, Sat (kernelUnseal p o) (fun _ => True) (CallStop cflags) :=
    kernelUnseal_ordinary.mono (fun _ => id) hord
  have hpush : ∀ {m : State} {dest src : Aid} {identifier token : Cap},
      Sat (msgPush b dest src identifier token m) (fun p => p.2.fixed = m.fixed) (CallStop cflags) :=
    msgPush_plain.mono (fun _ => id) hord
  have hv0 : ∀ m : State, (m.modifyFrame (fun f => f.setMf .v0 0)).fixed = m.fixed := fun m =>
    setFrame_fixed (by simp; rfl) rfl
  unfold kernelCcallCore
  refine .after hunseal fun cs => .after hunseal fun cb => ?_
  split
  · exact .ok rfl
  refine .after (derefAct_ordinary.mono (fun _ => id) hord) fun callee => ?_
  split
  · exact .ok rfl
  by_cases hsync : cflags &&& 2 ≠ 0
  · simp only [hsync, not_false_eq_true, if_true, ne_eq, getSyncToken_eq, ok_bind]
    refine .of_eq (m := s.issue s.kernelCurrAct) issue_fixed (.bind_pair hpush fun p => ?_)
    split
    · exact .error (.inr ⟨hsync, rfl⟩)
    · exact (schedA2d_plain.bind fun m => schedReschedule_plain _).weaken hord
  · have hend : ∀ m : State, Keeps State.fixed (CallStop cflags) m (if cflags &&& 1 ≠ 0 then
        actWait b m.kernelCurrAct (m.kernelActs callee).aid m else .ok m) := fun m => by
      split
      · exact (actWait_plain _).weaken hord
      · exact .ok rfl
    simp only [hsync, if_false, ok_bind]
    refine .bind_pair hpush fun p => ?_
    split
    · exact (hend _).of_eq (hv0 p.2)
    · exact hend _

/-- **`kernel_ccall` moves one program counter**, and panics for a synchronous call only. -/
theorem kernelCcall_fixed :
    Keeps State.fixed (fun st => Ordinary st ∨ (s.frame.mf .v1 = 4 ∧ st = .panic .queueFullCsync))
      (kernelSkipInstr s.kernelCurrAct s) (kernelCcall b s) := by
  unfold kernelCcall
  dsimp only
  split
  · exact (kernelCcallCore_fixed 0).weaken fun st hst => hst.imp id fun h => absurd rfl h.1
  split
  · exact (kernelCcallCore_fixed 1).weaken fun st hst => hst.imp id fun h => absurd rfl h.1
  split
  · rename_i hsel
    exact (kernelCcallCore_fixed 2).weaken fun st hst => hst.imp id fun h => ⟨hsel, h.2⟩
  · exact .ok rfl

/-- **`kernel_creturn` moves one program counter.** -/
theorem kernelCreturn_plain : Plain (kernelSkipInstr s.kernelCurrAct s) (kernelCreturn b s) := by
  unfold kernelCreturn
  dsimp only
  split
  · exact actWait_plain _
  refine .after kernelUnseal_ordinary fun token => ?_
  split
  · split
    · exact .error (by decide)
    · refine .after (kernelAssert_ordinary _ _) fun _ => schedD2a_plain.bind fun m => ?_
      exact (actWait_plain _).of_eq (setFrame_fixed (by simp [copyReply]) (by simp [copyReply]))
  · exact .error (by decide)

/-! ### Interrupts -/

theorem kernelTimer_plain (count : BitVec 64) : Plain s (kernelTimer b count s) := by
  unfold kernelTimer
  refine (schedReschedule_plain 0).bind fun m => ?_
  split
  · exact .ok rfl
  · exact .error (by decide)

/-- What an interrupt may stop with besides: the panic, where a delivery finds no room. -/
def DeliveryStop (st : Stop) : Prop := Ordinary st ∨ st = .panic .queueFullInt

theorem kernelInterruptOther_points (pending : BitVec 8) (i : Nat) :
    Keeps State.points DeliveryStop s (kernelInterruptOther b pending i s) := by
  unfold kernelInterruptOther
  split
  · split
    · exact .ok rfl
    · refine .of_eq ?_ (.bind_pair (msgPush_plain.mono (fun _ => congrArg Prod.fst) (fun _ => .inl)) fun ⟨ret, m⟩ => ?_)
      · exact setFrame_points (by simp) (by simp)
      · dsimp only
        split
        · exact .error (.inr rfl)
        · exact .ok rfl
  · exact .ok rfl

theorem kernelInterruptOthers_points (pending : BitVec 8) (n : Nat) :
    Keeps State.points DeliveryStop s (kernelInterruptOthers b pending n s) := by
  induction n with
  | zero => exact .ok rfl
  | succ n ih => exact ih.bind fun m => kernelInterruptOther_points pending n

/-- **An interrupt moves no program counter.** -/
theorem kernelInterrupt_points (ipending : BitVec 8) (count : BitVec 64) :
    Keeps State.points DeliveryStop s (kernelInterrupt b ipending count s) := by
  rw [kernelInterrupt_eq]
  refine .bind ?_ fun m => ?_
  · split
    · exact (kernelTimer_plain count).points.weaken fun _ => .inl
    · exact .ok rfl
  · split
    · exact kernelInterruptOthers_points _ 7
    · exact .ok rfl

theorem kernelInterruptOthers_none {pending : BitVec 8} {n : Nat}
    (hn : ∀ i, i < n → pending.getLsbD i = true → s.intChild i = 0) : kernelInterruptOthers b pending n s = .ok s := by
  induction n with
  | zero => rfl
  | succ n ih =>
    unfold kernelInterruptOthers
    rw [ih fun i hi => hn i (Nat.lt_succ_of_lt hi), ok_bind]
    unfold kernelInterruptOther
    split
    · rw [if_pos (hn n (Nat.lt_succ_self n) ‹_›)]
    · rfl

/-- The timer first, then the lines that were pending and open when the entry began. -/
theorem kernelInterrupt_others (ipending : BitVec 8) (count : BitVec 64) : kernelInterrupt b ipending count s =
    (if ipending.getLsbD 7 then kernelTimer b count s else .ok s) >>=
      kernelInterruptOthers b (ipending &&& othersInterruptsMask s) 7 := by
  rw [kernelInterrupt_eq]
  refine congrArg _ (funext fun m => ?_)
  split
  · rfl
  · rename_i h0
    rw [Decidable.not_not.1 h0]
    exact (kernelInterruptOthers_none (by simp)).symm

/-- An entry that asks for nothing: the scheduler does the same in every entry. -/
def idle : Entry := ⟨RegFrame.zero, .fault⟩

/-- Nothing is sent for nobody's sake. -/
theorem accepted_path (hm : ReflTransGen (Routine b e c) s m) (hc : e.cause ≠ .ccall)
    (hi : ∀ p n, e.cause ≠ .interrupt p n) (a : Aid) : m.accepted a = s.accepted a := by
  refine inv_path (I := fun m => m.accepted a = s.accepted a) (fun k k' hk hstep => ?_) rfl hm
  rcases hstep.accepted a with he | ⟨-, he⟩ | ⟨p, n, he⟩
  · exact he.trans hk
  · exact absurd he hc
  · exact absurd he (hi p n)

/-- **The scheduler sends nothing.** -/
theorem schedReschedule_accepted (hr : Ready c s) (hint : Aid) (h : schedReschedule b hint s = .ok m) (a : Aid) :
    m.accepted a = s.accepted a :=
  accepted_path (Sat.ok (schedReschedule_leads (e := idle) hr hint) h).1 nofun nofun a

theorem actWait_accepted (hr : Ready c s) (hrun : s.schedStatus c = .runnable) (hint : Aid)
    (h : actWait b c hint s = .ok m) (a : Aid) : m.accepted a = s.accepted a :=
  accepted_path (Sat.ok (actWait_leads (e := idle) hr hrun hint) h).1 nofun nofun a

/-! ### System calls -/

theorem setC3_points (cap : Cap) : (setC3 cap s).points = s.points := setFrame_points rfl (by simp; rfl)

theorem setV0_fixed (n : Int) : (setV0 n s).fixed = s.fixed := setFrame_fixed (by simp; rfl) rfl

theorem setC3_fixed (cap : Cap) : (setC3 cap s).fixed = s.fixed := Prod.ext (setC3_points cap) rfl

def Sysn.onLine (sysn : Sysn) : Prop := sysn = .interruptRegister ∨ sysn = .interruptEnable

/-- **A system call that neither registers an activation nor is about a line.** -/
theorem syscallDemux_plain {sysn : Sysn} (hn : sysn ≠ .actRegister) (hl : ¬ sysn.onLine) :
    Plain s (syscallDemux b mem sysn s) := by
  cases sysn with
  | actRegister => exact absurd rfl hn
  | interruptRegister => exact absurd (.inl rfl) hl
  | interruptEnable => exact absurd (.inr rfl) hl
  | sleep =>
    unfold syscallDemux syscallSleep
    dsimp only
    split
    · exact .ok rfl
    · exact schedReschedule_plain 0
  | actCtrlGetRef => exact .after (.bind ctrlAid_ordinary fun _ _ => sat_ok.2 trivial) fun cap => .ok (setC3_fixed cap)
  | actCtrlGetId => exact .after (.bind ctrlAid_ordinary fun _ _ => sat_ok.2 trivial) fun cap => .ok (setC3_fixed cap)
  | actCtrlGetStatus => exact .after (.bind ctrlAid_ordinary fun _ _ => sat_ok.2 trivial) fun n => .ok (setV0_fixed n)
  | actRevoke =>
    refine .bind_pair (.bind ctrlAid_ordinary fun aid _ => ?_) fun p => .ok (setV0_fixed p.1)
    split
    · exact sat_ok.2 rfl
    · exact sat_ok.2 setStatus_fixed
  | actTerminate =>
    refine .bind_pair (.bind ctrlAid_ordinary fun act _ => ?_) fun ⟨ret, m⟩ => ?_
    · exact .bind schedDelete_plain fun m hm => sat_ok.2 (setSchedStatus_fixed.trans (hm.trans setStatus_fixed))
    · dsimp only
      split
      · exact schedReschedule_plain 0
      · exact .ok (setV0_fixed ret)
  | actSealIdentifier => exact .after actSealIdentifier_ordinary fun cap => .ok (setC3_fixed cap)
  | puts =>
    unfold syscallDemux syscallPuts
    dsimp only
    split
    · exact .ok rfl
    · exact .error (by decide)
  | panic => exact .error (by decide)

/-- What a call on a line may stop with: line 7 is not in the table. -/
def LineStop (number : Int) (sysn : Sysn) (st : Stop) : Prop :=
  Ordinary st ∨ (st = .outOfBounds .intChild ∧ sysn.onLine ∧ number = 7)

theorem syscallDemux_points {sysn : Sysn} (hn : sysn ≠ .actRegister) :
    Keeps State.points (LineStop (intArg (s.frame.mf .a0)) sysn) s (syscallDemux b mem sysn s) := by
  have hv0 : ∀ p : Int × State, (setV0 p.1 p.2).points = p.2.points := fun p => congrArg Prod.fst (setV0_fixed p.1)
  by_cases hl : sysn.onLine
  · obtain rfl | rfl := hl
    · refine .bind_pair ((kernelInterruptRegister_sat _).mono (fun p hp => ?_) fun st hst => ?_) fun p => .ok (hv0 p)
      · rcases hp with hp | ⟨i, -, -, -, hp⟩ <;> rw [hp]
        rfl
      · exact .inr ⟨hst.2, .inl rfl, hst.1⟩
    · refine .bind_pair ((kernelInterruptEnable_sat _).mono (fun p hp => ?_) fun st hst => ?_) fun p => .ok (hv0 p)
      · rcases hp with hp | ⟨i, -, -, -, hp⟩ <;> rw [hp]
        rfl
      · exact .inr ⟨hst.2, .inr rfl, hst.1⟩
  · exact (syscallDemux_plain hn hl).points.weaken fun _ => .inl

/-! ### Entries -/

/-- How far an entry moves the program counter of the activation that trapped: past a `ccall`, a `creturn` or a system
call, and not at all at an interrupt. -/
def Cause.advance : Cause → BitVec 64
  | .interrupt .. => 0
  | _ => 4

def resumed (e : Entry) : BitVec 64 × Cap :=
  (e.regs.mf .pc + e.cause.advance, (e.regs.cf .pcc).incOffset e.cause.advance)

def Registers (e : Entry) (mem : UserMem) : Prop :=
  e.cause = .syscall mem ∧ sysnOf (e.regs.mf .v0) = some .actRegister

theorem skip_points : (kernelSkipInstr act s).points =
    (Function.update s.points.1 act ((s.points.1 act).1 + 4, (s.points.1 act).2.incOffset 4), s.points.2) := by
  refine Prod.ext (funext fun a => ?_) rfl
  by_cases ha : a = act
  · subst ha
    simp [State.points, kernelSkipInstr]
  · simp [State.points, kernelSkipInstr, ha]

theorem saved_points : (saved e s).points =
    (Function.update s.points.1 s.kernelCurrAct (e.regs.mf .pc, e.regs.cf .pcc), s.points.2) := by
  refine Prod.ext (funext fun a => ?_) rfl
  by_cases ha : a = s.kernelCurrAct
  · subst ha
    simp [State.points, saved]
  · simp [State.points, saved, ha]

/-- The registers saved and the instruction skipped, in either order of the two with what lies between. -/
theorem skipped_points (hadv : e.cause.advance = 4) (hk : k.points = (saved e s).points) :
    (kernelSkipInstr s.kernelCurrAct k).points =
      (Function.update s.points.1 s.kernelCurrAct (resumed e), s.members) := by
  rw [skip_points, hk, saved_points, resumed, hadv]
  simp only [Function.update_self, Function.update_idem]
  rfl

/-- **An entry that registers nobody moves one program counter**, the one of the activation that trapped, and moves it
once. -/
theorem kernelEntry_points (hB : Base s) (h : kernelEntry b e s = .ok s') (hn : ∀ mem, ¬ Registers e mem) :
    s'.points = (Function.update s.points.1 s.kernelCurrAct (resumed e), s.members) := by
  cases hc : e.cause with
  | interrupt ipending count =>
    rw [kernelEntry_eq hB, hc] at h
    have hk := (kernelInterrupt_points ipending count).eq h
    have hadv : e.cause.advance = 0 := by rw [hc]; rfl
    rw [hk, saved_points, resumed, hadv]
    simp [Cap.incOffset, State.points]
  | syscall mem =>
    rw [kernelEntry_syscall hB hc] at h
    split at h
    · rename_i sysn hsys
      obtain ⟨m, hm, h⟩ := bind_eq_ok.1 h
      obtain rfl := Except.ok.inj h
      have hne : sysn ≠ .actRegister := by
        rintro rfl
        exact hn mem ⟨hc, hsys⟩
      exact skipped_points (by rw [hc]; rfl) ((syscallDemux_points hne).eq hm)
    · cases h
  | ccall =>
    rw [kernelEntry_ccall hB hc] at h
    split at h
    · exact ((kernelCcall_fixed.map Prod.fst).eq h).trans (skipped_points (by rw [hc]; rfl) rfl)
    · cases h
  | creturn =>
    rw [kernelEntry_eq hB, hc] at h
    exact (kernelCreturn_plain.points.eq h).trans (skipped_points (by rw [hc]; rfl) rfl)
  | fault =>
    rw [kernelEntry_eq hB, hc] at h
    cases h

def OnLineSeven (e : Entry) : Prop :=
  ∃ mem sysn, e.cause = .syscall mem ∧ sysnOf (e.regs.mf .v0) = some sysn ∧ sysn.onLine ∧ intArg (e.regs.mf .a0) = 7

theorem actRegister_ordinary {name : Cap} : Sat (actRegister b mem name s) (fun _ => True) Ordinary := by
  refine actRegister_sat.mono (fun _ _ => trivial) (fun st hst => ?_)
  rcases hst with rfl | rfl | rfl <;> decide

theorem syscallDemux_stop {sysn : Sysn} {st : Stop} (h : syscallDemux b mem sysn s = .error st) :
    LineStop (intArg (s.frame.mf .a0)) sysn st := by
  by_cases hn : sysn = .actRegister
  · subst hn
    have hsat : Sat (syscallActRegister b mem s) (fun _ => True) Ordinary :=
      .bind actRegister_ordinary fun _ _ => sat_ok.2 trivial
    exact .inl (hsat.error h)
  · exact (syscallDemux_points hn).stop h

/-- **Where the singular stops of an entry come from**: a synchronous call, a call on line 7, an interrupt. -/
theorem kernelEntry_stop {st : Stop} (hB : Base s) (h : kernelEntry b e s = .error st) :
    Ordinary st ∨ (st = .panic .queueFullCsync ∧ e.cause = .ccall ∧ e.regs.mf .v1 = 4) ∨
      (st = .outOfBounds .intChild ∧ OnLineSeven e) ∨
      (st = .panic .queueFullInt ∧ ∃ p n, e.cause = .interrupt p n) := by
  cases hc : e.cause with
  | interrupt ipending count =>
    rw [kernelEntry_eq hB, hc] at h
    exact ((kernelInterrupt_points ipending count).stop h).imp_right fun hst => .inr (.inr ⟨hst, ipending, count, rfl⟩)
  | syscall mem =>
    rw [kernelEntry_syscall hB hc] at h
    split at h
    · rename_i sysn hsys
      cases hd : syscallDemux b mem sysn (saved e s) with
      | ok m => rw [hd] at h; cases h
      | error st' =>
        rw [hd] at h
        obtain rfl := Except.error.inj h
        have hstop := syscallDemux_stop hd
        rw [saved_frame hB] at hstop
        exact hstop.imp_right fun hs => .inr (.inl ⟨hs.1, mem, sysn, hc, hsys, hs.2⟩)
    · obtain rfl := Except.error.inj h
      exact .inl (by decide)
  | ccall =>
    rw [kernelEntry_ccall hB hc] at h
    split at h
    · have hstop := kernelCcall_fixed.stop h
      rw [saved_frame hB] at hstop
      exact hstop.imp_right fun hs => .inl ⟨hs.2, rfl, hs.1⟩
    · obtain rfl := Except.error.inj h
      exact .inl (by decide)
  | creturn =>
    rw [kernelEntry_eq hB, hc] at h
    exact .inl (kernelCreturn_plain.stop h)
  | fault =>
    rw [kernelEntry_eq hB, hc] at h
    obtain rfl := Except.error.inj h
    exact .inl (by decide)

/-- **`act_register`, as a whole entry.** -/
theorem kernelEntry_register (hB : Base s) (h : kernelEntry b e s = .ok s') (hr : Registers e mem) :
    ∃ (hlt : s.kernelNextAct < maxActivations) (name : Nat → BitVec 8) (frame : RegFrame) (ref id ctrl : Cap),
      mem.frame = some frame ∧ kernelSeal s.actDefaultId s.kernelNextAct = .ok id ∧
      s' = kernelSkipInstr s.kernelCurrAct (setC3 ctrl ((saved e s).register ⟨_, hlt⟩ name frame ref id)) := by
  rw [kernelEntry_syscall hB hr.1, hr.2] at h
  obtain ⟨m, hm, h⟩ := bind_eq_ok.1 h
  obtain ⟨⟨ctrl, k⟩, hk, hm⟩ := bind_eq_ok.1 hm
  obtain ⟨hlt, name, frame, ref, id, hframe, -, -, hid, rfl⟩ := actRegister_sat.ok hk
  obtain rfl := Except.ok.inj hm
  exact ⟨hlt, name, frame, ref, id, ctrl, hframe, hid, (Except.ok.inj h).symm⟩

end Kernel
end CheriOS
