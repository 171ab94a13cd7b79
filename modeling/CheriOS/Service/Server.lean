import CheriOS.Kernel.Mail
import CheriOS.LibUser.Answer
import CheriOS.Lib.Sequential
/-!
# Server — an activation in its message loop, under the kernel

`init.S` runs `main` with the first message of an activation and then gives the activation up with a `creturn` that
presents nothing; from there on `msg_entry` handles one message after another, each up to the `creturn` that presents its
token.  The kernel runs in between, on behalf of everybody.
-/
namespace CheriOS
namespace Service

open Kernel
open LibUser (Image Globals Handler Reply msgEntry InRange Placed)
open Mips (Cpu)

variable {σ : Type}

/-! ## Results -/

/-- The three registers of an answer. -/
structure Result where
  c3 : Cap
  v0 : BitVec 64
  v1 : BitVec 64
deriving DecidableEq

def resultOf (regs : RegFrame) : Result := ⟨regs.cf .c3, regs.mf .v0, regs.mf .v1⟩

/-! ## Configurations -/

/-- A message at hand: the registers that the activation takes it up with, and whether it has. -/
structure Job where
  frame : RegFrame
  begun : Bool

/-- **Where the activation is**: in `main`; or in its message loop, which messages from the `first` one on are for, with
the message it handles. -/
inductive Phase where
  | starting
  | serving (first : Nat) (job : Option Job)

structure Config (σ : Type) where
  kernel : State
  globals : Globals σ
  phase : Phase

/-- What a step is: an entry of somebody else, or of the activation in the course of what it does; or one of the two
`creturn`s. -/
inductive Event where
  | other (e : Entry)
  | ready (e : Entry)
  | answer (e : Entry)

def Event.entry : Event → Entry
  | other e => e
  | ready e => e
  | answer e => e

/-- Until the activation runs, the registers it will have are those in its saved frame. -/
def Job.next (D : Aid) (k k' : State) (job : Job) : Job :=
  if job.begun then job
  else if k.kernelCurrAct = D then { job with begun := true }
  else { job with frame := k'.kernelExceptionFramep D }

/-- A message that a step of the kernel loads for the activation is the next one it handles. -/
def Phase.next (D : Aid) (k k' : State) : Phase → Phase
  | .starting => .starting
  | .serving first job =>
    if (k'.loaded D).length = (k.loaded D).length then .serving first (job.map (Job.next D k k'))
    else .serving first (some ⟨k'.kernelExceptionFramep D, false⟩)

/-- **One step of the system.**  The server, `D`, does not park itself while it handles a message; at the end of it the
registers that `kernel_creturn` reads are what `msg_entry` leaves in them. -/
inductive ServiceStep (b : Build) (cpu : Cpu) (im : Image) (h : Handler σ) (D : Aid) : Config σ → Event → Config σ → Prop where
  | other {k k' : State} {g : Globals σ} {ph : Phase} {e : Entry} : kernelStep b k e k' →
      (D = k.kernelCurrAct → ¬ Parks e) → ServiceStep b cpu im h D ⟨k, g, ph⟩ (.other e) ⟨k', g, ph.next D k k'⟩
  | ready {k k' : State} {g : Globals σ} {e : Entry} : kernelStep b k e k' → k.kernelCurrAct = D → e.cause = .creturn →
      e.regs.cf .c1 = Cap.null → ServiceStep b cpu im h D ⟨k, g, .starting⟩ (.ready e)
        ⟨k', g, (Phase.serving (k.loaded D).length none).next D k k'⟩
  | answer {k k' : State} {g g' : Globals σ} {e : Entry} {first : Nat} {job : Job} {r : Reply} : kernelStep b k e k' →
      k.kernelCurrAct = D → e.cause = .creturn → msgEntry cpu im h job.frame g = some (r, g') →
      e.regs.cf .c1 = r.regs.cf .c1 → resultOf e.regs = resultOf r.regs →
      ServiceStep b cpu im h D ⟨k, g, .serving first (some job)⟩ (.answer e)
        ⟨k', g', (Phase.serving first none).next D k k'⟩

/-- The kernel has booted, and the memory of the activation is as the linker and `main` leave it. -/
structure Started (b : Build) (d : σ) (c : Config σ) : Prop where
  kernel : Boots b c.kernel
  data : c.globals.data = d
  phase : c.phase = .starting

/-- **A run of the system**, newest step first. -/
abbrev ServiceRun (b : Build) (cpu : Cpu) (im : Image) (h : Handler σ) (D : Aid) (d : σ) :=
  Transition.Run (Started b d) (ServiceStep b cpu im h D)

/-- **The messages that have been answered**: those loaded from the first one on, without the one at hand. -/
def Config.handled (c : Config σ) (D : Aid) : List Msg :=
  match c.phase with
  | .starting => []
  | .serving first none => (c.kernel.loaded D).drop first
  | .serving first (some _) => ((c.kernel.loaded D).drop first).dropLast

/-- The number of messages that went to `main`. -/
def Config.first (c : Config σ) : Nat :=
  match c.phase with
  | .starting => 0
  | .serving first _ => first

/-- What the server has answered, oldest first. -/
def replies : List (Transition.Step (Config σ) Event) → List Result
  | [] => []
  | ⟨_, .answer e, _⟩ :: tr => replies tr ++ [resultOf e.regs]
  | _ :: tr => replies tr

/-- **The methods of a service**, as a function of the message and of the memory: a method reads no register that the
message has not set. -/
def Computes (im : Image) (h : Handler σ) (f : Sequential.Object Msg Result σ) : Prop :=
  ∀ (regs : RegFrame) (msg : Msg) (v0 : BitVec 64) (data : σ), Starts regs msg →
    resultOf (h (im.method msg.v0) msg.c1 ((regs.setMf .v0 v0).setCf .c12 (im.method msg.v0)) data).1 = (f msg data).1 ∧
    (h (im.method msg.v0) msg.c1 ((regs.setMf .v0 v0).setCf .c12 (im.method msg.v0)) data).2 = (f msg data).2

variable {b : Build} {cpu : Cpu} {im : Image} {h : Handler σ} {D : Aid} {d : σ} {f : Sequential.Object Msg Result σ}
  {c c' : Config σ} {ev : Event} {tr newer older : List (Transition.Step (Config σ) Event)}
  {st : Transition.Step (Config σ) Event} {k k' : State} {e : Entry}

/-! ## The kernel below -/

theorem ServiceStep.kernel (hst : ServiceStep b cpu im h D c ev c') : kernelStep b c.kernel ev.entry c'.kernel := by
  cases hst with
  | other hk _ => exact hk
  | ready hk _ _ _ => exact hk
  | answer hk _ _ _ _ _ => exact hk

/-- The step of the kernel that a step of the system is. -/
def kernelOf (st : Transition.Step (Config σ) Event) : Transition.Step State Entry :=
  ⟨st.pre.kernel, st.ev.entry, st.post.kernel⟩

theorem ServiceRun.kernel (hr : ServiceRun b cpu im h D d tr c) : KernelRun b (tr.map kernelOf) c.kernel :=
  Transition.Run.map (f := Config.kernel) (g := Event.entry) (fun _ hs => hs.kernel) (fun _ _ _ hst => hst.kernel) hr

/-! ## One message -/

/-- **What a method that is called leaves.** -/
theorem msgEntry_called {m : RegFrame} {g g' : Globals σ} {r : Reply} {cap : Cap}
    (he : msgEntry cpu im h m g = some (r, g')) (hc : r.called = some cap) : ∃ v0,
      r.regs = LibUser.restore (h cap (m.cf .c1) ((m.setMf .v0 v0).setCf .c12 cap) g.data).1 (m.cf .c1) ∧
      g' = ⟨m.cf .c1, (h cap (m.cf .c1) ((m.setMf .v0 v0).setCf .c12 cap) g.data).2⟩ := by
  unfold msgEntry at he
  obtain ⟨p, -, he⟩ := Option.bind_eq_some_iff.1 he
  obtain ⟨t, -, he⟩ := Option.bind_eq_some_iff.1 he
  split at he
  · obtain ⟨rfl, -⟩ := Prod.mk.inj (Option.some.inj he)
    cases hc
  obtain ⟨t0, -, he⟩ := Option.bind_eq_some_iff.1 he
  dsimp only at he
  split at he
  · obtain ⟨rfl, rfl⟩ := Prod.mk.inj (Option.some.inj he)
    obtain rfl := Option.some.inj hc
    exact ⟨_, rfl, rfl⟩
  · cases he

/-- **One message, handled**: it is answered with its own token, and as its method computes. -/
theorem msgEntry_computes {m : RegFrame} {g g' : Globals σ} {r : Reply} {msg : Msg} (hP : Placed im)
    (hC : Computes im h f) (hs : Starts m msg) (hin : InRange im msg.v0) (he : msgEntry cpu im h m g = some (r, g')) :
    r.regs.cf .c1 = msg.c1 ∧ resultOf r.regs = (f msg g.data).1 ∧ g'.data = (f msg g.data).2 := by
  obtain ⟨-, -, -, hv0⟩ := hs.ints
  obtain ⟨-, -, -, -, hc1⟩ := hs.caps
  obtain ⟨regs, g'', he', -⟩ := LibUser.msgEntry_inRange cpu h g hP (m := m) (hv0.symm ▸ hin)
  obtain ⟨rfl, rfl⟩ := Prod.mk.inj (Option.some.inj (he.symm.trans he'))
  obtain ⟨v0, hregs, rfl⟩ := msgEntry_called he rfl
  dsimp only at hregs ⊢
  rw [hregs, hc1, hv0]
  obtain ⟨hres, hdata⟩ := hC m msg v0 g.data hs
  exact ⟨by simp [LibUser.restore], hres ▸ (by simp [LibUser.restore, resultOf]), hdata⟩

/-! ## The message at hand -/

/-- **What the server is at**: the last message loaded, for which it does not load another one, and whose registers it
will find when it runs; or nothing. -/
def AtHand (D : Aid) (c : Config σ) : Prop :=
  match c.phase with
  | .starting => True
  | .serving first none => first ≤ (c.kernel.loaded D).length
  | .serving first (some job) => Busy D (c.kernel.loaded D) c.kernel ∧
      (∃ ms msg, c.kernel.loaded D = ms ++ [msg] ∧ first ≤ ms.length ∧ Starts job.frame msg) ∧
      (job.begun = false → Rests D job.frame c.kernel)

/-- A server that handles nothing takes the message that a step of the kernel loads. -/
theorem next_idle {first : Nat} (g : Globals σ) (ht : Taken D (k.loaded D) k') (hf : first ≤ (k.loaded D).length) :
    Config.handled ⟨k', g, (Phase.serving first none).next D k k'⟩ D = (k.loaded D).drop first ∧
      AtHand D ⟨k', g, (Phase.serving first none).next D k k'⟩ := by
  rcases ht with hl | ⟨msg, hl, hstarts, hrun⟩
  · have hlen : (k'.loaded D).length = (k.loaded D).length := congrArg List.length hl
    rw [Phase.next, if_pos hlen]
    exact ⟨congrArg (List.drop first) hl, hf.trans_eq hlen.symm⟩
  · have hlen : (k'.loaded D).length ≠ (k.loaded D).length := by
      rw [hl, List.length_append]
      simp
    rw [Phase.next, if_neg hlen]
    refine ⟨?_, .of_status .runnable rfl hrun nofun nofun, ⟨_, msg, hl, hf, hstarts⟩, fun _ => ⟨.inl hrun, rfl⟩⟩
    show ((k'.loaded D).drop first).dropLast = _
    rw [hl, List.drop_append_of_le_length hf, List.dropLast_concat]

/-- **A server at a message stays at it**, with the registers of the message. -/
theorem next_busy {first : Nat} {job : Job} (g : Globals σ) (hk : kernelStep b k e k') (hB : Base k) (hR : Runs k)
    (hb : b.lite = false) (h0 : D ≠ 0) (hp : D = k.kernelCurrAct → ¬ Parks e)
    (ha : AtHand D ⟨k, g, .serving first (some job)⟩) :
    Config.handled ⟨k', g, (Phase.serving first (some job)).next D k k'⟩ D =
        Config.handled ⟨k, g, .serving first (some job)⟩ D ∧
      AtHand D ⟨k', g, (Phase.serving first (some job)).next D k k'⟩ := by
  obtain ⟨hbusy, ⟨ms, msg, hl, hf, hs⟩, hrest⟩ := ha
  have hbusy' : Busy D (k.loaded D) k' := hk.busy hB hR hbusy hp
  have hl' : k'.loaded D = k.loaded D := hbusy'.loaded
  rw [Phase.next, if_pos (congrArg List.length hl')]
  refine ⟨by simp only [Config.handled, Option.map_some, hl'], hl'.symm ▸ hbusy', ?_⟩
  by_cases hbegun : job.begun = true
  · have hjob : Job.next D k k' job = job := by rw [Job.next, if_pos hbegun]
    rw [hjob]
    exact ⟨⟨ms, msg, hl'.trans hl, hf, hs⟩, fun hn => absurd hbegun (by simp [hn])⟩
  by_cases hD : k.kernelCurrAct = D
  · have hjob : Job.next D k k' job = ⟨job.frame, true⟩ := by rw [Job.next, if_neg hbegun, if_pos hD]
    rw [hjob]
    exact ⟨⟨ms, msg, hl'.trans hl, hf, hs⟩, nofun⟩
  · have hr := hk.rests hB hR hb (hrest (by simpa using hbegun)) (Ne.symm hD) h0
    have hjob : Job.next D k k' job = job := by
      rw [Job.next, if_neg hbegun, if_neg hD, hr.2]
    rw [hjob]
    exact ⟨⟨ms, msg, hl'.trans hl, hf, hs⟩, fun _ => hr⟩

/-- **What a step that answers nothing does**: nothing that the server sees. -/
theorem ServiceStep.quiet (hst : ServiceStep b cpu im h D c ev c') (hB : Base c.kernel) (hR : Runs c.kernel)
    (hb : b.lite = false) (h0 : D ≠ 0) (ha : AtHand D c) (hev : ∀ e, ev ≠ .answer e) :
    c'.handled D = c.handled D ∧ c'.globals = c.globals ∧ AtHand D c' := by
  cases hst with
  | @other k k' g ph e hk hp =>
    cases ph with
    | starting => exact ⟨rfl, rfl, trivial⟩
    | serving first job =>
      cases job with
      | none =>
        obtain ⟨hh, ha'⟩ := next_idle g (hk.taken hB hR h0 (fun hD => .inr (hp hD))) ha
        exact ⟨hh, rfl, ha'⟩
      | some job =>
        obtain ⟨hh, ha'⟩ := next_busy g hk hB hR hb h0 hp ha
        exact ⟨hh, rfl, ha'⟩
  | @ready k k' g e hk hcurr hcause hnull =>
    obtain ⟨hh, ha'⟩ := next_idle g (hk.taken hB hR h0 (fun _ => .inl hcause)) (Nat.le_refl _)
    exact ⟨hh.trans List.drop_length, rfl, ha'⟩
  | answer hk _ _ _ _ _ => exact absurd rfl (hev _)

/-- **What a step that answers does**: the message at hand has been handled. -/
theorem ServiceStep.answers (hst : ServiceStep b cpu im h D c (.answer e) c') (hB : Base c.kernel) (hR : Runs c.kernel)
    (h0 : D ≠ 0) (ha : AtHand D c) : ∃ m ms msg r, msgEntry cpu im h m c.globals = some (r, c'.globals) ∧ Starts m msg ∧
      (c.kernel.loaded D = ms ++ [msg] ∧ c.handled D = ms.drop c.first ∧ c.first ≤ ms.length) ∧
      c'.handled D = c.handled D ++ [msg] ∧ e.regs.cf .c1 = r.regs.cf .c1 ∧ resultOf e.regs = resultOf r.regs ∧
      AtHand D c' := by
  cases hst with
  | @answer k k' g g' e first job r hk hcurr hcause he hc1 hres =>
    obtain ⟨-, ⟨ms, msg, hl, hf, hs⟩, -⟩ := ha
    have hle : first ≤ (k.loaded D).length := by
      rw [hl, List.length_append]
      exact Nat.le_add_right_of_le hf
    obtain ⟨hh, ha'⟩ := next_idle g' (hk.taken hB hR h0 (fun _ => .inl hcause)) hle
    have hpre : Config.handled ⟨k, g, .serving first (some job)⟩ D = ms.drop first := by
      show ((k.loaded D).drop first).dropLast = _
      rw [hl, List.drop_append_of_le_length hf, List.dropLast_concat]
    refine ⟨job.frame, ms, msg, r, he, hs, ⟨hl, hpre, hf⟩, hh.trans ?_, hc1, hres, ha'⟩
    rw [hpre, hl, List.drop_append_of_le_length hf]

end Service
end CheriOS
