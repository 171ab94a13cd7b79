import CheriOS.Service.Server
/-!
# Linear — a server answers like an object that is used one call at a time

The messages of a server come in the order in which the kernel accepted them, and each is answered once, with its own
token.  So the clients of a service see one sequential object: a call takes effect where its message was accepted, which
is between the call and its answer.
-/
namespace CheriOS
namespace Service

open Kernel
open LibUser (Image Globals Handler Reply msgEntry InRange Placed)
open Mips (Cpu)

variable {σ : Type} {b : Build} {cpu : Cpu} {im : Image} {h : Handler σ} {D : Aid} {d : σ}
  {f : Sequential.Object Msg Result σ} {c c' : Config σ} {ev : Event} {e : Entry}
  {tr newer older : List (Transition.Step (Config σ) Event)} {st : Transition.Step (Config σ) Event}

/-! ## Runs -/

theorem Started.handled (hs : Started b d c) : c.handled D = [] := by rw [Config.handled, hs.phase]

theorem ServiceRun.atHand (hb : b.lite = false) (h0 : D ≠ 0) (hr : ServiceRun b cpu im h D d tr c) : AtHand D c := by
  induction hr with
  | nil hs => rw [AtHand, hs.phase]; trivial
  | @cons tr c c' ev hr hst ih =>
    obtain ⟨hB, hR⟩ := KernelRun.base (ServiceRun.kernel hr)
    cases ev with
    | other e => exact (hst.quiet hB hR hb h0 ih nofun).2.2
    | ready e => exact (hst.quiet hB hR hb h0 ih nofun).2.2
    | answer e =>
      obtain ⟨-, -, -, -, -, -, -, -, -, -, ha⟩ := hst.answers hB hR h0 ih
      exact ha

/-- **What the server has answered, and what it has become**, after every run. -/
theorem ServiceRun.sequential (hP : Placed im) (hC : Computes im h f) (hb : b.lite = false) (h0 : D ≠ 0)
    (hr : ServiceRun b cpu im h D d tr c) (hin : ∀ msg ∈ c.handled D, InRange im msg.v0) :
    replies tr = Sequential.answers f d (c.handled D) ∧ c.globals.data = Sequential.after f d (c.handled D) := by
  induction hr with
  | nil hs =>
    rw [hs.handled]
    exact ⟨rfl, hs.data⟩
  | @cons tr c c' ev hr hst ih =>
    obtain ⟨hB, hR⟩ := KernelRun.base (ServiceRun.kernel hr)
    have ha := ServiceRun.atHand hb h0 hr
    -- nothing new is handled: what held before holds
    have hquiet : (∀ e, ev ≠ .answer e) → replies tr = Sequential.answers f d (c'.handled D) ∧
        c'.globals.data = Sequential.after f d (c'.handled D) := fun hev => by
      obtain ⟨hh, hg, -⟩ := hst.quiet hB hR hb h0 ha hev
      rw [hh] at hin ⊢
      rw [hg]
      exact ih hin
    cases ev with
    | other e => exact hquiet nofun
    | ready e => exact hquiet nofun
    | answer e =>
      obtain ⟨m, ms, msg, r, he, hs, -, hh, -, hres, -⟩ := hst.answers hB hR h0 ha
      rw [hh] at hin ⊢
      obtain ⟨hrep, hdata⟩ := ih fun msg hm => hin msg (List.mem_append_left _ hm)
      obtain ⟨-, hval, hnext⟩ := msgEntry_computes hP hC hs (hin msg (by simp)) he
      rw [Sequential.answers_concat, Sequential.after_concat, ← hdata, ← hnext, replies, hrep, hres, hval, hdata]
      exact ⟨rfl, rfl⟩

/-- **The order of the messages**: those that have been answered are the first that the kernel accepted after those for
`main`. -/
theorem handled_prefix (hr : ServiceRun b cpu im h D d tr c) : c.handled D <+: (c.kernel.accepted D).drop c.first := by
  have hloaded : c.handled D <+: (c.kernel.loaded D).drop c.first := by
    unfold Config.handled Config.first
    split
    · exact List.nil_prefix
    · rename_i hph
      rw [hph]
    · rename_i hph
      rw [hph]
      exact List.dropLast_prefix _
  refine hloaded.trans ?_
  rw [conserved_kept.run_all (ServiceRun.kernel hr) D]
  exact (List.prefix_append _ _).drop _

/-- **A service is a sequential object.**  After every run, what the server has answered is what the object answers to
the messages that the kernel accepted for the server first, in the order in which it accepted them. -/
theorem replies_sequential (hP : Placed im) (hC : Computes im h f) (hb : b.lite = false) (h0 : D ≠ 0)
    (hr : ServiceRun b cpu im h D d tr c) (hin : ∀ msg ∈ c.handled D, InRange im msg.v0) :
    ∃ ms, ms <+: (c.kernel.accepted D).drop c.first ∧ ms.length = (replies tr).length ∧
      replies tr = Sequential.answers f d ms ∧ c.globals.data = Sequential.after f d ms := by
  obtain ⟨hrep, hdata⟩ := ServiceRun.sequential hP hC hb h0 hr hin
  exact ⟨c.handled D, handled_prefix hr, by rw [hrep, Sequential.answers_length], hrep, hdata⟩

/-- **Calls are linearizable.**  An answer of the server is the object's, after the messages before; and a caller that it
unblocks is the one that sent the message with its last call, gets the answer in its registers, and put the message where
it stands in the order in that very call. -/
theorem calls_linearized (hP : Placed im) (hC : Computes im h f) (hb : b.lite = false) (h0 : D ≠ 0)
    (hr : ServiceRun b cpu im h D d (newer ++ st :: older) c) (hev : st.ev = .answer e)
    (hin : ∀ msg ∈ st.post.handled D, InRange im msg.v0) :
    ∃ msg, st.post.handled D = st.pre.handled D ++ [msg] ∧
      resultOf e.regs = Sequential.answer f d (st.pre.handled D) msg ∧
      ∀ C, Unblocks C (kernelOf st) → ∃ waited call before, older = waited ++ call :: before ∧
        Carries C D msg (kernelOf call) ∧ (∀ x ∈ waited, ∀ u, ¬ Issues C u (kernelOf x)) ∧
        (call.pre.kernel.accepted D).length = st.pre.first + (st.pre.handled D).length ∧
        st.post.kernel.schedStatus C = .runnable ∧
        resultOf (st.post.kernel.kernelExceptionFramep C) = Sequential.answer f d (st.pre.handled D) msg := by
  obtain ⟨hpre, hstep, -⟩ := hr.cut
  obtain ⟨pre, ev, post⟩ := st
  obtain rfl : ev = .answer e := hev
  have hk := ServiceRun.kernel hpre
  obtain ⟨hB, hR⟩ := KernelRun.base hk
  obtain ⟨m, ms, msg, r, he, hs, ⟨hl, hms, hf⟩, hh, hc1, hres, -⟩ := hstep.answers hB hR h0 (ServiceRun.atHand hb h0 hpre)
  have hinpre : ∀ msg ∈ pre.handled D, InRange im msg.v0 := fun x hx => hin x (hh ▸ List.mem_append_left _ hx)
  have hinmsg : InRange im msg.v0 := hin msg (hh ▸ List.mem_append_right _ List.mem_cons_self)
  obtain ⟨htok, hval, -⟩ := msgEntry_computes hP hC hs hinmsg he
  have hdata := (ServiceRun.sequential hP hC hb h0 hpre hinpre).2
  have hanswer : resultOf e.regs = Sequential.answer f d (pre.handled D) msg := by
    rw [hres, hval, hdata]
    rfl
  refine ⟨msg, hh, hanswer, fun C hun => ?_⟩
  obtain ⟨u, hp⟩ := hun.presents hstep.kernel hB hR
  have hcap : msg.c1 = tokenCap C u := by
    have hpt := hp.token
    rw [syncTokenCap_eq] at hpt
    rw [← htok, ← hc1]
    exact (Except.ok.inj hpt).symm
  -- the message stands in the queue where the call that made its token put it
  have hpos : (pre.kernel.accepted D)[ms.length]? = some msg := by
    rw [conserved_kept.run_all hk D, hl, List.append_assoc, List.getElem?_append_right (Nat.le_refl _), Nat.sub_self]
    rfl
  have hnull : msg.c1 ≠ Cap.null := by
    rw [hcap]
    intro hn
    cases (show true = false from congrArg Cap.tag hn)
  obtain ⟨C', call', hmem, hcarries, hlen⟩ := KernelRun.carried hk hpos hnull
  obtain ⟨call, hcall, rfl⟩ := List.mem_map.1 hmem
  obtain ⟨rfl, hu⟩ := tokenCap_inj (hcap.symm.trans hcarries.token)
  obtain ⟨waited, before, rfl⟩ := List.append_of_mem hcall
  have hlast : ∀ x ∈ waited, ∀ v, ¬ Issues C v (kernelOf x) := by
    have hexp := ((KernelRun.tokens hk).replyExpected hp.issued).1 hp.expected
    have hi := hu ▸ hcarries.issues
    rw [List.map_append, List.map_cons] at hk
    exact fun x hx => KernelRun.last_of_expected hk hi hexp.1 _ (List.mem_map_of_mem hx)
  have hne : C ≠ pre.kernel.kernelCurrAct := by
    rintro rfl
    have hblocked : pre.kernel.schedStatus pre.kernel.kernelCurrAct = .syncBlock := hun.2.1
    rw [show pre.kernel.schedStatus pre.kernel.kernelCurrAct = .runnable from hR] at hblocked
    cases hblocked
  obtain ⟨hrun, hreplied⟩ := hp.replied hstep.kernel hB hR hne
  refine ⟨waited, call, before, rfl, hcarries, hlast, ?_, hrun, ?_⟩
  · rw [hms, List.length_drop]
    have hlen' : (call.pre.kernel.accepted D).length = ms.length := hlen
    have hf' : pre.first ≤ ms.length := hf
    show (call.pre.kernel.accepted D).length = pre.first + (ms.length - pre.first)
    omega
  · obtain ⟨h3, h0', h1⟩ := hreplied.reply
    rw [← hanswer, resultOf, h3, h0', h1]
    rfl

/-! ## A service that counts -/

/-- The one method answers with what it counts, and counts on. -/
def counting : Handler (BitVec 64) := fun _ _ regs n =>
  (((regs.setMf .v0 n).setMf .v1 0).setCf .c3 Cap.null, n + 1)

def counter : Sequential.Object Msg Result (BitVec 64) := fun _ n => (⟨Cap.null, n, 0⟩, n + 1)

theorem counting_computes (im : Image) : Computes im counting counter := fun regs msg v0 n _ => by
  simp [counting, counter, resultOf]

/-- One step, where it can be computed: others, and the two `creturn`s of the server. -/
def checkedService (b : Build) (cpu : Cpu) (im : Image) (h : Handler σ) (D : Aid) (c : Config σ) :
    Event → Option (Config σ)
  | .other e =>
    if c.kernel.kernelCurrAct = D then none
    else (checkedEntry b c.kernel e).map fun k' => ⟨k', c.globals, c.phase.next D c.kernel k'⟩
  | .ready e =>
    match c.phase, e.cause with
    | .starting, .creturn =>
      if c.kernel.kernelCurrAct = D ∧ e.regs.cf .c1 = Cap.null then
        (checkedEntry b c.kernel e).map fun k' =>
          ⟨k', c.globals, (Phase.serving (c.kernel.loaded D).length none).next D c.kernel k'⟩
      else none
    | _, _ => none
  | .answer e =>
    match c.phase, e.cause with
    | .serving first (some job), .creturn => do
      let (r, g) ← msgEntry cpu im h job.frame c.globals
      if c.kernel.kernelCurrAct = D ∧ e.regs.cf .c1 = r.regs.cf .c1 ∧ resultOf e.regs = resultOf r.regs then
        (checkedEntry b c.kernel e).map fun k' => ⟨k', g, (Phase.serving first none).next D c.kernel k'⟩
      else none
    | _, _ => none

theorem checkedService_step (hs : checkedService b cpu im h D c ev = some c') : ServiceStep b cpu im h D c ev c' := by
  obtain ⟨k, g, ph⟩ := c
  cases ev with
  | other e =>
    dsimp only [checkedService] at hs
    split at hs
    · cases hs
    rename_i hD
    obtain ⟨k', hk, rfl⟩ := Option.map_eq_some_iff.1 hs
    exact .other (checkedEntry_step hk) fun he => absurd he.symm hD
  | ready e =>
    dsimp only [checkedService] at hs
    split at hs
    · rename_i hc
      split at hs
      · rename_i hD
        obtain ⟨k', hk, rfl⟩ := Option.map_eq_some_iff.1 hs
        exact .ready (checkedEntry_step hk) hD.1 hc hD.2
      · cases hs
    · cases hs
  | answer e =>
    dsimp only [checkedService] at hs
    split at hs
    · rename_i first job hc
      obtain ⟨⟨r, g'⟩, he, hs⟩ := Option.bind_eq_some_iff.1 hs
      dsimp only at hs
      split at hs
      · rename_i hD
        obtain ⟨k', hk, rfl⟩ := Option.map_eq_some_iff.1 hs
        exact .answer (checkedEntry_step hk) hD.1 hc he hD.2.1 hD.2.2
      · cases hs
    · cases hs

/-- Init starts an activation, which is then ready, and calls its method. -/
def oneCall : List Event :=
  [.other registerEntry, .other (callEntry debugBuild 1 1 2), .other sleepEntry, .ready (creturnEntry Cap.null),
    .other (callEntry debugBuild 4 0 2)]

abbrev CounterRun := ServiceRun debugBuild LibUser.strictCpu LibUser.twoMethods counting 2 0

def oneAnswer : Event := .answer (creturnEntry (tokenCap 1 1))

/-- After `oneCall` the server answers, and init goes on. -/
def answersInit (c : Config (BitVec 64)) : Bool :=
  c.kernel.schedStatus 1 == .syncBlock &&
    (checkedService debugBuild LibUser.strictCpu LibUser.twoMethods counting 2 c oneAnswer).any fun c' =>
      c'.kernel.schedStatus 1 == .runnable &&
        (c'.handled 2).all fun msg => decide (InRange LibUser.twoMethods msg.v0)

theorem oneCall_run : ∃ tr c c', CounterRun (⟨c, oneAnswer, c'⟩ :: tr) c' ∧
    Unblocks 1 (kernelOf ⟨c, oneAnswer, c'⟩) ∧ ∀ msg ∈ c'.handled 2, InRange LibUser.twoMethods msg.v0 := by
  have hrun : ((cheriosMain debugBuild zeroBoot).toOption.bind fun k =>
      oneCall.foldlM (checkedService debugBuild LibUser.strictCpu LibUser.twoMethods counting 2)
        ⟨k, ⟨Cap.null, 0⟩, .starting⟩).any answersInit = true := by decide +kernel
  obtain ⟨c, hc, hp⟩ := (Option.any_eq_true _ _).1 hrun
  obtain ⟨k, hk, hc⟩ := Option.bind_eq_some_iff.1 hc
  have hboot : CounterRun [] ⟨k, ⟨Cap.null, 0⟩, .starting⟩ := .nil ⟨Boots.of_toOption hk, rfl, rfl⟩
  have hnext : ∀ s e s', checkedService debugBuild LibUser.strictCpu LibUser.twoMethods counting 2 s e = some s' →
      ServiceStep debugBuild LibUser.strictCpu LibUser.twoMethods counting 2 s e s' ∧ True :=
    fun _ _ _ hs => ⟨checkedService_step hs, trivial⟩
  obtain ⟨tr, hr, -, -⟩ := Transition.Run.of_foldlM hnext hboot hc
  rw [List.append_nil] at hr
  obtain ⟨hblocked, hanswer⟩ := Bool.and_eq_true_iff.1 hp
  obtain ⟨c', hc', hp'⟩ := (Option.any_eq_true _ _).1 hanswer
  obtain ⟨hrunnable, hin⟩ := Bool.and_eq_true_iff.1 hp'
  refine ⟨tr, c, c', .cons hr (checkedService_step hc'), ⟨rfl, beq_iff_eq.1 hblocked, ?_⟩, fun msg hm => ?_⟩
  · have hpost : (kernelOf ⟨c, oneAnswer, c'⟩).post.schedStatus 1 = .runnable := beq_iff_eq.1 hrunnable
    rw [hpost]
    decide
  · simpa using List.all_eq_true.1 hin msg hm

/-- The first answer is 0. -/
theorem replies_sequential_one : ∃ tr c, CounterRun tr c ∧ ∃ ms, ms <+: (c.kernel.accepted 2).drop c.first ∧
    ms.length = (replies tr).length ∧ replies tr = Sequential.answers counter 0 ms ∧
      c.globals.data = Sequential.after counter 0 ms := by
  obtain ⟨tr, c, c', hr, -, hin⟩ := oneCall_run
  exact ⟨_, c', hr, replies_sequential LibUser.twoMethods_placed (counting_computes _) rfl (by decide) hr hin⟩

/-- Init gets it. -/
theorem calls_linearized_one : ∃ c c' : Config (BitVec 64), ∃ msg, c'.handled 2 = c.handled 2 ++ [msg] ∧
    resultOf (c'.kernel.kernelExceptionFramep 1) = Sequential.answer counter 0 (c.handled 2) msg := by
  obtain ⟨tr, c, c', hr, hun, hin⟩ := oneCall_run
  have hr' : CounterRun ([] ++ ⟨c, oneAnswer, c'⟩ :: tr) c' := hr
  obtain ⟨msg, hh, -, hC⟩ := calls_linearized LibUser.twoMethods_placed (counting_computes _) rfl (by decide) hr' rfl hin
  obtain ⟨-, -, -, -, -, -, -, -, hres⟩ := hC 1 hun
  exact ⟨c, c', msg, hh, hres⟩

end Service
end CheriOS
