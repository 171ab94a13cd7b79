import CheriOS.Sockets.Peering
/-!
# Owner — whose socket it is

`socket` records the object its caller's identifier points at, and `recfrom` and `sendto` compare it.  `bind` and
`connect` do not: what they refuse, they refuse to the owner as well.
-/
namespace CheriOS
namespace Sockets

open Outcome
open Transition (Run)

/-! ## Answers -/

/-- What a method returns: an `int`, or a pointer. -/
inductive Reply where
  | int (ret : Int)
  | ptr (ret : Cap)
  deriving DecidableEq, Repr

def Reply.isError : Reply → Bool
  | .int ret => decide (ret < 0)
  | .ptr ret => ret.isNull

namespace State

/-- **A request**: its answer, and the tables it leaves. -/
def handle (s : State) (r : Request) : Except Stop (Reply × State) :=
  match r.call with
  | .socket => do
    let (ret, s) ← Sockets.socket r.obj s
    return (.int ret, s)
  | .bind a port => do
    let (ret, s) ← Sockets.bind a port s
    return (.int ret, s)
  | .connect a port => do
    let (ret, s) ← Sockets.connect a port s
    return (.int ret, s)
  | .recfrom a => do
    let (ret, s) ← Sockets.recfrom r.obj a s
    return (.ptr ret, s)
  | .sendto a msg => do
    let (ret, s) ← Sockets.sendto r.obj a msg s
    return (.int ret, s)

end State

/-- **A run of the tables**, whatever the arguments of its calls. -/
abbrev TableRun (tr : List (Transition.Step State Request)) (s : State) : Prop :=
  Run (fun s => s = socketInit) (fun s r s' => ∃ reply, s.handle r = .ok (reply, s')) tr s

variable {s s' : State} {r : Request} {o a port : Int} {tr : List (Transition.Step State Request)}

theorem handle_of_next {k k' : Sys} (h : k.next r = .ok k') : ∃ reply, k.tab.handle r = .ok (reply, k'.tab) := by
  obtain ⟨obj, call⟩ := r
  unfold Sys.next at h
  unfold State.handle
  cases call <;> dsimp only at h ⊢ <;> obtain ⟨p, hp, h⟩ := bind_eq_ok.1 h <;> rw [hp, ← Except.ok.inj h] <;>
    exact ⟨_, rfl⟩

/-- **The tables of the peered system.** -/
theorem SocketRun.tables {str : List (Transition.Step Sys Request)} {k : Sys} (h : SocketRun str k) :
    TableRun (str.map (fun st => ⟨st.pre.tab, st.ev, st.post.tab⟩)) k.tab := by
  refine Run.map (f := Sys.tab) (g := fun r => r) (fun k hk => ?_) (fun k r k' hst => ?_) h
  · rw [hk]
  · exact handle_of_next hst.2

/-! ## Calls on a socket of another client -/

/-- The socket a call names. -/
def Call.named : Call → Option Int
  | .socket => none
  | .bind a _ => some a
  | .connect a _ => some a
  | .recfrom a => some a
  | .sendto a _ => some a

namespace State

/-- **A call that names a socket of another client.** -/
def foreign (s : State) (r : Request) : Bool :=
  match r.obj, r.call.named with
  | some o, some a => decide ((0 ≤ a ∧ a ≤ maxSocket) ∧ (s.sockets a).oid ≠ o)
  | _, _ => false

/-- **What is refused whoever asks**: `recfrom` and `sendto` look at the owner; `bind` and `connect` refuse a socket that
is off, a port that is taken, and a port without a free socket. -/
def Refuses (s : State) : Call → Prop
  | .socket => False
  | .bind a port => (s.sockets a).status = 0 ∨ ((0 ≤ port ∧ port ≤ maxPort) ∧ 0 ≤ s.ports port)
  | .connect a port => (s.sockets a).status = 0 ∨ port > maxPort ∨ (0 ≤ port ∧ (s.ports port < 0 ∨
      (s.ports port ≤ maxSocket ∧
        ((s.sockets (s.ports port)).status = 0 ∨ 0 ≤ (s.sockets (s.ports port)).socksend))))
  | .recfrom _ => True
  | .sendto _ _ => True

/-- **Refused**: an error, and the tables as they were. -/
def Unmoved (s : State) (r : Request) : Prop := ∃ reply, s.handle r = .ok (reply, s) ∧ reply.isError = true

theorem foreign_iff : s.foreign r = true ↔
    ∃ o a, r.obj = some o ∧ r.call.named = some a ∧ (0 ≤ a ∧ a ≤ maxSocket) ∧ (s.sockets a).oid ≠ o := by
  unfold foreign
  split
  · rename_i o a ho ha
    simp only [decide_eq_true_eq, ho, ha, Option.some.injEq]
    constructor
    · rintro ⟨hin, hne⟩
      exact ⟨o, a, rfl, rfl, hin, hne⟩
    · rintro ⟨_, _, rfl, rfl, hin, hne⟩
      exact ⟨hin, hne⟩
  · rename_i hno
    refine iff_of_false (by simp) ?_
    rintro ⟨o, a, ho, ha, -⟩
    exact hno o a ho ha

end State

section Named

variable (ha : 0 ≤ a ∧ a ≤ maxSocket)
include ha

theorem isOff_eq : isOff a s = .ok ((s.sockets a).status == 0) := by
  unfold isOff
  rw [if_neg (by omega), socketAt, if_pos ha]
  rfl

theorem recfrom_foreign (hne : (s.sockets a).oid ≠ o) : Sockets.recfrom (some o) a s = .ok (Cap.null, s) := by
  unfold Sockets.recfrom
  rw [isOff_eq ha, ok_bind]
  split
  · rfl
  · rw [socketAt, if_pos ha]
    show (if (s.sockets a).oid = o then _ else _) = _
    rw [if_neg hne]
    rfl

theorem sendto_foreign (hne : (s.sockets a).oid ≠ o) (msg : Cap) :
    ∃ ret, Sockets.sendto (some o) a msg s = .ok (ret, s) ∧ ret < 0 := by
  unfold Sockets.sendto
  rw [if_neg (by omega), socketAt, if_pos ha, ok_bind]
  split
  · exact ⟨-3, rfl, by decide⟩
  split
  · exact ⟨-4, rfl, by decide⟩
  · show ∃ ret, (if (s.sockets a).oid = o then _ else _) = _ ∧ _
    rw [if_neg hne]
    exact ⟨-1, rfl, by decide⟩

/-- **`bind` does not look at the owner.** -/
theorem bind_refuses (port : Int) : (∃ ret, Sockets.bind a port s = .ok (ret, s) ∧ ret < 0) ↔
    s.Refuses (.bind a port) := by
  unfold Sockets.bind State.Refuses
  rw [isOff_eq ha, ok_bind]
  by_cases hoff : (s.sockets a).status = 0
  · rw [if_pos (by simpa using hoff)]
    exact iff_of_true ⟨-1, rfl, by decide⟩ (.inl hoff)
  rw [if_neg (by simpa using hoff), portAt]
  by_cases hport : 0 ≤ port ∧ port ≤ maxPort
  · rw [if_pos hport, ok_bind]
    by_cases hbound : s.ports port ≥ 0
    · rw [if_pos hbound]
      exact iff_of_true ⟨-1, rfl, by decide⟩ (.inr ⟨hport, hbound⟩)
    · rw [if_neg hbound]
      refine iff_of_false ?_ (fun h => h.elim hoff (fun h => hbound h.2))
      rintro ⟨ret, hret, hneg⟩
      obtain ⟨rfl, -⟩ := Prod.mk.inj (Except.ok.inj hret)
      exact absurd hneg (by decide)
  · rw [if_neg hport]
    refine iff_of_false ?_ (fun h => h.elim hoff (fun h => hport h.1))
    rintro ⟨ret, hret, -⟩
    cases hret

/-- **`connect` does not look at the owner.** -/
theorem connect_refuses (port : Int) : (∃ ret, Sockets.connect a port s = .ok (ret, s) ∧ ret < 0) ↔
    s.Refuses (.connect a port) := by
  unfold Sockets.connect State.Refuses
  rw [isOff_eq ha, ok_bind]
  by_cases hoff : (s.sockets a).status = 0
  · rw [if_pos (by simpa using hoff)]
    exact iff_of_true ⟨-1, rfl, by decide⟩ (.inl hoff)
  rw [if_neg (by simpa using hoff)]
  by_cases hhigh : port > maxPort
  · rw [if_pos hhigh]
    exact iff_of_true ⟨-1, rfl, by decide⟩ (.inr (.inl hhigh))
  rw [if_neg hhigh, portAt]
  by_cases hlow : 0 ≤ port
  case neg =>
    rw [if_neg (by omega)]
    refine iff_of_false ?_ (fun h => h.elim hoff (fun h => h.elim hhigh (fun h => hlow h.1)))
    rintro ⟨ret, hret, -⟩
    cases hret
  rw [if_pos ⟨hlow, by omega⟩, ok_bind]
  by_cases hfree : s.ports port < 0
  · rw [if_pos hfree]
    exact iff_of_true ⟨-1, rfl, by decide⟩ (.inr (.inr ⟨hlow, .inl hfree⟩))
  rw [if_neg hfree, socketAt]
  by_cases hin : s.ports port ≤ maxSocket
  case neg =>
    rw [if_neg (by omega)]
    refine iff_of_false ?_ (fun h => h.elim hoff (fun h => h.elim hhigh (fun h => h.2.elim hfree (fun h => hin h.1))))
    rintro ⟨ret, hret, -⟩
    cases hret
  rw [if_pos ⟨by omega, hin⟩, ok_bind]
  by_cases hpeer : (s.sockets (s.ports port)).status = 0 ∨ (s.sockets (s.ports port)).socksend ≥ 0
  · rw [if_pos hpeer]
    exact iff_of_true ⟨-1, rfl, by decide⟩ (.inr (.inr ⟨hlow, .inr ⟨hin, hpeer⟩⟩))
  · rw [if_neg hpeer]
    refine iff_of_false ?_
      (fun h => h.elim hoff (fun h => h.elim hhigh (fun h => h.2.elim hfree (fun h => hpeer h.2))))
    rintro ⟨ret, hret, hneg⟩
    obtain ⟨rfl, -⟩ := Prod.mk.inj (Except.ok.inj hret)
    exact absurd hneg (by decide)

end Named

theorem unmoved_int {x : Except Stop (Int × State)} :
    (∃ reply, (x >>= fun p => Except.ok (Reply.int p.1, p.2)) = .ok (reply, s) ∧ reply.isError = true) ↔
      ∃ ret, x = .ok (ret, s) ∧ ret < 0 := by
  constructor
  · rintro ⟨reply, hx, herr⟩
    obtain ⟨⟨ret, t⟩, hok, hret⟩ := bind_eq_ok.1 hx
    obtain ⟨rfl, rfl⟩ := Prod.mk.inj (Except.ok.inj hret)
    exact ⟨ret, hok, by simpa [Reply.isError] using herr⟩
  · rintro ⟨ret, rfl, hneg⟩
    exact ⟨.int ret, rfl, by simpa [Reply.isError] using hneg⟩

/-- **A call that names a socket of another client** is refused exactly where the owner's would be. -/
theorem State.foreign_unmoved (h : s.foreign r = true) : s.Unmoved r ↔ s.Refuses r.call := by
  obtain ⟨o, a, ho, ha, hin, hne⟩ := State.foreign_iff.1 h
  obtain ⟨obj, call⟩ := r
  obtain rfl : obj = some o := ho
  unfold State.Unmoved
  cases call with
  | socket => cases ha
  | bind b port =>
    obtain rfl : b = a := Option.some.inj ha
    exact unmoved_int.trans (bind_refuses hin port)
  | connect b port =>
    obtain rfl : b = a := Option.some.inj ha
    exact unmoved_int.trans (connect_refuses hin port)
  | recfrom b =>
    obtain rfl : b = a := Option.some.inj ha
    refine iff_of_true ⟨.ptr Cap.null, ?_, rfl⟩ trivial
    show (Sockets.recfrom (some o) b s >>= _) = _
    rw [recfrom_foreign hin hne]
    rfl
  | sendto b msg =>
    obtain rfl : b = a := Option.some.inj ha
    exact iff_of_true (unmoved_int.2 (sendto_foreign hin hne msg)) trivial

/-! ## Runs -/

/-- **Sockets and their owners.**  In every state a call that names a socket of another client fails and changes nothing
exactly when it would be refused whoever asks; and where all such calls of a run are, the run without them reaches the
same tables. -/
theorem sockets_owned (hr : TableRun tr s) :
    (∀ r, s.foreign r = true → (s.Unmoved r ↔ s.Refuses r.call)) ∧
    ((∀ st ∈ tr, st.pre.foreign st.ev = true → st.pre.Refuses st.ev.call) →
      TableRun (tr.filter (fun st => !st.pre.foreign st.ev)) s) := by
  refine ⟨fun r hf => State.foreign_unmoved hf, fun hall => Run.filter hr (fun st hm hp => ?_)⟩
  have hf : st.pre.foreign st.ev = true := by simpa using hp
  obtain ⟨reply, hun, -⟩ := (State.foreign_unmoved hf).2 (hall st hm hf)
  obtain ⟨-, -, -, -, reply', hst⟩ := Run.cut_of_mem hr hm
  rw [hun] at hst
  exact (Prod.mk.inj (Except.ok.inj hst)).2.symm

/-- A client receives on the socket of another. -/
theorem sockets_owned_recfrom : ∃ tr s, TableRun tr s ∧ s.Unmoved ⟨some 4, .recfrom 0⟩ := by
  obtain ⟨tr, k, hr, -, -, hp⟩ := play_run (fun _ _ => true) [ask .socket]
    (fun k => k.tab.foreign ⟨some 4, .recfrom 0⟩) (by decide)
  exact ⟨_, k.tab, SocketRun.tables hr, ((sockets_owned (SocketRun.tables hr)).1 _ hp).2 trivial⟩

/-- **A client binds the socket of another**, and connects it. -/
theorem sockets_owned_fails : ∃ tr s, TableRun tr s ∧ (s.sockets 0).oid = 3 ∧
    s.foreign ⟨some 4, .bind 0 5⟩ = true ∧ s.foreign ⟨some 4, .connect 0 6⟩ = true ∧
    (∃ s', s.handle ⟨some 4, .bind 0 5⟩ = .ok (.int 0, s') ∧ s'.ports 5 = 0 ∧ s.ports 5 = -1) ∧
    ∃ s', s.handle ⟨some 4, .connect 0 6⟩ = .ok (.int 0, s') ∧ (s'.sockets 0).socksend = 1 ∧
      (s.sockets 0).socksend = -1 := by
  obtain ⟨tr, k, hr, -, -, hp⟩ := play_run (fun _ _ => true)
    [ask .socket, ⟨some 4, .socket⟩, ⟨some 4, .bind 1 6⟩]
    (fun k => (k.tab.sockets 0).oid == 3 && (k.tab.foreign ⟨some 4, .bind 0 5⟩ &&
      (k.tab.foreign ⟨some 4, .connect 0 6⟩ &&
      ((k.tab.handle ⟨some 4, .bind 0 5⟩).toOption.any (fun p => p.1 == .int 0 && p.2.ports 5 == 0) &&
      (k.tab.ports 5 == -1 && ((k.tab.handle ⟨some 4, .connect 0 6⟩).toOption.any
        (fun p => p.1 == .int 0 && (p.2.sockets 0).socksend == 1) && (k.tab.sockets 0).socksend == -1))))))
    (by decide)
  have hok : ∀ {r : Request} {q : Reply × State → Bool}, (k.tab.handle r).toOption.any q = true →
      ∃ p, k.tab.handle r = .ok p ∧ q p = true := by
    intro r q h
    cases hk : k.tab.handle r with
    | ok p => exact ⟨p, rfl, by rw [hk] at h; exact h⟩
    | error e => rw [hk] at h; cases h
  simp only [Bool.and_eq_true, beq_iff_eq] at hp
  obtain ⟨howner, hf, hf', hbind, hport, hconn, hsend⟩ := hp
  obtain ⟨⟨_, s₁⟩, hb, hq⟩ := hok hbind
  obtain ⟨⟨_, s₂⟩, hc, hq'⟩ := hok hconn
  simp only [Bool.and_eq_true, beq_iff_eq] at hq hq'
  obtain ⟨rfl, hp₁⟩ := hq
  obtain ⟨rfl, hp₂⟩ := hq'
  exact ⟨_, k.tab, SocketRun.tables hr, howner, hf, hf', ⟨s₁, hb, hp₁, hport⟩, s₂, hc, hp₂, hsend⟩

end Sockets
end CheriOS
