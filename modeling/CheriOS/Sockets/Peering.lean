import CheriOS.Lib.Matching
import CheriOS.Lib.Run
import CheriOS.Sockets.Table
/-!
# Peering — who receives from whom

The clients of the socket service call its methods in any order.  `connect` links two sockets and looks at only one of
them: where the other has a peer already, that peer goes on sending to a socket whose messages go elsewhere.
-/
namespace CheriOS
namespace Sockets

open Outcome Matching
open Transition (Run)

/-! ## Requests -/

inductive Call where
  | socket
  | bind (socket port : Int)
  | connect (socket port : Int)
  | recfrom (socket : Int)
  | sendto (socket : Int) (msg : Cap)
  deriving DecidableEq, Repr

/-- A call and the object its caller's identifier points at. -/
structure Request where
  obj : Option Int
  call : Call
  deriving DecidableEq, Repr

/-- The table, and for each socket the one that the message waiting on it was sent from. -/
structure Sys where
  tab : State
  sender : Int → Int

namespace State

def Opened (s : State) (a : Int) : Prop := 0 ≤ a ∧ a < s.nextSocket

instance (s : State) (a : Int) : Decidable (s.Opened a) := inferInstanceAs (Decidable (_ ∧ _))

/-- **The socket that the messages of `a` go to.** -/
def peer (s : State) (a : Int) : Option Int :=
  if s.Opened a ∧ 0 ≤ (s.sockets a).socksend then some (s.sockets a).socksend else none

/-- Socket arguments are what `socket` has returned, ports are in the table. -/
def Takes (s : State) : Call → Prop
  | .socket => True
  | .bind a port => s.Opened a ∧ 0 ≤ port ∧ port ≤ maxPort
  | .connect a port => s.Opened a ∧ 0 ≤ port ∧ port ≤ maxPort
  | .recfrom a => s.Opened a
  | .sendto a _ => s.Opened a

instance (s : State) (c : Call) : Decidable (s.Takes c) := by
  cases c <;> unfold Takes <;> infer_instance

end State

namespace Sys

/-- **One request.** -/
def next (s : Sys) (r : Request) : Except Stop Sys :=
  match r.call with
  | .socket => do
    let (_, tab) ← Sockets.socket r.obj s.tab
    return { s with tab := tab }
  | .bind a port => do
    let (_, tab) ← Sockets.bind a port s.tab
    return { s with tab := tab }
  | .connect a port => do
    let (_, tab) ← Sockets.connect a port s.tab
    return { s with tab := tab }
  | .recfrom a => do
    let (_, tab) ← Sockets.recfrom r.obj a s.tab
    return { s with tab := tab }
  | .sendto a msg => do
    let (ret, tab) ← Sockets.sendto r.obj a msg s.tab
    return ⟨tab, if ret = 0 then Function.update s.sender (s.tab.sockets a).socksend a else s.sender⟩

end Sys

def Step (s : Sys) (r : Request) (s' : Sys) : Prop := s.tab.Takes r.call ∧ s.next r = .ok s'

/-- **A run of the service.** -/
abbrev SocketRun (tr : List (Transition.Step Sys Request)) (s : Sys) : Prop :=
  Run (fun s => s = ⟨socketInit, fun _ => -1⟩) Step tr s

variable {s s' : Sys} {r : Request} {tr : List (Transition.Step Sys Request)}

/-! ## What a step is -/

/-- **The tables of a run.** -/
structure Wf (s : Sys) : Prop where
  size : 0 ≤ s.tab.nextSocket ∧ s.tab.nextSocket ≤ maxSocket + 1
  on : ∀ a, s.tab.Opened a → (s.tab.sockets a).status = 1
  bound : ∀ p, s.tab.ports p = -1 ∨ s.tab.Opened (s.tab.ports p)
  send : ∀ a, s.tab.Opened a → (s.tab.sockets a).socksend = -1 ∨ s.tab.Opened (s.tab.sockets a).socksend
  sent : ∀ a, (s.tab.sockets a).msg.isNull = false → s.tab.Opened (s.sender a)

def State.handOut (s : State) (oid : Int) : State :=
  { s.setSocket s.nextSocket ⟨1, oid, -1, Cap.null⟩ with nextSocket := s.nextSocket + 1 }

def State.linked (s : State) (a c : Int) : State :=
  (s.setSocket c { s.sockets c with socksend := a }).setSocket a
    { (s.setSocket c { s.sockets c with socksend := a }).sockets a with socksend := c }

/-- **The steps, by the call and its outcome.** -/
inductive StepEnd (s : Sys) : Call → Sys → Prop where
  | opened (oid : Int) : s.tab.nextSocket ≤ maxSocket →
      StepEnd s .socket { s with tab := s.tab.handOut oid }
  | unbound (a port : Int) : StepEnd s (.bind a port) s
  | bound {a port : Int} : s.tab.Opened a → StepEnd s (.bind a port) { s with tab := s.tab.setPort port a }
  | refused {a port : Int} : s.tab.ports port < 0 ∨ 0 ≤ (s.tab.sockets (s.tab.ports port)).socksend →
      StepEnd s (.connect a port) s
  | linked {a port : Int} : s.tab.Opened a → s.tab.Opened (s.tab.ports port) →
      (s.tab.sockets (s.tab.ports port)).socksend < 0 →
      StepEnd s (.connect a port) { s with tab := s.tab.linked a (s.tab.ports port) }
  | nothing (a : Int) : StepEnd s (.recfrom a) s
  | received (a : Int) :
      StepEnd s (.recfrom a) { s with tab := s.tab.setSocket a { s.tab.sockets a with msg := Cap.null } }
  | unsent (a : Int) (msg : Cap) : StepEnd s (.sendto a msg) s
  | sent {a : Int} (msg : Cap) : s.tab.Opened a → s.tab.Opened (s.tab.sockets a).socksend →
      (s.tab.sockets (s.tab.sockets a).socksend).msg.isNull = true →
      StepEnd s (.sendto a msg)
        ⟨s.tab.setSocket (s.tab.sockets a).socksend { s.tab.sockets (s.tab.sockets a).socksend with msg := msg },
          Function.update s.sender (s.tab.sockets a).socksend a⟩

section Step

variable (hW : Wf s)
include hW

theorem Wf.socketAt {a : Int} (ha : s.tab.Opened a) : socketAt a s.tab = .ok (s.tab.sockets a) := by
  have := hW.size
  unfold State.Opened at ha
  exact if_pos ⟨ha.1, by omega⟩

theorem Wf.isOff {a : Int} (ha : s.tab.Opened a) : isOff a s.tab = .ok false := by
  have hsize := hW.size
  have hle : ¬ a > maxSocket := by
    unfold State.Opened at ha
    omega
  unfold Sockets.isOff
  rw [if_neg hle, hW.socketAt ha, ok_bind, hW.on a ha]
  rfl

theorem Wf.opened_of_send {a : Int} (ha : s.tab.Opened a) (h : ¬ (s.tab.sockets a).socksend < 0) :
    s.tab.Opened (s.tab.sockets a).socksend :=
  (hW.send a ha).resolve_left (fun he => h (by rw [he]; decide))

omit hW in
theorem socket_end {obj : Option Int} {ret : Int} {tab : State} (h : Sockets.socket obj s.tab = .ok (ret, tab)) :
    StepEnd s .socket { s with tab := tab } := by
  unfold Sockets.socket at h
  obtain ⟨oid, -, h⟩ := bind_eq_ok.1 h
  obtain ⟨_, hle, h⟩ := bind_eq_ok.1 h
  obtain ⟨k, -, h⟩ := bind_eq_ok.1 h
  obtain ⟨_, -, h⟩ := bind_eq_ok.1 h
  obtain ⟨-, rfl⟩ := Prod.mk.inj (Except.ok.inj h)
  have hlt : s.tab.nextSocket ≤ maxSocket := by
    unfold assert at hle
    split at hle
    · rename_i hd
      simpa using hd
    · cases hle
  exact .opened oid hlt

theorem bind_end {a port ret : Int} {tab : State} (ha : s.tab.Opened a) (h : Sockets.bind a port s.tab = .ok (ret, tab)) :
    StepEnd s (.bind a port) { s with tab := tab } := by
  unfold Sockets.bind at h
  rw [hW.isOff ha, ok_bind, if_neg Bool.false_ne_true] at h
  obtain ⟨k, -, h⟩ := bind_eq_ok.1 h
  split at h
  · obtain ⟨-, rfl⟩ := Prod.mk.inj (Except.ok.inj h)
    exact .unbound a port
  · obtain ⟨-, rfl⟩ := Prod.mk.inj (Except.ok.inj h)
    exact .bound ha

theorem connect_end {a port ret : Int} {tab : State} (ha : s.tab.Opened a) (hp : 0 ≤ port ∧ port ≤ maxPort)
    (h : Sockets.connect a port s.tab = .ok (ret, tab)) : StepEnd s (.connect a port) { s with tab := tab } := by
  have hport : portAt port s.tab = .ok (s.tab.ports port) := if_pos hp
  unfold Sockets.connect at h
  rw [hW.isOff ha, ok_bind, if_neg Bool.false_ne_true, if_neg (by omega), hport, ok_bind] at h
  split at h
  · rename_i hneg
    obtain ⟨-, rfl⟩ := Prod.mk.inj (Except.ok.inj h)
    exact .refused (.inl hneg)
  rename_i hneg
  have hc : s.tab.Opened (s.tab.ports port) := (hW.bound port).resolve_left (fun he => hneg (by rw [he]; decide))
  rw [hW.socketAt hc, ok_bind, hW.on _ hc] at h
  split at h
  · rename_i hfull
    obtain ⟨-, rfl⟩ := Prod.mk.inj (Except.ok.inj h)
    exact .refused (.inr (hfull.resolve_left (by decide)))
  · rename_i hfree
    obtain ⟨-, rfl⟩ := Prod.mk.inj (Except.ok.inj h)
    exact .linked ha hc (by omega)

theorem recfrom_end {obj : Option Int} {a : Int} {ret : Cap} {tab : State} (ha : s.tab.Opened a)
    (h : Sockets.recfrom obj a s.tab = .ok (ret, tab)) : StepEnd s (.recfrom a) { s with tab := tab } := by
  unfold Sockets.recfrom at h
  rw [hW.isOff ha, ok_bind, if_neg Bool.false_ne_true] at h
  obtain ⟨oid, -, h⟩ := bind_eq_ok.1 h
  rw [hW.socketAt ha, ok_bind] at h
  split at h
  · obtain ⟨-, rfl⟩ := Prod.mk.inj (Except.ok.inj h)
    exact .received a
  · obtain ⟨-, rfl⟩ := Prod.mk.inj (Except.ok.inj h)
    exact .nothing a

theorem sendto_end {obj : Option Int} {a ret : Int} {msg : Cap} {tab : State} (ha : s.tab.Opened a)
    (h : Sockets.sendto obj a msg s.tab = .ok (ret, tab)) :
    StepEnd s (.sendto a msg)
      ⟨tab, if ret = 0 then Function.update s.sender (s.tab.sockets a).socksend a else s.sender⟩ := by
  have hle : ¬ a > maxSocket := by
    have := hW.size
    unfold State.Opened at ha
    omega
  unfold Sockets.sendto at h
  rw [if_neg hle, hW.socketAt ha, ok_bind, if_neg (by rw [hW.on a ha]; decide)] at h
  split at h
  · obtain ⟨rfl, rfl⟩ := Prod.mk.inj (Except.ok.inj h)
    exact .unsent a msg
  rename_i hpeer
  have hopen := hW.opened_of_send ha hpeer
  obtain ⟨oid, -, h⟩ := bind_eq_ok.1 h
  rw [hW.socketAt hopen] at h
  split at h
  case isFalse =>
    obtain ⟨rfl, rfl⟩ := Prod.mk.inj (Except.ok.inj h)
    exact .unsent a msg
  rw [ok_bind] at h
  split at h
  · rename_i hnull
    obtain ⟨rfl, rfl⟩ := Prod.mk.inj (Except.ok.inj h)
    exact .sent msg ha hopen hnull
  · obtain ⟨rfl, rfl⟩ := Prod.mk.inj (Except.ok.inj h)
    exact .unsent a msg

theorem Step.cases (h : Step s r s') : StepEnd s r.call s' := by
  obtain ⟨htake, h⟩ := h
  unfold Sys.next at h
  cases hc : r.call with
  | socket =>
    rw [hc] at h
    obtain ⟨p, hp, h⟩ := bind_eq_ok.1 h
    exact Except.ok.inj h ▸ socket_end hp
  | bind a port =>
    rw [hc] at h htake
    obtain ⟨p, hp, h⟩ := bind_eq_ok.1 h
    exact Except.ok.inj h ▸ bind_end hW htake.1 hp
  | connect a port =>
    rw [hc] at h htake
    obtain ⟨p, hp, h⟩ := bind_eq_ok.1 h
    exact Except.ok.inj h ▸ connect_end hW htake.1 htake.2 hp
  | recfrom a =>
    rw [hc] at h htake
    obtain ⟨p, hp, h⟩ := bind_eq_ok.1 h
    exact Except.ok.inj h ▸ recfrom_end hW htake hp
  | sendto a msg =>
    rw [hc] at h htake
    obtain ⟨p, hp, h⟩ := bind_eq_ok.1 h
    exact Except.ok.inj h ▸ sendto_end hW htake hp

end Step

/-! ## The tables stay well formed -/

@[simp] theorem State.setSocket_opened (s : State) (a x : Int) (k : Socket) : (s.setSocket a k).Opened x ↔ s.Opened x :=
  Iff.rfl

@[simp] theorem State.setPort_opened (s : State) (port a x : Int) : (s.setPort port a).Opened x ↔ s.Opened x := Iff.rfl

@[simp] theorem State.linked_opened (s : State) (a c x : Int) : (s.linked a c).Opened x ↔ s.Opened x := Iff.rfl

@[simp] theorem State.handOut_sockets (s : State) (oid x : Int) : (s.handOut oid).sockets x =
    if x = s.nextSocket then ⟨1, oid, -1, Cap.null⟩ else s.sockets x := Function.update_apply _ _ _ _

@[simp] theorem State.handOut_ports (s : State) (oid : Int) : (s.handOut oid).ports = s.ports := rfl

theorem State.handOut_opened {s : State} (h : 0 ≤ s.nextSocket) (oid a : Int) :
    (s.handOut oid).Opened a ↔ a = s.nextSocket ∨ s.Opened a := by
  show 0 ≤ a ∧ a < s.nextSocket + 1 ↔ a = s.nextSocket ∨ 0 ≤ a ∧ a < s.nextSocket
  omega

theorem State.not_opened_next (s : State) : ¬ s.Opened s.nextSocket := fun h => Int.lt_irrefl _ h.2

@[simp] theorem State.linked_sockets (s : State) (a c x : Int) : (s.linked a c).sockets x =
    { s.sockets x with socksend := if x = a then c else if x = c then a else (s.sockets x).socksend } := by
  by_cases hxa : x = a
  · subst hxa
    by_cases hxc : x = c <;> simp [State.linked, hxc]
  · by_cases hxc : x = c
    · subst hxc
      simp [State.linked, hxa]
    · simp [State.linked, hxa, hxc]

theorem Wf.handOut (hW : Wf s) (hle : s.tab.nextSocket ≤ maxSocket) (oid : Int) :
    Wf { s with tab := s.tab.handOut oid } := by
  have hsize := hW.size
  have hopen := State.handOut_opened hsize.1 oid
  constructor
  case size =>
    show 0 ≤ s.tab.nextSocket + 1 ∧ s.tab.nextSocket + 1 ≤ maxSocket + 1
    omega
  case on =>
    intro a ha
    rcases (hopen a).1 ha with rfl | hold
    · simp
    · have he : a ≠ s.tab.nextSocket := fun he => s.tab.not_opened_next (he ▸ hold)
      simpa [he] using hW.on a hold
  case bound => exact fun p => (hW.bound p).imp id (fun h => (hopen _).2 (.inr h))
  case send =>
    intro a ha
    rcases (hopen a).1 ha with rfl | hold
    · exact .inl (by simp)
    · have he : a ≠ s.tab.nextSocket := fun he => s.tab.not_opened_next (he ▸ hold)
      rcases hW.send a hold with hs | hs
      · exact .inl (by simpa [he] using hs)
      · exact .inr ((hopen _).2 (.inr (by simpa [he] using hs)))
  case sent =>
    intro a ha
    by_cases he : a = s.tab.nextSocket
    · simp [he, Cap.isNull, Cap.null, Cap.addr] at ha
    · exact (hopen _).2 (.inr (hW.sent a (by simpa [he] using ha)))

theorem Wf.setMsg (hW : Wf s) (a : Int) (msg : Cap) {sender : Int → Int}
    (hs : ∀ x, ((s.tab.setSocket a { s.tab.sockets a with msg := msg }).sockets x).msg.isNull = false →
      s.tab.Opened (sender x)) :
    Wf ⟨s.tab.setSocket a { s.tab.sockets a with msg := msg }, sender⟩ := by
  refine ⟨hW.size, fun x hx => ?_, hW.bound, fun x hx => ?_, hs⟩
  · by_cases he : x = a
    · subst he
      simpa using hW.on x hx
    · simpa [he] using hW.on x hx
  · by_cases he : x = a
    · subst he
      simpa using hW.send x hx
    · simpa [he] using hW.send x hx

theorem Wf.step {c : Call} (hW : Wf s) (h : StepEnd s c s') : Wf s' := by
  cases h with
  | opened oid hle => exact hW.handOut hle oid
  | unbound a port => exact hW
  | @bound a port ha =>
    refine ⟨hW.size, hW.on, fun p => ?_, hW.send, hW.sent⟩
    by_cases hp : p = port
    · exact .inr (by simpa [hp] using ha)
    · simpa [hp] using hW.bound p
  | refused _ => exact hW
  | @linked a port ha hc _ =>
    refine ⟨hW.size, fun x hx => ?_, hW.bound, fun x hx => ?_, fun x hx => ?_⟩
    · simpa using hW.on x hx
    · rw [State.linked_sockets]
      dsimp only
      split
      · exact .inr hc
      split
      · exact .inr ha
      · exact hW.send x hx
    · exact hW.sent x (by simpa using hx)
  | nothing a => exact hW
  | received a =>
    refine hW.setMsg a _ (fun x hx => ?_)
    by_cases he : x = a
    · simp [he, Cap.isNull, Cap.null, Cap.addr] at hx
    · exact hW.sent x (by simpa [he] using hx)
  | unsent a msg => exact hW
  | @sent a msg ha hpeer _ =>
    refine hW.setMsg _ _ (fun x hx => ?_)
    by_cases he : x = (s.tab.sockets a).socksend
    · simpa [he] using ha
    · simpa [he] using hW.sent x (by simpa [he] using hx)

theorem SocketRun.wf (hr : SocketRun tr s) : Wf s := by
  refine Run.inv (I := Wf) ?_ (fun s r s' hW hst => hW.step (Step.cases hW hst)) hr
  rintro s rfl
  have hnone : ∀ a, ¬ State.Opened socketInit a := fun a ha =>
    absurd ha.1 (by have := ha.2; simp [socketInit] at this; omega)
  exact ⟨by decide, fun a ha => absurd ha (hnone a), fun p => .inl rfl, fun a ha => absurd ha (hnone a),
    fun a ha => by simp [socketInit, Socket.zero, Cap.isNull, Cap.null, Cap.addr] at ha⟩

/-! ## Peers -/

/-- **Peering is symmetric**: what `socket` has returned is connected in pairs, and a message waits where the messages
of its receiver go to its sender. -/
structure Peered (s : Sys) : Prop where
  symmetric : ∀ a t, s.tab.Opened a → (s.tab.sockets a).socksend = t → 0 ≤ t →
    (s.tab.sockets t).status = 1 ∧ (s.tab.sockets t).socksend = a
  disjoint : ∀ a b t, s.tab.Opened a → s.tab.Opened b → (s.tab.sockets a).socksend = t →
    (s.tab.sockets b).socksend = t → 0 ≤ t → a = b
  delivered : ∀ t, s.tab.Opened t → (s.tab.sockets t).msg.isNull = false → (s.tab.sockets t).socksend = s.sender t

/-- **A `connect` that takes no peer away**: the socket has none, or it is about to be refused, or the socket is its own
peer and has received what it sent. -/
def State.Free (s : State) : Call → Prop
  | .connect a port => (s.sockets a).socksend < 0 ∨ s.ports port < 0 ∨ 0 ≤ (s.sockets (s.ports port)).socksend ∨
      ((s.sockets a).socksend = a ∧ (s.sockets a).msg.isNull = true)
  | _ => True

theorem State.peer_eq_some {s : State} {a t : Int} :
    s.peer a = some t ↔ s.Opened a ∧ 0 ≤ t ∧ (s.sockets a).socksend = t := by
  unfold State.peer
  split
  · rename_i h
    rw [Option.some.injEq]
    constructor
    · rintro rfl
      exact ⟨h.1, h.2, rfl⟩
    · exact fun h => h.2.2
  · rename_i h
    constructor
    · intro hn
      cases hn
    · rintro ⟨ha, ht, rfl⟩
      exact absurd ⟨ha, ht⟩ h

theorem State.peer_eq_none {s : State} {a : Int} (ha : s.Opened a) : s.peer a = none ↔ (s.sockets a).socksend < 0 := by
  unfold State.peer
  by_cases h : 0 ≤ (s.sockets a).socksend
  · simp [ha, h]
  · simp [h, Int.not_le.1 h]

theorem State.peer_congr {s t : State} (ho : ∀ x, t.Opened x ↔ s.Opened x)
    (hs : ∀ x, (t.sockets x).socksend = (s.sockets x).socksend) : t.peer = s.peer := by
  funext x
  simp only [State.peer, ho, hs]

theorem State.peer_setMsg (s : State) (a : Int) (msg : Cap) :
    (s.setSocket a { s.sockets a with msg := msg }).peer = s.peer := by
  refine State.peer_congr (fun x => Iff.rfl) (fun x => ?_)
  by_cases he : x = a <;> simp [he]

theorem State.peer_handOut {s : State} (h : 0 ≤ s.nextSocket) (oid : Int) : (s.handOut oid).peer = s.peer := by
  funext x
  simp only [State.peer, State.handOut_opened h]
  by_cases hx : x = s.nextSocket
  · simp [hx, s.not_opened_next]
  · simp [hx]

/-- **An accepted `connect` links the two sockets.** -/
theorem State.peer_linked {s : State} {a c : Int} (ha : s.Opened a) (hc : s.Opened c) :
    (s.linked a c).peer = link s.peer a c := by
  funext x
  unfold State.peer
  by_cases hxa : x = a
  · subst hxa
    simp [ha, hc.1]
  by_cases hxc : x = c
  · subst hxc
    simp [hxa, hc, ha.1, link_right]
  · simp [hxa, hxc, link_of_ne hxa hxc]

theorem Wf.symm_iff (hW : Wf s) : Symm s.tab.peer ↔ ∀ a t, s.tab.Opened a → (s.tab.sockets a).socksend = t → 0 ≤ t →
    (s.tab.sockets t).status = 1 ∧ (s.tab.sockets t).socksend = a := by
  constructor
  · intro h a t ha hs ht
    obtain ⟨hopen, -, hback⟩ := State.peer_eq_some.1 (h (State.peer_eq_some.2 ⟨ha, ht, hs⟩))
    exact ⟨hW.on t hopen, hback⟩
  · intro h a t hat
    obtain ⟨ha, ht, hs⟩ := State.peer_eq_some.1 hat
    have hopen : s.tab.Opened t := hs ▸ hW.opened_of_send ha (by omega)
    exact State.peer_eq_some.2 ⟨hopen, ha.1, (h a t ha hs ht).2⟩

theorem Wf.peered_iff (hW : Wf s) : Peered s ↔ Symm s.tab.peer ∧
    ∀ t, s.tab.Opened t → (s.tab.sockets t).msg.isNull = false → (s.tab.sockets t).socksend = s.sender t := by
  constructor
  · exact fun h => ⟨hW.symm_iff.2 h.symmetric, h.delivered⟩
  · rintro ⟨hsymm, hdel⟩
    exact ⟨hW.symm_iff.1 hsymm, fun a b t ha hb hat hbt ht =>
      hsymm.inj (State.peer_eq_some.2 ⟨ha, ht, hat⟩) (State.peer_eq_some.2 ⟨hb, ht, hbt⟩), hdel⟩

/-- **Where linking keeps the peering**: the socket had no peer, or was its own and had nothing waiting. -/
theorem Wf.linked_iff {a port : Int} (hW : Wf s) (hsymm : Symm s.tab.peer)
    (hdel : ∀ t, s.tab.Opened t → (s.tab.sockets t).msg.isNull = false → (s.tab.sockets t).socksend = s.sender t)
    (ha : s.tab.Opened a) (hc : s.tab.Opened (s.tab.ports port))
    (hfree : (s.tab.sockets (s.tab.ports port)).socksend < 0) :
    (Symm (s.tab.linked a (s.tab.ports port)).peer ∧ ∀ t, s.tab.Opened t →
      ((s.tab.linked a (s.tab.ports port)).sockets t).msg.isNull = false →
      ((s.tab.linked a (s.tab.ports port)).sockets t).socksend = s.sender t) ↔ s.tab.Free (.connect a port) := by
  have hneg : ¬ s.tab.ports port < 0 := Int.not_lt.2 hc.1
  have hnone : s.tab.peer (s.tab.ports port) = none := (State.peer_eq_none hc).2 hfree
  have hkeep : Symm (s.tab.linked a (s.tab.ports port)).peer ↔
      (s.tab.sockets a).socksend < 0 ∨ (s.tab.sockets a).socksend = a := by
    have hself : s.tab.peer a = some a ↔ (s.tab.sockets a).socksend = a := by
      simp [State.peer_eq_some, ha, ha.1]
    rw [State.peer_linked ha hc, hsymm.link_iff hnone, State.peer_eq_none ha, hself]
  have hwait : ∀ t, (s.tab.sockets t).msg.isNull = false → s.tab.Opened t → 0 ≤ (s.tab.sockets t).socksend :=
    fun t hm ht => hdel t ht hm ▸ (hW.sent t hm).1
  have hmsg : ∀ t, ((s.tab.linked a (s.tab.ports port)).sockets t).msg = (s.tab.sockets t).msg := fun t => by simp
  -- a socket with a message has a peer, so it is not the one that has been waiting for a peer
  have hother : (∀ t, s.tab.Opened t → (s.tab.sockets t).msg.isNull = false → t ≠ a) → ∀ t, s.tab.Opened t →
      ((s.tab.linked a (s.tab.ports port)).sockets t).msg.isNull = false →
      ((s.tab.linked a (s.tab.ports port)).sockets t).socksend = s.sender t := fun hta t ht hm => by
    rw [hmsg] at hm
    have hwt := hwait t hm ht
    have htc : t ≠ s.tab.ports port := by
      rintro rfl
      omega
    have hsame : ((s.tab.linked a (s.tab.ports port)).sockets t).socksend = (s.tab.sockets t).socksend := by
      simp [hta t ht hm, htc]
    exact hsame.trans (hdel t ht hm)
  constructor
  · rintro ⟨hs, hd⟩
    rcases hkeep.1 hs with hneg | hself
    · exact .inl hneg
    · refine .inr (.inr (.inr ⟨hself, by_contra fun hm => ?_⟩))
      rw [Bool.not_eq_true] at hm
      have hpost := hd a ha ((congrArg Cap.isNull (hmsg a)).trans hm)
      rw [← hdel a ha hm, hself] at hpost
      have hca : s.tab.ports port = a := by simpa using hpost
      rw [hca, hself] at hfree
      exact absurd hfree (Int.not_lt.2 ha.1)
  · rintro (hlt | hlt | hle | ⟨hself, hnull⟩)
    · refine ⟨hkeep.2 (.inl hlt), hother fun t ht hm => ?_⟩
      rintro rfl
      have := hwait t hm ht
      omega
    · exact absurd hlt hneg
    · omega
    · refine ⟨hkeep.2 (.inr hself), hother fun t ht hm => ?_⟩
      rintro rfl
      rw [hnull] at hm
      cases hm

/-- **A step keeps the peering exactly when it takes no peer away.** -/
theorem Peered.step_iff {c : Call} (h : Peered s) (hW : Wf s) (hst : StepEnd s c s') :
    Peered s' ↔ s.tab.Free c := by
  have hW' := hW.step hst
  rw [hW.peered_iff] at h
  obtain ⟨hsymm, hdel⟩ := h
  rw [hW'.peered_iff]
  cases hst with
  | opened oid hle =>
    refine iff_of_true ⟨State.peer_handOut hW.size.1 oid ▸ hsymm, fun t ht hm => ?_⟩ trivial
    by_cases he : t = s.tab.nextSocket
    · simp [he, Cap.isNull, Cap.null, Cap.addr] at hm
    · have hold := ((State.handOut_opened hW.size.1 oid t).1 ht).resolve_left he
      simpa [he] using hdel t hold (by simpa [he] using hm)
  | unbound a port => exact iff_of_true ⟨hsymm, hdel⟩ trivial
  | bound ha => exact iff_of_true ⟨hsymm, hdel⟩ trivial
  | refused hr => exact iff_of_true ⟨hsymm, hdel⟩ (.inr (hr.imp id .inl))
  | linked ha hc hfree => exact hW.linked_iff hsymm hdel ha hc hfree
  | nothing a => exact iff_of_true ⟨hsymm, hdel⟩ trivial
  | received a =>
    refine iff_of_true ⟨by rw [State.peer_setMsg]; exact hsymm, fun t ht hm => ?_⟩ trivial
    by_cases he : t = a
    · simp [he, Cap.isNull, Cap.null, Cap.addr] at hm
    · simpa [he] using hdel t ht (by simpa [he] using hm)
  | unsent a msg => exact iff_of_true ⟨hsymm, hdel⟩ trivial
  | @sent a msg ha hpeer _ =>
    refine iff_of_true ⟨by rw [State.peer_setMsg]; exact hsymm, fun t ht hm => ?_⟩ trivial
    by_cases he : t = (s.tab.sockets a).socksend
    · have hback := hsymm (State.peer_eq_some.2 ⟨ha, hpeer.1, rfl⟩)
      simpa [he] using (State.peer_eq_some.1 hback).2.2
    · simpa [he] using hdel t ht (by simpa [he] using hm)

/-! ## Runs -/

theorem peered_init : Peered ⟨socketInit, fun _ => -1⟩ := by
  have hnone : ∀ a, ¬ State.Opened socketInit a := fun a ha => by
    have h := ha.1
    have h' := ha.2
    simp only [socketInit] at h'
    omega
  exact ⟨fun a _ ha => absurd ha (hnone a), fun a _ _ ha => absurd ha (hnone a), fun a ha => absurd ha (hnone a)⟩

/-- **Sockets are peered in every state of a run** exactly when no `connect` of it takes a peer away. -/
theorem sockets_peered (hr : SocketRun tr s) :
    (Peered s ∧ ∀ st ∈ tr, Peered st.pre) ↔ ∀ st ∈ tr, st.pre.tab.Free st.ev.call := by
  induction hr with
  | nil h =>
    subst h
    simp [peered_init]
  | @cons tr s s' r hr hst ih =>
    have hW := SocketRun.wf hr
    simp only [List.mem_cons, forall_eq_or_imp, ← ih]
    constructor
    · rintro ⟨hp', hp, hall⟩
      exact ⟨(hp.step_iff hW (Step.cases hW hst)).1 hp', hp, hall⟩
    · rintro ⟨hfree, hp, hall⟩
      exact ⟨(hp.step_iff hW (Step.cases hW hst)).2 hfree, hp, hall⟩

def play (ok : Sys → Request → Bool) (rs : List Request) : Option Sys :=
  rs.foldlM (fun s r => if s.tab.Takes r.call ∧ ok s r then (s.next r).toOption else none) ⟨socketInit, fun _ => -1⟩

theorem play_run (ok : Sys → Request → Bool) (rs : List Request) (p : Sys → Bool) (h : (play ok rs).any p = true) :
    ∃ tr s, SocketRun tr s ∧ tr.map (·.ev) = rs.reverse ∧ (∀ st ∈ tr, ok st.pre st.ev = true) ∧ p s = true := by
  obtain ⟨s, hs, hp⟩ := (Option.any_eq_true _ _).1 h
  have hnext : ∀ s r s', (if s.tab.Takes r.call ∧ ok s r then (s.next r).toOption else none) = some s' →
      Step s r s' ∧ ok s r = true := by
    intro s r s' hs'
    split at hs'
    case isFalse => cases hs'
    case isTrue hok =>
      refine ⟨⟨hok.1, ?_⟩, hok.2⟩
      cases hk : s.next r with
      | ok k => rw [hk] at hs'; cases hs'; rfl
      | error st => rw [hk] at hs'; cases hs'
  have h₀ : SocketRun [] ⟨socketInit, fun _ => -1⟩ := .nil rfl
  obtain ⟨tr, hr, hev, hok⟩ := Run.of_foldlM hnext h₀ hs
  exact ⟨tr, s, by simpa using hr, hev, hok, hp⟩

instance (s : State) (c : Call) : Decidable (s.Free c) := by
  cases c <;> unfold State.Free <;> infer_instance

def ask (call : Call) : Request := ⟨some 3, call⟩

/-- Two sockets connect, and one sends to the other. -/
theorem sockets_peered_pair : ∃ tr s, SocketRun tr s ∧ (s.tab.sockets 1).msg = Cap.ddc ∧ Peered s := by
  obtain ⟨tr, s, hr, -, hfree, hp⟩ := play_run (fun s r => s.tab.Free r.call)
    [ask .socket, ask .socket, ask (.bind 1 4), ask (.connect 0 4), ask (.sendto 0 Cap.ddc)]
    (fun s => (s.tab.sockets 1).msg == Cap.ddc) (by decide)
  exact ⟨tr, s, hr, by simpa using hp, ((sockets_peered hr).2 (fun st hst => of_decide_eq_true (hfree st hst))).1⟩

/-- **A socket that connects a second time**: the socket it was connected to goes on sending to it, and its own messages
go elsewhere. -/
theorem sockets_peered_fails : ∃ tr s, SocketRun tr s ∧ (s.tab.sockets 1).socksend = 0 ∧
    (s.tab.sockets 0).socksend = 2 ∧ ¬ Peered s := by
  obtain ⟨tr, s, hr, -, -, hp⟩ := play_run (fun _ _ => true)
    [ask .socket, ask .socket, ask .socket, ask (.bind 1 4), ask (.bind 2 5), ask (.connect 0 4), ask (.connect 0 5)]
    (fun s => s.tab.Opened 1 && ((s.tab.sockets 1).socksend == 0 && (s.tab.sockets 0).socksend == 2)) (by decide)
  simp only [Bool.and_eq_true, decide_eq_true_eq, beq_iff_eq] at hp
  obtain ⟨hopen, h10, h02⟩ := hp
  refine ⟨tr, s, hr, h10, h02, fun h => ?_⟩
  have hback := (h.symmetric 1 0 hopen h10 (by decide)).2
  rw [h02] at hback
  cases hback

end Sockets
end CheriOS
