import CheriOS.Sockets.Owner
/-!
# Effect — what an answered call did, whatever its arguments

The clients pass any integers.  From tables that calls have made, each method computes one of a few outcomes, and an
answered call opened, bound, linked, received or sent something, or was refused and changed nothing.
-/
namespace CheriOS
namespace Sockets

open Outcome
open Transition (Run)

/-- **The tables of a run**: sockets that are handed out are on, the others zero, and what is stored as a socket is one
that was handed out. -/
structure Tables (s : State) : Prop where
  size : 0 ≤ s.nextSocket ∧ s.nextSocket ≤ maxSocket + 1
  on : ∀ a, s.Opened a → (s.sockets a).status = 1
  off : ∀ a, ¬ s.Opened a → s.sockets a = Socket.zero
  bound : ∀ p, s.ports p = -1 ∨ s.Opened (s.ports p)
  send : ∀ a, s.Opened a → (s.sockets a).socksend = -1 ∨ s.Opened (s.sockets a).socksend

/-- A socket that is the same, but for which NULL it holds where it holds none. -/
structure Socket.Same (k k' : Socket) : Prop where
  status : k'.status = k.status
  oid : k'.oid = k.oid
  socksend : k'.socksend = k.socksend
  msg : k'.msg = k.msg ∨ (k.msg.isNull = true ∧ k'.msg.isNull = true)

/-- **Tables that are the same.** -/
structure State.Same (s s' : State) : Prop where
  ports : s'.ports = s.ports
  sockets : ∀ a, (s.sockets a).Same (s'.sockets a)
  nextSocket : s'.nextSocket = s.nextSocket

theorem State.Same.refl (s : State) : s.Same s := ⟨rfl, fun _ => ⟨rfl, rfl, rfl, .inl rfl⟩, rfl⟩

/-- **What an answered call did.** -/
inductive Effect (s : State) : Request → Reply → State → Prop where
  | opened (oid : Int) : s.nextSocket ≤ maxSocket →
      Effect s ⟨some oid, .socket⟩ (.int s.nextSocket) (s.handOut oid)
  | bound {obj : Option Int} {a port : Int} : s.Opened a → 0 ≤ port ∧ port ≤ maxPort → s.ports port < 0 →
      Effect s ⟨obj, .bind a port⟩ (.int 0) (s.setPort port a)
  | linked {obj : Option Int} {a port : Int} : s.Opened a → 0 ≤ port ∧ port ≤ maxPort → s.Opened (s.ports port) →
      (s.sockets (s.ports port)).socksend < 0 →
      Effect s ⟨obj, .connect a port⟩ (.int 0) (s.linked a (s.ports port))
  | received {o a : Int} : s.Opened a → (s.sockets a).oid = o →
      Effect s ⟨some o, .recfrom a⟩ (.ptr (s.sockets a).msg) (s.setSocket a { s.sockets a with msg := Cap.null })
  | sent {o a : Int} {msg : Cap} : s.Opened a → s.Opened (s.sockets a).socksend → (s.sockets a).oid = o →
      (s.sockets (s.sockets a).socksend).msg.isNull = true →
      Effect s ⟨some o, .sendto a msg⟩ (.int 0)
        (s.setSocket (s.sockets a).socksend { s.sockets (s.sockets a).socksend with msg := msg })
  | refused {r : Request} {reply : Reply} : reply.isError = true → Effect s r reply s

variable {s s' : State} {r : Request} {reply : Reply} {a port : Int} {obj : Option Int} {msg : Cap}
  {tr : List (Transition.Step State Request)}

/-! ## The outcomes of each method -/

section Outcomes

variable (hT : Tables s)
include hT

theorem Tables.le_of_opened (ha : s.Opened a) : 0 ≤ a ∧ a ≤ maxSocket := by
  have hsize := hT.size
  have hlt := ha.2
  exact ⟨ha.1, by omega⟩

theorem Tables.socketAt (ha : s.Opened a) : socketAt a s = .ok (s.sockets a) := if_pos (hT.le_of_opened ha)

theorem Tables.isOff (h0 : 0 ≤ a) : Sockets.isOff a s = .ok (!decide (s.Opened a)) := by
  by_cases hle : a > maxSocket
  · have hno : ¬ s.Opened a := fun ha => absurd (hT.le_of_opened ha).2 (by omega)
    simp [Sockets.isOff, hle, hno]
  · rw [isOff_eq ⟨h0, by omega⟩]
    by_cases ha : s.Opened a
    · simp [ha, hT.on a ha]
    · simp [ha, hT.off a ha, Socket.zero]

theorem Tables.socket_eq (obj : Option Int) : Sockets.socket obj s =
    match obj with
    | none => .error (.assertion .socketObj)
    | some oid =>
      if s.nextSocket ≤ maxSocket then .ok (s.nextSocket, s.handOut oid) else .error (.assertion .socketNext) := by
  cases obj with
  | none => rfl
  | some oid =>
    by_cases hle : s.nextSocket ≤ maxSocket
    · have hat : Sockets.socketAt s.nextSocket s = .ok Socket.zero := by
        rw [← hT.off _ s.not_opened_next]
        exact if_pos ⟨hT.size.1, hle⟩
      simp [Sockets.socket, cookie, assert, hle, hat]
      rfl
    · simp [Sockets.socket, cookie, assert, hle]

theorem Tables.bind_eq (h0 : 0 ≤ a) (port : Int) : Sockets.bind a port s =
    if s.Opened a then
      if 0 ≤ port ∧ port ≤ maxPort then
        if s.ports port ≥ 0 then .ok (-1, s) else .ok (0, s.setPort port a)
      else .error (.outOfBounds .ports)
    else .ok (-1, s) := by
  rw [Sockets.bind, hT.isOff h0, ok_bind]
  by_cases ha : s.Opened a
  · by_cases hp : 0 ≤ port ∧ port ≤ maxPort
    · simp [ha, portAt, hp]
      rfl
    · simp [ha, portAt, hp]
  · simp [ha]
    rfl

theorem Tables.connect_eq (h0 : 0 ≤ a) (port : Int) : Sockets.connect a port s =
    if s.Opened a then
      if port < 0 then .error (.outOfBounds .ports)
      else if port ≤ maxPort ∧ s.Opened (s.ports port) ∧ (s.sockets (s.ports port)).socksend < 0 then
        .ok (0, s.linked a (s.ports port))
      else .ok (-1, s)
    else .ok (-1, s) := by
  rw [Sockets.connect, hT.isOff h0, ok_bind]
  by_cases ha : s.Opened a
  case neg =>
    simp [ha]
    rfl
  by_cases hlow : port < 0
  · have hle : ¬ port > maxPort := by
      show ¬ port > 16
      omega
    have hp : ¬ (0 ≤ port ∧ port ≤ maxPort) := by omega
    simp [ha, hlow, hle, portAt, hp]
  by_cases hhigh : port > maxPort
  · have hle : ¬ port ≤ maxPort := by omega
    simp [ha, hlow, hhigh, hle]
    rfl
  have hp : 0 ≤ port ∧ port ≤ maxPort := by omega
  simp only [ha, decide_true, Bool.not_true, Bool.false_eq_true, if_false, hhigh, portAt, hp, and_self, if_true,
    ok_bind, hlow, true_and]
  rcases hT.bound port with hb | hb
  · have hno : ¬ s.Opened (-1) := fun h => absurd h.1 (by decide)
    simp [hb, hno]
    rfl
  · have hneg : ¬ s.ports port < 0 := by
      have := hb.1
      omega
    by_cases hfree : (s.sockets (s.ports port)).socksend < 0
    · have hge : ¬ (s.sockets (s.ports port)).socksend ≥ 0 := by omega
      simp [hneg, hT.socketAt hb, hT.on _ hb, hb, hfree, hge, State.linked]
      rfl
    · have hge : (s.sockets (s.ports port)).socksend ≥ 0 := by omega
      simp [hneg, hT.socketAt hb, hT.on _ hb, hfree, hge]
      rfl

theorem Tables.recfrom_eq (h0 : 0 ≤ a) (obj : Option Int) : Sockets.recfrom obj a s =
    if s.Opened a then
      match obj with
      | none => .error (.assertion .recfromObj)
      | some o =>
        if (s.sockets a).oid = o then
          .ok ((s.sockets a).msg, s.setSocket a { s.sockets a with msg := Cap.null })
        else .ok (Cap.null, s)
    else .ok (Cap.null, s) := by
  rw [Sockets.recfrom, hT.isOff h0, ok_bind]
  by_cases ha : s.Opened a
  · cases obj with
    | none => simp [ha, cookie]
    | some o =>
      simp [ha, cookie, hT.socketAt ha]
      rfl
  · simp [ha]
    rfl

theorem Tables.sendto_eq (h0 : 0 ≤ a) (obj : Option Int) (msg : Cap) : Sockets.sendto obj a msg s =
    if s.Opened a then
      if (s.sockets a).socksend < 0 then .ok (-4, s)
      else
        match obj with
        | none => .error (.assertion .sendtoObj)
        | some o =>
          if (s.sockets a).oid = o ∧ (s.sockets (s.sockets a).socksend).msg.isNull = true then
            .ok (0, s.setSocket (s.sockets a).socksend { s.sockets (s.sockets a).socksend with msg := msg })
          else .ok (-1, s)
    else if a > maxSocket then .ok (-2, s)
    else .ok (-3, s) := by
  rw [Sockets.sendto]
  by_cases hle : a > maxSocket
  · have hno : ¬ s.Opened a := fun ha => absurd (hT.le_of_opened ha).2 (by omega)
    simp [hle, hno]
    rfl
  have hat : Sockets.socketAt a s = .ok (s.sockets a) := if_pos ⟨h0, by omega⟩
  rw [if_neg hle, hat, ok_bind]
  by_cases ha : s.Opened a
  case neg =>
    simp [ha, hT.off a ha, Socket.zero, hle]
    rfl
  have hon : ¬ (s.sockets a).status = 0 := by
    rw [hT.on a ha]
    decide
  rw [if_neg hon, if_pos ha]
  by_cases hpeer : (s.sockets a).socksend < 0
  · simp [hpeer]
    rfl
  have hopen : s.Opened (s.sockets a).socksend := (hT.send a ha).resolve_left (fun he => hpeer (by rw [he]; decide))
  cases obj with
  | none => simp [hpeer, cookie]
  | some o =>
    by_cases ho : (s.sockets a).oid = o
    · by_cases hnull : (s.sockets (s.sockets a).socksend).msg.isNull = true
      · simp [hpeer, cookie, ho, hT.socketAt hopen, hnull]
        rfl
      · simp [hpeer, cookie, ho, hT.socketAt hopen, hnull]
    · simp [hpeer, cookie, ho]
      rfl

end Outcomes

/-- **No method takes a negative socket.** -/
theorem negative_stops (h : a < 0) : (∀ port, Sockets.bind a port s = .error (.outOfBounds .sockets)) ∧
    (∀ port, Sockets.connect a port s = .error (.outOfBounds .sockets)) ∧
    (∀ obj, Sockets.recfrom obj a s = .error (.outOfBounds .sockets)) ∧
    ∀ obj msg, Sockets.sendto obj a msg s = .error (.outOfBounds .sockets) := by
  have hat : Sockets.socketAt a s = .error (.outOfBounds .sockets) := if_neg (by omega)
  have hle : ¬ a > maxSocket := by
    show ¬ a > 16
    omega
  have hoff : Sockets.isOff a s = .error (.outOfBounds .sockets) := by simp [Sockets.isOff, hle, hat]
  exact ⟨fun _ => by simp [Sockets.bind, hoff], fun _ => by simp [Sockets.connect, hoff],
    fun _ => by simp [Sockets.recfrom, hoff], fun _ _ => by simp [Sockets.sendto, hle, hat]⟩

/-! ## What answered calls do to the tables -/

theorem Effect.refuse {ret ret' : Int} (h : (.ok (ret, s) : Except Stop (Int × State)) = .ok (ret', s'))
    (hneg : ret < 0) : Effect s r (.int ret') s' := by
  cases h
  exact .refused (by simpa [Reply.isError] using hneg)

section Effects

variable (hT : Tables s) {ret : Int}
include hT

theorem Tables.socket_effect (h : Sockets.socket obj s = .ok (ret, s')) : Effect s ⟨obj, .socket⟩ (.int ret) s' := by
  rw [hT.socket_eq] at h
  cases obj with
  | none => cases h
  | some oid =>
    dsimp only at h
    split at h
    · obtain ⟨rfl, rfl⟩ := Prod.mk.inj (Except.ok.inj h)
      exact .opened oid ‹_›
    · cases h

theorem Tables.bind_effect (h : Sockets.bind a port s = .ok (ret, s')) :
    Effect s ⟨obj, .bind a port⟩ (.int ret) s' := by
  rcases Int.lt_or_le a 0 with hneg | h0
  · rw [(negative_stops hneg).1] at h
    cases h
  rw [hT.bind_eq h0] at h
  split_ifs at h with ha hp hb
  · exact .refuse h (by decide)
  · obtain ⟨rfl, rfl⟩ := Prod.mk.inj (Except.ok.inj h)
    exact .bound ha hp (by omega)
  · exact .refuse h (by decide)

theorem Tables.connect_effect (h : Sockets.connect a port s = .ok (ret, s')) :
    Effect s ⟨obj, .connect a port⟩ (.int ret) s' := by
  rcases Int.lt_or_le a 0 with hneg | h0
  · rw [(negative_stops hneg).2.1] at h
    cases h
  rw [hT.connect_eq h0] at h
  split_ifs at h with ha hp hl
  · obtain ⟨rfl, rfl⟩ := Prod.mk.inj (Except.ok.inj h)
    exact .linked ha ⟨by omega, hl.1⟩ hl.2.1 hl.2.2
  · exact .refuse h (by decide)
  · exact .refuse h (by decide)

theorem Tables.recfrom_effect {ret : Cap} (h : Sockets.recfrom obj a s = .ok (ret, s')) :
    Effect s ⟨obj, .recfrom a⟩ (.ptr ret) s' := by
  rcases Int.lt_or_le a 0 with hneg | h0
  · rw [(negative_stops hneg).2.2.1] at h
    cases h
  rw [hT.recfrom_eq h0] at h
  split at h
  case isFalse =>
    obtain ⟨rfl, rfl⟩ := Prod.mk.inj (Except.ok.inj h)
    exact .refused rfl
  rename_i ha
  cases obj with
  | none => cases h
  | some o =>
    dsimp only at h
    split at h
    · rename_i ho
      obtain ⟨rfl, rfl⟩ := Prod.mk.inj (Except.ok.inj h)
      exact .received ha ho
    · obtain ⟨rfl, rfl⟩ := Prod.mk.inj (Except.ok.inj h)
      exact .refused rfl

theorem Tables.sendto_effect (h : Sockets.sendto obj a msg s = .ok (ret, s')) :
    Effect s ⟨obj, .sendto a msg⟩ (.int ret) s' := by
  rcases Int.lt_or_le a 0 with hneg | h0
  · rw [(negative_stops hneg).2.2.2] at h
    cases h
  rw [hT.sendto_eq h0] at h
  by_cases ha : s.Opened a
  case neg =>
    rw [if_neg ha] at h
    split at h
    · exact .refuse h (by decide)
    · exact .refuse h (by decide)
  rw [if_pos ha] at h
  split at h
  · exact .refuse h (by decide)
  rename_i hpeer
  have hopen := (hT.send a ha).resolve_left (fun he => hpeer (by rw [he]; decide))
  cases obj with
  | none => cases h
  | some o =>
    dsimp only at h
    split at h
    · rename_i hs
      obtain ⟨rfl, rfl⟩ := Prod.mk.inj (Except.ok.inj h)
      exact .sent ha hopen hs.1 hs.2
    · exact .refuse h (by decide)

/-- **An answered call did one of these things.** -/
theorem Tables.effect (h : s.handle r = .ok (reply, s')) : Effect s r reply s' := by
  obtain ⟨obj, call⟩ := r
  cases call <;> obtain ⟨⟨ret, t⟩, hok, hret⟩ := bind_eq_ok.1 h <;>
    obtain ⟨rfl, rfl⟩ := Prod.mk.inj (Except.ok.inj hret)
  case socket => exact hT.socket_effect hok
  case bind => exact hT.bind_effect hok
  case connect => exact hT.connect_effect hok
  case recfrom => exact hT.recfrom_effect hok
  case sendto => exact hT.sendto_effect hok

end Effects

theorem Tables.handOut (hT : Tables s) (hle : s.nextSocket ≤ maxSocket) (oid : Int) : Tables (s.handOut oid) := by
  have hsize := hT.size
  have hopen := State.handOut_opened hsize.1 oid
  have hold : ∀ {a}, s.Opened a → a ≠ s.nextSocket := fun ha he => s.not_opened_next (he ▸ ha)
  constructor
  case size =>
    show 0 ≤ s.nextSocket + 1 ∧ s.nextSocket + 1 ≤ maxSocket + 1
    omega
  case on =>
    intro a ha
    rcases (hopen a).1 ha with rfl | ha
    · simp
    · simpa [hold ha] using hT.on a ha
  case off =>
    intro a ha
    rw [hopen] at ha
    have hne : a ≠ s.nextSocket := fun he => ha (.inl he)
    simpa [hne] using hT.off a (fun h => ha (.inr h))
  case bound => exact fun p => (hT.bound p).imp id (fun h => (hopen _).2 (.inr h))
  case send =>
    intro a ha
    rcases (hopen a).1 ha with rfl | ha
    · exact .inl (by simp)
    · rcases hT.send a ha with hs | hs
      · exact .inl (by simpa [hold ha] using hs)
      · exact .inr ((hopen _).2 (.inr (by simpa [hold ha] using hs)))

theorem Tables.setMsg (hT : Tables s) (ha : s.Opened a) (msg : Cap) :
    Tables (s.setSocket a { s.sockets a with msg := msg }) := by
  refine ⟨hT.size, fun x hx => ?_, fun x hx => ?_, hT.bound, fun x hx => ?_⟩
  · by_cases he : x = a
    · subst he
      simpa using hT.on x hx
    · simpa [he] using hT.on x hx
  · have he : x ≠ a := fun he => hx (he ▸ ha)
    simpa [he] using hT.off x hx
  · by_cases he : x = a
    · subst he
      simpa using hT.send x hx
    · simpa [he] using hT.send x hx

/-- **Answered calls keep the tables.** -/
theorem Effect.tables (hT : Tables s) (h : Effect s r reply s') : Tables s' := by
  cases h with
  | opened oid hle => exact hT.handOut hle oid
  | @bound obj a port ha hp hb =>
    refine ⟨hT.size, hT.on, hT.off, fun p => ?_, hT.send⟩
    by_cases he : p = port
    · exact .inr (by simpa [he] using ha)
    · simpa [he] using hT.bound p
  | @linked obj a port ha hp hc hfree =>
    refine ⟨hT.size, fun x hx => ?_, fun x hx => ?_, hT.bound, fun x hx => ?_⟩
    · simpa using hT.on x hx
    · have hxa : x ≠ a := fun he => hx (he ▸ ha)
      have hxc : x ≠ s.ports port := fun he => hx (he ▸ hc)
      simpa [hxa, hxc] using hT.off x hx
    · rw [State.linked_sockets]
      dsimp only
      split
      · exact .inr hc
      split
      · exact .inr ha
      · exact hT.send x hx
  | received ha ho => exact hT.setMsg ha Cap.null
  | @sent o a msg ha hopen ho hnull => exact hT.setMsg hopen msg
  | refused he => exact hT

theorem tables_init : Tables socketInit := by
  have hnone : ∀ a, ¬ State.Opened socketInit a := fun a ha => absurd ha.1 (Int.not_le.2 ha.2)
  exact ⟨by decide, fun a ha => absurd ha (hnone a), fun a _ => rfl, fun p => .inl rfl, fun a ha => absurd ha (hnone a)⟩

theorem TableRun.wf (hr : TableRun tr s) : Tables s :=
  Run.inv (I := Tables) (fun s (hs : s = socketInit) => hs ▸ tables_init)
    (fun _ _ _ hT ⟨_, hst⟩ => (hT.effect hst).tables hT) hr

/-- **An error changes nothing**: a `recfrom` that returns NULL has found NULL. -/
theorem Effect.same (hT : Tables s) (h : Effect s r reply s') (he : reply.isError = true) : s.Same s' := by
  cases h with
  | opened oid hle =>
    have hneg : s.nextSocket < 0 := by simpa [Reply.isError] using he
    exact absurd hT.size.1 (Int.not_le.2 hneg)
  | bound ha hp hb => exact absurd he (by decide)
  | linked ha hp hc hfree => exact absurd he (by decide)
  | @received o a ha ho =>
    refine ⟨rfl, fun x => ?_, rfl⟩
    rw [State.setSocket_sockets]
    split
    · rename_i hx
      subst hx
      exact ⟨rfl, rfl, rfl, .inr ⟨he, rfl⟩⟩
    · exact ⟨rfl, rfl, rfl, .inl rfl⟩
  | sent ha hopen ho hnull => exact absurd he (by decide)
  | refused _ => exact .refl s

end Sockets
end CheriOS
