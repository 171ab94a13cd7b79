import CheriOS.Lib.Channel
import CheriOS.Sockets.Effect
/-!
# Delivery — messages between sockets

The room for one message that a socket has is its whole queue: a message is taken where the room is empty, and receiving
empties it.  Whoever is connected to whom, and however often, what a socket has received and what waits on it is what was
sent to it.
-/
namespace CheriOS
namespace Sockets

open Outcome Channel
open Transition (Run)

/-- A step: a request with its answer. -/
abbrev Answer : Type := Transition.Step State (Request × Reply)

/-- **A run with its answers**, whatever the arguments of its calls. -/
abbrev AnsweredRun (tr : List Answer) (s : State) : Prop :=
  Run (fun s => s = socketInit) (fun s (i : Request × Reply) s' => s.handle i.1 = .ok (i.2, s')) tr s

/-- A message that `recfrom(r)` returned. -/
def receivedAt (r : Int) (st : Answer) : List Cap :=
  match st.ev with
  | (⟨_, .recfrom a⟩, .ptr msg) => if a = r ∧ msg.isNull = false then [msg] else []
  | _ => []

/-- A message that a `sendto` took for `r`: it returned 0, and `r` was where the messages of its socket go. -/
def sentAt (r : Int) (st : Answer) : List Cap :=
  match st.ev with
  | (⟨_, .sendto a msg⟩, .int ret) =>
    if ret = 0 ∧ (st.pre.sockets a).socksend = r ∧ msg.isNull = false then [msg] else []
  | _ => []

/-- The message that waits on `r`. -/
def State.waiting (s : State) (r : Int) : List Cap :=
  if (s.sockets r).msg.isNull then [] else [(s.sockets r).msg]

variable {s s' : State} {req : Request} {reply : Reply} {tr : List Answer} {a r : Int} {msg : Cap}

theorem State.waiting_le (s : State) (r : Int) : (s.waiting r).length ≤ 1 := by
  unfold State.waiting
  split <;> simp

theorem State.waiting_congr (h : (s'.sockets r).msg = (s.sockets r).msg) : s'.waiting r = s.waiting r := by
  rw [State.waiting, State.waiting, h]

/-- An error neither sends nor receives. -/
theorem error_moves_nothing (h : reply.isError = true) (r : Int) :
    sentAt r ⟨s, (req, reply), s'⟩ = [] ∧ receivedAt r ⟨s, (req, reply), s'⟩ = [] := by
  obtain ⟨obj, call⟩ := req
  cases reply with
  | int ret =>
    have hne : ret ≠ 0 := by
      have : ret < 0 := by simpa [Reply.isError] using h
      omega
    cases call <;> simp [sentAt, receivedAt, hne]
  | ptr ret =>
    have hn : ret.isNull = true := h
    cases call <;> simp [sentAt, receivedAt, hn]

/-- **One call**: what waits and what is sent is what is received and what waits then. -/
theorem Effect.conserves (hT : Tables s) (h : Effect s req reply s') (r : Int) :
    s.waiting r ++ sentAt r ⟨s, (req, reply), s'⟩ = receivedAt r ⟨s, (req, reply), s'⟩ ++ s'.waiting r := by
  cases h with
  | opened oid hle =>
    show s.waiting r ++ [] = [] ++ _
    rw [List.append_nil, List.nil_append]
    by_cases hr : r = s.nextSocket
    · subst hr
      refine (State.waiting_congr ?_).symm
      rw [hT.off _ s.not_opened_next]
      simp [Socket.zero]
    · exact (State.waiting_congr (by simp [hr])).symm
  | bound ha hp hb => exact List.append_nil _
  | linked ha hp hc hfree =>
    show s.waiting r ++ [] = [] ++ _
    rw [List.append_nil, List.nil_append]
    exact (State.waiting_congr (by simp)).symm
  | @received o a ha ho =>
    show s.waiting r ++ [] = _
    by_cases hr : r = a
    · subst hr
      have hnull : Cap.null.isNull = true := rfl
      cases hn : (s.sockets r).msg.isNull <;> simp [State.waiting, receivedAt, hn, hnull]
    · have hne : ¬ a = r := fun he => hr he.symm
      simp [State.waiting, receivedAt, hr, hne]
  | @sent o a msg ha hopen ho hnull =>
    show _ = [] ++ _
    by_cases hr : r = (s.sockets a).socksend
    · subst hr
      cases hn : msg.isNull <;> simp [State.waiting, sentAt, hn, hnull]
    · have hne : ¬ (s.sockets a).socksend = r := fun he => hr he.symm
      simp [State.waiting, sentAt, hr, hne]
  | refused he =>
    obtain ⟨hs, hr⟩ := error_moves_nothing he r
    rw [hs, hr]
    exact List.append_nil _

theorem Effect.failed_send {obj : Option Int} {ret : Int} (h : Effect s ⟨obj, .sendto a msg⟩ (.int ret) s')
    (hneg : ret < 0) : s' = s := by
  cases h with
  | sent ha hopen ho hnull => exact absurd hneg (by decide)
  | refused _ => rfl

theorem AnsweredRun.wf (hr : AnsweredRun tr s) : Tables s :=
  Run.inv (I := Tables) (fun s (hs : s = socketInit) => hs ▸ tables_init)
    (fun _ _ _ hT hst => (hT.effect hst).tables hT) hr

/-- **Messages are delivered exactly once and in order.**  What was sent to a socket is what it has received, and at most
one message more that waits on it; a `sendto` that fails and a `recfrom` that finds nothing change nothing. -/
theorem sockets_delivered (hr : AnsweredRun tr s) :
    (∀ r, history (sentAt r) tr = history (receivedAt r) tr ++ s.waiting r ∧ (s.waiting r).length ≤ 1) ∧
    (∀ st ∈ tr, ∀ obj a msg ret, st.ev = (⟨obj, .sendto a msg⟩, .int ret) → ret < 0 → st.post = st.pre) ∧
    ∀ st ∈ tr, ∀ obj a ret, st.ev = (⟨obj, .recfrom a⟩, .ptr ret) → ret.isNull = true → st.pre.Same st.post := by
  have heffect : ∀ st ∈ tr, Tables st.pre ∧ Effect st.pre st.ev.1 st.ev.2 st.post := by
    intro st hm
    obtain ⟨_, _, -, hpre, hst⟩ := hr.cut_of_mem hm
    exact ⟨AnsweredRun.wf hpre, (AnsweredRun.wf hpre).effect hst⟩
  refine ⟨fun r => ⟨?_, s.waiting_le r⟩, ?_, ?_⟩
  · refine conserved (fun s => s.waiting r) AnsweredRun.wf ?_ ?_ hr
    · rintro s rfl
      rfl
    · exact fun s i s' hT hst => (hT.effect hst).conserves hT r
  · intro st hm obj a msg ret he hneg
    have heff := (heffect st hm).2
    rw [he] at heff
    exact heff.failed_send hneg
  · intro st hm obj a ret he hn
    obtain ⟨hT, heff⟩ := heffect st hm
    rw [he] at heff
    exact heff.same hT hn

/-- Two messages are sent, the second one after the first was received, and a third is refused. -/
theorem sockets_delivered_pair : ∃ tr s, AnsweredRun tr s ∧ history (receivedAt 1) tr = [Cap.ddc] ∧
    history (sentAt 1) tr = [Cap.ddc] ++ s.waiting 1 := by
  have h₀ : AnsweredRun [] socketInit := .nil rfl
  have h₁ := h₀.cons (i := (ask .socket, .int 0)) rfl
  have h₂ := h₁.cons (i := (ask .socket, .int 1)) rfl
  have h₃ := h₂.cons (i := (ask (.bind 1 4), .int 0)) rfl
  have h₄ := h₃.cons (i := (ask (.connect 0 4), .int 0)) rfl
  have h₅ := h₄.cons (i := (ask (.sendto 0 Cap.ddc), .int 0)) rfl
  have h₆ := h₅.cons (i := (ask (.recfrom 1), .ptr Cap.ddc)) rfl
  have h₇ := h₆.cons (i := (ask (.sendto 0 Cap.pcc), .int 0)) rfl
  have h₈ := h₇.cons (i := (ask (.sendto 0 Cap.ddc), .int (-1))) rfl
  exact ⟨_, _, h₈, rfl, ((sockets_delivered h₈).1 1).1⟩

end Sockets
end CheriOS
