import CheriOS.Namespace.Bind
/-!
# Pairs — lookups of the two halves of a binding

Any number of clients have requests in flight, and the service answers them one at a time, in any order.  A client asks
for a reference and later for an identifier; what others register in between does not come between the two.
-/
namespace CheriOS
namespace Namespace

open Outcome WriteOnce
open Transition (Run)

/-- The requests, in the order of `msg_methods`. -/
inductive Call where
  | register (nb : Int) (actReference actDefaultId : Cap)
  | getReference (nb : Int)
  | getIdentifier (nb : Int)
  deriving DecidableEq, Repr

def Call.nb : Call → Int
  | .register nb _ _ => nb
  | .getReference nb => nb
  | .getIdentifier nb => nb

/-- What a method returns: an `int`, or a pointer. -/
inductive Reply where
  | int (ret : Int)
  | ptr (ret : Cap)
  deriving DecidableEq, Repr

def Reply.isError : Reply → Bool
  | .int ret => decide (ret < 0)
  | .ptr ret => ret.isNull

def handle (r : Call) (bind : Table) : Except Stop (Reply × Table) :=
  match r with
  | .register nb actReference actDefaultId => do
    let (ret, bind) ← nsRegister nb actReference actDefaultId bind
    return (.int ret, bind)
  | .getReference nb => do
    let ret ← nsGetReference nb bind
    return (.ptr ret, bind)
  | .getIdentifier nb => do
    let ret ← nsGetIdentifier nb bind
    return (.ptr ret, bind)

/-! ## The service and its clients -/

/-- `γ` are the clients. -/
structure Sys (γ : Type) where
  bind : Table
  inflight : List (γ × Call)

inductive Event (γ : Type) where
  | call (c : γ) (r : Call)
  | answer (c : γ) (r : Call) (reply : Reply)

variable {γ : Type}

inductive NsStep : Sys γ → Event γ → Sys γ → Prop where
  | call {s : Sys γ} (c : γ) (r : Call) : NsStep s (.call c r) { s with inflight := (c, r) :: s.inflight }
  | answer {s : Sys γ} {c : γ} {r : Call} {reply : Reply} {bind : Table} (l m : List (γ × Call)) :
      s.inflight = l ++ (c, r) :: m → handle r s.bind = .ok (reply, bind) → NsStep s (.answer c r reply) ⟨bind, l ++ m⟩

/-- **A run of the service**, from `ns_init`. -/
abbrev NsRun (tr : List (Transition.Step (Sys γ) (Event γ))) (s : Sys γ) : Prop :=
  Run (fun s => s = ⟨nsInit, []⟩) NsStep tr s

variable {tr : List (Transition.Step (Sys γ) (Event γ))} {s s' : Sys γ} {e : Event γ} {bind : Table}

/-! ## One request -/

/-- The pair a request publishes. -/
def Call.published : Call → Option (Int × Bind)
  | .register nb actReference actDefaultId => Namespace.published nb actReference actDefaultId
  | _ => none

def Event.published : Event γ → Option (Int × Bind)
  | .call _ _ => none
  | .answer _ r _ => r.published

theorem handle_getReference (nb : Int) (bind : Table) : handle (.getReference nb) bind =
    .ok (.ptr (if validateIdx nb then (bind nb).actReference else Cap.null), bind) := by
  rw [handle, nsGetReference_eq]
  rfl

theorem handle_getIdentifier (nb : Int) (bind : Table) : handle (.getIdentifier nb) bind =
    .ok (.ptr (if validateIdx nb then (bind nb).actDefaultId else Cap.null), bind) := by
  rw [handle, nsGetIdentifier_eq]
  rfl

/-- **Every request is answered**: no access leaves the table. -/
theorem handle_publishes (r : Call) (bind : Table) :
    ∃ reply bind', handle r bind = .ok (reply, bind') ∧ binding bind' = after (binding bind) r.published := by
  cases r with
  | register nb actReference actDefaultId =>
    obtain ⟨ret, bind', hret, hb⟩ := nsRegister_publishes nb actReference actDefaultId bind
    exact ⟨.int ret, bind', by rw [handle, hret]; rfl, hb⟩
  | getReference nb => exact ⟨_, bind, handle_getReference nb bind, rfl⟩
  | getIdentifier nb => exact ⟨_, bind, handle_getIdentifier nb bind, rfl⟩

/-- **An index outside the table** is refused, whatever is asked. -/
theorem handle_outside {r : Call} (h : validateIdx r.nb = false) (bind : Table) :
    ∃ reply, handle r bind = .ok (reply, bind) ∧ reply.isError = true := by
  cases r with
  | register nb actReference actDefaultId =>
    have h : validateIdx nb = false := h
    exact ⟨.int (-1), by rw [handle, nsRegister_refused (.inl h)]; rfl, rfl⟩
  | getReference nb =>
    have h : validateIdx nb = false := h
    exact ⟨.ptr Cap.null, by rw [handle_getReference, h]; rfl, rfl⟩
  | getIdentifier nb =>
    have h : validateIdx nb = false := h
    exact ⟨.ptr Cap.null, by rw [handle_getIdentifier, h]; rfl, rfl⟩

/-- A reference that is found is that of the binding. -/
theorem getReference_found {nb : Int} {ref : Cap} {bind' : Table}
    (h : handle (.getReference nb) bind = .ok (.ptr ref, bind')) (hn : ref.isNull = false) :
    ∃ id, binding bind nb = some ⟨ref, id⟩ := by
  rw [handle_getReference] at h
  cases hi : validateIdx nb with
  | false =>
    rw [hi] at h
    cases h
    cases hn
  | true =>
    rw [hi] at h
    cases h
    exact ⟨(bind nb).actDefaultId, binding_eq_some.2 ⟨hi, rfl, hn⟩⟩

/-- And so is the identifier. -/
theorem getIdentifier_found {nb : Int} {ret : Cap} {b : Bind} {bind' : Table}
    (h : handle (.getIdentifier nb) bind = .ok (.ptr ret, bind')) (hb : binding bind nb = some b) :
    ret = b.actDefaultId := by
  obtain ⟨hi, rfl, -⟩ := binding_eq_some.1 hb
  rw [handle_getIdentifier, hi] at h
  cases h
  rfl

/-- **A registration that publishes where nothing is bound** returns 0, and its pair passed the checks. -/
theorem register_published {r : Call} {nb : Int} {b : Bind} {reply : Reply} {bind' : Table}
    (hp : r.published = some (nb, b)) (hb : binding bind nb = none) (h : handle r bind = .ok (reply, bind')) :
    r = .register nb b.actReference b.actDefaultId ∧ reply = .int 0 ∧ b.Paired := by
  cases r with
  | register nb' actReference actDefaultId =>
    have hp : Namespace.published nb' actReference actDefaultId = some (nb, b) := hp
    rw [Namespace.published] at hp
    split at hp
    · rename_i hv
      cases hp
      rw [handle, nsRegister_new hv.1 hv.2 hb] at h
      cases h
      exact ⟨rfl, rfl, validateActCaps_iff.1 hv.2⟩
    · cases hp
  | getReference nb' => cases hp
  | getIdentifier nb' => cases hp

theorem NsStep.answered {c : γ} {r : Call} {reply : Reply} (h : NsStep s (.answer c r reply) s') :
    handle r s.bind = .ok (reply, s'.bind) := by
  cases h with
  | answer _ _ _ hh => exact hh

theorem NsStep.publishes (h : NsStep s e s') : binding s'.bind = after (binding s.bind) e.published := by
  cases h with
  | call c r => rfl
  | @answer c r reply bind _ _ _ hh =>
    obtain ⟨reply', bind', hh', hb⟩ := handle_publishes r s.bind
    rw [hh] at hh'
    cases hh'
    exact hb

/-! ## Runs -/

/-- **What is bound at a step** is bound to the same pair at every later state. -/
theorem NsRun.kept {newer older : List (Transition.Step (Sys γ) (Event γ))} {st : Transition.Step (Sys γ) (Event γ)}
    (hr : NsRun (newer ++ st :: older) s) {nb : Int} {b : Bind} (hb : binding st.pre.bind nb = some b) :
    binding s.bind nb = some b :=
  run_extends (fun s : Sys γ => binding s.bind) (fun _ _ _ => NsStep.publishes) hr nb b hb

/-- **What is bound was registered**, in one request that returned 0. -/
theorem NsRun.registered (hr : NsRun tr s) {nb : Int} {b : Bind} (hb : binding s.bind nb = some b) :
    ∃ st ∈ tr, (∃ c, st.ev = .answer c (.register nb b.actReference b.actDefaultId) (.int 0)) ∧ b.Paired := by
  obtain ⟨st, hm, hp, hnone⟩ := run_published (fun s : Sys γ => binding s.bind)
    (fun s (hs : s = ⟨nsInit, []⟩) => by rw [hs]; exact binding_init) (fun _ _ _ => NsStep.publishes) hr hb
  obtain ⟨_, _, -, -, hst⟩ := hr.cut_of_mem hm
  cases he : st.ev with
  | call c r => rw [he] at hp; cases hp
  | answer c r reply =>
    rw [he] at hp hst
    obtain ⟨rfl, rfl, hpair⟩ := register_published hp hnone hst.answered
    exact ⟨st, hm, ⟨c, he⟩, hpair⟩

/-- **Bindings are consistent pairs**, over every run with any clients: what is bound stays bound to its pair; an index
outside the table is refused and touches nothing; an identifier got after a reference that was found is that of the one
registration that supplied both; and no request stops the service. -/
theorem namespace_pairs (hr : NsRun tr s) :
    (∀ newer st older, tr = newer ++ st :: older → ∀ nb b, binding st.pre.bind nb = some b →
      s.bind nb = b ∧ binding s.bind nb = some b) ∧
    (∀ st ∈ tr, ∀ c r reply, st.ev = .answer c r reply → ¬ (0 ≤ r.nb ∧ r.nb < bindLen) →
      reply.isError = true ∧ st.post.bind = st.pre.bind) ∧
    (∀ newer st' between st older c c' nb ref id, tr = newer ++ st' :: (between ++ st :: older) →
      st.ev = .answer c (.getReference nb) (.ptr ref) → ref.isNull = false →
      st'.ev = .answer c' (.getIdentifier nb) (.ptr id) →
      ∃ reg ∈ older, (∃ c'', reg.ev = .answer c'' (.register nb ref id) (.int 0)) ∧ Bind.Paired ⟨ref, id⟩) ∧
    ∀ c r, (c, r) ∈ s.inflight → ∃ reply s', NsStep s (.answer c r reply) s' := by
  refine ⟨?_, ?_, ?_, ?_⟩
  · rintro newer st older rfl nb b hb
    have hkept := NsRun.kept hr hb
    exact ⟨(binding_eq_some.1 hkept).2.1, hkept⟩
  · intro st hm c r reply he hout
    obtain ⟨_, _, -, -, hst⟩ := hr.cut_of_mem hm
    have hi : validateIdx r.nb = false := by
      rw [← Bool.not_eq_true, validateIdx_iff]
      exact hout
    obtain ⟨reply', hh', herr⟩ := handle_outside hi st.pre.bind
    rw [he] at hst
    rw [hst.answered] at hh'
    obtain ⟨hrep, hbind⟩ := Prod.mk.inj (Except.ok.inj hh')
    exact ⟨hrep ▸ herr, hbind⟩
  · rintro newer st' between st older c c' nb ref id rfl he hn he'
    obtain ⟨hr', hst', -⟩ := hr.cut
    obtain ⟨hold, hst, -⟩ := hr'.cut
    rw [he] at hst
    rw [he'] at hst'
    obtain ⟨id', hb⟩ := getReference_found hst.answered hn
    obtain rfl : id = id' := getIdentifier_found hst'.answered (NsRun.kept hr' hb)
    exact NsRun.registered hold hb
  · intro c r hm
    obtain ⟨l, m, hl⟩ := List.append_of_mem hm
    obtain ⟨reply, bind', hh, -⟩ := handle_publishes r s.bind
    exact ⟨reply, _, .answer l m hl hh⟩

/-- A sealed capability of the object type `otype`, for a client's registration. -/
def sealedOf (otype : Nat) (perms : BitVec 32) : Cap := ⟨true, true, otype, perms, 0, 1, 0⟩

/-- **Two clients race for an index**: between the two lookups of a third one comes the registration that lost. -/
theorem namespace_pairs_race : ∃ (tr : List (Transition.Step (Sys Nat) (Event Nat))) (s : Sys Nat), NsRun tr s ∧
    s.bind 3 = ⟨sealedOf 5 1, sealedOf 5 2⟩ ∧
    ∃ reg ∈ tr, ∃ c, reg.ev = .answer c (.register 3 (sealedOf 5 1) (sealedOf 5 2)) (.int 0) := by
  let won : Call := .register 3 (sealedOf 5 1) (sealedOf 5 2)
  let lost : Call := .register 3 (sealedOf 6 1) (sealedOf 6 2)
  have h₀ : NsRun [] (⟨nsInit, []⟩ : Sys Nat) := .nil rfl
  have h₁ := h₀.cons (.call 0 won)
  have h₂ := h₁.cons (.call 1 lost)
  have h₃ := h₂.cons (.call 2 (.getReference 3))
  have h₄ := h₃.cons (.answer [(2, .getReference 3), (1, lost)] [] rfl rfl)
  have h₅ := h₄.cons (.answer [] [(1, lost)] rfl rfl)
  have h₆ := h₅.cons (.answer [] [] rfl rfl)
  have h₇ := h₆.cons (.call 2 (.getIdentifier 3))
  have h₈ := h₇.cons (.answer [] [] rfl rfl)
  obtain ⟨hkept, -, hpair, -⟩ := namespace_pairs h₈
  obtain ⟨reg, hm, hreg, -⟩ := hpair [] _ [_, _] _ _ 2 2 3 _ _ rfl rfl rfl rfl
  refine ⟨_, _, h₈, (hkept [] _ _ rfl 3 _ rfl).1, reg, ?_, hreg⟩
  exact List.mem_cons_of_mem _ (List.mem_cons_of_mem _ (List.mem_cons_of_mem _ (List.mem_cons_of_mem _ hm)))

end Namespace
end CheriOS
