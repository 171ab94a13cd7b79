import CheriOS.Sockets.Effect
/-!
# Bounds — arguments the tables do not have

No method looks at the lower limit of a socket.  `bind` does not look at a port at all and `connect` only at its upper
limit; and a table of sockets that is full fails an assertion.
-/
namespace CheriOS
namespace Sockets

open Outcome

namespace State

/-- **Arguments a method can take**: it stays inside the tables, and no assertion fails. -/
def Inside (s : State) : Call → Prop
  | .socket => s.nextSocket ≤ maxSocket
  | .bind a port => 0 ≤ a ∧ (s.Opened a → 0 ≤ port ∧ port ≤ maxPort)
  | .connect a port => 0 ≤ a ∧ (s.Opened a → 0 ≤ port)
  | .recfrom a => 0 ≤ a
  | .sendto a _ => 0 ≤ a

/-- **No socket is left**, the argument is not one that was handed out, or the port is not in the table. -/
def Invalid (s : State) : Call → Prop
  | .socket => maxSocket < s.nextSocket
  | .bind a port => ¬ s.Opened a ∨ port < 0 ∨ maxPort < port
  | .connect a port => ¬ s.Opened a ∨ port < 0 ∨ maxPort < port
  | .recfrom a => ¬ s.Opened a
  | .sendto a _ => ¬ s.Opened a

/-- **A request that is answered as a service should**: nothing stops it, what is invalid gets an error and changes
nothing, and no error changes anything. -/
def Answered (s : State) (r : Request) : Prop :=
  ∃ reply s', s.handle r = .ok (reply, s') ∧ (s.Invalid r.call → reply.isError = true ∧ s' = s) ∧
    (reply.isError = true → s.Same s')

end State

instance (s : State) (c : Call) : Decidable (s.Inside c) :=
  match c with
  | .socket => inferInstanceAs (Decidable (_ ≤ _))
  | .bind a port =>
    have : Decidable (s.Opened a → 0 ≤ port ∧ port ≤ maxPort) := instDecidableForall
    inferInstanceAs (Decidable (_ ∧ _))
  | .connect a port =>
    have : Decidable (s.Opened a → 0 ≤ port) := instDecidableForall
    inferInstanceAs (Decidable (_ ∧ _))
  | .recfrom _ | .sendto _ _ => inferInstanceAs (Decidable (_ ≤ _))

/-- **`P` of each of the requests**, at the tables that those before it have left, as far as nothing stops. -/
def Along (P : State → Request → Prop) : State → List Request → Prop
  | _, [] => True
  | s, r :: rs => P s r ∧
    match s.handle r with
    | .ok (_, s') => Along P s' rs
    | .error _ => True

instance decidableAlong (P : State → Request → Prop) [∀ s r, Decidable (P s r)] :
    ∀ (s : State) (rs : List Request), Decidable (Along P s rs)
  | _, [] => isTrue trivial
  | s, r :: rs =>
    have : Decidable (match s.handle r with | .ok (_, s') => Along P s' rs | .error _ => True) :=
      match s.handle r with
      | .ok (_, s') => decidableAlong P s' rs
      | .error _ => isTrue trivial
    inferInstanceAs (Decidable (_ ∧ _))

variable {s s' : State} {r : Request} {reply : Reply} {tr : List (Transition.Step State Request)}

/-! ## One request -/

/-- **Inside the tables is where a request is answered.** -/
theorem Tables.handle_ok_iff (hT : Tables s) (o : Int) (c : Call) :
    (∃ p, s.handle ⟨some o, c⟩ = .ok p) ↔ s.Inside c := by
  cases c with
  | socket =>
    show (∃ p, (Sockets.socket (some o) s >>= _) = .ok p) ↔ s.nextSocket ≤ maxSocket
    rw [hT.socket_eq]
    by_cases hle : s.nextSocket ≤ maxSocket
    · simp [hle]
    · simp [hle]
  | bind a port =>
    show (∃ p, (Sockets.bind a port s >>= _) = .ok p) ↔ 0 ≤ a ∧ (s.Opened a → 0 ≤ port ∧ port ≤ maxPort)
    rcases Int.lt_or_le a 0 with hneg | h0
    · simp [(negative_stops hneg).1, hneg]
    · rw [hT.bind_eq h0]
      split_ifs with ha hp hb
      · simp [h0, ha, hp]
      · simp [h0, ha, hp]
      · simp [ha, hp]
      · simp [h0, ha]
  | connect a port =>
    show (∃ p, (Sockets.connect a port s >>= _) = .ok p) ↔ 0 ≤ a ∧ (s.Opened a → 0 ≤ port)
    rcases Int.lt_or_le a 0 with hneg | h0
    · simp [(negative_stops hneg).2.1, hneg]
    · rw [hT.connect_eq h0]
      split_ifs with ha hp hl
      · simp [ha, hp]
      · simp [h0, ha, Int.not_lt.1 hp]
      · simp [h0, ha, Int.not_lt.1 hp]
      · simp [h0, ha]
  | recfrom a =>
    show (∃ p, (Sockets.recfrom (some o) a s >>= _) = .ok p) ↔ 0 ≤ a
    rcases Int.lt_or_le a 0 with hneg | h0
    · simp [(negative_stops hneg).2.2.1, hneg]
    · rw [hT.recfrom_eq h0]
      dsimp only
      split_ifs with ha ho
      · simp [h0]
      · simp [h0]
      · simp [h0]
  | sendto a msg =>
    show (∃ p, (Sockets.sendto (some o) a msg s >>= _) = .ok p) ↔ 0 ≤ a
    rcases Int.lt_or_le a 0 with hneg | h0
    · simp [(negative_stops hneg).2.2.2, hneg]
    · rw [hT.sendto_eq h0]
      dsimp only
      split_ifs with ha hpeer hs hle
      · simp [h0]
      · simp [h0]
      · simp [h0]
      · simp [h0]
      · simp [h0]

/-- **What is invalid is refused**, where it is answered. -/
theorem Effect.of_invalid (h : Effect s r reply s') (hv : s.Invalid r.call) : reply.isError = true ∧ s' = s := by
  cases h with
  | opened oid hle => exact absurd hle (Int.not_le.2 hv)
  | bound ha hp hb => exact absurd hv (by simp [State.Invalid, ha]; omega)
  | linked ha hp hc hfree => exact absurd hv (by simp [State.Invalid, ha]; omega)
  | received ha ho => exact absurd ha hv
  | sent ha hopen ho hnull => exact absurd ha hv
  | refused he => exact ⟨he, rfl⟩

theorem Tables.answered_iff (hT : Tables s) (hr : r.obj ≠ none) : s.Answered r ↔ s.Inside r.call := by
  obtain ⟨o, ho⟩ := Option.ne_none_iff_exists'.1 hr
  obtain ⟨obj, c⟩ := r
  obtain rfl : obj = some o := ho
  rw [← hT.handle_ok_iff o c]
  constructor
  · rintro ⟨reply, s', hok, -⟩
    exact ⟨_, hok⟩
  · rintro ⟨⟨reply, s'⟩, hok⟩
    have he := hT.effect hok
    exact ⟨reply, s', hok, he.of_invalid, he.same hT⟩

/-! ## Any number of requests -/

theorem Tables.along_iff : ∀ (rs : List Request) {s : State}, Tables s → (∀ r ∈ rs, r.obj ≠ none) →
    (Along State.Answered s rs ↔ Along (fun s r => s.Inside r.call) s rs)
  | [], _, _, _ => Iff.rfl
  | r :: rs, s, hT, hrs => by
    rw [Along, Along, hT.answered_iff (hrs r List.mem_cons_self)]
    refine and_congr_right (fun _ => ?_)
    cases hok : s.handle r with
    | error e => exact Iff.rfl
    | ok p =>
      exact Tables.along_iff rs ((hT.effect hok).tables hT) (fun r hr => hrs r (List.mem_cons_of_mem _ hr))

/-- **The service stays inside its tables** exactly as far as its clients do: over any requests, from `socket_init` on or
after any others. -/
theorem sockets_bounded (hr : TableRun tr s) (rs : List Request) (hrs : ∀ r ∈ rs, r.obj ≠ none) :
    Along State.Answered s rs ↔ Along (fun s r => s.Inside r.call) s rs :=
  Tables.along_iff rs (TableRun.wf hr) hrs

/-- Requests that are refused, and no access outside: a socket that is not there, a port above the table. -/
theorem sockets_bounded_refused : Along State.Answered socketInit
    [ask .socket, ask (.bind 0 16), ask (.bind 5 (-1)), ask (.connect 0 17), ask (.sendto 0x7fffffff Cap.ddc),
      ask (.recfrom 16)] :=
  (sockets_bounded (.nil rfl) _ (by decide)).2 (by decide)

/-- **A negative socket, a port above the table and one socket too many.** -/
theorem sockets_bounded_fails :
    ¬ (∀ rs : List Request, (∀ r ∈ rs, r.obj ≠ none) → Along State.Answered socketInit rs) ∧
      ¬ Along State.Answered socketInit [ask (.recfrom (-1))] ∧
      ¬ Along State.Answered socketInit [ask .socket, ask (.bind 0 17)] ∧
      ¬ Along State.Answered socketInit (List.replicate 18 (ask .socket)) := by
  have hneg : ¬ Along State.Answered socketInit [ask (.recfrom (-1))] :=
    mt (Tables.along_iff _ tables_init (by decide)).1 (by decide)
  exact ⟨fun h => hneg (h _ (by decide)), hneg, mt (Tables.along_iff _ tables_init (by decide)).1 (by decide),
    mt (Tables.along_iff _ tables_init (by decide)).1 (by decide)⟩

end Sockets
end CheriOS
