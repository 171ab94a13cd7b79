import CheriOS.Cap
import CheriOS.Lib.Outcome
import CheriOS.Lib.WriteOnce
/-!
# Bind — the table of the namespace service (`namespace.c`)

An index is bound to a pair: a reference to an activation, and its default identifier.  The first registration of an
index that passes the two checks stays: as a table of pairs, `ns_register` publishes.
-/
namespace CheriOS
namespace Namespace

open Outcome WriteOnce

/-- `bind_t`. -/
structure Bind where
  actReference : Cap
  actDefaultId : Cap
  deriving DecidableEq, Repr

abbrev bindLen : Int := 0x80

abbrev Table := Int → Bind

/-- An access to `bind` outside its entries. -/
inductive Stop where
  | outOfBounds
  deriving DecidableEq, Repr

def bindAt (nb : Int) (bind : Table) : Except Stop Bind :=
  if 0 ≤ nb ∧ nb < bindLen then .ok (bind nb) else .error .outOfBounds

def setBind (nb : Int) (b : Bind) (bind : Table) : Except Stop Table :=
  if 0 ≤ nb ∧ nb < bindLen then .ok (Function.update bind nb b) else .error .outOfBounds

/-! ## The methods -/

def nsInit : Table := fun _ => ⟨Cap.null, Cap.null⟩

def validateIdx (nb : Int) : Bool := if nb < 0 then false else if nb ≥ bindLen then false else true

def validateActCaps (actReference actDefaultId : Cap) : Bool :=
  if actReference.tag = false then false
  else if actDefaultId.tag = false then false
  else if actReference.isSealed = false then false
  else if actDefaultId.isSealed = false then false
  else if actReference.otype ≠ actDefaultId.otype then false
  else true

def nsGetReference (nb : Int) (bind : Table) : Except Stop Cap := do
  if !validateIdx nb then return Cap.null
  else
    let b ← bindAt nb bind
    return b.actReference

def nsGetIdentifier (nb : Int) (bind : Table) : Except Stop Cap := do
  if !validateIdx nb then return Cap.null
  else
    let b ← bindAt nb bind
    return b.actDefaultId

def nsRegisterCore (nb : Int) (actReference actDefaultId : Cap) (bind : Table) : Except Stop (Int × Table) := do
  let b ← bindAt nb bind
  if !b.actReference.isNull then return (-1, bind)
  else
    let bind ← setBind nb ⟨actReference, actDefaultId⟩ bind
    return (0, bind)

def nsRegister (nb : Int) (actReference actDefaultId : Cap) (bind : Table) : Except Stop (Int × Table) :=
  if !validateIdx nb || !validateActCaps actReference actDefaultId then .ok (-1, bind)
  else nsRegisterCore nb actReference actDefaultId bind

/-! ## The table of pairs -/

/-- **A pair that passes the checks of a registration**: two sealed capabilities of one object type. -/
def Bind.Paired (b : Bind) : Prop :=
  b.actReference.tag = true ∧ b.actDefaultId.tag = true ∧ b.actReference.isSealed = true ∧
    b.actDefaultId.isSealed = true ∧ b.actReference.otype = b.actDefaultId.otype

/-- What `nb` is bound to: nothing is bound outside the table, and nothing to a null reference. -/
def binding (bind : Table) (nb : Int) : Option Bind :=
  if validateIdx nb = true ∧ (bind nb).actReference.isNull = false then some (bind nb) else none

variable {bind : Table} {nb x : Int} {b : Bind} {actReference actDefaultId : Cap}

theorem validateIdx_iff : validateIdx nb = true ↔ 0 ≤ nb ∧ nb < bindLen := by
  simp only [validateIdx, bindLen]
  split_ifs <;> simp <;> omega

theorem validateActCaps_iff :
    validateActCaps actReference actDefaultId = true ↔ Bind.Paired ⟨actReference, actDefaultId⟩ := by
  simp [validateActCaps, Bind.Paired]

theorem Bind.Paired.not_null (h : b.Paired) : b.actReference.isNull = false := by simp [Cap.isNull, h.1]

theorem binding_eq_some :
    binding bind nb = some b ↔ validateIdx nb = true ∧ bind nb = b ∧ b.actReference.isNull = false := by
  by_cases h : validateIdx nb = true ∧ (bind nb).actReference.isNull = false
  · rw [binding, if_pos h]
    constructor
    · rintro e
      cases e
      exact ⟨h.1, rfl, h.2⟩
    · rintro ⟨-, rfl, -⟩
      rfl
  · rw [binding, if_neg h]
    constructor
    · rintro e
      cases e
    · rintro ⟨hv, rfl, hn⟩
      exact absurd ⟨hv, hn⟩ h

theorem binding_eq_none (h : validateIdx nb = true) :
    binding bind nb = none ↔ (bind nb).actReference.isNull = true := by
  cases hn : (bind nb).actReference.isNull <;> simp [binding, h, hn]

theorem binding_init : binding nsInit = fun _ => none := by
  funext nb
  exact if_neg (fun h => by cases h.2)

theorem bindAt_eq (h : validateIdx nb = true) : bindAt nb bind = .ok (bind nb) := if_pos (validateIdx_iff.1 h)

/-- **A lookup never leaves the table**, and outside it finds nothing. -/
theorem nsGetReference_eq (nb : Int) (bind : Table) :
    nsGetReference nb bind = .ok (if validateIdx nb then (bind nb).actReference else Cap.null) := by
  cases h : validateIdx nb with
  | false => simp [nsGetReference, h, pure, Except.pure]
  | true => simp [nsGetReference, h, bindAt_eq, pure, Except.pure]

theorem nsGetIdentifier_eq (nb : Int) (bind : Table) :
    nsGetIdentifier nb bind = .ok (if validateIdx nb then (bind nb).actDefaultId else Cap.null) := by
  cases h : validateIdx nb with
  | false => simp [nsGetIdentifier, h, pure, Except.pure]
  | true => simp [nsGetIdentifier, h, bindAt_eq, pure, Except.pure]

/-- **A registration that is taken**: the checks pass and nothing is bound. -/
theorem nsRegister_new (hi : validateIdx nb = true) (hc : validateActCaps actReference actDefaultId = true)
    (hb : binding bind nb = none) :
    nsRegister nb actReference actDefaultId bind = .ok (0, Function.update bind nb ⟨actReference, actDefaultId⟩) := by
  have hn := (binding_eq_none hi).1 hb
  have hs : setBind nb ⟨actReference, actDefaultId⟩ bind = .ok (Function.update bind nb ⟨actReference, actDefaultId⟩) :=
    if_pos (validateIdx_iff.1 hi)
  simp [nsRegister, nsRegisterCore, hi, hc, bindAt_eq hi, hn, hs, pure, Except.pure]

/-- **One that is refused**: a check fails, or there is a pair already. -/
theorem nsRegister_refused
    (h : validateIdx nb = false ∨ validateActCaps actReference actDefaultId = false ∨ binding bind nb ≠ none) :
    nsRegister nb actReference actDefaultId bind = .ok (-1, bind) := by
  cases hi : validateIdx nb with
  | false => simp [nsRegister, hi]
  | true =>
    cases hc : validateActCaps actReference actDefaultId with
    | false => simp [nsRegister, hc]
    | true =>
      have hb : ¬ (bind nb).actReference.isNull = true := by
        rw [← binding_eq_none hi]
        simpa [hi, hc] using h
      simp [nsRegister, nsRegisterCore, hi, hc, bindAt_eq hi, hb, pure, Except.pure]

/-- **What a registration publishes**: the pair, where it passes the checks. -/
def published (nb : Int) (actReference actDefaultId : Cap) : Option (Int × Bind) :=
  if validateIdx nb = true ∧ validateActCaps actReference actDefaultId = true then
    some (nb, ⟨actReference, actDefaultId⟩)
  else none

/-- **To register is to publish**: the service ends, and its table is the published one. -/
theorem nsRegister_publishes (nb : Int) (actReference actDefaultId : Cap) (bind : Table) :
    ∃ ret bind', nsRegister nb actReference actDefaultId bind = .ok (ret, bind') ∧
      binding bind' = after (binding bind) (published nb actReference actDefaultId) := by
  by_cases hv : validateIdx nb = true ∧ validateActCaps actReference actDefaultId = true
  · obtain ⟨hi, hc⟩ := hv
    rw [published, if_pos ⟨hi, hc⟩]
    cases hb : binding bind nb with
    | none =>
      refine ⟨_, _, nsRegister_new hi hc hb, ?_⟩
      funext x
      have hnull := (validateActCaps_iff.1 hc).not_null
      rcases eq_or_ne x nb with rfl | hx
      · rw [after, publish, hb]
        simp [binding, hi, hnull]
      · simp [after, publish, binding, hx]
    | some b =>
      refine ⟨_, _, nsRegister_refused (.inr (.inr (by simp [hb]))), ?_⟩
      exact (publish_of_some hb).symm
  · rw [published, if_neg hv]
    refine ⟨_, _, nsRegister_refused ?_, rfl⟩
    by_cases hi : validateIdx nb = true
    · exact .inr (.inl (by simpa [hi] using hv))
    · exact .inl (by simpa using hi)

end Namespace
end CheriOS
