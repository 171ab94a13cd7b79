import CheriOS.Lib.Run
import CheriOS.Memmgt.Mmap
/-!
# Clients — the memory manager at work

The manager is one activation that handles one message after the other.  Its clients call `__mmap` and `__munmap` in any
order and write to memory in between, each with the capabilities that `__mmap` has returned to it; a capability stays
usable for good.  A client *holds* a mapping from the `__mmap` that returned it until its own `__munmap` of it succeeds.
-/
namespace CheriOS
namespace Memmgt

open Transition (Run)

abbrev Client := Nat

/-- A capability and the client it was returned to. -/
structure Mapping where
  client : Client
  cap : Cap
  deriving DecidableEq, Repr

/-- The manager, what has stopped the system, and what each client was given and holds. -/
structure Sys where
  mm : State
  stopped : Option Stop
  given : List Mapping
  held : List Mapping

inductive Event where
  | mmap (client : Client) (addr : Cap) (length : BitVec 64) (prot flags : BitVec 32)
  | munmap (client : Client) (cap : Cap) (length : BitVec 64)
  | store (client : Client) (cap : Cap) (i : BitVec 64) (byte : BitVec 8)
  deriving DecidableEq, Repr

/-- Who calls the manager; a store calls nobody. -/
def Event.caller : Event → Option Client
  | .mmap client .. => some client
  | .munmap client .. => some client
  | .store .. => none

namespace Sys

def mmap (s : Sys) (client : Client) (addr : Cap) (length : BitVec 64) (prot flags : BitVec 32) : Sys :=
  match Memmgt.mmap addr length prot flags s.mm with
  | .ok (p, mm) =>
    { s with
      mm := mm, given := ⟨client, p⟩ :: s.given, held := if p = mapFailed then s.held else ⟨client, p⟩ :: s.held }
  | .error (e, mm) => { s with mm := mm, stopped := some e }

def munmap (s : Sys) (client : Client) (cap : Cap) (length : BitVec 64) : Sys :=
  match Memmgt.munmap cap length s.mm with
  | .ok (r, mm) => { s with mm := mm, held := if r = 0 then s.held.erase ⟨client, cap⟩ else s.held }
  | .error (e, mm) => { s with mm := mm, stopped := some e }

def store (s : Sys) (cap : Cap) (i : BitVec 64) (byte : BitVec 8) : Sys :=
  { s with mm := { s.mm with mem := Function.update s.mm.mem (cap.addr + i) byte } }

/-- **One step**, where the system has not stopped: a client uses what it was given. -/
def next (s : Sys) (e : Event) : Option Sys :=
  if s.stopped = none then
    match e with
    | .mmap client addr length prot flags => some (s.mmap client addr length prot flags)
    | .munmap client cap length => if ⟨client, cap⟩ ∈ s.given then some (s.munmap client cap length) else none
    | .store client cap i byte =>
      if ⟨client, cap⟩ ∈ s.given ∧ fault cap true i 1 = none then some (s.store cap i byte) else none
  else none

end Sys

/-- The manager after `minit`, whatever was in the book's memory before. -/
def Started (heap : Cap) (s : Sys) : Prop :=
  ∃ mm₀ mm, minit heap mm₀ = .ok ((), mm) ∧ s = ⟨mm, none, [], []⟩

def Step (s : Sys) (e : Event) (s' : Sys) : Prop := s.next e = some s'

/-- **A run of the manager and its clients.** -/
abbrev ManagerRun (heap : Cap) (tr : List (Transition.Step Sys Event)) (s : Sys) : Prop := Run (Started heap) Step tr s

/-! ## What a step is -/

variable {s s' : Sys} {e : Event}

/-- **The steps, by the call that is made.** -/
inductive StepEnd (s : Sys) : Event → Sys → Prop where
  | mmapped {client : Client} {addr p : Cap} {length : BitVec 64} {prot flags : BitVec 32} {mm : State} :
      Memmgt.mmap addr length prot flags s.mm = .ok (p, mm) →
      StepEnd s (.mmap client addr length prot flags)
        { s with
          mm := mm, given := ⟨client, p⟩ :: s.given, held := if p = mapFailed then s.held else ⟨client, p⟩ :: s.held }
  | mmapStopped {client : Client} {addr : Cap} {length : BitVec 64} {prot flags : BitVec 32} {why : Stop}
      {mm : State} : Memmgt.mmap addr length prot flags s.mm = .error (why, mm) →
      StepEnd s (.mmap client addr length prot flags) { s with mm := mm, stopped := some why }
  | munmapped {client : Client} {cap : Cap} {length : BitVec 64} {r : BitVec 32} {mm : State} :
      ⟨client, cap⟩ ∈ s.given → Memmgt.munmap cap length s.mm = .ok (r, mm) →
      StepEnd s (.munmap client cap length)
        { s with mm := mm, held := if r = 0 then s.held.erase ⟨client, cap⟩ else s.held }
  | munmapStopped {client : Client} {cap : Cap} {length : BitVec 64} {why : Stop} {mm : State} :
      ⟨client, cap⟩ ∈ s.given → Memmgt.munmap cap length s.mm = .error (why, mm) →
      StepEnd s (.munmap client cap length) { s with mm := mm, stopped := some why }
  | stored {client : Client} {cap : Cap} {i : BitVec 64} {byte : BitVec 8} : ⟨client, cap⟩ ∈ s.given →
      fault cap true i 1 = none → StepEnd s (.store client cap i byte) (s.store cap i byte)

theorem Step.cases (h : Step s e s') : s.stopped = none ∧ StepEnd s e s' := by
  unfold Step Sys.next at h
  split at h
  case isFalse => cases h
  case isTrue hrun =>
    refine ⟨hrun, ?_⟩
    cases e with
    | mmap client addr length prot flags =>
      obtain rfl := Option.some.inj h
      unfold Sys.mmap
      split
      case h_1 p mm hr => exact .mmapped hr
      case h_2 why mm hr => exact .mmapStopped hr
    | munmap client cap length =>
      dsimp only at h
      split at h
      case isFalse => cases h
      case isTrue hgiven =>
        obtain rfl := Option.some.inj h
        unfold Sys.munmap
        split
        case h_1 r mm hr => exact .munmapped hgiven hr
        case h_2 why mm hr => exact .munmapStopped hgiven hr
    | store client cap i byte =>
      dsimp only at h
      split at h
      case isFalse => cases h
      case isTrue hok =>
        obtain rfl := Option.some.inj h
        exact .stored hok.1 hok.2

/-! ## Runs that compute -/

/-- The events one after the other, each of them checked, on a heap with nothing known of its memory. -/
def play (heap : Cap) (ok : Sys → Event → Bool) (es : List Event) : Option Sys :=
  match minit heap ⟨Cap.null, 0, Cap.null, fun _ => ⟨.child, 7⟩, 0, fun _ => 0xff⟩ with
  | .ok (_, mm) => es.foldlM (fun s e => if ok s e then s.next e else none) ⟨mm, none, [], []⟩
  | .error _ => none

/-- **What is played is a run** of checked steps. -/
theorem play_run (heap : Cap) (ok : Sys → Event → Bool) (es : List Event) (p : Sys → Bool)
    (h : (play heap ok es).any p = true) :
    ∃ tr s, ManagerRun heap tr s ∧ tr.map (·.ev) = es.reverse ∧ (∀ st ∈ tr, ok st.pre st.ev = true) ∧ p s = true := by
  obtain ⟨s, hs, hp⟩ := (Option.any_eq_true _ _).1 h
  unfold play at hs
  split at hs
  case h_2 => cases hs
  case h_1 mm hinit =>
    have hnext : ∀ s e s', (if ok s e then s.next e else none) = some s' → Step s e s' ∧ ok s e = true := by
      intro s e s' hs'
      split at hs'
      case isTrue hok => exact ⟨hs', hok⟩
      case isFalse => cases hs'
    have h₀ : ManagerRun heap [] ⟨mm, none, [], []⟩ := .nil ⟨_, mm, hinit, rfl⟩
    obtain ⟨tr, hr, hev, hok⟩ := Run.of_foldlM hnext h₀ hs
    exact ⟨tr, s, by simpa using hr, hev, hok, hp⟩

/-- A heap of five pages with the permissions that the boot code gives (`get_act_cap`). -/
def smallHeap : Cap :=
  ⟨true, false, 0, Cap.permGlobal ||| Cap.permLoad ||| Cap.permStore ||| Cap.permLoadCap ||| Cap.permStoreCap |||
    Cap.permStoreLocalCap ||| Cap.permSoft1, 0x10000, 5 * (pagesz + sizeofPage), 0⟩

def ask (client : Client) (length : BitVec 64) : Event :=
  .mmap client Cap.null length (protRead ||| protWrite) (mapPrivate ||| mapAnonymous)

/-- The capability that a client is given for `length` bytes at a page of the small heap. -/
def regionAt (page length : BitVec 64) : Cap :=
  ⟨true, false, 0, Cap.permLoad ||| Cap.permStore ||| Cap.permLoadCap ||| Cap.permStoreCap |||
    Cap.permStoreLocalCap ||| Cap.permSoft1, 0x10000 + page * pagesz, length, 0⟩

end Memmgt
end CheriOS
