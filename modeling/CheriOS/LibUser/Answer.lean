import CheriOS.Kernel.Opening
import CheriOS.LibUser.Msg
import CheriOS.Lib.Run
/-!
# Answer — which messages are answered with their own token

The token of a message is saved where a method is called, and the token saved last is what every `creturn` presents.
So a message with a number that the range check refuses is answered with the token of an earlier one.
-/
namespace CheriOS
namespace LibUser

open Kernel (RegFrame)
open Mips (Cpu IsWord FitsWord)

variable {σ : Type} {cpu : Cpu} {im : Image} {h : Handler σ} {g g' : Globals σ} {m : RegFrame} {v0 nb i : BitVec 64}

/-! ## What a method number means -/

/-- The table a method number is for, and its length: negative numbers are control methods. -/
def Image.table (im : Image) (v0 : BitVec 64) : BitVec 64 × BitVec 64 :=
  if v0.toInt < 0 then (im.ctrlMethods, im.ctrlMethodsNb) else (im.msgMethods, im.msgMethodsNb)

def index (v0 : BitVec 64) : Nat := v0.toInt.natAbs

/-- **The index is in range.** -/
def InRange (im : Image) (v0 : BitVec 64) : Prop := index v0 < (im.table v0).2.toNat

instance (im : Image) (v0 : BitVec 64) : Decidable (InRange im v0) := inferInstanceAs (Decidable (_ < _))

def Image.entry (im : Image) (table : BitVec 64) (i : Nat) : Cap := im.mem (table + BitVec.ofNat 64 (i * 2 ^ im.capSizeBits))

def Image.method (im : Image) (v0 : BitVec 64) : Cap := im.entry (im.table v0).1 (index v0)

/-- **A table as the linker places it**: in the positive words, each entry that an index reaches a capability to call.
-/
structure PlacedAt (im : Image) (table nb : BitVec 64) (first : Nat) : Prop where
  low : table.toNat + nb.toNat * 2 ^ im.capSizeBits < 2 ^ 31
  methods : ∀ i, first ≤ i → i < nb.toNat → callable (im.entry table i) = true

/-- Both tables; the first entry of the control methods is not used. -/
structure Placed (im : Image) : Prop where
  msg : PlacedAt im im.msgMethods im.msgMethodsNb 0
  ctrl : PlacedAt im im.ctrlMethods im.ctrlMethodsNb 1

/-! ## What the range check refuses -/

/-- A trap is not a result. -/
def notPositive : Option (BitVec 64) → Bool
  | some t => decide (t.toInt ≤ 0)
  | none => false

/-- **The numbers the range check refuses**: out of range and a word, other than the one word without a negative; or not
a word, where the processor makes the difference zero or less. -/
def refused (cpu : Cpu) (im : Image) (v0 : BitVec 64) : Bool :=
  if v0.toInt < 0 then
    if IsWord v0 then decide (v0.toInt ≠ -2 ^ 31) && decide (im.ctrlMethodsNb.toInt ≤ -v0.toInt)
    else match cpu.sub 0 v0 with
      | none => false
      | some i => if IsWord i then decide (im.ctrlMethodsNb.toInt ≤ i.toInt) else notPositive (cpu.sub im.ctrlMethodsNb i)
  else
    decide (im.msgMethodsNb.toInt ≤ v0.toInt) && (decide (IsWord v0) || notPositive (cpu.sub im.msgMethodsNb v0))

/-- **On words other than the least one the range check is right.** -/
theorem refused_word (hv : IsWord v0) (hne : v0.toInt ≠ -2 ^ 31) (hc : im.ctrlMethodsNb.toNat < 2 ^ 31)
    (hm : im.msgMethodsNb.toNat < 2 ^ 31) : refused cpu im v0 = true ↔ ¬ InRange im v0 := by
  have hci := Mips.toInt_of_lt hc
  have hmi := Mips.toInt_of_lt hm
  unfold refused InRange index Image.table
  by_cases hneg : v0.toInt < 0
  · simp only [hneg, if_true, hv, hne, ne_eq, not_false_eq_true, decide_true, Bool.true_and, decide_eq_true_eq]
    omega
  · simp only [hneg, if_false, hv, decide_true, Bool.true_or, Bool.and_true, decide_eq_true_eq]
    omega

theorem sub_index (cpu : Cpu) (hnb : nb.toNat < 2 ^ 31) (hi : IsWord i) :
    (nb.toInt ≤ i.toInt → notPositive (Mips.sub cpu nb i) = true) ∧
      (i.toInt < nb.toInt → ∀ t, Mips.sub cpu nb i = some t → 0 < t.toInt) := by
  have hnbi := Mips.toInt_of_lt hnb
  have hw := hi
  unfold IsWord FitsWord at hw
  rw [Mips.sub_words (Mips.isWord_of_lt hnb) hi]
  constructor
  · intro hle
    have hfits : FitsWord (nb.toInt - i.toInt) := by
      unfold FitsWord
      omega
    rw [Mips.wordResult_some hfits]
    simp only [notPositive, Mips.toInt_ofInt_word hfits, decide_eq_true_eq]
    omega
  · intro hlt t ht
    unfold Mips.wordResult at ht
    split at ht
    · rename_i hfits
      obtain rfl := Option.some.inj ht
      rw [Mips.toInt_ofInt_word hfits]
      omega
    · cases ht

def rangeCheck (cpu : Cpu) (im : Image) (v0 : BitVec 64) : Option (BitVec 64) :=
  (lookup cpu im v0).bind (fun p => Mips.sub cpu p.2.1 p.2.2)

theorem PlacedAt.nb_lt {table : BitVec 64} {first : Nat} (hP : PlacedAt im table nb first) : nb.toNat < 2 ^ 31 := by
  have hlow := hP.low
  have hle : nb.toNat ≤ nb.toNat * 2 ^ im.capSizeBits := Nat.le_mul_of_pos_right _ (Nat.two_pow_pos _)
  omega

theorem notPositive_sub (hnb : nb.toNat < 2 ^ 31) : notPositive (Mips.sub cpu nb i) =
    if IsWord i then decide (nb.toInt ≤ i.toInt) else notPositive (cpu.sub nb i) := by
  split
  · rename_i hi
    obtain ⟨hle, hlt⟩ := sub_index cpu hnb hi
    by_cases hc : nb.toInt ≤ i.toInt
    · rw [hle hc, decide_eq_true hc]
    · rw [decide_eq_false hc]
      cases hs : Mips.sub cpu nb i with
      | none => rfl
      | some t =>
        have hpos := hlt (by omega) t hs
        simp only [notPositive, decide_eq_false_iff_not]
        omega
  · rename_i hi
    rw [Mips.sub_other hi]

/-- **`refused` is what the range check of the code refuses.** -/
theorem refused_eq (hP : Placed im) : refused cpu im v0 = notPositive (rangeCheck cpu im v0) := by
  have hm := hP.msg.nb_lt
  have hc := hP.ctrl.nb_lt
  unfold refused rangeCheck lookup
  by_cases hneg : v0.toInt < 0
  · rw [if_pos hneg, if_pos hneg]
    by_cases hv : IsWord v0
    · rw [if_pos hv, Mips.sub_words (by decide) hv]
      by_cases hmin : v0.toInt = -2 ^ 31
      · simp [hmin, Mips.wordResult, FitsWord, notPositive]
      · have hfits : FitsWord (-v0.toInt) := by
          unfold IsWord FitsWord at hv
          unfold FitsWord
          omega
        have hz : (0 : BitVec 64).toInt - v0.toInt = -v0.toInt := by simp
        have hi := Mips.toInt_ofInt_word hfits
        have hw : IsWord (BitVec.ofInt 64 (-v0.toInt)) := by
          unfold IsWord
          rw [hi]
          exact hfits
        rw [hz, Mips.wordResult_some hfits]
        show _ = notPositive (Mips.sub cpu im.ctrlMethodsNb (BitVec.ofInt 64 (-v0.toInt)))
        rw [notPositive_sub hc, if_pos hw, hi, decide_eq_true hmin, Bool.true_and]
    · rw [if_neg hv, Mips.sub_other hv]
      cases cpu.sub 0 v0 with
      | none => rfl
      | some i => exact (notPositive_sub hc).symm
  · rw [if_neg hneg, if_neg hneg]
    show _ = notPositive (Mips.sub cpu im.msgMethodsNb v0)
    rw [notPositive_sub hm]
    split
    · rename_i hv
      rw [decide_eq_true hv, Bool.true_or, Bool.and_true]
    · rename_i hv
      have hle : im.msgMethodsNb.toInt ≤ v0.toInt := by
        have hmi := Mips.toInt_of_lt hm
        unfold IsWord FitsWord at hv
        omega
      rw [decide_eq_true hle, decide_eq_false hv, Bool.true_and, Bool.false_or]

/-- **An index in range is found**: it is a word, and the range check lets it pass. -/
theorem lookup_inRange (cpu : Cpu) (hP : Placed im) (hr : InRange im v0) :
    ∃ i, lookup cpu im v0 = some ((im.table v0).1, (im.table v0).2, i) ∧ i.toNat = index v0 := by
  unfold InRange index at hr
  unfold lookup index
  by_cases hneg : v0.toInt < 0
  · have ht : im.table v0 = (im.ctrlMethods, im.ctrlMethodsNb) := if_pos hneg
    rw [ht] at hr ⊢
    dsimp only at hr
    have hlt := hP.ctrl.nb_lt
    have hfits : FitsWord (-v0.toInt) := by
      unfold FitsWord
      omega
    have hv : IsWord v0 := by
      unfold IsWord FitsWord
      omega
    have hz : (0 : BitVec 64).toInt - v0.toInt = -v0.toInt := by simp
    have hi := Mips.toInt_ofInt_word hfits
    refine ⟨BitVec.ofInt 64 (-v0.toInt), ?_, ?_⟩
    · rw [if_pos hneg, Mips.sub_words (by decide) hv, hz, Mips.wordResult_some hfits]
      rfl
    · rw [Mips.toNat_of_nonneg (by rw [hi]; omega), hi, Int.natAbs_neg]
  · have ht : im.table v0 = (im.msgMethods, im.msgMethodsNb) := if_neg hneg
    rw [ht] at hr ⊢
    exact ⟨v0, if_neg hneg, Mips.toNat_of_nonneg (by omega)⟩

theorem Placed.table (hP : Placed im) (v0 : BitVec 64) :
    PlacedAt im (im.table v0).1 (im.table v0).2 (if v0.toInt < 0 then 1 else 0) := by
  unfold Image.table
  split
  · exact hP.ctrl
  · exact hP.msg

theorem PlacedAt.add {table : BitVec 64} {first : Nat} (hP : PlacedAt im table nb first) (hi : i.toNat < nb.toNat) :
    Mips.add cpu table (Mips.sll i im.capSizeBits) = some (table + BitVec.ofNat 64 (i.toNat * 2 ^ im.capSizeBits)) := by
  have hlow := hP.low
  have hmul : i.toNat * 2 ^ im.capSizeBits < nb.toNat * 2 ^ im.capSizeBits :=
    Nat.mul_lt_mul_of_pos_right hi (Nat.two_pow_pos _)
  have hsll := Mips.toNat_sll (x := i) (k := im.capSizeBits) (by omega)
  have hti := Mips.toInt_of_lt (x := table) (by omega)
  have hsi := Mips.toInt_of_lt (x := Mips.sll i im.capSizeBits) (by omega)
  have hfits : FitsWord (table.toInt + (Mips.sll i im.capSizeBits).toInt) := by
    unfold FitsWord
    omega
  rw [Mips.add_words (Mips.isWord_of_lt (by omega)) (Mips.isWord_of_lt (by omega)), Mips.wordResult_some hfits]
  refine congrArg some (BitVec.eq_of_toNat_eq ?_)
  rw [hti, hsi, hsll, BitVec.toNat_add, BitVec.toNat_ofNat, ← Int.natCast_add, BitVec.ofInt_natCast, BitVec.toNat_ofNat]
  simp

/-- **A message with a number in range** is answered by its method, with its own token. -/
theorem msgEntry_inRange (cpu : Cpu) (h : Handler σ) (g : Globals σ) (hP : Placed im) (hr : InRange im (m.mf .v0)) :
    ∃ regs g', msgEntry cpu im h m g = some (⟨restore regs (m.cf .c1), some (im.method (m.mf .v0))⟩, g') ∧
      g'.syncToken = m.cf .c1 := by
  obtain ⟨i, hlook, hi⟩ := lookup_inRange cpu hP hr
  have hT := hP.table (m.mf .v0)
  unfold InRange at hr
  rw [← hi] at hr
  have hnb := hT.nb_lt
  have hnbi := Mips.toInt_of_lt hnb
  have hii := Mips.toInt_of_lt (x := i) (by omega)
  have hfits : FitsWord ((im.table (m.mf .v0)).2.toInt - i.toInt) := by
    unfold FitsWord
    omega
  have hsub : Mips.sub cpu (im.table (m.mf .v0)).2 i = some (BitVec.ofInt 64 ((im.table (m.mf .v0)).2.toInt - i.toInt)) := by
    rw [Mips.sub_words (Mips.isWord_of_lt hnb) (Mips.isWord_of_lt (by omega)), Mips.wordResult_some hfits]
  have hpos : ¬ (BitVec.ofInt 64 ((im.table (m.mf .v0)).2.toInt - i.toInt)).toInt ≤ 0 := by
    rw [Mips.toInt_ofInt_word hfits]
    omega
  have hcall : callable (im.method (m.mf .v0)) = true := by
    refine hT.methods _ ?_ (hi ▸ hr)
    unfold index
    split <;> omega
  have hmem : im.mem ((im.table (m.mf .v0)).1 + BitVec.ofNat 64 (i.toNat * 2 ^ im.capSizeBits)) =
      im.method (m.mf .v0) := by
    rw [hi]
    rfl
  unfold msgEntry
  simp only [hlook, hsub, Option.bind_eq_bind, Option.bind_some, if_neg hpos, hT.add hr, hmem, hcall, if_true]
  exact ⟨_, _, rfl, rfl⟩

/-- **A message with a number the range check refuses** is answered with the token saved last. -/
theorem msgEntry_refused (hP : Placed im) (hr : refused cpu im (m.mf .v0) = true) :
    msgEntry cpu im h m g = some (⟨restore (overflow m) g.syncToken, none⟩, g) := by
  rw [refused_eq hP] at hr
  unfold rangeCheck at hr
  unfold msgEntry
  cases hl : lookup cpu im (m.mf .v0) with
  | none =>
    rw [hl] at hr
    cases hr
  | some p =>
    rw [hl, Option.bind_some] at hr
    cases hs : Mips.sub cpu p.2.1 p.2.2 with
    | none =>
      rw [hs] at hr
      cases hr
    | some t =>
      rw [hs] at hr
      have ht : t.toInt ≤ 0 := by simpa [notPositive] using hr
      simp only [Option.bind_eq_bind, Option.bind_some, hs, if_pos ht]
      rfl

/-- **A message with any other number** has something called, if it gets that far. -/
theorem msgEntry_passed (hP : Placed im) (hr : refused cpu im (m.mf .v0) = false) {r : Reply}
    (he : msgEntry cpu im h m g = some (r, g')) : r.called ≠ none ∧ g'.syncToken = m.cf .c1 := by
  rw [refused_eq hP] at hr
  unfold rangeCheck at hr
  unfold msgEntry at he
  obtain ⟨p, hl, he⟩ := Option.bind_eq_some_iff.1 he
  obtain ⟨t, hs, he⟩ := Option.bind_eq_some_iff.1 he
  rw [hl, Option.bind_some, hs] at hr
  have ht : ¬ t.toInt ≤ 0 := by simpa [notPositive] using hr
  rw [if_neg ht] at he
  obtain ⟨t0, -, he⟩ := Option.bind_eq_some_iff.1 he
  dsimp only at he
  split at he
  · obtain ⟨rfl, rfl⟩ := Prod.mk.inj (Option.some.inj he)
    exact ⟨by simp, rfl⟩
  · cases he

/-! ## One message -/

/-- **A message answered as it should be**: the `creturn` presents its own token, and a method is called exactly if the
number is in range, the one at the index. -/
def Answered (cpu : Cpu) (im : Image) (h : Handler σ) (g : Globals σ) (m : RegFrame) : Prop :=
  ∃ r g', msgEntry cpu im h m g = some (r, g') ∧ r.regs.cf .c1 = m.cf .c1 ∧
    r.called = if InRange im (m.mf .v0) then some (im.method (m.mf .v0)) else none

/-- **When one message is answered as it should be.** -/
theorem answered_iff (hP : Placed im) : Answered cpu im h g m ↔
    InRange im (m.mf .v0) ∨ (refused cpu im (m.mf .v0) = true ∧ m.cf .c1 = g.syncToken) := by
  have hc1 : ∀ (regs : RegFrame) (tok : Cap), (restore regs tok).cf .c1 = tok := fun regs tok => by simp [restore]
  by_cases hin : InRange im (m.mf .v0)
  · obtain ⟨regs, g', he, -⟩ := msgEntry_inRange cpu h g hP hin
    exact ⟨fun _ => .inl hin, fun _ => ⟨_, g', he, hc1 _ _, by rw [if_pos hin]⟩⟩
  cases hr : refused cpu im (m.mf .v0) with
  | true =>
    have he := msgEntry_refused (h := h) (g := g) hP hr
    constructor
    · rintro ⟨r, g', he', htok, -⟩
      rw [he] at he'
      obtain ⟨rfl, rfl⟩ := Prod.mk.inj (Option.some.inj he')
      exact .inr ⟨rfl, by rw [← htok, hc1]⟩
    · rintro (h' | ⟨-, htok⟩)
      · exact absurd h' hin
      · exact ⟨_, g, he, by rw [hc1, htok], by rw [if_neg hin]⟩
  | false =>
    constructor
    · rintro ⟨r, g', he, -, hcalled⟩
      rw [if_neg hin] at hcalled
      exact absurd hcalled (msgEntry_passed hP hr he).1
    · rintro (h' | ⟨h', -⟩)
      · exact absurd h' hin
      · cases h'

/-! ## Sequences of messages -/

/-- The handling of one message after another, from the `NULL` that `sync_token` is initialised with. -/
abbrev Messages (cpu : Cpu) (im : Image) (h : Handler σ) :=
  Transition.Run (fun g : Globals σ => g.syncToken = Cap.null)
    (fun g (m : RegFrame) g' => ∃ r, msgEntry cpu im h m g = some (r, g'))

/-- **The token that arrived last with a message that passed the range check**, `NULL` if there was none. -/
def lastPassed (cpu : Cpu) (im : Image) : List (Transition.Step (Globals σ) RegFrame) → Cap
  | [] => Cap.null
  | st :: tr => if refused cpu im (st.ev.mf .v0) then lastPassed cpu im tr else st.ev.cf .c1

theorem Messages.syncToken (hP : Placed im) {tr : List (Transition.Step (Globals σ) RegFrame)}
    (hr : Messages cpu im h tr g) : g.syncToken = lastPassed cpu im tr := by
  induction hr with
  | nil h0 => exact h0
  | @cons tr g g' m _ hst ih =>
    obtain ⟨r, he⟩ := hst
    unfold lastPassed
    cases href : refused cpu im (m.mf .v0) with
    | true =>
      rw [msgEntry_refused hP href] at he
      obtain ⟨-, rfl⟩ := Prod.mk.inj (Option.some.inj he)
      rw [if_pos rfl, ih]
    | false => exact (msgEntry_passed hP href he).2

/-- **Which messages are answered with their own token.**  After any sequence of messages the next one is answered as it
should be exactly if its number is in range, or the range check refuses it and its token is the one that arrived last
with a message that passed the check. -/
theorem messages_answered (hP : Placed im) {tr : List (Transition.Step (Globals σ) RegFrame)}
    (hr : Messages cpu im h tr g) (m : RegFrame) : Answered cpu im h g m ↔
      InRange im (m.mf .v0) ∨ (refused cpu im (m.mf .v0) = true ∧ m.cf .c1 = lastPassed cpu im tr) := by
  rw [answered_iff hP, Messages.syncToken hP hr]

/-! ## An activation with two methods -/

def methodCap (i : BitVec 64) : Cap := ⟨true, false, 0, Cap.pcc.perms, 0, 0x10000, i⟩

def twoMethods : Image := ⟨0x2000, 2, 0x2040, 3, 4, methodCap⟩

theorem callable_methodCap (i : BitVec 64) : callable (methodCap i) = true := by
  have hexec : (Cap.pcc.hasPerms Cap.permExecute) = true := by decide
  unfold callable methodCap
  rw [Bool.and_eq_true]
  exact ⟨rfl, hexec⟩

theorem twoMethods_placed : Placed twoMethods :=
  ⟨⟨by decide, fun _ _ _ => callable_methodCap _⟩, ⟨by decide, fun _ _ _ => callable_methodCap _⟩⟩

/-- A processor that traps where the architecture leaves it free. -/
def strictCpu : Cpu := ⟨fun _ _ => none, fun _ _ => none⟩

def idle : Handler Unit := fun _ _ regs data => (regs, data)

def message (v0 : BitVec 64) (token : Cap) : RegFrame := (RegFrame.zero.setMf .v0 v0).setCf .c1 token

/-- A synchronous call of the first method has been handled. -/
theorem first_call : ∃ (tr : List (Transition.Step (Globals Unit) RegFrame)) (g : Globals Unit),
    Messages strictCpu twoMethods idle tr g ∧ tr.map (·.ev) = [message 0 (Kernel.tokenCap 1 1)] ∧
    g.syncToken = Kernel.tokenCap 1 1 := by
  have hin : InRange twoMethods ((message 0 (Kernel.tokenCap 1 1)).mf .v0) := by decide
  obtain ⟨regs, g, he, htok⟩ := msgEntry_inRange strictCpu idle ⟨Cap.null, ()⟩ twoMethods_placed hin
  exact ⟨[⟨⟨Cap.null, ()⟩, message 0 (Kernel.tokenCap 1 1), g⟩], g, .cons (.nil rfl) ⟨_, he⟩, rfl, htok⟩

/-- After a call of the first method, one of a control method is answered with its own token; an asynchronous message with
a bad number is not. -/
theorem messages_answered_second : ∃ (tr : List (Transition.Step (Globals Unit) RegFrame)) (g : Globals Unit),
    Messages strictCpu twoMethods idle tr g ∧ tr.map (·.ev) = [message 0 (Kernel.tokenCap 1 1)] ∧
    Answered strictCpu twoMethods idle g (message (-1) (Kernel.tokenCap 3 2)) ∧
    ¬ Answered strictCpu twoMethods idle g (message 7 Cap.null) := by
  obtain ⟨tr, g, hr, hev, htok⟩ := first_call
  have hlast : lastPassed strictCpu twoMethods tr = Kernel.tokenCap 1 1 := by
    rw [← Messages.syncToken twoMethods_placed hr, htok]
  refine ⟨tr, g, hr, hev, (messages_answered twoMethods_placed hr _).2 (.inl (by decide)), fun h => ?_⟩
  rcases (messages_answered twoMethods_placed hr _).1 h with hin | ⟨-, hown⟩
  · exact absurd hin (by decide)
  · rw [hlast] at hown
    exact absurd hown (by decide)

/-- **A bad method number after a good one**: a synchronous call of a method that does not exist is answered with the
token of the call before it. -/
theorem messages_answered_fails : ∃ (tr : List (Transition.Step (Globals Unit) RegFrame)) (g : Globals Unit),
    Messages strictCpu twoMethods idle tr g ∧ ¬ Answered strictCpu twoMethods idle g (message 7 (Kernel.tokenCap 3 2)) ∧
    (msgEntry strictCpu twoMethods idle (message 7 (Kernel.tokenCap 3 2)) g).map (fun p => p.1.regs.cf .c1) =
      some (Kernel.tokenCap 1 1) := by
  obtain ⟨tr, g', hr, -, htok⟩ := first_call
  have href : refused strictCpu twoMethods ((message 7 (Kernel.tokenCap 3 2)).mf .v0) = true := by decide
  have hnext := msgEntry_refused (h := idle) (g := g') twoMethods_placed href
  refine ⟨tr, g', hr, fun ⟨r, g'', he', hown, _⟩ => ?_, ?_⟩
  · rw [hnext] at he'
    obtain ⟨rfl, -⟩ := Prod.mk.inj (Option.some.inj he')
    have htok' : g'.syncToken = (message 7 (Kernel.tokenCap 3 2)).cf .c1 := by simpa [restore] using hown
    rw [htok] at htok'
    exact absurd htok' (by decide)
  · rw [hnext]
    simp only [Option.map_some, restore, htok]
    rfl

end LibUser
end CheriOS
