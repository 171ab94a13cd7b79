import CheriOS.Kernel.Plain
import Mathlib.Logic.Function.Iterate
/-!
# Timer — how far away the next tick is

`kernel_timer` moves the last tick on by whole intervals until it is at least `TIMER_INTERVAL_MIN` ahead of the count
register.  Both sides of the comparison are reduced modulo `2^32` before it: where only one of them has wrapped, the loop
stops at a tick that the count register has passed.
-/
namespace CheriOS
namespace Kernel

open Outcome

variable {b : Build} {s s' m : State} {act : Aid} {count next v u last : BitVec 64} {fuel : Nat}

/-! ## The loop -/

theorem tmod_toNat (x : BitVec 64) : (tmod x).toNat = x.toNat % 2 ^ 32 := by
  have hmask : (0xFFFFFFFF : BitVec 64).toNat = 2 ^ 32 - 1 := rfl
  rw [tmod, BitVec.toNat_and, hmask, Nat.and_two_pow_sub_one_eq_mod]

/-- One turn of the loop. -/
def tick (next : BitVec 64) : BitVec 64 := tmod (next + timerInterval)

@[simp] theorem timerInterval_toNat : timerInterval.toNat = 40000000 := rfl

@[simp] theorem timerIntervalMin_toNat : timerIntervalMin.toNat = 20000000 := rfl

theorem tick_toNat (next : BitVec 64) : (tick next).toNat = (next.toNat + 40000000) % 2 ^ 32 := by
  rw [tick, tmod_toNat, BitVec.toNat_add, timerInterval_toNat]
  omega

theorem soonest_toNat (count : BitVec 64) :
    (tmod (count + timerIntervalMin)).toNat = (count.toNat + 20000000) % 2 ^ 32 := by
  rw [tmod_toNat, BitVec.toNat_add, timerIntervalMin_toNat]
  omega

theorem nextTimer_succ (count : BitVec 64) (fuel : Nat) (next : BitVec 64) : nextTimer count (fuel + 1) next =
    if next < tmod (count + timerIntervalMin) then nextTimer count fuel (tick next) else some next := rfl

/-- **Where the loop stops**: at the first of the ticks that is not below the bound. -/
theorem nextTimer_eq_some : nextTimer count fuel next = some v ↔
    ∃ k < fuel, v = tick^[k] next ∧ tmod (count + timerIntervalMin) ≤ v ∧
      ∀ j < k, tick^[j] next < tmod (count + timerIntervalMin) := by
  induction fuel generalizing next with
  | zero => simp [nextTimer]
  | succ fuel ih =>
    rw [nextTimer_succ]
    split
    case isTrue hlt =>
      refine ih.trans ⟨?_, ?_⟩
      · rintro ⟨k, hk, hv, hle, hall⟩
        refine ⟨k + 1, by omega, by rw [Function.iterate_succ_apply, hv], hle, fun j hj => ?_⟩
        cases j with
        | zero => exact hlt
        | succ j =>
          rw [Function.iterate_succ_apply]
          exact hall j (by omega)
      · rintro ⟨k, hk, hv, hle, hall⟩
        cases k with
        | zero =>
          rw [Function.iterate_zero_apply] at hv
          exact absurd (hv ▸ hle) (BitVec.not_le.2 hlt)
        | succ k =>
          refine ⟨k, by omega, by rw [hv, Function.iterate_succ_apply], hle, fun j hj => ?_⟩
          rw [← Function.iterate_succ_apply]
          exact hall (j + 1) (by omega)
    case isFalse hge =>
      rw [Option.some.injEq]
      constructor
      · rintro rfl
        exact ⟨0, Nat.succ_pos _, rfl, BitVec.not_lt.1 hge, fun j hj => absurd hj (Nat.not_lt_zero _)⟩
      · rintro ⟨k, -, hv, -, hall⟩
        cases k with
        | zero => exact hv.symm
        | succ k => exact absurd (hall 0 (Nat.succ_pos _)) hge

theorem tick_iterate_toNat (hn : next.toNat < 2 ^ 32) (k : Nat) :
    (tick^[k] next).toNat = (next.toNat + 40000000 * k) % 2 ^ 32 := by
  induction k with
  | zero => exact (Nat.mod_eq_of_lt hn).symm
  | succ k ih =>
    rw [Function.iterate_succ_apply', tick_toNat, ih]
    omega

/-- **More turns than `2^23` stop nowhere else**: the ticks repeat themselves by then. -/
theorem nextTimer_turns (hn : next.toNat < 2 ^ 32) (h : nextTimer count fuel next = some v) :
    nextTimer count (2 ^ 23) next = some v := by
  obtain ⟨k, -, hv, hle, hall⟩ := nextTimer_eq_some.1 h
  refine nextTimer_eq_some.2 ⟨k, ?_, hv, hle, hall⟩
  by_contra hk
  have hsame : tick^[k % 2 ^ 23] next = tick^[k] next := by
    apply BitVec.eq_of_toNat_eq
    rw [tick_iterate_toNat hn, tick_iterate_toNat hn]
    omega
  have hlt := hall (k % 2 ^ 23) (by omega)
  rw [hsame, ← hv] at hlt
  exact absurd hle (BitVec.not_le.2 hlt)

/-- **A tick reached from below the bound** is less than an interval past it. -/
theorem nextTimer_below (h : nextTimer count fuel next = some v) (hlt : next < tmod (count + timerIntervalMin)) :
    v.toNat < (tmod (count + timerIntervalMin)).toNat + 40000000 := by
  obtain ⟨k, -, hv, hle, hall⟩ := nextTimer_eq_some.1 h
  cases k with
  | zero =>
    obtain rfl : v = next := hv
    exact absurd hle (BitVec.not_le.2 hlt)
  | succ k =>
    have hu := BitVec.lt_def.1 (hall k (Nat.lt_succ_self k))
    have hstep : v.toNat ≤ (tick^[k] next).toNat + 40000000 := by
      rw [hv, Function.iterate_succ_apply', tick_toNat]
      exact Nat.mod_le _ _
    omega

theorem nextTimer_at_once (hge : ¬ next < tmod (count + timerIntervalMin)) (h : nextTimer count fuel next = some v) :
    v = next := by
  obtain ⟨k, -, hv, -, hall⟩ := nextTimer_eq_some.1 h
  cases k with
  | zero => exact hv
  | succ k => exact absurd (hall 0 (Nat.succ_pos _)) hge

/-! ## How near it is -/

/-- How far `x` is ahead of the count register. -/
def ahead (count x : BitVec 64) : Nat := (tmod (x - count)).toNat

/-- **In the near future**, and not too near. -/
def Near (count x : BitVec 64) : Prop :=
  timerIntervalMin.toNat ≤ ahead count x ∧ ahead count x ≤ timerInterval.toNat + timerIntervalMin.toNat

instance (count x : BitVec 64) : Decidable (Near count x) := inferInstanceAs (Decidable (_ ∧ _))

/-- **No wrap between the two sides of the comparison**: the tick after `last` wraps, or `count` and what the bound adds
to it, counted from `last`, do not. -/
def Unparted (last count : BitVec 64) : Prop :=
  2 ^ 32 ≤ last.toNat + timerInterval.toNat ∨ last.toNat + ahead last count + timerIntervalMin.toNat < 2 ^ 32

instance (last count : BitVec 64) : Decidable (Unparted last count) := inferInstanceAs (Decidable (_ ∨ _))

theorem ahead_toNat (hc : count.toNat < 2 ^ 32) (x : BitVec 64) :
    ahead count x = (x.toNat + (2 ^ 32 - count.toNat)) % 2 ^ 32 := by
  rw [ahead, tmod_toNat, BitVec.toNat_sub]
  omega

/-- **The tick the loop stops at** is near exactly when nothing wraps between the two sides. -/
theorem nextTimer_near (hl : last.toNat < 2 ^ 32) (hc : count.toNat < 2 ^ 32) (hlate : ahead last count < 2 ^ 31)
    (h : nextTimer count fuel (tick last) = some v) : Near count v ↔ Unparted last count := by
  have hfirst := tick_toNat last
  have hbound := soonest_toNat count
  rw [ahead_toNat hl count] at hlate
  unfold Near Unparted
  rw [ahead_toNat hl count, timerInterval_toNat, timerIntervalMin_toNat]
  by_cases hlt : tick last < tmod (count + timerIntervalMin)
  · -- the loop turned at least once: the bound is within an interval below the tick
    have hbelow := nextTimer_below h hlt
    obtain ⟨k, -, hv, hle, -⟩ := nextTimer_eq_some.1 h
    have hfit : v.toNat < 2 ^ 32 := by
      rw [hv, tick_iterate_toNat (by omega)]
      exact Nat.mod_lt _ (by decide)
    rw [BitVec.lt_def] at hlt
    rw [BitVec.le_def] at hle
    rw [ahead_toNat hc v]
    constructor <;> omega
  · obtain rfl := nextTimer_at_once hlt h
    rw [BitVec.lt_def] at hlt
    rw [ahead_toNat hc (tick last)]
    constructor <;> omega

/-! ## The handler -/

theorem kernelTimer_next (h : kernelTimer b count s = .ok s') :
    nextTimer count (2 ^ 23) (tick s.kernelLastTimer) = some s'.kernelLastTimer := by
  unfold kernelTimer at h
  obtain ⟨m, hm, h⟩ := bind_eq_ok.1 h
  rw [(schedReschedule_gives 0).eq hm] at h
  split at h
  · rename_i next hnext
    obtain rfl := Except.ok.inj h
    exact hnext
  · cases h

/-- **The next tick.**  Whenever `kernel_timer` comes back, the tick it programs is near exactly when nothing wraps
between the two sides of its comparison. -/
theorem next_tick_near (hl : s.kernelLastTimer.toNat < 2 ^ 32) (hc : count.toNat < 2 ^ 32)
    (hlate : ahead s.kernelLastTimer count < 2 ^ 31) (h : kernelTimer b count s = .ok s') :
    Near count s'.kernelLastTimer ↔ Unparted s.kernelLastTimer count :=
  nextTimer_near hl hc hlate (kernelTimer_next h)

/-- The timer's interrupt, with the count register at `count`. -/
def timerEntry (count : BitVec 64) : Entry :=
  ⟨userRegs 0 0 Cap.null Cap.null Cap.null Cap.null, .interrupt 0x80 count⟩

/-- A run whose last tick, at 4240000000, is the last but one before the count register wraps. -/
theorem lateTick_run (count : BitVec 64) (p : BitVec 64 → Bool)
    (h : scriptSat debugBuild [timerEntry 4200000000] (fun s => s.kernelLastTimer == 4240000000 &&
      (kernelTimer debugBuild count s).toOption.any (fun s' => p s'.kernelLastTimer)) = true) :
    ∃ tr s s', KernelRun debugBuild tr s ∧ s.kernelLastTimer = 4240000000 ∧
      kernelTimer debugBuild count s = .ok s' ∧ p s'.kernelLastTimer = true := by
  obtain ⟨tr, s, hr, -, hp⟩ := scriptSat_run debugBuild _ _ h
  obtain ⟨hlast, htimer⟩ := Bool.and_eq_true_iff.1 hp
  cases hk : kernelTimer debugBuild count s with
  | ok s' => exact ⟨tr, s, s', hr, by simpa using hlast, hk, by rw [hk] at htimer; exact htimer⟩
  | error e => rw [hk] at htimer; cases htimer

/-- The handler runs a quarter of an interval after the tick. -/
theorem next_tick_near_soon : ∃ s s', s.kernelLastTimer = 4240000000 ∧
    kernelTimer debugBuild 4250000000 s = .ok s' ∧ Near 4250000000 s'.kernelLastTimer := by
  obtain ⟨tr, s, s', -, hlast, hs', -⟩ := lateTick_run 4250000000 (fun _ => true) (by decide +kernel)
  refine ⟨s, s', hlast, hs', (next_tick_near ?_ (by decide) ?_ hs').2 ?_⟩ <;> rw [hlast] <;> decide

/-- **A tick behind the counter**: the count register has wrapped, the tick after the last one has not, and the loop takes
it for one ahead; there is no tick for nearly a whole turn of the counter. -/
theorem next_tick_far : ∃ tr s s', KernelRun debugBuild tr s ∧ s.kernelLastTimer.toNat < 2 ^ 32 ∧
    ahead s.kernelLastTimer 100 < 2 ^ 31 ∧ kernelTimer debugBuild 100 s = .ok s' ∧
    ahead 100 s'.kernelLastTimer = 4279999900 ∧ ¬ Near 100 s'.kernelLastTimer := by
  obtain ⟨tr, s, s', hr, hlast, hs', hnext⟩ := lateTick_run 100 (fun v => v == 4280000000) (by decide +kernel)
  rw [beq_iff_eq] at hnext
  refine ⟨tr, s, s', hr, ?_, ?_, hs', ?_, ?_⟩
  · rw [hlast]
    decide
  · rw [hlast]
    decide
  · rw [hnext]
    decide
  · rw [hnext]
    decide

end Kernel
end CheriOS
