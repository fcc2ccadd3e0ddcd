import EnergyMeter.Proofs.LoadValues
import Mathlib

/-!
# The period that a timer is tuned to

Load values and periods are adjoint: the load value of a period is the largest whose ticks fit
into it, and a period made of ticks gives its load value back. So a software timer tuned to a
period runs at the most whole ticks of it, one at least, whatever was done to the timer before;
and to tune it again to the period that it runs at changes nothing.
-/
namespace EnergyMeter

namespace TickClock

variable {clock : TickClock} {load period : UInt32}

/-- A load value fits a period if its ticks do. -/
theorem le_countdown_iff (h : clock.tick ≤ period) :
    load ≤ clock.countdown period ↔
      (load.toNat + 1) * clock.tick.toNat ≤ period.toNat := by
  have hone := Nat.div_pos (UInt32.le_iff_toNat_le.mp h) clock.tick_pos
  rw [UInt32.le_iff_toNat_le, toNat_countdown, ← Nat.le_div_iff_mul_le clock.tick_pos]
  omega

theorem countdown_le_countdown {shorter longer : UInt32} (h : shorter ≤ longer) :
    clock.countdown shorter ≤ clock.countdown longer := by
  rw [UInt32.le_iff_toNat_le, toNat_countdown, toNat_countdown]
  exact Nat.sub_le_sub_right (Nat.div_le_div_right (UInt32.le_iff_toNat_le.mp h)) 1

theorem countdown_of_ticks (h : period.toNat = (load.toNat + 1) * clock.tick.toNat) :
    clock.countdown period = load := by
  rw [← UInt32.toNat_inj, toNat_countdown, h, Nat.mul_div_cancel _ clock.tick_pos]
  exact Nat.add_sub_cancel load.toNat 1

end TickClock

namespace SoftTimer

/-- The timer runs, at the most whole ticks of a period or at one tick if the period is shorter,
and its period is the exact product: neither step of it stops at the largest word. -/
structure TunedTo (timer : SoftTimer) (wanted : UInt32) : Prop where
  enabled : timer.enabled = true
  greatest : timer.clock.tick ≤ wanted →
    IsGreatest {n | timer.clock.tick.toNat ∣ n ∧ n ≤ wanted.toNat} timer.period.toNat
  one_tick : wanted < timer.clock.tick → timer.period = timer.clock.tick
  ticks_lt : timer.load.toNat + 1 < 2 ^ 32
  period_lt : (timer.load.toNat + 1) * timer.clock.tick.toNat < 2 ^ 32

theorem isGreatest_period {timer : SoftTimer} {wanted : UInt32}
    (hload : timer.load = timer.clock.countdown wanted) (h : timer.clock.tick ≤ wanted) :
    IsGreatest {n | timer.clock.tick.toNat ∣ n ∧ n ≤ wanted.toNat} timer.period.toNat := by
  have hone := Nat.div_pos (UInt32.le_iff_toNat_le.mp h) timer.clock.tick_pos
  have hperiod := toNat_period_of_load hload
  rw [Nat.max_eq_right hone] at hperiod
  rw [hperiod]
  constructor
  · exact ⟨Nat.dvd_mul_left _ _, Nat.div_mul_le_self _ _⟩
  · rintro n ⟨⟨k, rfl⟩, hk⟩
    rw [Nat.mul_comm] at hk ⊢
    exact Nat.mul_le_mul_right _ ((Nat.le_div_iff_mul_le timer.clock.tick_pos).mpr hk)

theorem period_of_lt_tick {timer : SoftTimer} {wanted : UInt32}
    (hload : timer.load = timer.clock.countdown wanted) (h : wanted < timer.clock.tick) :
    timer.period = timer.clock.tick := by
  have hzero := Nat.div_eq_of_lt (UInt32.lt_iff_toNat_lt.mp h)
  rw [← UInt32.toNat_inj, toNat_period_of_load hload, hzero]
  exact Nat.one_mul _

theorem tunedTo_of_load {timer : SoftTimer} {wanted : UInt32} (he : timer.enabled = true)
    (hload : timer.load = timer.clock.countdown wanted) : timer.TunedTo wanted := by
  have hlt := timer.clock.ticks_lt wanted
  rw [← hload] at hlt
  exact ⟨he, isGreatest_period hload, period_of_lt_tick hload,
    (Nat.le_mul_of_pos_right _ timer.clock.tick_pos).trans_lt hlt, hlt⟩

/-- The period that a timer was tuned to has the same load value again. -/
theorem TunedTo.countdown_period {timer : SoftTimer} {wanted : UInt32} (h : timer.TunedTo wanted) :
    timer.clock.countdown timer.period = timer.load := by
  apply TickClock.countdown_of_ticks
  rw [toNat_period]
  exact Nat.min_eq_left (Nat.le_sub_one_of_lt h.period_lt)

end SoftTimer

/-- What is done to a timer: a single call, or a new period for the ticks of some clock. -/
inductive TimerUse where
  | call (call : TimerCall)
  | tune (clock : TickClock) (period : UInt32)

namespace TimerLink

def use (link : TimerLink) : TimerUse → TimerLink
  | .call call => link.perform call
  | .tune clock period => (link.retune clock period).value

/-- The link to a software timer of a clock, to which all this was done since it was made. -/
def used (clock : TickClock) (uses : List TimerUse) : TimerLink :=
  uses.foldl use { soft := some { clock } }

theorem soft_retune {link : TimerLink} {timer : SoftTimer} (h : link.soft = some timer)
    (clock : TickClock) (period : UInt32) :
    (link.retune clock period).value.soft =
      some { timer with load := clock.countdown period, enabled := true } := by
  simp only [retune, TimerCall.reload, List.foldl_cons, List.foldl_nil, perform, h,
    Option.map_some, SoftTimer.perform]

/-- A use changes the load value and the flag, never the clock. -/
theorem clock_use {link : TimerLink} {timer : SoftTimer} (h : link.soft = some timer)
    (u : TimerUse) : ∃ next, (link.use u).soft = some next ∧ next.clock = timer.clock := by
  cases u with
  | call call =>
    refine ⟨timer.perform call, ?_, ?_⟩
    · rw [use, perform, h, Option.map_some]
    · cases call <;> rfl
  | tune clock period => exact ⟨_, soft_retune h clock period, rfl⟩

theorem clock_used (clock : TickClock) (uses : List TimerUse) :
    ∃ timer, (used clock uses).soft = some timer ∧ timer.clock = clock := by
  induction uses using List.reverseRecOn with
  | nil => exact ⟨{ clock }, rfl, rfl⟩
  | append_singleton uses u ih =>
    obtain ⟨timer, hs, hc⟩ := ih
    obtain ⟨next, hn, hk⟩ := clock_use hs u
    refine ⟨next, ?_, hk.trans hc⟩
    rw [used, List.foldl_append]
    exact hn

/-- Load values and periods on a clock, and what the software timer behind the link is tuned to
next. -/
structure Adjoint (clock : TickClock) (link : TimerLink) : Prop where
  tuned : ∀ wanted, ∃ timer, (link.retune clock wanted).value.soft = some timer ∧
    timer.clock = clock ∧ timer.TunedTo wanted ∧
    ((link.retune clock wanted).value.retune clock timer.period).value.soft = some timer
  loaded : ∀ load, ∃ timer, (link.perform (.load load)).soft = some timer ∧
    timer.clock = clock ∧ timer.load = load ∧
    timer.period.toNat = min (2 ^ 32 - 1) ((load.toNat + 1) * clock.tick.toNat)
  load_of_ticks : ∀ load : UInt32, (load.toNat + 1) * clock.tick.toNat ≤ 2 ^ 32 - 1 →
    clock.countdown (UInt32.ofNat ((load.toNat + 1) * clock.tick.toNat)) = load
  fits_iff : ∀ load period : UInt32, clock.tick ≤ period →
    (load ≤ clock.countdown period ↔ (load.toNat + 1) * clock.tick.toNat ≤ period.toNat)
  mono : ∀ shorter longer : UInt32, shorter ≤ longer →
    clock.countdown shorter ≤ clock.countdown longer

theorem adjoint_of_soft {link : TimerLink} {timer : SoftTimer} (h : link.soft = some timer) :
    Adjoint timer.clock link := by
  constructor
  · intro wanted
    have hsoft := soft_retune h timer.clock wanted
    have htuned : SoftTimer.TunedTo
        { timer with load := timer.clock.countdown wanted, enabled := true } wanted :=
      SoftTimer.tunedTo_of_load rfl rfl
    refine ⟨_, hsoft, rfl, htuned, ?_⟩
    rw [soft_retune hsoft, htuned.countdown_period]
  · intro load
    refine ⟨timer.perform (.load load), ?_, rfl, rfl, ?_⟩
    · rw [perform, h, Option.map_some]
    · rw [SoftTimer.toNat_period, Nat.min_comm]
      rfl
  · intro load hle
    apply TickClock.countdown_of_ticks
    rw [UInt32.toNat_ofNat']
    exact Nat.mod_eq_of_lt (by omega)
  · exact fun load period hle => TickClock.le_countdown_iff hle
  · exact fun shorter longer hle => TickClock.countdown_le_countdown hle

end TimerLink

/-- Load values and periods are adjoint on every accepted clock, for a software timer that was
used in any way before. -/
theorem load_adjoint_period {hertz : UInt32} {clock : TickClock}
    (h : TickClock.ofHertz hertz = .ok clock) (uses : List TimerUse) :
    clock.tick.toNat = 1000000000 / hertz.toNat ∧
      TimerLink.Adjoint clock (.used clock uses) := by
  have htick := TickClock.tick_of_ofHertz h
  obtain ⟨timer, hs, rfl⟩ := TimerLink.clock_used clock uses
  exact ⟨htick, TimerLink.adjoint_of_soft hs⟩

/-- A clock of one tick in a second, its timer left at the largest load value. -/
theorem load_adjoint_period_slowest : ∃ clock, TickClock.ofHertz 1 = .ok clock ∧
    clock.tick.toNat = 1000000000 / (1 : UInt32).toNat ∧
    TimerLink.Adjoint clock
      (.used clock [.tune clock 5, .call .disable, .call (.load 4294967295)]) ∧
    (TimerLink.used clock [.tune clock 3999999999]).soft.map (·.period) = some 3000000000 ∧
    (TimerLink.used clock [.call (.load 4294967295)]).soft.map (·.period) = some 4294967295 := by
  obtain ⟨clock, hk⟩ : ∃ clock, TickClock.ofHertz 1 = .ok clock := ⟨_, rfl⟩
  obtain ⟨ht, ha⟩ :=
    load_adjoint_period hk [.tune clock 5, .call .disable, .call (.load 4294967295)]
  obtain rfl := Except.ok.inj hk
  exact ⟨_, rfl, ht, ha, by decide +kernel, by decide +kernel⟩

end EnergyMeter
