import EnergyMeter.Proofs.Words
import EnergyMeter.Timing.Timer

/-!
# Load values and periods in whole ticks

A load value is one less than the whole ticks in a period, and a software timer gives back the
period that these ticks last. A clock whose tick is no longer than one step of the sampling
period tells any two offsets apart.
-/
namespace EnergyMeter

namespace TickClock

/-- An accepted rate gives the whole nanoseconds of its tick. -/
theorem tick_of_ofHertz {hertz : UInt32} {clock : TickClock} (h : ofHertz hertz = .ok clock) :
    clock.tick.toNat = 1000000000 / hertz.toNat := by
  unfold ofHertz at h
  split at h
  · rw [← Except.ok.inj h, UInt32.toNat_div]
    rfl
  · cases h

theorem toNat_countdown (clock : TickClock) (period : UInt32) :
    (clock.countdown period).toNat = period.toNat / clock.tick.toNat - 1 := by
  have hp := period.toNat_lt
  have hq := Nat.div_le_self period.toNat clock.tick.toNat
  rw [countdown, UInt32.toNat_ofNat', Nat.mod_eq_of_lt (by omega)]

/-- A timer counts the whole ticks of a period, and one at least. -/
theorem countdown_add_one (clock : TickClock) (period : UInt32) :
    (clock.countdown period).toNat + 1 = max 1 (period.toNat / clock.tick.toNat) := by
  rw [toNat_countdown]
  omega

/-- The ticks of a period, taken for whole nanoseconds, do not exceed it unless it is shorter
than one of them. -/
theorem ticks_le (clock : TickClock) (period : UInt32) :
    ((clock.countdown period).toNat + 1) * clock.tick.toNat ≤
      max period.toNat clock.tick.toNat := by
  have hq := Nat.div_mul_le_self period.toNat clock.tick.toNat
  rw [countdown_add_one]
  rcases Nat.le_total (period.toNat / clock.tick.toNat) 1 with hone | hmore
  · rw [Nat.max_eq_left hone, Nat.one_mul]
    exact Nat.le_max_right _ _
  · rw [Nat.max_eq_right hmore]
    exact hq.trans (Nat.le_max_left _ _)

/-- So they fit into a word. -/
theorem ticks_lt (clock : TickClock) (period : UInt32) :
    ((clock.countdown period).toNat + 1) * clock.tick.toNat < 2 ^ 32 :=
  (clock.ticks_le period).trans_lt (Nat.max_lt.mpr ⟨period.toNat_lt, clock.tick.toNat_lt⟩)

end TickClock

namespace SoftTimer

/-- The period in exact numbers: the ticks of the load value and one more, at most a full word. -/
theorem toNat_period (timer : SoftTimer) :
    timer.period.toNat = min ((timer.load.toNat + 1) * timer.clock.tick.toNat) (2 ^ 32 - 1) := by
  have hl := timer.load.toNat_lt
  have ht := timer.clock.tick_pos
  rw [period, Words.toNat_clamp32, Words.toNat_clamp32]
  by_cases hfull : timer.load.toNat + 1 ≤ 2 ^ 32 - 1
  · rw [Nat.min_eq_left hfull]
  · have hload : timer.load.toNat + 1 = 2 ^ 32 := by omega
    rw [hload, Nat.min_eq_right (Nat.sub_le _ 1)]
    omega

/-- A timer that was loaded for a period has it in whole ticks, one tick at least. -/
theorem toNat_period_of_load {timer : SoftTimer} {wanted : UInt32}
    (h : timer.load = timer.clock.countdown wanted) :
    timer.period.toNat =
      max 1 (wanted.toNat / timer.clock.tick.toNat) * timer.clock.tick.toNat := by
  have hlt := timer.clock.ticks_lt wanted
  rw [toNat_period, h, Nat.min_eq_left (Nat.le_sub_one_of_lt hlt), TickClock.countdown_add_one]

end SoftTimer

/-- A longer period by one tick or more has a larger load value, if it lasts a tick at all. -/
theorem countdown_lt_countdown {clock : TickClock} {shorter longer : UInt32}
    (hs : clock.tick.toNat ≤ shorter.toNat)
    (hl : shorter.toNat + clock.tick.toNat ≤ longer.toNat) :
    clock.countdown shorter < clock.countdown longer := by
  have hone := Nat.div_pos hs clock.tick_pos
  have hnext : shorter.toNat / clock.tick.toNat + 1 ≤ longer.toNat / clock.tick.toNat := by
    rw [← Nat.add_div_right _ clock.tick_pos]
    exact Nat.div_le_div_right hl
  rw [UInt32.lt_iff_toNat_lt, TickClock.toNat_countdown, TickClock.toNat_countdown]
  omega

/-- A clock with a tick of one step of the period or less has another load value for each
offset, a larger one for a larger offset. -/
theorem countdown_period_lt {clock : TickClock} (ht : clock.tick.toNat ≤ 2506)
    {offset other : UInt8} (h : offset < other) :
    clock.countdown (MainsOffset.period offset) < clock.countdown (MainsOffset.period other) := by
  rw [UInt8.lt_iff_toNat_lt] at h
  apply countdown_lt_countdown
  · rw [MainsOffset.toNat_period]
    omega
  · rw [MainsOffset.toNat_period, MainsOffset.toNat_period]
    omega

end EnergyMeter
