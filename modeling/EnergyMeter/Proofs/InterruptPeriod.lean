import EnergyMeter.Proofs.LoadValues
import EnergyMeter.Stage.Board

/-!
# How long a load value really lasts

A load value is computed for a tick of whole nanoseconds, but the timer counts the ticks of the
clock as they are. The two agree if the clock's tick is a whole number of nanoseconds, and then
the interrupts come at the period that was asked for, to within a tick. Any other clock in range
is accepted as well: its ticks are longer than they are taken for, and the error adds up over the
period.
-/
namespace EnergyMeter

namespace TickClock

/-- The length of a tick of a clock, in nanoseconds. -/
def trueTick (hertz : UInt32) : ℚ := 1000000000 / hertz.toNat

/-- The time from one interrupt to the next of a timer that counts down from a load value. -/
def truePeriod (hertz load : UInt32) : ℚ := (load.toNat + 1) * trueTick hertz

/-- The interrupts come at the period that was asked for, to within a tick. -/
def Keeps (clock : TickClock) (hertz period : UInt32) : Prop :=
  |truePeriod hertz (clock.countdown period) - period.toNat| < trueTick hertz

variable {hertz : UInt32} {clock : TickClock}

theorem hertz_pos (h : ofHertz hertz = .ok clock) : 0 < hertz.toNat := by
  have ht := clock.tick_pos
  rw [tick_of_ofHertz h] at ht
  exact Nat.pos_of_ne_zero fun hz => by simp [hz] at ht

/-- A second is the whole nanoseconds of its ticks, and what is left of each tick. -/
theorem second_eq (h : ofHertz hertz = .ok clock) :
    hertz.toNat * clock.tick.toNat + 1000000000 % hertz.toNat = 1000000000 := by
  rw [tick_of_ofHertz h]
  exact Nat.div_add_mod _ _

/-- The period is kept if the error, in ticks' parts of a second, is less than a second. -/
theorem keeps_iff_lt_second (h : ofHertz hertz = .ok clock) (period : UInt32) :
    clock.Keeps hertz period ↔
      |(((clock.countdown period).toNat + 1) * 1000000000 - period.toNat * hertz.toNat : ℤ)| <
        1000000000 := by
  have hz : (0 : ℚ) < hertz.toNat := Nat.cast_pos.mpr (hertz_pos h)
  have hdiff : truePeriod hertz (clock.countdown period) - period.toNat =
      (((clock.countdown period).toNat + 1) * 1000000000 - period.toNat * hertz.toNat) /
        hertz.toNat := by
    unfold truePeriod trueTick
    field_simp
  rw [Keeps, hdiff, trueTick, abs_div, abs_of_pos hz, div_lt_div_iff_of_pos_right hz,
    ← Int.cast_lt (R := ℚ), Int.cast_abs]
  push_cast
  rfl

/-- What the ticks of a period are short of it, and what they are longer than taken for. -/
theorem error_eq (h : ofHertz hertz = .ok clock) {period : UInt32}
    (hp : clock.tick.toNat ≤ period.toNat) :
    (((clock.countdown period).toNat + 1) * 1000000000 - period.toNat * hertz.toNat : ℤ) =
      ((clock.countdown period).toNat + 1) * (1000000000 % hertz.toNat : ℕ) -
        hertz.toNat * (period.toNat % clock.tick.toNat : ℕ) := by
  have hone := Nat.div_pos hp clock.tick_pos
  have hload : (clock.countdown period).toNat + 1 = period.toNat / clock.tick.toNat := by
    rw [toNat_countdown]
    omega
  have hperiod := Nat.div_add_mod period.toNat clock.tick.toNat
  have hsecond := second_eq h
  rw [← hload] at hperiod
  zify at hperiod hsecond
  calc (((clock.countdown period).toNat + 1) * 1000000000 - period.toNat * hertz.toNat : ℤ)
      = ((clock.countdown period).toNat + 1) *
          (hertz.toNat * clock.tick.toNat + 1000000000 % hertz.toNat) -
        (clock.tick.toNat * ((clock.countdown period).toNat + 1) +
          period.toNat % clock.tick.toNat) * hertz.toNat := by rw [hperiod, hsecond]
    _ = _ := by push_cast; ring

/-- The whole ticks of a period and the part of a second that they leave out. -/
theorem rest_lt_second (h : ofHertz hertz = .ok clock) (period : UInt32) :
    hertz.toNat * (period.toNat % clock.tick.toNat) < 1000000000 := by
  have hrest := Nat.mod_lt period.toNat clock.tick_pos
  have hmul := Nat.mul_lt_mul_of_pos_left hrest (hertz_pos h)
  have hsecond := second_eq h
  omega

/-- A period shorter than a tick lasts one tick. -/
theorem error_of_lt (h : ofHertz hertz = .ok clock) {period : UInt32} (hpos : 0 < period.toNat)
    (hp : period.toNat < clock.tick.toNat) :
    (clock.countdown period).toNat = 0 ∧ 0 < period.toNat * hertz.toNat ∧
      period.toNat * hertz.toNat ≤ 1000000000 := by
  have hmul := Nat.mul_le_mul_left hertz.toNat hp.le
  have hsecond := second_eq h
  refine ⟨?_, Nat.mul_pos hpos (hertz_pos h), ?_⟩
  · rw [toNat_countdown, Nat.div_eq_of_lt hp]
  · rw [Nat.mul_comm]
    omega

/-- The period falls short by less than a tick, whatever the clock. -/
theorem neg_second_lt_error (h : ofHertz hertz = .ok clock) {period : UInt32}
    (hpos : 0 < period.toNat) :
    (-1000000000 : ℤ) <
      ((clock.countdown period).toNat + 1) * 1000000000 - period.toNat * hertz.toNat := by
  rcases Nat.lt_or_ge period.toNat clock.tick.toNat with hp | hp
  · obtain ⟨hload, -, hle⟩ := error_of_lt h hpos hp
    zify at hle
    rw [hload]
    push_cast
    linarith
  · have hrest := rest_lt_second h period
    have hlonger : (0 : ℤ) ≤ ((clock.countdown period).toNat + 1) *
        (1000000000 % hertz.toNat : ℕ) := by positivity
    rw [error_eq h hp]
    zify at hrest hlonger ⊢
    linarith

/-- The period is kept unless what the ticks are longer than taken for adds up to a tick. -/
theorem keeps_iff (h : ofHertz hertz = .ok clock) {period : UInt32} (hpos : 0 < period.toNat) :
    clock.Keeps hertz period ↔
      ((clock.countdown period).toNat + 1) * (1000000000 % hertz.toNat) <
        1000000000 + hertz.toNat * (period.toNat % clock.tick.toNat) := by
  have hlow := neg_second_lt_error h hpos
  rw [keeps_iff_lt_second h, abs_lt, and_iff_right hlow]
  rcases Nat.lt_or_ge period.toNat clock.tick.toNat with hp | hp
  · obtain ⟨hload, hmul, -⟩ := error_of_lt h hpos hp
    have hrest := Nat.mod_lt 1000000000 (hertz_pos h)
    have hsecond := second_eq h
    have hone := Nat.le_mul_of_pos_right hertz.toNat clock.tick_pos
    rw [hload]
    zify at hmul
    constructor
    · intro _
      omega
    · intro _
      push_cast
      linarith
  · rw [error_eq h hp]
    zify
    constructor <;> intro hlt <;> linarith

theorem keeps_of_dvd (h : ofHertz hertz = .ok clock) (hdvd : hertz.toNat ∣ 1000000000)
    {period : UInt32} (hpos : 0 < period.toNat) : clock.Keeps hertz period := by
  rw [keeps_iff h hpos, Nat.mod_eq_zero_of_dvd hdvd]
  omega

/-- What becomes of a period that is asked for. It is kept with a clock whose tick is a whole
number of nanoseconds; in general it is never short by a tick, and stretched by no more than the
clock's tick is longer than taken for. -/
structure PeriodAccount (clock : TickClock) (hertz period : UInt32) : Prop where
  kept_of_whole : hertz.toNat ∣ 1000000000 → clock.Keeps hertz period
  kept_iff : clock.Keeps hertz period ↔
    ((clock.countdown period).toNat + 1) * (1000000000 % hertz.toNat) <
      1000000000 + hertz.toNat * (period.toNat % clock.tick.toNat)
  not_short : period.toNat - trueTick hertz < truePeriod hertz (clock.countdown period)
  not_long : truePeriod hertz (clock.countdown period) ≤
    max period.toNat clock.tick.toNat * (trueTick hertz / clock.tick.toNat)

theorem periodAccount (h : ofHertz hertz = .ok clock) {period : UInt32}
    (hpos : 0 < period.toNat) : PeriodAccount clock hertz period := by
  have hz : (0 : ℚ) < hertz.toNat := Nat.cast_pos.mpr (hertz_pos h)
  have ht : (0 : ℚ) < clock.tick.toNat := Nat.cast_pos.mpr clock.tick_pos
  constructor
  · exact fun hdvd => keeps_of_dvd h hdvd hpos
  · exact keeps_iff h hpos
  · have hlow := Int.cast_lt (R := ℚ).mpr (neg_second_lt_error h hpos)
    push_cast at hlow
    have hsum : truePeriod hertz (clock.countdown period) + trueTick hertz =
        (((clock.countdown period).toNat + 1) * 1000000000 + 1000000000) / hertz.toNat := by
      unfold truePeriod trueTick
      ring
    rw [sub_lt_iff_lt_add, hsum, lt_div_iff₀ hz]
    linarith
  · have hle : ((((clock.countdown period).toNat + 1) * clock.tick.toNat : ℕ) : ℚ) ≤
        (max period.toNat clock.tick.toNat : ℕ) := Nat.cast_le.mpr (ticks_le clock period)
    have htrue : 0 ≤ trueTick hertz / clock.tick.toNat := by unfold trueTick; positivity
    have hticks : truePeriod hertz (clock.countdown period) =
        ((((clock.countdown period).toNat + 1) * clock.tick.toNat : ℕ) : ℚ) *
          (trueTick hertz / clock.tick.toNat) := by
      unfold truePeriod
      push_cast
      field_simp
    rw [hticks]
    exact mul_le_mul_of_nonneg_right hle htrue

end TickClock

open TickClock (PeriodAccount)

/-- Every accepted clock treats the periods of all offsets alike. -/
theorem offset_periods {settings : MeterSettings} (h : settings.check = .ok ()) :
    ∃ clock, TickClock.ofHertz settings.clockHertz = .ok clock ∧
      ∀ offset ≤ DesignPoint.offsetMax,
        PeriodAccount clock settings.clockHertz (MainsOffset.period offset) := by
  cases hk : TickClock.ofHertz settings.clockHertz with
  | error fault => simp [MeterSettings.check, hk] at h
  | ok clock =>
    refine ⟨clock, rfl, fun offset _ => TickClock.periodAccount hk ?_⟩
    rw [MainsOffset.toNat_period]
    omega

/-- The settings of a board whose clock has a tick of 20 nanoseconds and five sixths. -/
def unevenClock : MeterSettings := { clockHertz := 48000000 }

theorem offset_periods_uneven :
    unevenClock.check = .ok () ∧ DesignPoint.offsetNominal ≤ DesignPoint.offsetMax ∧
      ∃ clock, TickClock.ofHertz unevenClock.clockHertz = .ok clock ∧
        PeriodAccount clock unevenClock.clockHertz
          (MainsOffset.period DesignPoint.offsetNominal) := by
  have haccepted : unevenClock.check = .ok () := rfl
  obtain ⟨clock, hk, hall⟩ := offset_periods haccepted
  exact ⟨haccepted, by decide, clock, hk, hall DesignPoint.offsetNominal (by decide)⟩

/-- The clock is accepted, and the nominal period comes out longer by a twenty-fourth. -/
theorem uneven_clock_slow :
    unevenClock.check = .ok () ∧
      ∃ clock, TickClock.ofHertz unevenClock.clockHertz = .ok clock ∧
        TickClock.truePeriod unevenClock.clockHertz
          (clock.countdown (MainsOffset.period DesignPoint.offsetNominal)) = 1250000 * (25 / 24) ∧
        ¬ clock.Keeps unevenClock.clockHertz (MainsOffset.period DesignPoint.offsetNominal) := by
  have hz : unevenClock.clockHertz.toNat = 48000000 := rfl
  have hp : (MainsOffset.period DesignPoint.offsetNominal).toNat = 1250000 := by decide
  have htick : TickClock.trueTick unevenClock.clockHertz = 125 / 6 := by
    rw [TickClock.trueTick, hz]
    norm_num
  obtain ⟨clock, hk⟩ : ∃ clock, TickClock.ofHertz unevenClock.clockHertz = .ok clock := ⟨_, rfl⟩
  have hload : (clock.countdown (MainsOffset.period DesignPoint.offsetNominal)).toNat = 62499 := by
    rw [TickClock.toNat_countdown, TickClock.tick_of_ofHertz hk, hz, hp]
  have htrue : TickClock.truePeriod unevenClock.clockHertz
      (clock.countdown (MainsOffset.period DesignPoint.offsetNominal)) = 1250000 * (25 / 24) := by
    rw [TickClock.truePeriod, hload, htick]
    norm_num
  refine ⟨rfl, clock, hk, htrue, ?_⟩
  rw [TickClock.Keeps, htrue, htick, hp]
  norm_num

end EnergyMeter
