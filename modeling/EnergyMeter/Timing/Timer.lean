import EnergyMeter.Log
import EnergyMeter.Timing.NominalPeriod

/-!
# Sampling timers

A countdown timer is fed by a clock of a known rate. A period is turned into the value the
timer counts down from, one less than the ticks that fit into it. A software timer counts
nothing itself: it holds the load value and the enabled flag it was last told, and gives the
period they stand for to whoever waits it out. The link is the meter's side of the timer: every
call that was made through it, in order, and the software timer behind it, if there is one.
-/
namespace EnergyMeter

structure TickClock where
  /-- The length of a tick in whole nanoseconds. -/
  tick : UInt32
  tick_pos : 0 < tick.toNat
  deriving DecidableEq, Repr

namespace TickClock

/-- A rate that a timer can be clocked at: not zero, and a tick of a nanosecond or more. -/
def Accepts (hertz : UInt32) : Prop := hertz ≠ 0 ∧ hertz ≤ DesignPoint.second

instance (hertz : UInt32) : Decidable (Accepts hertz) := inferInstanceAs (Decidable (_ ∧ _))

theorem second_div_pos {hertz : UInt32} (h : Accepts hertz) :
    0 < (DesignPoint.second / hertz).toNat := by
  have hz : 0 < hertz.toNat := Nat.pos_of_ne_zero fun h0 => h.1 (UInt32.toNat_inj.mp h0)
  rw [UInt32.toNat_div]
  exact Nat.div_pos (UInt32.le_iff_toNat_le.mp h.2) hz

def ofHertz (hertz : UInt32) : Except Fault TickClock :=
  if h : Accepts hertz then .ok ⟨DesignPoint.second / hertz, second_div_pos h⟩
  else .error (.clockOutOfRange hertz)

/-- The value a timer counts down from to last a period, zero for a period of one tick or
less. -/
def countdown (clock : TickClock) (period : UInt32) : UInt32 :=
  UInt32.ofNat (period.toNat / clock.tick.toNat - 1)

def describe (clock : TickClock) : String :=
  Text.closedRecord "TimerConfig" [Text.field "ns_per_tick" (toString clock.tick.toNat)]

end TickClock

inductive TimerCall where
  | disable
  | load (value : UInt32)
  | enable
  deriving DecidableEq, Repr

namespace TimerCall

def text : TimerCall → String
  | disable => "disable"
  | load value => s!"load {value.toNat}"
  | enable => "enable"

/-- The calls that give a timer a new load value at once. -/
def reload (value : UInt32) : List TimerCall := [disable, load value, enable]

end TimerCall

structure SoftTimer where
  clock : TickClock
  load : UInt32 := 0
  enabled : Bool := false
  deriving DecidableEq, Repr

namespace SoftTimer

/-- The period of the load value, at most a full word in each of its two steps. -/
def period (timer : SoftTimer) : UInt32 :=
  let ticks := UInt32.ofNatClamp (timer.load.toNat + 1)
  UInt32.ofNatClamp (ticks.toNat * timer.clock.tick.toNat)

def perform (timer : SoftTimer) : TimerCall → SoftTimer
  | .disable => { timer with enabled := false }
  | .load value => { timer with load := value }
  | .enable => { timer with enabled := true }

def describe (timer : SoftTimer) : String :=
  Text.closedRecord "PeriodRegister"
    [Text.field "config" timer.clock.describe,
      Text.field "period_ns" (toString timer.period.toNat),
      Text.field "enabled" (Text.truth timer.enabled)]

end SoftTimer

/-- The calls made on the sampling timer and what stands behind them. -/
structure TimerLink where
  calls : Array TimerCall := #[]
  soft : Option SoftTimer := none
  deriving DecidableEq, Repr

namespace TimerLink

def perform (link : TimerLink) (call : TimerCall) : TimerLink where
  calls := link.calls.push call
  soft := link.soft.map (·.perform call)

/-- Stops, reloads and restarts the timer, so that a new period holds from the very next
sample on. -/
def retune (link : TimerLink) (clock : TickClock) (period : UInt32) : Noted TimerLink :=
  let load := clock.countdown period
  { value := (TimerCall.reload load).foldl perform link
    log := [.timerReloaded period load] }

def describe (link : TimerLink) : String :=
  match link.soft with
  | none => "Timer"
  | some timer => timer.describe

end TimerLink

end EnergyMeter
