import EnergyMeter.Timing.Timer

/-!
# The board

What the stages of a meter share: the parameters of their board, checked once before the
pipeline starts, the published totals, the sampling timer and the log. The checks run in a fixed
order and the first that fails is the fault. The totals are everything that the meter publishes,
as of one instant: the last samples and their RMS values, the power of the last cycle, and the
energy and the cost since power-on. Energy and cost are kept in 2^32nds of a joule and of a
cent, the powers in 65536ths of a watt.
-/
namespace EnergyMeter

structure MeterSettings where
  /-- Rate of the clock that feeds the sampling timer. -/
  clockHertz : UInt32 := 50000000
  /-- Line voltage for each unit at the pin. -/
  voltageRatio : UInt32 := 100
  /-- Line current for each unit at the pin. -/
  currentRatio : UInt32 := 1
  /-- The frequency offset that sampling starts at. -/
  startOffset : UInt8 := DesignPoint.offsetNominal
  deriving DecidableEq, Repr

namespace MeterSettings

/-- Checks the clock, the two ratios and the offset, in this order. -/
def check (settings : MeterSettings) : Except Fault Unit :=
  match TickClock.ofHertz settings.clockHertz with
  | .error fault => .error fault
  | .ok _ =>
    if settings.voltageRatio = 0 then .error (.settings .zeroVoltageRatio)
    else if settings.currentRatio = 0 then .error (.settings .zeroCurrentRatio)
    else if DesignPoint.offsetMax < settings.startOffset then
      .error (.settings .offsetTooHigh)
    else .ok ()

def describe (settings : MeterSettings) : String :=
  Text.closedRecord "MeterConfig"
    [Text.field "module_clock_hz" (toString settings.clockHertz.toNat),
      Text.field "voltage_ratio" (toString settings.voltageRatio.toNat),
      Text.field "current_ratio" (toString settings.currentRatio.toNat),
      Text.field "initial_frequency_offset" (toString settings.startOffset.toNat)]

end MeterSettings

/-- The published values. The defaults are those at power-on. -/
structure Totals where
  voltage : Int16 := 0
  current : Int16 := 0
  voltageRms : UInt16 := 0
  currentRms : UInt16 := 0
  averagePower : UInt32 := 0
  /-- Energy since power-on. It never decreases. -/
  energy : UInt64 := 0
  /-- Cost since power-on. It never decreases. -/
  cost : UInt64 := 0
  /-- Power factor of the last cycle, in 256ths. -/
  powerFactor : UInt16 := 0
  /-- The offset that the sampling timer runs at. -/
  frequencyOffset : UInt8 := DesignPoint.offsetNominal
  cycles : UInt32 := 0
  deriving DecidableEq, Repr

namespace Totals

def secondsInHour : UInt32 := 3600

def decihertz (totals : Totals) : UInt16 := MainsOffset.decihertz totals.frequencyOffset

def watts (totals : Totals) : UInt32 := totals.averagePower >>> 16

def wattHours (totals : Totals) : UInt64 :=
  ((totals.energy >>> 16) / secondsInHour.toUInt64) >>> 16

def cents (totals : Totals) : UInt64 := totals.cost >>> 32

def describe (totals : Totals) : String :=
  Text.closedRecord "MeterSnapshot"
    [Text.field "voltage" (toString totals.voltage.toInt),
      Text.field "current" (toString totals.current.toInt),
      Text.field "voltage_rms" (toString totals.voltageRms.toNat),
      Text.field "current_rms" (toString totals.currentRms.toNat),
      Text.field "average_power" (toString totals.averagePower.toNat),
      Text.field "energy" (toString totals.energy.toNat),
      Text.field "cost" (toString totals.cost.toNat),
      Text.field "power_factor" (toString totals.powerFactor.toNat),
      Text.field "frequency_offset" (toString totals.frequencyOffset.toNat),
      Text.field "cycles" (toString totals.cycles.toNat)]

/-- The description of the shared place that the values are kept in. -/
def describeShared (totals : Totals) : String := Text.wrapped "Readings" totals.describe

end Totals

structure Board where
  totals : Totals := {}
  timer : TimerLink := {}
  log : Array LogRecord := #[]
  deriving DecidableEq, Repr

namespace Board

def note (board : Board) (records : List LogRecord) : Board :=
  { board with log := board.log ++ records }

def publish (board : Board) (change : Totals → Totals) : Board :=
  { board with totals := change board.totals }

def retune (board : Board) (clock : TickClock) (period : UInt32) : Board :=
  let tuned := board.timer.retune clock period
  { board with timer := tuned.value }.note tuned.log

end Board

end EnergyMeter
