import EnergyMeter.Log
import EnergyMeter.Sampling.SampleQueue
import EnergyMeter.Stage.Board

/-!
# Billing by the cycle

The cycle meter sums the products of voltage and current over sixteen samples. When a cycle
closes, the sum becomes power, energy, cost and power factor, and the totals grow by them.
Power that flows back counts as none, and energy and cost stay at the largest word rather
than wrap.

The time scale is the length of one sampled cycle, as the multiplier that takes the power of a
cycle to its energy. The test mode runs 3600 times faster, so an hour of billing passes in a
second.
-/
namespace EnergyMeter

structure TimeScale where
  value : UInt32
  deriving DecidableEq, Repr

namespace TimeScale

def realTime : TimeScale := ⟨8192⟩

def testMode : TimeScale := ⟨29491200⟩

/-- Puts a multiplier in force, and says so. -/
def set (value : UInt32) : Noted TimeScale := { value := ⟨value⟩, log := [.timeScaleSet value] }

def setTestMode (on : Bool) : Noted TimeScale := set (if on then testMode else realTime).value

def isTestMode (scale : TimeScale) : Bool := scale == testMode

def describe (scale : TimeScale) : String :=
  Text.wrapped "TimeBase" (toString scale.value.toNat)

end TimeScale

structure CycleBill where
  /-- Power of the cycle in 65536ths, never negative. -/
  power : UInt64
  /-- Average power, in 65536ths of a watt. -/
  averagePower : UInt32
  /-- Energy added, in 2^32nds of a joule. -/
  energy : UInt64
  /-- Cost added, in 2^32nds of a cent. -/
  cost : UInt64
  rate : UInt32
  /-- Power factor, in 256ths. -/
  powerFactor : UInt16
  deriving DecidableEq, Repr

/-- The terms that a cycle is billed on: the rate and the time scale in force. -/
structure BillingTerms where
  rate : UInt32
  scale : TimeScale
  deriving DecidableEq, Repr

namespace CycleBill

/-- Divisor that takes a sum of raw products to 65536ths. -/
def rescaleDivisor : Int64 := 164

/-- Half the divisor, added to round to the nearest. -/
def rescaleBias : Int64 := rescaleDivisor / 2

def joulesPerKilowattHour : UInt64 := 3600000

/-- A power factor of one, in 256ths. -/
def unity : UInt16 := 256

def factorBound : UInt16 := unity

/-- Apparent over real power, at most one; zero without real power. -/
def powerFactorOf (averagePower : UInt32) (voltageRms currentRms : UInt16) : UInt16 :=
  if averagePower = 0 then 0
  else
    let apparent := voltageRms.toUInt64 * currentRms.toUInt64
    let ratio := (apparent <<< 8) / averagePower.toUInt64
    min (UInt16.ofNatClamp ratio.toNat) factorBound

/-- The power of a sum of products. The quotient drops its fraction; a negative power is
none. -/
def powerOf (sum : Int64) : UInt64 :=
  UInt64.ofNat ((sum + rescaleBias) / rescaleDivisor).toNatClampNeg

/-- The average power over a cycle: a hundred times its power, over its samples. -/
def averagePowerOf (power : UInt64) : UInt32 :=
  UInt32.ofNatClamp (power * 100 / UInt64.ofNat DesignPoint.cycleLength).toNat

/-- The energy of a cycle of a given power, at most a full word. -/
def energyOf (power : UInt64) (scale : TimeScale) : UInt64 :=
  UInt64.ofNatClamp (power.toNat * scale.value.toNat)

/-- The cost of an energy; the product with the rate is at most a full word. -/
def costOf (energy : UInt64) (rate : UInt32) : UInt64 :=
  UInt64.ofNatClamp ((energy >>> 16).toNat * rate.toNat) / joulesPerKilowattHour

/-- The bill of a cycle, from its sum of products and the RMS values of the moment. -/
def close (sum : Int64) (terms : BillingTerms) (voltageRms currentRms : UInt16) : CycleBill :=
  let power := powerOf sum
  let averagePower := averagePowerOf power
  let energy := energyOf power terms.scale
  { power, averagePower, energy
    cost := costOf energy terms.rate
    rate := terms.rate
    powerFactor := powerFactorOf averagePower voltageRms currentRms }

end CycleBill

/-- The totals after a bill. The count of cycles goes around; energy and cost do not. -/
def Totals.addBill (totals : Totals) (bill : CycleBill) : Totals :=
  { totals with
    averagePower := bill.averagePower
    energy := UInt64.ofNatClamp (totals.energy.toNat + bill.energy.toNat)
    cost := UInt64.ofNatClamp (totals.cost.toNat + bill.cost.toNat)
    powerFactor := bill.powerFactor
    cycles := totals.cycles + 1 }

structure CycleMeter where
  sum : Int64 := 0
  /-- Samples in the sum, fewer than a cycle. -/
  count : UInt8 := 0
  /-- It was reported that cycles close without a plan. -/
  warned : Bool := false
  deriving DecidableEq, Repr

/-- What became of one sample: the cycle in progress, the totals, and the bill of the
cycle if it closed. -/
structure CycleProgress where
  meter : CycleMeter
  totals : Totals
  bill : Option CycleBill
  deriving DecidableEq, Repr

namespace CycleMeter

def product (sample : Sample) : Int64 := sample.voltage.toInt64 * sample.current.toInt64

/-- The first cycle that closes at a rate of zero is reported, no other. -/
def reports (meter : CycleMeter) (rate : UInt32) : Bool := rate == 0 && !meter.warned

/-- Adds a sample to the cycle; the sixteenth closes it. -/
def add (meter : CycleMeter) (terms : BillingTerms) (totals : Totals)
    (sample : Sample) : Noted CycleProgress :=
  let sum := meter.sum + product sample
  let count := meter.count + 1
  if count < UInt8.ofNat DesignPoint.cycleLength then
    { value := { meter := { meter with sum, count }, totals, bill := none } }
  else
    let bill := CycleBill.close sum terms totals.voltageRms totals.currentRms
    let report := meter.reports terms.rate
    { value :=
        { meter := { sum := 0, count := 0, warned := meter.warned || report }
          totals := totals.addBill bill
          bill := some bill }
      log := if report then [.noPlan] else [] }

def describe (meter : CycleMeter) (hour : UInt8) : String :=
  Text.openRecord "CycleAggregator"
    [Text.field "clock" (Text.wrapped "Clock" (toString hour.toNat)),
      Text.field "sum" (toString meter.sum.toInt),
      Text.field "count" (toString meter.count.toNat)]

end CycleMeter

end EnergyMeter
