/-!
# The design point

The meter takes sixteen samples in each mains cycle. Every other size (the window, the
spacing of zero crossings, the divisor of the cycle power) follows from that choice.

The mains frequency is held as an offset of tenths of a hertz below 52.5 Hz. The sampling
period grows by one fixed step with each offset, so offset 25 is the nominal 50 Hz. The period
of a frequency in hertz is computed in binary32: a half is rounded away from zero, a quotient
that is no number or negative gives zero, and one that is too large the largest word.
-/
namespace EnergyMeter

namespace DesignPoint

def cycleLength : Nat := 16

def queueDepth : Nat := 4

def second : UInt32 := 1000000000

/-- The smallest frequency offset, the fastest mains. -/
def offsetMin : UInt8 := 0

/-- The offset of a 50 Hz mains. -/
def offsetNominal : UInt8 := 25

/-- The largest frequency offset, the slowest mains. -/
def offsetMax : UInt8 := 50

end DesignPoint

namespace MainsOffset

/-- Sampling period at the nominal 50 Hz. -/
def nominalPeriod : UInt32 := 1250000

/-- Sampling period at offset zero. -/
def fastestPeriod : UInt32 := 1187350

/-- Growth of the sampling period with one step of the offset. -/
def periodStep : UInt32 := 2506

/-- Mains frequency at offset zero, in tenths of a hertz. -/
def fastestDecihertz : UInt16 := 525

/-- The sampling period of an offset, in nanoseconds. -/
def period (offset : UInt8) : UInt32 :=
  fastestPeriod + periodStep * offset.toUInt32

/-- The mains frequency of an offset, in tenths of a hertz. -/
def decihertz (offset : UInt8) : UInt16 := fastestDecihertz - offset.toUInt16

end MainsOffset

/-- The sampling period of a mains frequency, in nanoseconds. -/
def NominalPeriod.ofHertz (mains : Float32) (cycleLength : UInt8) : UInt32 :=
  let rate := mains * Float32.ofNat cycleLength.toNat
  (Float32.ofNat DesignPoint.second.toNat / rate).round.toUInt32

end EnergyMeter
