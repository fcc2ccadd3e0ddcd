import EnergyMeter.Fault

/-!
# Plans

A plan sets the rate that energy is billed at, in 65536ths of a cent for a kilowatt-hour.
Two plans are flat; under the third the rate depends on the band that the hour falls in.
Each plan has a byte of its own, the form it is stored and reported in.
-/
namespace EnergyMeter

inductive Band where
  /-- Before seven and from twenty-two on. -/
  | offPeak
  /-- From seven to fourteen and from twenty to twenty-two. -/
  | shoulder
  /-- From fourteen to twenty. -/
  | peak
  deriving DecidableEq, Repr

namespace Band

def ofHour (hour : UInt8) : Band :=
  if hour < 7 || 22 ≤ hour then .offPeak
  else if hour < 14 || 20 ≤ hour then .shoulder
  else .peak

def rate : Band → UInt32
  | offPeak => 138215
  | shoulder => 288358
  | peak => 1457193

def text : Band → String
  | offPeak => "OffPeak"
  | shoulder => "Shoulder"
  | peak => "Peak"

end Band

inductive Plan where
  | timeOfUse
  | flatStandard
  | flatPremium
  deriving DecidableEq, Repr

namespace Plan

def byte : Plan → UInt8
  | timeOfUse => 1
  | flatStandard => 2
  | flatPremium => 3

def ofByte (byte : UInt8) : Except Fault Plan :=
  if byte = 1 then .ok .timeOfUse
  else if byte = 2 then .ok .flatStandard
  else if byte = 3 then .ok .flatPremium
  else .error (.unknownPlan byte)

theorem ofByte_byte (plan : Plan) : ofByte plan.byte = .ok plan := by
  cases plan <;> rfl

def rate (plan : Plan) (hour : UInt8) : UInt32 :=
  match plan with
  | timeOfUse => (Band.ofHour hour).rate
  | flatStandard => 112263
  | flatPremium => 268698

def text : Plan → String
  | timeOfUse => "TimeOfUse"
  | flatStandard => "FlatStandard"
  | flatPremium => "FlatPremium"

end Plan

end EnergyMeter
