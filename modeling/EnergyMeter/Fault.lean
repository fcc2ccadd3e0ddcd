/-!
# Faults and one-line texts

Every cause for which an operation of the meter can fail. The real-time path has none but
a failed conversion: all else there is clamped in place.

The one-line text of a state, like that of a fault, is its name, then its fields in order between
braces. A state that shows only some of its fields closes with two dots.
-/
namespace EnergyMeter

namespace Text

/-- A field and its value, `name: value`. -/
def field (name value : String) : String := name ++ ": " ++ value

/-- Every field of a state: the name, then the fields between braces. -/
def closedRecord (name : String) (fields : List String) : String :=
  name ++ " \x7b " ++ ", ".intercalate fields ++ " \x7d"

/-- Some fields of a state; the two dots stand for the rest. -/
def openRecord (name : String) (fields : List String) : String :=
  name ++ " \x7b " ++ ", ".intercalate (fields ++ [".."]) ++ " \x7d"

/-- A state of one unnamed field, `Name(value)`. -/
def wrapped (name value : String) : String := name ++ "(" ++ value ++ ")"

/-- A list of values, `[a, b]`. -/
def listed (values : List String) : String := "[" ++ ", ".intercalate values ++ "]"

def truth (b : Bool) : String := if b then "true" else "false"

end Text

inductive AnalogInput where
  | voltage
  | current
  deriving DecidableEq, Repr

namespace AnalogInput

def text : AnalogInput → String
  | voltage => "Voltage"
  | current => "Current"

end AnalogInput

inductive SettingIssue where
  | zeroVoltageRatio
  | zeroCurrentRatio
  | offsetTooHigh
  /-- An issue that the board states in its own words. -/
  | stated (words : String)
  deriving DecidableEq, Repr

namespace SettingIssue

def text : SettingIssue → String
  | zeroVoltageRatio => "voltage ratio must be non-zero"
  | zeroCurrentRatio => "current ratio must be non-zero"
  | offsetTooHigh => "initial frequency offset above 50"
  | stated words => words

end SettingIssue

inductive Fault where
  | unknownPlan (byte : UInt8)
  /-- The stored tariff byte could not be read or written. -/
  | storage
  /-- A clock of this rate has no tick of a whole nanosecond or more, or none at all. -/
  | clockOutOfRange (hertz : UInt32)
  | conversion (input : AnalogInput)
  | settings (issue : SettingIssue)
  deriving DecidableEq, Repr

namespace Fault

def message : Fault → String
  | unknownPlan byte => s!"invalid tariff mode {byte.toNat}"
  | storage => "tariff store access failed"
  | clockOutOfRange hertz => s!"module clock of {hertz.toNat} Hz is out of range"
  | conversion input => s!"analog read failed on the {input.text} channel"
  | settings issue => s!"invalid configuration: {issue.text}"

def describe : Fault → String
  | unknownPlan byte => Text.wrapped "InvalidTariffMode" (toString byte.toNat)
  | storage => "Storage"
  | clockOutOfRange hertz => Text.wrapped "InvalidModuleClock" (toString hertz.toNat)
  | conversion input => Text.wrapped "Adc" input.text
  | settings issue => Text.wrapped "Config" ("\"" ++ issue.text ++ "\"")

end Fault

end EnergyMeter
