import EnergyMeter.Billing.Plan

/-!
# The log

Every record that the meter can leave, one constructor for each occasion. The wording and
the level are functions of the record, so a count of records is a count of constructors.
-/
namespace EnergyMeter

/-- How urgent a record is. -/
inductive LogLevel where
  | debug
  | info
  | warn
  deriving DecidableEq, Repr

namespace LogLevel

def text : LogLevel → String
  | debug => "DEBUG"
  | info => "INFO"
  | warn => "WARN"

end LogLevel

/-- What the meter reports about its own work. -/
inductive LogRecord where
  | windowFull (root : UInt32)
  /-- A half-cycle was off and moved the frequency offset. -/
  | offsetMoved (ticks expected before after : UInt8)
  | timerReloaded (period load : UInt32)
  | samplingStarted (period : UInt32) (offset : UInt8)
  | planLoaded (plan : Plan)
  | planSelected (plan : Plan)
  | storedByteInvalid (byte : UInt8)
  | storeReadFailed (code : Nat)
  | storeWriteFailed (code : Nat)
  | timeScaleSet (value : UInt32)
  | conversionFailed (input : AnalogInput) (code : Nat)
  | pairDropped (input : AnalogInput)
  | cycleSampleDropped
  /-- A cycle closed while no plan was in force. -/
  | noPlan
  /-- A round of the paced loop went without a sample. -/
  | sampleSkipped (fault : Fault)
  deriving DecidableEq, Repr

namespace LogRecord

def level : LogRecord → LogLevel
  | windowFull _ | offsetMoved .. | timerReloaded .. => .debug
  | samplingStarted .. | planLoaded _ | planSelected _ | timeScaleSet _ => .info
  | storedByteInvalid _ | storeReadFailed _ | storeWriteFailed _ => .warn
  | conversionFailed .. | pairDropped _ | cycleSampleDropped => .warn
  | noPlan | sampleSkipped _ => .warn

def text : LogRecord → String
  | windowFull root => s!"window full, cold RMS estimate {root.toNat}"
  | offsetMoved ticks expected before after =>
    s!"half-cycle of {ticks.toNat} ticks (expected {expected.toNat}), " ++
      s!"frequency offset {before.toNat} -> {after.toNat}"
  | timerReloaded period load =>
    s!"sampling timer reloaded: {period.toNat} ns, load value {load.toNat}"
  | samplingStarted period offset =>
    s!"sampling timer started at {period.toNat} ns (offset {offset.toNat})"
  | planLoaded plan => s!"tariff mode {plan.text} loaded"
  | planSelected plan => s!"tariff mode set to {plan.text}"
  | storedByteInvalid byte =>
    s!"stored tariff byte {byte.toNat} is invalid, defaulting to time-of-use"
  | storeReadFailed code => s!"tariff store read failed: StoreFault({code})"
  | storeWriteFailed code => s!"tariff store write failed: StoreFault({code})"
  | timeScaleSet value => s!"time base set to {value.toNat}"
  | conversionFailed input code => s!"ADC read on {input.text} failed: AdcFault({code})"
  | pairDropped input => s!"{input.text} consumer queue full, wake dropped"
  | cycleSampleDropped => "aggregator queue full, sample dropped"
  | noPlan => "no tariff loaded, energy is not being billed"
  | sampleSkipped fault => s!"sample skipped: {fault.message}"

/-- A record as a line: its level, a blank, its wording. -/
def line (record : LogRecord) : String := record.level.text ++ " " ++ record.text

end LogRecord

/-- A value together with the records that its computation left, in order. -/
structure Noted (α : Type) where
  value : α
  log : List LogRecord := []
  deriving DecidableEq, Repr

end EnergyMeter
