import EnergyMeter.Sampling.Intake

/-!
# Interrupt slots

An interrupt handler takes no arguments, so its intake lies in a slot that stays empty
until one is installed. A slot is used with queues that its owner keeps, or together with
queues of its own as the globals of a meter.
-/
namespace EnergyMeter

/-- The place of the intake that the interrupt drives. -/
structure InterruptSlot where
  intake : Option Intake := none
  deriving DecidableEq, Repr

namespace InterruptSlot

/-- Puts a fresh intake onto a converter into the slot. -/
def install (_ : InterruptSlot) (converter : Converter) : InterruptSlot :=
  ⟨some (.onto converter)⟩

/-- What a tick of the timer did: nothing for an empty slot. -/
structure Tick where
  result : Option (Except Fault Sample)
  slot : InterruptSlot
  queues : SampleQueues

/-- One tick of the sampling timer. -/
def tick (slot : InterruptSlot) (queues : SampleQueues) : Noted Tick :=
  match slot.intake with
  | none => { value := ⟨none, slot, queues⟩ }
  | some intake =>
    let handled := intake.interrupt queues
    { value := ⟨some handled.value.result, ⟨some handled.value.intake⟩, handled.value.queues⟩
      log := handled.log }

def appendScript (slot : InterruptSlot) (script : List Conversion) : InterruptSlot :=
  ⟨slot.intake.map fun intake =>
    { intake with converter := intake.converter.append script }⟩

def overruns? (slot : InterruptSlot) : Option UInt32 := slot.intake.map (·.overruns)

/-- The inputs that the installed converter was read at. -/
def reads (slot : InterruptSlot) : Array AnalogInput :=
  (slot.intake.map (·.converter.reads)).getD #[]

end InterruptSlot

/-- The globals of a meter driven by interrupts: the slot and the three queues. -/
structure MeterGlobals where
  slot : InterruptSlot := {}
  queues : SampleQueues := {}
  deriving DecidableEq, Repr

namespace MeterGlobals

/-- Installs a fresh intake; what waits in the queues is kept. -/
def setUp (globals : MeterGlobals) (converter : Converter) : MeterGlobals :=
  { globals with slot := { intake := some { converter, overruns := 0 } } }

/-- One tick of the sampling timer, none before an intake is installed. -/
def tick (globals : MeterGlobals) : Noted (Option (Except Fault Sample) × MeterGlobals) :=
  match globals with
  | ⟨⟨none⟩, _⟩ => { value := (none, globals) }
  | ⟨⟨some intake⟩, queues⟩ =>
    let handled := intake.interrupt queues
    { value := (some handled.value.result, ⟨⟨some handled.value.intake⟩, handled.value.queues⟩)
      log := handled.log }

end MeterGlobals

end EnergyMeter
